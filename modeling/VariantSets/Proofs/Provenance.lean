import VariantSets.Proofs.BitSet.Exchange
import VariantSets.Proofs.BitSet.SymbolMap
import VariantSets.Proofs.TokenSet.Validity

/-! Where the flag of a set comes from. A ledger follows a session from its commands and answers alone and keeps,
for every set, what was done to it since it was made: copies and new sets begin without a past, and a set that is
moved takes its past along. In every session a set is frozen exactly if freezing or wrapping is part of its past. -/
namespace VariantSets

section
variable {V O P : Type}

def Mutation.isFreeze : Mutation V O → Bool
  | freeze => true
  | _ => false

theorem Mutation.isFreeze_iff {m : Mutation V O} : m.isFreeze = true ↔ m = .freeze := by
  cases m <;> simp [isFreeze]

theorem Mutation.isFreeze_map (g : O → P) (m : Mutation V O) : (m.map g).isFreeze = m.isFreeze := by
  cases m <;> rfl

end

namespace SetFamily

/-- New sets and copies are open, freezing freezes, and no other change sets or clears the flag. Neither copying nor
freezing alters the value. -/
structure FlagLaws (S : Type) {V R A : Type} [SetFamily S V R] (value : S → A) : Prop where
  empty : isFrozen (empty : S) = false
  full : isFrozen (full : S) = false
  ofVariants (vs : List V) {s : S} : ofVariants vs = .ok s → isFrozen s = false
  ofSource (r : R) {s : S} : ofSource r = .ok s → isFrozen s = false
  copy (s : S) : isFrozen (copy s) = false
  value_copy (s : S) : value (SetFamily.copy s) = value s
  freeze (s : S) : isFrozen (freeze s) = true
  value_freeze (s : S) : value (SetFamily.freeze s) = value s
  insert (s : S) (v : V) : isFrozen (insert s v).after = isFrozen s
  erase (s : S) (v : V) : isFrozen (erase s v).after = isFrozen s
  clear (s : S) : isFrozen (clear s).after = isFrozen s
  assign (s : S) (vs : List V) : isFrozen (assign s vs).after = isFrozen s
  union (s t : S) : isFrozen (union s t).after = isFrozen s
  inter (s t : S) : isFrozen (inter s t).after = isFrozen s
  sdiff (s t : S) : isFrozen (sdiff s t).after = isFrozen s
  symmDiff (s t : S) : isFrozen (symmDiff s t).after = isFrozen s
  compl (s : S) : isFrozen (compl s).after = isFrozen s

section
variable {S V R A : Type} [SetFamily S V R] {value : S → A}

theorem FlagLaws.build (laws : FlagLaws S value) {c : Construction V R} {s : S} (made : SetFamily.build c = .ok s) :
    isFrozen s = false := by
  cases c with
  | empty => exact Except.ok.inj made ▸ laws.empty
  | full => exact Except.ok.inj made ▸ laws.full
  | ofVariants vs => exact laws.ofVariants vs (mapError_eq_ok.1 made)
  | ofSource r => exact laws.ofSource r made

theorem FlagLaws.apply (laws : FlagLaws S value) (s : S) (m : Mutation V S) :
    isFrozen (SetFamily.apply s m).after = (isFrozen s || m.isFreeze) := by
  cases m with
  | freeze => simpa [SetFamily.apply, Mutation.isFreeze] using laws.freeze s
  | insert v => simpa [SetFamily.apply, Mutation.isFreeze] using laws.insert s v
  | erase v => simpa [SetFamily.apply, Mutation.isFreeze] using laws.erase s v
  | clear => simpa [SetFamily.apply, Mutation.isFreeze] using laws.clear s
  | assign vs => simpa [SetFamily.apply, Mutation.isFreeze] using laws.assign s vs
  | union t => simpa [SetFamily.apply, Mutation.isFreeze] using laws.union s t
  | inter t => simpa [SetFamily.apply, Mutation.isFreeze] using laws.inter s t
  | sdiff t => simpa [SetFamily.apply, Mutation.isFreeze] using laws.sdiff s t
  | symmDiff t => simpa [SetFamily.apply, Mutation.isFreeze] using laws.symmDiff s t
  | compl => simpa [SetFamily.apply, Mutation.isFreeze] using laws.compl s

theorem isFrozen_insertAll {insertAll : S → List V → Outcome S Unit} (nil : ∀ s, insertAll s [] = .done s ())
    (cons : ∀ s v vs, insertAll s (v :: vs) = (SetFamily.insert s v).andThen fun t _ => insertAll t vs)
    (insert : ∀ (s : S) v, isFrozen (SetFamily.insert s v).after = isFrozen s) (s : S) (vs : List V) :
    isFrozen (insertAll s vs).after = isFrozen s := by
  induction vs generalizing s with
  | nil => rw [nil, Outcome.after_done]
  | cons v vs ih =>
    rw [cons]
    exact Outcome.after_andThen (p := fun t => isFrozen t = isFrozen s) (insert s v) fun t _ kept => (ih t).trans kept

end

end SetFamily

open VariantSets.SetFamily

namespace BitSet
variable {V : Type} {E : Enumeration V} {w : Width}

theorem frozen_replace {B : Type} (s : BitSet E w) (b : Bitmap w) (a : B) :
    (s.replace b a).after.frozen = s.frozen := by
  unfold replace
  split <;> rfl

theorem frozen_insert (s : BitSet E w) (v : V) : (s.insert v).after.frozen = s.frozen := by
  unfold insert
  split
  · rfl
  · split
    · rfl
    · exact frozen_replace s _ true

theorem frozen_erase (s : BitSet E w) (v : V) : (s.erase v).after.frozen = s.frozen := by
  unfold erase
  split
  · rfl
  · split
    · exact frozen_replace s _ true
    · rfl

theorem frozen_clear (s : BitSet E w) : s.clear.after.frozen = s.frozen := by
  unfold clear
  split
  · rfl
  · exact frozen_replace s _ ()

theorem frozen_assign (s : BitSet E w) (vs : List V) : (s.assign vs).after.frozen = s.frozen := by
  refine Outcome.after_andThen (p := fun t : BitSet E w => t.frozen = s.frozen) (frozen_clear s) ?_
  intro t _ kept
  rw [← kept]
  exact isFrozen_insertAll (fun _ => rfl) (fun _ _ _ => rfl) frozen_insert t vs

theorem open_of_source {r : Source w} {s : BitSet E w} (made : ofSource E r = .ok s) : s.frozen = false := by
  cases r with
  | bitmap b => exact Except.ok.inj made ▸ rfl
  | symbols cs => exact (ofSymbols_eq_ok.1 (mapError_eq_ok.1 made)).2
  | json text => exact (ofSource_json_eq_ok.1 made).2
  | binary bytes => exact (ofSource_binary_eq_ok.1 made).2

theorem flagLaws (E : Enumeration V) (w : Width) : FlagLaws (BitSet E w) bitmap where
  empty := rfl
  full := rfl
  ofVariants vs _ made := Outcome.after_of_state made ▸ frozen_assign (empty E w) vs
  ofSource _ _ made := open_of_source made
  copy _ := rfl
  value_copy _ := rfl
  freeze _ := rfl
  value_freeze _ := rfl
  insert := frozen_insert
  erase := frozen_erase
  clear := frozen_clear
  assign := frozen_assign
  union s _ := frozen_replace s _ ()
  inter s _ := frozen_replace s _ ()
  sdiff s _ := frozen_replace s _ ()
  symmDiff s _ := frozen_replace s _ ()
  compl s := frozen_replace s _ ()

end BitSet

namespace TokenSet
variable {V : Type} {T : TokenTable V}

theorem frozen_replace {B : Type} (s : TokenSet T) (cs : List Char) (a : B) :
    (s.replace cs a).after.frozen = s.frozen := by
  unfold replace
  split <;> rfl

theorem frozen_insert (s : TokenSet T) (v : V) : (s.insert v).after.frozen = s.frozen := by
  unfold insert
  split
  · rfl
  · exact frozen_replace s _ true

theorem frozen_erase (s : TokenSet T) (v : V) : (s.erase v).after.frozen = s.frozen := by
  unfold erase
  split
  · exact frozen_replace s _ true
  · rfl

theorem frozen_clear (s : TokenSet T) : s.clear.after.frozen = s.frozen := by
  unfold clear
  split
  · rfl
  · exact frozen_replace s _ ()

theorem frozen_assign (s : TokenSet T) (vs : List V) : (s.assign vs).after.frozen = s.frozen := by
  refine Outcome.after_andThen (p := fun t : TokenSet T => t.frozen = s.frozen) (frozen_clear s) ?_
  intro t _ kept
  rw [← kept]
  exact isFrozen_insertAll (fun _ => rfl) (fun _ _ _ => rfl) frozen_insert t vs

theorem open_of_parse {cs : List Char} {s : TokenSet T} (made : parse T cs = .ok s) : s.frozen = false := by
  obtain ⟨_, rfl⟩ := parse_eq_ok.1 made
  rfl

theorem open_of_read {read : Option (List Char)} {s : TokenSet T} (made : ofRead T read = .ok s) :
    s.frozen = false := by
  cases read with
  | none => cases made
  | some cs => exact open_of_parse (mapError_eq_ok.1 made)

theorem open_of_source {r : Source} {s : TokenSet T} (made : ofSource T r = .ok s) : s.frozen = false := by
  cases r with
  | contents cs => exact Except.ok.inj made ▸ rfl
  | checked cs => exact open_of_parse (mapError_eq_ok.1 made)
  | json text => exact open_of_read (mapError_eq_ok.1 made)
  | binary bytes => exact open_of_read (mapError_eq_ok.1 made)

theorem flagLaws (T : TokenTable V) : FlagLaws (TokenSet T) contents where
  empty := rfl
  full := rfl
  ofVariants vs _ made := Outcome.after_of_state made ▸ frozen_assign (empty T) vs
  ofSource _ _ made := open_of_source made
  copy _ := rfl
  value_copy _ := rfl
  freeze _ := rfl
  value_freeze _ := rfl
  insert := frozen_insert
  erase := frozen_erase
  clear := frozen_clear
  assign := frozen_assign
  union s _ := frozen_replace s _ ()
  inter s _ := frozen_replace s _ ()
  sdiff s _ := frozen_replace s _ ()
  symmDiff s _ := frozen_replace s _ ()
  compl s := frozen_replace s _ ()

end TokenSet

inductive Deed (V : Type)
  | change (m : Mutation V Nat)
  | wrap

/-- The past of every set of a session, in the place where the set is. -/
abbrev Ledger (V : Type) := Session (List (Deed V))

namespace Ledger
variable {V R : Type}

def start : Ledger V := ⟨fun _ => [], fun _ => none⟩

/-- Follows a command with its answer. What is refused leaves no trace but a change, which is on record however it
was answered. -/
def record (L : Ledger V) : Command V R → Session.Answer → Ledger V
  | .mutate s m, _ => L.putSet s (L.sets s ++ [.change m])
  | _, .error _ => L
  | .create s _, .ok _ => L.putSet s []
  | .copy s _, .ok _ => L.putSet s []
  | .copyOut s _, .ok _ => L.putSet s []
  | .copyHandle _ target, .ok _ => L.putHandle target (some ⟨[]⟩)
  | .wrap s h, .ok _ => (L.putHandle h (some ⟨L.sets s ++ [.wrap]⟩)).putSet s []
  | .unwrap s h, .ok _ =>
    match L.handles h with
    | some x => (L.putSet s x.set).putHandle h none
    | none => L

def follow (L : Ledger V) : List (Command V R) → List Session.Answer → Ledger V
  | c :: cs, a :: as => (L.record c a).follow cs as
  | _, _ => L

end Ledger

/-- A set is frozen exactly if freezing or wrapping is part of its past. -/
def Attested {S V R : Type} [SetFamily S V R] (s : S) (past : List (Deed V)) : Prop :=
  isFrozen s = true ↔ .change .freeze ∈ past ∨ .wrap ∈ past

section
variable {S V R A : Type} [SetFamily S V R] {value : S → A} {σ : Session S} {L : Ledger V}

theorem attested_new {s : S} (opened : isFrozen s = false) : Attested s [] := by
  simp [Attested, opened]

theorem Attested.change (laws : FlagLaws S value) {s : S} {past : List (Deed V)} (h : Attested s past)
    (m : Mutation V Nat) (operands : Nat → S) :
    Attested (SetFamily.apply s (m.map operands)).after (past ++ [.change m]) := by
  have known : isFrozen s = true ↔ .change .freeze ∈ past ∨ .wrap ∈ past := h
  simp only [Attested, laws.apply, Mutation.isFreeze_map, Bool.or_eq_true, Mutation.isFreeze_iff, known,
    List.mem_append, List.mem_singleton, Deed.change.injEq, reduceCtorEq, or_false]
  grind

theorem attested_step (laws : FlagLaws S value) (h : Session.Related Attested σ L) (c : Command V R) :
    Session.Related Attested (σ.step c).2 (L.record c (σ.step c).1) := by
  cases c with
  | create s c =>
    simp only [Session.step]
    cases made : SetFamily.build (S := S) c with
    | ok x => exact h.putSet s (attested_new (laws.build made))
    | error e => exact h
  | mutate s m => exact h.putSet s ((h.sets s).change laws m σ.sets)
  | copy s source => exact h.putSet s (attested_new (laws.copy _))
  | wrap s k =>
    refine (h.putHandle k (.some ?_)).putSet s (attested_new laws.empty)
    simpa [Attested, Handle.wrap] using laws.freeze (σ.sets s)
  | unwrap s k =>
    rcases h.handle k with ⟨hx, hy⟩ | ⟨x, y, hx, hy, held⟩
    · simp only [Session.step, hx]
      exact h
    · simp only [Session.step, hx, Ledger.record, hy]
      exact (h.putSet s held).putHandle k .none
  | copyHandle k target =>
    rcases h.handle k with ⟨hx, _⟩ | ⟨x, _, hx, _, _⟩
    · simp only [Session.step, hx]
      exact h
    · simp only [Session.step, hx]
      exact h.putHandle target (.some (attested_new (laws.copy x.set)))
  | copyOut s k =>
    rcases h.handle k with ⟨hx, _⟩ | ⟨x, _, hx, _, _⟩
    · simp only [Session.step, hx]
      exact h
    · simp only [Session.step, hx]
      exact h.putSet s (attested_new (laws.copy x.set))

theorem attested_run (laws : FlagLaws S value) (h : Session.Related Attested σ L) (cs : List (Command V R)) :
    Session.Related Attested (σ.run cs).2 (L.follow cs (σ.run cs).1) := by
  induction cs generalizing σ L with
  | nil => exact h
  | cons c cs ih => exact ih (attested_step laws h c)

end

/-- Neither puts a set behind the handle `k` nor moves the one that is there. -/
def Command.Spares {V R : Type} (k : Nat) : Command V R → Prop
  | .wrap _ h => h ≠ k
  | .unwrap _ h => h ≠ k
  | .copyHandle _ target => target ≠ k
  | _ => True

section
variable {S V R A : Type} [SetFamily S V R] {value : S → A} {k : Nat}

theorem handles_step_of_spares {c : Command V R} (spares : c.Spares k) (σ : Session S) :
    (σ.step c).2.handles k = σ.handles k := by
  cases c with
  | create s c =>
    simp only [Session.step]
    split <;> rfl
  | mutate s m => rfl
  | copy s source => rfl
  | wrap s h => simp [Session.step, Ne.symm spares]
  | unwrap s h =>
    simp only [Session.step]
    split
    · simp [Ne.symm spares]
    · rfl
  | copyHandle h target =>
    simp only [Session.step]
    split
    · simp [Ne.symm spares]
    · rfl
  | copyOut s h =>
    simp only [Session.step]
    split <;> rfl

theorem handles_run_of_spares {cs : List (Command V R)} (spares : ∀ c ∈ cs, c.Spares k) (σ : Session S) :
    (σ.run cs).2.handles k = σ.handles k := by
  induction cs generalizing σ with
  | nil => rfl
  | cons c cs ih =>
    obtain ⟨first, rest⟩ := List.forall_mem_cons.1 spares
    exact (ih rest _).trans (handles_step_of_spares first σ)

end

/-- Where the flags of a family come from: in every script from the start, and in what a single command does to
whatever session. It makes no difference whether a set is replaced by a copy or takes over the other's value. -/
structure Provenance (S : Type) {V R A : Type} [SetFamily S V R] (value : S → A) (copyFrom : S → S → S) :
    Prop where
  attested (script : List (Command V R)) :
    let played := (Session.start : Session S).run script
    Session.Related Attested played.2 (Ledger.start.follow script played.1)
  change (s : S) (m : Mutation V S) : isFrozen (apply s m).after = (isFrozen s || m.isFreeze)
  create (σ : Session S) (s : Nat) (c : Construction V R) : (σ.step (.create s c)).1 = .ok none →
    isFrozen ((σ.step (.create s c)).2.sets s) = false
  copy (σ : Session S) (s source : Nat) :
    let x := (σ.step (.copy s source)).2.sets s
    x = copyFrom (σ.sets s) (σ.sets source) ∧ isFrozen x = false ∧ value x = value (σ.sets source)
  copyOut (σ : Session S) (s k : Nat) {x : Handle S} : σ.handles k = some x →
    let y := (σ.step (.copyOut s k)).2.sets s
    isFrozen y = false ∧ value y = value x.set
  copyHandle (σ : Session S) (k target : Nat) {x : Handle S} : σ.handles k = some x →
    ∃ y, (σ.step (.copyHandle k target)).2.handles target = some y ∧ isFrozen y.set = false ∧
      value y.set = value x.set
  /-- A wrapped set stays behind its handle until a command is for that handle. -/
  wrap (σ : Session S) (s k : Nat) (cs : List (Command V R)) : (∀ c ∈ cs, c.Spares k) →
    ∃ x, ((σ.step (.wrap s k)).2.run cs).2.handles k = some x ∧ isFrozen x.set = true ∧
      value x.set = value (σ.sets s)
  unwrap (σ : Session S) (s k : Nat) {x : Handle S} : σ.handles k = some x →
    let r := σ.step (.unwrap s k)
    r.1 = .ok none ∧ r.2.sets s = x.set ∧ r.2.handles k = none

theorem SetFamily.FlagLaws.provenance {S V R A : Type} [SetFamily S V R] {value : S → A} {copyFrom : S → S → S}
    (laws : FlagLaws S value) (copied : ∀ s t, SetFamily.copy t = copyFrom s t) : Provenance S value copyFrom where
  attested script := attested_run laws ⟨fun _ => attested_new laws.empty, fun _ => .none⟩ script
  change := laws.apply
  create σ s c := by
    simp only [Session.step]
    cases made : SetFamily.build (S := S) c with
    | ok x => simpa using laws.build made
    | error e => simp
  copy σ s source := by simpa [Session.step] using ⟨copied _ _, laws.copy _, laws.value_copy _⟩
  copyOut σ s k x held := by simpa [Session.step, held] using ⟨laws.copy _, laws.value_copy _⟩
  copyHandle σ k target x held := by
    refine ⟨x.copy, by simp [Session.step, held], laws.copy x.set, laws.value_copy x.set⟩
  wrap σ s k cs spares := by
    refine ⟨.wrap (σ.sets s), ?_, laws.freeze _, laws.value_freeze _⟩
    rw [handles_run_of_spares spares]
    simp [Session.step]
  unwrap σ s k x held := by simp [Session.step, held]

/-- In both families a set is frozen exactly if it was frozen or put behind a handle since it was made. Every way to
make a set, copies of frozen ones among them, gives an open one; of the changes only freezing touches the flag; and
what is put behind a handle stays there frozen, with its value, until it is moved out as it is. -/
theorem flag_provenance :
    (∀ {V : Type} (E : Enumeration V) (w : Width), Provenance (BitSet E w) BitSet.bitmap BitSet.copyFrom) ∧
    ∀ {V : Type} (T : TokenTable V), Provenance (TokenSet T) TokenSet.contents TokenSet.copyFrom := by
  constructor
  · intro V E w
    exact (BitSet.flagLaws E w).provenance fun _ _ => rfl
  · intro V T
    exact (TokenSet.flagLaws T).provenance fun _ _ => rfl

def pairScript : List (Command (Fin 2) (BitSet.Source .byte)) :=
  -- A set is moved behind a handle and out again into another place, where it refuses a change that its copy takes.
  [.create 0 .full, .wrap 0 0, .unwrap 1 0, .copy 2 1, .mutate 1 (.erase 0), .mutate 2 (.erase 0)]

theorem flag_provenance_pair :
    let played := (Session.start : Session (BitSet BitSet.pair .byte)).run pairScript
    let later : List (Command (Fin 2) (BitSet.Source .byte)) := [.mutate 1 .clear, .copyHandle 0 1, .copyOut 1 0]
    Session.Related Attested played.2 (Ledger.start.follow pairScript played.1) ∧
      (played.2.sets 1, played.2.sets 2) = (⟨3#8, true⟩, ⟨2#8, false⟩) ∧
      (∀ c ∈ later, c.Spares 0) ∧
      ∃ x, ((played.2.step (.wrap 1 0)).2.run later).2.handles 0 = some x ∧ isFrozen x.set = true ∧
        x.set.bitmap = 3#8 := by
  intro played later
  have byBits := flag_provenance.1 BitSet.pair .byte
  have spares : ∀ c ∈ later, c.Spares 0 := by simp [later, Command.Spares]
  exact ⟨byBits.attested pairScript, rfl, spares, byBits.wrap played.2 1 0 later spares⟩

end VariantSets
