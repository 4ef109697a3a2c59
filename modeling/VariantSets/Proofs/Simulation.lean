import Mathlib.Data.List.Forall2
import VariantSets.Session

/-! Two families of sets that answer alike. A simulation is given by one fact for each operation; from these
follow the step of a session and, by induction, a whole script. An invariant of one family is the special case
in which both families are the same and related sets are equal. -/
namespace VariantSets

inductive Alike {D E A B : Type} (err : D → E → Prop) (val : A → B → Prop) : Except D A → Except E B → Prop
  | ok {a : A} {b : B} : val a b → Alike err val (.ok a) (.ok b)
  | error {d : D} {e : E} : err d e → Alike err val (.error d) (.error e)

namespace Alike
variable {D E A B : Type} {err : D → E → Prop} {val : A → B → Prop} {x : Except D A} {y : Except E B}

theorem map {A' B' : Type} {val' : A' → B' → Prop} {f : A → A'} {g : B → B'}
    (h : Alike err val x y) (maps : ∀ a b, val a b → val' (f a) (g b)) :
    Alike err val' (x.map f) (y.map g) := by
  cases h with
  | ok h => exact .ok (maps _ _ h)
  | error h => exact .error h

theorem mapError {D' E' : Type} {err' : D' → E' → Prop} {f : D → D'} {g : E → E'}
    (h : Alike err val x y) (maps : ∀ d e, err d e → err' (f d) (g e)) :
    Alike err' val (x.mapError f) (y.mapError g) := by
  cases h with
  | ok h => exact .ok h
  | error h => exact .error (maps _ _ h)

theorem eq {x y : Except D A} (h : Alike Eq Eq x y) : x = y := by
  cases h with
  | ok h => exact congrArg _ h
  | error h => exact congrArg _ h

theorem eq_of_forall₂ {xs ys : List (Except D A)} (h : List.Forall₂ (Alike Eq Eq) xs ys) : xs = ys := by
  induction h with
  | nil => rfl
  | cons same _ ih => rw [same.eq, ih]

theorem refl {err : D → D → Prop} (same : ∀ d, err d d) (x : Except D A) : Alike err Eq x x := by
  cases x with
  | ok a => exact .ok rfl
  | error d => exact .error (same d)

theorem self {err : D → D → Prop} {p : A → Prop} (refl : ∀ d, err d d) (x : Except D A)
    (holds : ∀ a, x = .ok a → p a) : Alike err (fun a b => a = b ∧ p a) x x := by
  cases x with
  | ok a => exact .ok ⟨rfl, holds a rfl⟩
  | error d => exact .error (refl d)

end Alike

/-- Two outcomes with the same answer, up to related refusals, that leave related states behind. -/
structure Outcome.Matches {S T A : Type} (err : Refusal → Refusal → Prop) (rel : S → T → Prop)
    (o : Outcome S A) (p : Outcome T A) : Prop where
  answer : Alike (fun f f' => err (.fault f) (.fault f')) Eq o.answer p.answer
  after : rel o.after p.after

namespace Outcome.Matches
variable {S T A B : Type} {err : Refusal → Refusal → Prop} {rel : S → T → Prop} {s : S} {t : T}
  {o : Outcome S A} {p : Outcome T A}

theorem done (related : rel s t) (a : A) : Matches err rel (.done s a) (.done t a) := by
  constructor
  · exact .ok rfl
  · exact related

theorem refuse {f f' : Fault} (related : rel s t) (same : err (.fault f) (.fault f')) :
    Matches (A := A) err rel (.refuse s f) (.refuse t f') := by
  constructor
  · exact .error same
  · exact related

theorem map (h : Matches err rel o p) (f : A → B) : Matches err rel (o.map f) (p.map f) := by
  constructor
  · exact h.answer.map fun _ _ same => congrArg f same
  · exact h.after

theorem andThen {next : S → A → Outcome S B} {next' : T → A → Outcome T B} (h : Matches err rel o p)
    (goes : ∀ {s t} a, rel s t → Matches err rel (next s a) (next' t a)) :
    Matches err rel (o.andThen next) (p.andThen next') := by
  obtain ⟨x, s⟩ := o
  obtain ⟨y, t⟩ := p
  obtain ⟨answer, after⟩ := h
  cases answer with
  | ok same =>
    subst same
    exact goes _ after
  | error same => exact refuse after same

theorem self {p : S → Prop} {o : Outcome S A} (holds : p o.after) :
    Matches Eq (fun s t => s = t ∧ p s) o o := by
  refine ⟨.refl ?_ o.answer, rfl, holds⟩
  exact fun _ => rfl

theorem state (h : Matches err rel o p) :
    Alike (fun f f' => err (.fault f) (.fault f')) rel o.state p.state := by
  apply h.answer.map
  intro _ _ _
  exact h.after

end Outcome.Matches

/-- One family follows another: every operation takes related sets to related sets, with answers that agree up
to related refusals. The maps `g` and `h` say which sources of the two families belong together. -/
structure Simulation {S T V P Q R : Type} [SetFamily S V P] [SetFamily T V Q] (g : R → P) (h : R → Q)
    (err : Refusal → Refusal → Prop) (rel : S → T → Prop) : Prop where
  noHandle : err .noHandle .noHandle
  empty : rel SetFamily.empty SetFamily.empty
  full : rel SetFamily.full SetFamily.full
  ofVariants (vs : List V) : Alike (fun f f' => err (.fault f) (.fault f')) rel
    (SetFamily.ofVariants vs) (SetFamily.ofVariants vs)
  ofSource (r : R) : Alike err rel (SetFamily.ofSource (g r)) (SetFamily.ofSource (h r))
  copy {s : S} {t : T} : rel s t → rel (SetFamily.copy s) (SetFamily.copy t)
  freeze {s : S} {t : T} : rel s t → rel (SetFamily.freeze s) (SetFamily.freeze t)
  insert {s : S} {t : T} (v : V) : rel s t →
    (SetFamily.insert s v).Matches err rel (SetFamily.insert t v)
  erase {s : S} {t : T} (v : V) : rel s t →
    (SetFamily.erase s v).Matches err rel (SetFamily.erase t v)
  clear {s : S} {t : T} : rel s t → (SetFamily.clear s).Matches err rel (SetFamily.clear t)
  assign {s : S} {t : T} (vs : List V) : rel s t →
    (SetFamily.assign s vs).Matches err rel (SetFamily.assign t vs)
  union {s s' : S} {t t' : T} : rel s t → rel s' t' →
    (SetFamily.union s s').Matches err rel (SetFamily.union t t')
  inter {s s' : S} {t t' : T} : rel s t → rel s' t' →
    (SetFamily.inter s s').Matches err rel (SetFamily.inter t t')
  sdiff {s s' : S} {t t' : T} : rel s t → rel s' t' →
    (SetFamily.sdiff s s').Matches err rel (SetFamily.sdiff t t')
  symmDiff {s s' : S} {t t' : T} : rel s t → rel s' t' →
    (SetFamily.symmDiff s s').Matches err rel (SetFamily.symmDiff t t')
  compl {s : S} {t : T} : rel s t → (SetFamily.compl s).Matches err rel (SetFamily.compl t)

structure Session.Related {S T : Type} (rel : S → T → Prop) (σ : Session S) (τ : Session T) : Prop where
  sets (i : Nat) : rel (σ.sets i) (τ.sets i)
  handles (h : Nat) : Option.Rel (fun x y => rel x.set y.set) (σ.handles h) (τ.handles h)

namespace Session.Related
variable {S T : Type} {rel : S → T → Prop} {σ : Session S} {τ : Session T}

theorem putSet {x : S} {y : T} (h : Related rel σ τ) (s : Nat) (new : rel x y) :
    Related rel (σ.putSet s x) (τ.putSet s y) := by
  refine ⟨fun i => ?_, h.handles⟩
  by_cases hi : i = s
  · simpa [hi] using new
  · simpa [hi] using h.sets i

theorem putHandle {x : Option (Handle S)} {y : Option (Handle T)} (h : Related rel σ τ) (k : Nat)
    (new : Option.Rel (fun x y => rel x.set y.set) x y) :
    Related rel (σ.putHandle k x) (τ.putHandle k y) := by
  refine ⟨h.sets, fun i => ?_⟩
  by_cases hi : i = k
  · simpa [hi] using new
  · simpa [hi] using h.handles i

theorem handle (h : Related rel σ τ) (k : Nat) :
    (σ.handles k = none ∧ τ.handles k = none) ∨
      ∃ x y, σ.handles k = some x ∧ τ.handles k = some y ∧ rel x.set y.set := by
  have held := h.handles k
  revert held
  generalize σ.handles k = x
  generalize τ.handles k = y
  intro held
  cases held with
  | none => exact .inl ⟨rfl, rfl⟩
  | some held => exact .inr ⟨_, _, rfl, rfl, held⟩

theorem imp {rel' : S → T → Prop} (h : Related rel σ τ) (weaker : ∀ {s t}, rel s t → rel' s t) :
    Related rel' σ τ := by
  refine ⟨fun i => weaker (h.sets i), fun k => ?_⟩
  rcases h.handle k with ⟨hx, hy⟩ | ⟨x, y, hx, hy, held⟩
  · rw [hx, hy]
    exact .none
  · rw [hx, hy]
    exact .some (weaker held)

theorem join {U : Type} {rel' : U → T → Prop} {both : S → U → Prop} {υ : Session U} (h : Related rel σ τ)
    (h' : Related rel' υ τ) (joins : ∀ {s u t}, rel s t → rel' u t → both s u) : Related both σ υ := by
  refine ⟨fun i => joins (h.sets i) (h'.sets i), fun k => ?_⟩
  rcases h.handle k with ⟨hx, hy⟩ | ⟨x, y, hx, hy, held⟩ <;>
    rcases h'.handle k with ⟨hz, hy'⟩ | ⟨z, y', hz, hy', held'⟩ <;> rw [hy] at hy' <;> cases hy' <;> rw [hx, hz]
  · exact .none
  · exact .some (joins held held')

end Session.Related

namespace Simulation
variable {S T V P Q R : Type} [SetFamily S V P] [SetFamily T V Q] {g : R → P} {h : R → Q}
  {err : Refusal → Refusal → Prop} {rel : S → T → Prop}

theorem build (sim : Simulation g h err rel) (c : Construction V R) :
    Alike err rel (SetFamily.build (c.map g)) (SetFamily.build (c.map h)) := by
  cases c with
  | empty => exact .ok sim.empty
  | full => exact .ok sim.full
  | ofVariants vs => exact (sim.ofVariants vs).mapError fun _ _ same => same
  | ofSource r => exact sim.ofSource r

theorem apply (sim : Simulation g h err rel) {O : Type} {a : O → S} {b : O → T} {s : S} {t : T}
    (operands : ∀ o, rel (a o) (b o)) (related : rel s t) (m : Mutation V O) :
    (SetFamily.apply s (m.map a)).Matches err rel (SetFamily.apply t (m.map b)) := by
  cases m with
  | insert v => exact (sim.insert v related).map some
  | erase v => exact (sim.erase v related).map some
  | clear => exact (sim.clear related).map _
  | assign vs => exact (sim.assign vs related).map _
  | union o => exact (sim.union related (operands o)).map _
  | inter o => exact (sim.inter related (operands o)).map _
  | sdiff o => exact (sim.sdiff related (operands o)).map _
  | symmDiff o => exact (sim.symmDiff related (operands o)).map _
  | compl => exact (sim.compl related).map _
  | freeze => exact .done (sim.freeze related) _

theorem start (sim : Simulation g h err rel) :
    Session.Related rel (Session.start : Session S) (Session.start : Session T) := by
  constructor
  · intro i
    exact sim.empty
  · intro i
    exact .none

theorem step (sim : Simulation g h err rel) {σ : Session S} {τ : Session T}
    (related : Session.Related rel σ τ) (c : Command V R) :
    Alike err Eq (σ.step (c.map g)).1 (τ.step (c.map h)).1 ∧
      Session.Related rel (σ.step (c.map g)).2 (τ.step (c.map h)).2 := by
  cases c with
  | create s c =>
    have built := sim.build c
    simp only [Command.map, Session.step]
    revert built
    generalize SetFamily.build (S := S) (c.map g) = x
    generalize SetFamily.build (S := T) (c.map h) = y
    intro built
    cases built with
    | ok new => exact ⟨.ok rfl, related.putSet s new⟩
    | error same => exact ⟨.error same, related⟩
  | mutate s m =>
    have outcome := sim.apply related.sets (related.sets s) m
    exact ⟨outcome.answer.mapError fun _ _ same => same, related.putSet s outcome.after⟩
  | copy s source => exact ⟨.ok rfl, related.putSet s (sim.copy (related.sets source))⟩
  | wrap s k =>
    refine ⟨.ok rfl, (related.putHandle k (.some ?_)).putSet s sim.empty⟩
    exact sim.freeze (related.sets s)
  | unwrap s k =>
    rcases related.handle k with ⟨hx, hy⟩ | ⟨x, y, hx, hy, held⟩
    · simp only [Command.map, Session.step, hx, hy]
      exact ⟨.error sim.noHandle, related⟩
    · simp only [Command.map, Session.step, hx, hy]
      exact ⟨.ok rfl, (related.putSet s held).putHandle k .none⟩
  | copyHandle k target =>
    rcases related.handle k with ⟨hx, hy⟩ | ⟨x, y, hx, hy, held⟩
    · simp only [Command.map, Session.step, hx, hy]
      exact ⟨.error sim.noHandle, related⟩
    · simp only [Command.map, Session.step, hx, hy]
      exact ⟨.ok rfl, related.putHandle target (.some (sim.copy held))⟩
  | copyOut s k =>
    rcases related.handle k with ⟨hx, hy⟩ | ⟨x, y, hx, hy, held⟩
    · simp only [Command.map, Session.step, hx, hy]
      exact ⟨.error sim.noHandle, related⟩
    · simp only [Command.map, Session.step, hx, hy]
      exact ⟨.ok rfl, related.putSet s (sim.copy held)⟩

theorem run (sim : Simulation g h err rel) (cs : List (Command V R)) {σ : Session S} {τ : Session T}
    (related : Session.Related rel σ τ) :
    List.Forall₂ (Alike err Eq) (σ.run (cs.map (Command.map g))).1 (τ.run (cs.map (Command.map h))).1 ∧
      Session.Related rel (σ.run (cs.map (Command.map g))).2 (τ.run (cs.map (Command.map h))).2 := by
  -- Related sessions are all that a step asks for and what it leaves, so the script may go on from any two.
  induction cs generalizing σ τ with
  | nil => exact ⟨.nil, related⟩
  | cons c cs ih =>
    obtain ⟨same, next⟩ := sim.step related c
    obtain ⟨rest, final⟩ := ih next
    exact ⟨.cons same rest, final⟩

theorem play (sim : Simulation g h err rel) (script : List (Command V R)) :
    List.Forall₂ (Alike err Eq) (Session.play S g script).1 (Session.play T h script).1 ∧
      Session.Related rel (Session.play S g script).2 (Session.play T h script).2 := by
  exact sim.run script sim.start

end Simulation

theorem Outcome.after_andThen {S A B : Type} {p : S → Prop} {o : Outcome S A} {next : S → A → Outcome S B}
    (holds : p o.after) (goes : ∀ s a, p s → p (next s a).after) : p (o.andThen next).after := by
  obtain ⟨x, s⟩ := o
  cases x with
  | ok a => exact goes s a holds
  | error f => exact holds

theorem Outcome.after_of_state {S A : Type} {o : Outcome S A} {s : S} (h : o.state = .ok s) : o.after = s := by
  obtain ⟨x, t⟩ := o
  cases x with
  | ok a => exact Except.ok.inj h
  | error f => cases h

theorem mapError_eq_ok {D E A : Type} {f : D → E} {x : Except D A} {a : A} :
    x.mapError f = .ok a ↔ x = .ok a := by
  cases x <;> simp [Except.mapError]

theorem mapError_eq_error {D E A : Type} {f : D → E} {x : Except D A} {e : E} :
    x.mapError f = .error e ↔ ∃ d, x = .error d ∧ e = f d := by
  cases x <;> simp [Except.mapError, eq_comm]

theorem map_eq_error {E A B : Type} {f : A → B} {x : Except E A} {e : E} : x.map f = .error e ↔ x = .error e := by
  cases x <;> simp [Except.map]

structure Invariant {S V Q R : Type} [SetFamily S V Q] (g : R → Q) (p : S → Prop) : Prop where
  empty : p SetFamily.empty
  full : p SetFamily.full
  ofVariants (vs : List V) {s : S} : SetFamily.ofVariants vs = .ok s → p s
  ofSource (r : R) {s : S} : SetFamily.ofSource (g r) = .ok s → p s
  copy {s : S} : p s → p (SetFamily.copy s)
  freeze {s : S} : p s → p (SetFamily.freeze s)
  insert {s : S} (v : V) : p s → p (SetFamily.insert s v).after
  erase {s : S} (v : V) : p s → p (SetFamily.erase s v).after
  clear {s : S} : p s → p (SetFamily.clear s).after
  assign {s : S} (vs : List V) : p s → p (SetFamily.assign s vs).after
  union {s t : S} : p s → p t → p (SetFamily.union s t).after
  inter {s t : S} : p s → p t → p (SetFamily.inter s t).after
  sdiff {s t : S} : p s → p t → p (SetFamily.sdiff s t).after
  symmDiff {s t : S} : p s → p t → p (SetFamily.symmDiff s t).after
  compl {s : S} : p s → p (SetFamily.compl s).after

namespace Invariant
variable {S V Q R : Type} [SetFamily S V Q] {g : R → Q} {p : S → Prop}

theorem simulation (inv : Invariant g p) : Simulation g g Eq fun s t : S => s = t ∧ p s where
  noHandle := rfl
  empty := ⟨rfl, inv.empty⟩
  full := ⟨rfl, inv.full⟩
  ofVariants vs := by
    refine .self ?_ _ fun _ made => inv.ofVariants vs made
    exact fun _ => rfl
  ofSource r := .self (fun _ => rfl) _ fun _ made => inv.ofSource r made
  copy := fun ⟨same, hs⟩ => ⟨congrArg _ same, inv.copy hs⟩
  freeze := fun ⟨same, hs⟩ => ⟨congrArg _ same, inv.freeze hs⟩
  insert v := fun ⟨same, hs⟩ => same ▸ .self (inv.insert v hs)
  erase v := fun ⟨same, hs⟩ => same ▸ .self (inv.erase v hs)
  clear := fun ⟨same, hs⟩ => same ▸ .self (inv.clear hs)
  assign vs := fun ⟨same, hs⟩ => same ▸ .self (inv.assign vs hs)
  union := fun ⟨same, hs⟩ ⟨same', hs'⟩ => same ▸ same' ▸ .self (inv.union hs hs')
  inter := fun ⟨same, hs⟩ ⟨same', hs'⟩ => same ▸ same' ▸ .self (inv.inter hs hs')
  sdiff := fun ⟨same, hs⟩ ⟨same', hs'⟩ => same ▸ same' ▸ .self (inv.sdiff hs hs')
  symmDiff := fun ⟨same, hs⟩ ⟨same', hs'⟩ => same ▸ same' ▸ .self (inv.symmDiff hs hs')
  compl := fun ⟨same, hs⟩ => same ▸ .self (inv.compl hs)

theorem play (inv : Invariant g p) (script : List (Command V R)) (i : Nat) :
    p ((Session.play S g script).2.sets i) := by
  obtain ⟨_, related⟩ := inv.simulation.play script
  exact (related.sets i).2

end Invariant

end VariantSets
