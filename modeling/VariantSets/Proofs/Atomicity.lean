import VariantSets.Proofs.BitSet.Bulk
import VariantSets.Proofs.TokenSet.History

/-! What is left behind when a change is refused. Every change is made in one piece or not at all, but for giving an
open bit set a list of variants: there the members before the first without a place stay, whatever the set held. -/
namespace VariantSets

namespace Outcome
variable {S A B : Type} {s : S}

def Atomic (o : Outcome S A) (s : S) : Prop := ∀ f, o.answer = .error f → o.after = s

theorem Atomic.of_after {o : Outcome S A} (same : o.after = s) : o.Atomic s := by
  intro f refused
  exact same

theorem Atomic.done (t : S) (a : A) : (Outcome.done t a).Atomic s := by
  intro f refused
  cases refused

theorem Atomic.refuse (s : S) (f : Fault) : (Outcome.refuse s f : Outcome S A).Atomic s := by
  apply Atomic.of_after
  rfl

theorem Atomic.map {o : Outcome S A} (h : o.Atomic s) (g : A → B) : (o.map g).Atomic s := by
  intro f refused
  rw [after_map]
  exact h f (map_eq_error.1 refused)

end Outcome

open VariantSets.Outcome (Atomic)
open VariantSets.SetFamily

/-- All changes but that to a list leave the set `s` as it was if they are refused. -/
structure SetFamily.Undivided {S V R : Type} [SetFamily S V R] (s : S) : Prop where
  insert (v : V) : (SetFamily.insert s v).Atomic s
  erase (v : V) : (SetFamily.erase s v).Atomic s
  clear : (SetFamily.clear s).Atomic s
  union (t : S) : (SetFamily.union s t).Atomic s
  inter (t : S) : (SetFamily.inter s t).Atomic s
  sdiff (t : S) : (SetFamily.sdiff s t).Atomic s
  symmDiff (t : S) : (SetFamily.symmDiff s t).Atomic s
  compl : (SetFamily.compl s).Atomic s

theorem SetFamily.Undivided.apply {S V R : Type} [SetFamily S V R] {s : S} (h : Undivided s) {m : Mutation V S}
    (assign : ∀ vs, m = .assign vs → (SetFamily.assign s vs).Atomic s) : (SetFamily.apply s m).Atomic s := by
  cases m with
  | insert v => exact (h.insert v).map some
  | erase v => exact (h.erase v).map some
  | clear => exact h.clear.map _
  | assign vs => exact (assign vs rfl).map _
  | union t => exact (h.union t).map _
  | inter t => exact (h.inter t).map _
  | sdiff t => exact (h.sdiff t).map _
  | symmDiff t => exact (h.symmDiff t).map _
  | compl => exact h.compl.map _
  | freeze => exact .done (SetFamily.freeze s) none

namespace BitSet
variable {V A : Type} {E : Enumeration V} {w : Width} (s : BitSet E w)

theorem atomic_replace (b : Bitmap w) (a : A) : (s.replace b a).Atomic s := by
  unfold replace
  split
  · exact .refuse s _
  · exact .done _ a

theorem atomic_insert (v : V) : (s.insert v).Atomic s := by
  unfold insert
  split
  · exact .refuse s _
  · split
    · exact .done s false
    · exact s.atomic_replace _ true

theorem atomic_erase (v : V) : (s.erase v).Atomic s := by
  unfold erase
  split
  · exact .refuse s _
  · split
    · exact s.atomic_replace _ true
    · exact .done s false

theorem atomic_clear : s.clear.Atomic s := by
  unfold clear
  split
  · exact .done s ()
  · exact s.atomic_replace _ ()

theorem undivided : Undivided s where
  insert := s.atomic_insert
  erase := s.atomic_erase
  clear := s.atomic_clear
  union _ := s.atomic_replace _ ()
  inter _ := s.atomic_replace _ ()
  sdiff _ := s.atomic_replace _ ()
  symmDiff _ := s.atomic_replace _ ()
  compl := s.atomic_replace _ ()

theorem atomic_apply {m : Mutation V (BitSet E w)} (h : s.frozen = true ∨ ∀ vs, m ≠ .assign vs) :
    (apply s m).Atomic s := by
  refine s.undivided.apply fun vs same => ?_
  rcases h with frozen | other
  · exact .of_after (congrArg Outcome.after (assign_of_frozen frozen vs))
  · exact absurd same (other vs)

theorem assign_partial {s : BitSet E w} (opened : s.frozen = false) (vs : List V) :
    ((∀ v ∈ vs, E.ordinal v < limit E w) ∧ ∃ b, s.assign vs = .done ⟨b, false⟩ () ∧ Collects E vs b) ∨
      ∃ before v b, FirstBeyond E (limit E w) vs before v ∧ Collects E before b ∧
        s.assign vs = .refuse ⟨b, false⟩ (.ordinalOutOfRange (E.name v) (E.ordinal v) (limit E w)) := by
  -- Either all variants have a place, or the loop ends at the first that has none.
  rcases below_or_firstBeyond E (limit E w) vs with below | ⟨before, v, first⟩
  · exact .inl ⟨below, assign_of_lt opened below⟩
  · obtain ⟨b, assigned, collects⟩ := assign_of_firstBeyond opened first
    exact .inr ⟨before, v, b, first, collects, assigned⟩

end BitSet

namespace TokenSet
variable {V A : Type} {T : TokenTable V} {s : TokenSet T}

theorem insertAll_eq_appendMissing (opened : s.frozen = false) (vs : List V) :
    s.insertAll vs = .done ⟨appendMissing s.contents (vs.map T.token), false⟩ () := by
  induction vs generalizing s with
  | nil =>
    obtain ⟨cs, frozen⟩ := s
    subst opened
    rfl
  | cons v vs ih =>
    rw [insertAll, insert_of_open opened, Outcome.andThen_done, ih rfl]
    rfl

theorem assign_newcomers (opened : s.frozen = false) (vs : List V) :
    ∃ es, s.assign vs = .done ⟨es, false⟩ () ∧ Newcomers [] (vs.map T.token) es := by
  obtain ⟨es, appended, new⟩ := exists_newcomers [] (vs.map T.token)
  have contents : appendMissing (empty T).contents (vs.map T.token) = es := appended
  refine ⟨es, ?_, new⟩
  rw [assign, clear_of_open opened, Outcome.andThen_done, insertAll_eq_appendMissing rfl, contents]

theorem atomic_replace (s : TokenSet T) (cs : List Char) (a : A) : (s.replace cs a).Atomic s := by
  unfold replace
  split
  · exact .refuse s _
  · exact .done _ a

theorem atomic_insert (s : TokenSet T) (v : V) : (s.insert v).Atomic s := by
  unfold insert
  split
  · exact .done s false
  · exact s.atomic_replace _ true

theorem atomic_erase (s : TokenSet T) (v : V) : (s.erase v).Atomic s := by
  unfold erase
  split
  · exact s.atomic_replace _ true
  · exact .done s false

theorem atomic_clear (s : TokenSet T) : s.clear.Atomic s := by
  unfold clear
  split
  · exact .done s ()
  · exact s.atomic_replace _ ()

theorem atomic_assign (s : TokenSet T) (vs : List V) : (s.assign vs).Atomic s := by
  cases open? : s.frozen with
  | true => exact .of_after (congrArg Outcome.after (assign_of_frozen open? vs))
  | false =>
    obtain ⟨es, assigned, _⟩ := assign_newcomers open? vs
    exact assigned ▸ .done _ ()

theorem undivided (s : TokenSet T) : Undivided s where
  insert := s.atomic_insert
  erase := s.atomic_erase
  clear := s.atomic_clear
  union _ := s.atomic_replace _ ()
  inter _ := s.atomic_replace _ ()
  sdiff _ := s.atomic_replace _ ()
  symmDiff _ := s.atomic_replace _ ()
  compl := s.atomic_replace _ ()

end TokenSet

/-- A refused change leaves both kinds of sets as they were, frozen or not and whatever they hold, unless an open bit
set is given a list. Then the first variant without a place is refused, and the set has the bits of those in front of
it and no others; if there is none it has those of the whole list. An open token set takes every list, and has its
tokens each once, in the order in which they first occur. -/
theorem refusals_atomic :
    (∀ {V : Type} {E : Enumeration V} {w : Width} (s : BitSet E w),
      (∀ m : Mutation V (BitSet E w), (s.frozen = true ∨ ∀ vs, m ≠ .assign vs) → (apply s m).Atomic s) ∧
      (s.frozen = false → ∀ vs : List V,
        ((∀ v ∈ vs, E.ordinal v < min w.capacity E.count) ∧
          ∃ b, s.assign vs = .done ⟨b, false⟩ () ∧ BitSet.Collects E vs b) ∨
        ∃ before v b, FirstBeyond E (min w.capacity E.count) vs before v ∧ BitSet.Collects E before b ∧
          s.assign vs =
            .refuse ⟨b, false⟩ (.ordinalOutOfRange (E.name v) (E.ordinal v) (min w.capacity E.count)))) ∧
    (∀ {V : Type} {T : TokenTable V} (s : TokenSet T),
      (∀ m : Mutation V (TokenSet T), (apply s m).Atomic s) ∧
      (s.frozen = false → ∀ vs : List V,
        ∃ es, s.assign vs = .done ⟨es, false⟩ () ∧ TokenSet.Newcomers [] (vs.map T.token) es)) := by
  constructor
  · intro V E w s
    exact ⟨fun _ => s.atomic_apply, BitSet.assign_partial⟩
  · intro V T s
    exact ⟨fun _ => s.undivided.apply fun vs _ => s.atomic_assign vs, TokenSet.assign_newcomers⟩

theorem refusals_atomic_nine :
    let s : BitSet BitSet.nine .byte := ⟨255#8, false⟩
    let t : TokenSet TokenSet.shared := ⟨['x', 'x'], true⟩
    ((apply s (.insert 8)).answer = .error (.ordinalOutOfRange "N8" 8 7) ∧ (apply s (.insert 8)).after = s) ∧
    ((∃ before v b, FirstBeyond BitSet.nine 7 [2, 8, 3] before v ∧ BitSet.Collects BitSet.nine before b ∧
        s.assign [2, 8, 3] =
          .refuse ⟨b, false⟩ (.ordinalOutOfRange (BitSet.nine.name v) (BitSet.nine.ordinal v) 7)) ∧
      (s.assign [2, 8, 3]).after = ⟨4#8, false⟩) ∧
    ((apply t .compl).answer = .error (.frozen "TokenEnumSet<Shared>") ∧ (apply t .compl).after = t) ∧
    (∃ es, t.copy.assign [0, 1, 2] = .done ⟨es, false⟩ () ∧ TokenSet.Newcomers [] ['p', 'q', 'p'] es) ∧
      (t.copy.assign [0, 1, 2]).after = ⟨['p', 'q'], false⟩ := by
  intro s t
  obtain ⟨kept, partly⟩ := refusals_atomic.1 s
  have refused : (apply s (.insert 8)).answer = .error (.ordinalOutOfRange "N8" 8 7) := rfl
  have beyond : ¬ ∀ v ∈ ([2, 8, 3] : List (Fin 9)), BitSet.nine.ordinal v < 7 := by decide
  have other (vs : List (Fin 9)) : (.insert 8 : Mutation (Fin 9) (BitSet BitSet.nine .byte)) ≠ .assign vs := by
    intro same
    cases same
  have frozen : (apply t .compl).answer = .error (.frozen "TokenEnumSet<Shared>") := rfl
  have left : (s.assign [2, 8, 3]).after = ⟨4#8, false⟩ := by
    simp only [s]
    rfl
  refine ⟨⟨refused, kept _ (.inr other) _ refused⟩, ⟨?_, left⟩, ⟨frozen, (refusals_atomic.2 t).1 _ _ frozen⟩, ?_, rfl⟩
  · exact (partly rfl [2, 8, 3]).resolve_left fun all => beyond all.1
  · exact (refusals_atomic.2 t.copy).2 rfl [0, 1, 2]

end VariantSets
