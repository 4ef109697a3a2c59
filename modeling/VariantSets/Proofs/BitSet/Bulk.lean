import VariantSets.Proofs.Freezing
import VariantSets.Proofs.MemberSet
import VariantSets.Proofs.Simulation

/-! Whole lists of variants, taken one by one up to the first that has no place. A set takes those below its limit, a
bare bitmap those below the capacity of its width, and both come to the bits of what they have taken. Where every
variant is declared at its ordinal the two bounds refuse the same variants in the same words. -/
namespace VariantSets

variable {V : Type} {E : Enumeration V} {n : Nat} {vs before : List V} {v : V}

/-- The first variant of a list without a place below `n`, and those in front of it. -/
def FirstBeyond (E : Enumeration V) (n : Nat) (vs before : List V) (v : V) : Prop :=
  ∃ after, vs = before ++ v :: after ∧ (∀ u ∈ before, E.ordinal u < n) ∧ n ≤ E.ordinal v

theorem below_or_firstBeyond (E : Enumeration V) (n : Nat) (vs : List V) :
    (∀ v ∈ vs, E.ordinal v < n) ∨ ∃ before v, FirstBeyond E n vs before v := by
  induction vs with
  | nil => exact .inl (by simp)
  | cons v vs ih =>
    by_cases fits : E.ordinal v < n
    · rcases ih with below | ⟨before, u, after, rfl, below, large⟩
      · exact .inl (List.forall_mem_cons.2 ⟨fits, below⟩)
      · exact .inr ⟨v :: before, u, after, rfl, List.forall_mem_cons.2 ⟨fits, below⟩, large⟩
    · exact .inr ⟨[], v, vs, rfl, by simp, Nat.le_of_not_lt fits⟩

namespace MemberSet

theorem of_all_lt (below : ∀ v ∈ vs, E.ordinal v < n) : fitting E n vs = vs ∧ verdict E n vs = .ok () := by
  induction vs with
  | nil => exact ⟨rfl, rfl⟩
  | cons v vs ih =>
    obtain ⟨fits, below⟩ := List.forall_mem_cons.1 below
    obtain ⟨fitting, verdict⟩ := ih below
    simp only [fitting_cons_of_lt vs fits, fitting, verdict_cons_of_lt vs fits, verdict, and_self]

theorem of_firstBeyond (first : FirstBeyond E n vs before v) :
    fitting E n vs = before ∧ verdict E n vs = .error (outOfRange E n v) := by
  obtain ⟨after, rfl, below, large⟩ := first
  induction before with
  | nil => exact ⟨fitting_cons_of_not_lt after (by omega), verdict_cons_of_not_lt after (by omega)⟩
  | cons u before ih =>
    obtain ⟨fits, below⟩ := List.forall_mem_cons.1 below
    obtain ⟨fitting, verdict⟩ := ih below
    simp only [List.cons_append, fitting_cons_of_lt _ fits, fitting, verdict_cons_of_lt _ fits, verdict, and_self]

end MemberSet

open VariantSets.MemberSet (fitting verdict)

namespace BitSet

variable {w : Width} {s : BitSet E w} {b c : Bitmap w} {us : List V}

/-- The bits that are set are those of the ordinals of the variants. -/
def Collects (E : Enumeration V) (vs : List V) (b : Bitmap w) : Prop :=
  ∀ i, b.getLsbD i = true ↔ ∃ v ∈ vs, E.ordinal v = i

namespace Collects

theorem nil (E : Enumeration V) (w : Width) : Collects E [] 0#w.bits := by
  intro i
  simp

theorem concat (h : Collects E vs b) (within : E.ordinal v < w.bits) :
    Collects E (vs ++ [v]) (b ||| Bitmap.bit w (E.ordinal v)) := by
  intro i
  have held := h i
  simp only [BitVec.getLsbD_or, Bitmap.getLsbD_bit, Bool.or_eq_true, Bool.and_eq_true, decide_eq_true_eq, held,
    List.mem_append, List.mem_singleton]
  grind

theorem unique (h : Collects E vs b) (h' : Collects E vs c) : b = c := by
  refine BitVec.eq_of_getLsbD_eq fun i _ => ?_
  rw [Bool.eq_iff_iff, h i, h' i]

theorem congr (h : Collects E vs b) (same : ∀ v, v ∈ us ↔ v ∈ vs) : Collects E us b := by
  intro i
  simp only [h i, same]

end Collects

theorem clear_of_open (opened : s.frozen = false) : s.clear = .done (empty E w) () := by
  cases nothing : s.isEmpty with
  | true =>
    have zero : s.bitmap = 0#w.bits := beq_iff_eq.1 nothing
    obtain ⟨b, frozen⟩ := s
    subst zero opened
    exact if_pos nothing
  | false =>
    rw [clear, nothing, replace_of_open opened]
    rfl

theorem insert_of_open (opened : s.frozen = false) (fits : E.ordinal v < limit E w) :
    ∃ a, s.insert v = .done ⟨s.bitmap ||| Bitmap.bit w (E.ordinal v), false⟩ a := by
  simp only [insert_of_lt fits]
  cases held : s.bitmap.getLsbD (E.ordinal v) with
  | true =>
    have same : s.bitmap ||| Bitmap.bit w (E.ordinal v) = s.bitmap := by
      refine BitVec.eq_of_getLsbD_eq fun i within => ?_
      by_cases here : E.ordinal v = i
      · simp only [BitVec.getLsbD_or, ← here, held, Bool.true_or]
      · simp only [BitVec.getLsbD_or, Bitmap.getLsbD_bit, here, decide_false, Bool.and_false, Bool.or_false]
    rw [same]
    obtain ⟨b, frozen⟩ := s
    subst opened
    exact ⟨false, rfl⟩
  | false => exact ⟨true, replace_of_open opened _ true⟩

theorem insertAll_of_open (opened : s.frozen = false) (held : Collects E us s.bitmap) (vs : List V) :
    ∃ b, s.insertAll vs = ⟨verdict E (limit E w) vs, ⟨b, false⟩⟩ ∧
      Collects E (us ++ fitting E (limit E w) vs) b := by
  -- The loop of additions goes on behind the variants `us` that were taken before.
  induction vs generalizing s us with
  | nil =>
    refine ⟨s.bitmap, ?_, by simpa [fitting] using held⟩
    rw [← opened]
    rfl
  | cons v vs ih =>
    by_cases fits : E.ordinal v < limit E w
    · obtain ⟨a, inserted⟩ := insert_of_open opened fits
      have grown := held.concat (lt_bits_of_lt_limit fits)
      obtain ⟨b, rest, collects⟩ := ih (s := ⟨s.bitmap ||| Bitmap.bit w (E.ordinal v), false⟩) rfl grown
      refine ⟨b, ?_, ?_⟩
      · rw [insertAll, inserted, Outcome.andThen_done, MemberSet.verdict_cons_of_lt vs fits, rest]
      · rwa [MemberSet.fitting_cons_of_lt vs fits, List.append_cons]
    · refine ⟨s.bitmap, ?_, ?_⟩
      · rw [insertAll, insert_of_not_lt fits, MemberSet.verdict_cons_of_not_lt vs fits, ← opened]
        rfl
      · rwa [MemberSet.fitting_cons_of_not_lt vs fits, List.append_nil]

theorem assign_of_open (opened : s.frozen = false) (vs : List V) :
    ∃ b, s.assign vs = ⟨verdict E (limit E w) vs, ⟨b, false⟩⟩ ∧ Collects E (fitting E (limit E w) vs) b := by
  rw [assign, clear_of_open opened, Outcome.andThen_done]
  exact insertAll_of_open (s := empty E w) rfl (.nil E w) vs

theorem assign_of_lt (opened : s.frozen = false) (below : ∀ v ∈ vs, E.ordinal v < limit E w) :
    ∃ b, s.assign vs = .done ⟨b, false⟩ () ∧ Collects E vs b := by
  obtain ⟨b, assigned, collects⟩ := assign_of_open opened vs
  obtain ⟨fitting, verdict⟩ := MemberSet.of_all_lt below
  rw [verdict] at assigned
  rw [fitting] at collects
  exact ⟨b, assigned, collects⟩

theorem assign_of_firstBeyond (opened : s.frozen = false) (first : FirstBeyond E (limit E w) vs before v) :
    ∃ b, s.assign vs = .refuse ⟨b, false⟩ (.ordinalOutOfRange (E.name v) (E.ordinal v) (limit E w)) ∧
      Collects E before b := by
  obtain ⟨b, assigned, collects⟩ := assign_of_open opened vs
  obtain ⟨fitting, verdict⟩ := MemberSet.of_firstBeyond first
  rw [verdict] at assigned
  rw [fitting] at collects
  exact ⟨b, assigned, collects⟩

theorem ofVariants_of_lt (below : ∀ v ∈ vs, E.ordinal v < limit E w) :
    ∃ b, ofVariants E w vs = .ok ⟨b, false⟩ ∧ Collects E vs b := by
  obtain ⟨b, assigned, collects⟩ := assign_of_lt (s := empty E w) rfl below
  exact ⟨b, congrArg Outcome.state assigned, collects⟩

theorem ofVariants_of_firstBeyond (first : FirstBeyond E (limit E w) vs before v) :
    ofVariants E w vs = .error (.ordinalOutOfRange (E.name v) (E.ordinal v) (limit E w)) := by
  obtain ⟨b, assigned, _⟩ := assign_of_firstBeyond (s := empty E w) rfl first
  exact congrArg Outcome.state assigned

theorem ofVariants_eq_ok :
    ofVariants E w vs = .ok s ↔
      (∀ v ∈ vs, E.ordinal v < limit E w) ∧ s.frozen = false ∧ Collects E vs s.bitmap := by
  constructor
  · intro made
    rcases below_or_firstBeyond E (limit E w) vs with below | ⟨before, v, first⟩
    · obtain ⟨b, made', collects⟩ := ofVariants_of_lt below
      cases made.symm.trans made'
      exact ⟨below, rfl, collects⟩
    · cases made.symm.trans (ofVariants_of_firstBeyond first)
  · rintro ⟨below, opened, collects⟩
    obtain ⟨b, made, collects'⟩ := ofVariants_of_lt below
    obtain ⟨c, frozen⟩ := s
    subst opened
    rw [made, collects'.unique collects]

def mark (E : Enumeration V) (b : Bitmap w) (v : V) : Except Fault (Bitmap w) :=
  if E.ordinal v < w.capacity then .ok (b ||| Bitmap.bit w (E.ordinal v))
  else .error (.ordinalOutOfRange (E.name v) (E.ordinal v) w.capacity)

theorem bitmapOf_eq_foldlM (vs : List V) : bitmapOf E w vs = vs.foldlM (mark E) 0#w.bits := rfl

theorem foldlM_mark (held : Collects E us b) (vs : List V) :
    ∃ c, vs.foldlM (mark E) b = (verdict E w.capacity vs).map (fun _ => c) ∧
      Collects E (us ++ fitting E w.capacity vs) c := by
  induction vs generalizing b us with
  | nil => exact ⟨b, rfl, by simpa [fitting] using held⟩
  | cons v vs ih =>
    by_cases fits : E.ordinal v < w.capacity
    · obtain ⟨c, rest, collects⟩ := ih (held.concat (Nat.lt_trans fits w.capacity_lt_bits))
      refine ⟨c, ?_, ?_⟩
      · rw [List.foldlM_cons, mark, if_pos fits, MemberSet.verdict_cons_of_lt vs fits]
        exact rest
      · rwa [MemberSet.fitting_cons_of_lt vs fits, List.append_cons]
    · refine ⟨b, ?_, ?_⟩
      · rw [List.foldlM_cons, mark, if_neg fits, MemberSet.verdict_cons_of_not_lt vs fits]
        rfl
      · rwa [MemberSet.fitting_cons_of_not_lt vs fits, List.append_nil]

theorem bitmapOf_of_lt (below : ∀ v ∈ vs, E.ordinal v < w.capacity) :
    ∃ b, bitmapOf E w vs = .ok b ∧ Collects E vs b := by
  obtain ⟨b, made, collects⟩ := foldlM_mark (.nil E w) vs
  obtain ⟨fitting, verdict⟩ := MemberSet.of_all_lt below
  rw [verdict] at made
  rw [fitting] at collects
  exact ⟨b, (bitmapOf_eq_foldlM vs).trans made, collects⟩

theorem bitmapOf_of_firstBeyond (first : FirstBeyond E w.capacity vs before v) :
    bitmapOf E w vs = .error (.ordinalOutOfRange (E.name v) (E.ordinal v) w.capacity) := by
  obtain ⟨b, made, _⟩ := foldlM_mark (.nil E w) vs
  rw [(MemberSet.of_firstBeyond first).2] at made
  exact (bitmapOf_eq_foldlM vs).trans made

theorem bitmapOf_eq_error :
    (∃ f, bitmapOf E w vs = .error f) ↔ ∃ v ∈ vs, w.capacity ≤ E.ordinal v := by
  constructor
  · rintro ⟨f, failed⟩
    rcases below_or_firstBeyond E w.capacity vs with below | ⟨before, v, after, rfl, _, large⟩
    · obtain ⟨b, made, _⟩ := bitmapOf_of_lt below
      cases failed.symm.trans made
    · exact ⟨v, by simp, large⟩
  · rintro ⟨v, hv, large⟩
    rcases below_or_firstBeyond E w.capacity vs with below | ⟨before, u, first⟩
    · exact absurd (below v hv) (by omega)
    · exact ⟨_, bitmapOf_of_firstBeyond first⟩

theorem limit_eq_capacity (lawful : E.Lawful) (beyond : w.capacity ≤ E.ordinal v) : limit E w = w.capacity := by
  have declared := lawful.ordinal_lt v
  exact Nat.min_eq_left (by omega)

theorem map_bitmap_ofVariants (lawful : E.Lawful) (w : Width) (vs : List V) :
    (ofVariants E w vs).map bitmap = bitmapOf E w vs := by
  rcases below_or_firstBeyond E w.capacity vs with below | ⟨before, v, first⟩
  · have declared : ∀ v ∈ vs, E.ordinal v < limit E w := fun v hv => lt_limit_of_lt_capacity lawful (below v hv)
    obtain ⟨b, made, collects⟩ := ofVariants_of_lt declared
    obtain ⟨c, made', collects'⟩ := bitmapOf_of_lt below
    rw [made, made', collects.unique collects']
    rfl
  · have same : limit E w = w.capacity := by
      obtain ⟨_, _, _, beyond⟩ := first
      exact limit_eq_capacity lawful beyond
    rw [bitmapOf_of_firstBeyond first, ofVariants_of_firstBeyond (same ▸ first), same]
    rfl

/-- A set that a list is made into is open and has the bits of the ordinals in the list, which is the bitmap that the
list itself has; so only which variants are listed is of account. In a lawful enumeration the two ways agree in
everything: both fail if some variant is beyond the capacity of the width, and blame the first that is. -/
theorem bulk_construction (E : Enumeration V) (w : Width) (vs : List V) :
    (∀ s, ofVariants E w vs = .ok s →
      bitmapOf E w vs = .ok s.bitmap ∧ s.frozen = false ∧
      (∀ i, s.bitmap.getLsbD i = true ↔ ∃ v ∈ vs, E.ordinal v = i) ∧
      ∀ us, (∀ v, v ∈ us ↔ v ∈ vs) → ofVariants E w us = .ok s) ∧
    (E.Lawful →
      (ofVariants E w vs).map bitmap = bitmapOf E w vs ∧
      ((∃ f, ofVariants E w vs = .error f) ↔ ∃ v ∈ vs, w.capacity ≤ E.ordinal v) ∧
      ((∃ f, bitmapOf E w vs = .error f) ↔ ∃ v ∈ vs, w.capacity ≤ E.ordinal v) ∧
      ∀ before v, FirstBeyond E w.capacity vs before v →
        ofVariants E w vs = .error (.ordinalOutOfRange (E.name v) (E.ordinal v) w.capacity) ∧
        bitmapOf E w vs = .error (.ordinalOutOfRange (E.name v) (E.ordinal v) w.capacity)) := by
  refine ⟨fun s made => ?_, fun lawful => ?_⟩
  · obtain ⟨below, opened, collects⟩ := ofVariants_eq_ok.1 made
    obtain ⟨b, made', collects'⟩ := bitmapOf_of_lt fun v hv => Nat.lt_of_lt_of_le (below v hv) (limit_le_capacity E w)
    refine ⟨collects.unique collects' ▸ made', opened, collects, fun us same => ?_⟩
    exact ofVariants_eq_ok.2 ⟨fun v hv => below v ((same v).1 hv), opened, collects.congr same⟩
  · have agree := map_bitmap_ofVariants lawful w vs
    refine ⟨agree, ?_, bitmapOf_eq_error, fun before v first => ?_⟩
    · simp only [← bitmapOf_eq_error, ← agree, map_eq_error]
    · have blamed := bitmapOf_of_firstBeyond first
      refine ⟨?_, blamed⟩
      rw [blamed] at agree
      exact map_eq_error.1 agree

def nine : Enumeration (Fin 9) :=
  Enumeration.ofNames "Nine" ["N0", "N1", "N2", "N3", "N4", "N5", "N6", "N7", "N8"]

def halfDeclared : Enumeration (Fin 4) where
  -- The last two of four values are not declared, and so it is only the width that bounds them in a bitmap.
  title := "Half"
  variants := (List.finRange 4).take 2
  ordinal := Fin.val
  name _ := "H"

theorem bulk_construction_nine :
    (nine.Lawful ∧ FirstBeyond nine Width.byte.capacity [0, 8, 3, 7] [0] 8 ∧
      ofVariants nine .byte [3, 0, 3] = .ok ⟨9#8, false⟩) ∧
    bitmapOf nine .byte [3, 0, 3] = .ok 9#8 ∧ ofVariants nine .byte [0, 3] = .ok ⟨9#8, false⟩ ∧
    (ofVariants nine .byte [0, 8, 3, 7] = .error (.ordinalOutOfRange "N8" 8 7) ∧
      bitmapOf nine .byte [0, 8, 3, 7] = .error (.ordinalOutOfRange "N8" 8 7)) ∧
    ofVariants halfDeclared .byte [3] = .error (.ordinalOutOfRange "H" 3 2) ∧
      bitmapOf halfDeclared .byte [3] = .ok 8#8 := by
  have lawful : nine.Lawful := Enumeration.ofNames_lawful _ _
  have first : FirstBeyond nine Width.byte.capacity [0, 8, 3, 7] [0] 8 := ⟨[3, 7], rfl, by decide, by decide⟩
  have made : ofVariants nine .byte [3, 0, 3] = .ok ⟨9#8, false⟩ := rfl
  obtain ⟨bitmap, _, _, regardless⟩ := (bulk_construction nine .byte [3, 0, 3]).1 _ made
  obtain ⟨_, _, _, blamed⟩ := (bulk_construction nine .byte [0, 8, 3, 7]).2 lawful
  exact ⟨⟨lawful, first, made⟩, bitmap, regardless [0, 3] (by decide), blamed [0] 8 first, rfl, rfl⟩

end BitSet

end VariantSets
