import VariantSets.BitSet.Family
import VariantSets.Proofs.Simulation
import VariantSets.Proofs.Walk
import VariantSets.Proofs.BitSet.SymbolMap

/-! Bit sets that stay below a bound, whatever the ordinals of the variants are. Additions take a variant only
if it has a place among the declared ones, and the complement ends at the mask of these, so that a bound at or
above that mask is kept by every change. The mask itself is such a bound, and so is the reserved position, below
which symbol maps stay. -/
namespace VariantSets.BitSet

open VariantSets.Bitmap (Within)

variable {V : Type} {E : Enumeration V} {w : Width} {n : Nat} {s : BitSet E w}

theorem within_fullMask (E : Enumeration V) (w : Width) : (fullMask E w).Within (limit E w) := by
  rw [fullMask]
  exact .lowMask w (limit E w)

theorem within_of_slot {v : V} {b : Bitmap w} (h : slot E w v = .ok b) : b.Within (limit E w) := by
  unfold slot at h
  split at h
  · next fits =>
    cases h
    exact .bit fits
  · cases h

theorem within_replace {A : Type} {b : Bitmap w} (h : s.bitmap.Within n) (h' : b.Within n) (a : A) :
    (s.replace b a).after.bitmap.Within n := by
  unfold replace
  split
  · exact h
  · exact h'

theorem within_clear (h : s.bitmap.Within n) : s.clear.after.bitmap.Within n := by
  unfold clear
  split
  · exact h
  · exact within_replace h (.zero w n) ()

section
variable (room : limit E w ≤ n)
include room

theorem within_insert (h : s.bitmap.Within n) (v : V) : (s.insert v).after.bitmap.Within n := by
  unfold insert
  split
  · exact h
  · next b slotted =>
    split
    · exact h
    · exact within_replace h (h.or ((within_of_slot slotted).mono room)) true

theorem within_insertAll (h : s.bitmap.Within n) (vs : List V) : (s.insertAll vs).after.bitmap.Within n := by
  induction vs generalizing s with
  | nil => exact h
  | cons v vs ih =>
    exact Outcome.after_andThen (p := fun t : BitSet E w => t.bitmap.Within n) (within_insert room h v) fun _ _ => ih

theorem within_assign (h : s.bitmap.Within n) (vs : List V) : (s.assign vs).after.bitmap.Within n := by
  refine Outcome.after_andThen (p := fun t : BitSet E w => t.bitmap.Within n) (within_clear h) ?_
  intro t _ next
  exact within_insertAll room next vs

theorem within_ofVariants {vs : List V} (made : ofVariants E w vs = .ok s) : s.bitmap.Within n := by
  have within := within_assign room (s := empty E w) (.zero w n) vs
  rwa [Outcome.after_of_state made] at within

end

theorem within_erase (h : s.bitmap.Within n) (v : V) : (s.erase v).after.bitmap.Within n := by
  unfold erase
  split
  · exact h
  · split
    · exact within_replace h (h.and_left _) true
    · exact h

theorem within_invariant {R : Type} {g : R → Source w} (room : limit E w ≤ n)
    (sources : ∀ r {s : BitSet E w}, ofSource E (g r) = .ok s → s.bitmap.Within n) :
    Invariant g fun s : BitSet E w => s.bitmap.Within n where
  empty := .zero w n
  full := (within_fullMask E w).mono room
  ofVariants _ _ made := within_ofVariants room made
  ofSource r _ made := sources r made
  copy h := h
  freeze h := h
  insert v h := within_insert room h v
  erase v h := within_erase h v
  clear h := within_clear h
  assign vs h := within_assign room h vs
  union h h' := within_replace h (h.or h') ()
  inter h _ := within_replace h (h.and_left _) ()
  sdiff h _ := within_replace h (h.and_left _) ()
  symmDiff h h' := within_replace h (h.xor h') ()
  compl h := within_replace h (.and_right _ ((within_fullMask E w).mono room)) ()

theorem within_of_symbols {cs : List Char} (h : ofSource E (.symbols cs) = .ok s) : s.bitmap.Within w.capacity := by
  obtain ⟨read, _⟩ := ofSymbols_eq_ok.1 (mapError_eq_ok.1 h)
  exact within_bitmapOfSymbols read

theorem size_cursor (h : s.bitmap.Within (limit E w)) : s.cursor.size = s.size := by
  have same : s.bitmap &&& fullMask E w = s.bitmap := Bitmap.within_iff_and.1 h
  rw [Cursor.size, cursor, size, same]

theorem length_toList (s : BitSet E w) : s.toList.length = s.cursor.size := by
  rw [toList_eq, List.filterMap_length_eq_length.2]
  · rfl
  · intro i hi
    rw [Enumeration.ofOrdinal?, List.getElem?_eq_getElem (lt_count_of_mem_ordinals hi), Option.isSome_some]

theorem not_contains_of_within (h : s.bitmap.Within (limit E w)) {v : V} (large : limit E w ≤ E.ordinal v) :
    s.contains v = false := by
  have clear : s.bitmap.getLsbD (E.ordinal v) = false := by
    rw [← Bool.not_eq_true]
    intro marked
    have below := h _ marked
    omega
  rw [contains_eq, clear, Bool.and_false]

/-- Whatever the enumeration says of its variants: in every script without sources each set that is reached has
bits of declared places only, so that a walk goes through as many members as the set has bits and no variant
without a place is held. Where symbol maps are read as well the reserved bit stays clear, so that no set loses
anything when its own symbol map is read. -/
theorem play_bounded (E : Enumeration V) (w : Width) :
    (∀ (script : List (Command V Empty)) (i : Nat),
      let s := (Session.play (BitSet E w) Empty.elim script).2.sets i
      s.bitmap &&& ~~~fullMask E w = 0#w.bits ∧ s.cursor.size = s.size ∧ s.toList.length = s.size ∧
        ∀ v, min w.capacity E.count ≤ E.ordinal v → s.contains v = false) ∧
    ∀ (script : List (Command V (List Char))) (i : Nat),
      let s := (Session.play (BitSet E w) Source.symbols script).2.sets i
      s.bitmap.msb = false ∧ ofSymbols E w s.symbolMap = .ok s.copy := by
  constructor
  · intro script i s
    have within : s.bitmap.Within (limit E w) :=
      (within_invariant (Nat.le_refl _) fun r => r.elim).play script i
    have walked := size_cursor within
    refine ⟨Bitmap.within_iff_andNot.1 within, walked, s.length_toList.trans walked, fun v large => ?_⟩
    exact not_contains_of_within within large
  · intro script i s
    have within : s.bitmap.Within w.capacity :=
      (within_invariant (limit_le_capacity E w) fun _ _ => within_of_symbols).play script i
    refine ⟨Bitmap.within_capacity_iff.1 within, ?_⟩
    rw [ofSymbols_symbolMap, Bitmap.within_iff_and.1 within, copy]

end VariantSets.BitSet
