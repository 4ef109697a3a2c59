import VariantSets.BitSet.Cursor
import VariantSets.Proofs.Bitmap
import VariantSets.TokenSet.Cursor

/-! What a cursor yields when it is asked for the next item until there is none. -/
namespace VariantSets

/-- The items that a cursor gives one after the other. At the end it stays as it is. -/
inductive Yields {C A : Type} (next : C → Option A × C) : C → List A → Prop
  | finished {c : C} : next c = (none, c) → Yields next c []
  | item {c d : C} {a : A} {as : List A} : next c = (some a, d) → Yields next d as → Yields next c (a :: as)

theorem Yields.unique {C A : Type} {next : C → Option A × C} {c : C} {as bs : List A} (h : Yields next c as)
    (h' : Yields next c bs) : as = bs := by
  induction h generalizing bs with
  | finished stop =>
    cases h' with
    | finished _ => rfl
    | item step _ => cases stop.symm.trans step
  | item step _ ih =>
    cases h' with
    | finished stop => cases step.symm.trans stop
    | item step' rest =>
      cases step.symm.trans step'
      rw [ih rest]

namespace TokenSet
variable {V : Type} {T : TokenTable V}

theorem Cursor.yields (cs : List Char) : Yields Cursor.next (⟨cs⟩ : Cursor T) (cs.map (item T)) := by
  induction cs with
  | nil => exact .finished rfl
  | cons c cs ih => exact .item rfl ih

theorem yields_toList (s : TokenSet T) : Yields Cursor.next s.cursor s.toList := by
  exact Cursor.yields s.contents

end TokenSet

namespace BitSet
variable {V : Type} {E : Enumeration V} {w : Width}

namespace Cursor

theorem next_of_nil {c : Cursor E w} (h : c.remaining.positions = []) : c.next = (none, c) := by
  rw [next, if_pos (beq_iff_eq.2 (Bitmap.positions_eq_nil.1 h))]

theorem next_of_cons {c : Cursor E w} {i : Nat} {is : List Nat} (h : c.remaining.positions = i :: is) :
    c.next = (E.ofOrdinal? i, ⟨c.remaining &&& ~~~Bitmap.bit w i⟩) := by
  have nonzero : ¬ (c.remaining == 0#w.bits) = true := by
    rw [beq_iff_eq, ← Bitmap.positions_eq_nil, h]
    exact List.cons_ne_nil i is
  rw [next, if_neg nonzero, Bitmap.trailingZeros_eq h]

theorem walk {is : List Nat} {c : Cursor E w} (remaining : c.remaining.positions = is)
    (declared : ∀ i ∈ is, i < E.count) :
    c.take is.length = is.filterMap E.ofOrdinal? ∧ Yields next c (is.filterMap E.ofOrdinal?) := by
  -- One step clears the lowest bit, so the tail of the positions is what is left to a cursor of its own.
  induction is generalizing c with
  | nil => exact ⟨rfl, .finished (next_of_nil remaining)⟩
  | cons i is ih =>
    obtain ⟨v, found⟩ : ∃ v, E.ofOrdinal? i = some v :=
      ⟨_, List.getElem?_eq_getElem (declared i List.mem_cons_self)⟩
    have step := next_of_cons remaining
    rw [found] at step
    obtain ⟨taken, rest⟩ := ih (c := ⟨c.remaining &&& ~~~Bitmap.bit w i⟩)
      (Bitmap.positions_clear_lowest remaining) fun j hj => declared j (List.mem_cons_of_mem i hj)
    rw [List.filterMap_cons_some found]
    refine ⟨?_, .item step rest⟩
    rw [List.length_cons, take, step]
    simp only [taken]

end Cursor

def ordinals (s : BitSet E w) : List Nat := (s.bitmap &&& fullMask E w).positions

theorem mem_ordinals {s : BitSet E w} {i : Nat} :
    i ∈ s.ordinals ↔ s.bitmap.getLsbD i = true ∧ i < limit E w := by
  simp only [ordinals, Bitmap.mem_positions, BitVec.getLsbD_and, getLsbD_fullMask, Bool.and_eq_true,
    decide_eq_true_eq]

theorem ordinals_sorted (s : BitSet E w) : s.ordinals.Pairwise (· < ·) := by
  rw [ordinals]
  exact Bitmap.positions_sorted _

theorem lt_count_of_mem_ordinals {s : BitSet E w} {i : Nat} (h : i ∈ s.ordinals) : i < E.count := by
  have below := (mem_ordinals.1 h).2
  have declared := limit_le_count E w
  omega

theorem toList_eq (s : BitSet E w) : s.toList = s.ordinals.filterMap E.ofOrdinal? := by
  obtain ⟨taken, _⟩ := Cursor.walk (c := s.cursor) rfl fun _ => lt_count_of_mem_ordinals
  exact taken

theorem yields_toList (s : BitSet E w) : Yields Cursor.next s.cursor s.toList := by
  rw [toList_eq]
  exact (Cursor.walk rfl fun _ => lt_count_of_mem_ordinals).2

/-- The bits that a walk comes to are those of ordinals. Otherwise it may meet a variant at a place that repeats it. -/
def Owned (s : BitSet E w) : Prop := ∀ i ∈ s.ordinals, ∃ v, E.ordinal v = i

theorem owned_of_covers (covers : E.Covers (limit E w)) (s : BitSet E w) : s.Owned := by
  intro i hi
  exact covers i (mem_ordinals.1 hi).2

section
variable (lawful : E.Lawful) {s : BitSet E w}
include lawful

theorem mem_toList_of_bit {v : V} (marked : s.bitmap.getLsbD (E.ordinal v) = true) (fits : E.ordinal v < limit E w) :
    v ∈ s.toList := by
  rw [toList_eq, List.mem_filterMap]
  exact ⟨E.ordinal v, mem_ordinals.2 ⟨marked, fits⟩, lawful v⟩

theorem mem_toList (owned : s.Owned) {v : V} :
    v ∈ s.toList ↔ s.bitmap.getLsbD (E.ordinal v) = true ∧ E.ordinal v < limit E w := by
  constructor
  · intro hv
    rw [toList_eq, List.mem_filterMap] at hv
    obtain ⟨i, hi, found⟩ := hv
    rw [lawful.ordinal_of_getElem? (owned i hi) found]
    exact mem_ordinals.1 hi
  · rintro ⟨marked, fits⟩
    exact mem_toList_of_bit lawful marked fits

theorem toList_ascending (owned : s.Owned) : s.toList.Pairwise fun u v => E.ordinal u < E.ordinal v := by
  have places : s.ordinals.Pairwise fun i j => i < j ∧ (∃ v, E.ordinal v = i) ∧ ∃ v, E.ordinal v = j :=
    s.ordinals_sorted.imp_of_mem fun hi hj lt => ⟨lt, owned _ hi, owned _ hj⟩
  rw [toList_eq]
  apply places.filterMap
  rintro i j ⟨lt, hi, hj⟩ u hu v hv
  rwa [lawful.ordinal_of_getElem? hi hu, lawful.ordinal_of_getElem? hj hv]

end

def twice : Enumeration Bool where
  -- Lawful, although its last place repeats the first.
  title := "Twice"
  variants := [false, true, false]
  ordinal := Bool.toNat
  name
    | false => "Red"
    | true => "Green"

theorem twice_lawful : twice.Lawful := by
  unfold Enumeration.Lawful
  decide

end BitSet

end VariantSets
