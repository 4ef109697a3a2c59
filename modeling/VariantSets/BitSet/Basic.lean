import VariantSets.Bitmap
import VariantSets.Enumeration
import VariantSets.Outcome

/-!
Sets of variants as bitmaps: the variant of ordinal `i` is held when bit `i` is set. A set may also hold
bits that no declared variant has, since a bitmap may come from anywhere.
-/
namespace VariantSets

/-- A set of variants of `E` in a bitmap of width `w`. Being frozen is not part of its value. -/
structure BitSet {V : Type} (E : Enumeration V) (w : Width) where
  bitmap : Bitmap w
  frozen : Bool := false

namespace BitSet
variable {V : Type} {E : Enumeration V} {w : Width}

def typeName (E : Enumeration V) (w : Width) : String :=
  "EnumBitSet<" ++ E.title ++ ", " ++ w.title ++ ">"

/-- How many ordinals a set can hold: no more than the width has room for or the enumeration declares. -/
def limit (E : Enumeration V) (w : Width) : Nat := min w.capacity E.count

def fullMask (E : Enumeration V) (w : Width) : Bitmap w := Bitmap.lowMask w (limit E w)

def empty (E : Enumeration V) (w : Width) : BitSet E w := ⟨0#w.bits, false⟩

def full (E : Enumeration V) (w : Width) : BitSet E w := ⟨fullMask E w, false⟩

def ofBitmap (b : Bitmap w) : BitSet E w := ⟨b, false⟩

/-- The number of set bits, whether a variant has them or not. -/
def size (s : BitSet E w) : Nat := s.bitmap.popCount

def isEmpty (s : BitSet E w) : Bool := s.bitmap == 0#w.bits

/-- Whether a variant is held. A variant without a position never is. -/
def contains (s : BitSet E w) (v : V) : Bool :=
  decide (E.ordinal v < w.capacity) && s.bitmap.meets (Bitmap.bit w (E.ordinal v))

def sameValue (s t : BitSet E w) : Bool := s.bitmap == t.bitmap

def hash (s : BitSet E w) : BitVec 32 := s.bitmap.fold

def copy (s : BitSet E w) : BitSet E w := ⟨s.bitmap, false⟩

def copyFrom (_ t : BitSet E w) : BitSet E w := t.copy

def freeze (s : BitSet E w) : BitSet E w := ⟨s.bitmap, true⟩

/-- The bitmap of a list of variants. Only the width limits them, not the declared count. -/
def bitmapOf (E : Enumeration V) (w : Width) (vs : List V) : Except Fault (Bitmap w) :=
  vs.foldlM (fun b v =>
    if E.ordinal v < w.capacity then .ok (b ||| Bitmap.bit w (E.ordinal v))
    else .error (.ordinalOutOfRange (E.name v) (E.ordinal v) w.capacity)) 0#w.bits

theorem limit_le_capacity (E : Enumeration V) (w : Width) : limit E w ≤ w.capacity := by
  rw [limit]
  exact Nat.min_le_left w.capacity E.count

theorem limit_le_count (E : Enumeration V) (w : Width) : limit E w ≤ E.count := by
  rw [limit]
  exact Nat.min_le_right w.capacity E.count

theorem lt_limit_of_lt_capacity {v : V} (lawful : E.Lawful) (below : E.ordinal v < w.capacity) :
    E.ordinal v < limit E w := by
  have declared := lawful.ordinal_lt v
  exact Nat.lt_min.2 ⟨below, declared⟩

theorem lt_bits_of_lt_limit {i : Nat} (h : i < limit E w) : i < w.bits := by
  have room := limit_le_capacity E w
  have reserved := w.capacity_lt_bits
  omega

theorem getLsbD_fullMask {i : Nat} : (fullMask E w).getLsbD i = decide (i < limit E w) := by
  have below : i < limit E w → i < w.bits := lt_bits_of_lt_limit
  rw [fullMask, Bitmap.getLsbD_lowMask, ← Bool.decide_and, decide_eq_decide]
  exact and_iff_right_of_imp below

theorem contains_eq (s : BitSet E w) (v : V) :
    s.contains v = (decide (E.ordinal v < w.capacity) && s.bitmap.getLsbD (E.ordinal v)) := by
  rw [contains, Bitmap.meets_bit]

end BitSet

end VariantSets
