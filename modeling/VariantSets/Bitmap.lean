import VariantSets.Width

/-!
Bitmaps: one bit for each position, stored in a word of the chosen width. The lemmas say what each
operation does to the bit at a position.
-/
namespace VariantSets

abbrev Bitmap (w : Width) := BitVec w.bits

namespace Bitmap
variable {w : Width}

def bit (w : Width) (i : Nat) : Bitmap w := BitVec.twoPow w.bits i

def lowMask (w : Width) (n : Nat) : Bitmap w := BitVec.allOnes w.bits >>> (w.bits - n)

def meets (a b : Bitmap w) : Bool := a &&& b != 0#w.bits

def positions (b : Bitmap w) : List Nat := (List.range w.bits).filter b.getLsbD

def popCount (b : Bitmap w) : Nat := b.positions.length

def lowest? (b : Bitmap w) : Option Nat := (List.range w.bits).find? b.getLsbD

/-- The number of clear bits below the lowest set bit; all bits when none is set. -/
def trailingZeros (b : Bitmap w) : Nat := b.lowest?.getD w.bits

/-- The bitmap folded to 32 bits, the upper half of a long word onto the lower. -/
def fold (b : Bitmap w) : BitVec 32 := (b.setWidth 64 ^^^ (b.setWidth 64 >>> 32)).setWidth 32

@[simp] theorem getLsbD_bit (w : Width) (i j : Nat) :
    (bit w i).getLsbD j = (decide (j < w.bits) && decide (i = j)) := by
  simp [bit, BitVec.getLsbD_twoPow]
  grind

@[simp] theorem getLsbD_lowMask (w : Width) (n j : Nat) :
    (lowMask w n).getLsbD j = (decide (j < w.bits) && decide (j < n)) := by
  have shift : w.bits - n + j < w.bits ↔ j < w.bits ∧ j < n := by omega
  rw [lowMask, BitVec.getLsbD_ushiftRight, BitVec.getLsbD_allOnes, ← Bool.decide_and]
  exact decide_eq_decide.2 shift

theorem meets_bit (b : Bitmap w) (i : Nat) : b.meets (bit w i) = b.getLsbD i := by
  have zero : b &&& bit w i = 0#w.bits ↔ b.getLsbD i = false := by
    constructor
    · intro h
      have at_i := congrArg (fun c => c.getLsbD i) h
      by_cases hi : i < w.bits
      · simpa [- BitVec.getLsbD_eq_getElem, hi] using at_i
      · exact BitVec.getLsbD_of_ge b i (Nat.le_of_not_lt hi)
    · intro h
      apply BitVec.eq_of_getLsbD_eq
      intro j hj
      rw [BitVec.getLsbD_and, getLsbD_bit, BitVec.getLsbD_zero]
      by_cases hij : i = j
      · rw [← hij, h, Bool.false_and]
      · simp [hij]
  cases hb : b.getLsbD i <;> simp [meets, zero, hb]

@[simp] theorem mem_positions {b : Bitmap w} {i : Nat} : i ∈ b.positions ↔ b.getLsbD i = true := by
  simp only [positions, List.mem_filter, List.mem_range, and_iff_right_iff_imp]
  intro h
  exact BitVec.lt_of_getLsbD h

theorem positions_sorted (b : Bitmap w) : b.positions.Pairwise (· < ·) := by
  rw [positions]
  exact List.pairwise_lt_range.filter b.getLsbD

theorem lowest?_eq_head? (b : Bitmap w) : b.lowest? = b.positions.head? := by
  simp [lowest?, positions]

end Bitmap

end VariantSets
