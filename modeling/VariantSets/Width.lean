/-!
The widths of a bitmap. The top bit of every bitmap is reserved, so that it stays non-negative when it is
read as a signed number: `capacity` counts the bits below it.
-/
namespace VariantSets

inductive Width
  | byte | short | int | long
  deriving DecidableEq

namespace Width

def bytes : Width → Nat
  | byte => 1
  | short => 2
  | int => 4
  | long => 8

def bits (w : Width) : Nat := 8 * w.bytes

/-- The number of positions open to variants: every bit but the reserved top one. -/
def capacity (w : Width) : Nat := w.bits - 1

def title : Width → String
  | byte => "Byte"
  | short => "Short"
  | int => "Int"
  | long => "Long"

theorem capacity_add_one (w : Width) : w.capacity + 1 = w.bits := by
  cases w <;> rfl

theorem capacity_lt_bits (w : Width) : w.capacity < w.bits := by
  rw [← capacity_add_one]
  exact Nat.lt_succ_self _

theorem bytes_inj {w w' : Width} : w.bytes = w'.bytes ↔ w = w' := by
  cases w <;> cases w' <;> decide

theorem bytes_le (w : Width) : w.bytes ≤ long.bytes := by
  cases w <;> decide

theorem bits_le (w : Width) : w.bits ≤ 64 := by
  cases w <;> decide

end Width

end VariantSets
