/-!
Numbers as bytes of a fixed count, the low byte first.
-/
namespace VariantSets.Binary.LittleEndian

/-- The lowest `k` bytes of a number. -/
def write : (k : Nat) → Nat → List UInt8
  | 0, _ => []
  | k + 1, n => UInt8.ofNat n :: write k (n / 256)

def value : List UInt8 → Nat
  | [] => 0
  | b :: bs => b.toNat + 256 * value bs

def read? (k : Nat) (bytes : List UInt8) : Option (Nat × List UInt8) :=
  if bytes.length < k then none else some (value (bytes.take k), bytes.drop k)

@[simp] theorem length_write (k n : Nat) : (write k n).length = k := by
  induction k generalizing n with
  | zero => rfl
  | succ k ih => simp [write, ih]

end VariantSets.Binary.LittleEndian
