/-!
Sets of characters as ranges of code points, both ends included.
-/
namespace VariantSets.Text

abbrev Ranges := List (Nat × Nat)

def Ranges.holds (rs : Ranges) (c : Char) : Bool := rs.any fun r => r.1 ≤ c.toNat && c.toNat ≤ r.2

end VariantSets.Text
