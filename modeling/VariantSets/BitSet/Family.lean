import VariantSets.BitSet.Exchange
import VariantSets.BitSet.Mutation
import VariantSets.BitSet.SymbolMap
import VariantSets.SetFamily

/-!
Bit sets as a family of sets.
-/
namespace VariantSets.BitSet

inductive Source (w : Width)
  | bitmap (b : Bitmap w)
  | symbols (cs : List Char)
  | json (text : List Char)
  | binary (bytes : List UInt8)

variable {V : Type} {E : Enumeration V} {w : Width}

def ofRead : Option (BitSet E w) → Except Refusal (BitSet E w)
  | some s => .ok s
  | none => .error (.unread .malformed)

def ofSource (E : Enumeration V) : Source w → Except Refusal (BitSet E w)
  | .bitmap b => .ok (ofBitmap b)
  | .symbols cs => (ofSymbols E w cs).mapError .fault
  | .json text => ofRead (ofJson? E w text)
  | .binary bytes => ofRead (ofBinary? E w bytes)

instance : SetFamily (BitSet E w) V (Source w) where
  empty := empty E w
  full := full E w
  ofVariants := ofVariants E w
  ofSource := ofSource E
  copy := copy
  freeze := freeze
  isFrozen := frozen
  isEmpty := isEmpty
  size := size
  contains := contains
  sameValue := sameValue
  insert := insert
  erase := erase
  clear := clear
  assign := assign
  union := union
  inter := inter
  sdiff := sdiff
  symmDiff := symmDiff
  compl := compl

end VariantSets.BitSet
