import VariantSets.SetFamily
import VariantSets.TokenSet.Exchange
import VariantSets.TokenSet.Mutation

/-!
Token sets as a family of sets.
-/
namespace VariantSets.TokenSet

inductive Source
  | contents (cs : List Char)
  | checked (cs : List Char)
  | json (text : List Char)
  | binary (bytes : List UInt8)

variable {V : Type} {T : TokenTable V}

/-- The set that a source gives. Only bare contents are taken unchecked. -/
def ofSource (T : TokenTable V) : Source → Except Refusal (TokenSet T)
  | .contents cs => .ok (ofContents T cs)
  | .checked cs => (parse T cs).mapError .fault
  | .json text => (ofJson T text).mapError .unread
  | .binary bytes => (ofBinary T bytes).mapError .unread

instance : SetFamily (TokenSet T) V Source where
  empty := empty T
  full := full T
  ofVariants := ofVariants T
  ofSource := ofSource T
  copy := copy
  freeze := freeze
  isFrozen := frozen
  isEmpty := isEmpty
  size := size
  contains := contains
  sameValue := sameValue
  insert := insert
  erase := erase
  clear := clear
  assign := assign
  union := union
  inter := inter
  sdiff := sdiff
  symmDiff := symmDiff
  compl := compl

end VariantSets.TokenSet
