import VariantSets.Text.Attaching
import VariantSets.Text.Ignorable
import VariantSets.Text.Shapeless

/-!
Quoted text: the form in which messages show characters, so that every one of them can be told apart.
-/
namespace VariantSets.Text

def coded (c : Char) : List Char := "\\u\x7b".toList ++ Nat.toDigits 16 c.toNat ++ ['\x7d']

/-- One character between quotes. The quote and the backslash take a backslash; what would show no shape of
its own is named by a letter or by its code. -/
def escape (quote c : Char) : List Char :=
  if c = quote ∨ c = '\\' then ['\\', c]
  else if c = '\x00' then ['\\', '0']
  else if c = '\t' then ['\\', 't']
  else if c = '\n' then ['\\', 'n']
  else if c = '\r' then ['\\', 'r']
  else if isAttaching c || isShapeless c || isIgnorable c then coded c
  else [c]

def quotedChar (c : Char) : String := String.ofList ('\x27' :: escape '\x27' c ++ ['\x27'])

def quotedText (cs : List Char) : String :=
  String.ofList ('\x22' :: cs.flatMap (escape '\x22') ++ ['\x22'])

end VariantSets.Text
