import VariantSets.Binary.Text
import VariantSets.Bitmap
import VariantSets.Json.Number
import VariantSets.Json.Text

/-!
Payloads: the bare value of a set with the kind of set it belongs to, and its two written forms.
-/
namespace VariantSets

/-- The bare value of a set. -/
inductive Payload
  | bits (w : Width) (bitmap : Bitmap w)
  | tokens (contents : List Char)
  deriving DecidableEq

namespace Payload

def width? : Payload → Option Width
  | bits w _ => some w
  | tokens _ => none

def toNat? : Payload → Option Nat
  | bits _ b => some b.toNat
  | tokens _ => none

def contents? : Payload → Option (List Char)
  | bits _ _ => none
  | tokens cs => some cs

def toJson : Payload → List Char
  | bits _ b => Json.Number.write b.toNat
  | tokens cs => Json.Text.write cs

def toBinary : Payload → List UInt8
  | bits w b => Binary.LittleEndian.write w.bytes b.toNat
  | tokens cs => Binary.Text.write cs

def bitmapOfJson? (w : Width) (text : List Char) : Option (Bitmap w) := do
  let n ← Json.Number.read? text
  if (BitVec.ofNat w.bits n).toNat = n then some (BitVec.ofNat w.bits n) else none

def bitmapOfBinary? (w : Width) (bytes : List UInt8) : Option (Bitmap w) :=
  (Binary.LittleEndian.read? w.bytes bytes).map fun r => BitVec.ofNat w.bits r.1

end Payload

end VariantSets
