import VariantSets.Payload
import VariantSets.TokenSet.Basic

/-!
The forms in which token sets are shown, written and read. What is read is checked as by `parse`.
-/
namespace VariantSets.TokenSet

variable {V : Type} {T : TokenTable V}

def payload (s : TokenSet T) : Payload := .tokens s.contents

def toJson (s : TokenSet T) : List Char := s.payload.toJson

def toBinary (s : TokenSet T) : List UInt8 := s.payload.toBinary

def ofRead (T : TokenTable V) : Option (List Char) → Except ReadFault (TokenSet T)
  | none => .error .malformed
  | some cs => (parse T cs).mapError .refused

def ofJson (T : TokenTable V) (text : List Char) : Except ReadFault (TokenSet T) :=
  ofRead T (Json.Text.read? text)

def ofBinary (T : TokenTable V) (bytes : List UInt8) : Except ReadFault (TokenSet T) :=
  ofRead T (Binary.Text.read? bytes)

def render (s : TokenSet T) : String := "TokenEnumSet(" ++ Text.quotedText s.contents ++ ")"

end VariantSets.TokenSet
