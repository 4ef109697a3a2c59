import VariantSets.BitSet.Cursor
import VariantSets.Payload

/-!
The forms in which bit sets are shown, written and read.
-/
namespace VariantSets.BitSet

variable {V : Type} {E : Enumeration V} {w : Width}

def payload (s : BitSet E w) : Payload := .bits w s.bitmap

def toJson (s : BitSet E w) : List Char := s.payload.toJson

def toBinary (s : BitSet E w) : List UInt8 := s.payload.toBinary

def ofJson? (E : Enumeration V) (w : Width) (text : List Char) : Option (BitSet E w) :=
  (Payload.bitmapOfJson? w text).map ofBitmap

def ofBinary? (E : Enumeration V) (w : Width) (bytes : List UInt8) : Option (BitSet E w) :=
  (Payload.bitmapOfBinary? w bytes).map ofBitmap

def render (s : BitSet E w) : String := "\x7b" ++ ", ".intercalate (s.toList.map E.render) ++ "\x7d"

/-- A text with four blanks in front of each of its lines, also of the first if the text starts a line. -/
def indented : Bool → List Char → List Char
  | _, [] => []
  | starts, c :: cs => (if starts then List.replicate 4 ' ' else []) ++ c :: indented (c == '\n') cs

def renderLines (s : BitSet E w) : String :=
  match s.toList with
  | [] => "\x7b\x7d"
  | vs =>
    let item v := String.ofList (indented true ((E.renderLines v).toList ++ [',', '\n']))
    "\x7b\n" ++ String.join (vs.map item) ++ "\x7d"

end VariantSets.BitSet
