import VariantSets.BitSet.Basic
import VariantSets.Symbol

/-!
Symbol maps: a bit set as the symbols of its positions. The reserved bit has no symbol, and is lost.
-/
namespace VariantSets.BitSet

variable {V : Type} {E : Enumeration V} {w : Width}

def symbolMap (s : BitSet E w) : List Char :=
  ((List.range w.capacity).filter fun i => s.bitmap.meets (Bitmap.bit w i)).filterMap Symbol.ofPosition?

def symbolPosition? (w : Width) (c : Char) : Option Nat :=
  (Symbol.position? c).filter fun i => i < w.capacity

def bitmapOfSymbols (w : Width) (cs : List Char) : Except Fault (Bitmap w) :=
  cs.foldlM (fun b c =>
    match symbolPosition? w c with
    | some i => .ok (b ||| Bitmap.bit w i)
    | none => .error (.invalidToken c)) 0#w.bits

def ofSymbols (E : Enumeration V) (w : Width) (cs : List Char) : Except Fault (BitSet E w) :=
  (bitmapOfSymbols w cs).map ofBitmap

end VariantSets.BitSet
