import VariantSets.BitSet.Basic

/-!
Walking a bit set in ascending order. A cursor has a bitmap of its own, so that the set may change meanwhile.
-/
namespace VariantSets.BitSet

variable {V : Type} {E : Enumeration V} {w : Width}

structure Cursor {V : Type} (E : Enumeration V) (w : Width) where
  remaining : Bitmap w

/-- A cursor before the first member. Only declared variants are to come. -/
def cursor (s : BitSet E w) : Cursor E w := ⟨s.bitmap &&& fullMask E w⟩

namespace Cursor

def next (c : Cursor E w) : Option V × Cursor E w :=
  if c.remaining == 0#w.bits then (none, c)
  else
    let i := c.remaining.trailingZeros
    (E.ofOrdinal? i, ⟨c.remaining &&& ~~~Bitmap.bit w i⟩)

def tryNext (c : Cursor E w) : Outcome (Cursor E w) V :=
  match c.next with
  | (some v, after) => .done after v
  | (none, after) => .refuse after .endOfSequence

def remove (c : Cursor E w) : Outcome (Cursor E w) Unit := .refuse c .unsupportedRemoval

def size (c : Cursor E w) : Nat := c.remaining.popCount

def sizeHint (c : Cursor E w) : Nat × Option Nat := (c.size, some c.size)

def take : Nat → Cursor E w → List V
  | 0, _ => []
  | n + 1, c =>
    match c.next with
    | (some v, after) => v :: take n after
    | (none, _) => []

def toList (c : Cursor E w) : List V := c.take c.size

end Cursor

/-- The members in ascending order. -/
def toList (s : BitSet E w) : List V := s.cursor.toList

end VariantSets.BitSet
