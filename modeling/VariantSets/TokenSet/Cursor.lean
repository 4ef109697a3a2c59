import VariantSets.Binary.Text
import VariantSets.TokenSet.Basic

/-!
Walking a token set in storage order. A character that is no token gives a fault in its place, and the walk
goes on behind it.
-/
namespace VariantSets.TokenSet

variable {V : Type} {T : TokenTable V}

structure Cursor {V : Type} (T : TokenTable V) where
  remaining : List Char

def cursor (s : TokenSet T) : Cursor T := ⟨s.contents⟩

def item (T : TokenTable V) (c : Char) : Except Fault V :=
  match T.ofToken? c with
  | some v => .ok v
  | none => .error (.invalidToken c)

def toList (s : TokenSet T) : List (Except Fault V) := s.contents.map (item T)

namespace Cursor

def next (c : Cursor T) : Option (Except Fault V) × Cursor T :=
  match c.remaining with
  | [] => (none, c)
  | d :: ds => (some (item T d), ⟨ds⟩)

def tryNext (c : Cursor T) : Outcome (Cursor T) V :=
  match c.next with
  | (some r, after) => ⟨r, after⟩
  | (none, after) => .refuse after .endOfSequence

def remove (c : Cursor T) : Outcome (Cursor T) Unit := .refuse c .unsupportedRemoval

def byteSize (c : Cursor T) : Nat := (Binary.Text.utf8 c.remaining).length

/-- Bounds on the number of items to come: a character takes one to four bytes. -/
def sizeHint (c : Cursor T) : Nat × Nat := ((c.byteSize + 3) / 4, c.byteSize)

inductive Call
  | next | tryNext | remove | sizeHint
  deriving DecidableEq

inductive Reply (V : Type)
  | item (v : V)
  | removed
  | fault (f : Fault)
  | finished
  | bounds (lower upper : Nat)
  deriving DecidableEq

def Reply.ofAnswer {A : Type} (granted : A → Reply V) : Except Fault A → Reply V
  | .ok a => granted a
  | .error f => .fault f

def perform (c : Cursor T) : Call → Reply V × Cursor T
  | .next => ((c.next.1.map (.ofAnswer .item)).getD .finished, c.next.2)
  | .tryNext => (.ofAnswer .item c.tryNext.answer, c.tryNext.after)
  | .remove => (.ofAnswer (fun _ => .removed) c.remove.answer, c.remove.after)
  | .sizeHint => (.bounds c.sizeHint.1 c.sizeHint.2, c)

def walk (c : Cursor T) : List Call → List (Reply V)
  | [] => []
  | call :: calls => (c.perform call).1 :: (c.perform call).2.walk calls

end Cursor

end VariantSets.TokenSet
