import VariantSets.Text.Quoted

/-!
Why a request on a set is refused, and the words for it.
-/
namespace VariantSets

inductive Fault
  /-- The variant has no position in the set: its ordinal reaches the limit. -/
  | ordinalOutOfRange (variant : String) (ordinal limit : Nat)
  | frozen (holder : String)
  | invalidToken (c : Char)
  | duplicateToken (c : Char)
  | endOfSequence
  | unsupportedRemoval
  deriving DecidableEq

def Fault.message : Fault → String
  | ordinalOutOfRange variant ordinal limit =>
    variant ++ " has ordinal " ++ Nat.repr ordinal ++ " which is too big for this set (limit "
      ++ Nat.repr limit ++ ")"
  | frozen holder => "mutation called for frozen instance of " ++ holder
  | invalidToken c => "invalid enum set character: " ++ Text.quotedChar c
  | duplicateToken c => "duplicate enum set character: " ++ Text.quotedChar c
  | endOfSequence => "no more elements in the enum set"
  | unsupportedRemoval => "elements cannot be removed through an enum set iterator"

inductive ReadFault
  | malformed
  /-- The input is a written form, of a value that is no set. -/
  | refused (cause : Fault)
  deriving DecidableEq

/-- The words for a failed reading, which only a refused value has. -/
def ReadFault.message? : ReadFault → Option String
  | malformed => none
  | refused cause => some cause.message

inductive Refusal
  | fault (cause : Fault)
  | unread (cause : ReadFault)
  | noHandle
  deriving DecidableEq

end VariantSets
