import VariantSets.Enumeration
import VariantSets.Outcome

/-!
Sets of variants as text: the tokens of the members, in the order in which they were added. Any text may
be taken as contents; `validate` says whether it is one that additions can build.
-/
namespace VariantSets

/-- A set of variants of `T` as their tokens. Being frozen is not part of its value. -/
structure TokenSet {V : Type} (T : TokenTable V) where
  contents : List Char
  frozen : Bool := false

namespace TokenSet
variable {V : Type} {T : TokenTable V}

def typeName (T : TokenTable V) : String := "TokenEnumSet<" ++ T.title ++ ">"

def empty (T : TokenTable V) : TokenSet T := ⟨[], false⟩

def full (T : TokenTable V) : TokenSet T := ⟨T.tokens, false⟩

def ofContents (T : TokenTable V) (cs : List Char) : TokenSet T := ⟨cs, false⟩

def size (s : TokenSet T) : Nat := s.contents.length

def isEmpty (s : TokenSet T) : Bool := s.contents.isEmpty

def contains (s : TokenSet T) (v : V) : Bool := s.contents.contains (T.token v)

/-- Whether two sets have the same value, which their order is part of. -/
def sameValue (s t : TokenSet T) : Bool := s.contents == t.contents

def copy (s : TokenSet T) : TokenSet T := ⟨s.contents, false⟩

def copyFrom (s t : TokenSet T) : TokenSet T := { s with contents := t.contents, frozen := false }

def freeze (s : TokenSet T) : TokenSet T := ⟨s.contents, true⟩

/-- Checks characters that come after others: each is a declared token, and none has come before. -/
def validateFrom (T : TokenTable V) (before : List Char) : List Char → Except Fault Unit
  | [] => .ok ()
  | c :: cs =>
    if (T.ofToken? c).isNone then .error (.invalidToken c)
    else if before.contains c then .error (.duplicateToken c)
    else validateFrom T (before ++ [c]) cs

def validate (s : TokenSet T) : Except Fault Unit := validateFrom T [] s.contents

def parse (T : TokenTable V) (cs : List Char) : Except Fault (TokenSet T) :=
  (ofContents T cs).validate.map fun _ => ofContents T cs

end TokenSet

end VariantSets
