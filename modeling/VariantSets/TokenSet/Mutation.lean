import VariantSets.TokenSet.Basic

/-!
Changes of token sets. A request that names a variant first asks whether anything would change, and only
then whether the set is frozen. A request with an operand set asks for the latter alone.
-/
namespace VariantSets.TokenSet

variable {V : Type} {T : TokenTable V}

def replace {A : Type} (s : TokenSet T) (cs : List Char) (a : A) : Outcome (TokenSet T) A :=
  if s.frozen then .refuse s (.frozen (typeName T)) else .done ⟨cs, s.frozen⟩ a

def insert (s : TokenSet T) (v : V) : Outcome (TokenSet T) Bool :=
  if s.contains v then .done s false else s.replace (s.contents ++ [T.token v]) true

/-- Takes every occurrence of a variant out, and says whether there was one. -/
def erase (s : TokenSet T) (v : V) : Outcome (TokenSet T) Bool :=
  if s.contains v then s.replace (s.contents.filter (· != T.token v)) true else .done s false

def clear (s : TokenSet T) : Outcome (TokenSet T) Unit :=
  if s.isEmpty then .done s () else s.replace [] ()

def insertAll (s : TokenSet T) : List V → Outcome (TokenSet T) Unit
  | [] => .done s ()
  | v :: vs => (s.insert v).andThen fun t _ => t.insertAll vs

def assign (s : TokenSet T) (vs : List V) : Outcome (TokenSet T) Unit :=
  s.clear.andThen fun t _ => t.insertAll vs

def appendMissing (cs ds : List Char) : List Char :=
  ds.foldl (fun acc d => if acc.contains d then acc else acc ++ [d]) cs

def union (s t : TokenSet T) : Outcome (TokenSet T) Unit :=
  s.replace (appendMissing s.contents t.contents) ()

def inter (s t : TokenSet T) : Outcome (TokenSet T) Unit :=
  s.replace (s.contents.filter fun c => t.contents.contains c) ()

def sdiff (s t : TokenSet T) : Outcome (TokenSet T) Unit :=
  s.replace (s.contents.filter fun c => !t.contents.contains c) ()

/-- Keeps what is in exactly one of two sets, its own characters before those of the other. -/
def symmDiff (s t : TokenSet T) : Outcome (TokenSet T) Unit :=
  s.replace ((s.contents.filter fun c => !t.contents.contains c)
    ++ t.contents.filter fun c => !s.contents.contains c) ()

def compl (s : TokenSet T) : Outcome (TokenSet T) Unit :=
  s.replace (T.tokens.filter fun c => !s.contents.contains c) ()

def ofVariants (T : TokenTable V) (vs : List V) : Except Fault (TokenSet T) :=
  ((empty T).assign vs).state

theorem replace_of_frozen {A : Type} {s : TokenSet T} (h : s.frozen = true) (cs : List Char) (a : A) :
    s.replace cs a = .refuse s (.frozen (typeName T)) := by
  rw [replace, if_pos h]

theorem replace_of_open {A : Type} {s : TokenSet T} (h : s.frozen = false) (cs : List Char) (a : A) :
    s.replace cs a = .done ⟨cs, false⟩ a := by
  simp [replace, h]

end VariantSets.TokenSet
