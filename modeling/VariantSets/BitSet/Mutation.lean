import VariantSets.BitSet.Basic

/-!
Changes of bit sets. A request that names a variant first asks whether the variant fits, then whether
anything would change, and only then whether the set is frozen. A request with an operand set asks for the
latter alone.
-/
namespace VariantSets.BitSet

variable {V : Type} {E : Enumeration V} {w : Width}

def slot (E : Enumeration V) (w : Width) (v : V) : Except Fault (Bitmap w) :=
  if E.ordinal v < limit E w then .ok (Bitmap.bit w (E.ordinal v))
  else .error (.ordinalOutOfRange (E.name v) (E.ordinal v) (limit E w))

def replace {A : Type} (s : BitSet E w) (b : Bitmap w) (a : A) : Outcome (BitSet E w) A :=
  if s.frozen then .refuse s (.frozen (typeName E w)) else .done ⟨b, s.frozen⟩ a

def insert (s : BitSet E w) (v : V) : Outcome (BitSet E w) Bool :=
  match slot E w v with
  | .error f => .refuse s f
  | .ok b => if s.bitmap.meets b then .done s false else s.replace (s.bitmap ||| b) true

def erase (s : BitSet E w) (v : V) : Outcome (BitSet E w) Bool :=
  match slot E w v with
  | .error f => .refuse s f
  | .ok b => if s.bitmap.meets b then s.replace (s.bitmap &&& ~~~b) true else .done s false

def clear (s : BitSet E w) : Outcome (BitSet E w) Unit :=
  if s.isEmpty then .done s () else s.replace 0#w.bits ()

def insertAll (s : BitSet E w) : List V → Outcome (BitSet E w) Unit
  | [] => .done s ()
  | v :: vs => (s.insert v).andThen fun t _ => t.insertAll vs

/-- Replaces the members. What was added before a refused variant stays. -/
def assign (s : BitSet E w) (vs : List V) : Outcome (BitSet E w) Unit :=
  s.clear.andThen fun t _ => t.insertAll vs

def union (s t : BitSet E w) : Outcome (BitSet E w) Unit := s.replace (s.bitmap ||| t.bitmap) ()

def inter (s t : BitSet E w) : Outcome (BitSet E w) Unit := s.replace (s.bitmap &&& t.bitmap) ()

def sdiff (s t : BitSet E w) : Outcome (BitSet E w) Unit := s.replace (s.bitmap &&& ~~~t.bitmap) ()

def symmDiff (s t : BitSet E w) : Outcome (BitSet E w) Unit := s.replace (s.bitmap ^^^ t.bitmap) ()

def compl (s : BitSet E w) : Outcome (BitSet E w) Unit :=
  s.replace (~~~s.bitmap &&& fullMask E w) ()

def ofVariants (E : Enumeration V) (w : Width) (vs : List V) : Except Fault (BitSet E w) :=
  ((empty E w).assign vs).state

theorem replace_of_frozen {A : Type} {s : BitSet E w} (h : s.frozen = true) (b : Bitmap w) (a : A) :
    s.replace b a = .refuse s (.frozen (typeName E w)) := by
  rw [replace, if_pos h]

theorem replace_of_open {A : Type} {s : BitSet E w} (h : s.frozen = false) (b : Bitmap w) (a : A) :
    s.replace b a = .done ⟨b, false⟩ a := by
  simp [replace, h]

section
variable {s : BitSet E w} {v : V}

theorem insert_of_lt (fits : E.ordinal v < limit E w) :
    s.insert v =
      if s.bitmap.getLsbD (E.ordinal v) then .done s false
      else s.replace (s.bitmap ||| Bitmap.bit w (E.ordinal v)) true := by
  simp only [insert, slot, if_pos fits, Bitmap.meets_bit]

theorem insert_of_not_lt (large : ¬ E.ordinal v < limit E w) :
    s.insert v = .refuse s (.ordinalOutOfRange (E.name v) (E.ordinal v) (limit E w)) := by
  simp only [insert, slot, if_neg large]

theorem erase_of_lt (fits : E.ordinal v < limit E w) :
    s.erase v =
      if s.bitmap.getLsbD (E.ordinal v) then s.replace (s.bitmap &&& ~~~Bitmap.bit w (E.ordinal v)) true
      else .done s false := by
  simp only [erase, slot, if_pos fits, Bitmap.meets_bit]

theorem erase_of_not_lt (large : ¬ E.ordinal v < limit E w) :
    s.erase v = .refuse s (.ordinalOutOfRange (E.name v) (E.ordinal v) (limit E w)) := by
  simp only [erase, slot, if_neg large]

end

end VariantSets.BitSet
