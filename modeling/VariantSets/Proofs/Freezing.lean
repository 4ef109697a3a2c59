import VariantSets.BitSet.Family
import VariantSets.TokenSet.Family

/-! Frozen sets. What a frozen set answers is determined by what it holds, and no sequence of changes alters
it: the range of a variant is looked at first, then whether anything would change, then the flag. Changes with
an operand set, and the complement, look at the flag alone. -/
namespace VariantSets

namespace SetFamily
variable {S V R : Type} [SetFamily S V R]

section
variable (misfit? : V → Option Fault) (holder : String) (s : S)

/-- The answer of a frozen set to adding a variant. The fault of a variant that has no place in the set is
`misfit?`, and the set goes by the name `holder`. -/
def frozenInsert (v : V) : Except Fault Bool :=
  match misfit? v with
  | some f => .error f
  | none => if contains s v then .ok false else .error (.frozen holder)

def frozenErase (v : V) : Except Fault Bool :=
  match misfit? v with
  | some f => .error f
  | none => if contains s v then .error (.frozen holder) else .ok false

def frozenClear : Except Fault Unit :=
  if isEmpty s then .ok () else .error (.frozen holder)

/-- Only an empty set has a look at the list, and only at the first variant of it. -/
def frozenAssign (vs : List V) : Except Fault Unit :=
  if isEmpty s then
    match vs with
    | [] => .ok ()
    | v :: _ => .error ((misfit? v).getD (.frozen holder))
  else .error (.frozen holder)

def frozenAnswer : Mutation V S → Except Fault (Option Bool)
  | .insert v => (frozenInsert misfit? holder s v).map some
  | .erase v => (frozenErase misfit? holder s v).map some
  | .clear => (frozenClear holder s).map fun _ => none
  | .assign vs => (frozenAssign misfit? holder s vs).map fun _ => none
  | .union _ | .inter _ | .sdiff _ | .symmDiff _ | .compl => .error (.frozen holder)
  | .freeze => .ok none

structure Immovable : Prop where
  insert (v : V) : SetFamily.insert s v = ⟨frozenInsert misfit? holder s v, s⟩
  erase (v : V) : SetFamily.erase s v = ⟨frozenErase misfit? holder s v, s⟩
  clear : SetFamily.clear s = ⟨frozenClear holder s, s⟩
  assign (vs : List V) : SetFamily.assign s vs = ⟨frozenAssign misfit? holder s vs, s⟩
  union (t : S) : SetFamily.union s t = .refuse s (.frozen holder)
  inter (t : S) : SetFamily.inter s t = .refuse s (.frozen holder)
  sdiff (t : S) : SetFamily.sdiff s t = .refuse s (.frozen holder)
  symmDiff (t : S) : SetFamily.symmDiff s t = .refuse s (.frozen holder)
  compl : SetFamily.compl s = .refuse s (.frozen holder)
  freeze : SetFamily.freeze s = s

end

section
variable {misfit? : V → Option Fault} {holder : String} {s : S}

theorem clear_andThen_insertAll {insertAll : S → List V → Outcome S Unit} (nil : ∀ t, insertAll t [] = .done t ())
    (cons : ∀ t v vs, insertAll t (v :: vs) = (SetFamily.insert t v).andThen fun u _ => insertAll u vs)
    (absent : isEmpty s = true → ∀ v, contains s v = false)
    (insert : ∀ v, SetFamily.insert s v = ⟨frozenInsert misfit? holder s v, s⟩) (vs : List V) :
    (Outcome.mk (frozenClear holder s) s).andThen (fun t _ => insertAll t vs) =
      ⟨frozenAssign misfit? holder s vs, s⟩ := by
  unfold frozenClear frozenAssign
  cases nothing : isEmpty s with
  | false => rfl
  | true =>
    cases vs with
    | nil => exact nil s
    | cons v vs =>
      change insertAll s (v :: vs) = .refuse s _
      rw [cons, insert, frozenInsert, absent nothing]
      cases misfit? v <;> rfl

namespace Immovable

theorem apply (h : Immovable misfit? holder s) (m : Mutation V S) :
    SetFamily.apply s m = ⟨frozenAnswer misfit? holder s m, s⟩ := by
  cases m with
  | insert v => exact congrArg (Outcome.map some) (h.insert v)
  | erase v => exact congrArg (Outcome.map some) (h.erase v)
  | clear => exact congrArg (Outcome.map _) h.clear
  | assign vs => exact congrArg (Outcome.map _) (h.assign vs)
  | union t => exact congrArg (Outcome.map _) (h.union t)
  | inter t => exact congrArg (Outcome.map _) (h.inter t)
  | sdiff t => exact congrArg (Outcome.map _) (h.sdiff t)
  | symmDiff t => exact congrArg (Outcome.map _) (h.symmDiff t)
  | compl => exact congrArg (Outcome.map _) h.compl
  | freeze => exact congrArg (Outcome.done · none) h.freeze

theorem applyAll (h : Immovable misfit? holder s) (ms : List (Mutation V S)) :
    SetFamily.applyAll s ms = (ms.map (frozenAnswer misfit? holder s), s) := by
  induction ms with
  | nil => rfl
  | cons m ms ih => rw [SetFamily.applyAll, h.apply, ih, List.map_cons]

end Immovable

end

end SetFamily

open VariantSets.SetFamily

namespace BitSet
variable {V : Type} {E : Enumeration V} {w : Width} {s : BitSet E w}

def misfit? (E : Enumeration V) (w : Width) (v : V) : Option Fault :=
  if limit E w ≤ E.ordinal v then some (.ordinalOutOfRange (E.name v) (E.ordinal v) (limit E w)) else none

theorem slot_of_lt {v : V} (fits : E.ordinal v < limit E w) :
    slot E w v = .ok (Bitmap.bit w (E.ordinal v)) ∧ misfit? E w v = none := by
  rw [slot, misfit?, if_pos fits, if_neg (Nat.not_le_of_lt fits)]
  exact ⟨rfl, rfl⟩

theorem slot_of_not_lt {v : V} (large : ¬ E.ordinal v < limit E w) :
    slot E w v = .error (.ordinalOutOfRange (E.name v) (E.ordinal v) (limit E w)) ∧
      misfit? E w v = some (.ordinalOutOfRange (E.name v) (E.ordinal v) (limit E w)) := by
  rw [slot, misfit?, if_neg large, if_pos (Nat.le_of_not_lt large)]
  exact ⟨rfl, rfl⟩

theorem contains_of_lt {v : V} (fits : E.ordinal v < limit E w) :
    SetFamily.contains s v = s.bitmap.meets (Bitmap.bit w (E.ordinal v)) := by
  have room : E.ordinal v < w.capacity := Nat.lt_of_lt_of_le fits (limit_le_capacity E w)
  change s.contains v = _
  rw [contains, decide_eq_true room, Bool.true_and]

theorem not_contains_of_isEmpty (nothing : s.isEmpty = true) (v : V) : SetFamily.contains s v = false := by
  change s.contains v = false
  rw [contains_eq, beq_iff_eq.1 nothing, BitVec.getLsbD_zero, Bool.and_false]

section
variable (frozen : s.frozen = true)
include frozen

theorem insert_of_frozen (v : V) :
    s.insert v = ⟨frozenInsert (misfit? E w) (typeName E w) s v, s⟩ := by
  rw [insert, frozenInsert]
  by_cases fits : E.ordinal v < limit E w
  · obtain ⟨slotted, fine⟩ := slot_of_lt fits
    simp only [slotted, fine, contains_of_lt fits, replace_of_frozen frozen]
    split <;> rfl
  · obtain ⟨slotted, wrong⟩ := slot_of_not_lt fits
    simp only [slotted, wrong]
    rfl

theorem erase_of_frozen (v : V) :
    s.erase v = ⟨frozenErase (misfit? E w) (typeName E w) s v, s⟩ := by
  rw [erase, frozenErase]
  by_cases fits : E.ordinal v < limit E w
  · obtain ⟨slotted, fine⟩ := slot_of_lt fits
    simp only [slotted, fine, contains_of_lt fits, replace_of_frozen frozen]
    split <;> rfl
  · obtain ⟨slotted, wrong⟩ := slot_of_not_lt fits
    simp only [slotted, wrong]
    rfl

theorem clear_of_frozen : s.clear = ⟨frozenClear (typeName E w) s, s⟩ := by
  rw [clear, replace_of_frozen frozen]
  change _ = Outcome.mk (if s.isEmpty then _ else _) s
  split <;> rfl

theorem assign_of_frozen (vs : List V) :
    s.assign vs = ⟨frozenAssign (misfit? E w) (typeName E w) s vs, s⟩ := by
  rw [assign, clear_of_frozen frozen]
  exact clear_andThen_insertAll (fun _ => rfl) (fun _ _ _ => rfl) not_contains_of_isEmpty
    (insert_of_frozen frozen) vs

theorem immovable_of_frozen : Immovable (misfit? E w) (typeName E w) s where
  insert := insert_of_frozen frozen
  erase := erase_of_frozen frozen
  clear := clear_of_frozen frozen
  assign := assign_of_frozen frozen
  union _ := replace_of_frozen frozen _ ()
  inter _ := replace_of_frozen frozen _ ()
  sdiff _ := replace_of_frozen frozen _ ()
  symmDiff _ := replace_of_frozen frozen _ ()
  compl := replace_of_frozen frozen _ ()
  freeze := congrArg (mk s.bitmap) frozen.symm

end

end BitSet

namespace TokenSet
variable {V : Type} {T : TokenTable V} {s : TokenSet T}

def misfit? (_ : V) : Option Fault := none

theorem not_contains_of_isEmpty (nothing : s.isEmpty = true) (v : V) : SetFamily.contains s v = false := by
  change s.contents.contains (T.token v) = false
  rw [List.isEmpty_iff.1 nothing, List.contains_nil]

section
variable (frozen : s.frozen = true)
include frozen

theorem insert_of_frozen (v : V) : s.insert v = ⟨frozenInsert misfit? (typeName T) s v, s⟩ := by
  rw [insert, replace_of_frozen frozen, frozenInsert]
  change _ = Outcome.mk (if s.contains v then _ else _) s
  split <;> rfl

theorem erase_of_frozen (v : V) : s.erase v = ⟨frozenErase misfit? (typeName T) s v, s⟩ := by
  rw [erase, replace_of_frozen frozen, frozenErase]
  change _ = Outcome.mk (if s.contains v then _ else _) s
  split <;> rfl

theorem clear_of_frozen : s.clear = ⟨frozenClear (typeName T) s, s⟩ := by
  rw [clear, replace_of_frozen frozen]
  change _ = Outcome.mk (if s.isEmpty then _ else _) s
  split <;> rfl

theorem assign_of_frozen (vs : List V) : s.assign vs = ⟨frozenAssign misfit? (typeName T) s vs, s⟩ := by
  rw [assign, clear_of_frozen frozen]
  exact clear_andThen_insertAll (fun _ => rfl) (fun _ _ _ => rfl) not_contains_of_isEmpty
    (insert_of_frozen frozen) vs

theorem immovable_of_frozen : Immovable misfit? (typeName T) s where
  insert := insert_of_frozen frozen
  erase := erase_of_frozen frozen
  clear := clear_of_frozen frozen
  assign := assign_of_frozen frozen
  union _ := replace_of_frozen frozen _ ()
  inter _ := replace_of_frozen frozen _ ()
  sdiff _ := replace_of_frozen frozen _ ()
  symmDiff _ := replace_of_frozen frozen _ ()
  compl := replace_of_frozen frozen _ ()
  freeze := congrArg (mk s.contents) frozen.symm

end

end TokenSet

/-- After `freeze`, whatever the set holds, no run of changes alters it, and every answer is that of a frozen
set. -/
theorem applyAll_freeze :
    (∀ {V : Type} {E : Enumeration V} {w : Width} (s : BitSet E w) (ms : List (Mutation V (BitSet E w))),
      applyAll s.freeze ms = (ms.map (frozenAnswer (BitSet.misfit? E w) (BitSet.typeName E w) s.freeze), s.freeze)) ∧
    (∀ {V : Type} {T : TokenTable V} (s : TokenSet T) (ms : List (Mutation V (TokenSet T))),
      applyAll s.freeze ms = (ms.map (frozenAnswer TokenSet.misfit? (TokenSet.typeName T) s.freeze), s.freeze)) := by
  constructor
  · intro V E w s ms
    exact (BitSet.immovable_of_frozen rfl).applyAll ms
  · intro V T s ms
    exact (TokenSet.immovable_of_frozen rfl).applyAll ms

end VariantSets
