import Mathlib.Data.Finset.Card
import VariantSets.Enumeration
import VariantSets.SetFamily

/-! Sets of variants as finite sets, with nothing said about how they are stored. This is what both families
of sets are compared with: the room `n` bounds the ordinals of the members, and `holder` is the name that a
frozen set goes by when it refuses a change. -/
namespace VariantSets

/-- A finite set of variants with ordinals below `n`, and whether it is frozen. -/
@[ext]
structure MemberSet {V : Type} (E : Enumeration V) (n : Nat) (holder : String) where
  members : Finset V
  frozen : Bool := false
  below : ∀ v ∈ members, E.ordinal v < n

namespace MemberSet
variable {V : Type} {E : Enumeration V} {n : Nat} {holder : String}

def outOfRange (E : Enumeration V) (n : Nat) (v : V) : Fault :=
  .ordinalOutOfRange (E.name v) (E.ordinal v) n

def empty : MemberSet E n holder := ⟨∅, false, by simp⟩

def copy (s : MemberSet E n holder) : MemberSet E n holder := ⟨s.members, false, s.below⟩

def freeze (s : MemberSet E n holder) : MemberSet E n holder := ⟨s.members, true, s.below⟩

def replace {A : Type} (s : MemberSet E n holder) (m : Finset V) (below : ∀ v ∈ m, E.ordinal v < n) (a : A) :
    Outcome (MemberSet E n holder) A :=
  if s.frozen then .refuse s (.frozen holder) else .done ⟨m, s.frozen, below⟩ a

theorem replace_of_frozen {A : Type} {s : MemberSet E n holder} (h : s.frozen = true) (m : Finset V)
    (below : ∀ v ∈ m, E.ordinal v < n) (a : A) : s.replace m below a = .refuse s (.frozen holder) := by
  rw [replace, if_pos h]

theorem replace_of_open {A : Type} {s : MemberSet E n holder} (h : s.frozen = false) (m : Finset V)
    (below : ∀ v ∈ m, E.ordinal v < n) (a : A) : s.replace m below a = .done ⟨m, false, below⟩ a := by
  simp [replace, h]

def fitting (E : Enumeration V) (n : Nat) (vs : List V) : List V := vs.takeWhile fun v => E.ordinal v < n

/-- Why not all variants of a list are taken: the first that is out of range, if there is one. -/
def verdict (E : Enumeration V) (n : Nat) (vs : List V) : Except Fault Unit :=
  match vs.find? fun v => !decide (E.ordinal v < n) with
  | some v => .error (outOfRange E n v)
  | none => .ok ()

section
variable {v : V} (vs : List V)

theorem fitting_cons_of_lt (fits : E.ordinal v < n) : fitting E n (v :: vs) = v :: fitting E n vs := by
  simp [fitting, fits]

theorem fitting_cons_of_not_lt (large : ¬ E.ordinal v < n) : fitting E n (v :: vs) = [] := by
  simp [fitting, large]

theorem verdict_cons_of_lt (fits : E.ordinal v < n) : verdict E n (v :: vs) = verdict E n vs := by
  simp [verdict, fits]

theorem verdict_cons_of_not_lt (large : ¬ E.ordinal v < n) :
    verdict E n (v :: vs) = .error (outOfRange E n v) := by
  simp [verdict, large]

end

variable [DecidableEq V]

def declared (E : Enumeration V) (n : Nat) : Finset V :=
  E.variants.toFinset.filter fun v => E.ordinal v < n

theorem mem_declared {v : V} : v ∈ declared E n ↔ v ∈ E.variants ∧ E.ordinal v < n := by
  simp [declared]

def full : MemberSet E n holder := ⟨declared E n, false, fun _ h => (mem_declared.1 h).2⟩

def insert (s : MemberSet E n holder) (v : V) : Outcome (MemberSet E n holder) Bool :=
  if fits : E.ordinal v < n then
    if v ∈ s.members then .done s false
    else s.replace (s.members ∪ {v}) (fun u hu => by
      rcases Finset.mem_union.1 hu with hu | hu
      · exact s.below u hu
      · rwa [Finset.mem_singleton.1 hu]) true
  else .refuse s (outOfRange E n v)

def erase (s : MemberSet E n holder) (v : V) : Outcome (MemberSet E n holder) Bool :=
  if E.ordinal v < n then
    if v ∈ s.members then s.replace (s.members \ {v}) (fun u hu => s.below u (Finset.mem_sdiff.1 hu).1) true
    else .done s false
  else .refuse s (outOfRange E n v)

def clear (s : MemberSet E n holder) : Outcome (MemberSet E n holder) Unit :=
  if s.members = ∅ then .done s () else s.replace ∅ (by simp) ()

theorem lt_of_mem_fitting {vs : List V} {v : V} (h : v ∈ (fitting E n vs).toFinset) : E.ordinal v < n := by
  have fits := List.all_eq_true.1 List.all_takeWhile v (List.mem_toFinset.1 h)
  exact of_decide_eq_true fits

/-- Replaces the members by those of a list. A frozen set is only left alone if it and the list are empty; else
the first variant of the list says why not. An open set takes the variants before the first that is out of
range. -/
def assign (s : MemberSet E n holder) (vs : List V) : Outcome (MemberSet E n holder) Unit :=
  if s.frozen then
    if s.members = ∅ then
      match vs with
      | [] => .done s ()
      | v :: _ => .refuse s (if E.ordinal v < n then .frozen holder else outOfRange E n v)
    else .refuse s (.frozen holder)
  else ⟨verdict E n vs, (fitting E n vs).toFinset, false, fun _ => lt_of_mem_fitting⟩

def insertAll (s : MemberSet E n holder) : List V → Outcome (MemberSet E n holder) Unit
  | [] => .done s ()
  | v :: vs => (s.insert v).andThen fun t _ => t.insertAll vs

theorem insert_of_open {s : MemberSet E n holder} (opened : s.frozen = false) {v : V} (fits : E.ordinal v < n) :
    ∃ t a, s.insert v = .done t a ∧ t.frozen = false ∧ t.members = s.members ∪ {v} := by
  rw [insert, dif_pos fits]
  by_cases held : v ∈ s.members
  · refine ⟨s, false, if_pos held, opened, ?_⟩
    rw [Finset.union_eq_left.2 (Finset.singleton_subset_iff.2 held)]
  · rw [if_neg held, replace_of_open opened]
    exact ⟨_, true, rfl, rfl, rfl⟩

theorem insertAll_of_open {s : MemberSet E n holder} (opened : s.frozen = false) (vs : List V) :
    (s.insertAll vs).answer = verdict E n vs ∧ (s.insertAll vs).after.frozen = false ∧
      (s.insertAll vs).after.members = s.members ∪ (fitting E n vs).toFinset := by
  -- Adding keeps a set open, which is all that is known of it after the first variant.
  induction vs generalizing s with
  | nil =>
    refine ⟨rfl, opened, ?_⟩
    simp [insertAll, fitting]
  | cons v vs ih =>
    by_cases fits : E.ordinal v < n
    · obtain ⟨t, a, inserted, opened', grown⟩ := insert_of_open opened fits
      obtain ⟨answer, open', members⟩ := ih opened'
      rw [insertAll, inserted, Outcome.andThen_done, verdict_cons_of_lt vs fits, fitting_cons_of_lt vs fits]
      refine ⟨answer, open', ?_⟩
      rw [members, grown, Finset.union_assoc, Finset.singleton_union, List.toFinset_cons]
    · rw [insertAll, insert, dif_neg fits, Outcome.andThen_refuse, verdict_cons_of_not_lt vs fits,
        fitting_cons_of_not_lt vs fits]
      refine ⟨rfl, opened, ?_⟩
      simp

theorem clear_of_open {s : MemberSet E n holder} (opened : s.frozen = false) : s.clear = .done empty () := by
  by_cases nothing : s.members = ∅
  · rw [clear, if_pos nothing]
    exact congrArg (Outcome.done · ()) (MemberSet.ext nothing opened)
  · rw [clear, if_neg nothing, replace_of_open opened, empty]

theorem assign_eq (s : MemberSet E n holder) (vs : List V) :
    s.assign vs = s.clear.andThen fun t _ => t.insertAll vs := by
  unfold assign
  cases open? : s.frozen with
  | false =>
    have loop := insertAll_of_open (s := (empty : MemberSet E n holder)) rfl vs
    obtain ⟨answer, opened, members⟩ := loop
    rw [clear_of_open open?, Outcome.andThen_done, ← answer]
    refine congrArg (Outcome.mk _) (MemberSet.ext ?_ opened.symm)
    rw [members, empty, Finset.empty_union]
  | true =>
    by_cases nothing : s.members = ∅
    · rw [if_pos rfl, if_pos nothing, clear, if_pos nothing, Outcome.andThen_done]
      cases vs with
      | nil => rfl
      | cons v vs =>
        have absent : v ∉ s.members := nothing ▸ Finset.notMem_empty v
        by_cases fits : E.ordinal v < n
        · simp only [insertAll, insert, dif_pos fits, if_neg absent, replace_of_frozen open?, if_pos fits]
          rfl
        · simp only [insertAll, insert, dif_neg fits, if_neg fits]
          rfl
    · rw [if_pos rfl, if_neg nothing, clear, if_neg nothing, replace_of_frozen open?]
      rfl

def union (s t : MemberSet E n holder) : Outcome (MemberSet E n holder) Unit :=
  s.replace (s.members ∪ t.members) (fun v hv => (Finset.mem_union.1 hv).elim (s.below v) (t.below v)) ()

def inter (s t : MemberSet E n holder) : Outcome (MemberSet E n holder) Unit :=
  s.replace (s.members ∩ t.members) (fun v hv => s.below v (Finset.mem_inter.1 hv).1) ()

def sdiff (s t : MemberSet E n holder) : Outcome (MemberSet E n holder) Unit :=
  s.replace (s.members \ t.members) (fun v hv => s.below v (Finset.mem_sdiff.1 hv).1) ()

def symmDiff (s t : MemberSet E n holder) : Outcome (MemberSet E n holder) Unit :=
  s.replace ((s.members \ t.members) ∪ (t.members \ s.members)) (fun v hv => by
    rcases Finset.mem_union.1 hv with hv | hv
    · exact s.below v (Finset.mem_sdiff.1 hv).1
    · exact t.below v (Finset.mem_sdiff.1 hv).1) ()

def compl (s : MemberSet E n holder) : Outcome (MemberSet E n holder) Unit :=
  s.replace (declared E n \ s.members)
    (fun _ hv => (mem_declared.1 (Finset.mem_sdiff.1 hv).1).2) ()

instance : SetFamily (MemberSet E n holder) V Empty where
  empty := empty
  full := full
  ofVariants vs := (empty.assign vs).state
  ofSource r := r.elim
  copy := copy
  freeze := freeze
  isFrozen := frozen
  isEmpty s := decide (s.members = ∅)
  size s := s.members.card
  contains s v := decide (v ∈ s.members)
  sameValue s t := decide (s.members = t.members)
  insert := insert
  erase := erase
  clear := clear
  assign := assign
  union := union
  inter := inter
  sdiff := sdiff
  symmDiff := symmDiff
  compl := compl

end MemberSet

end VariantSets
