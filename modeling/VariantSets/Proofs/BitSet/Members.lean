import Mathlib.Data.Fintype.Card
import VariantSets.Proofs.BitSet.Marks
import VariantSets.Proofs.Freezing
import VariantSets.Proofs.Simulation

/-! Bit sets answer as finite sets of variants do, in every script. The relation between the two is that of
`Marks`, with the same flag. -/
namespace VariantSets.BitSet

variable {V : Type} {E : Enumeration V} {w : Width}

abbrev Members (E : Enumeration V) (w : Width) := MemberSet E (limit E w) (typeName E w)

structure Depicts (s : BitSet E w) (m : Members E w) : Prop where
  frozen : s.frozen = m.frozen
  marks : Marks E s.bitmap m.members

variable {s : BitSet E w} {m : Members E w}

theorem Depicts.replace {A : Type} (h : Depicts s m) {b : Bitmap w} {k : Finset V} (marks : Marks E b k)
    (below : ∀ v ∈ k, E.ordinal v < limit E w) (a : A) :
    (s.replace b a).Matches Eq Depicts (m.replace k below a) := by
  cases open? : s.frozen with
  | true =>
    rw [replace_of_frozen open?, MemberSet.replace_of_frozen (h.frozen ▸ open?)]
    exact .refuse h rfl
  | false =>
    rw [replace_of_open open?, MemberSet.replace_of_open (h.frozen ▸ open?)]
    exact .done ⟨rfl, marks⟩ a

theorem Depicts.isEmpty_iff (lawful : E.Lawful) (covers : E.Covers (limit E w)) (h : Depicts s m) :
    s.isEmpty = true ↔ m.members = ∅ := by
  rw [isEmpty, beq_iff_eq, h.marks.eq_zero_iff lawful covers]

/-- What can be read off a bit set that depicts `m`. -/
structure Shows (s : BitSet E w) (m : Members E w) : Prop where
  frozen : s.frozen = m.frozen
  bitmap : s.bitmap.toNat = ∑ v ∈ m.members, 2 ^ E.ordinal v
  contains (v : V) : s.contains v = true ↔ v ∈ m.members
  size : s.size = m.members.card
  isEmpty : s.isEmpty = true ↔ m.members = ∅
  yields : Yields Cursor.next s.cursor s.toList
  ascending : s.toList.Pairwise fun u v => E.ordinal u < E.ordinal v
  mem_toList (v : V) : v ∈ s.toList ↔ v ∈ m.members

theorem Depicts.shows (lawful : E.Lawful) (covers : E.Covers (limit E w)) (h : Depicts s m) : Shows s m where
  frozen := h.frozen
  bitmap := h.marks.toNat_eq lawful covers
  contains v := h.marks.contains_iff v
  size := h.marks.popCount_eq lawful covers
  isEmpty := h.isEmpty_iff lawful covers
  yields := yields_toList s
  ascending := toList_ascending lawful (owned_of_covers covers s)
  mem_toList v := h.marks.mem_toList lawful covers v

variable [DecidableEq V] (lawful : E.Lawful) (covers : E.Covers (limit E w))

section
include lawful

theorem Depicts.insert (h : Depicts s m) (v : V) : (s.insert v).Matches Eq Depicts (m.insert v) := by
  by_cases fits : E.ordinal v < limit E w
  · simp only [insert_of_lt fits, MemberSet.insert, dif_pos fits]
    by_cases hv : v ∈ m.members
    · rw [if_pos ((h.marks.bit v).2 hv), if_pos hv]
      exact .done h false
    · rw [if_neg (mt (h.marks.bit v).1 hv), if_neg hv]
      exact h.replace (h.marks.or (.single lawful fits)) _ true
  · simp only [insert_of_not_lt fits, MemberSet.insert, dif_neg fits]
    exact .refuse h rfl

theorem Depicts.erase (h : Depicts s m) (v : V) : (s.erase v).Matches Eq Depicts (m.erase v) := by
  by_cases fits : E.ordinal v < limit E w
  · simp only [erase_of_lt fits, MemberSet.erase, if_pos fits]
    by_cases hv : v ∈ m.members
    · rw [if_pos ((h.marks.bit v).2 hv), if_pos hv]
      exact h.replace (h.marks.andNot (.single lawful fits)) _ true
    · rw [if_neg (mt (h.marks.bit v).1 hv), if_neg hv]
      exact .done h false
  · simp only [erase_of_not_lt fits, MemberSet.erase, if_neg fits]
    exact .refuse h rfl

theorem Depicts.insertAll (h : Depicts s m) (vs : List V) :
    (s.insertAll vs).Matches Eq Depicts (m.insertAll vs) := by
  induction vs generalizing s m with
  | nil => exact .done h ()
  | cons v vs ih => exact (h.insert lawful v).andThen fun _ next => ih next

include covers

theorem Depicts.clear (h : Depicts s m) : s.clear.Matches Eq Depicts m.clear := by
  by_cases nothing : m.members = ∅
  · rw [BitSet.clear, if_pos ((h.isEmpty_iff lawful covers).2 nothing), MemberSet.clear, if_pos nothing]
    exact .done h ()
  · rw [BitSet.clear, if_neg (mt (h.isEmpty_iff lawful covers).1 nothing), MemberSet.clear, if_neg nothing]
    exact h.replace (.zero E w) _ ()

theorem Depicts.assign (h : Depicts s m) (vs : List V) : (s.assign vs).Matches Eq Depicts (m.assign vs) := by
  rw [MemberSet.assign_eq]
  exact (h.clear lawful covers).andThen fun _ next => next.insertAll lawful vs

theorem simulation :
    Simulation (S := BitSet E w) (T := Members E w) Empty.elim id Eq Depicts where
  noHandle := rfl
  empty := ⟨rfl, .zero E w⟩
  full := ⟨rfl, .full lawful⟩
  ofVariants vs := (Depicts.assign lawful covers ⟨rfl, .zero E w⟩ vs).state
  ofSource r := r.elim
  copy h := ⟨rfl, h.marks⟩
  freeze h := ⟨rfl, h.marks⟩
  insert v h := h.insert lawful v
  erase v h := h.erase lawful v
  clear h := h.clear lawful covers
  assign vs h := h.assign lawful covers vs
  union h h' := h.replace (h.marks.or h'.marks) _ ()
  inter h h' := h.replace (h.marks.and h'.marks) _ ()
  sdiff h h' := h.replace (h.marks.andNot h'.marks) _ ()
  symmDiff h h' := h.replace (h.marks.xor h'.marks) _ ()
  compl h := h.replace (h.marks.compl lawful) _ ()

end

/-- Where every number below the limit is an ordinal, every script is answered in the same words by bit sets and by
finite sets, and after it each bit set shows its finite set. As the script is any, this holds after each of its
steps. -/
theorem play_eq_members (lawful : E.Lawful) (covers : E.Covers (limit E w)) (script : List (Command V Empty)) :
    let bits := Session.play (BitSet E w) Empty.elim script
    let sets := Session.play (Members E w) id script
    bits.1 = sets.1 ∧ Session.Related Shows bits.2 sets.2 ∧
      ∀ i j, (bits.2.sets i).sameValue (bits.2.sets j) = true ↔
        (sets.2.sets i).members = (sets.2.sets j).members := by
  intro bits sets
  obtain ⟨answers, related⟩ := (simulation lawful covers).play script
  refine ⟨Alike.eq_of_forall₂ answers, related.imp fun h => h.shows lawful covers, fun i j => ?_⟩
  rw [sameValue, beq_iff_eq]
  exact (related.sets i).marks.eq_iff lawful covers (related.sets j).marks

def eight : Enumeration (Fin 8) :=
  Enumeration.ofNames "Eight" ["E0", "E1", "E2", "E3", "E4", "E5", "E6", "E7"]

def eightScript : List (Command (Fin 8) Empty) :=
  [.mutate 0 (.assign [0, 6, 7, 1]), .mutate 0 .compl, .copy 1 0, .mutate 1 (.symmDiff 1), .mutate 0 .freeze,
    .mutate 0 (.erase 6), .mutate 0 (.erase 1), .create 0 (.ofVariants [7]), .create 2 .full]

theorem play_eq_members_eight :
    (eight.Lawful ∧ eight.Covers (limit eight .byte)) ∧
      let bits := Session.play (BitSet eight .byte) Empty.elim eightScript
      let sets := Session.play (Members eight .byte) id eightScript
      (bits.1 = sets.1 ∧ Session.Related Shows bits.2 sets.2 ∧
        ∀ i j, (bits.2.sets i).sameValue (bits.2.sets j) = true ↔
          (sets.2.sets i).members = (sets.2.sets j).members) ∧
      (bits.2.sets 0).bitmap = 62#8 ∧ (bits.2.sets 0).toList = [1, 2, 3, 4, 5] := by
  have lawful : eight.Lawful := Enumeration.ofNames_lawful _ _
  have covers : eight.Covers (limit eight .byte) := (Enumeration.ofNames_covers _ _).mono (limit_le_count eight .byte)
  exact ⟨⟨lawful, covers⟩, play_eq_members lawful covers eightScript, rfl, rfl⟩

theorem play_full_twice :
    let s := (Session.play (BitSet twice .byte) Empty.elim [.create 0 .full]).2.sets 0
    twice.Lawful ∧ (s.bitmap = 7#8 ∧ s.size = 3 ∧ s.toList = [false, true, false]) ∧ ∀ m, ¬ Shows s m := by
  -- The full set of an enumeration that repeats a variant has a bit for the repetition, and shows no finite set.
  intro s
  have three : s.size = 3 := by decide
  refine ⟨twice_lawful, ⟨rfl, three, by decide⟩, fun m shows => ?_⟩
  -- There are only two variants to be members.
  have room : m.members.card ≤ 2 := m.members.card_le_univ
  have held := shows.size
  omega

end VariantSets.BitSet
