import VariantSets.Proofs.BitSet.Bounds

/-! Cursors over any bitmap, under any calls. A cursor faces the variants whose bits it still has to clear: taking an
item clears the lowest of them, and nothing else that a cursor is asked for clears any. So at every point of every use
the count is exact, and the end is reached when nothing is left and not before. -/
namespace VariantSets

def TokenSet.Cursor.Call.advances : TokenSet.Cursor.Call → Bool
  | next | tryNext => true
  | remove | sizeHint => false

namespace BitSet

open VariantSets.TokenSet.Cursor (Call)

variable {V : Type} {E : Enumeration V} {w : Width}

namespace Cursor

def after (c : Cursor E w) : Call → Cursor E w
  | .next => c.next.2
  | .tryNext => c.tryNext.after
  | .remove => c.remove.after
  | .sizeHint => c

def follow (c : Cursor E w) (calls : List Call) : Cursor E w := calls.foldl after c

theorem tryNext_answer (c : Cursor E w) : c.tryNext.answer = c.next.1.elim (.error .endOfSequence) .ok := by
  rcases step : c.next with ⟨_ | v, d⟩ <;> simp [tryNext, step]

theorem tryNext_after (c : Cursor E w) : c.tryNext.after = c.next.2 := by
  rcases step : c.next with ⟨_ | v, d⟩ <;> simp [tryNext, step]

/-- What a cursor with the items `vs` to come gives when it is asked, and when it is asked until the end. -/
structure Serves (c : Cursor E w) (vs : List V) : Prop where
  sizeHint : c.sizeHint = (vs.length, some vs.length)
  next : c.next.1 = vs.head?
  spent : vs = [] → c.next = (none, c)
  tryNext : c.tryNext.answer = vs.head?.elim (.error .endOfSequence) .ok
  together : c.tryNext.after = c.next.2
  remove : c.remove = .refuse c .unsupportedRemoval
  yields : Yields Cursor.next c vs

/-- The bits that are left are those of the variants `vs`, the lowest first. -/
def Faces (c : Cursor E w) (vs : List V) : Prop := c.remaining.positions.map E.ofOrdinal? = vs.map some

namespace Faces
variable {c : Cursor E w} {v : V} {vs : List V}

theorem next_nil (h : c.Faces []) : c.next = (none, c) := by
  apply next_of_nil
  exact List.map_eq_nil_iff.1 h

theorem next_cons (h : c.Faces (v :: vs)) : ∃ d, c.next = (some v, d) ∧ d.Faces vs := by
  obtain ⟨i, is, remaining, found, rest⟩ := List.map_eq_cons_iff.1 h
  refine ⟨⟨c.remaining &&& ~~~Bitmap.bit w i⟩, ?_, ?_⟩
  · simp only [next_of_cons remaining, found]
  · simp only [Faces, Bitmap.positions_clear_lowest remaining, rest]

theorem size (h : c.Faces vs) : c.size = vs.length := by
  have length := congrArg List.length h
  rwa [List.length_map, List.length_map] at length

theorem yields (h : c.Faces vs) : Yields Cursor.next c vs := by
  induction vs generalizing c with
  | nil => exact .finished h.next_nil
  | cons v vs ih =>
    obtain ⟨d, step, rest⟩ := h.next_cons
    exact .item step (ih rest)

theorem head (h : c.Faces vs) : c.next.1 = vs.head? := by
  cases vs with
  | nil => exact congrArg Prod.fst h.next_nil
  | cons v vs =>
    obtain ⟨d, step, _⟩ := h.next_cons
    exact congrArg Prod.fst step

theorem serves (h : c.Faces vs) : Serves c vs where
  sizeHint := congrArg (fun n => (n, some n)) h.size
  next := h.head
  spent nothing := (nothing ▸ h).next_nil
  tryNext := by rw [tryNext_answer, h.head]
  together := tryNext_after c
  remove := rfl
  yields := h.yields

theorem after (h : c.Faces vs) (call : Call) :
    (c.after call).Faces (vs.drop (if call.advances then 1 else 0)) := by
  have advanced : c.next.2.Faces (vs.drop 1) := by
    cases vs with
    | nil => simpa only [h.next_nil, List.drop_nil] using h
    | cons v vs =>
      obtain ⟨d, step, rest⟩ := h.next_cons
      simpa only [step, List.drop_succ_cons, List.drop_zero] using rest
  cases call with
  | next => exact advanced
  | tryNext =>
    change c.tryNext.after.Faces (vs.drop 1)
    rwa [tryNext_after]
  | remove => exact h
  | sizeHint => exact h

theorem follow (h : c.Faces vs) (calls : List Call) :
    (c.follow calls).Faces (vs.drop (calls.countP Call.advances)) := by
  induction calls generalizing c vs with
  | nil => exact h
  | cons call calls ih =>
    have rest := ih (h.after call)
    rwa [List.drop_drop, Nat.add_comm, ← List.countP_cons] at rest

end Faces

end Cursor

theorem cursor_faces (s : BitSet E w) : s.cursor.Faces s.toList := by
  have declared : ∀ v ∈ s.ordinals.map E.ofOrdinal?, v.isSome = true := by
    intro v hv
    obtain ⟨i, hi, rfl⟩ := List.mem_map.1 hv
    have listed : i < E.variants.length := lt_count_of_mem_ordinals hi
    simp [Enumeration.ofOrdinal?, listed]
  have members : s.toList.map some = s.ordinals.map E.ofOrdinal? := by
    rw [toList_eq, List.map_filterMap_some_eq_filter_map_isSome, List.filter_eq_self.2 declared]
  exact members.symm

theorem positions_declared (s : BitSet E w) : s.bitmap.positions.filter (· < limit E w) = s.ordinals := by
  refine (Bitmap.positions_eq_of_mem_iff (s.bitmap.positions_sorted.filter _) fun i => ?_).symm
  simp only [List.mem_filter, Bitmap.mem_positions, decide_eq_true_eq, BitVec.getLsbD_and, getLsbD_fullMask,
    Bool.and_eq_true]

theorem size_eq_length_add (s : BitSet E w) :
    s.size = s.toList.length + (s.bitmap.positions.filter (limit E w ≤ ·)).length := by
  have walked : s.ordinals.length = s.toList.length := s.length_toList.symm
  have others : s.bitmap.positions.filter (fun i => !decide (i < limit E w)) =
      s.bitmap.positions.filter (limit E w ≤ ·) := by
    refine List.filter_congr fun i _ => ?_
    rw [← decide_not, decide_eq_decide, Nat.not_lt]
  calc s.size
      = (s.bitmap.positions.filter (· < limit E w)).length
          + (s.bitmap.positions.filter fun i => !decide (i < limit E w)).length :=
        List.length_eq_length_filter_add _
    _ = s.toList.length + (s.bitmap.positions.filter (limit E w ≤ ·)).length := by
      rw [positions_declared, walked, others]

section
variable (lawful : E.Lawful) {s : BitSet E w} {v : V}
include lawful

theorem mem_toList_of_contains (held : s.contains v = true) : v ∈ s.toList := by
  rw [contains_eq, Bool.and_eq_true, decide_eq_true_eq] at held
  exact mem_toList_of_bit lawful held.2 (lt_limit_of_lt_capacity lawful held.1)

theorem contains_of_mem_toList (owned : s.Owned) (hv : v ∈ s.toList) : s.contains v = true := by
  obtain ⟨marked, fits⟩ := (mem_toList lawful owned).1 hv
  have below : E.ordinal v < w.capacity := Nat.lt_of_lt_of_le fits (limit_le_capacity E w)
  rw [contains_eq, marked, decide_eq_true below, Bool.and_self]

end

theorem contains_iff_symbol {s : BitSet E w} {v : V} :
    s.contains v = true ↔
      E.ordinal v < w.capacity ∧ ∃ c ∈ s.symbolMap, Symbol.ofPosition? (E.ordinal v) = some c := by
  simp only [contains_eq, Bool.and_eq_true, decide_eq_true_eq, and_congr_right_iff]
  intro below
  constructor
  · intro marked
    obtain ⟨c, found⟩ := exists_symbol below
    exact ⟨c, mem_symbolMap.2 ⟨_, below, marked, Symbol.position?_of_ofPosition? found⟩, found⟩
  · rintro ⟨c, hc, found⟩
    obtain ⟨i, _, marked, position⟩ := mem_symbolMap.1 hc
    cases Option.some.inj ((Symbol.position?_of_ofPosition? found).symm.trans position)
    exact marked

/-- Whatever bits are set, a walk gives the variants at the declared places whose bits are, in ascending order and
each place once; as many as there are such bits, the others making up the rest of the size. Whatever a cursor was
asked for before, it serves the members behind as many as it was asked for. The variants that the set contains are
those with a symbol in its map. In a lawful enumeration a walk meets all of them, and no other variants where every
number below the limit is an ordinal. -/
theorem cursor_exact (s : BitSet E w) :
    (∃ is : List Nat, is.Pairwise (· < ·) ∧
      (∀ i, i ∈ is ↔ i < min w.capacity E.count ∧ s.bitmap.getLsbD i = true) ∧
      s.toList.map some = is.map fun i => E.variants[i]?) ∧
    s.toList.length = (s.bitmap &&& fullMask E w).popCount ∧
    (∀ calls : List Call,
      (s.cursor.follow calls).Serves (s.toList.drop (calls.countP Call.advances))) ∧
    s.size = s.toList.length + (s.bitmap.positions.filter (min w.capacity E.count ≤ ·)).length ∧
    (∀ v, s.contains v = true ↔
      E.ordinal v < w.capacity ∧ ∃ c ∈ s.symbolMap, Symbol.ofPosition? (E.ordinal v) = some c) ∧
    (E.Lawful → ∀ v, s.contains v = true → v ∈ s.toList) ∧
    (E.Lawful → E.Covers (limit E w) → ∀ v, v ∈ s.toList ↔ s.contains v = true) := by
  refine ⟨⟨s.ordinals, s.ordinals_sorted, fun i => ?_, s.cursor_faces.symm⟩, s.length_toList, fun calls => ?_,
    s.size_eq_length_add, fun v => contains_iff_symbol, fun lawful v => mem_toList_of_contains lawful,
    fun lawful covers v => ⟨?_, mem_toList_of_contains lawful⟩⟩
  · exact mem_ordinals.trans And.comm
  · exact (s.cursor_faces.follow calls).serves
  · exact contains_of_mem_toList lawful (owned_of_covers covers s)

theorem cursor_exact_pair :
    let s : BitSet pair .byte := ofBitmap 0b10000111#8
    let calls : List Call := [.sizeHint, .tryNext, .remove, .next, .next]
    (pair.Lawful ∧ pair.Covers (limit pair .byte)) ∧ s.toList = [0, 1] ∧ s.size = 4 ∧
      (s.bitmap.positions.filter (2 ≤ ·)).length = 2 ∧ (s.cursor.follow calls).Serves [] ∧
      (s.contains 1 = true → 1 ∈ s.toList) ∧ (1 ∈ s.toList ↔ s.contains 1 = true) := by
  intro s calls
  have lawful : pair.Lawful := Enumeration.ofNames_lawful _ _
  have covers : pair.Covers (limit pair .byte) := (Enumeration.ofNames_covers _ _).mono (limit_le_count pair .byte)
  obtain ⟨_, _, served, _, _, met, members⟩ := cursor_exact s
  have spent : s.toList.drop (calls.countP Call.advances) = [] := by decide
  exact ⟨⟨lawful, covers⟩, by decide, by decide, by decide, spent ▸ served calls, met lawful 1, members lawful covers 1⟩

theorem toList_twice :
    let s : BitSet twice .byte := ofBitmap 0b100#8
    twice.Lawful ∧ false ∈ s.toList ∧ s.contains false = false := by
  -- The bit is that of the place that repeats the first variant, so that a walk meets what the set does not contain.
  intro s
  exact ⟨twice_lawful, by decide, by decide⟩

end BitSet

end VariantSets
