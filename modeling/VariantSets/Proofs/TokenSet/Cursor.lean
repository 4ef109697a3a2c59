import VariantSets.Proofs.BitSet.Cursor
import VariantSets.Proofs.Walk

/-! Cursors over any text, under any calls. What a cursor has left is the text behind the characters that were asked
for, so an answer is found from the place in the text alone. A character that is no token takes its place in the walk
like any other, and the end is where no character is left. -/
namespace VariantSets

namespace Binary.Text

theorem length_utf8_cons (c : Char) (cs : List Char) : (utf8 (c :: cs)).length = c.utf8Size + (utf8 cs).length := by
  simp only [utf8, List.flatMap_cons, List.length_append, String.length_utf8EncodeChar]

theorem length_utf8_bounds (cs : List Char) : cs.length ≤ (utf8 cs).length ∧ (utf8 cs).length ≤ 4 * cs.length := by
  induction cs with
  | nil => exact ⟨Nat.le_refl 0, Nat.le_refl 0⟩
  | cons c cs ih =>
    have least := c.utf8Size_pos
    have most := c.utf8Size_le_four
    rw [length_utf8_cons, List.length_cons]
    omega

end Binary.Text

namespace TokenSet

open Binary.Text (utf8)
open Cursor (Call Reply)

variable {V : Type} {T : TokenTable V}

/-- The item in the place of a character: the first declared variant that has it as its token, or else a fault. -/
inductive Resolves (T : TokenTable V) (c : Char) : Except Fault V → Prop
  | variant {before after : List V} {v : V} : T.variants = before ++ v :: after → (∀ u ∈ before, T.token u ≠ c) →
      T.token v = c → Resolves T c (.ok v)
  | unknown : (∀ v ∈ T.variants, T.token v ≠ c) → Resolves T c (.error (.invalidToken c))

/-- What is answered when the characters `left` are still to come. -/
inductive Answers (T : TokenTable V) : List Char → Call → Reply V → Prop
  | variant {c : Char} {cs : List Char} {call : Call} {v : V} : call.advances = true → Resolves T c (.ok v) →
      Answers T (c :: cs) call (.item v)
  | unknown {c : Char} {cs : List Char} {call : Call} {f : Fault} : call.advances = true → Resolves T c (.error f) →
      Answers T (c :: cs) call (.fault f)
  | finished : Answers T [] .next .finished
  | endOfSequence : Answers T [] .tryNext (.fault .endOfSequence)
  | removal {left : List Char} : Answers T left .remove (.fault .unsupportedRemoval)
  | bounds {left : List Char} {b : Nat} : b = (utf8 left).length → Answers T left .sizeHint (.bounds ((b + 3) / 4) b)

theorem resolves_item (T : TokenTable V) (c : Char) : Resolves T c (item T c) := by
  cases found : T.ofToken? c with
  | none =>
    simp only [item, found]
    refine .unknown fun v declared same => ?_
    exact TokenTable.ofToken?_eq_none.1 found (List.mem_map.2 ⟨v, declared, same⟩)
  | some v =>
    simp only [item, found]
    obtain ⟨same, before, after, variants, others⟩ := List.find?_eq_some_iff_append.1 found
    refine .variant variants (fun u hu => ?_) (beq_iff_eq.1 same)
    simpa using others u hu

theorem answers_item {c : Char} {cs : List Char} {call : Call} (advances : call.advances = true) :
    Answers T (c :: cs) call (.ofAnswer .item (item T c)) := by
  have resolves := resolves_item T c
  cases found : item T c with
  | ok v => exact .variant advances (found ▸ resolves)
  | error f => exact .unknown advances (found ▸ resolves)

namespace Cursor

def follow (c : Cursor T) (calls : List Call) : Cursor T := calls.foldl (fun c call => (c.perform call).2) c

/-- What a cursor with the characters `left` to come gives when it is asked, and when it is asked until the end. -/
structure Serves (c : Cursor T) (left : List Char) : Prop where
  next : Option.Rel (Resolves T) left.head? c.next.1
  tryNext : c.tryNext = ⟨c.next.1.getD (.error .endOfSequence), c.next.2⟩
  sizeHint : c.sizeHint = (((utf8 left).length + 3) / 4, (utf8 left).length)
  yields : ∃ items, Yields Cursor.next c items ∧ List.Forall₂ (Resolves T) left items ∧
    c.sizeHint.1 ≤ items.length ∧ items.length ≤ c.sizeHint.2

theorem perform_answers (c : Cursor T) (call : Call) : Answers T c.remaining call (c.perform call).1 := by
  obtain ⟨left⟩ := c
  cases call with
  | next =>
    cases left with
    | nil => exact .finished
    | cons c cs => exact answers_item rfl
  | tryNext =>
    cases left with
    | nil => exact .endOfSequence
    | cons c cs => exact answers_item rfl
  | remove => exact .removal
  | sizeHint => exact .bounds rfl

theorem perform_remaining (c : Cursor T) (call : Call) :
    (c.perform call).2.remaining = c.remaining.drop (if call.advances then 1 else 0) := by
  obtain ⟨left⟩ := c
  cases call with
  | next => cases left <;> rfl
  | tryNext => cases left <;> rfl
  | remove => rfl
  | sizeHint => rfl

theorem follow_remaining (c : Cursor T) (calls : List Call) :
    (c.follow calls).remaining = c.remaining.drop (calls.countP Call.advances) := by
  induction calls generalizing c with
  | nil => rfl
  | cons call calls ih =>
    have rest : ((c.perform call).2.follow calls).remaining = _ := ih _
    rwa [perform_remaining, List.drop_drop, Nat.add_comm, ← List.countP_cons] at rest

theorem walk_eq_mapIdx (c : Cursor T) (calls : List Call) :
    c.walk calls = calls.mapIdx fun j call => ((c.follow (calls.take j)).perform call).1 := by
  induction calls generalizing c with
  | nil => rfl
  | cons call calls ih =>
    simp only [walk, List.mapIdx_cons, ih]
    rfl

theorem serves (c : Cursor T) : c.Serves c.remaining where
  next := by
    obtain ⟨left⟩ := c
    cases left with
    | nil => exact .none
    | cons d ds => exact .some (resolves_item T d)
  tryNext := by
    obtain ⟨left⟩ := c
    cases left <;> rfl
  sizeHint := rfl
  yields := by
    have resolved : List.Forall₂ (Resolves T) c.remaining (c.remaining.map (item T)) :=
      List.forall₂_map_right_iff.2 (List.forall₂_same.2 fun d _ => resolves_item T d)
    obtain ⟨least, most⟩ := Binary.Text.length_utf8_bounds c.remaining
    refine ⟨_, Cursor.yields c.remaining, resolved, ?_⟩
    simp only [Cursor.sizeHint, byteSize, List.length_map]
    omega

end Cursor

/-- Whatever the contents are and whatever is asked: each call is answered, and the answer is that for the characters
behind those that were asked for before; so it is with the items that are still to come, and with their bounds. -/
theorem walk_answers (s : TokenSet T) (calls : List Call) :
    (s.cursor.walk calls).length = calls.length ∧
    (∀ j call, calls[j]? = some call → ∃ reply, (s.cursor.walk calls)[j]? = some reply ∧
      Answers T (s.contents.drop ((calls.take j).countP Call.advances)) call reply) ∧
    (s.cursor.follow calls).Serves (s.contents.drop (calls.countP Call.advances)) := by
  refine ⟨?_, fun j call called => ?_, ?_⟩
  · simp only [Cursor.walk_eq_mapIdx, List.length_mapIdx]
  · have answers := (s.cursor.follow (calls.take j)).perform_answers call
    rw [Cursor.follow_remaining] at answers
    refine ⟨_, ?_, answers⟩
    simp only [Cursor.walk_eq_mapIdx, List.getElem?_mapIdx, called, Option.map_some]
  · have serves := (s.cursor.follow calls).serves
    rwa [Cursor.follow_remaining] at serves

/-- Both variants have the same token, which takes two bytes. -/
def alike : TokenTable (Fin 2) := .ofPairs "Alike" [("First", 'é'), ("Second", 'é')]

theorem walk_answers_alike :
    let s : TokenSet alike := ⟨['é', 'x', 'é'], true⟩
    let calls : List Call := [.next, .sizeHint, .remove, .tryNext, .next, .next, .tryNext]
    calls[1]? = some .sizeHint ∧
      (∃ reply, (s.cursor.walk calls)[1]? = some reply ∧ Answers alike ['x', 'é'] .sizeHint reply) ∧
      (s.cursor.follow calls).Serves [] ∧
      s.cursor.walk calls = [.item 0, .bounds 1 3, .fault .unsupportedRemoval, .fault (.invalidToken 'x'), .item 0,
        .finished, .fault .endOfSequence] := by
  intro s calls
  obtain ⟨_, answered, serves⟩ := walk_answers s calls
  have second : calls[1]? = some .sizeHint := rfl
  exact ⟨second, answered 1 .sizeHint second, serves, by decide⟩

end TokenSet

end VariantSets
