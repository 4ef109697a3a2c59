import VariantSets.Proofs.BitSet.Bounds
import VariantSets.Proofs.BitSet.Bulk
import VariantSets.Proofs.BitSet.Exchange

/-! One enumeration at two widths. Where both have room for every variant, sets of the two widths go through any
script with the same bits set, and whatever is read off them is the same: the words differ only in the part above
the declared variants, which no change reaches. -/
namespace VariantSets

namespace Bitmap
variable {w w' : Width} {b c : Bitmap w} {b' c' : Bitmap w'}

def Level (b : Bitmap w) (b' : Bitmap w') : Prop := ∀ i, b.getLsbD i = b'.getLsbD i

theorem level_iff_toNat_eq : b.Level b' ↔ b.toNat = b'.toNat := by
  constructor
  · intro h
    apply Nat.eq_of_testBit_eq
    intro i
    rw [BitVec.testBit_toNat, h i, BitVec.testBit_toNat]
  · intro same i
    rw [← BitVec.testBit_toNat, same, BitVec.testBit_toNat]

namespace Level

theorem zero {w u : Width} : Level (0#w.bits) (0#u.bits) := by
  intro i
  simp

theorem bit {i : Nat} (room : i < w.bits) (room' : i < w'.bits) : Level (bit w i) (bit w' i) := by
  intro j
  by_cases at_i : i = j
  · subst at_i
    simp [- BitVec.getLsbD_eq_getElem, room, room']
  · simp [- BitVec.getLsbD_eq_getElem, at_i]

variable (h : b.Level b')
include h

theorem or (h' : c.Level c') : Level (b ||| c) (b' ||| c') := by
  intro i
  simp only [BitVec.getLsbD_or, h i, h' i]

theorem and (h' : c.Level c') : Level (b &&& c) (b' &&& c') := by
  intro i
  simp only [BitVec.getLsbD_and, h i, h' i]

theorem xor (h' : c.Level c') : Level (b ^^^ c) (b' ^^^ c') := by
  intro i
  simp only [BitVec.getLsbD_xor, h i, h' i]

theorem andNot (h' : c.Level c') : Level (b &&& ~~~c) (b' &&& ~~~c') := by
  -- The complements differ above the shorter word, where the first two bitmaps have no bits.
  intro i
  simp only [BitVec.getLsbD_and, BitVec.getLsbD_not, h' i]
  cases marked : b.getLsbD i with
  | false => simp only [← h i, marked, Bool.false_and]
  | true =>
    have marked' : b'.getLsbD i = true := h i ▸ marked
    have room : i < w.bits := BitVec.lt_of_getLsbD marked
    have room' : i < w'.bits := BitVec.lt_of_getLsbD marked'
    simp only [marked', room, room']

theorem positions : b.positions = b'.positions := by
  simp only [positions_eq_bitIndices, level_iff_toNat_eq.1 h]

theorem popCount : b.popCount = b'.popCount := by
  rw [Bitmap.popCount, Bitmap.popCount, h.positions]

theorem fold : b.fold = b'.fold := by
  have word : b.setWidth 64 = b'.setWidth 64 := by
    apply BitVec.eq_of_getLsbD_eq
    intro i _
    simp only [BitVec.getLsbD_setWidth, h i]
  simp only [Bitmap.fold, word]

theorem within {n : Nat} (below : b'.Within n) : b.Within n := by
  intro i marked
  exact below i (h i ▸ marked)

end Level

end Bitmap

namespace BitSet

open VariantSets.Bitmap (Level Within)

variable {V : Type} {E : Enumeration V} {w w' : Width} {s : BitSet E w} {t : BitSet E w'}

/-- The same refusal, but for the name that a frozen set goes by. -/
inductive UpToName : Refusal → Refusal → Prop
  | frozen (a b : String) : UpToName (.fault (.frozen a)) (.fault (.frozen b))
  | same (r : Refusal) : UpToName r r

structure SameBits (s : BitSet E w) (t : BitSet E w') : Prop where
  frozen : s.frozen = t.frozen
  level : s.bitmap.Level t.bitmap

namespace SameBits

theorem replace {A : Type} (h : SameBits s t) {b : Bitmap w} {c : Bitmap w'} (level : b.Level c) (a : A) :
    (s.replace b a).Matches UpToName SameBits (t.replace c a) := by
  cases open? : s.frozen with
  | true =>
    rw [replace_of_frozen open?, replace_of_frozen (h.frozen ▸ open?)]
    exact .refuse h (.frozen _ _)
  | false =>
    rw [replace_of_open open?, replace_of_open (h.frozen ▸ open?)]
    exact .done ⟨rfl, level⟩ a

theorem isEmpty (h : SameBits s t) : s.isEmpty = t.isEmpty := by
  rw [Bool.eq_iff_iff, BitSet.isEmpty, BitSet.isEmpty, beq_iff_eq, beq_iff_eq, ← Bitmap.positions_eq_nil,
    ← Bitmap.positions_eq_nil, h.level.positions]

theorem clear (h : SameBits s t) : s.clear.Matches UpToName SameBits t.clear := by
  rw [BitSet.clear, BitSet.clear, h.isEmpty]
  split
  · exact .done h ()
  · exact h.replace .zero ()

section
variable (same : limit E w = limit E w')
include same

theorem fullMask : Level (fullMask E w) (fullMask E w') := by
  intro i
  rw [getLsbD_fullMask, getLsbD_fullMask, same]

theorem insert (h : SameBits s t) (v : V) : (s.insert v).Matches UpToName SameBits (t.insert v) := by
  by_cases fits : E.ordinal v < limit E w
  · have fits' : E.ordinal v < limit E w' := same ▸ fits
    simp only [insert_of_lt fits, insert_of_lt fits', h.level _]
    split
    · exact .done h false
    · exact h.replace (h.level.or (.bit (lt_bits_of_lt_limit fits) (lt_bits_of_lt_limit fits'))) true
  · simp only [insert_of_not_lt fits, insert_of_not_lt (same ▸ fits), same]
    exact .refuse h (.same _)

theorem erase (h : SameBits s t) (v : V) : (s.erase v).Matches UpToName SameBits (t.erase v) := by
  by_cases fits : E.ordinal v < limit E w
  · have fits' : E.ordinal v < limit E w' := same ▸ fits
    simp only [erase_of_lt fits, erase_of_lt fits', h.level _]
    split
    · exact h.replace (h.level.andNot (.bit (lt_bits_of_lt_limit fits) (lt_bits_of_lt_limit fits'))) true
    · exact .done h false
  · simp only [erase_of_not_lt fits, erase_of_not_lt (same ▸ fits), same]
    exact .refuse h (.same _)

theorem insertAll (h : SameBits s t) (vs : List V) :
    (s.insertAll vs).Matches UpToName SameBits (t.insertAll vs) := by
  induction vs generalizing s t with
  | nil => exact .done h ()
  | cons v vs ih => exact (h.insert same v).andThen fun _ next => ih next

theorem assign (h : SameBits s t) (vs : List V) : (s.assign vs).Matches UpToName SameBits (t.assign vs) := by
  refine h.clear.andThen ?_
  intro _ _ _ next
  exact next.insertAll same vs

theorem compl (h : SameBits s t) : s.compl.Matches UpToName SameBits t.compl := by
  refine h.replace ?_ ()
  rw [BitVec.and_comm, BitVec.and_comm _ (BitSet.fullMask E w')]
  exact (fullMask same).andNot h.level

theorem simulation : Simulation (S := BitSet E w) (T := BitSet E w') Empty.elim Empty.elim UpToName SameBits where
  noHandle := .same _
  empty := ⟨rfl, .zero⟩
  full := ⟨rfl, fullMask same⟩
  ofVariants vs := (assign same (s := empty E w) (t := empty E w') ⟨rfl, .zero⟩ vs).state
  ofSource r := r.elim
  copy h := ⟨rfl, h.level⟩
  freeze h := ⟨rfl, h.level⟩
  insert v h := h.insert same v
  erase v h := h.erase same v
  clear h := h.clear
  assign vs h := h.assign same vs
  union h h' := h.replace (h.level.or h'.level) ()
  inter h h' := h.replace (h.level.and h'.level) ()
  sdiff h h' := h.replace (h.level.andNot h'.level) ()
  symmDiff h h' := h.replace (h.level.xor h'.level) ()
  compl h := h.compl same

end

end SameBits

namespace Cursor
variable {c : Cursor E w} {d : Cursor E w'}

/-- Two walks that cannot be told apart, whatever is asked of them and however often. -/
def InStep (c : Cursor E w) (d : Cursor E w') : Prop :=
  ∃ rel : Cursor E w → Cursor E w' → Prop, rel c d ∧ ∀ c d, rel c d →
    c.size = d.size ∧ c.next.1 = d.next.1 ∧ rel c.next.2 d.next.2 ∧
      c.tryNext.Matches Eq rel d.tryNext ∧ c.remove.Matches Eq rel d.remove

theorem next_of_level (h : c.remaining.Level d.remaining) :
    c.next.1 = d.next.1 ∧ c.next.2.remaining.Level d.next.2.remaining := by
  cases remain : d.remaining.positions with
  | nil =>
    rw [next_of_nil remain, next_of_nil (h.positions.trans remain)]
    exact ⟨rfl, h⟩
  | cons i is =>
    have marked : d.remaining.getLsbD i = true := by simp [← Bitmap.mem_positions, remain]
    have room : i < w.bits := BitVec.lt_of_getLsbD ((h i).trans marked)
    have room' : i < w'.bits := BitVec.lt_of_getLsbD marked
    rw [next_of_cons remain, next_of_cons (h.positions.trans remain)]
    exact ⟨rfl, h.andNot (.bit room room')⟩

theorem tryNext_of_next {rel : Cursor E w → Cursor E w' → Prop} (found : c.next.1 = d.next.1)
    (after : rel c.next.2 d.next.2) : c.tryNext.Matches Eq rel d.tryNext := by
  rcases hc : c.next with ⟨x, c'⟩
  rcases hd : d.next with ⟨y, d'⟩
  simp only [tryNext, hc, hd] at *
  subst found
  cases x with
  | some v => exact .done after v
  | none => exact .refuse after rfl

theorem inStep_of_level (h : c.remaining.Level d.remaining) : InStep c d := by
  refine ⟨fun c d => c.remaining.Level d.remaining, h, fun c d h => ?_⟩
  obtain ⟨found, after⟩ := next_of_level h
  exact ⟨h.popCount, found, after, tryNext_of_next found after, .refuse h rfl⟩

end Cursor

/-- What can be read off two sets without being able to say which is which. Each is read, in the text that was
written of the other, as an open set of its own bitmap. -/
structure Indistinct (s : BitSet E w) (t : BitSet E w') : Prop where
  frozen : s.frozen = t.frozen
  bitmap : s.bitmap.toNat = t.bitmap.toNat
  size : s.size = t.size
  isEmpty : s.isEmpty = t.isEmpty
  contains (v : V) : s.contains v = t.contains v
  toList : s.toList = t.toList
  walk : s.cursor.InStep t.cursor
  symbolMap : s.symbolMap = t.symbolMap
  toJson : s.toJson = t.toJson
  render : s.render = t.render
  renderLines : s.renderLines = t.renderLines
  hash : s.hash = t.hash
  readFirst : ofSource E (.json s.toJson) = .ok t.copy
  readSecond : ofSource E (.json t.toJson) = .ok s.copy

theorem contains_of_within {s : BitSet E w} (within : s.bitmap.Within w.capacity) (v : V) :
    s.contains v = s.bitmap.getLsbD (E.ordinal v) := by
  rw [contains_eq]
  cases marked : s.bitmap.getLsbD (E.ordinal v) with
  | false => rw [Bool.and_false]
  | true => rw [decide_eq_true (within _ marked), Bool.true_and]

theorem SameBits.indistinct (h : SameBits s t) (same : limit E w = limit E w')
    (within : t.bitmap.Within (limit E w')) : Indistinct s t := by
  have below : s.bitmap.Within w.capacity := (h.level.within within).mono (same ▸ limit_le_capacity E w)
  have below' : t.bitmap.Within w'.capacity := within.mono (limit_le_capacity E w')
  have number : s.bitmap.toNat = t.bitmap.toNat := Bitmap.level_iff_toNat_eq.1 h.level
  have declared : Level (s.bitmap &&& BitSet.fullMask E w) (t.bitmap &&& BitSet.fullMask E w') :=
    h.level.and (fullMask same)
  have members : s.toList = t.toList := by
    rw [toList_eq, toList_eq, ordinals, ordinals, declared.positions]
  refine ⟨h.frozen, number, h.level.popCount, h.isEmpty, fun v => ?_, members, Cursor.inStep_of_level declared, ?_,
    congrArg Json.Number.write number, ?_, ?_, h.level.fold, ?_, ?_⟩
  · rw [contains_of_within below, contains_of_within below', h.level]
  · rw [symbolMap_eq, symbolMap_eq, places_of_within below, places_of_within below', h.level.positions]
  · rw [BitSet.render, BitSet.render, members]
  · rw [BitSet.renderLines, BitSet.renderLines, members]
  · exact ofSource_toJson_eq_ok.2 ⟨number.symm, rfl⟩
  · exact ofSource_toJson_eq_ok.2 ⟨number, rfl⟩

/-- With room for every variant at both widths, every script is answered in the same words, but for the name of a
frozen set, and comes to sets that are not told apart by anything but the room that they take. Nor are the bitmaps of
a list and of all variants. As the script is any, this holds after each of its steps. -/
theorem play_widths (lawful : E.Lawful) {w w' : Width} (room : E.count ≤ w.capacity) (room' : E.count ≤ w'.capacity)
    (script : List (Command V Empty)) :
    let first := Session.play (BitSet E w) Empty.elim script
    let second := Session.play (BitSet E w') Empty.elim script
    List.Forall₂ (Alike UpToName Eq) first.1 second.1 ∧ Session.Related Indistinct first.2 second.2 ∧
      (∀ vs, ∃ b c, bitmapOf E w vs = .ok b ∧ bitmapOf E w' vs = .ok c ∧ b.toNat = c.toNat) ∧
      (fullMask E w).toNat = (fullMask E w').toNat := by
  intro first second
  have same : limit E w = limit E w' := (Nat.min_eq_right room).trans (Nat.min_eq_right room').symm
  obtain ⟨answers, related⟩ := (SameBits.simulation (E := E) same).play script
  have bounded := (within_invariant (E := E) (w := w') (g := Empty.elim) (Nat.le_refl _)
    fun r => r.elim).simulation.play script
  refine ⟨answers, related.join bounded.2 ?_, fun vs => ?_, ?_⟩
  · rintro s t _ h ⟨rfl, within⟩
    exact h.indistinct same within
  · obtain ⟨b, made, bits⟩ := bitmapOf_of_lt (w := w) fun v (_ : v ∈ vs) => lawful.ordinal_lt_of_le room v
    obtain ⟨c, made', bits'⟩ := bitmapOf_of_lt (w := w') fun v (_ : v ∈ vs) => lawful.ordinal_lt_of_le room' v
    refine ⟨b, c, made, made', Bitmap.level_iff_toNat_eq.1 fun i => ?_⟩
    rw [Bool.eq_iff_iff, bits, bits']
  · exact Bitmap.level_iff_toNat_eq.1 (SameBits.fullMask same)

def seven : Enumeration (Fin 7) :=
  Enumeration.ofNames "Seven" ["E0", "E1", "E2", "E3", "E4", "E5", "E6"]

def sevenScript : List (Command (Fin 7) Empty) :=
  [.create 0 (.ofVariants [6, 0]), .mutate 0 .compl, .mutate 0 .freeze, .mutate 0 (.erase 3), .copy 1 0,
    .mutate 1 (.erase 3), .create 2 .full, .mutate 2 (.symmDiff 1), .wrap 1 0]

theorem play_widths_seven :
    (seven.Lawful ∧ seven.count ≤ Width.byte.capacity ∧ seven.count ≤ Width.long.capacity) ∧
      let first := Session.play (BitSet seven .byte) Empty.elim sevenScript
      let second := Session.play (BitSet seven .long) Empty.elim sevenScript
      (List.Forall₂ (Alike UpToName Eq) first.1 second.1 ∧ Session.Related Indistinct first.2 second.2 ∧
        (∀ vs, ∃ b c, bitmapOf seven .byte vs = .ok b ∧ bitmapOf seven .long vs = .ok c ∧ b.toNat = c.toNat) ∧
        (fullMask seven .byte).toNat = (fullMask seven .long).toNat) ∧
      first.1[3]? = some (.error (.fault (.frozen "EnumBitSet<Seven, Byte>"))) ∧
      (first.2.sets 2).bitmap = 73#8 ∧ (second.2.sets 2).bitmap = 73#64 := by
  have lawful : seven.Lawful := Enumeration.ofNames_lawful _ _
  have room : seven.count ≤ Width.byte.capacity := by decide
  have room' : seven.count ≤ Width.long.capacity := by decide
  exact ⟨⟨lawful, room, room'⟩, play_widths lawful room room' sevenScript, rfl, rfl, rfl⟩

end BitSet

end VariantSets
