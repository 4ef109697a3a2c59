import VariantSets.Proofs.Bitmap
import VariantSets.Proofs.Freezing
import VariantSets.Proofs.BitSet.SymbolMap

/-! Sizes of bit sets, whatever bits are set. The size is a count of bits, and an operation on words only moves bits
from one count to another: as the bits of two words that have none in common add up, what two sets lose in their union
is what they have in common. A variant that is added or taken out is one bit, and the opposite request takes it back. -/
namespace VariantSets

namespace Bitmap
variable {w : Width} {a b c : Bitmap w} {i n : Nat}

theorem popCount_or_add_and (a b : Bitmap w) :
    (a ||| b).popCount + (a &&& b).popCount = a.popCount + b.popCount := by
  have either : (a ||| b).support = a.support ∪ b.support := by
    ext i
    simp only [mem_support, Finset.mem_union, BitVec.getLsbD_or, Bool.or_eq_true]
  have both : (a &&& b).support = a.support ∩ b.support := by
    ext i
    simp only [mem_support, Finset.mem_inter, BitVec.getLsbD_and, Bool.and_eq_true]
  simp only [← card_support, either, both, Finset.card_union_add_card_inter]

theorem popCount_of_split (join : a ||| b = c) (apart : a &&& b = 0#w.bits) :
    c.popCount = a.popCount + b.popCount := by
  have count := popCount_or_add_and a b
  have common := popCount_eq_zero.2 apart
  rw [join] at count
  omega

theorem popCount_andNot (a b : Bitmap w) : a.popCount = (a &&& ~~~b).popCount + (a &&& b).popCount := by
  have join : (a &&& ~~~b) ||| (a &&& b) = a := by
    ext i within
    simp only [BitVec.getElem_or, BitVec.getElem_and, BitVec.getElem_not]
    cases a[i] <;> cases b[i] <;> rfl
  have apart : (a &&& ~~~b) &&& (a &&& b) = 0#w.bits := by
    ext i within
    simp only [BitVec.getElem_and, BitVec.getElem_not, BitVec.getElem_zero]
    cases a[i] <;> cases b[i] <;> rfl
  exact popCount_of_split join apart

theorem popCount_xor (a b : Bitmap w) : (a ||| b).popCount = (a ^^^ b).popCount + (a &&& b).popCount := by
  have join : (a ^^^ b) ||| (a &&& b) = a ||| b := by
    ext i within
    simp only [BitVec.getElem_or, BitVec.getElem_and, BitVec.getElem_xor]
    cases a[i] <;> cases b[i] <;> rfl
  have apart : (a ^^^ b) &&& (a &&& b) = 0#w.bits := by
    ext i within
    simp only [BitVec.getElem_and, BitVec.getElem_xor, BitVec.getElem_zero]
    cases a[i] <;> cases b[i] <;> rfl
  exact popCount_of_split join apart

theorem popCount_bit (within : i < w.bits) : (bit w i).popCount = 1 := by
  have alone : (bit w i).positions = [i] := by
    apply positions_eq_of_mem_iff (List.pairwise_singleton _ i)
    intro j
    simp only [getLsbD_bit, List.mem_singleton, Bool.and_eq_true, decide_eq_true_eq]
    omega
  simp only [popCount, alone, List.length_singleton]

theorem popCount_lowMask (within : n ≤ w.bits) : (lowMask w n).popCount = n := by
  have below : (lowMask w n).positions = List.range n := by
    apply positions_eq_of_mem_iff List.pairwise_lt_range
    intro i
    simp only [getLsbD_lowMask, List.mem_range, Bool.and_eq_true, decide_eq_true_eq]
    omega
  simp only [popCount, below, List.length_range]

theorem and_bit_of_clear (clear : b.getLsbD i = false) : b &&& bit w i = 0#w.bits := by
  have apart := meets_bit b i
  rwa [clear, meets, bne_eq_false_iff_eq] at apart

theorem or_bit_andNot_bit (clear : b.getLsbD i = false) : (b ||| bit w i) &&& ~~~bit w i = b := by
  refine BitVec.eq_of_getLsbD_eq fun j within => ?_
  rw [getLsbD_clear, BitVec.getLsbD_or, getLsbD_bit]
  by_cases here : i = j
  · simp [- BitVec.getLsbD_eq_getElem, ← here, clear]
  · simp [- BitVec.getLsbD_eq_getElem, here]

theorem andNot_bit_or_bit (marked : b.getLsbD i = true) : (b &&& ~~~bit w i) ||| bit w i = b := by
  refine BitVec.eq_of_getLsbD_eq fun j within => ?_
  rw [BitVec.getLsbD_or, getLsbD_clear, getLsbD_bit]
  by_cases here : i = j
  · simp [- BitVec.getLsbD_eq_getElem, ← here, marked, BitVec.lt_of_getLsbD marked]
  · simp [- BitVec.getLsbD_eq_getElem, here]

end Bitmap

namespace BitSet
variable {V : Type} {E : Enumeration V} {w : Width} {s : BitSet E w} {v : V}

/-- The operations of `s` with `t` are carried out, and what is missing in the one is counted in the other. -/
structure Balance (s t : BitSet E w) : Prop where
  union : ∃ u i, s.union t = .done u () ∧ s.inter t = .done i () ∧ u.size + i.size = s.size + t.size
  sdiff : ∃ d i, s.sdiff t = .done d () ∧ s.inter t = .done i () ∧ d.size + i.size = s.size
  symmDiff : ∃ x i, s.symmDiff t = .done x () ∧ s.inter t = .done i () ∧ x.size + 2 * i.size = s.size + t.size

theorem balance_of_open (opened : s.frozen = false) (t : BitSet E w) : Balance s t := by
  have either := Bitmap.popCount_or_add_and s.bitmap t.bitmap
  have part := Bitmap.popCount_andNot s.bitmap t.bitmap
  have differ := Bitmap.popCount_xor s.bitmap t.bitmap
  constructor
  · exact ⟨_, _, replace_of_open opened _ (), replace_of_open opened _ (), either⟩
  · exact ⟨_, _, replace_of_open opened _ (), replace_of_open opened _ (), part.symm⟩
  · refine ⟨_, _, replace_of_open opened _ (), replace_of_open opened _ (), ?_⟩
    simp only [size]
    omega

/-- The second set has one bit more than the first, that of the variant, and each is made of the other. -/
structure Gains (v : V) (s t : BitSet E w) : Prop where
  size : t.size = s.size + 1
  absent : s.bitmap.getLsbD (E.ordinal v) = false
  present : t.bitmap.getLsbD (E.ordinal v) = true
  others (i : Nat) : i ≠ E.ordinal v → t.bitmap.getLsbD i = s.bitmap.getLsbD i
  insert : s.insert v = .done t true
  erase : t.erase v = .done s true

theorem gains_of_absent (opened : s.frozen = false) (fits : E.ordinal v < limit E w)
    (absent : s.bitmap.getLsbD (E.ordinal v) = false) :
    Gains v s ⟨s.bitmap ||| Bitmap.bit w (E.ordinal v), false⟩ := by
  obtain ⟨b, frozen⟩ := s
  cases opened
  have within : E.ordinal v < w.bits := lt_bits_of_lt_limit fits
  have present : (b ||| Bitmap.bit w (E.ordinal v)).getLsbD (E.ordinal v) = true := by
    simp [- BitVec.getLsbD_eq_getElem, within]
  refine ⟨?_, absent, present, fun i other => ?_, ?_, ?_⟩
  · simp only [size, Bitmap.popCount_of_split rfl (Bitmap.and_bit_of_clear absent), Bitmap.popCount_bit within]
  · simp [- BitVec.getLsbD_eq_getElem, Ne.symm other]
  · rw [insert_of_lt fits, absent]
    rfl
  · rw [erase_of_lt fits, present, Bitmap.or_bit_andNot_bit absent]
    rfl

theorem gains_of_present (opened : s.frozen = false) (fits : E.ordinal v < limit E w)
    (present : s.bitmap.getLsbD (E.ordinal v) = true) :
    Gains v ⟨s.bitmap &&& ~~~Bitmap.bit w (E.ordinal v), false⟩ s := by
  obtain ⟨b, frozen⟩ := s
  cases opened
  have absent : (b &&& ~~~Bitmap.bit w (E.ordinal v)).getLsbD (E.ordinal v) = false := by
    simp only [Bitmap.getLsbD_clear, ne_eq, not_true_eq_false, decide_false, Bool.and_false]
  have gains := gains_of_absent (s := ⟨b &&& ~~~Bitmap.bit w (E.ordinal v), false⟩) rfl fits absent
  simpa only [Bitmap.andNot_bit_or_bit present] using gains

theorem insert_cases (s : BitSet E w) (v : V) :
    ((s.insert v).answer = .ok true ∧ Gains v s (s.insert v).after) ∨
      ((s.insert v).answer ≠ .ok true ∧ (s.insert v).after = s) := by
  by_cases fits : E.ordinal v < limit E w
  · cases held : s.bitmap.getLsbD (E.ordinal v) with
    | true => exact .inr (by simp [insert_of_lt fits, held])
    | false =>
      cases open? : s.frozen with
      | true => exact .inr (by simp [insert_of_lt fits, held, replace_of_frozen open?])
      | false =>
        have gains := gains_of_absent open? fits held
        exact .inl (gains.insert ▸ ⟨rfl, gains⟩)
  · exact .inr (by simp [insert_of_not_lt fits])

theorem erase_cases (s : BitSet E w) (v : V) :
    ((s.erase v).answer = .ok true ∧ Gains v (s.erase v).after s) ∨
      ((s.erase v).answer ≠ .ok true ∧ (s.erase v).after = s) := by
  by_cases fits : E.ordinal v < limit E w
  · cases held : s.bitmap.getLsbD (E.ordinal v) with
    | false => exact .inr (by simp [erase_of_lt fits, held])
    | true =>
      cases open? : s.frozen with
      | true => exact .inr (by simp [erase_of_lt fits, held, replace_of_frozen open?])
      | false =>
        have gains := gains_of_present open? fits held
        exact .inl (gains.erase ▸ ⟨rfl, gains⟩)
  · exact .inr (by simp [erase_of_not_lt fits])

/-- Whatever bits are set in two sets, the reserved one and those of no variant included: if the first is open, the
sizes of what the operations make of them balance. Adding a variant with the answer yes gains its bit and no other, and
taking it out with the answer yes loses its bit and no other; each undoes the other exactly, and with any other answer
the set is as it was. The size is zero exactly if the set is empty. -/
theorem sizes_balance (s : BitSet E w) :
    (s.frozen = false → ∀ t, Balance s t) ∧
    (∀ v, ((s.insert v).answer = .ok true → Gains v s (s.insert v).after) ∧
      ((s.insert v).answer ≠ .ok true → (s.insert v).after = s)) ∧
    (∀ v, ((s.erase v).answer = .ok true → Gains v (s.erase v).after s) ∧
      ((s.erase v).answer ≠ .ok true → (s.erase v).after = s)) ∧
    (s.size = 0 ↔ s.isEmpty = true) := by
  refine ⟨balance_of_open, fun v => ?_, fun v => ?_, ?_⟩
  · obtain ⟨yes, gains⟩ | ⟨no, same⟩ := s.insert_cases v
    · exact ⟨fun _ => gains, fun no => absurd yes no⟩
    · exact ⟨fun yes => absurd yes no, fun _ => same⟩
  · obtain ⟨yes, gains⟩ | ⟨no, same⟩ := s.erase_cases v
    · exact ⟨fun _ => gains, fun no => absurd yes no⟩
    · exact ⟨fun yes => absurd yes no, fun _ => same⟩
  · simp only [size, isEmpty, Bitmap.popCount_eq_zero, beq_iff_eq]

theorem sizes_balance_pair :
    let s : BitSet pair .byte := ofBitmap 0b10000101#8
    let more : BitSet pair .byte := ofBitmap 0b10000111#8
    let less : BitSet pair .byte := ofBitmap 0b10000100#8
    let t : BitSet pair .byte := ⟨0b10000110#8, true⟩
    (s.frozen = false ∧ (s.insert 1).answer = .ok true ∧ (s.erase 0).answer = .ok true ∧
        (s.insert 0).answer ≠ .ok true ∧ (t.erase 1).answer ≠ .ok true) ∧
      Balance s t ∧ Gains 1 s more ∧ Gains 0 less s ∧
      (s.insert 0).after = s ∧ (t.erase 1).after = t := by
  intro s more less t
  obtain ⟨balance, inserted, erased, _⟩ := sizes_balance s
  obtain ⟨_, _, refused, _⟩ := sizes_balance t
  have added : (s.insert 1).answer = .ok true := by decide
  have removed : (s.erase 0).answer = .ok true := by decide
  have again : (s.insert 0).answer ≠ .ok true := by decide
  have grown : (s.insert 1).after = more := by
    simp only [s]
    rfl
  have shrunk : (s.erase 0).after = less := by
    simp only [s]
    rfl
  have frozen : (t.erase 1).answer ≠ .ok true := by decide
  exact ⟨⟨rfl, added, removed, again, frozen⟩, balance rfl t, grown ▸ (inserted 1).1 added,
    shrunk ▸ (erased 0).1 removed, (inserted 0).2 again, (refused 1).2 frozen⟩

end BitSet

end VariantSets
