import Mathlib.Data.Finset.Card
import Mathlib.Data.Nat.BitIndices
import VariantSets.Bitmap

/-! A bitmap is known by the positions of its set bits: as a number it is the sum of their powers of two, and
clearing the lowest of them leaves the others in their order. A bitmap that stays below a position is not changed
by the mask of the positions below it. -/
namespace VariantSets.Bitmap
variable {w : Width}

theorem positions_nodup (b : Bitmap w) : b.positions.Nodup := by
  apply b.positions_sorted.imp
  exact Nat.ne_of_lt

theorem positions_eq_of_mem_iff {b : Bitmap w} {l : List Nat} (sorted : l.Pairwise (· < ·))
    (mem : ∀ i, i ∈ l ↔ b.getLsbD i = true) : b.positions = l := by
  apply b.positions_sorted.eq_of_mem_iff sorted
  intro i
  rw [mem_positions, mem]

theorem positions_eq_nil {b : Bitmap w} : b.positions = [] ↔ b = 0#w.bits := by
  constructor
  · intro h
    apply BitVec.eq_of_getLsbD_eq
    intro i _
    rw [BitVec.getLsbD_zero, ← Bool.not_eq_true, ← mem_positions, h]
    exact List.not_mem_nil
  · rintro rfl
    apply positions_eq_of_mem_iff .nil
    simp

theorem popCount_eq_zero {b : Bitmap w} : b.popCount = 0 ↔ b = 0#w.bits := by
  rw [popCount, List.length_eq_zero_iff, positions_eq_nil]

def support (b : Bitmap w) : Finset Nat := b.positions.toFinset

theorem mem_support {b : Bitmap w} {i : Nat} : i ∈ b.support ↔ b.getLsbD i = true := by
  simp only [support, List.mem_toFinset, mem_positions]

theorem card_support (b : Bitmap w) : b.support.card = b.popCount := by
  rw [support, popCount, List.toFinset_card_of_nodup b.positions_nodup]

theorem positions_eq_bitIndices (b : Bitmap w) : b.positions = b.toNat.bitIndices := by
  apply positions_eq_of_mem_iff Nat.bitIndices_sorted.pairwise
  intro i
  rw [Nat.mem_bitIndices, BitVec.testBit_toNat]

theorem sum_positions (b : Bitmap w) : (b.positions.map (2 ^ ·)).sum = b.toNat := by
  rw [positions_eq_bitIndices]
  exact Nat.sum_map_two_pow_bitIndices b.toNat

theorem getLsbD_clear (b : Bitmap w) (i j : Nat) :
    (b &&& ~~~bit w i).getLsbD j = (b.getLsbD j && decide (i ≠ j)) := by
  by_cases hj : j < w.bits
  · simp only [BitVec.getLsbD_and, BitVec.getLsbD_not, getLsbD_bit, hj]
    simp
  · simp [BitVec.getLsbD_of_ge _ j (Nat.le_of_not_lt hj)]

theorem trailingZeros_eq {b : Bitmap w} {i : Nat} {is : List Nat} (h : b.positions = i :: is) :
    b.trailingZeros = i := by
  simp [trailingZeros, lowest?_eq_head?, h]

theorem positions_clear_lowest {b : Bitmap w} {i : Nat} {is : List Nat} (h : b.positions = i :: is) :
    (b &&& ~~~bit w i).positions = is := by
  have sorted := b.positions_sorted
  rw [h, List.pairwise_cons] at sorted
  apply positions_eq_of_mem_iff sorted.2
  intro j
  rw [getLsbD_clear, Bool.and_eq_true, ← mem_positions, h, decide_eq_true_eq, List.mem_cons]
  constructor
  · intro hj
    exact ⟨.inr hj, Nat.ne_of_lt (sorted.1 j hj)⟩
  · rintro ⟨rfl | hj, ne⟩
    · exact absurd rfl ne
    · exact hj

theorem lowMask_eq_ofNat {n : Nat} : lowMask w n = BitVec.ofNat w.bits (2 ^ n - 1) := by
  refine BitVec.eq_of_getLsbD_eq fun i hi => ?_
  rw [getLsbD_lowMask, BitVec.getLsbD_ofNat, Nat.testBit_two_pow_sub_one]

def Within (n : Nat) (b : Bitmap w) : Prop := ∀ i, b.getLsbD i = true → i < n

section
variable {n : Nat} {b c : Bitmap w}

theorem Within.mono {m : Nat} (h : b.Within n) (le : n ≤ m) : b.Within m := by
  intro i marked
  exact Nat.lt_of_lt_of_le (h i marked) le

theorem Within.zero (w : Width) (n : Nat) : Within n (0#w.bits) := by
  intro i marked
  rw [BitVec.getLsbD_zero] at marked
  cases marked

theorem Within.lowMask (w : Width) (n : Nat) : Within n (lowMask w n) := by
  intro i marked
  simp only [getLsbD_lowMask, Bool.and_eq_true, decide_eq_true_eq] at marked
  exact marked.2

theorem Within.bit {i : Nat} (below : i < n) : Within n (bit w i) := by
  intro j marked
  simp only [getLsbD_bit, Bool.and_eq_true, decide_eq_true_eq] at marked
  exact marked.2 ▸ below

theorem Within.or (h : b.Within n) (h' : c.Within n) : Within n (b ||| c) := by
  intro i marked
  rw [BitVec.getLsbD_or, Bool.or_eq_true] at marked
  exact marked.elim (h i) (h' i)

theorem Within.and_left (h : b.Within n) (c : Bitmap w) : Within n (b &&& c) := by
  intro i marked
  rw [BitVec.getLsbD_and, Bool.and_eq_true] at marked
  exact h i marked.1

theorem Within.and_right (b : Bitmap w) (h : c.Within n) : Within n (b &&& c) := by
  rw [b.and_comm c]
  exact h.and_left b

theorem Within.xor (h : b.Within n) (h' : c.Within n) : Within n (b ^^^ c) := by
  intro i marked
  rw [BitVec.getLsbD_xor] at marked
  cases first : b.getLsbD i with
  | true => exact h i first
  | false =>
    rw [first, Bool.false_xor] at marked
    exact h' i marked

theorem within_iff_and : b.Within n ↔ b &&& lowMask w n = b := by
  constructor
  · intro h
    refine BitVec.eq_of_getLsbD_eq fun i hi => ?_
    cases marked : b.getLsbD i with
    | false => simp only [BitVec.getLsbD_and, marked, Bool.false_and]
    | true => simp only [BitVec.getLsbD_and, getLsbD_lowMask, marked, hi, h i marked, decide_true, Bool.and_true]
  · intro h
    exact h ▸ .and_right b (.lowMask w n)

theorem within_iff_andNot : b.Within n ↔ b &&& ~~~lowMask w n = 0#w.bits := by
  constructor
  · intro h
    refine BitVec.eq_of_getLsbD_eq fun i hi => ?_
    cases marked : b.getLsbD i with
    | false => simp only [BitVec.getLsbD_and, marked, Bool.false_and, BitVec.getLsbD_zero]
    | true => simp [- BitVec.getLsbD_eq_getElem, hi, h i marked]
  · intro h i marked
    have within := BitVec.lt_of_getLsbD marked
    have clear := congrArg (fun c => c.getLsbD i) h
    simpa [- BitVec.getLsbD_eq_getElem, marked, within] using clear

theorem within_capacity_iff : b.Within w.capacity ↔ b.msb = false := by
  have top : b.msb = b.getLsbD w.capacity := b.msb_eq_getLsbD_last
  rw [top]
  constructor
  · intro h
    cases marked : b.getLsbD w.capacity with
    | false => rfl
    | true => exact absurd (h _ marked) (Nat.lt_irrefl _)
  · intro clear i marked
    have within := BitVec.lt_of_getLsbD marked
    have reserved := w.capacity_add_one
    have ne : i ≠ w.capacity := by
      rintro rfl
      rw [clear] at marked
      cases marked
    omega

end

end VariantSets.Bitmap
