import Mathlib.Algebra.BigOperators.Group.Finset.Basic
import VariantSets.BitSet.Mutation
import VariantSets.Proofs.MemberSet
import VariantSets.Proofs.Walk

/-! When a bitmap marks a finite set of variants. Every operation on words has its operation on sets, and a
marked set can be read off its bitmap again: as a number, by size, and by the walk of a cursor. -/
namespace VariantSets.BitSet

variable {V : Type} {E : Enumeration V} {w : Width}

/-- The bit of a variant is set exactly when the variant is in `m`, and no other bits are set. -/
structure Marks (E : Enumeration V) (b : Bitmap w) (m : Finset V) : Prop where
  bit (v : V) : b.getLsbD (E.ordinal v) = true ↔ v ∈ m
  bound (i : Nat) : b.getLsbD i = true → i < limit E w

namespace Marks
variable {b c : Bitmap w} {m n : Finset V}

theorem zero (E : Enumeration V) (w : Width) : Marks E 0#w.bits ∅ := by
  constructor <;> simp

theorem single (lawful : E.Lawful) {v : V} (fits : E.ordinal v < limit E w) :
    Marks E (Bitmap.bit w (E.ordinal v)) {v} := by
  constructor
  · intro u
    rw [Bitmap.getLsbD_bit, Bool.and_eq_true, decide_eq_true_eq, decide_eq_true_eq, Finset.mem_singleton]
    constructor
    · intro h
      exact (lawful.ordinal_inj h.2).symm
    · rintro rfl
      exact ⟨lt_bits_of_lt_limit fits, rfl⟩
  · intro i h
    rw [Bitmap.getLsbD_bit, Bool.and_eq_true, decide_eq_true_eq, decide_eq_true_eq] at h
    exact h.2 ▸ fits

section
variable (lawful : E.Lawful) (covers : E.Covers (limit E w))
include covers

theorem mem_positions (hb : Marks E b m) {i : Nat} : i ∈ b.positions ↔ ∃ v ∈ m, E.ordinal v = i := by
  rw [Bitmap.mem_positions]
  constructor
  · intro h
    obtain ⟨v, rfl⟩ := covers i (hb.bound i h)
    exact ⟨v, (hb.bit v).1 h, rfl⟩
  · rintro ⟨v, hv, rfl⟩
    exact (hb.bit v).2 hv

theorem support_eq (hb : Marks E b m) : b.support = m.image E.ordinal := by
  ext i
  rw [Bitmap.mem_support, ← Bitmap.mem_positions, hb.mem_positions covers, Finset.mem_image]

include lawful

theorem toNat_eq (hb : Marks E b m) : b.toNat = ∑ v ∈ m, 2 ^ E.ordinal v := by
  have distinct : Set.InjOn E.ordinal m := fun _ _ _ _ same => lawful.ordinal_inj same
  calc b.toNat
      = (b.positions.map (2 ^ ·)).sum := b.sum_positions.symm
    _ = ∑ i ∈ b.support, 2 ^ i := (List.sum_toFinset _ b.positions_nodup).symm
    _ = ∑ v ∈ m, 2 ^ E.ordinal v := by rw [hb.support_eq covers, Finset.sum_image distinct]

theorem popCount_eq (hb : Marks E b m) : b.popCount = m.card := by
  calc b.popCount
      = b.support.card := b.card_support.symm
    _ = m.card := by
      rw [hb.support_eq covers]
      exact Finset.card_image_of_injective m fun _ _ same => lawful.ordinal_inj same

theorem eq_zero_iff (hb : Marks E b m) : b = 0#w.bits ↔ m = ∅ := by
  rw [← Bitmap.popCount_eq_zero, hb.popCount_eq lawful covers, Finset.card_eq_zero]

theorem unique (hb : Marks E b m) (hc : Marks E c m) : b = c := by
  apply BitVec.eq_of_toNat_eq
  rw [hb.toNat_eq lawful covers, hc.toNat_eq lawful covers]

theorem eq_iff (hb : Marks E b m) (hc : Marks E c n) : b = c ↔ m = n := by
  constructor
  · rintro rfl
    ext v
    rw [← hb.bit, hc.bit]
  · rintro rfl
    exact hb.unique lawful covers hc

theorem mem_toList {s : BitSet E w} (hb : Marks E s.bitmap m) (v : V) : v ∈ s.toList ↔ v ∈ m := by
  rw [BitSet.mem_toList lawful (owned_of_covers covers s), hb.bit, and_iff_left_iff_imp]
  intro hv
  have marked := (hb.bit v).2 hv
  exact hb.bound _ marked

end

theorem contains_iff {s : BitSet E w} (hb : Marks E s.bitmap m) (v : V) : s.contains v = true ↔ v ∈ m := by
  rw [contains_eq, Bool.and_eq_true, hb.bit, and_iff_right_iff_imp, decide_eq_true_eq]
  intro hv
  have marked := (hb.bit v).2 hv
  have below := hb.bound _ marked
  have room := limit_le_capacity E w
  omega

variable [DecidableEq V]

theorem or (hb : Marks E b m) (hc : Marks E c n) : Marks E (b ||| c) (m ∪ n) := by
  constructor
  · intro v
    rw [BitVec.getLsbD_or, Bool.or_eq_true, hb.bit, hc.bit, Finset.mem_union]
  · intro i h
    rw [BitVec.getLsbD_or, Bool.or_eq_true] at h
    exact h.elim (hb.bound i) (hc.bound i)

theorem and (hb : Marks E b m) (hc : Marks E c n) : Marks E (b &&& c) (m ∩ n) := by
  constructor
  · intro v
    rw [BitVec.getLsbD_and, Bool.and_eq_true, hb.bit, hc.bit, Finset.mem_inter]
  · intro i h
    rw [BitVec.getLsbD_and, Bool.and_eq_true] at h
    exact hb.bound i h.1

theorem andNot (hb : Marks E b m) (hc : Marks E c n) : Marks E (b &&& ~~~c) (m \ n) := by
  constructor
  · intro v
    rw [BitVec.getLsbD_and, BitVec.getLsbD_not, Finset.mem_sdiff, ← hb.bit, ← hc.bit]
    -- The complement of a word ends at its width, so that the bit of `b` has to say that `v` is within it.
    have below : b.getLsbD (E.ordinal v) = true → E.ordinal v < w.bits := BitVec.lt_of_getLsbD
    grind
  · intro i h
    rw [BitVec.getLsbD_and, Bool.and_eq_true] at h
    exact hb.bound i h.1

theorem xor (hb : Marks E b m) (hc : Marks E c n) : Marks E (b ^^^ c) ((m \ n) ∪ (n \ m)) := by
  constructor
  · intro v
    rw [BitVec.getLsbD_xor, Finset.mem_union, Finset.mem_sdiff, Finset.mem_sdiff, ← hb.bit, ← hc.bit]
    cases b.getLsbD (E.ordinal v) <;> cases c.getLsbD (E.ordinal v) <;> simp
  · intro i h
    rw [BitVec.getLsbD_xor] at h
    cases hi : b.getLsbD i with
    | true => exact hb.bound i hi
    | false =>
      rw [hi, Bool.false_xor] at h
      exact hc.bound i h

theorem full (lawful : E.Lawful) : Marks E (fullMask E w) (MemberSet.declared E (limit E w)) := by
  constructor
  · intro v
    rw [getLsbD_fullMask, decide_eq_true_eq, MemberSet.mem_declared]
    exact ⟨fun h => ⟨lawful.mem_variants v, h⟩, fun h => h.2⟩
  · intro i h
    rwa [getLsbD_fullMask, decide_eq_true_eq] at h

theorem compl (lawful : E.Lawful) (hb : Marks E b m) :
    Marks E (~~~b &&& fullMask E w) (MemberSet.declared E (limit E w) \ m) := by
  rw [BitVec.and_comm]
  exact (full lawful).andNot hb

end Marks

end VariantSets.BitSet
