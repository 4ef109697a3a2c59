import VariantSets.BitSet.Family
import VariantSets.Proofs.BitSet.Sizes
import VariantSets.Proofs.TokenSet.Algebra
import VariantSets.TokenSet.Family

/-! Complements of any value. A value may hold what belongs to no declared variant, and a complement never does: to
complement twice keeps the declared part only, and from then on complements undo each other. -/
namespace VariantSets

section
variable {S V R : Type} [SetFamily S V R]

/-- The second complement of `s` is `core`, and the third one is the first. -/
def Settles (s core : S) : Prop :=
  ∃ c, SetFamily.compl s = .done c () ∧ SetFamily.compl c = .done core () ∧ SetFamily.compl core = .done c ()

/-- The complement of what `op` makes of two sets is what `dual` makes of their complements. -/
def Dual (op dual : S → S → Outcome S Unit) (s t : S) : Prop :=
  ∃ joined c d e, op s t = .done joined () ∧ SetFamily.compl joined = .done e () ∧
    SetFamily.compl s = .done c () ∧ SetFamily.compl t = .done d () ∧ dual c d = .done e ()

end

namespace Bitmap
variable {w : Width} (a b mask : Bitmap w)

theorem masked_not_not : ~~~(~~~a &&& mask) &&& mask = a &&& mask := by
  ext i within
  simp only [BitVec.getElem_and, BitVec.getElem_not]
  cases a[i] <;> cases mask[i] <;> rfl

theorem masked_not_masked : ~~~(a &&& mask) &&& mask = ~~~a &&& mask := by
  ext i within
  simp only [BitVec.getElem_and, BitVec.getElem_not]
  cases a[i] <;> cases mask[i] <;> rfl

theorem masked_not_or : ~~~(a ||| b) &&& mask = (~~~a &&& mask) &&& (~~~b &&& mask) := by
  ext i within
  simp only [BitVec.getElem_and, BitVec.getElem_or, BitVec.getElem_not]
  cases a[i] <;> cases b[i] <;> cases mask[i] <;> rfl

theorem masked_not_and : ~~~(a &&& b) &&& mask = (~~~a &&& mask) ||| (~~~b &&& mask) := by
  ext i within
  simp only [BitVec.getElem_and, BitVec.getElem_or, BitVec.getElem_not]
  cases a[i] <;> cases b[i] <;> cases mask[i] <;> rfl

end Bitmap

namespace BitSet
variable {V : Type} (E : Enumeration V) {w : Width} (a b : Bitmap w)

theorem compl_of_open : compl (E := E) ⟨a, false⟩ = .done ⟨~~~a &&& fullMask E w, false⟩ () := rfl

theorem settles_of_open : Settles (S := BitSet E w) ⟨a, false⟩ ⟨a &&& fullMask E w, false⟩ := by
  have second := compl_of_open E (~~~a &&& fullMask E w)
  have third := compl_of_open E (a &&& fullMask E w)
  rw [Bitmap.masked_not_not] at second
  rw [Bitmap.masked_not_masked] at third
  exact ⟨_, compl_of_open E a, second, third⟩

theorem dual_union : Dual (union (E := E)) inter ⟨a, false⟩ ⟨b, false⟩ := by
  have joined := compl_of_open E (a ||| b)
  rw [Bitmap.masked_not_or] at joined
  exact ⟨_, _, _, _, rfl, joined, compl_of_open E a, compl_of_open E b, rfl⟩

theorem dual_inter : Dual (inter (E := E)) union ⟨a, false⟩ ⟨b, false⟩ := by
  have joined := compl_of_open E (a &&& b)
  rw [Bitmap.masked_not_and] at joined
  exact ⟨_, _, _, _, rfl, joined, compl_of_open E a, compl_of_open E b, rfl⟩

theorem popCount_compl : (~~~a &&& fullMask E w).popCount + (a &&& fullMask E w).popCount = limit E w := by
  have within : limit E w ≤ w.bits := Nat.le_trans (limit_le_capacity E w) (Nat.le_of_lt w.capacity_lt_bits)
  calc (~~~a &&& fullMask E w).popCount + (a &&& fullMask E w).popCount
      = (fullMask E w &&& ~~~a).popCount + (fullMask E w &&& a).popCount := by
        rw [BitVec.and_comm (~~~a), BitVec.and_comm a]
    _ = (fullMask E w).popCount := (Bitmap.popCount_andNot _ a).symm
    _ = limit E w := Bitmap.popCount_lowMask within

end BitSet

namespace TokenSet
variable {V : Type} (T : TokenTable V) (cs ds : List Char)

theorem filter_not_contains_filter (p : Char → Bool) :
    cs.filter (fun c => !(cs.filter p).contains c) = cs.filter fun c => !p c := by
  refine List.filter_congr fun c hc => ?_
  simp [hc]

theorem filter_filter_contains (p q : Char → Bool) :
    (cs.filter p).filter (fun c => (cs.filter q).contains c) = cs.filter fun c => p c && q c := by
  rw [List.filter_filter]
  refine List.filter_congr fun c hc => ?_
  simp [hc, Bool.and_comm]

theorem contains_appendMissing (c : Char) : (appendMissing cs ds).contains c = (cs.contains c || ds.contains c) := by
  simp [mem_appendMissing]

theorem compl_of_open :
    compl (T := T) ⟨cs, false⟩ = .done ⟨T.tokens.filter fun c => !cs.contains c, false⟩ () := rfl

theorem settles_of_open :
    Settles (S := TokenSet T) ⟨cs, false⟩ ⟨T.tokens.filter fun c => cs.contains c, false⟩ := by
  have second := compl_of_open T (T.tokens.filter fun c => !cs.contains c)
  have third := compl_of_open T (T.tokens.filter fun c => cs.contains c)
  simp only [filter_not_contains_filter, Bool.not_not] at second third
  exact ⟨_, compl_of_open T cs, second, third⟩

theorem dual_union : Dual (union (T := T)) inter ⟨cs, false⟩ ⟨ds, false⟩ := by
  have joined := compl_of_open T (appendMissing cs ds)
  simp only [contains_appendMissing, Bool.not_or] at joined
  rw [← filter_filter_contains] at joined
  exact ⟨_, _, _, _, rfl, joined, compl_of_open T cs, compl_of_open T ds, rfl⟩

end TokenSet

/-- Complements of open sets, whatever they hold. Of a bit set two leave the bits of the declared variants that fit;
they turn a union into an intersection and the other way round, and the size of the one and what was held of the
declared variants before make up all of them. Of a token set two leave the declared tokens that occur, in declaration
order, also where variants share a token; and they turn a union into an intersection, to the letter. -/
theorem complements_settle {V V' : Type} (E : Enumeration V) (w : Width) (T : TokenTable V') :
    (∀ s t : BitSet E w, s.frozen = false → t.frozen = false →
      Settles s ⟨s.bitmap &&& BitSet.fullMask E w, false⟩ ∧
      Dual BitSet.union BitSet.inter s t ∧ Dual BitSet.inter BitSet.union s t ∧
      ∃ c, s.compl = .done c () ∧ c.size + (s.bitmap &&& BitSet.fullMask E w).popCount = min w.capacity E.count) ∧
    (∀ s t : TokenSet T, s.frozen = false → t.frozen = false →
      Settles s ⟨(T.variants.map T.token).filter fun c => s.contents.contains c, false⟩ ∧
      Dual TokenSet.union TokenSet.inter s t) := by
  constructor
  · rintro ⟨a, _⟩ ⟨b, _⟩ rfl rfl
    exact ⟨BitSet.settles_of_open E a, BitSet.dual_union E a b, BitSet.dual_inter E a b,
      _, BitSet.compl_of_open E a, BitSet.popCount_compl E a⟩
  · rintro ⟨cs, _⟩ ⟨ds, _⟩ rfl rfl
    exact ⟨TokenSet.settles_of_open T cs, TokenSet.dual_union T cs ds⟩

theorem complements_settle_pair :
    let s : BitSet BitSet.pair .byte := ⟨0b10000101#8, false⟩
    let t : BitSet BitSet.pair .byte := ⟨0b11000010#8, false⟩
    let p : TokenSet TokenSet.shared := ⟨['x', 'q', 'p', 'x'], false⟩
    let q : TokenSet TokenSet.shared := ⟨['r', 'x', 'r'], false⟩
    (s.frozen = false ∧ t.frozen = false ∧ p.frozen = false ∧ q.frozen = false) ∧
      Settles s ⟨0b01#8, false⟩ ∧ Dual BitSet.union BitSet.inter s t ∧ Dual BitSet.inter BitSet.union s t ∧
      Settles p ⟨['p', 'q', 'p'], false⟩ ∧ Dual TokenSet.union TokenSet.inter p q := by
  intro s t p q
  obtain ⟨bits, texts⟩ := complements_settle BitSet.pair .byte TokenSet.shared
  obtain ⟨settles, union, inter, _⟩ := bits s t rfl rfl
  have declared : s.bitmap &&& BitSet.fullMask BitSet.pair .byte = 0b01#8 := by
    simp only [s]
    rfl
  obtain ⟨settles', union'⟩ := texts p q rfl rfl
  exact ⟨⟨rfl, rfl, rfl, rfl⟩, declared ▸ settles, union, inter, settles', union'⟩

end VariantSets
