import Mathlib.Data.List.Dedup
import VariantSets.BitSet.SymbolMap
import VariantSets.Proofs.Bitmap

/-! Symbol maps that are written and read. Reading looks at each character by itself, so that the bitmap only
depends on which symbols occur. Writing names each position once, the lowest first, which is the one way to
write a bitmap with its symbols in order. -/
namespace VariantSets.BitSet

variable {V : Type} {E : Enumeration V} {w : Width}

/-- A character that stands for a position within the capacity. -/
def Legible (w : Width) (c : Char) : Prop := ∃ i < w.capacity, Symbol.position? c = some i

theorem symbolPosition?_eq_some {c : Char} {i : Nat} :
    symbolPosition? w c = some i ↔ Symbol.position? c = some i ∧ i < w.capacity := by
  simp [symbolPosition?, Option.filter_eq_some_iff]

theorem symbolPosition?_of_not_legible {c : Char} (h : ¬ Legible w c) : symbolPosition? w c = none := by
  cases found : symbolPosition? w c with
  | none => rfl
  | some i =>
    obtain ⟨position, below⟩ := symbolPosition?_eq_some.1 found
    exact absurd ⟨i, below, position⟩ h

def readSymbol (b : Bitmap w) (c : Char) : Except Fault (Bitmap w) :=
  match symbolPosition? w c with
  | some i => .ok (b ||| Bitmap.bit w i)
  | none => .error (.invalidToken c)

theorem bitmapOfSymbols_eq_foldlM (cs : List Char) :
    bitmapOfSymbols w cs = cs.foldlM readSymbol 0#w.bits := rfl

theorem readSymbol_of_legible {c : Char} (h : Legible w c) (b : Bitmap w) :
    ∃ d, readSymbol b c = .ok d ∧
      ∀ i, d.getLsbD i = true ↔ b.getLsbD i = true ∨ Symbol.position? c = some i := by
  obtain ⟨k, below, position⟩ := h
  have found := symbolPosition?_eq_some.2 ⟨position, below⟩
  refine ⟨b ||| Bitmap.bit w k, by simp only [readSymbol, found], fun i => ?_⟩
  have within := w.capacity_lt_bits
  rw [BitVec.getLsbD_or, Bitmap.getLsbD_bit, position, Bool.or_eq_true, Bool.and_eq_true, decide_eq_true_eq,
    decide_eq_true_eq, Option.some_inj]
  constructor
  · exact Or.imp_right And.right
  · exact Or.imp_right fun same => ⟨by omega, same⟩

theorem foldlM_readSymbol_of_legible {cs : List Char} (legible : ∀ c ∈ cs, Legible w c) (b : Bitmap w) :
    ∃ d, cs.foldlM readSymbol b = .ok d ∧
      ∀ i, d.getLsbD i = true ↔ b.getLsbD i = true ∨ ∃ c ∈ cs, Symbol.position? c = some i := by
  -- The bits that were set before stay set, so the bitmap to start from may be any.
  induction cs generalizing b with
  | nil => exact ⟨b, rfl, by simp⟩
  | cons c cs ih =>
    obtain ⟨d, read, bits⟩ := readSymbol_of_legible (legible c List.mem_cons_self) b
    obtain ⟨e, rest, bits'⟩ := ih (fun c' hc' => legible c' (List.mem_cons_of_mem c hc')) d
    refine ⟨e, ?_, fun i => ?_⟩
    · rw [List.foldlM_cons, read]
      exact rest
    · simp only [bits', bits, List.exists_mem_cons_iff, or_assoc]

theorem bitmapOfSymbols_of_legible {cs : List Char} (legible : ∀ c ∈ cs, Legible w c) :
    ∃ b, bitmapOfSymbols w cs = .ok b ∧
      ∀ i, b.getLsbD i = true ↔ ∃ c ∈ cs, Symbol.position? c = some i := by
  obtain ⟨b, read, bits⟩ := foldlM_readSymbol_of_legible legible 0#w.bits
  exact ⟨b, read, fun i => by simp [bits]⟩

def FirstIllegible (w : Width) (cs : List Char) (c : Char) : Prop :=
  ∃ before after, cs = before ++ c :: after ∧ (∀ d ∈ before, Legible w d) ∧ ¬ Legible w c

theorem bitmapOfSymbols_of_illegible {cs : List Char} {c : Char} (h : FirstIllegible w cs c) :
    bitmapOfSymbols w cs = .error (.invalidToken c) := by
  obtain ⟨before, after, rfl, legible, illegible⟩ := h
  obtain ⟨b, read, _⟩ := foldlM_readSymbol_of_legible legible 0#w.bits
  have stop : readSymbol b c = .error (.invalidToken c) := by
    simp only [readSymbol, symbolPosition?_of_not_legible illegible]
  rw [bitmapOfSymbols_eq_foldlM, List.foldlM_append, read]
  change (c :: after).foldlM readSymbol b = _
  rw [List.foldlM_cons, stop]
  rfl

theorem legible_or_first_illegible (w : Width) (cs : List Char) :
    (∀ c ∈ cs, Legible w c) ∨ ∃ c, FirstIllegible w cs c := by
  induction cs with
  | nil => exact .inl (by simp)
  | cons c cs ih =>
    by_cases hc : Legible w c
    · rcases ih with legible | ⟨d, before, after, rfl, legible, illegible⟩
      · exact .inl (List.forall_mem_cons.2 ⟨hc, legible⟩)
      · exact .inr ⟨d, c :: before, after, rfl, List.forall_mem_cons.2 ⟨hc, legible⟩, illegible⟩
    · exact .inr ⟨c, [], cs, rfl, by simp, hc⟩

theorem legible_of_bitmapOfSymbols {cs : List Char} {b : Bitmap w} (h : bitmapOfSymbols w cs = .ok b) :
    ∀ c ∈ cs, Legible w c := by
  rcases legible_or_first_illegible w cs with legible | ⟨c, first⟩
  · exact legible
  · rw [bitmapOfSymbols_of_illegible first] at h
    cases h

theorem getLsbD_bitmapOfSymbols {cs : List Char} {b : Bitmap w} (h : bitmapOfSymbols w cs = .ok b) (i : Nat) :
    b.getLsbD i = true ↔ ∃ c ∈ cs, Symbol.position? c = some i := by
  obtain ⟨d, read, bits⟩ := bitmapOfSymbols_of_legible (legible_of_bitmapOfSymbols h)
  rw [h] at read
  cases read
  exact bits i

theorem within_bitmapOfSymbols {cs : List Char} {b : Bitmap w} (h : bitmapOfSymbols w cs = .ok b) :
    b.Within w.capacity := by
  intro i marked
  obtain ⟨c, hc, position⟩ := (getLsbD_bitmapOfSymbols h i).1 marked
  obtain ⟨k, below, position'⟩ := legible_of_bitmapOfSymbols h c hc
  cases Option.some.inj (position.symm.trans position')
  exact below

theorem bitmapOfSymbols_eq_error {cs : List Char} {f : Fault} :
    bitmapOfSymbols w cs = .error f ↔ ∃ c, FirstIllegible w cs c ∧ f = .invalidToken c := by
  constructor
  · intro h
    rcases legible_or_first_illegible w cs with legible | ⟨c, first⟩
    · obtain ⟨b, read, _⟩ := bitmapOfSymbols_of_legible legible
      rw [h] at read
      cases read
    · rw [bitmapOfSymbols_of_illegible first] at h
      exact ⟨c, first, (Except.error.inj h).symm⟩
  · rintro ⟨c, first, rfl⟩
    exact bitmapOfSymbols_of_illegible first

theorem bitmapOfSymbols_append {cs ds : List Char} {b c : Bitmap w} (hb : bitmapOfSymbols w cs = .ok b)
    (hc : bitmapOfSymbols w ds = .ok c) : bitmapOfSymbols w (cs ++ ds) = .ok (b ||| c) := by
  have legible : ∀ e ∈ cs ++ ds, Legible w e :=
    List.forall_mem_append.2 ⟨legible_of_bitmapOfSymbols hb, legible_of_bitmapOfSymbols hc⟩
  obtain ⟨d, read, bits⟩ := bitmapOfSymbols_of_legible legible
  rw [read]
  refine congrArg _ (BitVec.eq_of_getLsbD_eq fun i _ => ?_)
  rw [Bool.eq_iff_iff, bits, BitVec.getLsbD_or, Bool.or_eq_true, getLsbD_bitmapOfSymbols hb,
    getLsbD_bitmapOfSymbols hc]
  simp only [List.mem_append, or_and_right, exists_or]

theorem ofSymbols_eq_ok {cs : List Char} {s : BitSet E w} :
    ofSymbols E w cs = .ok s ↔ bitmapOfSymbols w cs = .ok s.bitmap ∧ s.frozen = false := by
  rw [ofSymbols]
  cases bitmapOfSymbols w cs with
  | error f => simp [Except.map]
  | ok b =>
    cases s
    simp [Except.map, ofBitmap, eq_comm]

def places (s : BitSet E w) : List Nat := (List.range w.capacity).filter s.bitmap.getLsbD

theorem mem_places {s : BitSet E w} {i : Nat} : i ∈ s.places ↔ i < w.capacity ∧ s.bitmap.getLsbD i = true := by
  simp only [places, List.mem_filter, List.mem_range]

theorem places_sorted (s : BitSet E w) : s.places.Pairwise (· < ·) := by
  rw [places]
  exact List.pairwise_lt_range.filter s.bitmap.getLsbD

theorem places_of_within {s : BitSet E w} (within : s.bitmap.Within w.capacity) :
    s.places = s.bitmap.positions := by
  refine (Bitmap.positions_eq_of_mem_iff s.places_sorted fun i => ?_).symm
  rw [mem_places, and_iff_right_iff_imp]
  exact within i

theorem symbolMap_eq (s : BitSet E w) : s.symbolMap = s.places.filterMap Symbol.ofPosition? := by
  simp only [symbolMap, places, Bitmap.meets_bit]

theorem exists_symbol {i : Nat} (h : i < w.capacity) : ∃ c, Symbol.ofPosition? i = some c := by
  have room := w.bits_le
  have reserved := w.capacity_add_one
  have listed : i < Symbol.alphabet.length := by
    have count : Symbol.alphabet.length = 63 := by decide
    omega
  exact ⟨_, List.getElem?_eq_getElem listed⟩

theorem map_some_symbolMap (s : BitSet E w) : s.symbolMap.map some = s.places.map Symbol.ofPosition? := by
  rw [symbolMap_eq, List.map_filterMap_some_eq_filter_map_isSome, List.filter_eq_self]
  intro symbol h
  obtain ⟨i, hi, rfl⟩ := List.mem_map.1 h
  obtain ⟨c, found⟩ := exists_symbol (mem_places.1 hi).1
  rw [found, Option.isSome_some]

theorem mem_symbolMap {s : BitSet E w} {c : Char} :
    c ∈ s.symbolMap ↔ ∃ i < w.capacity, s.bitmap.getLsbD i = true ∧ Symbol.position? c = some i := by
  simp only [symbolMap_eq, List.mem_filterMap, mem_places, Symbol.position?_eq_some, and_assoc]

theorem legible_of_mem_symbolMap {s : BitSet E w} {c : Char} (h : c ∈ s.symbolMap) : Legible w c := by
  obtain ⟨i, below, _, position⟩ := mem_symbolMap.1 h
  exact ⟨i, below, position⟩

theorem filterMap_position?_symbolMap (s : BitSet E w) : s.symbolMap.filterMap Symbol.position? = s.places := by
  have named : ∀ i ∈ s.places, (Symbol.ofPosition? i).bind Symbol.position? = some i := by
    intro i hi
    obtain ⟨c, found⟩ := exists_symbol (mem_places.1 hi).1
    rw [found, Option.bind_some, Symbol.position?_eq_some, found]
  rw [symbolMap_eq, List.filterMap_filterMap, List.filterMap_congr named, List.filterMap_some]

theorem nodup_symbolMap (s : BitSet E w) : s.symbolMap.Nodup := by
  rw [symbolMap_eq]
  refine s.places_sorted.filterMap _ ?_
  intro i j lt c hi d hj
  rintro rfl
  rw [← Symbol.position?_eq_some] at hi hj
  cases Option.some.inj (hi.symm.trans hj)
  exact Nat.lt_irrefl _ lt

theorem ofSymbols_symbolMap (s : BitSet E w) :
    ofSymbols E w s.symbolMap = .ok ⟨s.bitmap &&& Bitmap.lowMask w w.capacity, false⟩ := by
  obtain ⟨b, read, bits⟩ := bitmapOfSymbols_of_legible fun c => legible_of_mem_symbolMap (s := s) (c := c)
  have same : b = s.bitmap &&& Bitmap.lowMask w w.capacity := by
    refine BitVec.eq_of_getLsbD_eq fun i hi => ?_
    rw [Bool.eq_iff_iff, bits, BitVec.getLsbD_and, Bitmap.getLsbD_lowMask, decide_eq_true hi, Bool.true_and,
      Bool.and_eq_true, decide_eq_true_eq]
    constructor
    · rintro ⟨c, hc, position⟩
      obtain ⟨k, below, marked, position'⟩ := mem_symbolMap.1 hc
      cases Option.some.inj (position.symm.trans position')
      exact ⟨marked, below⟩
    · rintro ⟨marked, below⟩
      obtain ⟨c, found⟩ := exists_symbol below
      have position := Symbol.position?_of_ofPosition? found
      exact ⟨c, mem_symbolMap.2 ⟨i, below, marked, position⟩, position⟩
  exact ofSymbols_eq_ok.2 ⟨same ▸ read, rfl⟩

def Ascending (cs : List Char) : Prop := (cs.filterMap Symbol.position?).Pairwise (· < ·)

theorem ascending_symbolMap (s : BitSet E w) : Ascending s.symbolMap := by
  rw [Ascending, filterMap_position?_symbolMap]
  exact s.places_sorted

theorem filterMap_ofPosition?_positions {cs : List Char} (legible : ∀ c ∈ cs, Legible w c) :
    (cs.filterMap Symbol.position?).filterMap Symbol.ofPosition? = cs := by
  have named : ∀ c ∈ cs, (Symbol.position? c).bind Symbol.ofPosition? = some c := by
    intro c hc
    obtain ⟨i, _, position⟩ := legible c hc
    rw [position, Option.bind_some, Symbol.ofPosition?_of_position? position]
  rw [List.filterMap_filterMap, List.filterMap_congr named, List.filterMap_some]

theorem Ascending.eq {cs ds : List Char} (hcs : Ascending cs) (hds : Ascending ds)
    (legible : ∀ c ∈ cs, Legible w c) (same : ∀ c, c ∈ cs ↔ c ∈ ds) : cs = ds := by
  have legible' : ∀ c ∈ ds, Legible w c := fun c hc => legible c ((same c).2 hc)
  have positions : cs.filterMap Symbol.position? = ds.filterMap Symbol.position? :=
    hcs.eq_of_mem_iff hds fun i => by simp only [List.mem_filterMap, same]
  rw [← filterMap_ofPosition?_positions legible, positions, filterMap_ofPosition?_positions legible']

/-- The place of a character in the alphabet; what is not in it comes last. -/
def rank (c : Char) : Nat := (Symbol.position? c).getD Symbol.count

def inOrder (cs : List Char) : List Char := cs.dedup.mergeSort fun c d => rank c ≤ rank d

theorem mem_inOrder {cs : List Char} {c : Char} : c ∈ inOrder cs ↔ c ∈ cs := by
  rw [inOrder, List.mem_mergeSort, List.mem_dedup]

theorem ascending_inOrder (cs : List Char) : Ascending (inOrder cs) := by
  have sorted : (inOrder cs).Pairwise fun c d => decide (rank c ≤ rank d) = true := by
    apply List.pairwise_mergeSort
    · intro c d e hcd hde
      simp only [decide_eq_true_eq] at hcd hde ⊢
      omega
    · intro c d
      simp only [Bool.or_eq_true, decide_eq_true_eq]
      omega
  have once : (inOrder cs).Nodup := (List.mergeSort_perm _ _).nodup_iff.2 cs.nodup_dedup
  rw [Ascending, List.pairwise_filterMap]
  refine (sorted.and once).imp fun {c d} h i hi j hj => ?_
  have le : i ≤ j := by simpa [rank, hi, hj] using h.1
  have ne : i ≠ j := by
    rintro rfl
    exact h.2 (Symbol.position?_inj hi hj)
  omega

theorem symbolMap_ofSymbols {cs : List Char} {s : BitSet E w} (h : ofSymbols E w cs = .ok s) :
    s.symbolMap = inOrder cs := by
  obtain ⟨read, _⟩ := ofSymbols_eq_ok.1 h
  have legible := legible_of_bitmapOfSymbols read
  refine (ascending_symbolMap s).eq (ascending_inOrder cs) (fun c => legible_of_mem_symbolMap) fun c => ?_
  rw [mem_symbolMap, mem_inOrder]
  constructor
  · rintro ⟨i, _, marked, position⟩
    obtain ⟨d, hd, position'⟩ := (getLsbD_bitmapOfSymbols read i).1 marked
    exact Symbol.position?_inj position' position ▸ hd
  · intro hc
    obtain ⟨i, below, position⟩ := legible c hc
    exact ⟨i, below, (getLsbD_bitmapOfSymbols read i).2 ⟨c, hc, position⟩, position⟩

theorem inOrder_eq_self_iff {cs : List Char} (legible : ∀ c ∈ cs, Legible w c) :
    inOrder cs = cs ↔ Ascending cs := by
  constructor
  · intro h
    exact h ▸ ascending_inOrder cs
  · intro h
    exact (h.eq (ascending_inOrder cs) legible fun c => mem_inOrder.symm).symm

/-- A bit set is written as the symbols of its positions, each once and the lowest first, and read again without
its reserved bit. A text is read exactly if all its characters are legible, and stands for their positions in
whatever order; else the first that is not is blamed. Writing what was read puts the text in order, and texts
that are read one after the other give the union of their bitmaps. -/
theorem symbolMap_codec (E : Enumeration V) (w : Width) :
    (∀ s : BitSet E w,
      (∃ is : List Nat, is.Pairwise (· < ·) ∧ (∀ i, i ∈ is ↔ i < w.capacity ∧ s.bitmap.getLsbD i = true) ∧
        s.symbolMap.map some = is.map Symbol.ofPosition?) ∧
      s.symbolMap.Nodup ∧
      ofSymbols E w s.symbolMap = .ok ⟨s.bitmap &&& BitVec.ofNat w.bits (2 ^ w.capacity - 1), false⟩ ∧
      (s.bitmap.msb = false → ofSymbols E w s.symbolMap = .ok ⟨s.bitmap, false⟩)) ∧
    (∀ cs : List Char,
      ((∃ b, bitmapOfSymbols w cs = .ok b) ↔ ∀ c ∈ cs, Legible w c) ∧
      (∀ b, bitmapOfSymbols w cs = .ok b →
        ∀ i, b.getLsbD i = true ↔ ∃ c ∈ cs, Symbol.ofPosition? i = some c) ∧
      ∀ f, bitmapOfSymbols w cs = .error f ↔ ∃ c, FirstIllegible w cs c ∧ f = .invalidToken c) ∧
    (∀ (cs : List Char) (s : BitSet E w), ofSymbols E w cs = .ok s →
      s.symbolMap = inOrder cs ∧ (s.symbolMap = cs ↔ Ascending cs)) ∧
    ∀ (cs ds : List Char) (b c : Bitmap w), bitmapOfSymbols w cs = .ok b → bitmapOfSymbols w ds = .ok c →
      bitmapOfSymbols w (cs ++ ds) = .ok (b ||| c) := by
  refine ⟨fun s => ⟨?_, s.nodup_symbolMap, ?_, fun clear => ?_⟩,
    fun cs => ⟨⟨?_, fun legible => ?_⟩, ?_, ?_⟩, ?_, ?_⟩
  · exact ⟨s.places, s.places_sorted, fun _ => mem_places, s.map_some_symbolMap⟩
  · rw [← Bitmap.lowMask_eq_ofNat]
    exact s.ofSymbols_symbolMap
  · rw [ofSymbols_symbolMap, Bitmap.within_iff_and.1 (Bitmap.within_capacity_iff.2 clear)]
  · rintro ⟨b, read⟩
    exact legible_of_bitmapOfSymbols read
  · obtain ⟨b, read, _⟩ := bitmapOfSymbols_of_legible legible
    exact ⟨b, read⟩
  · intro b read i
    simp only [getLsbD_bitmapOfSymbols read, Symbol.position?_eq_some]
  · intro f
    exact bitmapOfSymbols_eq_error
  · intro cs s read
    have legible := legible_of_bitmapOfSymbols (ofSymbols_eq_ok.1 read).1
    have written := symbolMap_ofSymbols read
    exact ⟨written, written ▸ inOrder_eq_self_iff legible⟩
  · intro cs ds b c
    exact bitmapOfSymbols_append

def pair : Enumeration (Fin 2) := Enumeration.ofNames "Pair" ["Zero", "One"]

theorem symbolMap_codec_pair :
    let cs := ['2', 'E', '0', '2']
    let s : BitSet pair .short := ⟨16389#16, false⟩
    (s.bitmap.msb = false ∧ ofSymbols pair .short cs = .ok s ∧ bitmapOfSymbols .short ['1'] = .ok 2#16) ∧
      s.symbolMap = ['0', '2', 'E'] ∧ ofSymbols pair .short s.symbolMap = .ok s ∧ inOrder cs = ['0', '2', 'E'] ∧
      ¬ Ascending cs ∧ bitmapOfSymbols .short (cs ++ ['1']) = .ok 16391#16 ∧
      ∃ c, FirstIllegible .short ['0', 'F', '-'] c ∧ Fault.invalidToken 'F' = .invalidToken c := by
  intro cs s
  obtain ⟨written, read, again, both⟩ := symbolMap_codec pair .short
  have clear : s.bitmap.msb = false := by decide
  have first : ofSymbols pair .short cs = .ok s := rfl
  have second : bitmapOfSymbols .short ['1'] = .ok 2#16 := rfl
  have map : s.symbolMap = ['0', '2', 'E'] := by decide
  have unordered : s.symbolMap ≠ cs := by decide
  refine ⟨⟨clear, first, second⟩, map, (written s).2.2.2 clear, ?_, ?_, ?_, ?_⟩
  · exact (again cs s first).1.symm.trans map
  · exact mt (again cs s first).2.2 unordered
  · exact both cs ['1'] 16389#16 2#16 rfl second
  · exact ((read ['0', 'F', '-']).2.2 _).1 rfl

end VariantSets.BitSet
