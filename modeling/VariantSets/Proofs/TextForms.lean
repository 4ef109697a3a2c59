import VariantSets.Proofs.BitSet.SymbolMap
import VariantSets.Proofs.RoundTrip
import VariantSets.Proofs.TokenSet.Members

/-! Enumerations whose tokens are the symbols of their places. The symbol map of a bit set of declared variants is then
the contents of a token set with the same members. A text may be read either way: as tokens it must not repeat any or
name a place of no variant, as symbols it must stay below the capacity. Where both take it, they come to the same
members. -/
namespace VariantSets

/-- The variants that fit into a bitmap have the symbols of their positions as tokens. What the others have is open. -/
def TokenTable.Symbolic {V : Type} (T : TokenTable V) (w : Width) : Prop :=
  ∀ v, T.ordinal v < w.capacity → Symbol.ofPosition? (T.ordinal v) = some (T.token v)

theorem BitSet.Collects.marks {V : Type} [DecidableEq V] {E : Enumeration V} {w : Width} {vs : List V} {b : Bitmap w}
    (lawful : E.Lawful) (h : Collects E vs b) (fits : ∀ v ∈ vs, E.ordinal v < limit E w) :
    Marks E b vs.toFinset := by
  constructor
  · intro v
    rw [h, List.mem_toFinset]
    constructor
    · rintro ⟨u, hu, same⟩
      rwa [← lawful.ordinal_inj same]
    · intro hv
      exact ⟨v, hv, rfl⟩
  · intro i marked
    obtain ⟨v, hv, rfl⟩ := (h i).1 marked
    exact fits v hv

namespace TokenSet

variable {V : Type} {T : TokenTable V} {w : Width}

section
variable (symbolic : T.Symbolic w)
include symbolic

theorem position?_token {v : V} (below : T.ordinal v < w.capacity) :
    Symbol.position? (T.token v) = some (T.ordinal v) := by
  apply Symbol.position?_of_ofPosition?
  exact symbolic v below

variable (lawful : T.Lawful) (distinct : T.DistinctTokens)
include lawful distinct

theorem map_token_toList {s : BitSet T.toEnumeration w} (within : s.bitmap.Within (BitSet.limit T.toEnumeration w)) :
    s.toList.map T.token = s.symbolMap := by
  have below : s.bitmap.Within w.capacity := within.mono (BitSet.limit_le_capacity T.toEnumeration w)
  have places : s.ordinals = s.places := by
    rw [BitSet.places_of_within below, BitSet.ordinals, BitSet.fullMask, Bitmap.within_iff_and.1 within]
  rw [BitSet.toList_eq, BitSet.symbolMap_eq, ← places, List.map_filterMap]
  refine List.filterMap_congr fun i hi => ?_
  obtain ⟨v, rfl⟩ := covers lawful distinct i (BitSet.lt_count_of_mem_ordinals hi)
  have found : T.ofOrdinal? (T.ordinal v) = some v := lawful v
  rw [found, Option.map_some, symbolic v (below _ (BitSet.mem_ordinals.1 hi).1)]

theorem ofVariants_toList {s : BitSet T.toEnumeration w} (within : s.bitmap.Within (BitSet.limit T.toEnumeration w)) :
    ofVariants T s.toList = .ok ⟨s.symbolMap, false⟩ := by
  rw [ofVariants_eq, map_token_toList symbolic lawful distinct within, eraseDups_of_nodup s.nodup_symbolMap]

theorem legible_token_iff {v : V} : BitSet.Legible w (T.token v) ↔ T.ordinal v < w.capacity := by
  -- The token of a variant that does not fit stands for no place below the capacity, as another variant has that.
  constructor
  · rintro ⟨i, below, position⟩
    by_contra large
    -- Places are declared up to that of `v`, which is not below the capacity while `i` is.
    have declared : i < T.count := by
      have last := lawful.ordinal_lt v
      omega
    obtain ⟨u, rfl⟩ := covers lawful distinct i declared
    have token : T.token v = T.token u := Symbol.position?_inj position (position?_token symbolic below)
    have same : v = u := (token_inj lawful distinct).1 token
    exact large (same ▸ below)
  · intro below
    exact ⟨T.ordinal v, below, position?_token symbolic below⟩

theorem collects_of_read {vs : List V} {b : Bitmap w} (read : BitSet.bitmapOfSymbols w (vs.map T.token) = .ok b) :
    (∀ v ∈ vs, T.ordinal v < w.capacity) ∧ BitSet.Collects T.toEnumeration vs b := by
  have below : ∀ v ∈ vs, T.ordinal v < w.capacity := by
    intro v hv
    have legible := BitSet.legible_of_bitmapOfSymbols read _ (List.mem_map_of_mem hv)
    exact (legible_token_iff symbolic lawful distinct).1 legible
  refine ⟨below, fun i => ?_⟩
  rw [BitSet.getLsbD_bitmapOfSymbols read]
  simp only [List.mem_map, exists_exists_and_eq_and]
  refine exists_congr fun v => and_congr_right fun hv => ?_
  rw [position?_token symbolic (below v hv), Option.some_inj]

theorem twins_of_read {cs : List Char} {s : BitSet T.toEnumeration w} (sound : Sound T cs)
    (read : BitSet.ofSymbols T.toEnumeration w cs = .ok s) : Twins (ofContents T cs) s := by
  classical
  obtain ⟨vs, _, rfl, _⟩ := sound.exists_variants
  obtain ⟨bits, opened⟩ := BitSet.ofSymbols_eq_ok.1 read
  obtain ⟨below, collects⟩ := collects_of_read symbolic lawful distinct bits
  have fits : ∀ v ∈ vs, T.ordinal v < BitSet.limit T.toEnumeration w :=
    fun v hv => BitSet.lt_limit_of_lt_capacity lawful (below v hv)
  -- Both sets are compared with the finite set of the variants that the text spells.
  let m : BitSet.Members T.toEnumeration w := ⟨vs.toFinset, false, fun v hv => fits v (List.mem_toFinset.1 hv)⟩
  have spells : Spells (ofContents T (vs.map T.token)) m := by
    refine ⟨rfl, sound, fun v => ?_⟩
    have inj : T.token.Injective := fun _ _ => (token_inj lawful distinct).1
    rw [List.mem_toFinset]
    exact List.mem_map_of_injective inj
  have depicts : BitSet.Depicts s m := ⟨opened, collects.marks lawful fits⟩
  exact spells.twins lawful distinct (depicts.shows lawful (covers_limit lawful distinct w))

theorem exists_read_iff {cs : List Char} (sound : Sound T cs) :
    (∃ s, BitSet.ofSymbols T.toEnumeration w cs = .ok s) ↔ ∀ v, T.token v ∈ cs → T.ordinal v < w.capacity := by
  constructor
  · rintro ⟨s, read⟩ v hv
    have legible := BitSet.legible_of_bitmapOfSymbols (BitSet.ofSymbols_eq_ok.1 read).1 _ hv
    exact (legible_token_iff symbolic lawful distinct).1 legible
  · intro below
    have legible : ∀ c ∈ cs, BitSet.Legible w c := by
      intro c hc
      obtain ⟨v, _, rfl⟩ := List.mem_map.1 (sound.declared c hc)
      exact (legible_token_iff symbolic lawful distinct).2 (below v hc)
    obtain ⟨b, read, _⟩ := BitSet.bitmapOfSymbols_of_legible legible
    exact ⟨⟨b, false⟩, BitSet.ofSymbols_eq_ok.2 ⟨read, rfl⟩⟩

theorem sound_iff_of_read {cs : List Char} {s : BitSet T.toEnumeration w}
    (read : BitSet.ofSymbols T.toEnumeration w cs = .ok s) :
    Sound T cs ↔ cs.Nodup ∧ ∀ i ∈ cs.filterMap Symbol.position?, i < T.count := by
  have legible := BitSet.legible_of_bitmapOfSymbols (BitSet.ofSymbols_eq_ok.1 read).1
  constructor
  · intro sound
    refine ⟨sound.nodup, fun i hi => ?_⟩
    obtain ⟨c, hc, position⟩ := List.mem_filterMap.1 hi
    obtain ⟨v, _, rfl⟩ := List.mem_map.1 (sound.declared c hc)
    have below := (legible_token_iff symbolic lawful distinct).1 (legible _ hc)
    cases Option.some.inj ((position?_token symbolic below).symm.trans position)
    exact lawful.ordinal_lt v
  · rintro ⟨nodup, declared⟩
    refine ⟨fun c hc => ?_, nodup⟩
    obtain ⟨i, below, position⟩ := legible c hc
    obtain ⟨v, rfl⟩ := covers lawful distinct i (declared i (List.mem_filterMap.2 ⟨c, hc, position⟩))
    rw [Symbol.position?_inj position (position?_token symbolic below)]
    exact token_mem_tokens lawful v

end

/-- Where the variants that fit have the symbols of their places as tokens, a bit set of declared variants has for its
symbol map the contents of the token set that is made of its members. Parsed contents are read as symbols exactly if
every member fits, and what is read as symbols is parsed exactly if it repeats none and names declared places only;
either way the two sets are not told apart but by order. -/
theorem text_forms_coincide (lawful : T.Lawful) (distinct : T.DistinctTokens) (symbolic : T.Symbolic w) :
    (∀ s : BitSet T.toEnumeration w, s.bitmap &&& ~~~BitSet.fullMask T.toEnumeration w = 0#w.bits →
      ∃ vs, Yields BitSet.Cursor.next s.cursor vs ∧ ofVariants T vs = .ok ⟨s.symbolMap, false⟩) ∧
    (∀ (cs : List Char) (t : TokenSet T), parse T cs = .ok t →
      ((∀ v, t.contains v = true → T.ordinal v < w.capacity) ↔
        ∃ s, BitSet.ofSymbols T.toEnumeration w cs = .ok s ∧ Twins t s)) ∧
    ∀ (cs : List Char) (s : BitSet T.toEnumeration w), BitSet.ofSymbols T.toEnumeration w cs = .ok s →
      (cs.Nodup ∧ (∀ i ∈ cs.filterMap Symbol.position?, i < T.count) ↔
        ∃ t, parse T cs = .ok t ∧ Twins t s) := by
  refine ⟨fun s clear => ?_, fun cs t parsed => ?_, fun cs s read => ?_⟩
  · have within : s.bitmap.Within (BitSet.limit T.toEnumeration w) := Bitmap.within_iff_andNot.2 clear
    exact ⟨_, BitSet.yields_toList s, ofVariants_toList symbolic lawful distinct within⟩
  · obtain ⟨valid, rfl⟩ := parse_eq_ok.1 parsed
    have sound := validate_eq_ok.1 valid
    simp only [contains, List.contains_iff_mem]
    refine (exists_read_iff symbolic lawful distinct sound).symm.trans (exists_congr fun s => ?_)
    exact (and_iff_left_of_imp (twins_of_read symbolic lawful distinct sound)).symm
  · rw [← sound_iff_of_read symbolic lawful distinct read]
    constructor
    · intro sound
      exact ⟨_, parse_eq_ok.2 ⟨validate_eq_ok.2 sound, rfl⟩, twins_of_read symbolic lawful distinct sound read⟩
    · rintro ⟨t, parsed, _⟩
      obtain ⟨valid, rfl⟩ := parse_eq_ok.1 parsed
      exact validate_eq_ok.1 valid

def digits : TokenTable (Fin 9) :=
  .ofPairs "Digits" [("D0", '0'), ("D1", '1'), ("D2", '2'), ("D3", '3'), ("D4", '4'), ("D5", '5'), ("D6", '6'),
    ("Line", '_'), ("Plus", '+')]

theorem text_forms_coincide_digits :
    let E : Enumeration (Fin 9) := digits.toEnumeration
    let s : BitSet E .byte := ⟨0b1000110#8, true⟩
    let t : TokenSet digits := ⟨['6', '2', '1'], false⟩
    (digits.Lawful ∧ digits.DistinctTokens ∧ digits.Symbolic .byte ∧
        s.bitmap &&& ~~~BitSet.fullMask E .byte = BitVec.ofNat Width.byte.bits 0 ∧ parse digits t.contents = .ok t ∧
        BitSet.ofSymbols E .byte t.contents = .ok s.copy ∧ t.contents.Nodup ∧
        ∀ i ∈ t.contents.filterMap Symbol.position?, i < digits.count) ∧
      (∃ vs, Yields BitSet.Cursor.next s.cursor vs ∧ ofVariants digits vs = .ok ⟨['1', '2', '6'], false⟩) ∧
      (∃ r, BitSet.ofSymbols E .byte t.contents = .ok r ∧ Twins t r) ∧
      ∃ u, parse digits t.contents = .ok u ∧ Twins u s.copy := by
  intro E s t
  have lawful : digits.Lawful := TokenTable.ofPairs_lawful _ _
  have distinct : digits.DistinctTokens := by unfold TokenTable.DistinctTokens; decide
  have symbolic : digits.Symbolic .byte := by unfold TokenTable.Symbolic; decide
  have clear : s.bitmap &&& ~~~BitSet.fullMask E .byte = BitVec.ofNat Width.byte.bits 0 := by decide
  have parsed : parse digits t.contents = .ok t := rfl
  have read : BitSet.ofSymbols E .byte t.contents = .ok s.copy := rfl
  have nodup : t.contents.Nodup := by decide
  have below : ∀ v, t.contains v = true → digits.ordinal v < Width.byte.capacity := by decide
  have declared : ∀ i ∈ t.contents.filterMap Symbol.position?, i < digits.count := by decide
  have map : s.symbolMap = ['1', '2', '6'] := by decide
  obtain ⟨written, again, back⟩ := text_forms_coincide lawful distinct symbolic
  exact ⟨⟨lawful, distinct, symbolic, clear, parsed, read, nodup, declared⟩, map ▸ written s clear,
    (again t.contents t parsed).1 below, (back t.contents s.copy read).1 ⟨nodup, declared⟩⟩

end TokenSet

end VariantSets
