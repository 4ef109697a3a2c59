import Mathlib.Data.List.Induction
import VariantSets.Proofs.Atomicity
import VariantSets.Proofs.TokenSet.Members
import VariantSets.Proofs.Walk

/-! From lists to sets and back. What a walk over a set gives can be made into a set again, and it is the same set, as
far as it holds declared variants. What a walk over the set of a list gives is the list without its repetitions, as it
stands in a token set, and in the order of the ordinals in a bit set. -/
namespace VariantSets

section
variable {α β : Type} [BEq α] [LawfulBEq α] [BEq β] [LawfulBEq β]

theorem eraseDups_concat_of_mem {as : List α} {a : α} (there : a ∈ as) : (as ++ [a]).eraseDups = as.eraseDups := by
  simp [List.eraseDups_append, List.removeAll, there]

theorem eraseDups_concat_of_not_mem {as : List α} {a : α} (missing : a ∉ as) :
    (as ++ [a]).eraseDups = as.eraseDups ++ [a] := by
  simp [List.eraseDups_append, List.eraseDups_cons, List.removeAll, missing]

theorem eraseDups_sublist (as : List α) : as.eraseDups.Sublist as := by
  induction as using List.reverseRecOn with
  | nil => exact .slnil
  | append_singleton as a ih =>
    by_cases there : a ∈ as
    · rw [eraseDups_concat_of_mem there]
      exact ih.trans (List.sublist_append_left as [a])
    · rw [eraseDups_concat_of_not_mem there]
      exact ih.append (List.Sublist.refl [a])

theorem nodup_eraseDups (as : List α) : as.eraseDups.Nodup := by
  induction as using List.reverseRecOn with
  | nil => exact .nil
  | append_singleton as a ih =>
    by_cases there : a ∈ as
    · rwa [eraseDups_concat_of_mem there]
    · have fresh : a ∉ as.eraseDups := mt List.mem_eraseDups.1 there
      rw [eraseDups_concat_of_not_mem there, ← List.concat_eq_append]
      exact ih.concat fresh

theorem eraseDups_of_nodup {as : List α} (nodup : as.Nodup) : as.eraseDups = as := by
  have all : as.length ≤ as.eraseDups.length := (nodup.subperm fun _ h => List.mem_eraseDups.2 h).length_le
  exact (eraseDups_sublist as).eq_of_length_le all

theorem eraseDups_map {f : α → β} (inj : f.Injective) (as : List α) :
    (as.map f).eraseDups = as.eraseDups.map f := by
  induction as using List.reverseRecOn with
  | nil => rfl
  | append_singleton as a ih =>
    rw [List.map_append, List.map_singleton]
    by_cases there : a ∈ as
    · rw [eraseDups_concat_of_mem there, eraseDups_concat_of_mem (List.mem_map_of_mem there), ih]
    · have missing : f a ∉ as.map f := by rwa [List.mem_map_of_injective inj]
      rw [eraseDups_concat_of_not_mem there, eraseDups_concat_of_not_mem missing, ih, List.map_append,
        List.map_singleton]

end

namespace TokenSet
variable {V : Type} {T : TokenTable V}

theorem appendMissing_nil (cs : List Char) : appendMissing [] cs = cs.eraseDups := by
  -- The last character is the one that may be dropped, so the list is taken from its end.
  induction cs using List.reverseRecOn with
  | nil => rfl
  | append_singleton cs c ih =>
    have last : appendMissing [] (cs ++ [c]) = appendMissing (appendMissing [] cs) [c] := List.foldl_append
    rw [last, ih]
    by_cases there : c ∈ cs
    · simp [appendMissing, eraseDups_concat_of_mem there, there]
    · simp [appendMissing, eraseDups_concat_of_not_mem there, there]

theorem ofVariants_eq (vs : List V) : ofVariants T vs = .ok ⟨(vs.map T.token).eraseDups, false⟩ := by
  have added := insertAll_eq_appendMissing (s := empty T) rfl vs
  rw [ofVariants, assign, clear_of_open rfl, Outcome.andThen_done, added, empty, appendMissing_nil]
  rfl

theorem item_token (lawful : T.Lawful) (distinct : T.DistinctTokens) (v : V) : item T (T.token v) = .ok v := by
  obtain ⟨u, found⟩ := Option.isSome_iff_exists.1 (TokenTable.ofToken?_isSome.2 (token_mem_tokens lawful v))
  have same : u = v := (token_inj lawful distinct).1 (TokenTable.token_of_ofToken? found)
  rw [item, found, same]

theorem ofVariants_walked {s : TokenSet T} (valid : s.validate = .ok ()) :
    ∃ vs, Yields Cursor.next s.cursor (vs.map .ok) ∧ ofVariants T vs = .ok ⟨s.contents, false⟩ := by
  -- The variants in valid contents have different tokens, so none of them is passed over.
  have sound := validate_eq_ok.1 valid
  obtain ⟨vs, items, spelled, _⟩ := sound.exists_variants
  refine ⟨vs, items ▸ s.yields_toList, ?_⟩
  rw [ofVariants_eq, spelled, eraseDups_of_nodup sound.nodup]

theorem walk_ofVariants [DecidableEq V] (lawful : T.Lawful) (distinct : T.DistinctTokens) (vs : List V) :
    ∃ s, ofVariants T vs = .ok s ∧ Yields Cursor.next s.cursor (vs.eraseDups.map .ok) := by
  have inj : T.token.Injective := fun _ _ => (token_inj lawful distinct).1
  have items : (vs.map T.token).eraseDups.map (item T) = vs.eraseDups.map .ok := by
    simp only [eraseDups_map inj, List.map_map, Function.comp_def, item_token lawful distinct]
  exact ⟨_, ofVariants_eq vs, items ▸ yields_toList _⟩

end TokenSet

namespace BitSet
variable {V : Type} {E : Enumeration V} {w : Width}

def arranged [DecidableEq V] (E : Enumeration V) (vs : List V) : List V :=
  (vs.mergeSort fun u v => E.ordinal u ≤ E.ordinal v).eraseDups

theorem mem_arranged [DecidableEq V] {vs : List V} {v : V} : v ∈ arranged E vs ↔ v ∈ vs := by
  rw [arranged, List.mem_eraseDups, List.mem_mergeSort]

theorem arranged_ascending [DecidableEq V] (lawful : E.Lawful) (vs : List V) :
    (arranged E vs).Pairwise fun u v => E.ordinal u < E.ordinal v := by
  have sorted : (vs.mergeSort fun u v => E.ordinal u ≤ E.ordinal v).Pairwise
      fun u v => decide (E.ordinal u ≤ E.ordinal v) = true :=
    List.pairwise_mergeSort (by grind) (by grind) vs
  simp only [decide_eq_true_eq] at sorted
  have once := (sorted.sublist (eraseDups_sublist _)).and (nodup_eraseDups _)
  refine once.imp fun {u v} h => ?_
  have apart : E.ordinal u ≠ E.ordinal v := fun same => h.2 (lawful.ordinal_inj same)
  omega

theorem eq_of_ascending (lawful : E.Lawful) {us vs : List V} (h : us.Pairwise fun u v => E.ordinal u < E.ordinal v)
    (h' : vs.Pairwise fun u v => E.ordinal u < E.ordinal v) (same : ∀ v, v ∈ us ↔ v ∈ vs) : us = vs := by
  have inj : E.ordinal.Injective := fun _ _ => lawful.ordinal_inj
  apply List.map_injective_iff.2 inj
  apply (List.pairwise_map.2 h).eq_of_mem_iff (List.pairwise_map.2 h')
  intro i
  simp only [List.mem_map, same]

theorem Collects.owned {vs : List V} {b : Bitmap w} (h : Collects E vs b) : Owned (E := E) ⟨b, false⟩ := by
  intro i hi
  obtain ⟨v, _, same⟩ := (h i).1 (mem_ordinals.1 hi).1
  exact ⟨v, same⟩

theorem collects_toList (lawful : E.Lawful) {s : BitSet E w} (owned : s.Owned) :
    Collects E s.toList (s.bitmap &&& fullMask E w) := by
  intro i
  have held : (s.bitmap &&& fullMask E w).getLsbD i = true ↔ i ∈ s.ordinals := Bitmap.mem_positions.symm
  rw [held]
  constructor
  · intro hi
    obtain ⟨v, rfl⟩ := owned i hi
    obtain ⟨marked, fits⟩ := mem_ordinals.1 hi
    exact ⟨v, mem_toList_of_bit lawful marked fits, rfl⟩
  · rintro ⟨v, hv, rfl⟩
    exact mem_ordinals.2 ((mem_toList lawful owned).1 hv)

theorem ofVariants_toList (lawful : E.Lawful) {s : BitSet E w} (owned : s.Owned) :
    ofVariants E w s.toList = .ok ⟨s.bitmap &&& fullMask E w, false⟩ := by
  refine ofVariants_eq_ok.2 ⟨fun v hv => ?_, rfl, collects_toList lawful owned⟩
  exact ((mem_toList lawful owned).1 hv).2

theorem walk_ofVariants [DecidableEq V] (lawful : E.Lawful) {vs : List V}
    (below : ∀ v ∈ vs, E.ordinal v < w.capacity) :
    ∃ s, ofVariants E w vs = .ok s ∧ Yields Cursor.next s.cursor (arranged E vs) := by
  have fits : ∀ v ∈ vs, E.ordinal v < limit E w := fun v hv => lt_limit_of_lt_capacity lawful (below v hv)
  obtain ⟨b, made, collects⟩ := ofVariants_of_lt fits
  have walked : toList (E := E) ⟨b, false⟩ = arranged E vs := by
    have sorted := toList_ascending lawful collects.owned
    refine eq_of_ascending lawful sorted (arranged_ascending lawful vs) fun v => ?_
    rw [mem_toList lawful collects.owned, mem_arranged, collects]
    constructor
    · rintro ⟨⟨u, hu, same⟩, _⟩
      exact lawful.ordinal_inj same ▸ hu
    · intro hv
      exact ⟨⟨v, hv, rfl⟩, fits v hv⟩
  exact ⟨_, made, walked ▸ yields_toList _⟩

end BitSet

/-- Valid contents are built again, in their order, from the variants that a walk over them gives; and every list is
walked as it stands, without the variants that came before. Of any bitmap the variants that a walk gives build the bits
of those that are declared and fit, where every number below the limit is an ordinal; and every list of variants that
fit is walked in the order of the ordinals, without repetitions. -/
theorem round_trips :
    (∀ {V : Type} [DecidableEq V] {T : TokenTable V}, T.Lawful → T.DistinctTokens →
      (∀ s : TokenSet T, s.validate = .ok () → ∃ vs, Yields TokenSet.Cursor.next s.cursor (vs.map .ok) ∧
        TokenSet.ofVariants T vs = .ok ⟨s.contents, false⟩) ∧
      (∀ vs : List V, ∃ s, TokenSet.ofVariants T vs = .ok s ∧
        Yields TokenSet.Cursor.next s.cursor (vs.eraseDups.map .ok))) ∧
    (∀ {V : Type} [DecidableEq V] {E : Enumeration V}, E.Lawful → ∀ w : Width,
      (E.Covers (BitSet.limit E w) →
        ∀ b : Bitmap w, ∃ vs, Yields BitSet.Cursor.next (BitSet.ofBitmap (E := E) b).cursor vs ∧
          BitSet.ofVariants E w vs = .ok ⟨b &&& BitSet.fullMask E w, false⟩) ∧
      (∀ vs : List V, (∀ v ∈ vs, E.ordinal v < w.capacity) → ∃ s, BitSet.ofVariants E w vs = .ok s ∧
        Yields BitSet.Cursor.next s.cursor (vs.mergeSort fun u v => E.ordinal u ≤ E.ordinal v).eraseDups)) := by
  constructor
  · intro V _ T lawful distinct
    exact ⟨fun s valid => TokenSet.ofVariants_walked valid, TokenSet.walk_ofVariants lawful distinct⟩
  · intro V _ E lawful w
    refine ⟨fun covers b => ⟨_, BitSet.yields_toList _, ?_⟩, fun vs below => BitSet.walk_ofVariants lawful below⟩
    exact BitSet.ofVariants_toList lawful (BitSet.owned_of_covers covers _)

theorem round_trips_three :
    let E : Enumeration (Fin 3) := TokenSet.three.toEnumeration
    let s : TokenSet TokenSet.three := ⟨['C', 'A'], true⟩
    let b : Bitmap .byte := 0b10001010#8
    let vs : List (Fin 3) := [2, 0, 2, 1]
    (TokenSet.three.Lawful ∧ TokenSet.three.DistinctTokens ∧ s.validate = .ok () ∧
        E.Covers (BitSet.limit E .byte) ∧ ∀ v ∈ vs, E.ordinal v < Width.byte.capacity) ∧
      (∃ us, Yields TokenSet.Cursor.next s.cursor (us.map .ok) ∧
        TokenSet.ofVariants TokenSet.three us = .ok ⟨['C', 'A'], false⟩) ∧
      (∃ t, TokenSet.ofVariants TokenSet.three vs = .ok t ∧
        Yields TokenSet.Cursor.next t.cursor [.ok 2, .ok 0, .ok 1]) ∧
      (∃ us, Yields BitSet.Cursor.next (BitSet.ofBitmap (E := E) b).cursor us ∧
        BitSet.ofVariants E .byte us = .ok ⟨0b010#8, false⟩) ∧
      (∃ t, BitSet.ofVariants E .byte vs = .ok t ∧ Yields BitSet.Cursor.next t.cursor [0, 1, 2]) := by
  intro E s b vs
  have lawful : TokenSet.three.Lawful := TokenTable.ofPairs_lawful _ _
  have distinct : TokenSet.three.DistinctTokens := by unfold TokenTable.DistinctTokens; decide
  have valid : s.validate = .ok () := rfl
  have covers : E.Covers (BitSet.limit E .byte) := TokenSet.covers_limit lawful distinct .byte
  have below : ∀ v ∈ vs, E.ordinal v < Width.byte.capacity := by decide
  have members : ∀ v, v ∈ BitSet.arranged E vs ↔ v ∈ ([0, 1, 2] : List (Fin 3)) := by
    simp only [BitSet.mem_arranged]
    decide
  have sorted : BitSet.arranged E vs = [0, 1, 2] :=
    BitSet.eq_of_ascending lawful (BitSet.arranged_ascending lawful vs) (by decide) members
  have declared : b &&& BitSet.fullMask E .byte = 0b010#8 := by
    simp only [b, E]
    rfl
  obtain ⟨again, walked⟩ := round_trips.1 lawful distinct
  obtain ⟨again', walked'⟩ := round_trips.2 lawful .byte
  exact ⟨⟨lawful, distinct, valid, covers, below⟩, again s valid, walked vs, declared ▸ again' covers b,
    sorted ▸ walked' vs below⟩

theorem ofVariants_walk_twice :
    let s : BitSet BitSet.twice .byte := BitSet.ofBitmap 0b100#8
    BitSet.twice.Lawful ∧ Yields BitSet.Cursor.next s.cursor [false] ∧
      BitSet.ofVariants BitSet.twice .byte [false] = .ok ⟨0b001#8, false⟩ ∧
      ∀ vs, Yields BitSet.Cursor.next s.cursor vs →
        BitSet.ofVariants BitSet.twice .byte vs ≠ .ok ⟨s.bitmap &&& BitSet.fullMask BitSet.twice .byte, false⟩ := by
  -- The bit is that of the place that repeats the first variant, and what a walk meets there has another bit.
  intro s
  have met : s.toList = [false] := by decide
  have walk : Yields BitSet.Cursor.next s.cursor [false] := met ▸ s.yields_toList
  have made : BitSet.ofVariants BitSet.twice .byte [false] = .ok ⟨0b001#8, false⟩ := rfl
  have other : s.bitmap &&& BitSet.fullMask BitSet.twice .byte = 0b100#8 := by
    simp only [s]
    rfl
  refine ⟨BitSet.twice_lawful, walk, made, fun vs walk' same => ?_⟩
  rw [walk'.unique walk, made, other] at same
  have bits : 0b001#8 = 0b100#8 := congrArg BitSet.bitmap (Except.ok.inj same)
  exact absurd bits (by decide)

end VariantSets
