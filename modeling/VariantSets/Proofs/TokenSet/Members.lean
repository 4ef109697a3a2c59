import VariantSets.Proofs.BitSet.Members
import VariantSets.Proofs.TokenSet.Algebra
import VariantSets.Proofs.TokenSet.Validity

/-! Token sets of an enumeration without shared tokens answer as finite sets of variants do. Where a bit set
has room for all variants it answers as the same finite sets, so that the two families are hardly told apart:
by the name that a frozen set goes by, and by the order in which the members are walked. -/
namespace VariantSets.TokenSet

variable {V : Type} {T : TokenTable V}

theorem token_inj (lawful : T.Lawful) (distinct : T.DistinctTokens) {u v : V} :
    T.token u = T.token v ↔ u = v := by
  constructor
  · exact List.inj_on_of_nodup_map distinct (lawful.mem_variants u) (lawful.mem_variants v)
  · exact congrArg T.token

theorem covers (lawful : T.Lawful) (distinct : T.DistinctTokens) : T.Covers T.count := by
  have nodup : T.variants.Nodup := List.Nodup.of_map T.token distinct
  exact lawful.covers nodup

theorem covers_limit (lawful : T.Lawful) (distinct : T.DistinctTokens) (w : Width) :
    T.Covers (BitSet.limit T.toEnumeration w) := by
  apply (covers lawful distinct).mono
  exact BitSet.limit_le_count T.toEnumeration w

/-- Both are refused as frozen, under whatever names, or both for want of a handle. -/
inductive SameRefusal : Refusal → Refusal → Prop
  | frozen (a b : String) : SameRefusal (.fault (.frozen a)) (.fault (.frozen b))
  | noHandle : SameRefusal .noHandle .noHandle

variable {n : Nat} {holder : String} {s t : TokenSet T} {m k : MemberSet T.toEnumeration n holder}

structure Spells (s : TokenSet T) (m : MemberSet T.toEnumeration n holder) : Prop where
  frozen : s.frozen = m.frozen
  sound : Sound T s.contents
  token (v : V) : T.token v ∈ s.contents ↔ v ∈ m.members

theorem Spells.empty : Spells (empty T) (.empty : MemberSet T.toEnumeration n holder) := by
  refine ⟨rfl, .nil T, ?_⟩
  simp [TokenSet.empty, MemberSet.empty]

theorem Spells.replace {A : Type} (h : Spells s m) {cs : List Char} {p : Finset V} (sound : Sound T cs)
    (token : ∀ v, T.token v ∈ cs ↔ v ∈ p) (below : ∀ v ∈ p, T.ordinal v < n) (a : A) :
    (s.replace cs a).Matches SameRefusal Spells (m.replace p below a) := by
  cases open? : s.frozen with
  | true =>
    rw [replace_of_frozen open?, MemberSet.replace_of_frozen (h.frozen ▸ open?)]
    exact .refuse h (.frozen _ _)
  | false =>
    rw [replace_of_open open?, MemberSet.replace_of_open (h.frozen ▸ open?)]
    exact .done ⟨rfl, sound, token⟩ a

theorem Spells.contains_iff (h : Spells s m) (v : V) : s.contains v = true ↔ v ∈ m.members := by
  rw [contains, List.contains_iff_mem, h.token]

theorem Spells.isEmpty_iff (h : Spells s m) : s.isEmpty = true ↔ m.members = ∅ := by
  rw [isEmpty, List.isEmpty_iff, List.eq_nil_iff_forall_not_mem, Finset.eq_empty_iff_forall_notMem]
  constructor
  · intro nothing v hv
    exact nothing _ ((h.token v).2 hv)
  · intro nothing c hc
    obtain ⟨v, _, rfl⟩ := List.mem_map.1 (h.sound.declared c hc)
    exact nothing v ((h.token v).1 hc)

section
variable [DecidableEq V]

theorem Spells.clear (h : Spells s m) : s.clear.Matches SameRefusal Spells m.clear := by
  by_cases nothing : m.members = ∅
  · rw [TokenSet.clear, if_pos (h.isEmpty_iff.2 nothing), MemberSet.clear, if_pos nothing]
    exact .done h ()
  · rw [TokenSet.clear, if_neg (mt h.isEmpty_iff.1 nothing), MemberSet.clear, if_neg nothing]
    exact h.replace (.nil T) (by simp) _ ()

theorem Spells.union (h : Spells s m) (h' : Spells t k) :
    (s.union t).Matches SameRefusal Spells (m.union k) := by
  refine h.replace (h.sound.appendMissing h'.sound.declared) (fun v => ?_) _ ()
  rw [mem_appendMissing, h.token, h'.token, Finset.mem_union]

theorem Spells.inter (h : Spells s m) (h' : Spells t k) :
    (s.inter t).Matches SameRefusal Spells (m.inter k) := by
  refine h.replace (h.sound.filter _) (fun v => ?_) _ ()
  rw [(kept_contained _ _).mem, h.token, h'.token, Finset.mem_inter]

theorem Spells.sdiff (h : Spells s m) (h' : Spells t k) :
    (s.sdiff t).Matches SameRefusal Spells (m.sdiff k) := by
  refine h.replace (h.sound.filter _) (fun v => ?_) _ ()
  rw [(kept_uncontained _ _).mem, h.token, h'.token, Finset.mem_sdiff]

theorem Spells.symmDiff (h : Spells s m) (h' : Spells t k) :
    (s.symmDiff t).Matches SameRefusal Spells (m.symmDiff k) := by
  refine h.replace (h.sound.symmDiff h'.sound) (fun v => ?_) _ ()
  rw [List.mem_append, (kept_uncontained _ _).mem, (kept_uncontained _ _).mem, h.token, h'.token, Finset.mem_union,
    Finset.mem_sdiff, Finset.mem_sdiff]

theorem token_mem_tokens_iff (lawful : T.Lawful) (room : T.count ≤ n) (v : V) :
    T.token v ∈ T.tokens ↔ v ∈ MemberSet.declared T.toEnumeration n := by
  have fits : T.ordinal v < n := lawful.ordinal_lt_of_le room v
  rw [MemberSet.mem_declared]
  exact ⟨fun _ => ⟨lawful.mem_variants v, fits⟩, fun _ => token_mem_tokens lawful v⟩

variable (lawful : T.Lawful) (distinct : T.DistinctTokens) (room : T.count ≤ n)
include lawful distinct room

theorem Spells.insert (h : Spells s m) (v : V) :
    (s.insert v).Matches SameRefusal Spells (m.insert v) := by
  have fits : T.ordinal v < n := lawful.ordinal_lt_of_le room v
  rw [TokenSet.insert, MemberSet.insert, dif_pos fits]
  by_cases held : v ∈ m.members
  · rw [if_pos ((h.contains_iff v).2 held), if_pos held]
    exact .done h false
  · rw [if_neg (mt (h.contains_iff v).1 held), if_neg held]
    refine h.replace (h.sound.concat (token_mem_tokens lawful v) (mt (h.token v).1 held)) (fun u => ?_) _ true
    rw [List.mem_append, List.mem_singleton, h.token, token_inj lawful distinct, Finset.mem_union,
      Finset.mem_singleton]

theorem Spells.erase (h : Spells s m) (v : V) :
    (s.erase v).Matches SameRefusal Spells (m.erase v) := by
  have fits : T.ordinal v < n := lawful.ordinal_lt_of_le room v
  rw [TokenSet.erase, MemberSet.erase, if_pos fits]
  by_cases held : v ∈ m.members
  · rw [if_pos ((h.contains_iff v).2 held), if_pos held]
    refine h.replace (h.sound.filter _) (fun u => ?_) _ true
    rw [List.mem_filter, h.token, bne_iff_ne, ne_eq, token_inj lawful distinct, Finset.mem_sdiff,
      Finset.mem_singleton]
  · rw [if_neg (mt (h.contains_iff v).1 held), if_neg held]
    exact .done h false

theorem Spells.insertAll (h : Spells s m)
    (vs : List V) : (s.insertAll vs).Matches SameRefusal Spells (m.insertAll vs) := by
  induction vs generalizing s m with
  | nil => exact .done h ()
  | cons v vs ih => exact (h.insert lawful distinct room v).andThen fun _ next => ih next

theorem Spells.assign (h : Spells s m)
    (vs : List V) : (s.assign vs).Matches SameRefusal Spells (m.assign vs) := by
  rw [MemberSet.assign_eq]
  exact h.clear.andThen fun _ next => next.insertAll lawful distinct room vs

theorem Spells.compl (h : Spells s m) :
    s.compl.Matches SameRefusal Spells m.compl := by
  refine h.replace ((Sound.tokens distinct).filter _) (fun v => ?_) _ ()
  rw [(kept_uncontained _ _).mem, token_mem_tokens_iff lawful room, h.token, Finset.mem_sdiff]

theorem simulation (holder : String) :
    Simulation (S := TokenSet T) (T := MemberSet T.toEnumeration n holder) Empty.elim id SameRefusal Spells where
  noHandle := .noHandle
  empty := .empty
  full := ⟨rfl, .tokens distinct, token_mem_tokens_iff lawful room⟩
  ofVariants vs := (Spells.empty.assign lawful distinct room vs).state
  ofSource r := r.elim
  copy h := ⟨rfl, h.sound, h.token⟩
  freeze h := ⟨rfl, h.sound, h.token⟩
  insert v h := h.insert lawful distinct room v
  erase v h := h.erase lawful distinct room v
  clear h := h.clear
  assign vs h := h.assign lawful distinct room vs
  union h h' := h.union h'
  inter h h' := h.inter h'
  sdiff h h' := h.sdiff h'
  symmDiff h h' := h.symmDiff h'
  compl h := h.compl lawful distinct room

end

/-- A sound set and a bit set of the same variants cannot be told apart but by order. -/
structure Twins {w : Width} (t : TokenSet T) (b : BitSet T.toEnumeration w) : Prop where
  frozen : t.frozen = b.frozen
  contains (v : V) : t.contains v = b.contains v
  size : t.size = b.size
  isEmpty : t.isEmpty = b.isEmpty
  walks : ∃ vs : List V, Yields Cursor.next t.cursor (vs.map .ok) ∧ Yields BitSet.Cursor.next b.cursor b.toList ∧
    vs.Perm b.toList

theorem Spells.exists_variants (lawful : T.Lawful) (distinct : T.DistinctTokens) (h : Spells s m) :
    ∃ vs : List V, Yields Cursor.next s.cursor (vs.map .ok) ∧ vs.Nodup ∧ vs.length = s.size ∧
      ∀ v, v ∈ vs ↔ v ∈ m.members := by
  obtain ⟨vs, items, spelled, nodup⟩ := h.sound.exists_variants
  refine ⟨vs, items ▸ yields_toList s, nodup, ?_, fun v => ?_⟩
  · rw [size, ← spelled, List.length_map]
  · rw [← h.token, ← spelled, List.mem_map]
    constructor
    · intro hv
      exact ⟨v, hv, rfl⟩
    · rintro ⟨u, hu, same⟩
      rwa [← (token_inj lawful distinct).1 same]

theorem Spells.twins {w : Width} {b : BitSet T.toEnumeration w} {m : BitSet.Members T.toEnumeration w}
    (lawful : T.Lawful) (distinct : T.DistinctTokens) (h : Spells s m) (h' : BitSet.Shows b m) : Twins s b := by
  obtain ⟨vs, yields, nodup, length, mem⟩ := h.exists_variants lawful distinct
  have once : b.toList.Nodup := by
    refine h'.ascending.imp fun lt same => ?_
    exact Nat.lt_irrefl _ (same ▸ lt)
  have perm : vs.Perm b.toList := by
    rw [List.perm_ext_iff_of_nodup nodup once]
    intro v
    rw [mem, h'.mem_toList]
  refine ⟨h.frozen.trans h'.frozen.symm, fun v => ?_, ?_, ?_, vs, yields, h'.yields, perm⟩
  · rw [Bool.eq_iff_iff, h.contains_iff, h'.contains]
  · classical
    have members : vs.toFinset = m.members := by
      ext v
      rw [List.mem_toFinset, mem]
    rw [h'.size, ← members, List.toFinset_card_of_nodup nodup, length]
  · rw [Bool.eq_iff_iff, h.isEmpty_iff, h'.isEmpty]

/-- In every script token sets and bit sets with room for all variants answer alike, and the sets that they
come to are twins, also behind handles. As the script is any, this holds after each of its steps. -/
theorem play_twins (lawful : T.Lawful) (distinct : T.DistinctTokens) {w : Width} (room : T.count ≤ w.capacity)
    (script : List (Command V Empty)) :
    let tokens := Session.play (TokenSet T) Empty.elim script
    let bits := Session.play (BitSet T.toEnumeration w) Empty.elim script
    List.Forall₂ (Alike SameRefusal Eq) tokens.1 bits.1 ∧ Session.Related Twins tokens.2 bits.2 := by
  classical
  intro tokens bits
  have all : T.count ≤ BitSet.limit T.toEnumeration w := Nat.le_min.2 ⟨room, Nat.le_refl _⟩
  obtain ⟨answers, spelled⟩ := (simulation lawful distinct all (BitSet.typeName T.toEnumeration w)).play script
  have covered := covers_limit lawful distinct w
  obtain ⟨answers', depicted⟩ := (BitSet.simulation lawful covered).play script
  refine ⟨?_, spelled.join depicted fun h h' => h.twins lawful distinct (h'.shows lawful covered)⟩
  have same : bits.1 = _ := Alike.eq_of_forall₂ answers'
  exact same ▸ answers

def orderScript (first last : V) : List (Command V Empty) :=
  [.mutate 0 (.assign [last, first, last]), .create 1 .full, .mutate 1 (.erase first), .mutate 0 (.symmDiff 1),
    .wrap 0 0, .unwrap 2 0, .mutate 2 (.insert last), .mutate 2 .compl]

theorem play_twins_three :
    (three.Lawful ∧ three.DistinctTokens ∧ three.count ≤ Width.byte.capacity) ∧
      let tokens := Session.play (TokenSet three) Empty.elim (orderScript 0 2)
      let bits := Session.play (BitSet three.toEnumeration .byte) Empty.elim (orderScript 0 2)
      (List.Forall₂ (Alike SameRefusal Eq) tokens.1 bits.1 ∧ Session.Related Twins tokens.2 bits.2) ∧
      (tokens.2.sets 2).contents = ['A', 'B'] ∧ (bits.2.sets 2).bitmap = 3#8 := by
  have lawful : three.Lawful := TokenTable.ofPairs_lawful _ _
  have distinct : three.DistinctTokens := by unfold TokenTable.DistinctTokens; decide
  have room : three.count ≤ Width.byte.capacity := by decide
  exact ⟨⟨lawful, distinct, room⟩, play_twins lawful distinct room (orderScript 0 2), rfl, rfl⟩

end VariantSets.TokenSet
