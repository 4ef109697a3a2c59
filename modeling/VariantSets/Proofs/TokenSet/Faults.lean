import Mathlib.Data.Nat.Find
import VariantSets.Proofs.TokenSet.Algebra
import VariantSets.Proofs.TokenSet.Validity

/-! The first fault of a text. Contents are refused at the first place where a character is no declared token or has
stood before, for what is wrong with it there; what comes behind that place has no say. Contents without such a place
are those over which a walk meets different variants and nothing else. -/
namespace VariantSets.TokenSet

variable {V : Type} {T : TokenTable V} {cs ds : List Char} {c : Char} {i : Nat}

/-- The character at a place is no declared token, or is also in front of it. -/
def FaultAt (T : TokenTable V) (cs : List Char) (i : Nat) (c : Char) : Prop :=
  cs[i]? = some c ∧ (c ∉ T.tokens ∨ c ∈ cs.take i)

def FirstFault (T : TokenTable V) (cs : List Char) (i : Nat) (c : Char) : Prop :=
  FaultAt T cs i c ∧ ∀ j < i, ∀ d, ¬ FaultAt T cs j d

def blame (T : TokenTable V) (c : Char) : Fault :=
  -- What is wrong with a character. That it is unknown comes before that it is repeated.
  if c ∈ T.tokens then .duplicateToken c else .invalidToken c

theorem sound_concat_iff : Sound T (cs ++ [c]) ↔ Sound T cs ∧ c ∈ T.tokens ∧ c ∉ cs := by
  constructor
  · intro h
    obtain ⟨nodup, _, apart⟩ := List.nodup_append.1 h.nodup
    refine ⟨⟨fun d hd => h.declared d (List.mem_append_left _ hd), nodup⟩, h.declared c (by simp), fun hc => ?_⟩
    exact apart c hc c (List.mem_singleton_self c) rfl
  · rintro ⟨sound, declared, fresh⟩
    exact sound.concat declared fresh

theorem sound_take_iff {n : Nat} : Sound T (cs.take n) ↔ ∀ i < n, ∀ c, ¬ FaultAt T cs i c := by
  induction n with
  | zero =>
    constructor
    · intro _ i below
      omega
    · intro _
      exact .nil T
  | succ n ih =>
    have split : (∀ i < n + 1, ∀ c, ¬ FaultAt T cs i c) ↔
        (∀ i < n, ∀ c, ¬ FaultAt T cs i c) ∧ ∀ c, ¬ FaultAt T cs n c := Nat.forall_lt_succ_right
    rw [split, ← ih, List.take_add_one]
    cases found : cs[n]? with
    | none => simp [FaultAt, found]
    | some c =>
      simp only [Option.toList_some, sound_concat_iff, FaultAt, found, Option.some.injEq]
      grind

theorem sound_iff_no_fault : Sound T cs ↔ ∀ i c, ¬ FaultAt T cs i c := by
  have whole : Sound T (cs.take cs.length) ↔ ∀ i < cs.length, ∀ c, ¬ FaultAt T cs i c := sound_take_iff
  rw [List.take_length] at whole
  rw [whole]
  constructor
  · intro none i c fault
    have inside : i < cs.length := (List.getElem?_eq_some_iff.1 fault.1).1
    exact none i inside c fault
  · intro none i _ c
    exact none i c

theorem exists_firstFault (unsound : ¬ Sound T cs) : ∃ i c, FirstFault T cs i c := by
  classical
  have faulty : ∃ i c, FaultAt T cs i c := by
    simpa only [sound_iff_no_fault, not_forall, not_not] using unsound
  obtain ⟨c, fault⟩ := Nat.find_spec faulty
  exact ⟨Nat.find faulty, c, fault, fun j below d earlier => Nat.find_min faulty below ⟨d, earlier⟩⟩

theorem validateFrom_append (T : TokenTable V) (before cs ds : List Char) :
    validateFrom T before (cs ++ ds) =
      (validateFrom T before cs).bind fun _ => validateFrom T (before ++ cs) ds := by
  induction cs generalizing before with
  | nil => simp only [List.nil_append, List.append_nil, validateFrom, Except.bind]
  | cons c cs ih =>
    simp only [List.cons_append, validateFrom]
    split
    · rfl
    split
    · rfl
    · simp only [ih, List.append_assoc, List.singleton_append]

theorem validateFrom_of_faulty {before : List Char} (faulty : c ∉ T.tokens ∨ c ∈ before) (cs : List Char) :
    validateFrom T before (c :: cs) = .error (blame T c) := by
  by_cases declared : c ∈ T.tokens
  · have known : ¬ (T.ofToken? c).isNone = true := fun unknown => isNone_ofToken?.1 unknown declared
    have again : before.contains c = true := List.contains_iff_mem.2 (faulty.resolve_left (not_not_intro declared))
    simp only [validateFrom, if_neg known, if_pos again, blame, if_pos declared]
  · simp only [validateFrom, if_pos (isNone_ofToken?.2 declared), blame, if_neg declared]

theorem FirstFault.validate (h : FirstFault T cs i c) (rest : List Char) :
    (ofContents T (cs.take (i + 1) ++ rest)).validate = .error (blame T c) := by
  obtain ⟨⟨found, faulty⟩, least⟩ := h
  have front : validateFrom T [] (cs.take i) = .ok () := validate_eq_ok (s := ofContents T _).2 (sound_take_iff.2 least)
  have text : cs.take (i + 1) ++ rest = cs.take i ++ c :: rest := by simp [List.take_add_one, found]
  calc (ofContents T (cs.take (i + 1) ++ rest)).validate
      = validateFrom T [] (cs.take i ++ c :: rest) := congrArg (validateFrom T []) text
    _ = validateFrom T (cs.take i) (c :: rest) := by rw [validateFrom_append, front]; rfl
    _ = .error (blame T c) := validateFrom_of_faulty faulty rest

theorem validate_eq_error {s : TokenSet T} {f : Fault} :
    s.validate = .error f ↔ ∃ i c, FirstFault T s.contents i c ∧ f = blame T c := by
  have blamed : ∀ {i c}, FirstFault T s.contents i c → s.validate = .error (blame T c) := by
    intro i c first
    have whole := first.validate (s.contents.drop (i + 1))
    rwa [List.take_append_drop] at whole
  constructor
  · intro refused
    have unsound : ¬ Sound T s.contents := by
      intro sound
      rw [validate_eq_ok.2 sound] at refused
      cases refused
    obtain ⟨i, c, first⟩ := exists_firstFault unsound
    exact ⟨i, c, first, Except.error.inj (refused.symm.trans (blamed first))⟩
  · rintro ⟨i, c, first, rfl⟩
    exact blamed first

theorem sound_iff_variants :
    Sound T cs ↔ ∃ vs : List V, cs.map (item T) = vs.map .ok ∧ vs.Nodup := by
  -- Each declared token is read as a variant of its own, also where variants share their tokens.
  constructor
  · intro sound
    obtain ⟨vs, items, _, nodup⟩ := sound.exists_variants
    exact ⟨vs, items, nodup⟩
  · rintro ⟨vs, items, nodup⟩
    refine ⟨fun c hc => ?_, ?_⟩
    · obtain ⟨v, _, read⟩ := List.mem_map.1 (items ▸ List.mem_map_of_mem hc : item T c ∈ vs.map .ok)
      by_contra unknown
      rw [item, TokenTable.ofToken?_eq_none.2 unknown] at read
      cases read
    · have different : (vs.map (.ok : V → Except Fault V)).Nodup := nodup.map fun _ _ => Except.ok.inj
      exact .of_map (item T) (items ▸ different)

/-- A text is taken exactly if it has no fault, as the open set of its characters in their order, and is else refused
for its first fault, whatever comes behind that. It is taken exactly if a walk over it gives nothing but variants, no
two of them the same. -/
theorem parse_first_fault (s : TokenSet T) :
    (s.validate = .ok () ↔ ∀ i c, ¬ FaultAt T s.contents i c) ∧
    (∀ t, parse T s.contents = .ok t ↔ (∀ i c, ¬ FaultAt T s.contents i c) ∧ t = ⟨s.contents, false⟩) ∧
    (∀ f, s.validate = .error f ↔ ∃ i c, FirstFault T s.contents i c ∧ f = blame T c) ∧
    (∀ f, parse T s.contents = .error f ↔ ∃ i c, FirstFault T s.contents i c ∧ f = blame T c) ∧
    ((∃ t, parse T s.contents = .ok t) ↔
      ∃ vs : List V, Yields Cursor.next s.cursor (vs.map .ok) ∧ vs.Nodup) ∧
    ∀ i c, FirstFault T s.contents i c → ∀ rest,
      (ofContents T (s.contents.take (i + 1) ++ rest)).validate = .error (blame T c) ∧
        parse T (s.contents.take (i + 1) ++ rest) = .error (blame T c) := by
  have taken : ∀ t, parse T s.contents = .ok t ↔ Sound T s.contents ∧ t = ⟨s.contents, false⟩ := by
    intro t
    rw [parse_eq_ok, validate_eq_ok]
    rfl
  refine ⟨?_, ?_, fun f => validate_eq_error, ?_, ?_, ?_⟩
  · rw [validate_eq_ok, sound_iff_no_fault]
  · simpa only [sound_iff_no_fault] using taken
  · intro f
    exact parse_eq_error.trans validate_eq_error
  · simp only [taken, exists_and_left, exists_eq, and_true, sound_iff_variants]
    refine exists_congr fun vs => and_congr_left fun _ => ?_
    constructor
    · intro items
      exact items ▸ yields_toList s
    · intro yields
      exact (yields_toList s).unique yields
  · intro i c first rest
    have refused := first.validate rest
    exact ⟨refused, parse_eq_error.2 refused⟩

theorem parse_first_fault_shared :
    let s : TokenSet shared := ⟨['q', 'p', 'q', 'x'], true⟩
    let t : TokenSet shared := ⟨['r', 'p'], false⟩
    FirstFault shared s.contents 2 'q' ∧
      s.validate = .error (.duplicateToken 'q') ∧
      parse shared (s.contents.take 3 ++ ['r']) = .error (.duplicateToken 'q') ∧
      ∃ vs : List (Fin 4), Yields Cursor.next t.cursor (vs.map .ok) ∧ vs.Nodup := by
  intro s t
  have first : FirstFault shared s.contents 2 'q' := by
    refine ⟨⟨rfl, .inr (by decide)⟩, fun j below => ?_⟩
    exact sound_take_iff.1 (validate_eq_ok (s := ofContents shared ['q', 'p']).1 (by decide)) j below
  obtain ⟨_, _, refused, _, _, behind⟩ := parse_first_fault s
  obtain ⟨_, _, _, _, variants, _⟩ := parse_first_fault t
  have blamed : blame shared 'q' = .duplicateToken 'q' := by decide
  exact ⟨first, (refused _).2 ⟨2, 'q', first, blamed.symm⟩, blamed ▸ (behind 2 'q' first ['r']).2,
    variants.1 ⟨⟨['r', 'p'], false⟩, rfl⟩⟩

end VariantSets.TokenSet
