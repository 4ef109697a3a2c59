import Mathlib.Data.List.Nodup
import VariantSets.Proofs.Simulation
import VariantSets.Proofs.Walk
import VariantSets.TokenSet.Family

/-! Contents that additions can build: declared tokens, none of them twice. Every way to a token set but the
unchecked one leads to such contents, and every change keeps them, so that a walk over a set that was reached
meets each of its members once and nothing else. -/
namespace VariantSets.TokenSet

variable {V : Type} {T : TokenTable V}

/-- Every character is a declared token, and none occurs twice. -/
structure Sound (T : TokenTable V) (cs : List Char) : Prop where
  declared (c : Char) : c ∈ cs → c ∈ T.tokens
  nodup : cs.Nodup

theorem isNone_ofToken? {c : Char} : (T.ofToken? c).isNone = true ↔ c ∉ T.tokens := by
  rw [Option.isNone_iff_eq_none, TokenTable.ofToken?_eq_none]

theorem validateFrom_eq_ok {before cs : List Char} :
    validateFrom T before cs = .ok () ↔
      (∀ c ∈ cs, c ∈ T.tokens) ∧ (∀ c ∈ cs, c ∉ before) ∧ cs.Nodup := by
  induction cs generalizing before with
  | nil => simp [validateFrom]
  | cons c cs ih =>
    rw [validateFrom]
    by_cases declared : c ∈ T.tokens
    · rw [if_neg fun unknown => isNone_ofToken?.1 unknown declared]
      by_cases again : c ∈ before
      · rw [if_pos (List.contains_iff_mem.2 again)]
        constructor
        · intro h
          cases h
        · intro h
          exact absurd again (h.2.1 c List.mem_cons_self)
      · rw [if_neg (mt List.contains_iff_mem.1 again), ih, List.nodup_cons]
        grind
    · rw [if_pos (isNone_ofToken?.2 declared)]
      constructor
      · intro h
        cases h
      · intro h
        exact absurd (h.1 c List.mem_cons_self) declared

theorem validate_eq_ok {s : TokenSet T} : s.validate = .ok () ↔ Sound T s.contents := by
  rw [validate, validateFrom_eq_ok]
  constructor
  · rintro ⟨declared, _, nodup⟩
    exact ⟨declared, nodup⟩
  · intro h
    exact ⟨h.declared, fun _ _ => List.not_mem_nil, h.nodup⟩

theorem parse_eq_ok {cs : List Char} {s : TokenSet T} :
    parse T cs = .ok s ↔ (ofContents T cs).validate = .ok () ∧ s = ofContents T cs := by
  unfold parse
  cases (ofContents T cs).validate with
  | error f => simp [Except.map]
  | ok _ => simp [Except.map, eq_comm]

theorem parse_eq_error {cs : List Char} {f : Fault} :
    parse T cs = .error f ↔ (ofContents T cs).validate = .error f := by
  unfold parse
  cases (ofContents T cs).validate <;> simp [Except.map]

theorem sound_of_parse {cs : List Char} {s : TokenSet T} (h : parse T cs = .ok s) : Sound T s.contents := by
  obtain ⟨valid, rfl⟩ := parse_eq_ok.1 h
  exact validate_eq_ok.1 valid

theorem sound_of_ofRead {read : Option (List Char)} {s : TokenSet T} (h : ofRead T read = .ok s) :
    Sound T s.contents := by
  cases read with
  | none => cases h
  | some cs => exact sound_of_parse (mapError_eq_ok.1 h)

namespace Sound
variable {cs ds : List Char}

theorem nil (T : TokenTable V) : Sound T [] := by
  refine ⟨?_, .nil⟩
  simp

theorem tokens (distinct : T.DistinctTokens) : Sound T T.tokens := by
  refine ⟨?_, distinct⟩
  intro c hc
  exact hc

theorem filter (h : Sound T cs) (keep : Char → Bool) : Sound T (cs.filter keep) := by
  refine ⟨?_, h.nodup.filter keep⟩
  intro c hc
  exact h.declared c (List.mem_filter.1 hc).1

theorem append (h : Sound T cs) (h' : Sound T ds) (apart : ∀ c ∈ cs, c ∉ ds) : Sound T (cs ++ ds) := by
  refine ⟨fun c hc => ?_, List.nodup_append.2 ⟨h.nodup, h'.nodup, ?_⟩⟩
  · exact (List.mem_append.1 hc).elim (h.declared c) (h'.declared c)
  · rintro c hc _ hd rfl
    exact apart c hc hd

theorem concat (h : Sound T cs) {c : Char} (declared : c ∈ T.tokens) (fresh : c ∉ cs) : Sound T (cs ++ [c]) := by
  refine h.append ⟨fun d hd => ?_, List.nodup_singleton c⟩ fun d hd same => ?_
  · rwa [List.mem_singleton.1 hd]
  · exact fresh (List.mem_singleton.1 same ▸ hd)

theorem appendMissing (h : Sound T cs) (h' : ∀ d ∈ ds, d ∈ T.tokens) : Sound T (appendMissing cs ds) := by
  induction ds generalizing cs with
  | nil => exact h
  | cons d ds ih =>
    rw [TokenSet.appendMissing, List.foldl_cons]
    apply ih _ fun e he => h' e (List.mem_cons_of_mem d he)
    by_cases there : d ∈ cs
    · rwa [if_pos (List.contains_iff_mem.2 there)]
    · rw [if_neg (mt List.contains_iff_mem.1 there)]
      exact h.concat (h' d List.mem_cons_self) there

theorem symmDiff (h : Sound T cs) (h' : Sound T ds) :
    Sound T ((cs.filter fun c => !ds.contains c) ++ ds.filter fun d => !cs.contains d) := by
  refine (h.filter _).append (h'.filter _) fun c hc hd => ?_
  have absent : c ∉ cs := by simpa using (List.mem_filter.1 hd).2
  exact absent (List.mem_filter.1 hc).1

end Sound

theorem sound_replace {A : Type} {s : TokenSet T} {cs : List Char} (h : Sound T s.contents) (h' : Sound T cs)
    (a : A) : Sound T (s.replace cs a).after.contents := by
  cases open? : s.frozen with
  | true => rwa [replace_of_frozen open?]
  | false => rwa [replace_of_open open?]

theorem token_mem_tokens (lawful : T.Lawful) (v : V) : T.token v ∈ T.tokens := by
  rw [TokenTable.tokens]
  exact List.mem_map_of_mem (lawful.mem_variants v)

section
variable {s t : TokenSet T} (h : Sound T s.contents)
include h

theorem sound_insert (lawful : T.Lawful) (v : V) : Sound T (s.insert v).after.contents := by
  rw [insert]
  split
  · exact h
  · rename_i absent
    refine sound_replace h (h.concat (token_mem_tokens lawful v) ?_) true
    exact mt List.contains_iff_mem.2 absent

theorem sound_erase (v : V) : Sound T (s.erase v).after.contents := by
  rw [erase]
  split
  · exact sound_replace h (h.filter _) true
  · exact h

theorem sound_clear : Sound T s.clear.after.contents := by
  rw [clear]
  split
  · exact h
  · exact sound_replace h (.nil T) ()

theorem sound_insertAll (lawful : T.Lawful) (vs : List V) : Sound T (s.insertAll vs).after.contents := by
  induction vs generalizing s with
  | nil => exact h
  | cons v vs ih =>
    exact Outcome.after_andThen (p := fun t : TokenSet T => Sound T t.contents) (sound_insert h lawful v) fun _ _ => ih

theorem sound_assign (lawful : T.Lawful) (vs : List V) : Sound T (s.assign vs).after.contents := by
  refine Outcome.after_andThen (p := fun t : TokenSet T => Sound T t.contents) (sound_clear h) ?_
  intro t _ next
  exact sound_insertAll next lawful vs

end

inductive CheckedSource
  | text (cs : List Char)
  | json (cs : List Char)
  | binary (bytes : List UInt8)

def CheckedSource.source : CheckedSource → Source
  | .text cs => .checked cs
  | .json cs => .json cs
  | .binary bytes => .binary bytes

theorem sound_of_source {r : CheckedSource} {s : TokenSet T} (h : ofSource T r.source = .ok s) :
    Sound T s.contents := by
  cases r with
  | text cs => exact sound_of_parse (mapError_eq_ok.1 h)
  | json cs => exact sound_of_ofRead (mapError_eq_ok.1 h)
  | binary bytes => exact sound_of_ofRead (mapError_eq_ok.1 h)

theorem invariant (lawful : T.Lawful) (distinct : T.DistinctTokens) :
    Invariant CheckedSource.source fun s : TokenSet T => Sound T s.contents where
  empty := .nil T
  full := .tokens distinct
  ofVariants vs _ made := Outcome.after_of_state made ▸ sound_assign (s := empty T) (.nil T) lawful vs
  ofSource _ _ made := sound_of_source made
  copy h := h
  freeze h := h
  insert v h := sound_insert h lawful v
  erase v h := sound_erase h v
  clear h := sound_clear h
  assign vs h := sound_assign h lawful vs
  union h h' := sound_replace h (h.appendMissing h'.declared) ()
  inter h _ := sound_replace h (h.filter _) ()
  sdiff h _ := sound_replace h (h.filter _) ()
  symmDiff h h' := sound_replace h (h.symmDiff h') ()
  compl h := sound_replace h ((Sound.tokens distinct).filter _) ()

theorem Sound.exists_variants {cs : List Char} (h : Sound T cs) :
    ∃ vs : List V, cs.map (item T) = vs.map .ok ∧ vs.map T.token = cs ∧ vs.Nodup := by
  suffices read : ∃ vs : List V, cs.map (item T) = vs.map .ok ∧ vs.map T.token = cs by
    obtain ⟨vs, items, spelled⟩ := read
    exact ⟨vs, items, spelled, .of_map T.token (spelled ▸ h.nodup)⟩
  have declared := h.declared
  -- The tail of the contents is read on its own, for which it need not be without repetition.
  clear h
  induction cs with
  | nil => exact ⟨[], rfl, rfl⟩
  | cons c cs ih =>
    obtain ⟨vs, items, spelled⟩ := ih fun d hd => declared d (List.mem_cons_of_mem c hd)
    obtain ⟨v, found⟩ := Option.isSome_iff_exists.1 (TokenTable.ofToken?_isSome.2 (declared c List.mem_cons_self))
    refine ⟨v :: vs, ?_, ?_⟩
    · rw [List.map_cons, List.map_cons, items, item, found]
    · rw [List.map_cons, spelled, TokenTable.token_of_ofToken? found]

/-- In every script from checked sources, whatever is refused on the way, every set that is reached is valid.
The walk over it meets different variants only, as many as its size, which spell its contents. -/
theorem play_valid (lawful : T.Lawful) (distinct : T.DistinctTokens) (script : List (Command V CheckedSource))
    (i : Nat) :
    let s := (Session.play (TokenSet T) CheckedSource.source script).2.sets i
    s.validate = .ok () ∧ (∀ c ∈ s.contents, ∃ v ∈ T.variants, T.token v = c) ∧ s.contents.Nodup ∧
      ∃ vs : List V, Yields Cursor.next s.cursor (vs.map .ok) ∧ vs.Nodup ∧ vs.length = s.size ∧
        vs.map T.token = s.contents := by
  intro s
  have sound : Sound T s.contents := (invariant lawful distinct).play script i
  obtain ⟨vs, items, spelled, nodup⟩ := sound.exists_variants
  refine ⟨validate_eq_ok.2 sound, fun c hc => List.mem_map.1 (sound.declared c hc), sound.nodup, vs, ?_, nodup, ?_,
    spelled⟩
  · exact items ▸ yields_toList s
  · rw [size, ← spelled, List.length_map]

def three : TokenTable (Fin 3) := .ofPairs "Three" [("Active", 'A'), ("Blocked", 'B'), ("Closed", 'C')]

def threeScript : List (Command (Fin 3) CheckedSource) :=
  [.create 0 (.ofSource (.text ['C', 'A'])), .create 1 .full, .create 1 (.ofSource (.text ['A', 'x'])),
    .create 0 (.ofSource (.json ['"', 'B', 'B', '"'])), .mutate 1 (.erase 2), .mutate 0 (.symmDiff 1),
    .mutate 0 .freeze, .mutate 0 .compl]

theorem play_valid_three :
    (three.Lawful ∧ three.DistinctTokens) ∧
      let s := (Session.play (TokenSet three) CheckedSource.source threeScript).2.sets 0
      (s.validate = .ok () ∧ (∀ c ∈ s.contents, ∃ v ∈ three.variants, three.token v = c) ∧ s.contents.Nodup ∧
        ∃ vs : List (Fin 3), Yields Cursor.next s.cursor (vs.map .ok) ∧ vs.Nodup ∧ vs.length = s.size ∧
          vs.map three.token = s.contents) := by
  have lawful : three.Lawful := TokenTable.ofPairs_lawful _ _
  have distinct : three.DistinctTokens := by unfold TokenTable.DistinctTokens; decide
  exact ⟨⟨lawful, distinct⟩, play_valid lawful distinct threeScript 0⟩

end VariantSets.TokenSet
