import VariantSets.Proofs.TokenSet.Algebra
import VariantSets.Proofs.TokenSet.Validity

/-! Operations on whole sets against loops that go through a walk one variant at a time. On open sets a loop comes to a
fold over the tokens of the variants, and for valid contents each fold comes to what the operation does at once. -/
namespace VariantSets.TokenSet

variable {V : Type} {T : TokenTable V}

/-- One step for each variant that a walk gives, up to the first item that is a fault or step that is refused. -/
def each (step : TokenSet T → V → Outcome (TokenSet T) Bool) (s : TokenSet T) :
    List (Except Fault V) → Outcome (TokenSet T) Unit
  | [] => .done s ()
  | .error f :: _ => .refuse s f
  | .ok v :: items => (step s v).andThen fun t _ => t.each step items

def toggle (s : TokenSet T) (v : V) : Outcome (TokenSet T) Bool :=
  if s.contains v then s.erase v else s.insert v

def eraseUnless (t s : TokenSet T) (v : V) : Outcome (TokenSet T) Bool :=
  if t.contains v then .done s false else s.erase v

def insertToken (cs : List Char) (d : Char) : List Char := appendMissing cs [d]

def eraseToken (cs : List Char) (d : Char) : List Char := cs.filter (· != d)

def toggleToken (cs : List Char) (d : Char) : List Char := if d ∈ cs then eraseToken cs d else insertToken cs d

def eraseTokenUnless (ds cs : List Char) (d : Char) : List Char := if d ∈ ds then cs else eraseToken cs d

/-- A step does to the contents of an open set what `f` does with the token of the variant, and is not refused. -/
def Acts (step : TokenSet T → V → Outcome (TokenSet T) Bool) (f : List Char → Char → List Char) : Prop :=
  ∀ cs v, ∃ a, step ⟨cs, false⟩ v = .done ⟨f cs (T.token v), false⟩ a

theorem acts_insert : Acts (T := T) insert insertToken := by
  intro cs v
  exact ⟨_, insert_of_open rfl v⟩

theorem acts_erase : Acts (T := T) erase eraseToken := by
  intro cs v
  exact ⟨_, erase_of_open rfl v⟩

theorem acts_toggle : Acts (T := T) toggle toggleToken := by
  intro cs v
  by_cases there : T.token v ∈ cs
  · have held : contains (T := T) ⟨cs, false⟩ v = true := List.contains_iff_mem.2 there
    rw [toggle, if_pos held, toggleToken, if_pos there]
    exact acts_erase cs v
  · have absent : ¬ contains (T := T) ⟨cs, false⟩ v = true := mt List.contains_iff_mem.1 there
    rw [toggle, if_neg absent, toggleToken, if_neg there]
    exact acts_insert cs v

theorem acts_eraseUnless (t : TokenSet T) : Acts (eraseUnless t) (eraseTokenUnless t.contents) := by
  intro cs v
  by_cases there : T.token v ∈ t.contents
  · have held : t.contains v = true := List.contains_iff_mem.2 there
    rw [eraseUnless, if_pos held, eraseTokenUnless, if_pos there]
    exact ⟨false, rfl⟩
  · have absent : ¬ t.contains v = true := mt List.contains_iff_mem.1 there
    rw [eraseUnless, if_neg absent, eraseTokenUnless, if_neg there]
    exact acts_erase cs v

theorem each_of_acts {step : TokenSet T → V → Outcome (TokenSet T) Bool} {f : List Char → Char → List Char}
    (acts : Acts step f) (cs : List Char) (vs : List V) :
    each step ⟨cs, false⟩ (vs.map .ok) = .done ⟨(vs.map T.token).foldl f cs, false⟩ () := by
  induction vs generalizing cs with
  | nil => rfl
  | cons v vs ih =>
    obtain ⟨a, stepped⟩ := acts cs v
    simp only [List.map_cons, each, stepped, Outcome.andThen_done, ih, List.foldl_cons]

theorem foldl_insertToken (cs ds : List Char) : ds.foldl insertToken cs = appendMissing cs ds := rfl

theorem foldl_eraseToken (cs ds : List Char) :
    ds.foldl eraseToken cs = cs.filter fun c => !ds.contains c := by
  induction ds generalizing cs with
  | nil => simp
  | cons d ds ih =>
    rw [List.foldl_cons, ih, eraseToken, List.filter_filter]
    refine List.filter_congr fun c _ => ?_
    rw [List.contains_cons, Bool.not_or, Bool.and_comm, bne]

theorem foldl_eraseTokenUnless (ds cs es : List Char) :
    es.foldl (eraseTokenUnless ds) cs = cs.filter fun c => ds.contains c || !es.contains c := by
  -- What is not in `ds` goes as soon as the loop comes to it.
  induction es generalizing cs with
  | nil => simp
  | cons e es ih =>
    rw [List.foldl_cons, ih]
    by_cases there : e ∈ ds
    · rw [eraseTokenUnless, if_pos there]
      refine List.filter_congr fun c _ => ?_
      grind
    · rw [eraseTokenUnless, if_neg there, eraseToken, List.filter_filter]
      refine List.filter_congr fun c _ => ?_
      grind

theorem foldl_toggleToken {ds : List Char} (once : ds.Nodup) (cs : List Char) :
    ds.foldl toggleToken cs =
      (cs.filter fun c => !ds.contains c) ++ ds.filter fun d => !cs.contains d := by
  -- A character that the loop comes to once is turned over once, and the others stay where they are.
  induction ds generalizing cs with
  | nil => simp
  | cons d ds ih =>
    obtain ⟨new, once⟩ := List.nodup_cons.1 once
    rw [List.foldl_cons, ih once]
    by_cases there : d ∈ cs
    · have turned : toggleToken cs d = eraseToken cs d := if_pos there
      have left : (eraseToken cs d).filter (fun c => !ds.contains c) = cs.filter fun c => !(d :: ds).contains c := by
        rw [eraseToken, List.filter_filter]
        refine List.filter_congr fun c _ => ?_
        grind
      have right : ds.filter (fun c => !(eraseToken cs d).contains c) = (d :: ds).filter fun c => !cs.contains c := by
        rw [List.filter_cons_of_neg (by simpa using there)]
        refine List.filter_congr fun c hc => ?_
        have other : c ≠ d := fun same => new (same ▸ hc)
        simp [eraseToken, other]
      rw [turned, left, right]
    · have turned : toggleToken cs d = cs ++ [d] := by simp [toggleToken, insertToken, appendMissing, there]
      have left : (cs ++ [d]).filter (fun c => !ds.contains c) = (cs.filter fun c => !(d :: ds).contains c) ++ [d] := by
        rw [List.filter_append]
        refine congrArg₂ (· ++ ·) (List.filter_congr fun c hc => ?_) (by simpa using new)
        have other : c ≠ d := fun same => there (same ▸ hc)
        simp [other]
      have right : ds.filter (fun c => !(cs ++ [d]).contains c) = ds.filter fun c => !cs.contains c := by
        refine List.filter_congr fun c hc => ?_
        have other : c ≠ d := fun same => new (same ▸ hc)
        simp [other]
      rw [turned, left, right, List.filter_cons_of_pos (by simpa using there), List.append_assoc]
      rfl

theorem exists_variants_of_valid {s : TokenSet T} (valid : s.validate = .ok ()) :
    ∃ vs : List V, s.toList = vs.map .ok ∧ vs.map T.token = s.contents ∧ s.contents.Nodup := by
  have sound := validate_eq_ok.1 valid
  obtain ⟨vs, items, spelled, _⟩ := sound.exists_variants
  exact ⟨vs, items, spelled, sound.nodup⟩

theorem each_toList {step : TokenSet T → V → Outcome (TokenSet T) Bool} {f : List Char → Char → List Char}
    (acts : Acts step f) {s t : TokenSet T} (opened : s.frozen = false) (valid : t.validate = .ok ()) :
    s.each step t.toList = .done ⟨t.contents.foldl f s.contents, false⟩ () := by
  obtain ⟨vs, items, spelled, _⟩ := exists_variants_of_valid valid
  obtain ⟨cs, frozen⟩ := s
  cases opened
  rw [items, each_of_acts acts, spelled]

/-- Two requests are both carried out, and leave the same text behind. -/
def Agree (o p : Outcome (TokenSet T) Unit) : Prop :=
  ∃ cs, o = .done ⟨cs, false⟩ () ∧ p = .done ⟨cs, false⟩ ()

/-- On valid sets, if the first is open, each operation leaves the very text that a loop over the walk of one of them
leaves. For the complement of an open set the full set is enough, whatever the set holds. -/
theorem algebra_eq_loops (T : TokenTable V) :
    (∀ s t : TokenSet T, s.frozen = false → s.validate = .ok () → t.validate = .ok () →
      Yields Cursor.next s.cursor s.toList ∧ Yields Cursor.next t.cursor t.toList ∧
      Agree (s.union t) (s.each insert t.toList) ∧
      Agree (s.sdiff t) (s.each erase t.toList) ∧
      Agree (s.inter t) (s.each (eraseUnless t) s.toList) ∧
      Agree (s.symmDiff t) (s.each toggle t.toList)) ∧
    ∀ s : TokenSet T, s.frozen = false → Agree s.compl ((full T).sdiff s) := by
  constructor
  · intro s t opened valid valid'
    have united := each_toList acts_insert opened valid'
    have excluded := each_toList acts_erase opened valid'
    have met := each_toList (acts_eraseUnless t) opened valid
    have either := each_toList acts_toggle opened valid'
    have once : t.contents.Nodup := (validate_eq_ok.1 valid').nodup
    have kept : s.contents.filter (fun c => t.contents.contains c || !s.contents.contains c) =
        s.contents.filter fun c => t.contents.contains c := by
      refine List.filter_congr fun c hc => ?_
      rw [List.contains_iff_mem.2 hc, Bool.not_true, Bool.or_false]
    rw [foldl_insertToken] at united
    rw [foldl_eraseToken] at excluded
    rw [foldl_eraseTokenUnless, kept] at met
    rw [foldl_toggleToken once] at either
    refine ⟨yields_toList s, yields_toList t, ⟨_, ?_, united⟩, ⟨_, ?_, excluded⟩, ⟨_, ?_, met⟩, ⟨_, ?_, either⟩⟩
    all_goals exact replace_of_open opened _ ()
  · intro s opened
    exact ⟨_, replace_of_open opened _ (), replace_of_open rfl _ ()⟩

theorem algebra_eq_loops_three :
    let s : TokenSet three := ⟨['C', 'A'], false⟩
    let t : TokenSet three := ⟨['A', 'B'], true⟩
    (s.frozen = false ∧ s.validate = .ok () ∧ t.validate = .ok ()) ∧
      (Yields Cursor.next s.cursor s.toList ∧ Yields Cursor.next t.cursor t.toList ∧
        Agree (s.union t) (s.each insert t.toList) ∧
        Agree (s.sdiff t) (s.each erase t.toList) ∧
        Agree (s.inter t) (s.each (eraseUnless t) s.toList) ∧
        Agree (s.symmDiff t) (s.each toggle t.toList)) ∧
      Agree s.compl ((full three).sdiff s) ∧
      (s.symmDiff t).after.contents = ['C', 'B'] ∧ (s.union t).after.contents = ['C', 'A', 'B'] := by
  intro s t
  have valid : s.validate = .ok () := by decide
  have valid' : t.validate = .ok () := by decide
  exact ⟨⟨rfl, valid, valid'⟩, (algebra_eq_loops three).1 s t rfl valid valid', (algebra_eq_loops three).2 s rfl,
    by decide, by decide⟩

end VariantSets.TokenSet
