import Mathlib.Data.List.Induction
import Mathlib.Data.List.Nodup
import VariantSets.Proofs.TokenSet.Algebra
import VariantSets.TokenSet.Family

/-! What the order of the contents says about the past. A history has each step with the answer it had, and an
assignment as the steps it is made of. From a history alone it can be told which tokens there are and in which order;
each step that is put at its end keeps this so. -/
namespace VariantSets

inductive Step (V : Type)
  | insert (v : V)
  | erase (v : V)
  | clear

abbrev Entry (V : Type) := Step V × Except Fault (Option Bool)

inductive Edit (V : Type)
  | step (e : Step V)
  | assign (vs : List V)

section
variable {V O : Type}

def Step.mutation : Step V → Mutation V O
  | insert v => .insert v
  | erase v => .erase v
  | clear => .clear

def Edit.mutation : Edit V → Mutation V O
  | step e => e.mutation
  | assign vs => .assign vs

def Edit.steps : Edit V → List (Step V)
  | step e => [e]
  | assign vs => .clear :: vs.map .insert

end

namespace SetFamily
variable {S V R : Type} [SetFamily S V R]

def history (s : S) (steps : List (Step V)) : List (Entry V) :=
  steps.zip (applyAll s (steps.map Step.mutation)).1

theorem applyAll_append (s : S) (ms ns : List (Mutation V S)) :
    (applyAll s (ms ++ ns)).2 = (applyAll (applyAll s ms).2 ns).2 := by
  induction ms generalizing s with
  | nil => rfl
  | cons m ms ih => exact ih (apply s m).after

end SetFamily

namespace TokenSet
open VariantSets.SetFamily (applyAll history)

variable {V : Type} {T : TokenTable V}

def Adds (T : TokenTable V) (c : Char) (x : Entry V) : Prop :=
  ∃ v, x = (.insert v, .ok (some true)) ∧ T.token v = c

/-- A step after which a token is not there. -/
def Ends (T : TokenTable V) (c : Char) (x : Entry V) : Prop :=
  x.1 = .clear ∨ ∃ v, x.1 = .erase v ∧ T.token v = c

/-- A token was added, and since then it was not taken out nor was everything. -/
def Remains (T : TokenTable V) (h : List (Entry V)) (c : Char) : Prop :=
  ∃ before x after, h = before ++ x :: after ∧ Adds T c x ∧ ∀ y ∈ after, ¬ Ends T c y

/-- A token was added for the last time after `n` other steps. -/
def LastAdded (T : TokenTable V) (h : List (Entry V)) (c : Char) (n : Nat) : Prop :=
  ∃ before x after, h = before ++ x :: after ∧ before.length = n ∧ Adds T c x ∧ ∀ y ∈ after, ¬ Adds T c y

/-- The contents that a history leads to. -/
structure Recorded (T : TokenTable V) (h : List (Entry V)) (cs : List Char) : Prop where
  once : cs.Nodup
  mem (c : Char) : c ∈ cs ↔ Remains T h c
  order : cs.Pairwise fun c d => ∃ m n, LastAdded T h c m ∧ LastAdded T h d n ∧ m < n

section
variable {h : List (Entry V)} {x : Entry V} {c : Char}

theorem ends_erase {v : V} {a : Except Fault (Option Bool)} : Ends T c (.erase v, a) ↔ c = T.token v := by
  simpa [Ends] using eq_comm

theorem remains_concat : Remains T (h ++ [x]) c ↔ Adds T c x ∨ Remains T h c ∧ ¬ Ends T c x := by
  constructor
  · rintro ⟨before, y, after, split, adds, lasting⟩
    cases after using List.reverseRecOn with
    | nil =>
      obtain ⟨_, same⟩ := List.append_inj' split rfl
      exact .inl (List.singleton_inj.1 same ▸ adds)
    | append_singleton after z =>
      rw [← List.cons_append, ← List.append_assoc] at split
      obtain ⟨rfl, same⟩ := List.append_inj' split rfl
      obtain rfl := List.singleton_inj.1 same
      obtain ⟨lasting, lasts⟩ := List.forall_mem_append.1 lasting
      exact .inr ⟨⟨before, y, after, rfl, adds, lasting⟩, lasts x (List.mem_singleton_self x)⟩
  · rintro (adds | ⟨⟨before, y, after, rfl, adds, lasting⟩, lasts⟩)
    · exact ⟨h, x, [], rfl, adds, by simp⟩
    · have through := List.forall_mem_append.2 ⟨lasting, List.forall_mem_singleton.2 lasts⟩
      exact ⟨before, y, after ++ [x], by simp, adds, through⟩

theorem lastAdded_concat (adds : Adds T c x) : LastAdded T (h ++ [x]) c h.length := by
  refine ⟨h, x, [], rfl, rfl, adds, ?_⟩
  simp

namespace LastAdded
variable {n : Nat}

theorem concat (last : LastAdded T h c n) (other : ¬ Adds T c x) : LastAdded T (h ++ [x]) c n := by
  obtain ⟨before, y, after, rfl, place, adds, latest⟩ := last
  have through := List.forall_mem_append.2 ⟨latest, List.forall_mem_singleton.2 other⟩
  exact ⟨before, y, after ++ [x], by simp, place, adds, through⟩

theorem lt_length (last : LastAdded T h c n) : n < h.length := by
  obtain ⟨before, y, after, rfl, rfl, _⟩ := last
  simp

end LastAdded

theorem Remains.exists_lastAdded (remains : Remains T h c) : ∃ n, LastAdded T h c n := by
  induction h using List.reverseRecOn with
  | nil =>
    obtain ⟨before, x, after, split, _⟩ := remains
    simp at split
  | append_singleton h x ih =>
    by_cases adds : Adds T c x
    · exact ⟨h.length, lastAdded_concat adds⟩
    · obtain found | ⟨remains, _⟩ := remains_concat.1 remains
      · exact absurd found adds
      · obtain ⟨n, last⟩ := ih remains
        exact ⟨n, last.concat adds⟩

namespace Recorded
variable {cs ds : List Char}

theorem nil (T : TokenTable V) : Recorded T [] [] where
  once := .nil
  mem c := by simp [Remains]
  order := .nil

theorem keep (r : Recorded T h cs) (adds : ∀ c, ¬ Adds T c x) (kept : Kept (¬ Ends T · x) cs ds) :
    Recorded T (h ++ [x]) ds where
  once := r.once.sublist kept.order
  mem c := by
    rw [kept.mem, r.mem, remains_concat]
    exact (or_iff_right (adds c)).symm
  order := by
    refine (r.order.sublist kept.order).imp ?_
    rintro c d ⟨m, n, lastc, lastd, lt⟩
    exact ⟨m, n, lastc.concat (adds c), lastd.concat (adds d), lt⟩

theorem add (r : Recorded T h cs) (new : c ∉ cs) (adds : ∀ d, Adds T d x ↔ d = c) (ends : ∀ d, ¬ Ends T d x) :
    Recorded T (h ++ [x]) (cs ++ [c]) where
  once := List.nodup_append.2 ⟨r.once, List.nodup_singleton c, by grind⟩
  mem d := by
    rw [List.mem_append, List.mem_singleton, r.mem, remains_concat, adds, or_comm]
    exact or_congr_right (and_iff_left (ends d)).symm
  order := by
    have old : ∀ {d}, d ∈ cs → ¬ Adds T d x := by
      intro d hd found
      exact new ((adds d).1 found ▸ hd)
    refine List.pairwise_append.2 ⟨r.order.imp_of_mem ?_, List.pairwise_singleton _ c, ?_⟩
    · rintro d e hd he ⟨m, n, lastd, laste, lt⟩
      exact ⟨m, n, lastd.concat (old hd), laste.concat (old he), lt⟩
    · intro d hd e he
      obtain rfl := List.mem_singleton.1 he
      obtain ⟨m, last⟩ := ((r.mem d).1 hd).exists_lastAdded
      exact ⟨m, h.length, last.concat (old hd), lastAdded_concat ((adds e).2 rfl), last.lt_length⟩

end Recorded

end

def effect (T : TokenTable V) (cs : List Char) : Step V → List Char × Option Bool
  | .insert v => (appendMissing cs [T.token v], some (decide (T.token v ∉ cs)))
  | .erase v => (cs.filter (· != T.token v), some (decide (T.token v ∈ cs)))
  | .clear => ([], none)

theorem Recorded.step {h : List (Entry V)} {cs : List Char} (r : Recorded T h cs) (e : Step V) :
    Recorded T (h ++ [(e, .ok (effect T cs e).2)]) (effect T cs e).1 := by
  cases e with
  | insert v =>
    by_cases there : T.token v ∈ cs
    · have changed : effect T cs (.insert v) = (cs, some false) := by
        simp [effect, appendMissing, there]
      rw [changed]
      exact r.keep (by simp [Adds]) ⟨.refl _, fun _ _ => rfl, by simp [Ends]⟩
    · have changed : effect T cs (.insert v) = (cs ++ [T.token v], some true) := by
        simp [effect, appendMissing, there]
      rw [changed]
      exact r.add there (by simp [Adds, eq_comm]) (by simp [Ends])
  | erase v => exact r.keep (by simp [Adds]) (kept_filter (fun _ => bne_iff_ne.trans (not_congr ends_erase.symm)) cs)
  | clear => exact r.keep (by simp [Adds]) ⟨List.nil_sublist cs, by simp [Ends], by simp [effect]⟩

section
variable {s : TokenSet T} (opened : s.frozen = false)
include opened

theorem clear_of_open : s.clear = .done (empty T) () := by
  obtain ⟨cs, frozen⟩ := s
  cases opened
  cases cs <;> rfl

theorem apply_of_open (e : Step V) :
    SetFamily.apply s e.mutation = .done ⟨(effect T s.contents e).1, false⟩ (effect T s.contents e).2 := by
  cases e with
  | insert v => exact congrArg (Outcome.map some) (insert_of_open opened v)
  | erase v => exact congrArg (Outcome.map some) (erase_of_open opened v)
  | clear => exact congrArg (Outcome.map fun _ => none) (clear_of_open opened)

theorem applyAll_cons_of_open (e : Step V) (steps : List (Step V)) :
    let t : TokenSet T := ⟨(effect T s.contents e).1, false⟩
    applyAll s ((e :: steps).map Step.mutation) =
      (.ok (effect T s.contents e).2 :: (applyAll t (steps.map Step.mutation)).1,
        (applyAll t (steps.map Step.mutation)).2) := by
  rw [List.map_cons, applyAll, apply_of_open opened, Outcome.answer_done, Outcome.after_done]

theorem frozen_applyAll (steps : List (Step V)) : (applyAll s (steps.map Step.mutation)).2.frozen = false := by
  induction steps generalizing s with
  | nil => exact opened
  | cons e steps ih =>
    rw [applyAll_cons_of_open opened]
    exact ih rfl

theorem Recorded.run {h : List (Entry V)} (r : Recorded T h s.contents) (steps : List (Step V)) :
    Recorded T (h ++ history s steps) (applyAll s (steps.map Step.mutation)).2.contents := by
  induction steps generalizing s h with
  | nil =>
    rw [history, List.zip_nil_left, List.append_nil]
    exact r
  | cons e steps ih =>
    rw [history, applyAll_cons_of_open opened, List.zip_cons_cons, List.append_cons]
    exact ih rfl (r.step e)

theorem insertAll_of_open (vs : List V) :
    s.insertAll vs = .done (applyAll s ((vs.map Step.insert).map Step.mutation)).2 () := by
  induction vs generalizing s with
  | nil => rfl
  | cons v vs ih =>
    rw [insertAll, insert_of_open opened, Outcome.andThen_done, ih rfl, List.map_cons, applyAll_cons_of_open opened]
    rfl

theorem apply_edit_of_open (e : Edit V) :
    ∃ a, SetFamily.apply s e.mutation = .done (applyAll s (e.steps.map Step.mutation)).2 a := by
  cases e with
  | step e =>
    refine ⟨(effect T s.contents e).2, ?_⟩
    rw [Edit.steps, applyAll_cons_of_open opened]
    exact apply_of_open opened e
  | assign vs =>
    have assigned : s.assign vs = .done (applyAll s ((Edit.assign vs).steps.map Step.mutation)).2 () := by
      rw [assign, clear_of_open opened, Outcome.andThen_done, insertAll_of_open rfl, Edit.steps,
        applyAll_cons_of_open opened]
      rfl
    exact ⟨none, congrArg (Outcome.map fun _ => none) assigned⟩

theorem applyAll_edits (script : List (Edit V)) :
    (∀ a ∈ (applyAll s (script.map Edit.mutation)).1, ∃ b, a = .ok b) ∧
      (applyAll s (script.map Edit.mutation)).2 =
        (applyAll s ((script.flatMap Edit.steps).map Step.mutation)).2 := by
  induction script generalizing s with
  | nil => exact ⟨by simp [applyAll], rfl⟩
  | cons e script ih =>
    obtain ⟨a, applied⟩ := apply_edit_of_open opened e
    obtain ⟨granted, same⟩ := ih (frozen_applyAll opened e.steps)
    rw [List.map_cons, applyAll, applied, List.flatMap_cons, List.map_append, SetFamily.applyAll_append]
    exact ⟨List.forall_mem_cons.2 ⟨⟨a, rfl⟩, granted⟩, same⟩

end

/-- To add a variant that is there moves nothing. To take one out and add it again moves it to the end, and moves no
other. -/
structure Moves (s : TokenSet T) : Prop where
  again (v : V) : T.token v ∈ s.contents → s.insert v = .done s false
  anew (v : V) (before after : List Char) : s.contents = before ++ T.token v :: after →
    s.erase v = .done ⟨before ++ after, false⟩ true ∧
      insert (T := T) ⟨before ++ after, false⟩ v = .done ⟨before ++ after ++ [T.token v], false⟩ true

theorem moves_of_nodup {s : TokenSet T} (opened : s.frozen = false) (once : s.contents.Nodup) : Moves s where
  again v there := if_pos (List.contains_iff_mem.2 there)
  anew v before after split := by
    obtain ⟨missing, _⟩ := List.nodup_cons.1 (List.nodup_middle.1 (split ▸ once))
    refine ⟨?_, ?_⟩
    · have kept : s.contents.filter (· != T.token v) = before ++ after := by
        rw [split, List.filter_append, List.filter_cons_of_neg (by simp), ← List.filter_append,
          filter_ne_of_not_mem missing]
      have there : T.token v ∈ s.contents := by simp [split]
      rw [erase_of_open opened, kept, decide_eq_true there]
    · rw [insert_of_open rfl]
      simp [appendMissing, missing]

/-- In every script on a new set nothing is refused, and the contents are what the history leads to: each token once
that was added and not taken out since, in the order in which they were last added. -/
theorem storage_order (T : TokenTable V) (script : List (Edit V)) :
    let s := (applyAll (empty T) (script.map Edit.mutation)).2
    let steps := script.flatMap Edit.steps
    (∀ a ∈ (applyAll (empty T) (script.map Edit.mutation)).1, ∃ b, a = .ok b) ∧
      s = (applyAll (empty T) (steps.map Step.mutation)).2 ∧
      Recorded T (history (empty T) steps) s.contents ∧ Moves s := by
  intro s steps
  obtain ⟨granted, same⟩ := applyAll_edits (s := empty T) rfl script
  have recorded : Recorded T (history (empty T) steps) s.contents := by
    rw [show s = _ from same]
    exact Recorded.run (s := empty T) rfl (.nil T) steps
  have opened : s.frozen = false := by
    rw [show s = _ from same]
    exact frozen_applyAll (s := empty T) rfl steps
  exact ⟨granted, same, recorded, moves_of_nodup opened recorded.once⟩

def sharedScript : List (Edit (Fin 4)) :=
  [.step (.insert 3), .assign [0, 1, 2], .step (.erase 2), .step (.insert 3), .step (.insert 0)]

theorem storage_order_shared :
    let s := (applyAll (empty shared) (sharedScript.map Edit.mutation)).2
    Recorded shared (history (empty shared) (sharedScript.flatMap Edit.steps)) ['q', 'r', 'p'] ∧
      s.insert 2 = .done s false ∧
      s.erase 3 = .done ⟨['q', 'p'], false⟩ true ∧
      insert (T := shared) ⟨['q', 'p'], false⟩ 3 = .done ⟨['q', 'p', 'r'], false⟩ true := by
  intro s
  obtain ⟨_, _, recorded, moves⟩ := storage_order shared sharedScript
  exact ⟨recorded, moves.again 2 (by decide), moves.anew 3 ['q'] ['p'] rfl⟩

end TokenSet

end VariantSets
