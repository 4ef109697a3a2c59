import Mathlib.Data.List.Basic
import VariantSets.TokenSet.Mutation

/-! Operations on any contents, with characters of no variant and with repetitions. What a set keeps of a text it keeps
in the old order and as often as before; only a union takes of the other text each character once, as it first
occurs. Which characters there are afterwards follows from this alone. -/
namespace VariantSets.TokenSet

variable {V : Type} {T : TokenTable V}

/-- What is left of `cs` when nothing but `keep` is kept: in the old order, and as often as before. -/
structure Kept (keep : Char → Prop) (cs es : List Char) : Prop where
  order : es.Sublist cs
  count (c : Char) : keep c → es.count c = cs.count c
  only (c : Char) : c ∈ es → keep c

/-- The characters of `ds` that are missing in `cs`, each once, in the order in which they first occur in `ds`. -/
structure Newcomers (cs ds es : List Char) : Prop where
  mem (c : Char) : c ∈ es ↔ c ∈ ds ∧ c ∉ cs
  once : es.Nodup
  order : es.Pairwise fun c d => ds.idxOf c < ds.idxOf d

theorem Kept.mem {keep : Char → Prop} {cs es : List Char} (h : Kept keep cs es) (c : Char) :
    c ∈ es ↔ c ∈ cs ∧ keep c := by
  constructor
  · intro hc
    exact ⟨h.order.mem hc, h.only c hc⟩
  · rintro ⟨hc, kept⟩
    have count := h.count c kept
    rw [← List.count_pos_iff] at hc ⊢
    omega

theorem kept_filter {keep : Char → Prop} {p : Char → Bool} (decides : ∀ c, p c = true ↔ keep c) (cs : List Char) :
    Kept keep cs (cs.filter p) where
  order := List.filter_sublist
  count c kept := List.count_filter ((decides c).2 kept)
  only c hc := (decides c).1 (List.mem_filter.1 hc).2

theorem kept_contained (cs ds : List Char) : Kept (· ∈ ds) cs (cs.filter fun c => ds.contains c) := by
  apply kept_filter
  intro c
  exact List.contains_iff_mem

theorem kept_uncontained (cs ds : List Char) : Kept (· ∉ ds) cs (cs.filter fun c => !ds.contains c) := by
  apply kept_filter
  simp

namespace Newcomers
variable {cs ds es : List Char} {d : Char}

theorem nil (cs : List Char) : Newcomers cs [] [] := by
  refine ⟨?_, .nil, .nil⟩
  simp

theorem skip (h : Newcomers cs ds es) (there : d ∈ cs) : Newcomers cs (d :: ds) es where
  mem c := by
    rw [h.mem]
    grind
  once := h.once
  order := by
    refine h.order.imp_of_mem fun {b c} hb hc lt => ?_
    have hb' : d ≠ b := fun same => ((h.mem b).1 hb).2 (same ▸ there)
    have hc' : d ≠ c := fun same => ((h.mem c).1 hc).2 (same ▸ there)
    rw [List.idxOf_cons_ne ds hb', List.idxOf_cons_ne ds hc']
    exact Nat.succ_lt_succ lt

theorem take (h : Newcomers (cs ++ [d]) ds es) (missing : d ∉ cs) : Newcomers cs (d :: ds) (d :: es) := by
  have other : ∀ {c}, c ∈ es → d ≠ c := by
    rintro c hc rfl
    exact ((h.mem d).1 hc).2 (by simp)
  refine ⟨fun c => ?_, List.nodup_cons.2 ⟨fun hd => other hd rfl, h.once⟩, List.pairwise_cons.2 ⟨fun c hc => ?_, ?_⟩⟩
  · have found := h.mem c
    grind
  · rw [List.idxOf_cons_self, List.idxOf_cons_ne ds (other hc)]
    exact Nat.succ_pos _
  · refine h.order.imp_of_mem fun {b c} hb hc lt => ?_
    rw [List.idxOf_cons_ne ds (other hb), List.idxOf_cons_ne ds (other hc)]
    exact Nat.succ_lt_succ lt

end Newcomers

theorem exists_newcomers (cs ds : List Char) : ∃ es, appendMissing cs ds = cs ++ es ∧ Newcomers cs ds es := by
  -- A character that was appended is looked for with the others, so the text to start from may be any.
  induction ds generalizing cs with
  | nil => exact ⟨[], (List.append_nil cs).symm, .nil cs⟩
  | cons d ds ih =>
    by_cases there : d ∈ cs
    · obtain ⟨es, appended, new⟩ := ih cs
      refine ⟨es, ?_, new.skip there⟩
      simpa [appendMissing, there] using appended
    · obtain ⟨es, appended, new⟩ := ih (cs ++ [d])
      refine ⟨d :: es, ?_, new.take there⟩
      simpa [appendMissing, there] using appended

theorem mem_appendMissing {c : Char} {cs ds : List Char} : c ∈ appendMissing cs ds ↔ c ∈ cs ∨ c ∈ ds := by
  obtain ⟨es, appended, new⟩ := exists_newcomers cs ds
  rw [appended, List.mem_append, new.mem]
  grind

theorem filter_ne_of_not_mem {cs : List Char} {d : Char} (missing : d ∉ cs) : cs.filter (· != d) = cs := by
  refine List.filter_eq_self.2 fun c hc => bne_iff_ne.2 ?_
  rintro rfl
  exact missing hc

theorem erase_of_open {s : TokenSet T} (opened : s.frozen = false) (v : V) :
    s.erase v = .done ⟨s.contents.filter (· != T.token v), false⟩ (decide (T.token v ∈ s.contents)) := by
  obtain ⟨cs, frozen⟩ := s
  cases opened
  by_cases there : T.token v ∈ cs
  · simp [erase, contains, replace, there]
  · simp [erase, contains, there, filter_ne_of_not_mem there]

theorem insert_of_open {s : TokenSet T} (opened : s.frozen = false) (v : V) :
    s.insert v = .done ⟨appendMissing s.contents [T.token v], false⟩ (decide (T.token v ∉ s.contents)) := by
  obtain ⟨cs, frozen⟩ := s
  cases opened
  by_cases there : T.token v ∈ cs <;> simp [insert, contains, replace, appendMissing, there]

/-- What the operations of an open set `s` with a set `t` come to, whatever the two hold. None of them is refused. -/
structure Results (s t : TokenSet T) : Prop where
  union : ∃ es, s.union t = .done ⟨s.contents ++ es, false⟩ () ∧ Newcomers s.contents t.contents es
  inter : ∃ es, s.inter t = .done ⟨es, false⟩ () ∧ Kept (· ∈ t.contents) s.contents es
  sdiff : ∃ es, s.sdiff t = .done ⟨es, false⟩ () ∧ Kept (· ∉ t.contents) s.contents es
  symmDiff : ∃ es fs, s.symmDiff t = .done ⟨es ++ fs, false⟩ () ∧
    Kept (· ∉ t.contents) s.contents es ∧ Kept (· ∉ s.contents) t.contents fs
  compl : ∃ es, s.compl = .done ⟨es, false⟩ () ∧ Kept (· ∉ s.contents) (T.variants.map T.token) es
  erase (v : V) : ∃ es a, s.erase v = .done ⟨es, false⟩ a ∧ (a = true ↔ T.token v ∈ s.contents) ∧
    Kept (· ≠ T.token v) s.contents es

structure TruthTable (s t : TokenSet T) (c : Char) : Prop where
  union : c ∈ (s.union t).after.contents ↔ c ∈ s.contents ∨ c ∈ t.contents
  inter : c ∈ (s.inter t).after.contents ↔ c ∈ s.contents ∧ c ∈ t.contents
  sdiff : c ∈ (s.sdiff t).after.contents ↔ c ∈ s.contents ∧ c ∉ t.contents
  symmDiff : c ∈ (s.symmDiff t).after.contents ↔ ¬ (c ∈ s.contents ↔ c ∈ t.contents)
  compl : c ∈ s.compl.after.contents ↔ (∃ v ∈ T.variants, T.token v = c) ∧ c ∉ s.contents

theorem results_of_open {s : TokenSet T} (opened : s.frozen = false) (t : TokenSet T) : Results s t where
  union := by
    obtain ⟨es, appended, new⟩ := exists_newcomers s.contents t.contents
    exact ⟨es, appended ▸ replace_of_open opened _ (), new⟩
  inter := ⟨_, replace_of_open opened _ (), kept_contained _ _⟩
  sdiff := ⟨_, replace_of_open opened _ (), kept_uncontained _ _⟩
  symmDiff := ⟨_, _, replace_of_open opened _ (), kept_uncontained _ _, kept_uncontained _ _⟩
  compl := ⟨_, replace_of_open opened _ (), kept_uncontained _ _⟩
  erase v := ⟨_, _, erase_of_open opened v, decide_eq_true_iff, kept_filter (fun _ => bne_iff_ne) _⟩

theorem Results.truthTable {s t : TokenSet T} (h : Results s t) (c : Char) : TruthTable s t c := by
  obtain ⟨u, united, new⟩ := h.union
  obtain ⟨i, met, inKept⟩ := h.inter
  obtain ⟨d, excluded, outKept⟩ := h.sdiff
  obtain ⟨l, r, either, leftKept, rightKept⟩ := h.symmDiff
  obtain ⟨k, negated, restKept⟩ := h.compl
  refine ⟨?_, ?_, ?_, ?_, ?_⟩
  · rw [united, Outcome.after_done, List.mem_append, new.mem]
    grind
  · rw [met, Outcome.after_done, inKept.mem]
  · rw [excluded, Outcome.after_done, outKept.mem]
  · rw [either, Outcome.after_done, List.mem_append, leftKept.mem, rightKept.mem]
    grind
  · rw [negated, Outcome.after_done, restKept.mem, List.mem_map]

/-- Whatever an open set and its operand hold: a union appends what is missing, each character once as it first
occurs; the other operations keep their part of the text, and of the operand's or of the declared tokens, as it
stands; and taking out a variant leaves all other characters, and says whether its token was there. -/
theorem raw_algebra {s : TokenSet T} (opened : s.frozen = false) (t : TokenSet T) :
    Results s t ∧ ∀ c, TruthTable s t c := by
  have results := results_of_open opened t
  exact ⟨results, results.truthTable⟩

def shared : TokenTable (Fin 4) :=
  .ofPairs "Shared" [("First", 'p'), ("Second", 'q'), ("Third", 'p'), ("Fourth", 'r')]

theorem raw_algebra_shared :
    let s : TokenSet shared := ⟨['p', 'x', 'p', 'x'], false⟩
    let t : TokenSet shared := ⟨['q', 'q', 'x'], true⟩
    s.frozen = false ∧ (Results s t ∧ ∀ c, TruthTable s t c) ∧
      (s.union t).after.contents = ['p', 'x', 'p', 'x', 'q'] ∧
      (s.symmDiff t).after.contents = ['p', 'p', 'q', 'q'] ∧ s.compl.after.contents = ['q', 'r'] ∧
      s.erase 2 = .done ⟨['x', 'x'], false⟩ true := by
  intro s t
  have opened : s.frozen = false := rfl
  exact ⟨opened, raw_algebra opened t, by decide, by decide, by decide, rfl⟩

end VariantSets.TokenSet
