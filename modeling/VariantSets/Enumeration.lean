/-!
Enumerations: a closed, ordered list of named variants. An enumeration is a value, so one type of variants
may be listed in several ways, and a list may leave out values of its type.
-/
namespace VariantSets

/-- A list of declared variants, with the number and the name of every value of the type. What a value is shown as,
on one line or over several, is its name unless the enumeration has texts of its own. -/
structure Enumeration (V : Type) where
  title : String
  variants : List V
  ordinal : V → Nat
  name : V → String
  render : V → String := name
  renderLines : V → String := render

namespace Enumeration
variable {V : Type}

def count (E : Enumeration V) : Nat := E.variants.length

def ofOrdinal? (E : Enumeration V) (i : Nat) : Option V := E.variants[i]?

def compare (E : Enumeration V) (a b : V) : Ordering := Ord.compare (E.ordinal a) (E.ordinal b)

/-- Every value is declared, at the place that is its ordinal. A place that is no ordinal may repeat a variant. -/
def Lawful (E : Enumeration V) : Prop := ∀ v, E.variants[E.ordinal v]? = some v

/-- Every number below `n` is the ordinal of a value. -/
def Covers (E : Enumeration V) (n : Nat) : Prop := ∀ i < n, ∃ v, E.ordinal v = i

def ofNames (title : String) (names : List String) : Enumeration (Fin names.length) where
  title := title
  variants := List.finRange names.length
  ordinal := Fin.val
  name := names.get

theorem getElem?_finRange {n : Nat} (v : Fin n) : (List.finRange n)[v.val]? = some v := by
  rw [List.getElem?_eq_some_iff]
  exact ⟨by simp, by simp⟩

theorem ofNames_lawful (title : String) (names : List String) : (ofNames title names).Lawful := by
  intro v
  exact getElem?_finRange v

theorem ofNames_covers (title : String) (names : List String) :
    (ofNames title names).Covers (ofNames title names).count := by
  intro i declared
  have named : i < names.length := by simpa [ofNames, count] using declared
  exact ⟨⟨i, named⟩, rfl⟩

theorem Covers.mono {E : Enumeration V} {m n : Nat} (h : E.Covers n) (le : m ≤ n) : E.Covers m := by
  intro i below
  exact h i (Nat.lt_of_lt_of_le below le)

section
variable {E : Enumeration V} (h : E.Lawful)
include h

theorem Lawful.ordinal_lt (v : V) : E.ordinal v < E.count := by
  obtain ⟨declared, _⟩ := List.getElem?_eq_some_iff.1 (h v)
  exact declared

theorem Lawful.ordinal_lt_of_le {n : Nat} (room : E.count ≤ n) (v : V) : E.ordinal v < n := by
  have declared := h.ordinal_lt v
  omega

theorem Lawful.mem_variants (v : V) : v ∈ E.variants := by
  exact List.mem_of_getElem? (h v)

theorem Lawful.ordinal_inj {a b : V} (same : E.ordinal a = E.ordinal b) : a = b := by
  have here := h a
  rw [same, h b] at here
  exact (Option.some.inj here).symm

theorem Lawful.ordinal_of_getElem? {i : Nat} {v : V} (owned : ∃ u, E.ordinal u = i)
    (found : E.variants[i]? = some v) : E.ordinal v = i := by
  obtain ⟨u, rfl⟩ := owned
  rw [h u] at found
  rw [Option.some.inj found]

theorem Lawful.covers (nodup : E.variants.Nodup) : E.Covers E.count := by
  intro i declared
  have here : E.variants[i]? = some E.variants[i] := List.getElem?_eq_getElem declared
  have same := (List.getElem?_inj declared nodup).1 (here.trans (h E.variants[i]).symm)
  exact ⟨E.variants[i], same.symm⟩

end

end Enumeration

/-- An enumeration whose variants are written as one character each. -/
structure TokenTable (V : Type) extends Enumeration V where
  token : V → Char

namespace TokenTable
variable {V : Type}

def tokens (T : TokenTable V) : List Char := T.variants.map T.token

/-- The first declared variant with a token. -/
def ofToken? (T : TokenTable V) (c : Char) : Option V := T.variants.find? fun v => T.token v == c

def DistinctTokens (T : TokenTable V) : Prop := T.tokens.Nodup

def ofPairs (title : String) (pairs : List (String × Char)) : TokenTable (Fin pairs.length) where
  title := title
  variants := List.finRange pairs.length
  ordinal := Fin.val
  name := fun i => (pairs.get i).1
  token := fun i => (pairs.get i).2

theorem ofPairs_lawful (title : String) (pairs : List (String × Char)) :
    (ofPairs title pairs).Lawful := by
  intro v
  exact Enumeration.getElem?_finRange v

theorem ofToken?_isSome {T : TokenTable V} {c : Char} : (T.ofToken? c).isSome ↔ c ∈ T.tokens := by
  simp [ofToken?, tokens]

theorem ofToken?_eq_none {T : TokenTable V} {c : Char} : T.ofToken? c = none ↔ c ∉ T.tokens := by
  rw [← ofToken?_isSome, Bool.not_eq_true, Option.isSome_eq_false_iff, Option.isNone_iff_eq_none]

theorem token_of_ofToken? {T : TokenTable V} {c : Char} {v : V} (h : T.ofToken? c = some v) :
    T.token v = c := by
  simpa using List.find?_some h

end TokenTable

end VariantSets
