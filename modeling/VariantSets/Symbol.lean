/-!
The symbols that stand for the positions of a bitmap in its written map: the digits, the capital letters,
the small letters and the low line.
-/
namespace VariantSets.Symbol

def alphabet : List Char := "0123456789ABCDEFGHIJKLMNOPQRSTUVWXYZabcdefghijklmnopqrstuvwxyz_".toList

def count : Nat := alphabet.length

def ofPosition? (i : Nat) : Option Char := alphabet[i]?

def position? (c : Char) : Option Nat :=
  if '0' ≤ c ∧ c ≤ '9' then some (c.toNat - '0'.toNat)
  else if 'A' ≤ c ∧ c ≤ 'Z' then some (c.toNat - 'A'.toNat + 10)
  else if 'a' ≤ c ∧ c ≤ 'z' then some (c.toNat - 'a'.toNat + 36)
  else if c = '_' then some 62
  else none

theorem position?_of_ofPosition? {i : Nat} {c : Char} (h : ofPosition? i = some c) : position? c = some i := by
  have table : ∀ i : Fin count, (ofPosition? i.val).bind position? = some i.val := by decide
  have listed : i < count := (List.getElem?_eq_some_iff.1 h).1
  simpa [h] using table ⟨i, listed⟩

theorem ofPosition?_of_between {first last c : Char} (start : Nat) (between : first ≤ c ∧ c ≤ last)
    (listed : ∀ k ≤ last.toNat - first.toNat, ofPosition? (k + start) = some (Char.ofNat (first.toNat + k))) :
    ofPosition? (c.toNat - first.toNat + start) = some c := by
  have low : first.toNat ≤ c.toNat := between.1
  have high : c.toNat ≤ last.toNat := between.2
  have back : first.toNat + (c.toNat - first.toNat) = c.toNat := by omega
  rw [listed _ (by omega), back, Char.ofNat_toNat]

theorem ofPosition?_of_position? {i : Nat} {c : Char} (h : position? c = some i) : ofPosition? i = some c := by
  unfold position? at h
  split at h
  · next between =>
    cases Option.some.inj h
    exact ofPosition?_of_between 0 between (by decide)
  split at h
  · next between =>
    cases Option.some.inj h
    exact ofPosition?_of_between 10 between (by decide)
  split at h
  · next between =>
    cases Option.some.inj h
    exact ofPosition?_of_between 36 between (by decide)
  split at h
  · next low_line =>
    cases Option.some.inj h
    subst low_line
    decide
  · cases h

theorem position?_eq_some {i : Nat} {c : Char} : position? c = some i ↔ ofPosition? i = some c := by
  constructor
  · exact ofPosition?_of_position?
  · exact position?_of_ofPosition?

theorem position?_inj {i : Nat} {c d : Char} (hc : position? c = some i) (hd : position? d = some i) : c = d := by
  rw [position?_eq_some] at hc hd
  exact Option.some.inj (hc.symm.trans hd)

end VariantSets.Symbol
