import VariantSets.Json.Blank

/-!
Numbers as text: a natural number in decimal, without sign, leading zeros, fraction or exponent.
-/
namespace VariantSets.Json.Number

/-- Whether a text is digits of which the first is not zero, or zero alone. -/
def isNumeral : List Char → Bool
  | [] => false
  | c :: cs => (c :: cs).all Char.isDigit && (c != '0' || cs.isEmpty)

def value (cs : List Char) : Nat := Nat.ofDigitChars 10 cs 0

def write (n : Nat) : List Char := Nat.toDigits 10 n

def read? (text : List Char) : Option Nat :=
  let cs := strip text
  if isNumeral cs then some (value cs) else none

theorem value_write (n : Nat) : value (write n) = n := by
  rw [value, write]
  exact Nat.ofDigitChars_ten_toDigits

theorem head?_write {n : Nat} (h : 0 < n) : (write n).head? ≠ some '0' := by
  induction n using Nat.strongRecOn with
  | _ n ih =>
    by_cases small : n < 10
    · have : n ≠ 0 := by omega
      simpa [write, Nat.toDigits_of_lt_base small] using this
    · have front := ih (n / 10) (by omega) (by omega)
      rw [write, Nat.toDigits_of_base_le (by omega) (by omega), List.head?_append]
      cases first : (Nat.toDigits 10 (n / 10)).head? with
      | none => simp at first
      | some c =>
        rw [write, first] at front
        simpa using front

theorem isNumeral_write (n : Nat) : isNumeral (write n) = true := by
  have digits : (write n).all Char.isDigit = true := by
    rw [List.all_eq_true]
    intro c hc
    exact Nat.isDigit_of_mem_toDigits (by omega) (by omega) hc
  cases zero : n with
  | zero => rfl
  | succ k =>
    have head := head?_write (n := k + 1) (by omega)
    rw [zero] at digits
    cases form : write (k + 1) with
    | nil => simp [write] at form
    | cons c cs =>
      rw [form] at digits head
      have : c ≠ '0' := by simpa using head
      simp only [isNumeral, digits, Bool.true_and, Bool.or_eq_true, bne_iff_ne]
      exact .inl this

theorem isBlank_of_isDigit {c : Char} (h : c.isDigit = true) : isBlank c = false := by
  cases blank : isBlank c with
  | false => rfl
  | true =>
    simp only [isBlank, Bool.or_eq_true, beq_iff_eq] at blank
    rcases blank with ((rfl | rfl) | rfl) | rfl <;> simp [Char.isDigit] at h

theorem read?_numeral {before cs after : List Char} (hb : before.all isBlank) (ha : after.all isBlank)
    (h : isNumeral cs = true) : read? (before ++ cs ++ after) = some (value cs) := by
  have digits : ∀ c ∈ cs, isBlank c = false := by
    intro c hc
    cases cs with
    | nil => cases hc
    | cons d ds =>
      rw [isNumeral, Bool.and_eq_true, List.all_eq_true] at h
      exact isBlank_of_isDigit (h.1 c hc)
  have some_text : cs ≠ [] := by
    rintro rfl
    simp [isNumeral] at h
  have stripped : strip (before ++ cs ++ after) = cs :=
    strip_blanks hb ha (fun c hc => digits c (List.mem_of_mem_head? hc))
      (fun c hc => digits c (List.mem_of_getLast? hc)) some_text
  rw [read?, stripped, if_pos h]

theorem numeral_of_read? {text : List Char} {n : Nat} (h : read? text = some n) :
    ∃ before cs after, text = before ++ cs ++ after ∧ before.all isBlank ∧ after.all isBlank ∧
      isNumeral cs = true ∧ value cs = n := by
  obtain ⟨before, after, split, hb, ha⟩ := exists_blanks_strip text
  rw [read?] at h
  split at h
  · exact ⟨before, strip text, after, split, hb, ha, ‹_›, Option.some.inj h⟩
  · cases h

end VariantSets.Json.Number
