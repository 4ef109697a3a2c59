import VariantSets.Json.Number
import VariantSets.Json.Text

/-! Numerals and the numbers they stand for. A number has one numeral, which is what is written of it, and a text
is read exactly if it is a numeral with nothing but blanks around it. Literals are told from each other and from
numerals. -/
namespace VariantSets.Json

namespace Number

/-- A numeral and its number: zero alone, or digits of which the first is not zero. -/
inductive Numeral : List Char → Nat → Prop
  | zero : Numeral ['0'] 0
  | lead {d : Nat} : 0 < d → d < 10 → Numeral [Nat.digitChar d] d
  | digit {cs : List Char} {n d : Nat} :
      Numeral cs n → 0 < n → d < 10 → Numeral (cs ++ [Nat.digitChar d]) (10 * n + d)

def States (text : List Char) (n : Nat) : Prop :=
  ∃ before cs after, text = before ++ cs ++ after ∧ before.all isBlank ∧ after.all isBlank ∧ Numeral cs n

theorem numeral_write (n : Nat) : Numeral (write n) n := by
  induction n using Nat.strongRecOn with
  | _ n ih =>
    by_cases small : n < 10
    · rw [write, Nat.toDigits_of_lt_base small]
      cases n with
      | zero => exact .zero
      | succ k => exact .lead k.succ_pos small
    · have front := ih (n / 10) (by omega)
      have whole := front.digit (d := n % 10) (by omega) (by omega)
      rwa [Nat.div_add_mod, write, ← Nat.toDigits_of_base_le (by omega) (by omega)] at whole

theorem write_append_digit {n d : Nat} (pos : 0 < n) (lt : d < 10) :
    write n ++ [Nat.digitChar d] = write (10 * n + d) := by
  rw [← Nat.toDigits_of_lt_base lt]
  exact Nat.toDigits_append_toDigits (by decide) pos lt

theorem Numeral.eq_write {cs : List Char} {n : Nat} (h : Numeral cs n) : cs = write n := by
  induction h with
  | zero => rfl
  | lead _ lt => exact (Nat.toDigits_of_lt_base lt).symm
  | digit _ pos lt ih => rw [ih, write_append_digit pos lt]

theorem exists_digitChar {c : Char} (h : c.isDigit = true) : ∃ d < 10, Nat.digitChar d = c := by
  obtain ⟨low, high⟩ := Char.isDigit_iff_toNat.1 h
  simp only [Char.reduceToNat] at low high
  refine ⟨c.toNat - 48, by omega, Char.toNat_inj.1 ?_⟩
  rw [Nat.toNat_digitChar_of_lt_ten (by omega)]
  omega

theorem write_append_digits {cs : List Char} {n : Nat} (digits : ∀ c ∈ cs, c.isDigit = true) (pos : 0 < n) :
    write n ++ cs = write (Nat.ofDigitChars 10 cs n) := by
  -- Digits behind what was written of a number are what is written of a larger one.
  induction cs generalizing n with
  | nil => simp
  | cons c cs ih =>
    obtain ⟨d, lt, rfl⟩ := exists_digitChar (digits _ List.mem_cons_self)
    have rest := ih (n := 10 * n + d) (fun e he => digits e (List.mem_cons_of_mem _ he)) (by omega)
    rw [Nat.ofDigitChars_cons_digitChar_of_lt_ten lt, ← rest, ← write_append_digit pos lt, List.append_assoc,
      List.singleton_append]

theorem write_value {cs : List Char} (h : isNumeral cs = true) : write (value cs) = cs := by
  cases cs with
  | nil => cases h
  | cons c cs =>
    simp only [isNumeral, Bool.and_eq_true, List.all_eq_true, Bool.or_eq_true, bne_iff_ne,
      List.isEmpty_iff] at h
    obtain ⟨digits, lead⟩ := h
    obtain ⟨d, lt, rfl⟩ := exists_digitChar (digits _ List.mem_cons_self)
    have behind : ∀ e ∈ cs, e.isDigit = true := fun e he => digits e (List.mem_cons_of_mem _ he)
    rw [value, Nat.ofDigitChars_cons_digitChar_of_lt_ten lt]
    cases d with
    | zero =>
      obtain rfl : cs = [] := lead.resolve_left fun ne => ne rfl
      rfl
    | succ d =>
      rw [← write_append_digits behind (by omega), write, Nat.mul_zero, Nat.zero_add, Nat.toDigits_of_lt_base lt]
      rfl

theorem numeral_iff {cs : List Char} {n : Nat} : Numeral cs n ↔ isNumeral cs = true ∧ value cs = n := by
  constructor
  · intro h
    rw [h.eq_write]
    exact ⟨isNumeral_write n, value_write n⟩
  · rintro ⟨numeral, rfl⟩
    have written := numeral_write (value cs)
    rwa [write_value numeral] at written

theorem read?_eq_some {text : List Char} {n : Nat} : read? text = some n ↔ States text n := by
  constructor
  · intro h
    obtain ⟨before, cs, after, split, hb, ha, numeral⟩ := numeral_of_read? h
    exact ⟨before, cs, after, split, hb, ha, numeral_iff.2 numeral⟩
  · rintro ⟨before, cs, after, rfl, hb, ha, numeral⟩
    obtain ⟨form, rfl⟩ := numeral_iff.1 numeral
    exact read?_numeral hb ha form

theorem read?_write (n : Nat) : read? (write n) = some n := by
  refine read?_eq_some.2 ⟨[], write n, [], ?_, rfl, rfl, numeral_write n⟩
  simp

@[simp] theorem write_inj {m n : Nat} : write m = write n ↔ m = n := by
  constructor
  · intro same
    rw [← value_write m, same, value_write]
  · exact congrArg write

end Number

namespace Text

@[simp] theorem write_inj {cs ds : List Char} : write cs = write ds ↔ cs = ds := by
  constructor
  · intro same
    have blank : ([] : List Char).all isBlank := rfl
    have read := read?_write blank blank cs
    rw [same, read?_write blank blank] at read
    exact (Option.some.inj read).symm
  · exact congrArg write

theorem write_ne_numeral (cs : List Char) (n : Nat) : write cs ≠ Number.write n := by
  -- A literal begins with a quote, a numeral with a digit.
  intro same
  have numeral := Number.isNumeral_write n
  rw [← same] at numeral
  simp [write, Number.isNumeral] at numeral

end Text

end VariantSets.Json
