import VariantSets.Json.Blank

/-!
Texts as literals: characters between double quotes, some of them escaped. Writing escapes only what it
must; reading takes every escape, and pairs the two halves of a character above U+FFFF.
-/
namespace VariantSets.Json.Text

def escape (c : Char) : List Char :=
  if c = '\x22' then ['\\', '\x22']
  else if c = '\\' then ['\\', '\\']
  else if c = '\x08' then ['\\', 'b']
  else if c = '\x0c' then ['\\', 'f']
  else if c = '\n' then ['\\', 'n']
  else if c = '\r' then ['\\', 'r']
  else if c = '\t' then ['\\', 't']
  else if c.toNat < 0x20 then
    ['\\', 'u', '0', '0', Nat.digitChar (c.toNat / 16), Nat.digitChar (c.toNat % 16)]
  else [c]

def write (cs : List Char) : List Char := '\x22' :: cs.flatMap escape ++ ['\x22']

def hexValue? (c : Char) : Option Nat :=
  if '0' ≤ c ∧ c ≤ '9' then some (c.toNat - '0'.toNat)
  else if 'a' ≤ c ∧ c ≤ 'f' then some (c.toNat - 'a'.toNat + 10)
  else if 'A' ≤ c ∧ c ≤ 'F' then some (c.toNat - 'A'.toNat + 10)
  else none

def quad? (a b c d : Char) : Option Nat := do
  let a ← hexValue? a
  let b ← hexValue? b
  let c ← hexValue? c
  let d ← hexValue? d
  return ((a * 16 + b) * 16 + c) * 16 + d

/-- The first half of a character above U+FFFF. -/
def isHighHalf (n : Nat) : Bool := 0xd800 ≤ n && n < 0xdc00

def isLowHalf (n : Nat) : Bool := 0xdc00 ≤ n && n < 0xe000

def joinHalves (high low : Nat) : Char :=
  Char.ofNat (0x10000 + (high - 0xd800) * 0x400 + (low - 0xdc00))

def shortEscape? : Char → Option Char
  | '\x22' => some '\x22'
  | '\\' => some '\\'
  | '/' => some '/'
  | 'b' => some '\x08'
  | 'f' => some '\x0c'
  | 'n' => some '\n'
  | 'r' => some '\r'
  | 't' => some '\t'
  | _ => none

/-- Reads the number after a backslash and the letter u, with the second half if it is a first one. -/
def readCode? : List Char → Option (Char × List Char)
  | a :: b :: c :: d :: rest => do
    let n ← quad? a b c d
    if isHighHalf n then
      match rest with
      | '\\' :: 'u' :: a :: b :: c :: d :: rest =>
        let m ← quad? a b c d
        if isLowHalf m then some (joinHalves n m, rest) else none
      | _ => none
    else if isLowHalf n then none
    else some (Char.ofNat n, rest)
  | _ => none

/-- Reads one character of the text, and leaves the rest. A bare quote or control character is refused. -/
def readChar? : List Char → Option (Char × List Char)
  | '\\' :: 'u' :: rest => readCode? rest
  | '\\' :: e :: rest => (shortEscape? e).map fun c => (c, rest)
  | c :: rest => if c = '\\' ∨ c = '\x22' ∨ c.toNat < 0x20 then none else some (c, rest)
  | [] => none

theorem readCode?_shorter {cs rest : List Char} {c : Char} (h : readCode? cs = some (c, rest)) :
    rest.length < cs.length := by
  unfold readCode? at h
  split at h
  · obtain ⟨n, _, h⟩ := Option.bind_eq_some_iff.1 h
    split at h
    · split at h
      · obtain ⟨m, _, h⟩ := Option.bind_eq_some_iff.1 h
        split at h
        · obtain ⟨_, rfl⟩ := Prod.mk.inj (Option.some.inj h)
          simp only [List.length_cons]
          omega
        · cases h
      · cases h
    · split at h
      · cases h
      · obtain ⟨_, rfl⟩ := Prod.mk.inj (Option.some.inj h)
        simp only [List.length_cons]
        omega
  · cases h

theorem readChar?_shorter {cs rest : List Char} {c : Char} (h : readChar? cs = some (c, rest)) :
    rest.length < cs.length := by
  unfold readChar? at h
  split at h
  · have := readCode?_shorter h
    simp only [List.length_cons]
    omega
  · obtain ⟨_, _, h⟩ := Option.map_eq_some_iff.1 h
    obtain ⟨_, rfl⟩ := Prod.mk.inj h
    simp only [List.length_cons]
    omega
  · split at h
    · cases h
    · obtain ⟨_, rfl⟩ := Prod.mk.inj (Option.some.inj h)
      exact Nat.lt_succ_self _
  · cases h

def readBody? (cs : List Char) : Option (List Char) :=
  if cs = ['\x22'] then some []
  else match h : readChar? cs with
    | none => none
    | some (c, rest) =>
      have : rest.length < cs.length := readChar?_shorter h
      (readBody? rest).map (c :: ·)
  termination_by cs.length

def read? (text : List Char) : Option (List Char) :=
  match strip text with
  | '\x22' :: cs => readBody? cs
  | _ => none

theorem hexValue?_digitChar {n : Nat} (h : n < 16) : hexValue? (Nat.digitChar n) = some n := by
  have all : ∀ n : Fin 16, hexValue? (Nat.digitChar n) = some n.val := by decide
  exact all ⟨n, h⟩

theorem readChar?_escape (c : Char) (rest : List Char) :
    readChar? (escape c ++ rest) = some (c, rest) := by
  unfold escape
  split
  · next h => subst h; rfl
  split
  · next h => subst h; rfl
  split
  · next h => subst h; rfl
  split
  · next h => subst h; rfl
  split
  · next h => subst h; rfl
  split
  · next h => subst h; rfl
  split
  · next h => subst h; rfl
  split
  · next h =>
    have high := hexValue?_digitChar (n := c.toNat / 16) (by omega)
    have low := hexValue?_digitChar (n := c.toNat % 16) (by omega)
    have zero : hexValue? '0' = some 0 := rfl
    have joined : ((0 * 16 + 0) * 16 + c.toNat / 16) * 16 + c.toNat % 16 = c.toNat := by omega
    have no_high : isHighHalf c.toNat = false := by simp [isHighHalf]; omega
    have no_low : isLowHalf c.toNat = false := by simp [isLowHalf]; omega
    simp only [List.cons_append, List.nil_append, readChar?, readCode?, quad?, zero, high, low,
      Option.bind_eq_bind, Option.bind_some, Option.pure_def, joined, no_high, no_low]
    simp
  · next hq hs _ _ _ _ _ hc =>
    simp only [List.cons_append, List.nil_append]
    rw [readChar?.eq_def]
    split <;> simp_all

theorem readBody?_escape (c : Char) (rest : List Char) :
    readBody? (escape c ++ rest) = (readBody? rest).map (c :: ·) := by
  have no_end : escape c ++ rest ≠ ['\x22'] := by
    intro h
    have back := readChar?_escape c rest
    rw [h] at back
    cases back
  rw [readBody?.eq_def, if_neg no_end]
  split
  · next h => rw [readChar?_escape] at h; cases h
  · next h =>
    rw [readChar?_escape] at h
    obtain ⟨rfl, rfl⟩ := Prod.mk.inj (Option.some.inj h)
    rfl

theorem readBody?_flatMap_escape (cs : List Char) :
    readBody? (cs.flatMap escape ++ ['\x22']) = some cs := by
  induction cs with
  | nil => rw [readBody?.eq_def]; rfl
  | cons c cs ih => rw [List.flatMap_cons, List.append_assoc, readBody?_escape, ih, Option.map_some]

theorem read?_write {before after : List Char} (hb : before.all isBlank) (ha : after.all isBlank)
    (cs : List Char) : read? (before ++ write cs ++ after) = some cs := by
  have stripped : strip (before ++ write cs ++ after) = write cs := by
    apply strip_blanks hb ha
    · intro c hc
      obtain rfl : c = '\x22' := by simpa [write, eq_comm] using hc
      rfl
    · intro c hc
      rw [write, List.getLast?_concat] at hc
      obtain rfl : c = '\x22' := by simpa [eq_comm] using hc
      rfl
    · simp [write]
  rw [read?, stripped, write]
  exact readBody?_flatMap_escape cs

end VariantSets.Json.Text
