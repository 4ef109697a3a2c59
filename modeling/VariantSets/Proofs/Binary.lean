import Mathlib.Algebra.Group.Nat.Defs
import VariantSets.Binary.Text

/-!
What was written as bytes is read back, whatever follows it, and what is read was written at the front of the
bytes. Bytes that end too early are not read.
-/
namespace VariantSets.Binary

namespace LittleEndian

theorem value_lt (bytes : List UInt8) : value bytes < 256 ^ bytes.length := by
  induction bytes with
  | nil => simp [value]
  | cons b bs ih =>
    have hb := b.toNat_lt
    rw [value, List.length_cons, Nat.pow_succ]
    omega

theorem value_write {k n : Nat} (h : n < 256 ^ k) : value (write k n) = n := by
  induction k generalizing n with
  | zero =>
    have : n = 0 := by simpa using h
    simp [write, value, this]
  | succ k ih =>
    have small : n / 256 < 256 ^ k := by
      rw [Nat.pow_succ] at h
      omega
    rw [write, value, ih small, UInt8.toNat_ofNat']
    omega

theorem write_value (bytes : List UInt8) : write bytes.length (value bytes) = bytes := by
  induction bytes with
  | nil => rfl
  | cons b bs ih =>
    have hb := b.toNat_lt
    have low : UInt8.ofNat (value (b :: bs)) = b := by
      apply UInt8.toNat_inj.1
      rw [UInt8.toNat_ofNat', value]
      omega
    have high : value (b :: bs) / 256 = value bs := by
      rw [value]
      omega
    rw [List.length_cons, write, low, high, ih]

theorem read?_write_append {k n : Nat} (h : n < 256 ^ k) (rest : List UInt8) :
    read? k (write k n ++ rest) = some (n, rest) := by
  have enough : ¬ (write k n ++ rest).length < k := by
    rw [List.length_append, length_write]
    omega
  rw [read?, if_neg enough, List.take_left' (length_write k n), List.drop_left' (length_write k n),
    value_write h]

theorem read?_of_short {k : Nat} {bytes : List UInt8} (h : bytes.length < k) : read? k bytes = none := by
  rw [read?, if_pos h]

theorem write_append_of_read? {k n : Nat} {bytes rest : List UInt8} (h : read? k bytes = some (n, rest)) :
    write k n ++ rest = bytes := by
  unfold read? at h
  split at h
  · cases h
  · next enough =>
    cases h
    have front : (bytes.take k).length = k := by
      rw [List.length_take]
      omega
    have back := write_value (bytes.take k)
    rw [front] at back
    rw [back, List.take_append_drop]

theorem lt_of_read? {k n : Nat} {bytes rest : List UInt8} (h : read? k bytes = some (n, rest)) : n < 256 ^ k := by
  unfold read? at h
  split at h
  · cases h
  · next enough =>
    cases h
    have below := value_lt (bytes.take k)
    rwa [List.length_take, Nat.min_eq_left (by omega)] at below

theorem read?_eq_some {k n : Nat} {bytes rest : List UInt8} :
    read? k bytes = some (n, rest) ↔ n < 256 ^ k ∧ write k n ++ rest = bytes := by
  constructor
  · intro h
    exact ⟨lt_of_read? h, write_append_of_read? h⟩
  · rintro ⟨small, rfl⟩
    exact read?_write_append small rest

theorem write_inj {k m n : Nat} (hm : m < 256 ^ k) (hn : n < 256 ^ k) : write k m = write k n ↔ m = n := by
  constructor
  · intro same
    rw [← value_write hm, same, value_write hn]
  · exact congrArg (write k)

theorem write_eq_map (k n : Nat) : write k n = (List.range k).map fun i => UInt8.ofNat (n / 256 ^ i) := by
  induction k generalizing n with
  | zero => rfl
  | succ k ih =>
    simp [write, ih, List.range_succ_eq_map, Function.comp_def, Nat.div_div_eq_div_mul, Nat.pow_succ']

end LittleEndian

namespace Text

@[simp] theorem length_write (cs : List Char) : (write cs).length = 8 + (utf8 cs).length := by
  rw [write, List.length_append, LittleEndian.length_write]

@[simp] theorem utf8_inj {cs ds : List Char} : utf8 cs = utf8 ds ↔ cs = ds := by
  constructor
  · intro same
    apply Option.some.inj
    rw [← ofUtf8?_utf8 cs, same, ofUtf8?_utf8]
  · exact congrArg utf8

@[simp] theorem write_inj {cs ds : List Char} : write cs = write ds ↔ cs = ds := by
  -- The counts take the same room, so that the characters stand at the same place.
  constructor
  · intro same
    have room : (LittleEndian.write 8 (utf8 cs).length).length = (LittleEndian.write 8 (utf8 ds).length).length := by
      rw [LittleEndian.length_write, LittleEndian.length_write]
    exact utf8_inj.1 (List.append_inj same room).2
  · exact congrArg write

theorem read?_write_append {cs : List Char} (h : (utf8 cs).length < 256 ^ 8) (rest : List UInt8) :
    read? (write cs ++ rest) = some cs := by
  have enough : ¬ (utf8 cs ++ rest).length < (utf8 cs).length := by
    rw [List.length_append]
    omega
  rw [read?, write, List.append_assoc, LittleEndian.read?_write_append h, Option.bind_eq_bind,
    Option.bind_some]
  dsimp only
  rw [if_neg enough, List.take_left' rfl, ofUtf8?_utf8]

theorem read?_eq_some {bytes : List UInt8} {cs : List Char} :
    read? bytes = some cs ↔ ∃ n rest, LittleEndian.read? 8 bytes = some (n, rest) ∧ n ≤ rest.length ∧
      ofUtf8? (rest.take n) = some cs := by
  simp only [read?, Option.bind_eq_bind, Option.bind_eq_some_iff, Prod.exists, Option.ite_none_left_eq_some,
    Nat.not_lt]

theorem read?_write_append_short {n : Nat} (h : n < 256 ^ 8) {bytes : List UInt8} (short : bytes.length < n) :
    read? (LittleEndian.write 8 n ++ bytes) = none := by
  rw [read?, LittleEndian.read?_write_append h, Option.bind_eq_bind, Option.bind_some]
  exact if_pos short

theorem read?_of_proper_prefix {cs : List Char} {part : List UInt8} (h : (utf8 cs).length < 256 ^ 8)
    (front : part <+: write cs) (proper : part ≠ write cs) : read? part = none := by
  have shorter : part.length < (write cs).length := Nat.lt_of_le_of_ne front.length_le (mt front.eq_of_length proper)
  rw [length_write] at shorter
  by_cases few : part.length < 8
  · rw [read?, LittleEndian.read?_of_short few]
    rfl
  · have count : (LittleEndian.write 8 (utf8 cs).length).length ≤ part.length := by
      rw [LittleEndian.length_write]
      omega
    have cut : part = LittleEndian.write 8 (utf8 cs).length ++ (utf8 cs).take (part.length - 8) := by
      have taken := List.prefix_iff_eq_take.1 front
      rwa [write, List.take_append, List.take_of_length_le count, LittleEndian.length_write] at taken
    rw [cut]
    refine read?_write_append_short h ?_
    rw [List.length_take]
    omega

theorem write_prefix_of_read? {bytes : List UInt8} {cs : List Char} (h : read? bytes = some cs) :
    write cs <+: bytes := by
  obtain ⟨n, rest, counted, enough, decoded⟩ := read?_eq_some.1 h
  have text := utf8_of_ofUtf8? decoded
  have size : (utf8 cs).length = n := by
    rw [text, List.length_take]
    omega
  rw [write, size, text, ← LittleEndian.write_append_of_read? counted, List.prefix_append_right_inj]
  exact List.take_prefix n rest

end Text

end VariantSets.Binary
