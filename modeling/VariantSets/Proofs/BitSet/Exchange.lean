import VariantSets.BitSet.Family
import VariantSets.Proofs.Binary
import VariantSets.Proofs.Json

/-! Bit sets that are written and read. Both written forms give the number of the bitmap, in which no bit is lost:
as text its numeral, as bytes the powers of 256 that fit the width, the lowest first. What is read is any number
that fits, so that a numeral is understood at every width with room for it, while bytes are cut at the width. -/
namespace VariantSets.BitSet

variable {V : Type} {E : Enumeration V} {w : Width}

theorem ofRead_eq_ok {r : Option (BitSet E w)} {s : BitSet E w} : ofRead r = .ok s ↔ r = some s := by
  cases r <;> simp [ofRead]

theorem ofRead_eq_error {r : Option (BitSet E w)} {e : Refusal} :
    ofRead r = .error e ↔ r = none ∧ e = .unread .malformed := by
  cases r <;> simp [ofRead, eq_comm]

theorem map_ofBitmap_eq_some {b : Option (Bitmap w)} {s : BitSet E w} :
    b.map ofBitmap = some s ↔ b = some s.bitmap ∧ s.frozen = false := by
  cases s
  cases b <;> simp [ofBitmap, eq_comm]

theorem bitmapOfJson?_eq_some {text : List Char} {b : Bitmap w} :
    Payload.bitmapOfJson? w text = some b ↔ Json.Number.States text b.toNat := by
  rw [← Json.Number.read?_eq_some]
  simp only [Payload.bitmapOfJson?, Option.bind_eq_bind, Option.bind_eq_some_iff, Option.ite_none_right_eq_some,
    Option.some_inj]
  constructor
  · rintro ⟨n, read, fits, rfl⟩
    rwa [fits]
  · intro read
    exact ⟨b.toNat, read, by simp, by simp⟩

theorem ofSource_json_eq_ok {text : List Char} {s : BitSet E w} :
    ofSource E (.json text) = .ok s ↔ Json.Number.States text s.bitmap.toNat ∧ s.frozen = false := by
  rw [ofSource, ofRead_eq_ok, ofJson?, map_ofBitmap_eq_some, bitmapOfJson?_eq_some]

theorem ofSource_json_eq_error {text : List Char} {e : Refusal} :
    ofSource (w := w) E (.json text) = .error e ↔
      (¬ ∃ n < 2 ^ w.bits, Json.Number.States text n) ∧ e = .unread .malformed := by
  rw [ofSource, ofRead_eq_error, ofJson?, Option.map_eq_none_iff, Option.eq_none_iff_forall_ne_some]
  simp only [ne_eq, bitmapOfJson?_eq_some]
  refine and_congr_left fun _ => ⟨?_, ?_⟩
  · rintro none ⟨n, fits, stated⟩
    refine none (BitVec.ofNat w.bits n) ?_
    rwa [BitVec.toNat_ofNat, Nat.mod_eq_of_lt fits]
  · intro none b stated
    exact none ⟨b.toNat, b.isLt, stated⟩

theorem states_toJson (s : BitSet E w) {n : Nat} : Json.Number.States s.toJson n ↔ n = s.bitmap.toNat := by
  rw [← Json.Number.read?_eq_some, toJson, payload, Payload.toJson, Json.Number.read?_write, Option.some_inj,
    eq_comm]

theorem ofSource_toJson_eq_ok {w' : Width} {s : BitSet E w} {t : BitSet E w'} :
    ofSource E (.json s.toJson) = .ok t ↔ t.bitmap.toNat = s.bitmap.toNat ∧ t.frozen = false := by
  rw [ofSource_json_eq_ok, states_toJson]

/-- A text is read exactly if it is the numeral of a number that fits, with nothing but blanks around it. The set is
open and its bitmap has that number; any other text is malformed. What is written of a set is the numeral of its
bitmap, so that it is read back, and at another width exactly if the number fits there. -/
theorem json_codec (E : Enumeration V) (w : Width) :
    (∀ text : List Char,
      (∀ s : BitSet E w, ofSource E (.json text) = .ok s ↔
        ∃ n < 2 ^ w.bits, Json.Number.States text n ∧ s.bitmap.toNat = n ∧ s.frozen = false) ∧
      ∀ e : Refusal, ofSource (w := w) E (.json text) = .error e ↔
        (¬ ∃ n < 2 ^ w.bits, Json.Number.States text n) ∧ e = .unread .malformed) ∧
    ∀ s : BitSet E w,
      Json.Number.Numeral s.toJson s.bitmap.toNat ∧ ofSource E (.json s.toJson) = .ok ⟨s.bitmap, false⟩ ∧
      ∀ w' : Width,
        ((∃ t : BitSet E w', ofSource E (.json s.toJson) = .ok t) ↔ s.bitmap.toNat < 2 ^ w'.bits) ∧
        ∀ t : BitSet E w', ofSource E (.json s.toJson) = .ok t ↔
          t.bitmap.toNat = s.bitmap.toNat ∧ t.frozen = false := by
  refine ⟨fun text => ⟨fun s => ?_, fun e => ofSource_json_eq_error⟩,
    fun s => ⟨?_, ?_, fun w' => ⟨?_, ?_⟩⟩⟩
  · rw [ofSource_json_eq_ok]
    constructor
    · rintro ⟨stated, opened⟩
      exact ⟨_, s.bitmap.isLt, stated, rfl, opened⟩
    · rintro ⟨n, _, stated, rfl, opened⟩
      exact ⟨stated, opened⟩
  · exact Json.Number.numeral_write s.bitmap.toNat
  · exact ofSource_toJson_eq_ok.2 ⟨rfl, rfl⟩
  · simp only [ofSource_toJson_eq_ok]
    constructor
    · rintro ⟨t, same, _⟩
      exact same ▸ t.bitmap.isLt
    · intro fits
      exact ⟨ofBitmap (BitVec.ofNat w'.bits s.bitmap.toNat), Nat.mod_eq_of_lt fits, rfl⟩
  · exact fun t => ofSource_toJson_eq_ok

-- Nothing, a sign, a leading zero, a fraction, an exponent, one more than the width holds, a second numeral.
example : ["", "-0", "+1", "01", "1.0", "1e0", "256", "1 2"].all fun text =>
    (Payload.bitmapOfJson? .byte text.toList).isNone := by decide

theorem toNat_lt_bytes (b : Bitmap w) : b.toNat < 256 ^ w.bytes := by
  have range : 256 ^ w.bytes = 2 ^ w.bits := (Nat.pow_mul 2 8 w.bytes).symm
  rw [range]
  exact b.isLt

theorem length_toBinary (s : BitSet E w) : s.toBinary.length = w.bytes := by
  exact Binary.LittleEndian.length_write w.bytes s.bitmap.toNat

theorem bitmapOfBinary?_eq_some {bytes : List UInt8} {b : Bitmap w} :
    Payload.bitmapOfBinary? w bytes = some b ↔ Binary.LittleEndian.write w.bytes b.toNat <+: bytes := by
  simp only [Payload.bitmapOfBinary?, Option.map_eq_some_iff, Prod.exists, Binary.LittleEndian.read?_eq_some]
  constructor
  · rintro ⟨n, rest, ⟨small, rfl⟩, rfl⟩
    have fits : n % 2 ^ w.bits = n := by
      rw [Width.bits, Nat.pow_mul]
      exact Nat.mod_eq_of_lt small
    rw [BitVec.toNat_ofNat, fits]
    exact List.prefix_append _ rest
  · rintro ⟨rest, rfl⟩
    exact ⟨b.toNat, rest, ⟨toNat_lt_bytes b, rfl⟩, by simp⟩

theorem ofSource_binary_eq_ok {bytes : List UInt8} {s : BitSet E w} :
    ofSource E (.binary bytes) = .ok s ↔ s.toBinary <+: bytes ∧ s.frozen = false := by
  rw [ofSource, ofRead_eq_ok, ofBinary?, map_ofBitmap_eq_some, bitmapOfBinary?_eq_some]
  rfl

theorem ofSource_binary_eq_error {bytes : List UInt8} {e : Refusal} :
    ofSource (w := w) E (.binary bytes) = .error e ↔ bytes.length < w.bytes ∧ e = .unread .malformed := by
  rw [ofSource, ofRead_eq_error, ofBinary?, Option.map_eq_none_iff, Payload.bitmapOfBinary?,
    Option.map_eq_none_iff, Binary.LittleEndian.read?]
  simp

theorem toBinary_prefix_iff {bytes : List UInt8} {s : BitSet E w} :
    s.toBinary <+: bytes ↔ s.toBinary = bytes.take w.bytes := by
  rw [List.prefix_iff_eq_take, length_toBinary]

/-- A set is written in as many bytes as its width has, the lowest first, and read back whatever follows them.
Fewer bytes are malformed; of any others as many as the width has are read, and are what is written of the open set
that they give. So bitmaps and byte strings of that length stand for each other. -/
theorem binary_codec (E : Enumeration V) (w : Width) :
    (∀ s : BitSet E w, s.toBinary.length = w.bytes ∧
      s.toBinary = ((List.range w.bytes).map fun i => UInt8.ofNat (s.bitmap.toNat / 256 ^ i)) ∧
      ∀ rest, ofSource E (.binary (s.toBinary ++ rest)) = .ok ⟨s.bitmap, false⟩) ∧
    (∀ bytes : List UInt8,
      (∀ e : Refusal, ofSource (w := w) E (.binary bytes) = .error e ↔
        bytes.length < w.bytes ∧ e = .unread .malformed) ∧
      ((∃ s : BitSet E w, ofSource E (.binary bytes) = .ok s) ↔ w.bytes ≤ bytes.length) ∧
      ∀ s : BitSet E w, ofSource E (.binary bytes) = .ok s ↔
        s.toBinary = bytes.take w.bytes ∧ s.frozen = false) ∧
    ∀ (b : Bitmap w) (bytes : List UInt8), (ofBitmap b : BitSet E w).toBinary = bytes ↔
      bytes.length = w.bytes ∧ ofSource E (.binary bytes) = .ok (ofBitmap b : BitSet E w) := by
  refine ⟨fun s => ⟨s.length_toBinary, ?_, fun rest => ?_⟩,
    fun bytes => ⟨fun e => ofSource_binary_eq_error, ?_, fun s => ?_⟩, fun b bytes => ?_⟩
  · exact Binary.LittleEndian.write_eq_map w.bytes s.bitmap.toNat
  · exact ofSource_binary_eq_ok.2 ⟨List.prefix_append _ rest, rfl⟩
  · cases read : ofSource (w := w) E (.binary bytes) with
    | ok s =>
      obtain ⟨front, _⟩ := ofSource_binary_eq_ok.1 read
      simpa [length_toBinary] using front.length_le
    | error e =>
      have short := (ofSource_binary_eq_error.1 read).1
      simp [short]
  · rw [ofSource_binary_eq_ok, toBinary_prefix_iff]
  · rw [ofSource_binary_eq_ok]
    constructor
    · rintro rfl
      exact ⟨length_toBinary _, List.prefix_rfl, rfl⟩
    · rintro ⟨length, front, _⟩
      exact front.eq_of_length ((length_toBinary _).trans length.symm)

end VariantSets.BitSet
