import VariantSets.Proofs.BitSet.Exchange
import VariantSets.TokenSet.Exchange

/-! What the written forms of a payload tell of it. A text tells everything but the width of a bitmap, since a literal
and a numeral never begin alike. Bytes tell the width by how many they are, and tokens from a bitmap by being more than
any bitmap has; but no tokens at all are written as a count of zero, which is as long as the longest bitmap. -/
namespace VariantSets.Payload

variable {w w' : Width} {b : Bitmap w} {b' : Bitmap w'} {cs ds : List Char} {p q : Payload}

theorem bits_inj : bits w b = bits w' b' ↔ w = w' ∧ b.toNat = b'.toNat := by
  constructor
  · intro same
    cases same
    exact ⟨rfl, rfl⟩
  · rintro ⟨rfl, same⟩
    rw [BitVec.toNat_inj.1 same]

theorem eq_iff : p = q ↔ p.width? = q.width? ∧ p.toNat? = q.toNat? ∧ p.contents? = q.contents? := by
  cases p with
  | bits w b =>
    cases q with
    | bits w' b' =>
      rw [bits_inj]
      simp [width?, toNat?, contents?]
    | tokens ds => simp [width?]
  | tokens cs =>
    cases q with
    | bits w' b' => simp [width?]
    | tokens ds => simp [width?, toNat?, contents?]

theorem toJson_eq_iff : p.toJson = q.toJson ↔ p.toNat? = q.toNat? ∧ p.contents? = q.contents? := by
  cases p with
  | bits w b =>
    cases q with
    | bits w' b' => simp [toJson, toNat?, contents?]
    | tokens ds => simp [toJson, toNat?, (Json.Text.write_ne_numeral ds b.toNat).symm]
  | tokens cs =>
    cases q with
    | bits w' b' => simp [toJson, toNat?, Json.Text.write_ne_numeral cs b'.toNat]
    | tokens ds => simp [toJson, toNat?, contents?]

theorem length_toBinary_bits (b : Bitmap w) : (bits w b).toBinary.length = w.bytes := by
  rw [toBinary]
  exact Binary.LittleEndian.length_write w.bytes b.toNat

theorem length_toBinary_tokens (cs : List Char) :
    (tokens cs).toBinary.length = Width.long.bytes + (Binary.Text.utf8 cs).length := by
  rw [toBinary]
  exact Binary.Text.length_write cs

theorem toBinary_bits_eq_bits : (bits w b).toBinary = (bits w' b').toBinary ↔ bits w b = bits w' b' := by
  constructor
  · intro same
    have lengths := congrArg List.length same
    rw [length_toBinary_bits, length_toBinary_bits, Width.bytes_inj] at lengths
    subst lengths
    have number := (Binary.LittleEndian.write_inj (BitSet.toNat_lt_bytes b) (BitSet.toNat_lt_bytes b')).1 same
    exact bits_inj.2 ⟨rfl, number⟩
  · exact congrArg toBinary

theorem toBinary_tokens_eq_tokens : (tokens cs).toBinary = (tokens ds).toBinary ↔ tokens cs = tokens ds := by
  simp [toBinary]

/-- The payloads that only their text tells apart: an empty bitmap of the long width, and no tokens. -/
def Clash (p q : Payload) : Prop := p = bits .long 0#64 ∧ q = tokens []

theorem toBinary_bits_eq_tokens : (bits w b).toBinary = (tokens cs).toBinary ↔ Clash (bits w b) (tokens cs) := by
  -- Tokens take the bytes of their count before those of their characters, so there is room for none.
  constructor
  · intro same
    have lengths := congrArg List.length same
    rw [length_toBinary_bits, length_toBinary_tokens] at lengths
    -- The count alone is as long as the longest bitmap, so the lengths leave one width and no characters.
    have most := w.bytes_le
    have long : w = .long := Width.bytes_inj.1 (by omega)
    have none : Binary.Text.utf8 cs = Binary.Text.utf8 [] := List.length_eq_zero_iff.1 (by omega)
    subst long
    cases Binary.Text.utf8_inj.1 none
    have zero := (Binary.LittleEndian.write_inj (BitSet.toNat_lt_bytes b) (by decide)).1 same
    exact ⟨bits_inj.2 ⟨rfl, zero⟩, rfl⟩
  · rintro ⟨bitmap, text⟩
    rw [bitmap, text]
    decide

theorem toBinary_eq_iff : p.toBinary = q.toBinary ↔ p = q ∨ Clash p q ∨ Clash q p := by
  cases p with
  | bits w b =>
    cases q with
    | bits w' b' => simp [toBinary_bits_eq_bits, Clash]
    | tokens ds => simp [toBinary_bits_eq_tokens, Clash]
  | tokens cs =>
    cases q with
    | bits w' b' =>
      rw [eq_comm, toBinary_bits_eq_tokens]
      simp [Clash]
    | tokens ds => simp [toBinary_tokens_eq_tokens, Clash]

/-- Payloads are known by kind, number and contents. Their texts are equal exactly if number and contents are, so that
no tokens have the text of a bitmap, and bitmaps of any widths the same text if they are the same number. Their bytes
are equal exactly if the payloads are, but for the one clash. Sets of both families are written as their payloads. -/
theorem forms_identify :
    (∀ p q : Payload,
      (p = q ↔ p.width? = q.width? ∧ p.toNat? = q.toNat? ∧ p.contents? = q.contents?) ∧
      (p.toJson = q.toJson ↔ p.toNat? = q.toNat? ∧ p.contents? = q.contents?) ∧
      (p.toBinary = q.toBinary ↔ p = q ∨ Clash p q ∨ Clash q p)) ∧
    (∀ (w : Width) (b : Bitmap w) (cs : List Char), (bits w b).toJson ≠ (tokens cs).toJson) ∧
    (∀ (w w' : Width) (b : Bitmap w) (b' : Bitmap w'), (bits w b).toJson = (bits w' b').toJson ↔ b.toNat = b'.toNat) ∧
    (∀ {V : Type} {E : Enumeration V} {w : Width} (s : BitSet E w),
      s.payload = bits w s.bitmap ∧ s.toJson = s.payload.toJson ∧ s.toBinary = s.payload.toBinary) ∧
    ∀ {V : Type} {T : TokenTable V} (s : TokenSet T),
      s.payload = tokens s.contents ∧ s.toJson = s.payload.toJson ∧ s.toBinary = s.payload.toBinary := by
  refine ⟨fun p q => ⟨eq_iff, toJson_eq_iff, toBinary_eq_iff⟩, fun w b cs => ?_, fun w w' b b' => ?_,
    fun s => ⟨rfl, rfl, rfl⟩, fun s => ⟨rfl, rfl, rfl⟩⟩
  · rw [ne_eq, toJson_eq_iff]
    simp [toNat?]
  · rw [toJson_eq_iff]
    simp [toNat?, contents?]

end VariantSets.Payload
