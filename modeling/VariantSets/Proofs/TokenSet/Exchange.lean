import VariantSets.Proofs.Binary
import VariantSets.Proofs.TokenSet.Validity

/-! Token sets that are written and read. Both written forms give the contents back character by character, so
that a set is read as its contents are parsed: a valid one as itself, any other with the fault that parsing
finds. The binary form says how long it is, so that no part of it is read, and what is read from any bytes stands
at their front as it is written. -/
namespace VariantSets.TokenSet

variable {V : Type} {T : TokenTable V}

theorem blame_of_validateFrom {before cs : List Char} {f : Fault} (h : validateFrom T before cs = .error f) :
    ∃ c ∈ cs, f = .invalidToken c ∨ f = .duplicateToken c := by
  induction cs generalizing before with
  | nil => cases h
  | cons c cs ih =>
    unfold validateFrom at h
    split at h
    · cases h
      exact ⟨c, List.mem_cons_self, .inl rfl⟩
    split at h
    · cases h
      exact ⟨c, List.mem_cons_self, .inr rfl⟩
    · obtain ⟨d, hd, blamed⟩ := ih h
      exact ⟨d, List.mem_cons_of_mem c hd, blamed⟩

/-- Reading comes to what parsing the characters comes to. The set is open and has them in their order; a fault
blames one of them, in the words that parsing has for it. -/
structure ReadsAs (T : TokenTable V) (cs : List Char) (r : Except ReadFault (TokenSet T)) : Prop where
  parsed : r = (parse T cs).mapError .refused
  ok_iff (s : TokenSet T) : r = .ok s ↔ (ofContents T cs).validate = .ok () ∧ s = ⟨cs, false⟩
  error_iff (e : ReadFault) : r = .error e ↔ ∃ f, parse T cs = .error f ∧ e = .refused f
  words (e : ReadFault) : r = .error e → ∃ f, parse T cs = .error f ∧ e.message? = some f.message ∧
    ∃ c ∈ cs, f = .invalidToken c ∨ f = .duplicateToken c

theorem readsAs_ofRead (T : TokenTable V) (cs : List Char) : ReadsAs T cs (ofRead T (some cs)) where
  parsed := rfl
  ok_iff _ := mapError_eq_ok.trans parse_eq_ok
  error_iff _ := mapError_eq_error
  words e failed := by
    obtain ⟨f, refused, rfl⟩ := mapError_eq_error.1 failed
    exact ⟨f, refused, rfl, blame_of_validateFrom (parse_eq_error.1 refused)⟩

/-- A set that was written as text is read as its contents are parsed, with any blanks around the text. -/
theorem ofJson_toJson (s : TokenSet T) {before after : List Char} (hb : before.all Json.isBlank)
    (ha : after.all Json.isBlank) : ReadsAs T s.contents (ofJson T (before ++ s.toJson ++ after)) := by
  have read : Json.Text.read? (before ++ s.toJson ++ after) = some s.contents :=
    Json.Text.read?_write hb ha s.contents
  rw [ofJson, read]
  exact readsAs_ofRead T s.contents

def marks : TokenTable (Fin 4) :=
  .ofPairs "Marks" [("Quote", '"'), ("Slash", '\\'), ("Bell", '\x07'), ("Grin", '😀')]

theorem ofJson_toJson_marks :
    let s : TokenSet marks := ⟨['😀', '\\', '"', '\x07'], true⟩
    let t : TokenSet marks := ⟨['\x07', '😀', '\x07', 'x'], false⟩
    ([' ', '\n'].all Json.isBlank ∧ ['\t'].all Json.isBlank) ∧
      s.toJson = ['"', '😀', '\\', '\\', '\\', '"', '\\', 'u', '0', '0', '0', '7', '"'] ∧
      ReadsAs marks s.contents (ofJson marks ([' ', '\n'] ++ s.toJson ++ ['\t'])) ∧
      ofJson marks ([' ', '\n'] ++ s.toJson ++ ['\t']) = .ok ⟨s.contents, false⟩ ∧
      ofJson marks ([' ', '\n'] ++ t.toJson ++ ['\t']) = .error (.refused (.duplicateToken '\x07')) := by
  intro s t
  have hb : [' ', '\n'].all Json.isBlank := by decide
  have ha : ['\t'].all Json.isBlank := by decide
  have valid : s.validate = .ok () := by decide
  have repeated : parse marks t.contents = .error (.duplicateToken '\x07') := rfl
  refine ⟨⟨hb, ha⟩, by decide, ofJson_toJson s hb ha, ?_, ?_⟩
  · exact ((ofJson_toJson s hb ha).ok_iff _).2 ⟨valid, rfl⟩
  · exact ((ofJson_toJson t hb ha).error_iff _).2 ⟨_, repeated, rfl⟩

/-- A set whose bytes can be counted in eight is read from what was written of it as its contents are parsed,
whatever follows, and not at all from a part. What is read from any bytes is valid and written at their front. -/
theorem ofBinary_toBinary (T : TokenTable V) :
    (∀ s : TokenSet T, (Binary.Text.utf8 s.contents).length < 2 ^ 64 →
      (∀ rest, ReadsAs T s.contents (ofBinary T (s.toBinary ++ rest))) ∧
      ∀ part, part <+: s.toBinary → part ≠ s.toBinary →
        ∃ e, ofBinary T part = .error e ∧ e.message? = none) ∧
    ∀ (bytes : List UInt8) (s : TokenSet T), ofBinary T bytes = .ok s →
      s.validate = .ok () ∧ s.toBinary <+: bytes := by
  constructor
  · intro s counted
    constructor
    · intro rest
      have read : Binary.Text.read? (s.toBinary ++ rest) = some s.contents :=
        Binary.Text.read?_write_append counted rest
      rw [ofBinary, read]
      exact readsAs_ofRead T s.contents
    · intro part front proper
      have unread : Binary.Text.read? part = none := Binary.Text.read?_of_proper_prefix counted front proper
      refine ⟨.malformed, ?_, rfl⟩
      rw [ofBinary, unread]
      rfl
  · intro bytes s made
    rw [ofBinary] at made
    cases read : Binary.Text.read? bytes with
    | none =>
      rw [read] at made
      cases made
    | some cs =>
      rw [read] at made
      obtain ⟨valid, rfl⟩ := ((readsAs_ofRead T cs).ok_iff s).1 made
      exact ⟨valid, Binary.Text.write_prefix_of_read? read⟩

theorem ofBinary_toBinary_marks :
    let s : TokenSet marks := ⟨['😀', '"'], true⟩
    let bytes : List UInt8 := [5, 0, 0, 0, 0, 0, 0, 0, 0xf0, 0x9f, 0x98, 0x80, 0x22]
    ((Binary.Text.utf8 s.contents).length < 2 ^ 64 ∧ s.toBinary = bytes ∧
        bytes.take 12 <+: s.toBinary ∧ bytes.take 12 ≠ s.toBinary ∧
        ofBinary marks (bytes ++ [7]) = .ok ⟨s.contents, false⟩) ∧
      ReadsAs marks s.contents (ofBinary marks (s.toBinary ++ [7])) ∧
      (∃ e, ofBinary marks (bytes.take 12) = .error e ∧ e.message? = none) ∧
      s.toBinary <+: bytes ++ [7] := by
  intro s bytes
  obtain ⟨written, read⟩ := ofBinary_toBinary marks
  have counted : (Binary.Text.utf8 s.contents).length < 2 ^ 64 := by decide
  have form : s.toBinary = bytes := by decide
  have front : bytes.take 12 <+: s.toBinary := form ▸ List.take_prefix 12 bytes
  have proper : bytes.take 12 ≠ s.toBinary := by decide
  have whole := (written s counted).1 [7]
  have made : ofBinary marks (bytes ++ [7]) = .ok ⟨s.contents, false⟩ :=
    form ▸ (whole.ok_iff _).2 ⟨by decide, rfl⟩
  exact ⟨⟨counted, form, front, proper, made⟩, whole, (written s counted).2 _ front proper, (read _ _ made).2⟩

end VariantSets.TokenSet
