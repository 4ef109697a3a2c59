import VariantSets.Binary.LittleEndian

/-!
Texts as bytes: the count of bytes in eight bytes, then the characters in UTF-8.
-/
namespace VariantSets.Binary.Text

def utf8 (cs : List Char) : List UInt8 := cs.flatMap String.utf8EncodeChar

def ofUtf8? (bytes : List UInt8) : Option (List Char) :=
  bytes.toByteArray.utf8Decode?.map Array.toList

def write (cs : List Char) : List UInt8 :=
  LittleEndian.write 8 (utf8 cs).length ++ utf8 cs

def read? (bytes : List UInt8) : Option (List Char) := do
  let (n, rest) ← LittleEndian.read? 8 bytes
  if rest.length < n then none else ofUtf8? (rest.take n)

theorem ofUtf8?_utf8 (cs : List Char) : ofUtf8? (utf8 cs) = some cs := by
  have encoded : (utf8 cs).toByteArray = cs.utf8Encode := rfl
  rw [ofUtf8?, encoded, List.utf8Decode?_utf8Encode, Option.map_some]

theorem utf8_of_ofUtf8? {bytes : List UInt8} {cs : List Char} (h : ofUtf8? bytes = some cs) :
    utf8 cs = bytes := by
  obtain ⟨a, ha, rfl⟩ := Option.map_eq_some_iff.1 h
  have valid : bytes.toByteArray.utf8Decode?.isSome := by rw [ha]; rfl
  have back : (utf8 a.toList).toByteArray = bytes.toByteArray := by
    have encoded := ByteArray.utf8Encode_get_utf8Decode? (h := valid)
    simp only [ha, Option.get_some] at encoded
    exact encoded
  simpa using congrArg (fun b => b.data.toList) back

end VariantSets.Binary.Text
