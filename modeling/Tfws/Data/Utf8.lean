import Mathlib.Data.List.Basic

/-- Octet strings. Buffers, slices and decoder inputs are all read as lists. -/
abbrev Bytes := List UInt8

namespace Utf8

/-- The UTF-8 octets of a text. A Lean `String`, like a Rust one, is exactly a
sequence of Unicode scalar values. -/
def encode (text : String) : Bytes :=
  text.toList.flatMap String.utf8EncodeChar

/-- Strict decoding: overlong forms, surrogates and truncated sequences fail, so that
a text has one spelling in octets. -/
def decode (octets : Bytes) : Option String :=
  String.fromUTF8? octets.toByteArray

theorem toByteArray_encode (text : String) : (encode text).toByteArray = text.toByteArray :=
  String.utf8Encode_toList

/-- Octets are determined by the array that holds them. -/
theorem toByteArray_inj {first second : Bytes} (h : first.toByteArray = second.toByteArray) :
    first = second := by
  have hData := congrArg (fun octets => octets.data.toList) h
  simpa using hData

/-- No two texts have the same octets, since decoding gives the text back. -/
theorem encode_injective {first second : String} (h : encode first = encode second) :
    first = second := by
  have hArray := congrArg List.toByteArray h
  rw [toByteArray_encode, toByteArray_encode] at hArray
  exact String.toByteArray_inj.mp hArray

/-- A text is read back exactly from its own octets and from no others: what is not
the encoding of a text, overlong forms and surrogates included, is not read. -/
theorem decode_eq_some {octets : Bytes} {text : String} :
    decode octets = some text ↔ octets = encode text := by
  unfold decode String.fromUTF8?
  constructor
  · intro h
    split at h
    · rename_i hValid
      obtain rfl := Option.some.inj h
      have hArray := toByteArray_encode (String.fromUTF8 octets.toByteArray hValid)
      exact toByteArray_inj hArray.symm
    · cases h
  · rintro rfl
    have hArray := toByteArray_encode text
    have hValid : (encode text).toByteArray.IsValidUTF8 := hArray ▸ text.isValidUTF8
    rw [dif_pos hValid]
    exact congrArg some (String.toByteArray_inj.mp hArray)

/-- Every text is read back from its octets, whatever characters it has. -/
@[simp] theorem decode_encode (text : String) : decode (encode text) = some text :=
  decode_eq_some.mpr rfl

@[simp] theorem encode_empty : encode "" = [] := by decide

@[simp] theorem encode_eq_nil {text : String} : encode text = [] ↔ text = "" := by
  rw [← encode_empty]
  exact ⟨encode_injective, congrArg encode⟩

/-- An ASCII character is one octet with the same number. -/
theorem encodeChar_ascii {c : Char} (h : c.toNat < 128) :
    String.utf8EncodeChar c = [UInt8.ofNat c.toNat] :=
  if_pos (Nat.le_of_lt_succ h)

/-- Other characters begin with an octet outside ASCII, so that none of them can pass
for an ASCII character. -/
theorem encodeChar_not_ascii {c : Char} (h : ¬c.toNat < 128) :
    ∃ octet ∈ String.utf8EncodeChar c, 128 ≤ octet.toNat := by
  have hOne : ¬c.val.toNat ≤ 127 := fun hLe => h (Nat.lt_succ_of_le hLe)
  rw [String.utf8EncodeChar, if_neg hOne]
  split_ifs
  · exact ⟨_, List.mem_cons_self .., by rw [UInt8.toNat_ofNat']; omega⟩
  · exact ⟨_, List.mem_cons_self .., by rw [UInt8.toNat_ofNat']; omega⟩
  · exact ⟨_, List.mem_cons_self .., by rw [UInt8.toNat_ofNat']; omega⟩

/-- The octets of an ASCII text are its characters, one for each. -/
theorem encode_ascii {text : String} (h : ∀ c ∈ text.toList, c.toNat < 128) :
    encode text = text.toList.map fun c => UInt8.ofNat c.toNat := by
  rw [encode, List.map_eq_flatMap]
  exact List.flatMap_congr fun c hMem => encodeChar_ascii (h c hMem)

/-- A test for octets that only ASCII passes can be run on the characters. The length
in octets is then the one in characters. -/
theorem length_all_iff {test : UInt8 → Bool} (hTest : ∀ octet, test octet → octet.toNat < 128)
    {text : String} {length : Nat} :
    (encode text).length = length ∧ (encode text).all test ↔
      text.toList.length = length ∧
        ∀ c ∈ text.toList, c.toNat < 128 ∧ test (UInt8.ofNat c.toNat) := by
  constructor
  · rintro ⟨hLength, hAll⟩
    have hOctets := List.all_eq_true.mp hAll
    have hAscii : ∀ c ∈ text.toList, c.toNat < 128 := by
      intro c hMem
      by_contra hNot
      obtain ⟨octet, hOctet, hLarge⟩ := encodeChar_not_ascii hNot
      have hSmall := hTest octet (hOctets octet (List.mem_flatMap_of_mem hMem hOctet))
      omega
    rw [encode_ascii hAscii] at hLength hOctets
    exact ⟨by simpa using hLength, fun c hMem =>
      ⟨hAscii c hMem, hOctets _ (List.mem_map_of_mem hMem)⟩⟩
  · rintro ⟨hLength, hAll⟩
    rw [encode_ascii fun c hMem => (hAll c hMem).1, List.length_map, List.all_map]
    exact ⟨hLength, List.all_eq_true.mpr fun c hMem => (hAll c hMem).2⟩

end Utf8
