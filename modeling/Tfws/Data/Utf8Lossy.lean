import Tfws.Data.Utf8

/-! Lossy decoding of UTF-8: whatever is no character becomes a replacement
character, one for each longest beginning of a character that was broken off. -/
namespace Utf8

/-- The octets that may follow the first one of a character, and how many octets
follow in all. -/
def followers (first : UInt8) : Option (UInt8 × UInt8 × Nat) :=
  if 0xC2 ≤ first ∧ first ≤ 0xDF then some (0x80, 0xBF, 1)
  else if first = 0xE0 then some (0xA0, 0xBF, 2)
  else if first = 0xED then some (0x80, 0x9F, 2)
  else if 0xE1 ≤ first ∧ first ≤ 0xEF then some (0x80, 0xBF, 2)
  else if first = 0xF0 then some (0x90, 0xBF, 3)
  else if 0xF1 ≤ first ∧ first ≤ 0xF3 then some (0x80, 0xBF, 3)
  else if first = 0xF4 then some (0x80, 0x8F, 3)
  else none

/-- How many of the octets continue a character; the first of them may have narrower
bounds. -/
def continued (low high : UInt8) : Nat → Bytes → Nat
  | 0, _ => 0
  | _ + 1, [] => 0
  | count + 1, octet :: rest =>
      if low ≤ octet ∧ octet ≤ high then continued 0x80 0xBF count rest + 1 else 0

/-- The octets behind the first one that share its replacement character. -/
def brokenOff (first : UInt8) (rest : Bytes) : Nat :=
  match followers first with
  | some (low, high, count) => continued low high count rest
  | none => 0

/-- Decode with `skip` octets left out first: those that the character or the broken
beginning before them has already taken. -/
def lossyFrom : Nat → Bytes → List Char
  | _, [] => []
  | skip + 1, _ :: rest => lossyFrom skip rest
  | 0, first :: rest =>
      match (first :: rest).toByteArray.utf8DecodeChar? 0 with
      | some c => c :: lossyFrom (c.utf8Size - 1) rest
      | none => Char.ofNat 0xFFFD :: lossyFrom (brokenOff first rest) rest

/-- `String::from_utf8_lossy`. It never fails, and different octets may come out as
one text. -/
def fromUtf8Lossy (octets : Bytes) : String := String.ofList (lossyFrom 0 octets)

theorem lossyFrom_append (dropped octets : Bytes) :
    lossyFrom dropped.length (dropped ++ octets) = lossyFrom 0 octets := by
  induction dropped with
  | nil => rfl
  | cons octet rest ih => exact ih

/-- A well-formed character is read as itself, whatever octets follow, so that
decoding is lossy only on what is no text. -/
theorem lossyFrom_encodeChar (c : Char) (octets : Bytes) :
    lossyFrom 0 (String.utf8EncodeChar c ++ octets) = c :: lossyFrom 0 octets := by
  have hDecode : (String.utf8EncodeChar c ++ octets).toByteArray.utf8DecodeChar? 0 = some c := by
    rw [List.toByteArray_append]
    exact ByteArray.utf8DecodeChar?_utf8EncodeChar_append
  have hLength := String.length_utf8EncodeChar c
  cases hOctets : String.utf8EncodeChar c with
  | nil =>
      have hPos := c.utf8Size_pos
      rw [hOctets, List.length_nil] at hLength
      omega
  | cons first others =>
      rw [hOctets, List.cons_append] at hDecode
      rw [hOctets, List.length_cons] at hLength
      rw [List.cons_append, lossyFrom, hDecode]
      simp only [← hLength, Nat.add_sub_cancel, lossyFrom_append]

/-- Nothing is lost of a text: only octets that are no text gain replacement
characters. -/
@[simp] theorem fromUtf8Lossy_encode (text : String) : fromUtf8Lossy (encode text) = text := by
  have hChars (chars : List Char) :
      lossyFrom 0 (chars.flatMap String.utf8EncodeChar) = chars := by
    induction chars with
    | nil => rfl
    | cons c rest ih => rw [List.flatMap_cons, lossyFrom_encodeChar, ih]
  rw [fromUtf8Lossy, encode, hChars, String.ofList_toList]

end Utf8
