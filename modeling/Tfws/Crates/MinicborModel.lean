import Tfws.Crates.Minicbor

/-! A decoder and an encoder with the documented behaviour of `minicbor`: the
assumptions made of the crate can hold, and runs on concrete octets can be
computed. -/
namespace Minicbor

open Cbor

namespace Model

/-- The type of a negative integer: the smallest signed one that holds it, or `Int`
where none does. -/
def negativeType (form : Form) (n : Nat) : DataType :=
  match form with
  | .inline => .i8
  | .one => if n < 128 then .i8 else .i16
  | .two => if n < 32768 then .i16 else .i32
  | .four => if n < 2147483648 then .i32 else .i64
  | .eight => if n < 9223372036854775808 then .i64 else .int

/-- The type of an unsigned integer, by the form of its head. A number below 24 counts
as one octet. -/
def unsignedType : Form → DataType
  | .inline | .one => .u8
  | .two => .u16
  | .four => .u32
  | .eight => .u64

/-- The type of an item of the last major type: truth values, null, and floats by
their width. -/
def simpleType (form : Form) (n : Nat) : DataType :=
  match form with
  | .inline =>
      if n = 20 ∨ n = 21 then .bool else if n = 22 then .null else if n = 23 then .undefined
      else .simple
  | .one => .simple
  | .two => .f16
  | .four => .f32
  | .eight => .f64

/-- The type that a head announces, by its major type. Only for integers does it
depend on the form. -/
def headType (form : Form) (n : Nat) : Nat → DataType
  | 0 => unsignedType form
  | 1 => negativeType form n
  | 2 => .bytes
  | 3 => .string
  | 4 => .array
  | 5 => .map
  | 6 => .tag
  | _ => simpleType form n

def endOfInput : String := "end of input bytes"

/-- Items of indefinite length and reserved initial octets have no head. They are told
apart by their first octet alone. -/
def initialType (initial : UInt8) : DataType :=
  if initial = 0x5F then .bytesIndef
  else if initial = 0x7F then .stringIndef
  else if initial = 0x9F then .arrayIndef
  else if initial = 0xBF then .mapIndef
  else if initial = 0xFF then .break
  else .unknown initial

/-- `Decoder::datatype`, which looks at the next item without reading it. Only the
first octet and, for negative integers, the argument count. -/
def datatype (input : Bytes) : Except String DataType :=
  match readHead input with
  | some (major, form, n, _) => .ok (headType form n major)
  | none =>
      match input with
      | [] => .error endOfInput
      | initial :: _ => .ok (initialType initial)

def debug : DataType → String
  | .bool => "Bool"
  | .null => "Null"
  | .undefined => "Undefined"
  | .u8 => "U8"
  | .u16 => "U16"
  | .u32 => "U32"
  | .u64 => "U64"
  | .i8 => "I8"
  | .i16 => "I16"
  | .i32 => "I32"
  | .i64 => "I64"
  | .int => "Int"
  | .f16 => "F16"
  | .f32 => "F32"
  | .f64 => "F64"
  | .simple => "Simple"
  | .bytes => "Bytes"
  | .bytesIndef => "BytesIndef"
  | .string => "String"
  | .stringIndef => "StringIndef"
  | .array => "Array"
  | .arrayIndef => "ArrayIndef"
  | .map => "Map"
  | .mapIndef => "MapIndef"
  | .tag => "Tag"
  | .break => "Break"
  | .unknown initial => "Unknown(" ++ toString initial ++ ")"

def unexpectedType : String := "unexpected type"

/-- Read the argument of a head of one major type, in whatever form it is written.
Preference is the caller's business. -/
def argument (major : Nat) (input : Bytes) : Except String (Nat × Bytes) :=
  match readHead input with
  | some (found, _, n, rest) => if found = major then .ok (n, rest) else .error unexpectedType
  | none => .error endOfInput

/-- The argument of a head is read in any of its forms, also in one that is too
long. -/
theorem argument_head {major n : Nat} {form : Form} (hMajor : major < 8) (hFits : form.Fits n)
    (rest : Bytes) : argument major (form.head major n ++ rest) = .ok (n, rest) := by
  rw [argument, readHead_head hMajor hFits]
  simp

theorem datatype_head {major n : Nat} {form : Form} (hMajor : major < 8) (hFits : form.Fits n)
    (rest : Bytes) : datatype (form.head major n ++ rest) = .ok (headType form n major) := by
  unfold datatype
  rw [readHead_head hMajor hFits]

/-- `Decoder::bool`, which reads the two simple values for truth and falsehood and
nothing in their place. -/
def bool (input : Bytes) : Except String (Bool × Bytes) :=
  match input with
  | [] => .error endOfInput
  | initial :: rest =>
      if initial = 0xF4 then .ok (false, rest)
      else if initial = 0xF5 then .ok (true, rest)
      else .error unexpectedType

/-- `Decoder::u64`, which reads an unsigned integer of any form, so that the form has
to be checked apart. -/
def u64 (input : Bytes) : Except String (UInt64 × Bytes) := do
  let (n, rest) ← argument 0 input
  .ok (.ofNat n, rest)

/-- `Decoder::i64`, which reads an integer of either sign as far as a signed one of 64
bits holds it. -/
def i64 (input : Bytes) : Except String (Int64 × Bytes) :=
  match readHead input with
  | some (0, _, n, rest) =>
      if n < 9223372036854775808 then .ok (.ofInt n, rest) else .error "overflow"
  | some (1, _, n, rest) =>
      if n < 9223372036854775808 then .ok (.ofInt (-1 - n), rest) else .error "overflow"
  | some _ => .error unexpectedType
  | none => .error endOfInput

/-- `Decoder::bytes`, which reads a definite string of octets; one that is cut off is
the end of the input. -/
def bytes (input : Bytes) : Except String (Bytes × Bytes) := do
  let (n, rest) ← argument 2 input
  if n ≤ rest.length then .ok (rest.take n, rest.drop n) else .error endOfInput

/-- `Decoder::str`, which reads a definite text and refuses what is no UTF-8 with an
error of its own. -/
def str (input : Bytes) : Except String (String × Bytes) := do
  let (n, rest) ← argument 3 input
  if n ≤ rest.length then
    match Utf8.decode (rest.take n) with
    | some text => .ok (text, rest.drop n)
    | none => .error "invalid utf-8"
  else .error endOfInput

/-- A count, or none where an item of indefinite length opens with `initial`. -/
def count (major : Nat) (initial : UInt8) (input : Bytes) : Except String (Option UInt64 × Bytes) :=
  match input with
  | first :: rest =>
      if first = initial then .ok (none, rest)
      else do
        let (n, rest) ← argument major input
        .ok (some (.ofNat n), rest)
  | [] => .error endOfInput

theorem count_head {major : Nat} {n : UInt64} {form : Form} {initial : UInt8} (hMajor : major < 8)
    (hInitial : initial.toNat % 32 = 31) (hFits : form.Fits n.toNat) (rest : Bytes) :
    count major initial (form.head major n.toNat ++ rest) = .ok (some n, rest) := by
  have hArgument := argument_head hMajor hFits rest
  have hAdditional := hFits.additional_lt
  -- No head has the additional information 31.
  have hOther : UInt8.ofNat (32 * major + form.additional n.toNat) ≠ initial := by
    rintro rfl
    rw [initial_mod major (by omega)] at hInitial
    omega
  rw [Form.head, List.cons_append] at hArgument ⊢
  rw [count, if_neg hOther, hArgument]
  simp [bind, Except.bind]

end Model

/-- A decoder over `readHead`. It shows that the documented behaviour can be had, and
computes on concrete octets. -/
def Decoder.model : Decoder where
  datatype := Model.datatype
  debug := Model.debug
  bool := Model.bool
  u64 := Model.u64
  i64 := Model.i64
  str := Model.str
  bytes := Model.bytes
  array := Model.count 4 0x9F
  map := Model.count 5 0xBF
  datatype_unsigned form n rest hFits :=
    ⟨Model.unsignedType form, by cases form <;> simp [Model.unsignedType],
      Model.datatype_head (by decide) hFits rest⟩
  datatype_negative form n rest hFits hBound := by
      refine ⟨_, ?_, Model.datatype_head (by decide) hFits rest⟩
      cases form with
      | inline => simp [Model.headType, Model.negativeType]
      | one | two | four =>
          simp only [Model.headType, Model.negativeType]
          split_ifs <;> simp
      | eight => simp [Model.headType, Model.negativeType, hBound]
  datatype_negative_wide form n rest hFits hWide := by
      rw [Model.datatype_head (by decide) hFits]
      cases form <;> simp only [Form.Fits, Form.width] at hFits <;> first
        | omega
        | simp [Model.headType, Model.negativeType, Nat.not_lt.mpr hWide]
  datatype_bytes form n rest hFits := Model.datatype_head (by decide) hFits rest
  datatype_string form n rest hFits := Model.datatype_head (by decide) hFits rest
  datatype_array form n rest hFits := Model.datatype_head (by decide) hFits rest
  datatype_map form n rest hFits := Model.datatype_head (by decide) hFits rest
  datatype_bool value rest := by cases value <;> rfl
  bool_encode value rest := by cases value <;> rfl
  u64_head form n rest hFits := by
      rw [Model.u64, Model.argument_head (by decide) hFits]
      simp [bind, Except.bind]
  i64_head_unsigned form n rest hFits hBound := by
      rw [Model.i64, readHead_head (by decide) hFits]
      simp [hBound]
  i64_head_negative form n rest hFits hBound := by
      rw [Model.i64, readHead_head (by decide) hFits]
      simp [hBound]
  str_head form text rest hFits := by
      rw [Model.str, List.append_assoc, Model.argument_head (by decide) hFits]
      simp [bind, Except.bind]
  bytes_head form octets rest hFits := by
      rw [Model.bytes, List.append_assoc, Model.argument_head (by decide) hFits]
      simp [bind, Except.bind]
  array_head form n rest hFits := Model.count_head (by decide) (by decide) hFits rest
  map_head form n rest hFits := Model.count_head (by decide) (by decide) hFits rest

/-- An encoder that appends the encoding of an item, in the preferred form. It never
fails. -/
def Encoder.model : Encoder where
  bool value out := .ok (out ++ (Item.bool value).encode)
  u8 value out := .ok (out ++ (Item.int value.toNat).encode)
  u64 value out := .ok (out ++ (Item.int value.toNat).encode)
  i64 value out := .ok (out ++ (Item.int value.toInt).encode)
  str text out := .ok (out ++ (Item.text text).encode)
  bytes octets out := .ok (out ++ (Item.bytes octets).encode)
  array value out := .ok (out ++ head 4 value.toNat)
  map value out := .ok (out ++ head 5 value.toNat)
  bool_eq _ _ := rfl
  u8_eq _ _ := rfl
  u64_eq _ _ := rfl
  i64_eq _ _ := rfl
  str_eq _ _ _ := rfl
  bytes_eq _ _ _ := rfl
  array_eq _ _ := rfl
  map_eq _ _ := rfl

end Minicbor
