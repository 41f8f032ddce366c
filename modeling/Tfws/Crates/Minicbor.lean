import Tfws.Cbor.Item

/-! The part of `minicbor` that the codec calls. The crate itself is not
modelled: a `Decoder` and an `Encoder` are any operations with its documented
behaviour, which is stated field by field. A decoder is represented by the
octets still in front of it. -/
namespace Minicbor

open Cbor

/-- `minicbor::data::Type`, what the decoder takes the next item to be before it reads
it. -/
inductive DataType where
  | bool
  | null
  | undefined
  | u8
  | u16
  | u32
  | u64
  | i8
  | i16
  | i32
  | i64
  | int
  | f16
  | f32
  | f64
  | simple
  | bytes
  | bytesIndef
  | string
  | stringIndef
  | array
  | arrayIndef
  | map
  | mapIndef
  | tag
  | break
  | unknown (initial : UInt8)
  deriving DecidableEq

/-- `minicbor::Decoder`: every reading operation takes any form of head, not
only the preferred one. Nothing is said about input that is not well formed.
Errors are given by their text. -/
structure Decoder where
  datatype : Bytes → Except String DataType
  /-- The `Debug` text of a type. -/
  debug : DataType → String
  bool : Bytes → Except String (Bool × Bytes)
  u64 : Bytes → Except String (UInt64 × Bytes)
  i64 : Bytes → Except String (Int64 × Bytes)
  str : Bytes → Except String (String × Bytes)
  bytes : Bytes → Except String (Bytes × Bytes)
  array : Bytes → Except String (Option UInt64 × Bytes)
  map : Bytes → Except String (Option UInt64 × Bytes)
  datatype_unsigned : ∀ (form : Form) (n : Nat) (rest : Bytes), form.Fits n →
    ∃ type ∈ [DataType.u8, .u16, .u32, .u64], datatype (form.head 0 n ++ rest) = .ok type
  datatype_negative : ∀ (form : Form) (n : Nat) (rest : Bytes), form.Fits n →
    n < 9223372036854775808 →
    ∃ type ∈ [DataType.i8, .i16, .i32, .i64], datatype (form.head 1 n ++ rest) = .ok type
  datatype_negative_wide : ∀ (form : Form) (n : Nat) (rest : Bytes), form.Fits n →
    9223372036854775808 ≤ n → datatype (form.head 1 n ++ rest) = .ok .int
  datatype_bytes : ∀ (form : Form) (n : Nat) (rest : Bytes), form.Fits n →
    datatype (form.head 2 n ++ rest) = .ok .bytes
  datatype_string : ∀ (form : Form) (n : Nat) (rest : Bytes), form.Fits n →
    datatype (form.head 3 n ++ rest) = .ok .string
  datatype_array : ∀ (form : Form) (n : Nat) (rest : Bytes), form.Fits n →
    datatype (form.head 4 n ++ rest) = .ok .array
  datatype_map : ∀ (form : Form) (n : Nat) (rest : Bytes), form.Fits n →
    datatype (form.head 5 n ++ rest) = .ok .map
  datatype_bool : ∀ (value : Bool) (rest : Bytes),
    datatype ((Item.bool value).encode ++ rest) = .ok .bool
  bool_encode : ∀ (value : Bool) (rest : Bytes),
    bool ((Item.bool value).encode ++ rest) = .ok (value, rest)
  u64_head : ∀ (form : Form) (n : UInt64) (rest : Bytes), form.Fits n.toNat →
    u64 (form.head 0 n.toNat ++ rest) = .ok (n, rest)
  i64_head_unsigned : ∀ (form : Form) (n : Nat) (rest : Bytes), form.Fits n →
    n < 9223372036854775808 → i64 (form.head 0 n ++ rest) = .ok (Int64.ofInt n, rest)
  i64_head_negative : ∀ (form : Form) (n : Nat) (rest : Bytes), form.Fits n →
    n < 9223372036854775808 → i64 (form.head 1 n ++ rest) = .ok (Int64.ofInt (-1 - n), rest)
  str_head : ∀ (form : Form) (text : String) (rest : Bytes),
    form.Fits (Utf8.encode text).length →
    str (form.head 3 (Utf8.encode text).length ++ Utf8.encode text ++ rest) = .ok (text, rest)
  bytes_head : ∀ (form : Form) (octets rest : Bytes), form.Fits octets.length →
    bytes (form.head 2 octets.length ++ octets ++ rest) = .ok (octets, rest)
  array_head : ∀ (form : Form) (n : UInt64) (rest : Bytes), form.Fits n.toNat →
    array (form.head 4 n.toNat ++ rest) = .ok (some n, rest)
  map_head : ∀ (form : Form) (n : UInt64) (rest : Bytes), form.Fits n.toNat →
    map (form.head 5 n.toNat ++ rest) = .ok (some n, rest)

/-- `minicbor::Encoder` over a growing buffer: each operation appends one item
or one head, always in the preferred form, and never fails. A Rust slice is
shorter than `2 ^ 64` octets. -/
structure Encoder where
  bool : Bool → Bytes → Except String Bytes
  u8 : UInt8 → Bytes → Except String Bytes
  u64 : UInt64 → Bytes → Except String Bytes
  i64 : Int64 → Bytes → Except String Bytes
  str : String → Bytes → Except String Bytes
  bytes : Bytes → Bytes → Except String Bytes
  array : UInt64 → Bytes → Except String Bytes
  map : UInt64 → Bytes → Except String Bytes
  bool_eq : ∀ value out, bool value out = .ok (out ++ (Item.bool value).encode)
  u8_eq : ∀ value out, u8 value out = .ok (out ++ (Item.int value.toNat).encode)
  u64_eq : ∀ value out, u64 value out = .ok (out ++ (Item.int value.toNat).encode)
  i64_eq : ∀ value out, i64 value out = .ok (out ++ (Item.int value.toInt).encode)
  str_eq : ∀ text out, (Utf8.encode text).length < 18446744073709551616 →
    str text out = .ok (out ++ (Item.text text).encode)
  bytes_eq : ∀ octets out, octets.length < 18446744073709551616 →
    bytes octets out = .ok (out ++ (Item.bytes octets).encode)
  array_eq : ∀ value out, array value out = .ok (out ++ head 4 value.toNat)
  map_eq : ∀ value out, map value out = .ok (out ++ head 5 value.toNat)

end Minicbor
