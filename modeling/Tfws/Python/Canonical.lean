import Tfws.Cbor.KeyOrder
import Tfws.Data.Fallible
import Tfws.Python.Object

/-! The CBOR decoder of `tfws3/canonical.py`, which refuses whatever is not
preferred as soon as it reads it. What is left of the data stands for the
offset. -/
namespace Tfws.Python

open Fallible Cbor

/-- `MAX_SAFE_INTEGER`, the largest integer that a double holds with all before it. -/
def maxSafeInteger : Nat := 9007199254740991

/-- The length of the longest document, a quarter of what the other implementation
allows by default. -/
def maxCborBytes : Nat := 1048576

/-- `MAX_CBOR_DEPTH`; the document itself is at depth 0. -/
def maxCborDepth : Nat := 32

/-- `MAX_CBOR_COLLECTION_ITEMS`, for arrays and for the pairs of maps alike. -/
def maxCborCollectionItems : Nat := 4096

/-- `MAX_CBOR_STRING_BYTES`, compared with the announced length before anything is
read. -/
def maxCborStringBytes : Nat := 1048576

/-- The keyword arguments of `_CborDecoder`, by which envelopes are told from
manifests. Each lets in one kind of item. -/
structure Flags where
  allowBytes : Bool
  allowTags : Bool
  allowNull : Bool

/-- `_fail`, with the category for octets that are no item at all. -/
def malformed (message : String) : Exception := .interoperability message "malformed_cbor"

/-- `_fail`, with the category for items that have no place in a document. -/
def unsupported (message : String) : Exception := .interoperability message "unsupported_cbor_type"

/-- `_fail`, with the category for what exceeds one of the limits. -/
def overLimit (message : String) : Exception := .interoperability message "resource_limit"

/-- `_fail`, with the category for an item that is not written as the encoder
would. -/
def nonDeterministic (message : String) : Exception :=
  .interoperability message "non_deterministic_cbor"

/-- `_take`: so many octets, or the error for octets that are cut off. -/
def take (count : Nat) (input : Bytes) : Result (Bytes × Bytes) := do
  failIf (input.length < count) (malformed "truncated CBOR input")
  .ok (input.take count, input.drop count)

/-- `widths`: the octets that the additional information announces. What is not listed
is indefinite or reserved. -/
def argumentWidth : Nat → Option Nat
  | 24 => some 1
  | 25 => some 2
  | 26 => some 4
  | 27 => some 8
  | _ => none

/-- `minimum`, by width: below it a shorter form would have done. -/
def argumentMinimum (width : Nat) : Nat :=
  if width = 1 then 24 else if width = 2 then 256 else if width = 4 then 65536 else 4294967296

/-- `_argument`, which refuses what is not preferred as soon as it is read, and so
before anything else about the item. -/
def argument (additional : Nat) (kind : String) (input : Bytes) : Result (Nat × Bytes) :=
  if additional < 24 then .ok (additional, input)
  else
    match argumentWidth additional with
    | none => do
        failIf (additional = 31) (nonDeterministic ("indefinite-length " ++ kind ++ " is forbidden"))
        .error (malformed "invalid CBOR additional information")
    | some width => do
        let (octets, rest) ← take width input
        failIf (ofBigEndian octets < argumentMinimum width)
          (nonDeterministic ("non-preferred CBOR encoding for " ++ kind))
        .ok (ofBigEndian octets, rest)

/-- The integers of both signs, within the range that JSON numbers keep. -/
def decodeInteger (major additional : Nat) (input : Bytes) : Result (Object × Bytes) := do
  let (value, rest) ← argument additional "integer" input
  let number : Int := if major = 0 then value else -1 - value
  failIf (maxSafeInteger < number.natAbs)
    (unsupported "CBOR integer is outside interoperable range")
  .ok (.int number, rest)

/-- A text or a string of octets; its length is compared with the limit before it is
read. -/
def decodeString (flags : Flags) (major additional : Nat) (input : Bytes) :
    Result (Object × Bytes) := do
  let (length, rest) ←
    argument additional (if major = 2 then "byte string" else "text string") input
  failIf (maxCborStringBytes < length) (overLimit "CBOR string exceeds resource limit")
  let (raw, rest) ← take length rest
  if major = 2 then do
    failIf (flags.allowBytes = false) (unsupported "byte strings are not valid manifest values")
    .ok (.bytes raw, rest)
  else
    match Utf8.decode raw with
    | some text => .ok (.str text, rest)
    | none => .error (malformed "CBOR text is not valid UTF-8")

/-- `[self.item(depth + 1) for _ in range(length)]`, with the octets left over handed
on. -/
def decodeMembers (decodeItem : Bytes → Result (Object × Bytes)) :
    Nat → Bytes → Result (List Object × Bytes)
  | 0, input => .ok ([], input)
  | count + 1, input => do
      let (item, rest) ← decodeItem input
      let (items, rest) ← decodeMembers decodeItem count rest
      .ok (item :: items, rest)

/-- An array, the announced length of which is compared with the limit before its
members are read. -/
def decodeArray (decodeItem : Bytes → Result (Object × Bytes)) (additional : Nat)
    (input : Bytes) : Result (Object × Bytes) := do
  let (length, rest) ← argument additional "array" input
  failIf (maxCborCollectionItems < length) (overLimit "CBOR array exceeds resource limit")
  let (items, rest) ← decodeMembers decodeItem length rest
  .ok (.list items, rest)

/-- The loop over the pairs of a map; `previous` is `previous_key_encoding`. Octets
decide the order, and Python's equality what is a duplicate. -/
def decodePairs (decodeItem : Bytes → Result (Object × Bytes)) :
    Nat → List (Key × Object) → Option Bytes → Bytes → Result (List (Key × Object) × Bytes)
  | 0, result, _, input => .ok (result, input)
  | count + 1, result, previous, input => do
      let (key, rest) ← decodeItem input
      let keyEncoding := input.take (input.length - rest.length)
      match key.key? with
      | none => .error (unsupported "unsupported CBOR map key type")
      | some key => do
          failIf (∃ last ∈ previous, lengthFirst last keyEncoding ≠ .lt)
            (nonDeterministic "CBOR map keys are duplicate or out of order")
          failIf (Object.contains key result) (nonDeterministic "duplicate CBOR map key")
          let (value, rest) ← decodeItem rest
          decodePairs decodeItem count (result ++ [(key, value)]) (some keyEncoding) rest

/-- A map, whose keys may be of any hashable kind as far as the decoder is
concerned. -/
def decodeMap (decodeItem : Bytes → Result (Object × Bytes)) (additional : Nat)
    (input : Bytes) : Result (Object × Bytes) := do
  let (length, rest) ← argument additional "map" input
  failIf (maxCborCollectionItems < length) (overLimit "CBOR map exceeds resource limit")
  let (entries, rest) ← decodePairs decodeItem length [] none rest
  .ok (.dict entries, rest)

/-- A tag and its value. Whether tags are let in is asked after the number has been
read. -/
def decodeTag (flags : Flags) (decodeItem : Bytes → Result (Object × Bytes)) (additional : Nat)
    (input : Bytes) : Result (Object × Bytes) := do
  let (number, rest) ← argument additional "tag" input
  failIf (flags.allowTags = false) (unsupported "CBOR tags are not supported")
  let (value, rest) ← decodeItem rest
  .ok (.tag number value, rest)

/-- The simple values that are let in: the truth values, and null where the flags say
so. -/
def decodeSimple (flags : Flags) (additional : Nat) (input : Bytes) : Result (Object × Bytes) :=
  if additional = 20 then .ok (.bool false, input)
  else if additional = 21 then .ok (.bool true, input)
  else if additional = 22 ∧ flags.allowNull = true then .ok (.none, input)
  else .error (unsupported "unsupported CBOR simple or floating-point value")

/-- The branches of `item` on the major type; `decodeItem` is `item` one level
deeper. -/
def decodeMajor (flags : Flags) (decodeItem : Bytes → Result (Object × Bytes))
    (major additional : Nat) (input : Bytes) : Result (Object × Bytes) :=
  match major with
  | 0 => decodeInteger 0 additional input
  | 1 => decodeInteger 1 additional input
  | 2 => decodeString flags 2 additional input
  | 3 => decodeString flags 3 additional input
  | 4 => decodeArray decodeItem additional input
  | 5 => decodeMap decodeItem additional input
  | 6 => decodeTag flags decodeItem additional input
  | _ => decodeSimple flags additional input

/-- `item`. The depth is compared with the limit before anything is read, and that is
why the recursion ends. -/
def decodeItem (flags : Flags) (depth : Nat) (input : Bytes) : Result (Object × Bytes) :=
  if maxCborDepth < depth then .error (overLimit "CBOR nesting depth exceeds resource limit")
  else
    match input with
    | [] => .error (malformed "truncated CBOR input")
    | initial :: rest =>
        decodeMajor flags (decodeItem flags (depth + 1)) (initial.toNat / 32) (initial.toNat % 32)
          rest
termination_by maxCborDepth + 1 - depth

/-- `_decode_cbor_document`: one item, and nothing behind it. The length is compared
with the limit first. -/
def decodeCborDocument (flags : Flags) (data : Bytes) : Result Object := do
  failIf (maxCborBytes < data.length) (overLimit "CBOR input exceeds resource limit")
  let (value, rest) ← decodeItem flags 0 data
  failIf (rest ≠ []) (malformed "trailing data after CBOR document")
  .ok value

mutual
/-- `_validate_manifest_cbor_value`, the second pass, which only manifests are put
through. The path is that of the message. -/
def validateManifestCborValue (path : String) : Object → Result Unit
  | .str _ | .bool _ => .ok ()
  | .int value =>
      failIf (maxSafeInteger < value.natAbs)
        (unsupported ("integer outside interoperable range at " ++ path))
  | .list items => validateManifestCborItems path 0 items
  | .dict entries => validateManifestCborEntries path entries
  | _ => .error (unsupported ("unsupported manifest CBOR value at " ++ path))

def validateManifestCborItems (path : String) (index : Nat) : List Object → Result Unit
  | [] => .ok ()
  | item :: rest => do
      validateManifestCborValue (path ++ "[" ++ toString index ++ "]") item
      validateManifestCborItems path (index + 1) rest

def validateManifestCborEntries (path : String) : List (Key × Object) → Result Unit
  | [] => .ok ()
  | (key, item) :: rest =>
      match key with
      | .str text => do
          validateManifestCborValue (path ++ "." ++ text) item
          validateManifestCborEntries path rest
      | _ => .error (unsupported ("non-text manifest map key at " ++ path))
end

/-- The flags of a manifest document: all off, so that only the items of JSON are
left. -/
def Flags.manifest : Flags := { allowBytes := false, allowTags := false, allowNull := false }

end Tfws.Python
