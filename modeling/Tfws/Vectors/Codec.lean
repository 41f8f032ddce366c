import Tfws.Vectors.Values

/-! `cbor_encode` and `cbor_decode_exact` of the vector generator, the third
codec of the repository. What is left of the data stands for the position. -/
namespace Tfws.Vectors

open Fallible Cbor

/-- `_head`, in the shortest of the five forms, with an error for what does not fit
the longest. -/
def head (major value : Nat) : Result Bytes :=
  if value < 24 then .ok [UInt8.ofNat (32 * major + value)]
  else if value ≤ 0xFF then .ok [UInt8.ofNat (32 * major + 24), UInt8.ofNat value]
  else if value ≤ 0xFFFF then .ok (UInt8.ofNat (32 * major + 25) :: bigEndian 2 value)
  else if value ≤ 0xFFFFFFFF then .ok (UInt8.ofNat (32 * major + 26) :: bigEndian 4 value)
  else if value ≤ 0xFFFFFFFFFFFFFFFF then
    .ok (UInt8.ofNat (32 * major + 27) :: bigEndian 8 value)
  else .error .valueError

/-- The entries in the order of `(len(key), key)`, a key being an encoded one. -/
def sortEncoded {α : Type} (encoded : List (Bytes × α)) : List (Bytes × α) :=
  encoded.mergeSort fun first second => (lengthFirst first.1 second.1).isLE

/-- Every key with its value behind it; a value is encoded when its turn comes. -/
def joinEncoded : List (Bytes × Result Bytes) → Result Bytes
  | [] => .ok []
  | (key, value) :: rest => do
      let octets ← value
      let others ← joinEncoded rest
      .ok (key ++ octets ++ others)

mutual
/-- `cbor_encode`, which sorts the entries of a dictionary by their encoded keys. -/
def cborEncode : Item → Result Bytes
  | .bool value => .ok [if value then 0xF5 else 0xF4]
  | .null => .ok [0xF6]
  | .int value => if 0 ≤ value then head 0 value.toNat else head 1 (-1 - value).toNat
  | .bytes octets => do
      let start ← head 2 octets.length
      .ok (start ++ octets)
  | .text text => do
      let start ← head 3 (Utf8.encode text).length
      .ok (start ++ Utf8.encode text)
  | .array items => do
      let start ← head 4 items.length
      let members ← encodeMembers items
      .ok (start ++ members)
  | .map entries => do
      let encoded ← encodeKeys entries
      let start ← head 5 encoded.length
      let pairs ← joinEncoded (sortEncoded encoded)
      .ok (start ++ pairs)
  | .tag number value => do
      let start ← head 6 number
      let content ← cborEncode value
      .ok (start ++ content)
  | .float _ => .error .typeError

def encodeMembers : List Item → Result Bytes
  | [] => .ok []
  | item :: rest => do
      let octets ← cborEncode item
      let others ← encodeMembers rest
      .ok (octets ++ others)

/-- `[(cbor_encode(key), key, item) for key, item in value.items()]`, with what
the encoding of the item will give. -/
def encodeKeys : Dict → Result (List (Bytes × Result Bytes))
  | [] => .ok []
  | (key, value) :: rest => do
      let octets ← cborEncode key
      let others ← encodeKeys rest
      .ok ((octets, cborEncode value) :: others)
end

/-- The error for octets that are no item, whatever the message says. -/
def malformed (message : String) : Failure := .vectorError "malformed_cbor" message

/-- The error for octets that are not the encoding of what they hold. -/
def nonDeterministic (message : String) : Failure := .vectorError "non_deterministic_cbor" message

/-- `_read`: so many octets, or the error for octets that are cut off. -/
def read (count : Nat) (data : Bytes) : Result (Bytes × Bytes) := do
  failIf (data.length < count) (malformed "truncated CBOR")
  .ok (data.take count, data.drop count)

/-- An argument of some width, which has to be above what the next smaller
width has room for. -/
def wideArgument (width largest : Nat) (data : Bytes) : Result (Nat × Bytes) := do
  let (octets, rest) ← read width data
  failIf (ofBigEndian octets ≤ largest) (nonDeterministic "non-preferred CBOR argument")
  .ok (ofBigEndian octets, rest)

/-- `_argument`, which refuses what is not preferred as soon as it is read. -/
def argument (additional : Nat) (data : Bytes) : Result (Nat × Bytes) :=
  if additional < 24 then .ok (additional, data)
  else if additional = 24 then wideArgument 1 23 data
  else if additional = 25 then wideArgument 2 0xFF data
  else if additional = 26 then wideArgument 4 0xFFFF data
  else if additional = 27 then wideArgument 8 0xFFFFFFFF data
  else if additional = 31 then .error (nonDeterministic "indefinite-length CBOR is unsupported")
  else .error (malformed "reserved CBOR additional information")

def decodeInteger (major additional : Nat) (data : Bytes) : Result (Item × Bytes) := do
  let (argument, rest) ← argument additional data
  .ok (.int (if major = 0 then argument else -1 - argument), rest)

/-- A text or a string of octets, which differ in the major type and in the check of
UTF-8. -/
def decodeString (major additional : Nat) (data : Bytes) : Result (Item × Bytes) := do
  let (count, rest) ← argument additional data
  let (raw, rest) ← read count rest
  if major = 2 then .ok (.bytes raw, rest)
  else
    match Utf8.decode raw with
    | some text => .ok (.text text, rest)
    | none => .error (malformed "invalid UTF-8")

/-- `[self.item() for _ in range(length)]`, with the octets left over handed on. -/
def decodeMembers (decodeItem : Bytes → Result (Item × Bytes)) :
    Nat → Bytes → Result (List Item × Bytes)
  | 0, data => .ok ([], data)
  | count + 1, data => do
      let (item, rest) ← decodeItem data
      let (items, rest) ← decodeMembers decodeItem count rest
      .ok (item :: items, rest)

def decodeArray (decodeItem : Bytes → Result (Item × Bytes)) (additional : Nat) (data : Bytes) :
    Result (Item × Bytes) := do
  let (count, rest) ← argument additional data
  let (items, rest) ← decodeMembers decodeItem count rest
  .ok (.array items, rest)

/-- The two checks of a key against the ones before it. -/
def checkKey (result : Dict) (previous : Option Bytes) (key : Item) (keyBytes : Bytes) :
    Result Unit := do
  if ∃ last ∈ previous, lengthFirst last keyBytes ≠ .lt then do
    let seen ← contains key result
    failIf (seen = true) (nonDeterministic "duplicate CBOR map key")
    .error (nonDeterministic "CBOR map key order")
  else do
    let seen ← contains key result
    failIf (seen = true) (nonDeterministic "duplicate CBOR map key")

/-- The loop over the pairs of a map; `previous` is `previous_key_bytes`. -/
def decodePairs (decodeItem : Bytes → Result (Item × Bytes)) :
    Nat → Dict → Option Bytes → Bytes → Result (Dict × Bytes)
  | 0, result, _, data => .ok (result, data)
  | count + 1, result, previous, data => do
      let (key, rest) ← decodeItem data
      let keyBytes := data.take (data.length - rest.length)
      checkKey result previous key keyBytes
      let (value, rest) ← decodeItem rest
      decodePairs decodeItem count (result ++ [(key, value)]) (some keyBytes) rest

/-- A map, whose keys have to ascend by their encodings and to differ as Python
compares them. -/
def decodeMap (decodeItem : Bytes → Result (Item × Bytes)) (additional : Nat) (data : Bytes) :
    Result (Item × Bytes) := do
  let (count, rest) ← argument additional data
  let (entries, rest) ← decodePairs decodeItem count [] none rest
  .ok (.map entries, rest)

def decodeTag (decodeItem : Bytes → Result (Item × Bytes)) (additional : Nat) (data : Bytes) :
    Result (Item × Bytes) := do
  let (number, rest) ← argument additional data
  let (value, rest) ← decodeItem rest
  .ok (.tag number value, rest)

def decodeSimple (additional : Nat) (data : Bytes) : Result (Item × Bytes) :=
  if additional = 20 then .ok (.bool false, data)
  else if additional = 21 then .ok (.bool true, data)
  else if additional = 22 then .ok (.null, data)
  else .error (.vectorError "unsupported_cbor_type" "unsupported CBOR simple/float value")

/-- The branches of `item` on the major type; `decodeItem` is `item` one level
deeper. -/
def decodeMajor (decodeItem : Bytes → Result (Item × Bytes)) (major additional : Nat)
    (data : Bytes) : Result (Item × Bytes) :=
  match major with
  | 0 => decodeInteger 0 additional data
  | 1 => decodeInteger 1 additional data
  | 2 => decodeString 2 additional data
  | 3 => decodeString 3 additional data
  | 4 => decodeArray decodeItem additional data
  | 5 => decodeMap decodeItem additional data
  | 6 => decodeTag decodeItem additional data
  | _ => decodeSimple additional data

/-- `item`. There are no more levels than octets left, since every level takes
one; with no level left there is no octet either. -/
def decodeItem : Nat → Bytes → Result (Item × Bytes)
  | levels + 1, initial :: rest =>
      decodeMajor (decodeItem levels) (initial.toNat / 32) (initial.toNat % 32) rest
  | _, _ => .error (malformed "truncated CBOR")

/-- `cbor_decode_exact`: one item and nothing behind it, whose encoding is compared
with the data. -/
def cborDecodeExact (data : Bytes) : Result Item := do
  let (value, rest) ← decodeItem data.length data
  failIf (rest ≠ []) (malformed "trailing CBOR data")
  let canonical ← cborEncode value
  failIf (canonical ≠ data) (nonDeterministic "CBOR is not canonical")
  .ok value

end Tfws.Vectors
