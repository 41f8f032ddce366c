import Tfws.Core.Manifest

/-! The deterministic CBOR codec of `tfws-core`. The decoder accepts any form
of head and compares the input with its own encoding afterwards. -/
namespace Tfws

open SerdeJson Fallible Cbor

/-- `CborLimits`; `usize` is 64 bits wide. A caller may set any of them, to zero as
well as beyond all memory. -/
structure CborLimits where
  maxManifestBytes : UInt64
  maxDepth : UInt64
  maxMapPairs : UInt64
  maxArrayItems : UInt64
  maxStringBytes : UInt64

/-- The limits that are used where the caller gives none. The reference implementation
has smaller ones for octets and larger ones for pairs. -/
def CborLimits.default : CborLimits where
  maxManifestBytes := 4 * 1024 * 1024
  maxDepth := 32
  maxMapPairs := 1024
  maxArrayItems := 4096
  maxStringBytes := 4 * 1024 * 1024

/-- The errors of the codec, with the texts that they carry. Callers see their
categories. -/
inductive CborCodecError where
  | malformedCbor (message : String)
  | trailingData
  | nonDeterministicCbor
  | indefiniteLength (kind : String)
  | unsupportedCborType (name : String)
  | integerOutOfRange
  | duplicateKey (key : String)
  | mapKeyOrder
  | resourceLimit (limit : String)
  | schemaViolation (message : String)
  | manifestPolicy (message : String)
  | encodeFailure (message : String)
  deriving DecidableEq, Repr

/-- The category under which an error is reported; several errors share one, so that a
category says less than the error. -/
def CborCodecError.category : CborCodecError → String
  | malformedCbor _ | trailingData => "malformed_cbor"
  | nonDeterministicCbor | indefiniteLength _ | duplicateKey _ | mapKeyOrder =>
      "non_deterministic_cbor"
  | unsupportedCborType _ | integerOutOfRange => "unsupported_cbor_type"
  | resourceLimit _ => "resource_limit"
  | schemaViolation _ | manifestPolicy _ => "manifest_policy_invalid"
  | encodeFailure _ => "malformed_cbor"

abbrev CborResult := Except CborCodecError

/-- A number is taken if it is an integer that a double holds exactly. Floats never
are. -/
def validateNumber (number : Number) : CborResult Unit :=
  match number.asU64 with
  | some unsigned =>
      if unsigned.toNat ≤ maxSafeInteger then .ok () else .error .integerOutOfRange
  | none =>
      match number.asI64 with
      | some signed =>
          if signed.toInt.natAbs ≤ maxSafeInteger then .ok () else .error .integerOutOfRange
      | none => .error (.unsupportedCborType "floating-point number")

mutual
/-- What the encoder checks of a value before it writes anything: depth, counts,
lengths and numbers. -/
def validateValueProfile (limits : CborLimits) (depth : Nat) : Value → CborResult Unit
  | .null => do
      failIf (limits.maxDepth.toNat < depth) (.resourceLimit "nesting depth")
      .error (.unsupportedCborType "null")
  | .bool _ => failIf (limits.maxDepth.toNat < depth) (.resourceLimit "nesting depth")
  | .number number => do
      failIf (limits.maxDepth.toNat < depth) (.resourceLimit "nesting depth")
      validateNumber number
  | .string text => do
      failIf (limits.maxDepth.toNat < depth) (.resourceLimit "nesting depth")
      failIf (limits.maxStringBytes.toNat < (Utf8.encode text).length)
        (.resourceLimit "text string bytes")
  | .array items => do
      failIf (limits.maxDepth.toNat < depth) (.resourceLimit "nesting depth")
      failIf (limits.maxArrayItems.toNat < items.length) (.resourceLimit "array items")
      validateItemsProfile limits (depth + 1) items
  | .object entries => do
      failIf (limits.maxDepth.toNat < depth) (.resourceLimit "nesting depth")
      failIf (limits.maxMapPairs.toNat < entries.length) (.resourceLimit "map pairs")
      validateEntriesProfile limits (depth + 1) entries

def validateItemsProfile (limits : CborLimits) (depth : Nat) : List Value → CborResult Unit
  | [] => .ok ()
  | item :: rest => do
      validateValueProfile limits depth item
      validateItemsProfile limits depth rest

def validateEntriesProfile (limits : CborLimits) (depth : Nat) :
    List (String × Value) → CborResult Unit
  | [] => .ok ()
  | (key, item) :: rest => do
      failIf (limits.maxStringBytes.toNat < (Utf8.encode key).length)
        (.resourceLimit "map key bytes")
      validateValueProfile limits depth item
      validateEntriesProfile limits depth rest
end

/-- `for _ in 0..count { items.push(decode_value(..)?) }`, with the octets left over
handed on. -/
def decodeItems (decodeItem : Bytes → CborResult (Value × Bytes)) :
    Nat → Bytes → CborResult (List Value × Bytes)
  | 0, input => .ok ([], input)
  | count + 1, input => do
      let (item, rest) ← decodeItem input
      let (items, rest) ← decodeItems decodeItem count rest
      .ok (item :: items, rest)

/-- `decodeItem` is `decode_value` one level deeper. A length is a `u64` and
always fits the 64-bit `usize`. -/
def decodeArray (crates : Crates) (limits : CborLimits)
    (decodeItem : Bytes → CborResult (Value × Bytes)) (input : Bytes) :
    CborResult (Value × Bytes) := do
  let (length, rest) ← (crates.decoder.array input).mapError .malformedCbor
  match length with
  | none => .error (.indefiniteLength "array")
  | some length =>
      failIf (limits.maxArrayItems < length) (.resourceLimit "array items")
      let (items, rest) ← decodeItems decodeItem length.toNat rest
      .ok (.array items, rest)

/-- `compare_encoded_keys`: the shorter key first, and keys of one length by their
octets. This is the older of the two published orders. -/
def compareEncodedKeys (left right : Bytes) : Ordering :=
  (compare left.length right.length).then (compare left right)

/-- One key: its text, its octets as they stand in the input, and what follows. -/
def decodeKey (crates : Crates) (limits : CborLimits) (input : Bytes) :
    CborResult (String × Bytes × Bytes) := do
  let keyType ← (crates.decoder.datatype input).mapError .malformedCbor
  failIf (keyType = .stringIndef) (.indefiniteLength "map key")
  failIf (keyType ≠ .string) (.unsupportedCborType "map key must be a text string")
  let (key, rest) ← (crates.decoder.str input).mapError .malformedCbor
  failIf (limits.maxStringBytes.toNat < (Utf8.encode key).length) (.resourceLimit "map key bytes")
  .ok (key, input.take (input.length - rest.length), rest)

/-- The loop over the pairs of a map. `seen` holds the keys so far, `previous`
the octets of the last one. -/
def decodeEntries (crates : Crates) (limits : CborLimits)
    (decodeItem : Bytes → CborResult (Value × Bytes)) :
    Nat → List (String × Value) → List String → Option Bytes → Bytes →
      CborResult (List (String × Value) × Bytes)
  | 0, entries, _, _, input => .ok (entries, input)
  | count + 1, entries, seen, previous, input => do
      let (key, keyBytes, rest) ← decodeKey crates limits input
      failIf (key ∈ seen) (.duplicateKey key)
      failIf (∃ last ∈ previous, compareEncodedKeys last keyBytes ≠ .lt) .mapKeyOrder
      let (value, rest) ← decodeItem rest
      decodeEntries crates limits decodeItem count (SortedMap.insert key value entries)
        (key :: seen) (some keyBytes) rest

/-- A map with text keys, in the order demanded and without repetition. The entries
are kept under their names. -/
def decodeMap (crates : Crates) (limits : CborLimits)
    (decodeItem : Bytes → CborResult (Value × Bytes)) (input : Bytes) :
    CborResult (Value × Bytes) := do
  let (length, rest) ← (crates.decoder.map input).mapError .malformedCbor
  match length with
  | none => .error (.indefiniteLength "map")
  | some length =>
      failIf (limits.maxMapPairs < length) (.resourceLimit "map pairs")
      let (entries, rest) ← decodeEntries crates limits decodeItem length.toNat [] [] none rest
      .ok (.object entries, rest)

/-- The arms of `decode_value` for items that hold no others, each with its own check
of the form. -/
def decodeScalar (crates : Crates) (limits : CborLimits) (type : Minicbor.DataType)
    (input : Bytes) : CborResult (Value × Bytes) :=
  match type with
  | .bool => do
      let (value, rest) ← (crates.decoder.bool input).mapError .malformedCbor
      .ok (.bool value, rest)
  | .u8 | .u16 | .u32 | .u64 => do
      let (value, rest) ← (crates.decoder.u64 input).mapError .malformedCbor
      failIf (maxSafeInteger < value.toNat) .integerOutOfRange
      .ok (.number (Number.ofU64 value), rest)
  | .i8 | .i16 | .i32 | .i64 => do
      let (value, rest) ← (crates.decoder.i64 input).mapError .malformedCbor
      failIf (maxSafeInteger < value.toInt.natAbs) .integerOutOfRange
      .ok (.number (Number.ofI64 value), rest)
  | .int => .error .integerOutOfRange
  | .string => do
      let (text, rest) ← (crates.decoder.str input).mapError .malformedCbor
      failIf (limits.maxStringBytes.toNat < (Utf8.encode text).length)
        (.resourceLimit "text string bytes")
      .ok (.string text, rest)
  | .stringIndef => .error (.indefiniteLength "text string")
  | .bytesIndef => .error (.indefiniteLength "byte string")
  | .arrayIndef => .error (.indefiniteLength "array")
  | .mapIndef => .error (.indefiniteLength "map")
  | other => .error (.unsupportedCborType (crates.decoder.debug other))

/-- One value at a depth. What the decoder announces decides which branch reads it. -/
def decodeValue (crates : Crates) (limits : CborLimits) (depth : Nat) (input : Bytes) :
    CborResult (Value × Bytes) :=
  if limits.maxDepth.toNat < depth then .error (.resourceLimit "nesting depth")
  else do
    let type ← (crates.decoder.datatype input).mapError .malformedCbor
    match type with
    | .array => decodeArray crates limits (decodeValue crates limits (depth + 1)) input
    | .map => decodeMap crates limits (decodeValue crates limits (depth + 1)) input
    | type => decodeScalar crates limits type input
termination_by limits.maxDepth.toNat + 1 - depth

def encodedTextKey (crates : Crates) (key : String) : CborResult Bytes :=
  (crates.encoder.str key []).mapError .encodeFailure

/-- A step of an encoder: the buffer before and after. Steps are run in the order in
which they are listed. -/
abbrev EncodeStep := Bytes → CborResult Bytes

/-- `for (_, key, item) in ordered { encoder.str(key)?; encode_value(item, ..)?; }`,
with the items as steps still to be run. -/
def encodeOrdered (crates : Crates) : List (Bytes × String × EncodeStep) → EncodeStep
  | [], out => .ok out
  | (_, key, encodeItem) :: rest, out => do
      let out ← (crates.encoder.str key out).mapError .encodeFailure
      let out ← encodeItem out
      encodeOrdered crates rest out

mutual
/-- A value in the encoding that the decoder demands. The depth is checked again,
although the profile has been. -/
def encodeValue (crates : Crates) (limits : CborLimits) (depth : Nat) : Value → EncodeStep
  | .null, _ => do
      failIf (limits.maxDepth.toNat < depth) (.resourceLimit "nesting depth")
      .error (.unsupportedCborType "null")
  | .bool value, out => do
      failIf (limits.maxDepth.toNat < depth) (.resourceLimit "nesting depth")
      (crates.encoder.bool value out).mapError .encodeFailure
  | .number number, out => do
      failIf (limits.maxDepth.toNat < depth) (.resourceLimit "nesting depth")
      validateNumber number
      match number.asU64 with
      | some unsigned => (crates.encoder.u64 unsigned out).mapError .encodeFailure
      | none =>
          match number.asI64 with
          | some signed => (crates.encoder.i64 signed out).mapError .encodeFailure
          | none => .error (.unsupportedCborType "floating-point number")
  | .string text, out => do
      failIf (limits.maxDepth.toNat < depth) (.resourceLimit "nesting depth")
      failIf (limits.maxStringBytes.toNat < (Utf8.encode text).length)
        (.resourceLimit "text string bytes")
      (crates.encoder.str text out).mapError .encodeFailure
  | .array items, out => do
      failIf (limits.maxDepth.toNat < depth) (.resourceLimit "nesting depth")
      failIf (limits.maxArrayItems.toNat < items.length) (.resourceLimit "array items")
      let out ← (crates.encoder.array (.ofNat items.length) out).mapError .encodeFailure
      encodeItems crates limits (depth + 1) items out
  | .object entries, out => do
      failIf (limits.maxDepth.toNat < depth) (.resourceLimit "nesting depth")
      failIf (limits.maxMapPairs.toNat < entries.length) (.resourceLimit "map pairs")
      let ordered ← encodeEntries crates limits (depth + 1) entries
      let ordered := ordered.mergeSort fun left right =>
        (compareEncodedKeys left.1 right.1).isLE
      let out ← (crates.encoder.map (.ofNat ordered.length) out).mapError .encodeFailure
      encodeOrdered crates ordered out

def encodeItems (crates : Crates) (limits : CborLimits) (depth : Nat) : List Value → EncodeStep
  | [], out => .ok out
  | item :: rest, out => do
      let out ← encodeValue crates limits depth item out
      encodeItems crates limits depth rest out

/-- The list `ordered` before it is sorted: each field with its encoded key and
the encoding of its value still to be run. -/
def encodeEntries (crates : Crates) (limits : CborLimits) (depth : Nat) :
    List (String × Value) → CborResult (List (Bytes × String × EncodeStep))
  | [] => .ok []
  | (key, item) :: rest => do
      failIf (limits.maxStringBytes.toNat < (Utf8.encode key).length)
        (.resourceLimit "map key bytes")
      let encodedKey ← encodedTextKey crates key
      let ordered ← encodeEntries crates limits depth rest
      .ok ((encodedKey, key, encodeValue crates limits depth item) :: ordered)
end

/-- The checked encoder: the profile first, and the encoding only of what has
passed. -/
def encodeValueToVec (crates : Crates) (limits : CborLimits) (value : Value) :
    CborResult Bytes := do
  validateValueProfile limits 0 value
  encodeValue crates limits 0 value []

/-- `root.remove(key)` and `operator.remove(key)`, when the option is absent: what
serde wrote as null has no entry in CBOR. -/
def removeIf (absent : Bool) (key : String) (entries : List (String × Value)) :
    List (String × Value) :=
  if absent then SortedMap.erase key entries else entries

/-- `get_mut("operator")`, `as_object_mut`, `remove("jurisdiction")`, when the
jurisdiction is absent. That the operator is an object has been seen to before. -/
def removeJurisdiction (absent : Bool) (root : List (String × Value)) :
    CborResult (List (String × Value)) :=
  if absent then
    match SortedMap.lookup "operator" root with
    | some (.object operator) =>
        .ok (SortedMap.insert "operator" (.object (SortedMap.erase "jurisdiction" operator)) root)
    | _ => .error (.schemaViolation "operator must be an object")
  else .ok root

def isObject : Value → Bool
  | .object _ => true
  | _ => false

/-- The check that an identity, if present, is an object. The policy does not ask for
this, so the codec does, both ways. -/
def requireIdentityObject (manifest : Manifest) : CborResult Unit :=
  failIf (∃ identity ∈ manifest.identity, isObject identity.value = false)
    (.schemaViolation "identity must be an object")

/-- The document of a manifest: the serialised manifest without the options that are
absent. -/
def manifestToValue (crates : Crates) (manifest : Manifest) (limits : CborLimits) :
    CborResult Value := do
  (manifest.validate crates).mapError fun error => .manifestPolicy error.toText
  requireIdentityObject manifest
  let value ← (crates.serde.toValue manifest).mapError .schemaViolation
  match value with
  | .object root =>
      let root := removeIf manifest.identity.isNone "identity" root
      let root := removeIf manifest.expiresAt.isNone "expires_at" root
      let root ← removeJurisdiction manifest.operator.jurisdiction.isNone root
      validateValueProfile limits 0 (.object root)
      .ok (.object root)
  | _ => .error (.schemaViolation "manifest must be an object")

def encodeManifestCborWithLimits (crates : Crates) (manifest : Manifest) (limits : CborLimits) :
    CborResult Bytes := do
  let value ← manifestToValue crates manifest limits
  let encoded ← encodeValueToVec crates limits value
  failIf (limits.maxManifestBytes.toNat < encoded.length) (.resourceLimit "manifest bytes")
  .ok encoded

/-- `encode_manifest_cbor`, the encoder with the default limits, which other callers
may replace. -/
def encodeManifestCbor (crates : Crates) (manifest : Manifest) : CborResult Bytes :=
  encodeManifestCborWithLimits crates manifest .default

/-- The structural half of `decode_manifest_cbor`: limits, decoding, trailing
data and the comparison with the deterministic encoding. -/
def decodeStructure (crates : Crates) (input : Bytes) (limits : CborLimits) :
    CborResult Value := do
  failIf (limits.maxManifestBytes.toNat < input.length) (.resourceLimit "manifest bytes")
  failIf input.isEmpty (.malformedCbor "empty input")
  let (value, rest) ← decodeValue crates limits 0 input
  failIf (rest ≠ []) .trailingData
  let deterministic ← encodeValueToVec crates limits value
  failIf (deterministic ≠ input) .nonDeterministicCbor
  .ok value

/-- The typed half: the derived struct, the identity check and the policy, each under
an error of its own. -/
def manifestOfValue (crates : Crates) (value : Value) : CborResult Manifest := do
  let manifest ← (crates.serde.fromValue value).mapError .schemaViolation
  requireIdentityObject manifest
  (manifest.validate crates).mapError fun error => .manifestPolicy error.toText
  .ok manifest

/-- `decode_manifest_cbor`: the structure first, then the manifest, and the policy
last. So structural errors hide all others. -/
def decodeManifestCbor (crates : Crates) (input : Bytes) (limits : CborLimits) :
    CborResult Manifest := do
  let value ← decodeStructure crates input limits
  manifestOfValue crates value

end Tfws
