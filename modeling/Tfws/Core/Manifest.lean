import Tfws.Crates.Minicbor
import Tfws.Crates.SerdeJson
import Tfws.Data.Fallible

/-! The manifest of `tfws-core`: its structs, what `serde` derives for them,
and the policy checks of `Manifest::validate`. -/
namespace Tfws

open SerdeJson Fallible

/-- `Number.MAX_SAFE_INTEGER`, up to which a double tells every integer from its
neighbours. -/
def maxSafeInteger : Nat := 9007199254740991

def baselinePolicy : String := "tfws.hybrid.baseline.v1"

def baselineAlgorithms : List String := ["ed25519", "ml-dsa-65"]

/-- The capabilities that this version knows. A required one outside the list is
refused. -/
def knownCapabilities : List String :=
  ["core.v1", "identity.v1", "recovery.v1", "transparency.v1"]

/-- `Error` of the crate root, which the codec wraps in an error of its own. -/
inductive Error where
  | invalidManifest (message : String)
  | unsupportedCapability (capability : String)
  | canonicalization (message : String)
  deriving DecidableEq, Repr

/-- The `Display` text of an error, which is what a caller gets to see. -/
def Error.toText : Error → String
  | invalidManifest message => "invalid manifest: " ++ message
  | unsupportedCapability capability => "unsupported mandatory capability: " ++ capability
  | canonicalization message => "canonicalization failed: " ++ message

structure Operator where
  name : String
  jurisdiction : Option String

structure SignaturePolicy where
  policyId : String
  requiredAlgorithms : List String

structure Capabilities where
  required : List String
  optional : List String

structure Artifact where
  uri : String
  mediaType : String
  sha512 : String

structure KeyDescriptor where
  algorithm : String
  keyId : String
  publicKeyUri : String
  publicKeySha256 : String
  status : String
  usage : List String

/-- `Manifest`. An identity is any JSON value, as far as the struct is concerned. -/
structure Manifest where
  tfwsVersion : String
  subject : String
  environment : String
  operator : Operator
  keyEpoch : UInt64
  keys : List KeyDescriptor
  signaturePolicy : SignaturePolicy
  capabilities : Capabilities
  identity : Option OrderedValue
  artifacts : List Artifact
  updatedAt : String
  expiresAt : Option String

/-- What a struct is serialised as: an object with one entry for each field, inserted
in declaration order. An absent option becomes null. -/
def objectOf (fields : List (String × Value)) : Value :=
  .object (SortedMap.insertAll [] fields)

def optionValue : Option String → Value
  | none => .null
  | some text => .string text

def stringsValue (texts : List String) : Value := .array (texts.map Value.string)

def Operator.serialize (operator : Operator) : Value :=
  objectOf [("name", .string operator.name), ("jurisdiction", optionValue operator.jurisdiction)]

def SignaturePolicy.serialize (policy : SignaturePolicy) : Value :=
  objectOf [("policy_id", .string policy.policyId),
    ("required_algorithms", stringsValue policy.requiredAlgorithms)]

def Capabilities.serialize (capabilities : Capabilities) : Value :=
  objectOf [("required", stringsValue capabilities.required),
    ("optional", stringsValue capabilities.optional)]

def Artifact.serialize (artifact : Artifact) : Value :=
  objectOf [("uri", .string artifact.uri), ("media_type", .string artifact.mediaType),
    ("sha512", .string artifact.sha512)]

def KeyDescriptor.serialize (key : KeyDescriptor) : Value :=
  objectOf [("algorithm", .string key.algorithm), ("key_id", .string key.keyId),
    ("public_key_uri", .string key.publicKeyUri),
    ("public_key_sha256", .string key.publicKeySha256),
    ("status", .string key.status), ("usage", stringsValue key.usage)]

def identityValue : Option OrderedValue → Value
  | none => .null
  | some identity => identity.value

def Manifest.serialize (manifest : Manifest) : Value :=
  objectOf [("tfws_version", .string manifest.tfwsVersion),
    ("subject", .string manifest.subject),
    ("environment", .string manifest.environment),
    ("operator", manifest.operator.serialize),
    ("key_epoch", .number (Number.ofU64 manifest.keyEpoch)),
    ("keys", .array (manifest.keys.map KeyDescriptor.serialize)),
    ("signature_policy", manifest.signaturePolicy.serialize),
    ("capabilities", manifest.capabilities.serialize),
    ("identity", identityValue manifest.identity),
    ("artifacts", .array (manifest.artifacts.map Artifact.serialize)),
    ("updated_at", .string manifest.updatedAt),
    ("expires_at", optionValue manifest.expiresAt)]

/-- The fields of a struct, by name. A struct is read from an object, unknown names
being refused, and also from an array that holds its fields in declaration order. Only
an object may leave out an optional field. -/
def structFields (names : List String) : Value → Option (String → Option Value)
  | .object entries =>
      if entries.all (fun entry => names.contains entry.1) then
        some fun name => SortedMap.lookup name entries
      else none
  | .array items =>
      if items.length = names.length then some fun name => items[names.idxOf name]? else none
  | _ => none

def readString : Option Value → Option String
  | some (.string text) => some text
  | _ => none

/-- Absence and null are both read as no text, as serde reads an option. -/
def readOptionString : Option Value → Option (Option String)
  | none | some .null => some none
  | some (.string text) => some (some text)
  | _ => none

def readU64 : Option Value → Option UInt64
  | some (.number number) => number.asU64
  | _ => none

def readList {α : Type} (read : Value → Option α) : Option Value → Option (List α)
  | some (.array items) => items.mapM read
  | _ => none

def readStrings : Option Value → Option (List String) :=
  readList fun value => readString (some value)

def readStruct {α : Type} (read : Value → Option α) : Option Value → Option α
  | some value => read value
  | none => none

/-- Absence and null are both read as no identity, and everything else as one. -/
def readIdentity : Option Value → Option (Option OrderedValue)
  | none | some .null => some none
  | some value => (OrderedValue.ofValue value).map some

def Operator.fields : List String := ["name", "jurisdiction"]

def Operator.deserialize (value : Value) : Option Operator := do
  let field ← structFields Operator.fields value
  let name ← readString (field "name")
  let jurisdiction ← readOptionString (field "jurisdiction")
  some { name, jurisdiction }

def SignaturePolicy.fields : List String := ["policy_id", "required_algorithms"]

def SignaturePolicy.deserialize (value : Value) : Option SignaturePolicy := do
  let field ← structFields SignaturePolicy.fields value
  let policyId ← readString (field "policy_id")
  let requiredAlgorithms ← readStrings (field "required_algorithms")
  some { policyId, requiredAlgorithms }

def Capabilities.fields : List String := ["required", "optional"]

def Capabilities.deserialize (value : Value) : Option Capabilities := do
  let field ← structFields Capabilities.fields value
  let required ← readStrings (field "required")
  let optional ← readStrings (field "optional")
  some { required, optional }

def Artifact.fields : List String := ["uri", "media_type", "sha512"]

def Artifact.deserialize (value : Value) : Option Artifact := do
  let field ← structFields Artifact.fields value
  let uri ← readString (field "uri")
  let mediaType ← readString (field "media_type")
  let sha512 ← readString (field "sha512")
  some { uri, mediaType, sha512 }

def KeyDescriptor.fields : List String :=
  ["algorithm", "key_id", "public_key_uri", "public_key_sha256", "status", "usage"]

def KeyDescriptor.deserialize (value : Value) : Option KeyDescriptor := do
  let field ← structFields KeyDescriptor.fields value
  let algorithm ← readString (field "algorithm")
  let keyId ← readString (field "key_id")
  let publicKeyUri ← readString (field "public_key_uri")
  let publicKeySha256 ← readString (field "public_key_sha256")
  let status ← readString (field "status")
  let usage ← readStrings (field "usage")
  some { algorithm, keyId, publicKeyUri, publicKeySha256, status, usage }

def Manifest.fields : List String :=
  ["tfws_version", "subject", "environment", "operator", "key_epoch", "keys",
    "signature_policy", "capabilities", "identity", "artifacts", "updated_at", "expires_at"]

def Manifest.deserialize (value : Value) : Option Manifest := do
  let field ← structFields Manifest.fields value
  let tfwsVersion ← readString (field "tfws_version")
  let subject ← readString (field "subject")
  let environment ← readString (field "environment")
  let operator ← readStruct Operator.deserialize (field "operator")
  let keyEpoch ← readU64 (field "key_epoch")
  let keys ← readList KeyDescriptor.deserialize (field "keys")
  let signaturePolicy ← readStruct SignaturePolicy.deserialize (field "signature_policy")
  let capabilities ← readStruct Capabilities.deserialize (field "capabilities")
  let identity ← readIdentity (field "identity")
  let artifacts ← readList Artifact.deserialize (field "artifacts")
  let updatedAt ← readString (field "updated_at")
  let expiresAt ← readOptionString (field "expires_at")
  some { tfwsVersion, subject, environment, operator, keyEpoch, keys, signaturePolicy,
         capabilities, identity, artifacts, updatedAt, expiresAt }

/-- `serde_json::to_value` and `serde_json::from_value` at the manifest, as
released: they succeed exactly where the derived code does. Errors are given
by their text, of which nothing is assumed. -/
structure Serde where
  toValue : Manifest → Except String Value
  fromValue : Value → Except String Manifest
  toValue_eq : ∀ manifest, toValue manifest = .ok manifest.serialize
  fromValue_eq_ok : ∀ value manifest,
    fromValue value = .ok manifest ↔ Manifest.deserialize value = some manifest

/-- What the policy reads of a parsed `url::Url`. The host is not among it. -/
structure Url where
  scheme : String
  cannotBeABase : Bool
  path : String
  query : Option String
  fragment : Option String
  username : String
  password : Option String

/-- The external crates. `parseUrl` is `Url::parse`; nothing is assumed of it, and of
the others only what a result names. -/
structure Crates where
  decoder : Minicbor.Decoder
  encoder : Minicbor.Encoder
  serde : Serde
  parseUrl : String → Except String Url

/-- `char::is_whitespace`: the Unicode property `White_Space`. Python's set of blanks
is another one. -/
def isWhitespace (c : Char) : Bool :=
  let code := c.toNat
  (9 ≤ code && code ≤ 13) || code = 0x20 || code = 0x85 || code = 0xA0 || code = 0x1680 ||
    (0x2000 ≤ code && code ≤ 0x200A) || code = 0x2028 || code = 0x2029 || code = 0x202F ||
    code = 0x205F || code = 0x3000

/-- `text.trim().is_empty()`, which holds of a text of blanks alone and of no
other. -/
def trimIsEmpty (text : String) : Bool := text.toList.all isWhitespace

/-- A text of so many hexadecimal digits in lower case, counted in octets. Characters
beyond ASCII are no digits anyway. -/
def isLowerHex (value : String) (length : Nat) : Bool :=
  (Utf8.encode value).length = length &&
    (Utf8.encode value).all fun byte =>
      (48 ≤ byte && byte ≤ 57) || (97 ≤ byte && byte ≤ 102)

def isAsciiUppercase (byte : UInt8) : Bool := 65 ≤ byte && byte ≤ 90

/-- An integer in the safe range, read as signed where it fits, and as unsigned
otherwise. A float never passes. -/
def numberInProfile (number : Number) : Bool :=
  match number.asI64 with
  | some integer => integer.toInt.natAbs ≤ maxSafeInteger
  | none =>
      match number.asU64 with
      | some integer => integer.toNat ≤ maxSafeInteger
      | none => false

mutual
/-- Every number of the value is an integer that a double holds exactly, at any
depth. -/
def validateJsonNumberProfile : Value → Except Error Unit
  | .number number =>
      failIf (numberInProfile number = false)
        (.invalidManifest "floating-point or out-of-range JSON number")
  | .array items => validateJsonItems items
  | .object entries => validateJsonEntries entries
  | _ => .ok ()

def validateJsonItems : List Value → Except Error Unit
  | [] => .ok ()
  | item :: rest => do
      validateJsonNumberProfile item
      validateJsonItems rest

def validateJsonEntries : List (String × Value) → Except Error Unit
  | [] => .ok ()
  | (_, item) :: rest => do
      validateJsonNumberProfile item
      validateJsonEntries rest
end

/-- The loop over the key descriptors; `seen` holds the algorithms so far, so that
none is there twice. -/
def validateKeys (seen : List String) : List KeyDescriptor → Except Error Unit
  | [] => .ok ()
  | key :: rest => do
      failIf (key.algorithm ∉ baselineAlgorithms ∨ key.algorithm ∈ seen ∨
          trimIsEmpty key.keyId ∨ key.status ≠ "active" ∨ key.usage ≠ ["release"] ∨
          isLowerHex key.publicKeySha256 64 = false ∨
          key.publicKeyUri ≠ "/.well-known/keys/" ++ key.algorithm ++ ".pem")
        (.invalidManifest "invalid baseline key descriptor")
      validateKeys (key.algorithm :: seen) rest

/-- The required capabilities are known ones. The first one that is not decides the
message. -/
def validateCapabilities : List String → Except Error Unit
  | [] => .ok ()
  | capability :: rest => do
      failIf (capability ∉ knownCapabilities) (.unsupportedCapability capability)
      validateCapabilities rest

def validateArtifacts (crates : Crates) : List Artifact → Except Error Unit
  | [] => .ok ()
  | artifact :: rest => do
      let _ ← (crates.parseUrl artifact.uri).mapError fun error =>
        .invalidManifest ("artifact URI: " ++ error)
      failIf (trimIsEmpty artifact.mediaType ∨ isLowerHex artifact.sha512 128 = false)
        (.invalidManifest "invalid artifact")
      validateArtifacts crates rest

/-- A two-letter code in upper case; absence is fine. The length is counted in
octets. -/
def validJurisdiction : Option String → Bool
  | none => true
  | some jurisdiction =>
      (Utf8.encode jurisdiction).length = 2 && (Utf8.encode jurisdiction).all isAsciiUppercase

/-- The parsed subject is an HTTPS origin and nothing else. `Url::parse` has given an
empty path its slash. -/
def Url.isHttpsOrigin (url : Url) : Bool :=
  url.scheme = "https" && !url.cannotBeABase && url.path = "/" && url.query.isNone &&
    url.fragment.isNone && url.username.isEmpty && url.password.isNone

/-- `Manifest::validate`. The first check that fails decides the message, in the order
of the source. -/
def Manifest.validate (crates : Crates) (manifest : Manifest) : Except Error Unit := do
  failIf (manifest.tfwsVersion ≠ "3.0") (.invalidManifest "unsupported version")
  let subject ← (crates.parseUrl manifest.subject).mapError .invalidManifest
  failIf (subject.isHttpsOrigin = false) (.invalidManifest "subject must be an HTTPS origin")
  failIf (manifest.environment ∉ ["development", "staging", "production"])
    (.invalidManifest "invalid environment")
  failIf (manifest.keyEpoch = 0 ∨ maxSafeInteger < manifest.keyEpoch.toNat)
    (.invalidManifest "invalid key epoch")
  failIf (trimIsEmpty manifest.operator.name) (.invalidManifest "operator name is required")
  failIf (validJurisdiction manifest.operator.jurisdiction = false)
    (.invalidManifest "invalid jurisdiction")
  failIf (manifest.keys.isEmpty ∧ manifest.environment ≠ "development")
    (.invalidManifest "staging and production manifests require bound keys")
  failIf (¬manifest.keys.isEmpty ∧ manifest.keys.length ≠ baselineAlgorithms.length)
    (.invalidManifest "hybrid baseline requires two key descriptors")
  validateKeys [] manifest.keys
  failIf (manifest.signaturePolicy.policyId ≠ baselinePolicy ∨
      manifest.signaturePolicy.requiredAlgorithms ≠ baselineAlgorithms)
    (.invalidManifest "hybrid baseline downgrade")
  failIf (manifest.capabilities.required.dedup.length ≠ manifest.capabilities.required.length)
    (.invalidManifest "duplicate mandatory capability")
  failIf (manifest.capabilities.optional.dedup.length ≠ manifest.capabilities.optional.length ∨
      manifest.capabilities.required.any manifest.capabilities.optional.contains)
    (.invalidManifest "duplicate or conflicting optional capability")
  validateCapabilities manifest.capabilities.required
  validateArtifacts crates manifest.artifacts
  let value ← (crates.serde.toValue manifest).mapError .canonicalization
  validateJsonNumberProfile value

end Tfws
