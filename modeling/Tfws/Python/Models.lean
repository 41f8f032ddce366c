import Tfws.Data.Fallible
import Tfws.Python.Canonical

/-! The manifest policy of `tfws3/models.py`. It runs on objects of any type:
where a type is not checked first, the operation at hand decides. -/
namespace Tfws.Python

open Fallible

/-- `BASELINE`, the two algorithms in the order that the policy demands. -/
def baseline : List String := ["ed25519", "ml-dsa-65"]

/-- `KNOWN_REQUIRED_CAPABILITIES`. Optional capabilities may have any names. -/
def knownRequiredCapabilities : List String :=
  ["core.v1", "identity.v1", "recovery.v1", "transparency.v1"]

/-- What the policy reads of a `urllib.parse.ParseResult`: its parts, and the
credentials in its netloc. -/
structure ParseResult where
  scheme : String
  netloc : String
  path : String
  params : String
  query : String
  fragment : String
  username : Option String
  password : Option String

/-- What the policy reads of a `datetime`: whether it has a time zone, and the
instant in UTC, if that is in the range of dates. -/
structure Datetime where
  tzinfo : Bool
  utc : Option Int

/-- The standard library outside the built-in types, of which nothing is
assumed. `urlparse` and `fromisoformat` may raise a `ValueError`; `sortedText`
formats the sorted list of the members of a set. -/
structure Runtime where
  urlparse : String → Except String ParseResult
  fromisoformat : String → Except String Datetime
  sortedText : List Object → Result String

namespace Object

/-- The text, for comparisons with a `str`: nothing else equals one. -/
def text? : Object → Option String
  | .str text => some text
  | _ => Option.none

theorem text?_eq_some {object : Object} {text : String} :
    object.text? = some text ↔ object = .str text := by
  cases object <;> simp [text?]

/-- The texts, for comparisons with a list of `str`. One member that is no text makes
the lists differ. -/
def textList? : Object → Option (List String)
  | .list items => items.mapM text?
  | _ => Option.none

/-- `bool(object)`, by which an empty container counts as absent, and both zeros of a
float do. -/
def truthy : Object → Bool
  | .none => false
  | .bool value => value
  | .int value => value ≠ 0
  | .float bits => bits ≠ 0 && bits ≠ 0x8000000000000000
  | .str text => text ≠ ""
  | .bytes octets => octets ≠ []
  | .list items => !items.isEmpty
  | .dict entries => !entries.isEmpty
  | .tag _ _ => true

def hashable : Object → Bool
  | .list _ | .dict _ => false
  | _ => true

/-- `==` between hashable objects. Tags are told apart by identity. Floats, which
neither loader lets in, are told apart by their bits. -/
def equal : Object → Object → Bool
  | .none, .none => true
  | .float bits, .float bits' => bits = bits'
  | first, second =>
      match first.key?, second.key? with
      | some first, some second => first.equal second
      | _, _ => false

/-- Only the text itself equals a text, so that a comparison with a name is one of
texts. -/
theorem equal_str_iff {object : Object} {text : String} :
    object.equal (.str text) = true ↔ object = .str text := by
  cases object <;> simp [equal, key?, Key.equal, Key.identity]

/-- The members of a set built from a list: the first of every group of equals, as
Python keeps it. -/
def distinct : List Object → List Object
  | [] => []
  | item :: rest => item :: (distinct rest).filter fun other => !item.equal other

/-- `set(items)`, which fails where a member cannot be hashed, whatever the others
are. -/
def setOf (items : List Object) : Result (List Object) :=
  if items.all hashable then .ok (distinct items) else .error (.typeError "unhashable type")

/-- `tuple(object)`, which takes a text apart into its characters, and a dictionary
into its keys. -/
def tuple : Object → Result (List Object)
  | .list items => .ok items
  | .str text => .ok (text.toList.map fun c => .str (String.singleton c))
  | .bytes octets => .ok (octets.map fun octet => .int octet.toNat)
  | .dict entries => .ok (entries.map fun entry => entry.1.object)
  | _ => .error (.typeError "object is not iterable")

/-- `entries[name]`, with a `KeyError` where there is no such entry. The decoder of
documents catches it. -/
def getItem (name : String) (entries : List (Key × Object)) : Result Object :=
  match get (.str name) entries with
  | some object => .ok object
  | Option.none => .error (.keyError name)

/-- A subscript succeeds exactly with what `get` finds. -/
theorem getItem_eq_ok {name : String} {entries : List (Key × Object)} {object : Object} :
    getItem name entries = .ok object ↔ get (.str name) entries = some object := by
  rw [getItem]
  cases get (.str name) entries <;> simp

/-- `set(entries) == names`, as Python compares keys: no name may be missing and none
be added. -/
def hasKeys (names : List String) (entries : List (Key × Object)) : Bool :=
  entries.all (fun entry => names.any fun name => entry.1 = .str name) &&
    names.all fun name => contains (.str name) entries

end Object

/-- `str.isspace` of one character: the separators and the white space of
Unicode, and the four information separators of ASCII. -/
def isSpace (c : Char) : Bool :=
  let code := c.toNat
  (9 ≤ code && code ≤ 13) || (0x1C ≤ code && code ≤ 0x20) || code = 0x85 || code = 0xA0 ||
    code = 0x1680 || (0x2000 ≤ code && code ≤ 0x200A) || code = 0x2028 || code = 0x2029 ||
    code = 0x202F || code = 0x205F || code = 0x3000

/-- `not text.strip()`, with the blanks that Python knows. The empty text passes
too. -/
def stripIsEmpty (text : String) : Bool := text.toList.all isSpace

/-- `not str(object).strip()`: every object but a string shows some mark. -/
def strIsBlank : Object → Bool
  | .str text => stripIsEmpty text
  | _ => false

/-- `_is_lower_hex`, on any object; the length is counted in characters. What is no
text is no digest. -/
def isLowerHex (value : Object) (length : Nat) : Bool :=
  match value with
  | .str text =>
      text.toList.length = length &&
        text.toList.all fun character => "0123456789abcdef".toList.contains character
  | _ => false

/-- `isascii` and `isupper`: ASCII only, with a capital and without a small letter.
Digits may stand among them. -/
def isAsciiUpper (text : String) : Bool :=
  text.toList.all (fun c => c.toNat < 128) && text.toList.any Char.isUpper &&
    !text.toList.any Char.isLower

/-- `text.replace("Z", "+00:00")`, wherever a `Z` stands. What comes out is left to
`fromisoformat`. -/
def replaceZ (text : String) : String :=
  String.ofList (text.toList.flatMap fun c => if c = 'Z' then "+00:00".toList else [c])

/-- The text of a string, or an error. It stands for an operation that only a text
has. -/
def textOr (error : Exception) : Object → Result String
  | .str text => .ok text
  | _ => .error error

theorem textOr_eq_ok {error : Exception} {object : Object} {text : String} :
    textOr error object = .ok text ↔ object = .str text := by
  cases object <;> simp [textOr]

/-- Raise what `error` computes when `bad` holds; computing it may itself raise
another, as where a set is sorted for a message. -/
def raiseIf (bad : Prop) [Decidable bad] (error : Result Exception) : Result Unit := do
  if bad then .error (← error)

theorem raiseIf_of_not {bad : Prop} [Decidable bad] (h : ¬bad) (raised : Result Exception) :
    raiseIf bad raised = .ok () :=
  if_neg h

theorem raiseIf_eq_ok {bad : Prop} [Decidable bad] {raised : Result Exception} {result : Unit} :
    raiseIf bad raised = .ok result ↔ ¬bad := by
  unfold raiseIf
  split_ifs with h
  · cases raised <;> simp [h]
  · simp [h]

/-- `urlparse(object)`. What is neither a string nor empty has no `decode`; what is
empty parses as the empty URL. -/
def urlparse (runtime : Runtime) : Object → Result ParseResult
  | .str text => (runtime.urlparse text).mapError .valueError
  | object => do
      failIf (object.truthy = true) (.attributeError "object has no attribute 'decode'")
      .ok { scheme := "", netloc := "", path := "", params := "", query := "", fragment := "",
            username := none, password := none }

/-- The parsed subject is an HTTPS origin, as this implementation understands it. A
single slash is allowed as the path. -/
def ParseResult.isHttpsOrigin (parsed : ParseResult) : Bool :=
  parsed.scheme = "https" && parsed.netloc ≠ "" && (parsed.path = "" || parsed.path = "/") &&
    parsed.params = "" && parsed.query = "" && parsed.fragment = "" &&
    parsed.username.getD "" = "" && parsed.password.getD "" = ""

/-- `parse_rfc3339`, in UTC. Converting the time can fail although it could be read:
near the ends of the range of dates the zone may lead out of it. -/
def parseRfc3339 (runtime : Runtime) : Object → Result Int
  | .str value => do
      let parsed ← (runtime.fromisoformat (replaceZ value)).mapError fun _ =>
        .validation ("invalid RFC3339 timestamp: " ++ value)
      failIf (parsed.tzinfo = false) (.validation "timestamp must include a timezone")
      match parsed.utc with
      | some instant => .ok instant
      | none => .error (.overflowError "date value out of range")
  | _ => .error (.validation "timestamp must be a string")

/-- The fields of a key descriptor, none of which may be missing. -/
def keyFields : List String :=
  ["algorithm", "key_id", "public_key_sha256", "public_key_uri", "status", "usage"]

/-- The body of the loop over the descriptors, for a dictionary. What is no string is
not in `BASELINE`. It returns what later descriptors must not repeat. -/
def validateKeyDescriptor (seenAlgorithms : List String) (seenIds : List (String × String))
    (index : String) (descriptor : List (Key × Object)) : Result (String × String) := do
  failIf (Object.hasKeys keyFields descriptor = false)
    (.validation ("key descriptor " ++ index ++ " has invalid fields"))
  let unsupported := Exception.policy "missing, duplicate or unsupported baseline key"
  let algorithm ← textOr unsupported (← Object.getItem "algorithm" descriptor)
  failIf (algorithm ∉ baseline ∨ algorithm ∈ seenAlgorithms) unsupported
  let invalidKeyId := Exception.validation ("key descriptor " ++ index ++ " has invalid key_id")
  let keyId ← textOr invalidKeyId (← Object.getItem "key_id" descriptor)
  failIf (stripIsEmpty keyId = true) invalidKeyId
  failIf ((algorithm, keyId) ∈ seenIds) (.validation "duplicate key identity")
  let expectedUri := "/.well-known/keys/" ++ algorithm ++ ".pem"
  let publicKeyUri ← Object.getItem "public_key_uri" descriptor
  failIf (publicKeyUri.text? ≠ some expectedUri)
    (.policy ("baseline public key URI must be " ++ expectedUri))
  let publicKeySha256 ← Object.getItem "public_key_sha256" descriptor
  failIf (isLowerHex publicKeySha256 64 = false)
    (.validation ("key descriptor " ++ index ++ " has invalid SHA-256"))
  let status ← Object.getItem "status" descriptor
  let usage ← Object.getItem "usage" descriptor
  failIf (status.text? ≠ some "active" ∨ usage.textList? ≠ some ["release"])
    (.policy "baseline keys must be active release keys")
  .ok (algorithm, keyId)

/-- The loop over the descriptors; it returns `seen_algorithms`, from which
completeness is read off. -/
def validateKeyList (seenAlgorithms : List String) (seenIds : List (String × String))
    (index : Nat) : List Object → Result (List String)
  | [] => .ok seenAlgorithms
  | .dict descriptor :: rest => do
      let (algorithm, keyId) ←
        validateKeyDescriptor seenAlgorithms seenIds (toString index) descriptor
      validateKeyList (algorithm :: seenAlgorithms) ((algorithm, keyId) :: seenIds) (index + 1) rest
  | _ :: _ => .error (.validation ("key descriptor " ++ toString index ++ " has invalid fields"))

/-- `validate_key_descriptors`. An empty list passes in development alone, and only
where the caller allows it. -/
def validateKeyDescriptors (allowUnboundDevelopment : Bool) (data : List (Key × Object)) :
    Result Unit :=
  match Object.get (.str "keys") data with
  | some (.list keys) =>
      if keys = [] ∧ allowUnboundDevelopment = true ∧
          (Object.get (.str "environment") data).bind Object.text? = some "development" then
        .ok ()
      else do
        failIf (keys.length ≠ baseline.length)
          (.policy "hybrid baseline requires exactly two active key descriptors")
        let seenAlgorithms ← validateKeyList [] [] 0 keys
        failIf (∃ algorithm ∈ baseline, algorithm ∉ seenAlgorithms)
          (.policy "hybrid baseline key set is incomplete")
  | _ => .error (.validation "keys must be an array")

/-- `data["signature_policy"]`, where the algorithms may be in any container that
makes a tuple. Their order counts. -/
def validatePolicy : Object → Result Unit
  | .dict policy => do
      let downgrade := Exception.policy
        "baseline requires ordered ed25519 + ml-dsa-65 and forbids downgrade"
      failIf (Object.hasKeys ["policy_id", "required_algorithms"] policy = false ∨
        (Object.get (.str "policy_id") policy).bind Object.text? ≠
          some "tfws.hybrid.baseline.v1") downgrade
      let algorithms ← ((Object.get (.str "required_algorithms") policy).getD (.list [])).tuple
      failIf (algorithms.mapM Object.text? ≠ some baseline) downgrade
  | _ => .error
      (.policy "baseline requires ordered ed25519 + ml-dsa-65 and forbids downgrade")

/-- `data["capabilities"]`, once its two members are known to be lists: without
repetitions, disjoint, and nothing required that is unknown. -/
def validateCapabilityLists (runtime : Runtime) (required optional : List Object) :
    Result Unit := do
  let conflict := Exception.validation "capabilities must be unique and disjoint"
  let requiredSet ← Object.setOf required
  failIf (required.length ≠ requiredSet.length) conflict
  let optionalSet ← Object.setOf optional
  failIf (optional.length ≠ optionalSet.length) conflict
  failIf (requiredSet.any fun item => optionalSet.any item.equal) conflict
  let unknownRequired := requiredSet.filter fun item =>
    knownRequiredCapabilities.all fun known => item.text? ≠ some known
  raiseIf (unknownRequired ≠ []) do
    let text ← runtime.sortedText unknownRequired
    .ok (.policy ("unknown mandatory capabilities: " ++ text))

/-- The form of `data["capabilities"]`, and then its two lists. -/
def validateCapabilities (runtime : Runtime) : Object → Result Unit
  | .dict capabilities => do
      failIf (Object.hasKeys ["required", "optional"] capabilities = false)
        (.validation "capabilities must contain required and optional arrays")
      match Object.get (.str "required") capabilities, Object.get (.str "optional") capabilities with
      | some (.list required), some (.list optional) =>
          validateCapabilityLists runtime required optional
      | _, _ => .error (.validation "capabilities.required and optional must be arrays")
  | _ => .error (.validation "capabilities must contain required and optional arrays")

/-- The check of `data["expires_at"]`, if it is there: it has to be later than the
last change. -/
def validateExpiry (runtime : Runtime) (updated : Int) : Option Object → Result Unit
  | none => .ok ()
  | some expiresAt => do
      let expires ← parseRfc3339 runtime expiresAt
      failIf (expires ≤ updated) (.validation "expires_at must be after updated_at")

/-- `data["updated_at"]` and `data["expires_at"]`, the second of which may be
missing. -/
def validateTimes (runtime : Runtime) (data : List (Key × Object)) : Result Unit := do
  let updated ← parseRfc3339 runtime (← Object.getItem "updated_at" data)
  validateExpiry runtime updated (Object.get (.str "expires_at") data)

/-- `operator.get("jurisdiction")`, absence and `None` among what is fine; otherwise
two characters in capitals. -/
def validJurisdiction : Option Object → Bool
  | none | some .none => true
  | some (.str jurisdiction) => jurisdiction.toList.length = 2 && isAsciiUpper jurisdiction
  | _ => false

/-- `data["operator"]`, a dictionary with no fields but its two. -/
def validateOperator : Object → Result Unit
  | .dict operator => do
      failIf (operator.any (fun entry =>
          entry.1 ≠ .str "jurisdiction" && entry.1 ≠ .str "name") ∨
          strIsBlank ((Object.get (.str "name") operator).getD (.str "")) = true)
        (.validation "operator has invalid fields or missing name")
      failIf (validJurisdiction (Object.get (.str "jurisdiction") operator) = false)
        (.validation "operator.jurisdiction must be an ISO-style uppercase code")
  | _ => .error (.validation "operator has invalid fields or missing name")

/-- A string that is not empty; blanks are enough. URIs and media types are not looked
at further. -/
def isNonemptyText (object : Object) : Bool := object.text?.any fun text => text ≠ ""

/-- The body of the loop over the artifacts, for a dictionary. The digest has 128
digits, for SHA-512. -/
def validateArtifact (index : String) (artifact : List (Key × Object)) : Result Unit := do
  failIf (Object.hasKeys ["media_type", "sha512", "uri"] artifact = false)
    (.validation ("artifact " ++ index ++ " has invalid fields"))
  failIf (isNonemptyText (← Object.getItem "uri" artifact) = false)
    (.validation ("artifact " ++ index ++ " has invalid URI"))
  failIf (isNonemptyText (← Object.getItem "media_type" artifact) = false)
    (.validation ("artifact " ++ index ++ " has invalid media type"))
  failIf (isLowerHex (← Object.getItem "sha512" artifact) 128 = false)
    (.validation ("artifact " ++ index ++ " has invalid sha512"))

def validateArtifacts (index : Nat) : List Object → Result Unit
  | [] => .ok ()
  | .dict artifact :: rest => do
      validateArtifact (toString index) artifact
      validateArtifacts (index + 1) rest
  | _ :: _ => .error (.validation ("artifact " ++ toString index ++ " has invalid fields"))

/-- The fields that no manifest may lack. `expires_at` and `identity` may be added,
and nothing else. -/
def requiredFields : List String :=
  ["artifacts", "capabilities", "environment", "key_epoch", "keys", "operator",
    "signature_policy", "subject", "tfws_version", "updated_at"]

/-- `data["key_epoch"]` is an `int`, no `bool`, and in the range that every
implementation can hold. -/
def validKeyEpoch : Object → Bool
  | .int value => 1 ≤ value && value ≤ maxSafeInteger
  | _ => false

/-- `validate_manifest`. Checks come in this order, and what is not checked before is
used as it is: an operation on the wrong type raises what the language does. -/
def validateManifest (runtime : Runtime) (allowNonproduction allowUnboundDevelopment : Bool)
    (data : List (Key × Object)) : Result Unit := do
  let missing := requiredFields.filter fun name => !Object.contains (.str name) data
  raiseIf (missing ≠ []) do
    let text ← runtime.sortedText (missing.map Object.str)
    .ok (.validation ("missing manifest fields: " ++ text))
  let unknown := (data.map Prod.fst).filter fun key =>
    ("expires_at" :: "identity" :: requiredFields).all fun name => key ≠ .str name
  raiseIf (unknown ≠ []) do
    let text ← runtime.sortedText (unknown.map Key.object)
    .ok (.validation ("unknown manifest fields: " ++ text))
  let tfwsVersion ← Object.getItem "tfws_version" data
  failIf (tfwsVersion.text? ≠ some "3.0") (.validation "unsupported tfws_version")
  let parsed ← urlparse runtime (← Object.getItem "subject" data)
  failIf (parsed.isHttpsOrigin = false) (.validation
    "subject must be an HTTPS origin without credentials/path/query/fragment")
  let environment ← Object.getItem "environment" data
  failIf (environment.hashable = false) (.typeError "unhashable type")
  failIf (["development", "staging", "production"].all fun name => environment.text? ≠ some name)
    (.validation "invalid environment")
  failIf (allowNonproduction = false ∧ environment.text? ≠ some "production")
    (.policy "non-production manifest cannot pass production gate")
  let keyEpoch ← Object.getItem "key_epoch" data
  failIf (validKeyEpoch keyEpoch = false)
    (.validation "key_epoch must be a positive interoperable integer")
  validatePolicy (← Object.getItem "signature_policy" data)
  validateKeyDescriptors allowUnboundDevelopment data
  validateCapabilities runtime (← Object.getItem "capabilities" data)
  validateTimes runtime data
  validateOperator (← Object.getItem "operator" data)
  match ← Object.getItem "artifacts" data with
  | .list artifacts => validateArtifacts 0 artifacts
  | _ => .error (.validation "artifacts must be an array")

/-- The exceptions that `decode_manifest_cbor` catches; an `OverflowError` is not
among them, and goes to the caller. -/
def caught : Exception → Bool
  | .validation _ | .policy _ | .typeError _ | .valueError _ | .attributeError _ | .keyError _ =>
      true
  | _ => false

/-- `decode_manifest_cbor`; the dictionary is returned by its entries. What the policy
raises becomes one category, except for what is not caught. -/
def decodeManifestCbor (runtime : Runtime) (data : Bytes) : Result (List (Key × Object)) := do
  let value ← decodeCborDocument Flags.manifest data
  match value with
  | .dict entries => do
      validateManifestCborValue "$" value
      (validateManifest runtime true true entries).mapError fun exception =>
        if caught exception then
          .interoperability "decoded manifest violates the TFWS profile" "manifest_policy_invalid"
        else exception
      .ok entries
  | _ => .error (.interoperability "manifest CBOR root must be a map" "manifest_policy_invalid")

end Tfws.Python
