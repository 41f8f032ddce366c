import Tfws.Data.Base64
import Tfws.Python.EventLog

/-! The JSON signature bundles of `tfws3/crypto.py`. OpenSSL is a parameter. -/
namespace Tfws.Python

open Fallible

/-- The files of a directory: their paths and what the regular ones hold. A directory
does not change during a call. -/
structure KeyDirectory where
  path : String → String
  file : String → Option Bytes

/-- What the module uses besides the standard library of the policy and of the
event log. Nothing is assumed: OpenSSL may accept any signatures, under a key,
of a message, and sign as it likes, on every call anew. Whatever goes wrong in a
command has a message. -/
structure CryptoRuntime extends Runtime, EventRuntime where
  sha512 : Bytes → Bytes
  requireOpenssl : Result Unit
  opensslVerify : Bytes → Bytes → Bytes → Except String Unit
  opensslSign : String → Bytes → Bytes → Except String Bytes
  now : String
  format : Object → String

/-- `object[name]`, on a dictionary or on something that has no names, which raises a
`TypeError`. -/
def subscript (name : String) : Object → Result Object
  | .dict entries => Object.getItem name entries
  | _ => .error (.typeError "object is not subscriptable")

theorem subscript_dict {name : String} {entries : List (Key × Object)} {object : Object} :
    subscript name (.dict entries) = .ok object ↔ Object.get (.str name) entries = some object :=
  Object.getItem_eq_ok

/-- The integer, or an error; a truth value is no integer here, since the policy has
refused it. -/
def intOr (error : Exception) : Object → Result Int
  | .int value => .ok value
  | _ => .error error

theorem intOr_eq_ok {error : Exception} {object : Object} {value : Int} :
    intOr error object = .ok value ↔ object = .int value := by
  cases object <;> simp [intOr]

/-- `base64.b64encode(octets).decode("ascii")`, which has an inverse among the
decoders. -/
def b64encode (octets : Bytes) : String := String.ofList (Base64.encode octets)

/-- `base64.b64decode(object, validate=True)`. Padding behind a full group is refused,
as `binascii` documents for its strict mode; CPython 3.11 and 3.12 do not enforce
that, and decode such texts. -/
def b64decode : Object → Option Bytes
  | .str text => Base64.decode text.toList
  | .bytes octets => Base64.decode (octets.map fun octet => Char.ofNat octet.toNat)
  | _ => none

/-- What was encoded is decoded, octet by octet. -/
@[simp] theorem b64decode_b64encode (octets : Bytes) :
    b64decode (.str (b64encode octets)) = some octets := by
  rw [b64decode, b64encode, String.toList_ofList, Base64.decode_encode]

/-- The name of a key file in its directory. -/
def pem (algorithm : String) : String := algorithm ++ ".pem"

/-- The pairs of `{entry["algorithm"]: entry for entry in keys}`, before equal keys
are merged. -/
def describedKeys : List Object → Result (List (Key × Object))
  | [] => .ok []
  | entry :: rest => do
      let algorithm ← subscript "algorithm" entry
      match algorithm.key? with
      | some key => do
          let others ← describedKeys rest
          .ok ((key, entry) :: others)
      | none => .error (.typeError "unhashable type")

/-- The dictionary `descriptors`, by algorithm. The manifest has passed its policy, so
that no algorithm is there twice. -/
def keyDescriptors (manifest : List (Key × Object)) : Result (List (Key × Object)) := do
  match ← Object.getItem "keys" manifest with
  | .list keys => do
      let pairs ← describedKeys keys
      .ok (Object.setItems [] pairs)
  | _ => .error (.typeError "object is not iterable")

/-- The comparison with the identifier that a signer asks for. Verification asks for
none. -/
def checkKeyId (keyId : Option String) (algorithm : String) (descriptor : Object) :
    Result Unit :=
  match keyId with
  | none => .ok ()
  | some keyId => do
      let held ← subscript "key_id" descriptor
      failIf (held.text? ≠ some keyId) (.crypto ("manifest key_id mismatch for " ++ algorithm))

/-- `path.read_bytes()`, for a path that may be no file. The message names the
path. -/
def readKey (directory : KeyDirectory) (kind algorithm : String) : Result Bytes :=
  match directory.file (pem algorithm) with
  | some key => .ok key
  | none => .error (.crypto ("missing " ++ kind ++ " key: " ++ directory.path (pem algorithm)))

/-- The body of the loop of `_validate_key_binding`: the descriptor, the file and the
digest of one algorithm. Only public keys are looked at. -/
def checkKey (runtime : CryptoRuntime) (directory : KeyDirectory) (keyId : Option String)
    (descriptors : List (Key × Object)) (algorithm : String) : Result Unit := do
  let descriptor ← Object.getItem algorithm descriptors
  checkKeyId keyId algorithm descriptor
  let key ← readKey directory "public" algorithm
  let digest ← subscript "public_key_sha256" descriptor
  failIf (digest.text? ≠ some (hexdigest (runtime.sha256 key)))
    (.crypto ("public key hash mismatch for " ++ algorithm))

def checkKeys (runtime : CryptoRuntime) (directory : KeyDirectory) (keyId : Option String)
    (descriptors : List (Key × Object)) : List String → Result Unit
  | [] => .ok ()
  | algorithm :: rest => do
      checkKey runtime directory keyId descriptors algorithm
      checkKeys runtime directory keyId descriptors rest

/-- `_validate_key_binding`, which returns the descriptors that it has checked.
Signing and verifying both begin with it. -/
def validateKeyBinding (runtime : CryptoRuntime) (directory : KeyDirectory)
    (keyId : Option String) (manifest : List (Key × Object)) : Result (List (Key × Object)) := do
  validateManifest runtime.toRuntime true false manifest
  let descriptors ← keyDescriptors manifest
  checkKeys runtime directory keyId descriptors baseline
  .ok descriptors

/-- `payload_hash`: the canonical octets of a valid manifest and their digest. The
manifest is validated once more. -/
def payloadHash (runtime : CryptoRuntime) (manifest : List (Key × Object)) :
    Result (Bytes × String) := do
  validateManifest runtime.toRuntime true false manifest
  let canonical ← canonicalize (.dict manifest)
  .ok (canonical, hexdigest (runtime.sha512 canonical))

/-- `"\n" in text or "\r" in text`, for every field that gets a line of the
message. -/
def hasNewline (text : String) : Bool := text.toList.any fun c => c = '\n' || c = '\r'

/-- `signature_message`, the text that is signed: one line for each field, which is
why no field may hold a line end. -/
def signatureMessage (subject payloadSha512 created : String) (keyEpoch : Int) : Result Bytes := do
  failIf (hasNewline subject = true ∨ hasNewline payloadSha512 = true ∨ hasNewline created = true)
    (.validation "signature metadata contains newline")
  .ok (Utf8.encode ("TFWS3-SIGNATURE-V1\n" ++ "subject=" ++ subject ++ "\n" ++
    "media_type=application/tfws+json\n" ++ "payload_sha512=" ++ payloadSha512 ++ "\n" ++
    "created=" ++ created ++ "\n" ++ "key_epoch=" ++ toString keyEpoch ++ "\n" ++
    "policy=tfws.hybrid.baseline.v1\n"))

/-- `manifest["subject"]`, which is a text once the policy has passed. -/
def manifestSubject (manifest : List (Key × Object)) : Result String := do
  let subject ← Object.getItem "subject" manifest
  textOr (.typeError "argument is not iterable") subject

/-- `manifest["key_epoch"]`, which is an integer once the policy has passed. -/
def manifestEpoch (manifest : List (Key × Object)) : Result Int := do
  let keyEpoch ← Object.getItem "key_epoch" manifest
  intOr (.typeError "not an integer") keyEpoch

def bundleFields : List String :=
  ["bundle_version", "created", "key_epoch", "payload_sha512", "policy_id", "signatures", "subject"]

def entryFields : List String := ["algorithm", "key_id", "public_key_uri", "value"]

/-- `_verify_one`, which leaves the decision to OpenSSL and the key file. -/
def verifyOne (runtime : CryptoRuntime) (directory : KeyDirectory) (algorithm : String)
    (message signature : Bytes) : Result Unit := do
  let key ← readKey directory "public" algorithm
  (runtime.opensslVerify key message signature).mapError .crypto

/-- What an entry of the bundle is checked for, once its algorithm is known: the
identifier, the URI, and then the signature itself. -/
def verifySignature (runtime : CryptoRuntime) (directory : KeyDirectory)
    (descriptors : List (Key × Object)) (message : Bytes) (algorithm : String)
    (entry : List (Key × Object)) : Result Unit := do
  let descriptor ← Object.getItem algorithm descriptors
  let keyId ← Object.getItem "key_id" entry
  let expectedKeyId ← subscript "key_id" descriptor
  failIf (keyId.equal expectedKeyId = false)
    (.crypto ("signature key_id mismatch for " ++ algorithm))
  let publicKeyUri ← Object.getItem "public_key_uri" entry
  let expectedUri ← subscript "public_key_uri" descriptor
  failIf (publicKeyUri.equal expectedUri = false)
    (.crypto ("signature public key URI mismatch for " ++ algorithm))
  let value ← Object.getItem "value" entry
  match b64decode value with
  | some signature => verifyOne runtime directory algorithm message signature
  | none => .error (.crypto ("invalid base64 signature for " ++ algorithm))

/-- The body of the loop over the entries; it returns the algorithm. What is no
string is not in `BASELINE`, nor in `seen`, but it has to be hashable. -/
def verifyEntry (runtime : CryptoRuntime) (directory : KeyDirectory)
    (descriptors : List (Key × Object)) (message : Bytes) (seen : List String) :
    Object → Result String
  | .dict entry => do
      failIf (Object.hasKeys entryFields entry = false)
        (.crypto "signature entry has invalid fields")
      let object ← Object.getItem "algorithm" entry
      failIf (object.hashable = false) (.typeError "unhashable type")
      let algorithm ←
        textOr (.crypto ("unsupported signature algorithm: " ++ runtime.format object)) object
      failIf (algorithm ∈ seen) (.crypto ("duplicate signature algorithm: " ++ algorithm))
      failIf (algorithm ∉ baseline) (.crypto ("unsupported signature algorithm: " ++ algorithm))
      verifySignature runtime directory descriptors message algorithm entry
      .ok algorithm
  | _ => .error (.crypto "signature entry has invalid fields")

/-- The loop over the entries; it returns the algorithms in their order. An algorithm
that was seen is refused the second time. -/
def verifyEntries (runtime : CryptoRuntime) (directory : KeyDirectory)
    (descriptors : List (Key × Object)) (message : Bytes) (seen : List String) :
    List Object → Result (List String)
  | [] => .ok []
  | entry :: rest => do
      let algorithm ← verifyEntry runtime directory descriptors message seen entry
      let others ←
        verifyEntries runtime directory descriptors message (algorithm :: seen) rest
      .ok (algorithm :: others)

/-- The fields of a bundle, of which none may be missing and none be added. -/
def openBundle : Object → Result (List (Key × Object))
  | .dict bundle => do
      failIf (Object.hasKeys bundleFields bundle = false)
        (.crypto "signature bundle has invalid fields")
      .ok bundle
  | _ => .error (.crypto "signature bundle has invalid fields")

/-- `bundle.get(name)`, or `None`. All the fields are there when it is called. -/
def bundleField (name : String) (bundle : List (Key × Object)) : Object :=
  (Object.get (.str name) bundle).getD .none

/-- What `verify_bundle` returns, which it does only if everything has passed. It
never returns a refusal. -/
def verified (digest : String) (algorithms : List String) : Object :=
  .dict [(.str "valid", .bool true), (.str "policy", .str "tfws.hybrid.baseline.v1"),
    (.str "payload_sha512", .str digest),
    (.str "signatures", .list (algorithms.map fun algorithm =>
      .dict [(.str "algorithm", .str algorithm), (.str "valid", .bool true)]))]

/-- `verify_bundle`: the manifest and its keys, then the bundle's metadata, and its
signatures last. The message is made from the manifest, not from the bundle. -/
def verifyBundle (runtime : CryptoRuntime) (directory : KeyDirectory)
    (manifest : List (Key × Object)) (object : Object) : Result Object := do
  runtime.requireOpenssl
  let descriptors ← validateKeyBinding runtime directory none manifest
  let bundle ← openBundle object
  failIf ((bundleField "bundle_version" bundle).text? ≠ some "1")
    (.crypto "unsupported signature bundle version")
  let _instant ← parseRfc3339 runtime.toRuntime (bundleField "created" bundle)
  let (_, digest) ← payloadHash runtime manifest
  let subject ← manifestSubject manifest
  let keyEpoch ← manifestEpoch manifest
  failIf ((bundleField "payload_sha512" bundle).text? ≠ some digest ∨
      (bundleField "subject" bundle).text? ≠ some subject ∨
      equalsInteger runtime.toEventRuntime keyEpoch (bundleField "key_epoch" bundle) = false)
    (.crypto "bundle metadata does not match manifest")
  failIf ((bundleField "policy_id" bundle).text? ≠ some "tfws.hybrid.baseline.v1")
    (.crypto "unapproved or downgraded signature policy")
  let created ← textOr (.typeError "argument is not iterable") (bundleField "created" bundle)
  let message ← signatureMessage subject digest created keyEpoch
  match (Object.get (.str "signatures") bundle).getD (.list []) with
  | .list entries => do
      let algorithms ← verifyEntries runtime directory descriptors message [] entries
      raiseIf ((∃ algorithm ∈ baseline, algorithm ∉ algorithms) ∨
          ∃ algorithm ∈ algorithms, algorithm ∉ baseline) do
        let text ← runtime.sortedText (algorithms.map .str)
        .ok (.crypto ("hybrid baseline incomplete; found " ++ text))
      .ok (verified digest algorithms)
  | _ => .error (.crypto "signatures must be an array")

/-- `_sign_one`, with the private key in its directory. The key is not compared with
the public one. -/
def signOne (runtime : CryptoRuntime) (directory : KeyDirectory) (algorithm : String)
    (message : Bytes) : Result Bytes := do
  let key ← readKey directory "private" algorithm
  (runtime.opensslSign algorithm key message).mapError .crypto

/-- The entry of a signature, with the key that verifies it named as the manifest
names it. -/
def signatureEntry (algorithm keyId : String) (publicKeyUri : Object) (signature : Bytes) : Object :=
  .dict [(.str "algorithm", .str algorithm), (.str "key_id", .str keyId),
    (.str "public_key_uri", publicKeyUri), (.str "value", .str (b64encode signature))]

/-- The loop of `sign_manifest`, which signs with every algorithm of the baseline. -/
def signEntries (runtime : CryptoRuntime) (directory : KeyDirectory)
    (descriptors : List (Key × Object)) (message : Bytes) (keyId : String) :
    List String → Result (List Object)
  | [] => .ok []
  | algorithm :: rest => do
      let signature ← signOne runtime directory algorithm message
      let descriptor ← Object.getItem algorithm descriptors
      let publicKeyUri ← subscript "public_key_uri" descriptor
      let others ← signEntries runtime directory descriptors message keyId rest
      .ok (signatureEntry algorithm keyId publicKeyUri signature :: others)

/-- `created or datetime.now(timezone.utc)...`; the empty text is false, and any other
text is taken as it is. -/
def creationTime (runtime : CryptoRuntime) (created : Option String) : String :=
  match created with
  | none => runtime.now
  | some created => if created = "" then runtime.now else created

/-- What `sign_manifest` returns, ready to be written as JSON and read back. -/
def signatureBundle (subject digest created : String) (keyEpoch : Int)
    (signatures : List Object) : Object :=
  .dict [(.str "bundle_version", .str "1"), (.str "subject", .str subject),
    (.str "payload_sha512", .str digest), (.str "created", .str created),
    (.str "key_epoch", .int keyEpoch), (.str "policy_id", .str "tfws.hybrid.baseline.v1"),
    (.str "signatures", .list signatures)]

/-- `sign_manifest`, with the two halves of the key directory. The time of creation is
not parsed. -/
def signManifest (runtime : CryptoRuntime) (privateKeys publicKeys : KeyDirectory)
    (manifest : List (Key × Object)) (created : Option String) (keyId : String) :
    Result Object := do
  runtime.requireOpenssl
  let descriptors ← validateKeyBinding runtime publicKeys (some keyId) manifest
  let (_, digest) ← payloadHash runtime manifest
  let created := creationTime runtime created
  let subject ← manifestSubject manifest
  let keyEpoch ← manifestEpoch manifest
  let message ← signatureMessage subject digest created keyEpoch
  let signatures ← signEntries runtime privateKeys descriptors message keyId baseline
  .ok (signatureBundle subject digest created keyEpoch signatures)

end Tfws.Python
