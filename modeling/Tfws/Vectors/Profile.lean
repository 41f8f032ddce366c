import Mathlib.Data.List.Infix
import Tfws.Vectors.Codec

/-! Manifests and envelopes of the vector generator: what it writes and what it
accepts. The digest of `hashlib` is a parameter. -/
namespace Tfws.Vectors

open Fallible Cbor

/-- The content type in the protected header of the body. -/
def coseContentType : String := "application/tfws+cbor"

def coseType : String := "application/cose; cose-type=\"cose-sign\""

/-- `KID`, the one key identifier of the corpus. `verify_cose` compares with it,
whatever the descriptors say. -/
def kid : Bytes := Utf8.encode "release-1"

/-- A row of `expected`: an algorithm with its name, and the length of its signatures.
The order of the rows is the order of the signatures. -/
structure Profile where
  algorithm : Int
  name : String
  signatureLength : Nat
  deriving DecidableEq

def ed25519 : Profile := { algorithm := -19, name := "ed25519", signatureLength := 64 }

def mlDsa65 : Profile := { algorithm := -49, name := "ml-dsa-65", signatureLength := 3309 }

def expectedProfiles : List Profile := [ed25519, mlDsa65]

/-- The digests of `EXPECTED_BINDINGS`, by the name of the algorithm. Only the two
names of the profile are ever asked for. -/
def expectedSha256 (name : String) : String :=
  if name = "ed25519" then "7fe64728f1a7bb8c6c103f49c0e2ed0e999678229256c7aab813634cc6c85ba9"
  else "85acf51bf7260bc7009f1b3d6b8a4f6d0442bf21ea91a86fe7cbb282edb317cb"

/-- The URI under which a descriptor has to name its key. -/
def publicKeyUri (name : String) : String := "/.well-known/keys/" ++ name ++ ".pem"

/-- The descriptor that `verify_cose` compares with, field by field.
`validate_manifest` admits more: it looks at the form of a digest, not at its
value. -/
def expectedDescriptor (name : String) : Item :=
  .map [(.text "algorithm", .text name), (.text "key_id", .text "release-1"),
    (.text "public_key_uri", .text (publicKeyUri name)),
    (.text "public_key_sha256", .text (expectedSha256 name)), (.text "status", .text "active"),
    (.text "usage", texts ["release"])]

/-- The errors of `validate_manifest`, all of one category. -/
def policyInvalid (message : String) : Failure := .vectorError "manifest_policy_invalid" message

/-- The `except KeyError` of `validate_manifest`: a missing field is a matter of
policy. Other exceptions of the language go through. -/
def caughtKeyError : Failure → Failure
  | .keyError name => policyInvalid ("missing manifest field: '" ++ name ++ "'")
  | failure => failure

def hexDigits : List Char := "0123456789abcdef".toList

/-- `any(ch not in "0123456789abcdef" for ch in digest)`. `in` finds any part of a
string, so that an element of a list may be several digits or none. -/
def anyNotHex : List Item → Result Bool
  | [] => .ok false
  | .text part :: rest =>
      if part.toList <:+: hexDigits then anyNotHex rest else .ok true
  | _ :: _ => .error .typeError

/-- The name in a file name. It has been compared with a text before, so that nothing
else is ever formatted. -/
def formatted : Item → String
  | .text name => name
  | _ => ""

/-- The body of the loop over the descriptors. Each field is read just before its
check, so that a missing one is reported only if those before it are right. -/
def validateEntry (entry : Item) : Result Unit := do
  let algorithm ← subscript entry "algorithm"
  let keyId ← subscript entry "key_id"
  failIf (equal keyId (.text "release-1") = false) (policyInvalid "invalid key id")
  let uri ← subscript entry "public_key_uri"
  failIf (equal uri (.text (publicKeyUri (formatted algorithm))) = false)
    (policyInvalid "invalid public key URI")
  let digest ← subscript entry "public_key_sha256"
  let count ← length digest
  failIf (count ≠ 64) (policyInvalid "invalid public key digest")
  let notHex ← anyNotHex (← iterate digest)
  failIf (notHex = true) (policyInvalid "invalid public key digest")
  let status ← subscript entry "status"
  failIf (equal status (.text "active") = false) (policyInvalid "invalid key status or usage")
  let usage ← subscript entry "usage"
  failIf (equal usage (texts ["release"]) = false) (policyInvalid "invalid key status or usage")

def validateEntries : List Item → Result Unit
  | [] => .ok ()
  | entry :: rest => do
      validateEntry entry
      validateEntries rest

/-- `[entry["algorithm"] for entry in keys]`, with whatever the entries are: one that
is no dictionary raises before any name is compared. -/
def algorithmsOf : List Item → Result (List Item)
  | [] => .ok []
  | entry :: rest => do
      let algorithm ← subscript entry "algorithm"
      let others ← algorithmsOf rest
      .ok (algorithm :: others)

/-- The signature policy of the hybrid baseline, as a dictionary to compare with.
Python compares dictionaries without regard to order. -/
def hybridBaseline : Item :=
  .map [(.text "policy_id", .text "tfws.hybrid.baseline.v1"),
    (.text "required_algorithms", texts ["ed25519", "ml-dsa-65"])]

/-- What `validate_manifest` does inside its `try`: the version, the environment, the
policy and the two descriptors, in this order. -/
def validateFields (manifest : Dict) : Result Unit := do
  let version ← subscript (.map manifest) "tfws_version"
  failIf (equal version (.text "3.0") = false) (policyInvalid "unsupported version")
  let environment ← subscript (.map manifest) "environment"
  failIf (hashable environment = false) .typeError
  failIf (["development", "staging", "production"].all
      (fun name => equal environment (.text name) = false) = true)
    (policyInvalid "invalid environment")
  let signaturePolicy ← subscript (.map manifest) "signature_policy"
  failIf (equal hybridBaseline signaturePolicy = false) (policyInvalid "hybrid baseline downgrade")
  let keys ← subscript (.map manifest) "keys"
  let count ← length keys
  failIf (count ≠ 2) (policyInvalid "invalid baseline descriptors")
  let entries ← iterate keys
  let algorithms ← algorithmsOf entries
  failIf (equal (texts ["ed25519", "ml-dsa-65"]) (.array algorithms) = false)
    (policyInvalid "invalid baseline descriptors")
  validateEntries entries

/-- `validate_manifest`, which looks at fewer fields than the other two
implementations. -/
def validateManifest (manifest : Dict) : Result Unit :=
  (validateFields manifest).mapError caughtKeyError

/-- `encode_manifest`: a manifest is checked before it is encoded, so that nothing
inadmissible is written. -/
def encodeManifest (manifest : Dict) : Result Bytes := do
  validateManifest manifest
  cborEncode (.map manifest)

/-- `decode_manifest`: what was decoded is checked as well, by the same function as on
the way out. -/
def decodeManifest (data : Bytes) : Result Dict := do
  match ← cborDecodeExact data with
  | .map manifest => do
      validateManifest manifest
      .ok manifest
  | _ => .error (policyInvalid "manifest must be a map")

/-- `[entry for entry in manifest["keys"] if entry["algorithm"] == name]` -/
def matchingEntries (name : String) : List Item → Result (List Item)
  | [] => .ok []
  | entry :: rest => do
      let algorithm ← subscript entry "algorithm"
      let others ← matchingEntries name rest
      .ok (if equal algorithm (.text name) then entry :: others else others)

/-- `_descriptor`, which wants exactly one entry for the algorithm: none and two are
the same error. -/
def descriptorOf (manifest : Dict) (name : String) : Result Item := do
  let keys ← subscript (.map manifest) "keys"
  let entries ← iterate keys
  match ← matchingEntries name entries with
  | [entry] => .ok entry
  | _ => .error (.vectorError "hybrid_baseline_incomplete" "missing or duplicate descriptor")

/-- `(digest * n)[:length]`, with as many copies as it takes. The fixture is made of
one digest over and over. -/
def repeated (digest : Bytes) (length : Nat) : Bytes :=
  (List.replicate ((length + digest.length - 1) / digest.length) digest).flatten.take length

/-- `fixture_signature`, for the two algorithms that have one. It stands for a
signature: it depends on the algorithm and the message, and on no key. -/
def fixtureSignature (sha256 : Bytes → Bytes) (algorithm : Int) (message : Bytes) :
    Result Bytes :=
  if algorithm = ed25519.algorithm then
    .ok (repeated (sha256 (0x13 :: message)) ed25519.signatureLength)
  else if algorithm = mlDsa65.algorithm then
    .ok (repeated (sha256 (0x31 :: message)) mlDsa65.signatureLength)
  else .error (.vectorError "invalid_algorithm" ("unsupported algorithm: " ++ toString algorithm))

/-- `entries[key] = value`, where an equal key keeps its place and its own
spelling. -/
def setItem (key value : Item) : Dict → Dict
  | [] => [(key, value)]
  | (here, old) :: rest =>
      if equal here key then (here, value) :: rest else (here, old) :: setItem key value rest

/-- `entries.update(extra)`, one assignment after the other, so that a later one
wins. -/
def update (entries extra : Dict) : Dict :=
  extra.foldl (fun entries entry => setItem entry.1 entry.2 entries) entries

/-- `body_protected`, with a content type and labels that the vectors may choose. The
positive vector takes the standard ones. -/
def bodyProtected (contentType : String) (extra : Dict) : Result Bytes :=
  cborEncode (.map (update [(.int 3, .text contentType), (.int 16, .text coseType)] extra))

/-- `signature_protected`, with an algorithm and a key identifier that the vectors may
choose. -/
def signatureProtected (algorithm : Int) (kid : Bytes) : Result Bytes :=
  cborEncode (.map [(.int 1, .int algorithm), (.int 4, .bytes kid)])

/-- `sig_structure`, the message that a fixture is made for: the `Sig_structure` of
COSE without external data. -/
def sigStructure (body protectedHeader payload : Bytes) : Result Bytes :=
  cborEncode (.array [.text "Signature", .bytes body, .bytes protectedHeader, .bytes [],
    .bytes payload])

/-- The entry of a protected header and a signature in an envelope, with an empty
unprotected header between them. -/
def signatureEntry (signature : Item × Item) : Item :=
  .array [signature.1, .map [], signature.2]

/-- The tagged array of an envelope, of whatever payload, header and signatures: the
vectors put items there that a verifier refuses. -/
def envelopeItem (payload body : Item) (signatures : List (Item × Item)) : Item :=
  .tag 98 (.array [body, .map [], payload, .array (signatures.map signatureEntry)])

/-- `make_envelope`, which encodes the tagged array. -/
def makeEnvelope (payload body : Item) (signatures : List (Item × Item)) : Result Bytes :=
  cborEncode (envelopeItem payload body signatures)

/-- The body of the loop over the algorithms in `build_positive`. The key identifier
comes from the descriptor and the signature from the message. -/
def signFixture (sha256 : Bytes → Bytes) (manifest : Dict) (payload body : Bytes)
    (profile : Profile) : Result (Item × Item) := do
  let descriptor ← descriptorOf manifest profile.name
  let keyId ← encodeText (← subscript descriptor "key_id")
  let protectedHeader ← signatureProtected profile.algorithm keyId
  let message ← sigStructure body protectedHeader payload
  let signature ← fixtureSignature sha256 profile.algorithm message
  .ok (.bytes protectedHeader, .bytes signature)

/-- `build_positive`: the payload of a manifest and the envelope with both fixtures,
Ed25519 before ML-DSA-65. -/
def buildPositive (sha256 : Bytes → Bytes) (manifest : Dict) : Result (Bytes × Bytes) := do
  let payload ← encodeManifest manifest
  let body ← bodyProtected coseContentType []
  let first ← signFixture sha256 manifest payload body ed25519
  let second ← signFixture sha256 manifest payload body mlDsa65
  let envelope ← makeEnvelope (.bytes payload) (.bytes body) [first, second]
  .ok (payload, envelope)

def invalidStructure (message : String) : Failure := .vectorError "invalid_cose_structure" message

/-- `set(headers) == {first, second}`, as Python compares keys: `True` stands for the
label 1. -/
def hasLabels (first second : Int) (headers : Dict) : Bool :=
  headers.all (fun entry => equal entry.1 (.int first) || equal entry.1 (.int second)) &&
    (headers.any (fun entry => equal entry.1 (.int first)) &&
      headers.any fun entry => equal entry.1 (.int second))

/-- `headers[label] == expected`, as Python compares keys and values. The label has
been found before. -/
def hasHeader (label : Int) (expected : Item) (headers : Dict) : Bool :=
  (lookup (.int label) headers).any fun value => equal value expected

/-- What is read of the protected header of a signature: its labels, the algorithm
that its place demands, and the key identifier. -/
def checkHeaders (profile : Profile) (protectedHeader : Bytes) : Result Unit := do
  match ← cborDecodeExact protectedHeader with
  | .map headers => do
      failIf (hasLabels 1 4 headers = false)
        (.vectorError "unsupported_header" "unsupported signature protected header")
      failIf (hasHeader 1 (.int profile.algorithm) headers = false)
        (.vectorError "invalid_algorithm" "invalid or reordered algorithm")
      failIf (hasHeader 4 (.bytes kid) headers = false)
        (.vectorError "invalid_kid" "invalid key identifier")
  | _ => .error (.vectorError "unsupported_header" "unsupported signature protected header")

/-- A signature behind its headers: the length, the key binding and the fixture. Where
the binding and the fixture are both wrong, it is the binding that is reported. -/
def checkSignature (sha256 : Bytes → Bytes) (manifest : Dict) (payload body protectedHeader : Bytes)
    (profile : Profile) (signature : Bytes) : Result Unit := do
  failIf (signature.length ≠ profile.signatureLength)
    (.vectorError "signature_invalid" "invalid signature length")
  let descriptor ← descriptorOf manifest profile.name
  failIf (equal (expectedDescriptor profile.name) descriptor = false)
    (.vectorError "key_binding_mismatch" "public-key binding mismatch")
  let message ← sigStructure body protectedHeader payload
  let expectedSignature ← fixtureSignature sha256 profile.algorithm message
  failIf (signature ≠ expectedSignature) (.vectorError "signature_invalid" "signature invalid")

/-- The body of the loop over the signatures in `verify_cose`, with the row of the
profile that belongs to the place. -/
def verifySignature (sha256 : Bytes → Bytes) (manifest : Dict) (payload body : Bytes)
    (entry : Item) (profile : Profile) : Result Unit :=
  match entry with
  | .array [protectedHeader, unprotectedHeader, signature] =>
      match protectedHeader, unprotectedHeader, signature with
      | .bytes protectedHeader, .map [], .bytes signature => do
          checkHeaders profile protectedHeader
          checkSignature sha256 manifest payload body protectedHeader profile signature
      | _, _, _ => .error (invalidStructure "invalid signature fields")
  | _ => .error (invalidStructure "invalid signature entry")

/-- `zip(signatures, expected)`, each entry under its own algorithm. There are as many
entries as rows when the loop is reached. -/
def verifySignatures (sha256 : Bytes → Bytes) (manifest : Dict) (payload body : Bytes) :
    List (Item × Profile) → Result Unit
  | [] => .ok ()
  | (entry, profile) :: rest => do
      verifySignature sha256 manifest payload body entry profile
      verifySignatures sha256 manifest payload body rest

/-- The checks of the protected header of the body: the labels, the content type and
the type. -/
def checkBody (body : Bytes) : Result Unit := do
  match ← cborDecodeExact body with
  | .map headers => do
      failIf (hasLabels 3 16 headers = false)
        (.vectorError "unsupported_header" "unsupported protected body header")
      failIf (hasHeader 3 (.text coseContentType) headers = false)
        (.vectorError "invalid_content_type" "invalid COSE content type")
      failIf (hasHeader 16 (.text coseType) headers = false)
        (.vectorError "invalid_type" "invalid COSE typ")
  | _ => .error (invalidStructure "body protected must be a map")

/-- The checks behind the three fields of the body: its header, the payload as a
manifest, and then the signatures. -/
def verifyBody (sha256 : Bytes → Bytes) (body payload : Bytes) (signatures : Item) :
    Result Dict := do
  checkBody body
  let manifest ← decodeManifest payload
  match signatures with
  | .array entries => do
      failIf (entries.length ≠ 2)
        (invalidStructure "hybrid signatures array must contain two entries")
      verifySignatures sha256 manifest payload body (entries.zip expectedProfiles)
      .ok manifest
  | _ => .error (invalidStructure "hybrid signatures array must contain two entries")

/-- `verify_cose`, which returns the manifest of an envelope with both fixtures. Every
other envelope raises, with the first check that it does not pass. -/
def verifyCose (sha256 : Bytes → Bytes) (envelope : Bytes) : Result Dict := do
  match ← cborDecodeExact envelope with
  | .tag 98 outer =>
      match outer with
      | .array [body, bodyUnprotected, payload, signatures] =>
          match body, bodyUnprotected, payload with
          | .bytes body, .map [], .bytes payload => verifyBody sha256 body payload signatures
          | _, _, _ => .error (invalidStructure "invalid COSE body fields")
      | _ => .error (invalidStructure "COSE outer array must have four items")
  | _ => .error (invalidStructure "COSE tag 98 is required")

end Tfws.Vectors
