import Tfws.Python.Models

/-! The conformance verification of envelopes in `tfws3/crypto.py`. The digest
of `hashlib` is a parameter. -/
namespace Tfws.Python

open Fallible Cbor

/-- The content type that the body header has to name. -/
def coseContentType : String := "application/tfws+cbor"

def coseType : String := "application/cose; cose-type=\"cose-sign\""

/-- A row of `expected`: what is expected of the signature at one place. The order of
the rows is part of the format. -/
structure Profile where
  algorithm : Int
  algorithmName : String
  fixturePrefix : UInt8
  signatureLength : Nat

/-- `expected`, Ed25519 in the first place and ML-DSA-65 in the second. -/
def expectedProfiles : List Profile :=
  [{ algorithm := -19, algorithmName := "ed25519", fixturePrefix := 0x13, signatureLength := 64 },
   { algorithm := -49, algorithmName := "ml-dsa-65", fixturePrefix := 0x31,
     signatureLength := 3309 }]

/-- `CONFORMANCE_KEY_SHA256`, the digests of the two keys that the fixture knows. No
key is read, only its digest in the descriptor. -/
def conformanceKeySha256 : List (String × String) :=
  [("ed25519", "7fe64728f1a7bb8c6c103f49c0e2ed0e999678229256c7aab813634cc6c85ba9"),
   ("ml-dsa-65", "85acf51bf7260bc7009f1b3d6b8a4f6d0442bf21ea91a86fe7cbb282edb317cb")]

/-- `_cose_error`, an exception of interoperability with its code. Callers tell the
reasons apart by the code. -/
def coseError (code message : String) : Exception := .interoperability message code

/-- `_cbor_head`, which fails for what takes more than eight octets, with the
exception that the conversion raises. -/
def cborHead (major value : Nat) : Result Bytes :=
  if value < 24 then .ok [UInt8.ofNat (32 * major + value)]
  else if value < 256 then .ok [UInt8.ofNat (32 * major + 24), UInt8.ofNat value]
  else if value < 65536 then .ok (UInt8.ofNat (32 * major + 25) :: bigEndian 2 value)
  else if value < 4294967296 then .ok (UInt8.ofNat (32 * major + 26) :: bigEndian 4 value)
  else if value < 18446744073709551616 then
    .ok (UInt8.ofNat (32 * major + 27) :: bigEndian 8 value)
  else .error (.overflowError "int too big to convert")

mutual
/-- `_encode_cose_sig_value`, an encoder of its own for the message that is signed. It
knows octets, texts and lists, which is all that occurs there. -/
def encodeCoseSigValue : Object → Result Bytes
  | .bytes octets => do
      let head ← cborHead 2 octets.length
      .ok (head ++ octets)
  | .str text => do
      let head ← cborHead 3 (Utf8.encode text).length
      .ok (head ++ Utf8.encode text)
  | .list items => do
      let head ← cborHead 4 items.length
      let encoded ← encodeCoseSigMembers items
      .ok (head ++ encoded)
  | _ => .error (.typeError "unsupported Sig_structure value")

def encodeCoseSigMembers : List Object → Result Bytes
  | [] => .ok []
  | item :: rest => do
      let first ← encodeCoseSigValue item
      let others ← encodeCoseSigMembers rest
      .ok (first ++ others)
end

/-- `_fixture_signature`, with the message hashed by `sha256` and the digest repeated
up to the length. It stands for a signature, without a key. -/
def fixtureSignature (sha256 : Bytes → Bytes) (fixturePrefix : UInt8) (message : Bytes)
    (length : Nat) : Bytes :=
  let digest := sha256 (fixturePrefix :: message)
  (List.replicate ((length + digest.length - 1) / digest.length) digest).flatten.take length

/-- The flags of an envelope, which is a tag around octets: everything is let in that
a manifest must not have. -/
def Flags.envelope : Flags := { allowBytes := true, allowTags := true, allowNull := true }

/-- The flags of a protected header, in which tags have no place. Null is let in,
though no check lets it pass. -/
def Flags.protectedHeader : Flags := { allowBytes := true, allowTags := false, allowNull := true }

/-- `_decode_protected`: a dictionary in a string of octets. `label` names the header
in the messages. -/
def decodeProtected (value : Object) (label : String) : Result (List (Key × Object)) :=
  match value with
  | .bytes octets => do
      match ← decodeCborDocument Flags.protectedHeader octets with
      | .dict headers => .ok headers
      | _ => .error (coseError "invalid_cose_structure" (label ++ " must encode a map"))
  | _ => .error (coseError "invalid_cose_structure" (label ++ " must be bytes"))

/-- `not set(headers) - {first, second}`, where labels are compared as Python compares
keys, so that `True` is the label 1. -/
def onlyLabels (first second : Int) (headers : List (Key × Object)) : Bool :=
  headers.all fun entry => entry.1.equal (.int first) || entry.1.equal (.int second)

/-- `headers.get(label) == expected`, with Python's equality of keys and of values. A
missing label is not equal. -/
def hasHeader (label : Int) (expected : Object) (headers : List (Key × Object)) : Bool :=
  (Object.get (.int label) headers).any fun value => value.equal expected

/-- `isinstance(value, dict) and not value`, which an empty list does not pass, nor
any header. -/
def isEmptyDict : Object → Bool
  | .dict [] => true
  | _ => false

/-- The checks of the body header, each under a code of its own. -/
def validateBodyProtected (bodyProtected : Object) : Result Unit := do
  let headers ← decodeProtected bodyProtected "body protected header"
  failIf (onlyLabels 3 16 headers = false)
    (coseError "unsupported_header" "unsupported body protected header")
  failIf (hasHeader 3 (.str coseContentType) headers = false)
    (coseError "invalid_content_type" "invalid COSE content type")
  failIf (hasHeader 16 (.str coseType) headers = false)
    (coseError "invalid_type" "invalid COSE type")

/-- `b"release-1"`, the one key identifier of the fixture, in headers and in
descriptors alike. -/
def expectedKid : Bytes := Utf8.encode "release-1"

/-- The checks of the header of a signature, with the algorithm that its place
demands. -/
def validateSignatureProtected (label : String) (profile : Profile) (protectedHeader : Object) :
    Result Unit := do
  let headers ← decodeProtected protectedHeader label
  failIf (onlyLabels 1 4 headers = false)
    (coseError "unsupported_header" "unsupported signature protected header")
  failIf (hasHeader 1 (.int profile.algorithm) headers = false)
    (coseError "invalid_algorithm" "invalid hybrid algorithm order")
  failIf (hasHeader 4 (.bytes expectedKid) headers = false)
    (coseError "invalid_kid" "invalid signature key identifier")

/-- An entry of `parsed_signatures`. Its `kid` has been compared with the one
expected, and its length with that of the row. -/
structure ParsedSignature where
  protectedHeader : Object
  signature : Bytes
  profile : Profile

/-- The body of the loop over the signatures. The headers are checked before the
octets are looked at. -/
def parseSignature (index : Nat) (entry : Object) (profile : Profile) : Result ParsedSignature :=
  match entry with
  | .list [protectedHeader, unprotectedHeader, signature] => do
      failIf (isEmptyDict unprotectedHeader = false)
        (coseError "unsupported_header" "unprotected signature headers are forbidden")
      validateSignatureProtected ("signature " ++ toString index ++ " protected header") profile
        protectedHeader
      match signature with
      | .bytes octets => do
          failIf (octets.length ≠ profile.signatureLength)
            (coseError "signature_invalid" "invalid signature length")
          .ok { protectedHeader, signature := octets, profile }
      | _ => .error (coseError "signature_invalid" "invalid signature length")
  | _ => .error (coseError "invalid_cose_structure"
      ("signature " ++ toString index ++ " has invalid shape"))

/-- `enumerate(zip(signatures, expected))`, one entry for each algorithm. There are
two entries when the loop is reached. -/
def parseSignatures (index : Nat) : List (Object × Profile) → Result (List ParsedSignature)
  | [] => .ok []
  | (entry, profile) :: rest => do
      let first ← parseSignature index entry profile
      let others ← parseSignatures (index + 1) rest
      .ok (first :: others)

/-- `(entry["algorithm"], entry)`, where the first has to be hashable, since it
becomes a key. -/
def algorithmEntry : Object → Result (Object × List (Key × Object))
  | .dict entry => do
      let algorithm ← Object.getItem "algorithm" entry
      failIf (algorithm.hashable = false) (.typeError "unhashable type")
      .ok (algorithm, entry)
  | _ => .error (.typeError "object is not subscriptable")

def algorithmEntries : List Object → Result (List (Object × List (Key × Object)))
  | [] => .ok []
  | entry :: rest => do
      let first ← algorithmEntry entry
      let others ← algorithmEntries rest
      .ok (first :: others)

/-- `descriptors`, in the order of the list: of equal keys the last one counts. The
manifest has passed its policy by then. -/
def descriptorsOf (manifest : List (Key × Object)) :
    Result (List (Object × List (Key × Object))) := do
  match ← Object.getItem "keys" manifest with
  | .list keys => algorithmEntries keys
  | _ => .error (.typeError "string indices must be integers")

/-- `descriptors.get(name)`: the last entry under the name, if there are several, as
in a dictionary that was filled in order. -/
def descriptorOf (name : String) (descriptors : List (Object × List (Key × Object))) :
    Option (List (Key × Object)) :=
  (descriptors.reverse.find? fun entry => entry.1.text? = some name).map Prod.snd

/-- The key binding of one algorithm: the descriptor has the identifier and the digest
of the key that the fixture knows. -/
def validateBinding (descriptors : List (Object × List (Key × Object))) (name : String) :
    Result Unit :=
  match descriptorOf name descriptors with
  | none => .error (coseError "key_binding_mismatch" "missing key descriptor")
  | some descriptor => do
      let mismatch := coseError "key_binding_mismatch" "public key binding mismatch"
      let keyId ← textOr (.attributeError "object has no attribute 'encode'")
        (← Object.getItem "key_id" descriptor)
      failIf (Utf8.encode keyId ≠ expectedKid) mismatch
      let publicKeySha256 ← Object.getItem "public_key_sha256" descriptor
      failIf (publicKeySha256.text? ≠ conformanceKeySha256.lookup name) mismatch

def validateBindings (descriptors : List (Object × List (Key × Object))) :
    List ParsedSignature → Result Unit
  | [] => .ok ()
  | parsed :: rest => do
      validateBinding descriptors parsed.profile.algorithmName
      validateBindings descriptors rest

/-- The loop over the signatures that compares them with the fixtures. It comes last,
when everything else has passed. -/
def checkSignatures (sha256 : Bytes → Bytes) (bodyProtected payload : Object) :
    List ParsedSignature → Result Unit
  | [] => .ok ()
  | parsed :: rest => do
      let message ← encodeCoseSigValue
        (.list [.str "Signature", bodyProtected, parsed.protectedHeader, .bytes [], payload])
      failIf (parsed.signature ≠ fixtureSignature sha256 parsed.profile.fixturePrefix message
          parsed.profile.signatureLength)
        (coseError "signature_invalid" "conformance signature is invalid")
      checkSignatures sha256 bodyProtected payload rest

/-- The checks of the four elements of `outer`, in the order of the source: headers
and shapes first, then the manifest, then keys and signatures. -/
def verifyElements (sha256 : Bytes → Bytes) (runtime : Runtime)
    (bodyProtected bodyUnprotected payload signatures : Object) :
    Result (List (Key × Object)) := do
  failIf (isEmptyDict bodyUnprotected = false)
    (coseError "unsupported_header" "unprotected body headers are forbidden")
  match payload with
  | .bytes octets => do
      validateBodyProtected bodyProtected
      match signatures with
      | .list entries => do
          failIf (entries.length ≠ 2) (coseError "invalid_cose_structure"
            "hybrid COSE requires exactly two signatures")
          let parsed ← parseSignatures 0 (entries.zip expectedProfiles)
          let manifest ← decodeManifestCbor runtime octets
          let descriptors ← descriptorsOf manifest
          validateBindings descriptors parsed
          checkSignatures sha256 bodyProtected payload parsed
          .ok manifest
      | _ => .error (coseError "invalid_cose_structure"
          "hybrid COSE requires exactly two signatures")
  | _ => .error (coseError "invalid_cose_structure" "embedded payload is required")

/-- `verify_manifest_cose_conformance`, which returns the manifest of an envelope with
both fixtures. Every other envelope raises. -/
def verifyManifestCoseConformance (sha256 : Bytes → Bytes) (runtime : Runtime) (envelope : Bytes) :
    Result (List (Key × Object)) := do
  match ← decodeCborDocument Flags.envelope envelope with
  | .tag 98 outer =>
      match outer with
      | .list [bodyProtected, bodyUnprotected, payload, signatures] =>
          verifyElements sha256 runtime bodyProtected bodyUnprotected payload signatures
      | _ => .error (coseError "invalid_cose_structure" "COSE_Sign must contain four elements")
  | _ => .error (coseError "invalid_cose_structure" "COSE_Sign tag 98 is required")

end Tfws.Python
