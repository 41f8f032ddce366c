import Tfws.Core.Cbor

/-! The COSE_Sign envelope of `tfws-core`: signing, and verification through a
lenient parser that encodes what it has read again. -/
namespace Tfws

open Fallible

def coseContentType : String := "application/tfws+cbor"

/-- The content of header 16, which has its quotation marks in the text and is
compared with them. -/
def coseType : String := "application/cose; cose-type=\"cose-sign\""

def ed25519CoseAlgorithm : Int64 := -19

def mlDsa65CoseAlgorithm : Int64 := -49

def ed25519SignatureBytes : Nat := 64

def mlDsa65SignatureBytes : Nat := 3309

/-- The limits of an envelope. Those of the codec hold for its payload and, in part,
for its own shape. -/
structure CoseLimits where
  maxEnvelopeBytes : UInt64
  cbor : CborLimits

def CoseLimits.default : CoseLimits where
  maxEnvelopeBytes := 8 * 1024 * 1024
  cbor := .default

/-- The two algorithms of the profile. Both are required, and there is no third. -/
inductive CoseAlgorithm where
  | ed25519
  | mlDsa65
  deriving DecidableEq, Repr

namespace CoseAlgorithm

/-- One thing for each algorithm, as the code has in two branches. Constants of the
profile are written by it. -/
def select {α : Type} (ed ml : α) : CoseAlgorithm → α
  | ed25519 => ed
  | mlDsa65 => ml

def coseValue : CoseAlgorithm → Int64
  | ed25519 => ed25519CoseAlgorithm
  | mlDsa65 => mlDsa65CoseAlgorithm

def tfwsIdentifier : CoseAlgorithm → String
  | ed25519 => "ed25519"
  | mlDsa65 => "ml-dsa-65"

def expectedSignatureLen : CoseAlgorithm → Nat
  | ed25519 => ed25519SignatureBytes
  | mlDsa65 => mlDsa65SignatureBytes

end CoseAlgorithm

def requiredSignatures : List CoseAlgorithm := [.ed25519, .mlDsa65]

/-- The errors that a caller's signer or verifier may return. They are passed on with
their own categories. -/
inductive CoseCryptoError where
  | keyBindingMismatch
  | signatureInvalid
  | operationFailed (message : String)
  deriving DecidableEq, Repr

/-- `CoseSigner`, any pure signing function. It sees the algorithm, the descriptor of
the key and the message. -/
structure CoseSigner where
  sign : CoseAlgorithm → KeyDescriptor → Bytes → Except CoseCryptoError Bytes

/-- `CoseVerifier`, any pure verification function. A result that is no error counts
as a valid signature. -/
structure CoseVerifier where
  verify : CoseAlgorithm → KeyDescriptor → Bytes → Bytes → Except CoseCryptoError Unit

/-- The errors of signing and verification, those of the codec among them and those of
the caller's verifier. -/
inductive CoseEnvelopeError where
  | manifestCbor (error : CborCodecError)
  | malformedCbor (message : String)
  | nonDeterministicCbor
  | resourceLimit (name : String)
  | invalidCoseStructure (name : String)
  | unsupportedHeader
  | invalidContentType
  | invalidType
  | invalidAlgorithm
  | invalidKid
  | hybridBaselineIncomplete
  | keyBindingMismatch
  | signatureInvalid
  | manifestPolicyInvalid (message : String)
  | encodeFailure (message : String)
  | cryptoOperation (message : String)
  deriving DecidableEq, Repr

/-- The category under which an error is reported. Several errors share one, and
errors of the payload keep theirs. -/
def CoseEnvelopeError.category : CoseEnvelopeError → String
  | manifestCbor error => error.category
  | malformedCbor _ | encodeFailure _ => "malformed_cbor"
  | nonDeterministicCbor => "non_deterministic_cbor"
  | resourceLimit _ => "resource_limit"
  | invalidCoseStructure _ => "invalid_cose_structure"
  | unsupportedHeader => "unsupported_header"
  | invalidContentType => "invalid_content_type"
  | invalidType => "invalid_type"
  | invalidAlgorithm => "invalid_algorithm"
  | invalidKid => "invalid_kid"
  | hybridBaselineIncomplete => "hybrid_baseline_incomplete"
  | keyBindingMismatch => "key_binding_mismatch"
  | signatureInvalid | cryptoOperation _ => "signature_invalid"
  | manifestPolicyInvalid _ => "manifest_policy_invalid"

abbrev CoseResult := Except CoseEnvelopeError

structure EncodedSignature where
  protectedHeader : Bytes
  signature : Bytes

/-- A signature as the parser has read it, its protected header in the octets
received. -/
@[ext]
structure ParsedSignature where
  algorithm : CoseAlgorithm
  protectedHeader : Bytes
  kid : Bytes
  signature : Bytes

/-- An envelope as the parser has read it. It is encoded again and compared with the
input. -/
structure ParsedEnvelope where
  bodyProtected : Bytes
  payload : Bytes
  signatures : List ParsedSignature

def mapCryptoError : CoseCryptoError → CoseEnvelopeError
  | .keyBindingMismatch => .keyBindingMismatch
  | .signatureInvalid => .signatureInvalid
  | .operationFailed message => .cryptoOperation message

def encodeBodyProtected (crates : Crates) : CoseResult Bytes := do
  let out ← (crates.encoder.map 2 []).mapError .encodeFailure
  let out ← (crates.encoder.u8 3 out).mapError .encodeFailure
  let out ← (crates.encoder.str coseContentType out).mapError .encodeFailure
  let out ← (crates.encoder.u8 16 out).mapError .encodeFailure
  (crates.encoder.str coseType out).mapError .encodeFailure

def encodeSignatureProtected (crates : Crates) (algorithm : CoseAlgorithm) (kid : Bytes) :
    CoseResult Bytes := do
  let out ← (crates.encoder.map 2 []).mapError .encodeFailure
  let out ← (crates.encoder.u8 1 out).mapError .encodeFailure
  let out ← (crates.encoder.i64 algorithm.coseValue out).mapError .encodeFailure
  let out ← (crates.encoder.u8 4 out).mapError .encodeFailure
  (crates.encoder.bytes kid out).mapError .encodeFailure

/-- `Sig_structure`, the message that is signed and verified: both headers and the
payload, without external data. -/
def encodeSigStructure (crates : Crates) (bodyProtected signatureProtected payload : Bytes) :
    CoseResult Bytes := do
  let out ← (crates.encoder.array 5 []).mapError .encodeFailure
  let out ← (crates.encoder.str "Signature" out).mapError .encodeFailure
  let out ← (crates.encoder.bytes bodyProtected out).mapError .encodeFailure
  let out ← (crates.encoder.bytes signatureProtected out).mapError .encodeFailure
  let out ← (crates.encoder.bytes [] out).mapError .encodeFailure
  (crates.encoder.bytes payload out).mapError .encodeFailure

/-- The loop over the signatures of an envelope, each with an empty unprotected
header. -/
def encodeSignatures (crates : Crates) : List EncodedSignature → Bytes → CoseResult Bytes
  | [], out => .ok out
  | signature :: rest, out => do
      let out ← (crates.encoder.array 3 out).mapError .encodeFailure
      let out ← (crates.encoder.bytes signature.protectedHeader out).mapError .encodeFailure
      let out ← (crates.encoder.map 0 out).mapError .encodeFailure
      let out ← (crates.encoder.bytes signature.signature out).mapError .encodeFailure
      encodeSignatures crates rest out

def encodeEnvelope (crates : Crates) (bodyProtected payload : Bytes)
    (signatures : List EncodedSignature) : CoseResult Bytes := do
  failIf (signatures.length ≠ requiredSignatures.length) .hybridBaselineIncomplete
  let out ← (crates.encoder.array 4 [0xD8, 0x62]).mapError .encodeFailure
  let out ← (crates.encoder.bytes bodyProtected out).mapError .encodeFailure
  let out ← (crates.encoder.map 0 out).mapError .encodeFailure
  let out ← (crates.encoder.bytes payload out).mapError .encodeFailure
  let out ← (crates.encoder.array 2 out).mapError .encodeFailure
  encodeSignatures crates signatures out

def expectArray (crates : Crates) (expected : UInt64) (name : String) (input : Bytes) :
    CoseResult Bytes := do
  let type ← (crates.decoder.datatype input).mapError .malformedCbor
  failIf (type = .arrayIndef) .nonDeterministicCbor
  failIf (type ≠ .array) (.invalidCoseStructure name)
  let (length, rest) ← (crates.decoder.array input).mapError .malformedCbor
  match length with
  | none => .error .nonDeterministicCbor
  | some length =>
      failIf (length ≠ expected) (.invalidCoseStructure name)
      .ok rest

def readMapLength (crates : Crates) (name : String) (input : Bytes) :
    CoseResult (UInt64 × Bytes) := do
  let type ← (crates.decoder.datatype input).mapError .malformedCbor
  failIf (type = .mapIndef) .nonDeterministicCbor
  failIf (type ≠ .map) (.invalidCoseStructure name)
  let (length, rest) ← (crates.decoder.map input).mapError .malformedCbor
  match length with
  | none => .error .nonDeterministicCbor
  | some length => .ok (length, rest)

def expectEmptyMap (crates : Crates) (name : String) (input : Bytes) : CoseResult Bytes := do
  let (length, rest) ← readMapLength crates name input
  failIf (length ≠ 0) .unsupportedHeader
  .ok rest

def readBytes (crates : Crates) (maximum : UInt64) (name : String) (input : Bytes) :
    CoseResult (Bytes × Bytes) := do
  let type ← (crates.decoder.datatype input).mapError .malformedCbor
  failIf (type = .bytesIndef) .nonDeterministicCbor
  failIf (type ≠ .bytes) (.invalidCoseStructure name)
  let (value, rest) ← (crates.decoder.bytes input).mapError .malformedCbor
  failIf (maximum.toNat < value.length) (.resourceLimit name)
  .ok (value, rest)

def readText (crates : Crates) (maximum : UInt64) (name : String) (input : Bytes) :
    CoseResult (String × Bytes) := do
  let type ← (crates.decoder.datatype input).mapError .malformedCbor
  failIf (type = .stringIndef) .nonDeterministicCbor
  failIf (type ≠ .string) (.invalidCoseStructure name)
  let (value, rest) ← (crates.decoder.str input).mapError .malformedCbor
  failIf (maximum.toNat < (Utf8.encode value).length) (.resourceLimit name)
  .ok (value, rest)

def readHeaderLabel (crates : Crates) (input : Bytes) : CoseResult (Int64 × Bytes) :=
  (crates.decoder.i64 input).mapError fun _ => .unsupportedHeader

def validateSignatureLength (algorithm : CoseAlgorithm) (actual : Nat) : CoseResult Unit :=
  failIf (actual ≠ algorithm.expectedSignatureLen) .signatureInvalid

/-- Checks that the limits leave room for the fixed shape of an envelope, whatever the
envelope. -/
def validateFixedShapeLimits (limits : CoseLimits) : CoseResult Unit := do
  failIf (limits.cbor.maxDepth < 4) (.resourceLimit "nesting depth")
  failIf (limits.cbor.maxArrayItems < 4) (.resourceLimit "array items")
  failIf (limits.cbor.maxMapPairs < 2) (.resourceLimit "map pairs")

def validateBodyProtected (crates : Crates) (limits : CoseLimits) (input : Bytes) :
    CoseResult Unit := do
  let (length, rest) ← readMapLength crates "body protected map" input
  failIf (length ≠ 2) .unsupportedHeader
  let (label, rest) ← readHeaderLabel crates rest
  failIf (label ≠ 3) .unsupportedHeader
  let (contentType, rest) ← readText crates limits.cbor.maxStringBytes "content type" rest
  failIf (contentType ≠ coseContentType) .invalidContentType
  let (label, rest) ← readHeaderLabel crates rest
  failIf (label ≠ 16) .unsupportedHeader
  let (type, rest) ← readText crates limits.cbor.maxStringBytes "typ" rest
  failIf (type ≠ coseType) .invalidType
  failIf (rest ≠ []) (.malformedCbor "trailing body protected data")
  let deterministic ← encodeBodyProtected crates
  failIf (deterministic ≠ input) .nonDeterministicCbor

/-- Returns the key identifier. The algorithm is compared with the one that the place
demands. -/
def validateSignatureProtected (crates : Crates) (limits : CoseLimits)
    (expectedAlgorithm : CoseAlgorithm) (input : Bytes) : CoseResult Bytes := do
  let (length, rest) ← readMapLength crates "signature protected map" input
  failIf (length ≠ 2) .unsupportedHeader
  let (label, rest) ← readHeaderLabel crates rest
  failIf (label ≠ 1) .unsupportedHeader
  let (algorithm, rest) ← (crates.decoder.i64 rest).mapError fun _ => .invalidAlgorithm
  failIf (algorithm ≠ expectedAlgorithm.coseValue) .invalidAlgorithm
  let (label, rest) ← readHeaderLabel crates rest
  failIf (label ≠ 4) .unsupportedHeader
  let (kid, rest) ← readBytes crates limits.cbor.maxStringBytes "signature kid" rest
  failIf (kid = [] ∨ Utf8.decode kid = none) .invalidKid
  failIf (rest ≠ []) (.malformedCbor "trailing signature protected data")
  let deterministic ← encodeSignatureProtected crates expectedAlgorithm kid
  failIf (deterministic ≠ input) .nonDeterministicCbor
  .ok kid

def parseSignature (crates : Crates) (limits : CoseLimits) (expectedAlgorithm : CoseAlgorithm)
    (input : Bytes) : CoseResult (ParsedSignature × Bytes) := do
  let rest ← expectArray crates 3 "COSE_Signature array" input
  let (protectedHeader, rest) ←
    readBytes crates limits.cbor.maxStringBytes "signature protected" rest
  let kid ← validateSignatureProtected crates limits expectedAlgorithm protectedHeader
  let rest ← expectEmptyMap crates "signature unprotected" rest
  let (signature, rest) ← readBytes crates limits.cbor.maxStringBytes "signature" rest
  validateSignatureLength expectedAlgorithm signature.length
  .ok ({ algorithm := expectedAlgorithm, protectedHeader, kid, signature }, rest)

/-- `for expected_algorithm in REQUIRED_SIGNATURES { signatures.push(..) }`: the place
of a signature demands its algorithm. -/
def parseSignatures (crates : Crates) (limits : CoseLimits) :
    List CoseAlgorithm → Bytes → CoseResult (List ParsedSignature × Bytes)
  | [], input => .ok ([], input)
  | algorithm :: algorithms, input => do
      let (signature, rest) ← parseSignature crates limits algorithm input
      let (signatures, rest) ← parseSignatures crates limits algorithms rest
      .ok (signature :: signatures, rest)

/-- Reads an envelope leniently, in any form of head, and then compares the input with
the deterministic encoding of what was read. -/
def parseEnvelope (crates : Crates) (input : Bytes) (limits : CoseLimits) :
    CoseResult ParsedEnvelope := do
  validateFixedShapeLimits limits
  failIf (limits.maxEnvelopeBytes.toNat < input.length) (.resourceLimit "complete envelope bytes")
  failIf (input.length < 3) (.malformedCbor "input is too short")
  failIf (input.take 2 ≠ [0xD8, 0x62]) (.invalidCoseStructure "preferred CBOR tag 98 is required")
  let rest ← expectArray crates 4 "COSE_Sign outer array" (input.drop 2)
  let (bodyProtected, rest) ← readBytes crates limits.cbor.maxStringBytes "body protected" rest
  validateBodyProtected crates limits bodyProtected
  let rest ← expectEmptyMap crates "body unprotected" rest
  let (payload, rest) ← readBytes crates limits.cbor.maxManifestBytes "embedded manifest" rest
  let rest ← expectArray crates 2 "signatures array" rest
  let (signatures, rest) ← parseSignatures crates limits requiredSignatures rest
  failIf (rest ≠ []) (.malformedCbor "trailing data after COSE_Sign")
  let deterministic ← encodeEnvelope crates bodyProtected payload
    (signatures.map fun signature =>
      { protectedHeader := signature.protectedHeader, signature := signature.signature })
  failIf (deterministic ≠ input) .nonDeterministicCbor
  .ok { bodyProtected, payload, signatures }

/-- The only key of the manifest with the algorithm: none is an error, and so are
two. -/
def descriptorFor (manifest : Manifest) (algorithm : CoseAlgorithm) :
    CoseResult KeyDescriptor :=
  match manifest.keys.filter fun key => key.algorithm = algorithm.tfwsIdentifier with
  | [descriptor] => do
      failIf (descriptor.keyId = "") .keyBindingMismatch
      .ok descriptor
  | _ => .error .hybridBaselineIncomplete

/-- The loop over the required signatures of `sign_manifest_cose_with_limits`. The
first one that cannot be made ends it. -/
def signAll (crates : Crates) (signer : CoseSigner) (limits : CoseLimits) (manifest : Manifest)
    (bodyProtected payload : Bytes) :
    List CoseAlgorithm → CoseResult (List EncodedSignature)
  | [] => .ok []
  | algorithm :: algorithms => do
      let descriptor ← descriptorFor manifest algorithm
      let protectedHeader ←
        encodeSignatureProtected crates algorithm (Utf8.encode descriptor.keyId)
      let message ← encodeSigStructure crates bodyProtected protectedHeader payload
      let signature ← (signer.sign algorithm descriptor message).mapError mapCryptoError
      validateSignatureLength algorithm signature.length
      failIf (limits.cbor.maxStringBytes.toNat < signature.length)
        (.resourceLimit "signature bytes")
      let signatures ← signAll crates signer limits manifest bodyProtected payload algorithms
      .ok ({ protectedHeader, signature } :: signatures)

/-- Signs the encoded manifest with both algorithms and assembles the envelope. The
limits are checked before anything is signed. -/
def signManifestCoseWithLimits (crates : Crates) (manifest : Manifest) (signer : CoseSigner)
    (limits : CoseLimits) : CoseResult Bytes := do
  validateFixedShapeLimits limits
  let payload ←
    (encodeManifestCborWithLimits crates manifest limits.cbor).mapError .manifestCbor
  let bodyProtected ← encodeBodyProtected crates
  let signatures ←
    signAll crates signer limits manifest bodyProtected payload requiredSignatures
  let encoded ← encodeEnvelope crates bodyProtected payload signatures
  failIf (limits.maxEnvelopeBytes.toNat < encoded.length)
    (.resourceLimit "complete envelope bytes")
  let _ ← parseEnvelope crates encoded limits
  .ok encoded

def signManifestCose (crates : Crates) (manifest : Manifest) (signer : CoseSigner) :
    CoseResult Bytes :=
  signManifestCoseWithLimits crates manifest signer .default

/-- The loop over the parsed signatures, each with the algorithm required in
its place. -/
def verifyAll (crates : Crates) (verifier : CoseVerifier) (manifest : Manifest)
    (bodyProtected payload : Bytes) : List (ParsedSignature × CoseAlgorithm) → CoseResult Unit
  | [] => .ok ()
  | (signature, expectedAlgorithm) :: rest => do
      failIf (signature.algorithm ≠ expectedAlgorithm) .invalidAlgorithm
      let descriptor ← descriptorFor manifest expectedAlgorithm
      failIf (signature.kid ≠ Utf8.encode descriptor.keyId) .invalidKid
      let message ← encodeSigStructure crates bodyProtected signature.protectedHeader payload
      (verifier.verify expectedAlgorithm descriptor message signature.signature).mapError
        mapCryptoError
      verifyAll crates verifier manifest bodyProtected payload rest

/-- Parses the envelope, decodes its payload and lets the verifier see every
signature, in the order of the envelope. -/
def verifyManifestCoseWithLimits (crates : Crates) (envelope : Bytes) (verifier : CoseVerifier)
    (limits : CoseLimits) : CoseResult Manifest := do
  let parsed ← parseEnvelope crates envelope limits
  let manifest ← (decodeManifestCbor crates parsed.payload limits.cbor).mapError .manifestCbor
  failIf (parsed.signatures.length ≠ requiredSignatures.length) .hybridBaselineIncomplete
  verifyAll crates verifier manifest parsed.bodyProtected parsed.payload
    (parsed.signatures.zip requiredSignatures)
  .ok manifest

def verifyManifestCose (crates : Crates) (envelope : Bytes) (verifier : CoseVerifier) :
    CoseResult Manifest :=
  verifyManifestCoseWithLimits crates envelope verifier .default

end Tfws
