import Tfws.Python.EventLog
import Tfws.Vectors.Profile

/-! The corpus of conformance vectors: one positive vector for a manifest, the
negative ones made from it, and the self-test that runs them. -/
namespace Tfws.Vectors

open Fallible Cbor

/-- A negative vector, with the category that it has to be refused under. -/
structure Case where
  id : String
  vectorClass : String
  inputType : String
  bytesHex : String
  sha256 : String
  expectedCategory : String

/-- The positive vector, with the manifest, its payload and the envelope around it. -/
structure Positive where
  id : String
  manifest : Dict
  manifestCborHex : String
  manifestCborSha256 : String
  coseHex : String
  coseSha256 : String

/-- The corpus as it is written to a file. -/
structure Corpus where
  corpusVersion : String
  profile : String
  positive : Positive
  negative : List Case

/-- `sha256_hex`, the digest in lower-case hexadecimal digits. -/
def sha256Hex (sha256 : Bytes → Bytes) (data : Bytes) : String := Python.hexdigest (sha256 data)

/-- `bytes.fromhex(text)`, with one error for whatever is wrong with the text. -/
def fromHex (text : String) : Result Bytes := (Python.fromHex text).mapError fun _ => .valueError

/-- `_negative`, which adds the octets in digits and their digest to what
distinguishes the vector. -/
def negativeCase (sha256 : Bytes → Bytes) (id vectorClass inputType : String) (data : Bytes)
    (expectedCategory : String) : Case :=
  { id, vectorClass, inputType, bytesHex := Python.hexdigest data, sha256 := sha256Hex sha256 data,
    expectedCategory }

/-- `value[place]` of a list, with the errors that Python has for other values. Places
are never negative here. -/
def index (value : Item) (place : Nat) : Result Item :=
  match value with
  | .array items =>
      match items[place]? with
      | some item => .ok item
      | none => .error .indexError
  | _ => .error .typeError

/-- `(entry[0], entry[2])`, the header and the octets of a signature. They go into
other envelopes as they are. -/
def entryPair (entry : Item) : Result (Item × Item) := do
  let protectedHeader ← index entry 0
  let signature ← index entry 2
  .ok (protectedHeader, signature)

/-- `_mutate_payload`, on the value of the tag: another payload under the signatures
of the old one. -/
def mutatePayload (outer : Item) (payload : Bytes) : Result Bytes :=
  match outer with
  | .array items => do
      failIf (items.length ≤ 2) .indexError
      cborEncode (.tag 98 (.array (items.set 2 (.bytes payload))))
  | _ => .error .typeError

/-- `payload_mutation["operator"]["name"] = "Example Organizatioo"`, on a copy. The
manifest stays admissible, for nothing looks at the operator. -/
def renameOperator (manifest : Dict) : Result Dict := do
  match ← subscript (.map manifest) "operator" with
  | .map operator =>
      .ok (setItem (.text "operator")
        (.map (setItem (.text "name") (.text "Example Organizatioo") operator)) manifest)
  | _ => .error .typeError

/-- `manifest["keys"][0][name] = value`, on a copy. Only the first descriptor is ever
changed. -/
def setFirstKey (manifest : Dict) (name : String) (value : Item) : Result Dict := do
  match ← subscript (.map manifest) "keys" with
  | .array (.map entry :: rest) =>
      .ok (setItem (.text "keys") (.array (.map (setItem (.text name) value entry) :: rest)) manifest)
  | .array [] => .error .indexError
  | _ => .error .typeError

/-- `("0" if digest[0] != "0" else "1") + digest[1:]`. The changed digest differs in
its first digit and is still one. -/
def replaceDigit : Item → Result Item
  | .text digest =>
      match digest.toList with
      | [] => .error .indexError
      | digit :: rest => .ok (.text (String.ofList ((if digit ≠ '0' then '0' else '1') :: rest)))
  | .map entries =>
      match lookup (.int 0) entries with
      | some _ => .error .typeError
      | none => .error (.keyError "0")
  | _ => .error .typeError

/-- `wrong_sha`: the manifest with one digit of a digest changed. It is admissible,
and its key binding is wrong. -/
def replaceDigest (manifest : Dict) : Result Dict := do
  let keys ← subscript (.map manifest) "keys"
  let first ← index keys 0
  let digest ← subscript first "public_key_sha256"
  setFirstKey manifest "public_key_sha256" (← replaceDigit digest)

/-- `signature[-1] ^= 1`, which an empty signature does not allow. What comes out
differs in one bit. -/
def flipLast : Item → Result Item
  | .bytes octets =>
      match octets.getLast? with
      | none => .error .indexError
      | some last => .ok (.bytes (octets.dropLast ++ [last ^^^ 1]))
  | _ => .error .typeError

/-- The negative vectors that are manifests: nothing at all, a payload cut short, and
two that are not deterministic. -/
def manifestVectors (sha256 : Bytes → Bytes) (payload : Bytes) : List Case :=
  let case := negativeCase sha256
  [case "malformed-cbor" "malformed_cbor" "manifest_cbor" [] "malformed_cbor",
    case "truncated-cbor" "truncated_cbor" "manifest_cbor" payload.dropLast "malformed_cbor",
    case "noncanonical-cbor" "noncanonical_cbor" "manifest_cbor" [0xB8, 0x00]
      "non_deterministic_cbor",
    case "duplicate-key-cbor" "duplicate_key" "manifest_cbor"
      [0xA2, 0x61, 0x61, 0x01, 0x61, 0x61, 0x02] "non_deterministic_cbor"]

/-- The ones with another body header or another manifest under the old signatures.
`outer` is the value of the tag of the envelope, `ed` and `ml` are its signatures. -/
def substitutionVectors (sha256 : Bytes → Bytes) (manifest : Dict) (payload : Bytes) (outer : Item)
    (ed ml : Item × Item) : Result (List Case) := do
  let case := negativeCase sha256
  let unsupportedBody ← bodyProtected coseContentType [(.int 99, .bool true)]
  let unsupportedHeader ← makeEnvelope (.bytes payload) (.bytes unsupportedBody) [ed, ml]
  let renamed ← renameOperator manifest
  let payloadSubstitution ← mutatePayload outer (← encodeManifest renamed)
  let substitutedBody ← bodyProtected "application/tfws+cbos" []
  let headerSubstitution ← makeEnvelope (.bytes payload) (.bytes substitutedBody) [ed, ml]
  .ok [case "unsupported-mandatory-header" "unsupported_mandatory_field" "cose" unsupportedHeader
      "unsupported_header",
    case "payload-substitution" "payload_substitution" "cose" payloadSubstitution
      "signature_invalid",
    case "protected-header-substitution" "protected_header_substitution" "cose" headerSubstitution
      "invalid_content_type"]

/-- The ones with other signatures behind the body of the envelope: one left out, one
repeated, one exchanged, or one under another header. -/
def signatureVectors (sha256 : Bytes → Bytes) (payload : Bytes) (body : Item)
    (ed ml : Item × Item) : Result (List Case) := do
  let case := negativeCase sha256
  let envelope := makeEnvelope (.bytes payload) body
  let missingEd ← envelope [ml]
  let missingMl ← envelope [ed]
  let duplicate ← envelope [ed, ed]
  let unknownProtected ← signatureProtected (-999) kid
  let unknown ← envelope [ed, (.bytes unknownProtected, ml.2)]
  let substitution ← envelope [ml, ed]
  let mismatch ← envelope [ed, (ml.1, ed.2)]
  let wrongKid ← signatureProtected ed25519.algorithm (Utf8.encode "release-2")
  let wrongIdentifier ← envelope [(.bytes wrongKid, ed.2), ml]
  .ok [case "missing-ed25519-signature" "missing_ed25519_signature" "cose" missingEd
      "invalid_cose_structure",
    case "missing-ml-dsa-65-signature" "missing_ml_dsa_65_signature" "cose" missingMl
      "invalid_cose_structure",
    case "duplicate-signature-component" "duplicate_signature_component" "cose" duplicate
      "invalid_algorithm",
    case "unknown-mandatory-algorithm" "unknown_mandatory_algorithm" "cose" unknown
      "invalid_algorithm",
    case "algorithm-substitution" "algorithm_substitution" "cose" substitution "invalid_algorithm",
    case "algorithm-mismatch" "algorithm_mismatch" "cose" mismatch "signature_invalid",
    case "wrong-key-identifier" "wrong_key_identifier" "cose" wrongIdentifier "invalid_kid"]

/-- The ones with another descriptor in the manifest. The first is encoded without a
check, since it is not admissible. -/
def descriptorVectors (sha256 : Bytes → Bytes) (manifest : Dict) (outer : Item) :
    Result (List Case) := do
  let case := negativeCase sha256
  let wrongDescriptor ← setFirstKey manifest "public_key_uri"
    (.text "/.well-known/keys/replaced.pem")
  let descriptorSubstitution ← mutatePayload outer (← cborEncode (.map wrongDescriptor))
  let wrongSha ← replaceDigest manifest
  let digestSubstitution ← mutatePayload outer (← encodeManifest wrongSha)
  .ok [case "wrong-public-key-descriptor" "wrong_public_key_descriptor" "cose"
      descriptorSubstitution "manifest_policy_invalid",
    case "wrong-sha256-key-binding" "wrong_sha256_key_binding" "cose" digestSubstitution
      "key_binding_mismatch"]

/-- The ones with a flipped bit in one of the two signatures. -/
def flippedVectors (sha256 : Bytes → Bytes) (payload : Bytes) (body : Item)
    (ed ml : Item × Item) : Result (List Case) := do
  let case := negativeCase sha256
  let invalidEd ← makeEnvelope (.bytes payload) body [(ed.1, ← flipLast ed.2), ml]
  let invalidMl ← makeEnvelope (.bytes payload) body [ed, (ml.1, ← flipLast ml.2)]
  .ok [case "invalid-ed25519-signature" "invalid_ed25519_signature" "cose" invalidEd
      "signature_invalid",
    case "invalid-ml-dsa-65-signature" "invalid_ml_dsa_65_signature" "cose" invalidMl
      "signature_invalid"]

/-- The negative vectors, made from the manifest, its payload and the value of the tag
of its envelope, group by group in the order of the script. -/
def negativeVectors (sha256 : Bytes → Bytes) (manifest : Dict) (payload : Bytes) (outer : Item) :
    Result (List Case) := do
  let body ← index outer 0
  let signatures ← index outer 3
  let ed ← entryPair (← index signatures 0)
  let ml ← entryPair (← index signatures 1)
  let substituted ← substitutionVectors sha256 manifest payload outer ed ml
  let recombined ← signatureVectors sha256 payload body ed ml
  let redescribed ← descriptorVectors sha256 manifest outer
  let flipped ← flippedVectors sha256 payload body ed ml
  .ok (manifestVectors sha256 payload ++ (substituted ++ (recombined ++ (redescribed ++ flipped))))

/-- `build_corpus`, which takes the negative vectors from the envelope that it has
built, after reading it back. -/
def buildCorpus (sha256 : Bytes → Bytes) (manifest : Dict) : Result Corpus := do
  let (payload, envelope) ← buildPositive sha256 manifest
  match ← cborDecodeExact envelope with
  | .tag _ outer => do
      let negative ← negativeVectors sha256 manifest payload outer
      .ok {
        corpusVersion := "1"
        profile := "A2-COSE-04"
        positive := {
          id := "positive-hybrid-envelope-v1"
          manifest
          manifestCborHex := Python.hexdigest payload
          manifestCborSha256 := sha256Hex sha256 payload
          coseHex := Python.hexdigest envelope
          coseSha256 := sha256Hex sha256 envelope }
        negative }
  | _ => .error .assertionError

/-- The errors of a corpus that does not have the form of one. -/
def schemaInvalid (message : String) : Failure := .vectorError "schema_invalid" message

/-- The classes that have to be covered, each by a vector. -/
def requiredClasses : List String :=
  ["malformed_cbor", "truncated_cbor", "noncanonical_cbor", "duplicate_key",
    "unsupported_mandatory_field", "payload_substitution", "protected_header_substitution",
    "missing_ed25519_signature", "missing_ml_dsa_65_signature", "duplicate_signature_component",
    "unknown_mandatory_algorithm", "algorithm_substitution", "algorithm_mismatch",
    "wrong_key_identifier", "wrong_public_key_descriptor", "wrong_sha256_key_binding",
    "invalid_ed25519_signature", "invalid_ml_dsa_65_signature"]

/-- The loop over the negative vectors in `validate_corpus`, with the identifiers seen
so far. -/
def validateCases (sha256 : Bytes → Bytes) (ids : List String) : List Case → Result Unit
  | [] => .ok ()
  | case :: rest => do
      failIf (case.id ∈ ids) (schemaInvalid "duplicate vector id")
      let raw ← fromHex case.bytesHex
      failIf (sha256Hex sha256 raw ≠ case.sha256) (schemaInvalid ("digest mismatch: " ++ case.id))
      validateCases sha256 (case.id :: ids) rest

/-- `validate_corpus`. The fields of the vectors are those of their types, so that
only the checks of values are left. -/
def validateCorpus (sha256 : Bytes → Bytes) (corpus : Corpus) : Result Unit := do
  failIf (corpus.corpusVersion ≠ "1" ∨ corpus.profile ≠ "A2-COSE-04")
    (schemaInvalid "invalid corpus version or profile")
  failIf (corpus.negative.length ≠ 18)
    (schemaInvalid "invalid positive or negative vector inventory")
  validateCases sha256 [corpus.positive.id] corpus.negative
  failIf (¬(corpus.negative.all (fun case => case.vectorClass ∈ requiredClasses) &&
      requiredClasses.all fun name => corpus.negative.any fun case => case.vectorClass = name))
    (schemaInvalid "negative class inventory mismatch")

/-- What a negative vector is put to, by its type: the decoder of manifests or the
verifier of envelopes. -/
def runCase (sha256 : Bytes → Bytes) (inputType : String) (raw : Bytes) : Result Dict :=
  if inputType = "manifest_cbor" then decodeManifest raw
  else if inputType = "cose" then verifyCose sha256 raw
  else .error (schemaInvalid "unknown input type")

/-- A negative vector has to be refused, with its own category. Another exception of
the language ends the test as it is. -/
def testCase (sha256 : Bytes → Bytes) (case : Case) : Result (String × String) := do
  let raw ← fromHex case.bytesHex
  match runCase sha256 case.inputType raw with
  | .error (.vectorError category _) => do
      failIf (category ≠ case.expectedCategory) .assertionError
      .ok (case.id, category)
  | .error failure => .error failure
  | .ok _ => .error .assertionError

/-- The loop of `self_test`, which stops at the first vector that is accepted or
refused otherwise. -/
def testCases (sha256 : Bytes → Bytes) : List Case → Result (List (String × String))
  | [] => .ok []
  | case :: rest => do
      let result ← testCase sha256 case
      let others ← testCases sha256 rest
      .ok (result :: others)

/-- `self_test`, which returns what every negative vector was refused for, behind the
positive one. Digests are compared before anything is decoded. -/
def selfTest (sha256 : Bytes → Bytes) (corpus : Corpus) : Result (List (String × String)) := do
  validateCorpus sha256 corpus
  let positive := corpus.positive
  let manifestBytes ← fromHex positive.manifestCborHex
  let coseBytes ← fromHex positive.coseHex
  failIf (sha256Hex sha256 manifestBytes ≠ positive.manifestCborSha256)
    (.vectorError "digest_invalid" "positive manifest digest mismatch")
  failIf (sha256Hex sha256 coseBytes ≠ positive.coseSha256)
    (.vectorError "digest_invalid" "positive COSE digest mismatch")
  let decoded ← decodeManifest manifestBytes
  failIf (equal (.map decoded) (.map positive.manifest) = false)
    (.vectorError "semantic_mismatch" "positive manifest semantic mismatch")
  let verified ← verifyCose sha256 coseBytes
  failIf (equal (.map verified) (.map positive.manifest) = false)
    (.vectorError "semantic_mismatch" "positive COSE semantic mismatch")
  let results ← testCases sha256 corpus.negative
  .ok ((positive.id, "valid") :: results)

end Tfws.Vectors
