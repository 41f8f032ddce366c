import Tfws.Agreement.VectorDocuments
import Tfws.Agreement.VectorEnvelopes
import Tfws.Agreement.VectorManifests
import Tfws.Cli.FormatPolicy
import Tfws.Core.Truncation
import Tfws.Vectors.SelfTest

/-! `tfws-cli` on the corpus of a manifest: it accepts the positive vector, and
rejects every negative one under the code that the vector names. -/
namespace Tfws.Vectors

open SerdeJson Fallible Cbor

variable {crates : Crates} {json : Cli.FromSlice} {manifest : Dict} {m : Manifest}
  {payload envelope : Bytes} {cases : List Case}

/-- The CLI rejects the octets under a code, with whatever message. -/
def RejectedAs (crates : Crates) (json : Cli.FromSlice) (inputFormat : Cli.InputFormat)
    (octets : Bytes) (code : String) : Prop :=
  ∃ error, Cli.validateBytes crates json inputFormat octets = .error error ∧ error.code = code

/-- The format that a vector is tried under, by the type that the corpus gives it. -/
def formatOf (inputType : String) : Cli.InputFormat :=
  if inputType = "manifest_cbor" then .cbor else .cose

/-- The CLI rejects the vector, if it is of an admissible length, under the
category that it names. -/
def Rejected (crates : Crates) (json : Cli.FromSlice) (case : Case) : Prop :=
  ∃ octets, fromHex case.bytesHex = .ok octets ∧ (octets.length ≤ 4 * 1024 * 1024 →
    RejectedAs crates json (formatOf case.inputType) octets case.expectedCategory)

/-- Verification raises an error of a category, whichever error of that category it
is. -/
def Raises (crates : Crates) (envelope : Bytes) (category : String) : Prop :=
  ∃ raised, verifyManifestCose crates envelope Cli.conformanceFixtureVerifier = .error raised ∧
    raised.category = category

theorem rejected_manifest {sha256 : Bytes → Bytes} {id vectorClass category : String} {data : Bytes}
    (h : ∃ raised, decodeManifestCbor crates data .default = .error raised ∧
      raised.category = category) :
    Rejected crates json (negativeCase sha256 id vectorClass "manifest_cbor" data category) := by
  obtain ⟨raised, hDecode, hCategory⟩ := h
  refine ⟨data, fromHex_hexdigest data, fun _ => ?_⟩
  have hFormat : formatOf "manifest_cbor" = .cbor := rfl
  rw [negativeCase, hFormat, RejectedAs, Cli.validateBytes, hDecode]
  exact ⟨_, rfl, hCategory⟩

theorem rejected_cose {sha256 : Bytes → Bytes} {id vectorClass category : String} {data : Bytes}
    (h : data.length ≤ 4 * 1024 * 1024 → Raises crates data category) :
    Rejected crates json (negativeCase sha256 id vectorClass "cose" data category) := by
  refine ⟨data, fromHex_hexdigest data, fun hShort => ?_⟩
  obtain ⟨raised, hVerify, hCategory⟩ := h hShort
  have hFormat : formatOf "cose" = .cose := rfl
  rw [negativeCase, hFormat, RejectedAs, Cli.validateBytes, hVerify]
  exact ⟨_, rfl, hCategory⟩

/-- What the structural half refuses, the decoder refuses with the same error. -/
theorem decodeManifestCbor_of_structure {data : Bytes} {raised : CborCodecError}
    (h : decodeStructure crates data .default = .error raised) :
    decodeManifestCbor crates data .default = .error raised := by
  rw [decodeManifestCbor, h, error_bind]

/-- A map of any form of head is read, for the comparison with the deterministic
encoding comes later. -/
theorem decodeValue_map {limits : CborLimits} {depth : Nat} {form : Form} {count : UInt64}
    (hDepth : depth ≤ limits.maxDepth.toNat) (hFits : form.Fits count.toNat)
    (hCount : count ≤ limits.maxMapPairs) (rest : Bytes) :
    decodeValue crates limits depth (form.head 5 count.toNat ++ rest) = (do
      let (entries, rest) ← decodeEntries crates limits (decodeValue crates limits (depth + 1))
        count.toNat [] [] none rest
      .ok (.object entries, rest)) := by
  rw [decodeValue_of_shallow hDepth, crates.decoder.datatype_map _ _ _ hFits, mapError_ok, ok_bind]
  dsimp only
  rw [Tfws.decodeMap, crates.decoder.map_head _ _ _ hFits, mapError_ok, ok_bind]
  dsimp only
  rw [failIf_of_not (UInt64.not_lt.mpr hCount), ok_bind]

theorem decodeStructure_noncanonical :
    decodeStructure crates [0xB8, 0x00] .default = .error .nonDeterministicCbor := by
  have hValue : decodeValue crates .default 0 [0xB8, 0x00] = .ok (.object [], []) :=
    @decodeValue_map crates .default 0 .one 0 (by decide) (by decide) (by decide) []
  have hEncoded := encodeValueToVec_of_decodeValue hValue
  have hEncode : (Value.object []).item.encode = [0xA0] := by
    rw [item_object_eq, sortFields, List.mergeSort_nil]
    rfl
  rw [decodeStructure, failIf_of_not (by decide), ok_bind, failIf_of_not (by decide), ok_bind, hValue,
    ok_bind]
  dsimp only
  rw [failIf_of_not (by decide), ok_bind, hEncoded, hEncode, ok_bind, failIf_of (by decide),
    error_bind]

theorem decodeStructure_duplicateKey :
    decodeStructure crates [0xA2, 0x61, 0x61, 0x01, 0x61, 0x61, 0x02] .default =
      .error (.duplicateKey "a") := by
  have hEntries : decodeEntries crates .default (decodeValue crates .default 1) 2 [] [] none
      [0x61, 0x61, 0x01, 0x61, 0x61, 0x02] = .error (.duplicateKey "a") := by
    have hKey (rest : Bytes) : decodeKey crates .default (0x61 :: 0x61 :: rest) =
        .ok ("a", [0x61, 0x61], rest) := by
      change decodeKey crates .default ((Item.text "a").encode ++ rest) = _
      exact decodeKey_encode (by decide) rest
    have hOne (rest : Bytes) : decodeValue crates .default 1 (0x01 :: rest) =
        .ok (.number (.posInt 1), rest) :=
      @decodeValue_posInt crates .default 1 1 (by decide) (by decide) rest
    rw [decodeEntries, hKey, ok_bind]
    dsimp only
    rw [failIf_of_not (by decide), ok_bind, failIf_of_not (by decide), ok_bind, hOne, ok_bind]
    dsimp only
    rw [decodeEntries, hKey, ok_bind]
    dsimp only
    rw [failIf_of (by decide), error_bind]
  have hValue : decodeValue crates .default 0 [0xA2, 0x61, 0x61, 0x01, 0x61, 0x61, 0x02] = _ :=
    @decodeValue_map crates .default 0 .inline 2 (by decide) (by decide) (by decide)
      [0x61, 0x61, 0x01, 0x61, 0x61, 0x02]
  have hTwo : (2 : UInt64).toNat = 2 := rfl
  rw [hTwo, hEntries, error_bind] at hValue
  rw [decodeStructure, failIf_of_not (by decide), ok_bind, failIf_of_not (by decide), ok_bind, hValue,
    error_bind]

/-- A fixture envelope determines its payload, whichever headers it has, since the
payload stands in it. -/
theorem fixtureEnvelope_payload {aliased aliased' : CoseAlgorithm → Bool} {other : Bytes}
    (hShort : Short payload) (hOther : Short other)
    (h : fixtureEnvelope aliased payload = fixtureEnvelope aliased' other) : payload = other := by
  have hPayload : (Item.bytes payload).Encodable := .bytes hShort
  have hOtherPayload : (Item.bytes other).Encodable := .bytes hOther
  rw [fixtureEnvelope, fixtureEnvelope, envelope_encode, envelope_encode] at h
  have hRest := List.append_cancel_left (List.append_cancel_left (List.append_cancel_left
    (List.cons.inj (List.cons.inj h).2).2))
  exact Item.bytes.inj (hPayload.encode_append_inj hOtherPayload hRest).1

theorem validateBytes_cbor : Cli.validateBytes crates json .cbor payload = .ok m ↔
    decodeManifestCbor crates payload .default = .ok m := by
  rw [Cli.validateBytes, mapError_eq_ok]

theorem validateBytes_cose : Cli.validateBytes crates json .cose envelope = .ok m ↔
    verifyManifestCose crates envelope Cli.conformanceFixtureVerifier = .ok m := by
  rw [Cli.validateBytes, mapError_eq_ok]

theorem readAs_of_payload (hManifest : WellFormed (.map manifest))
    (hPayload : encodeManifest manifest = .ok payload)
    (h : decodeManifestCbor crates payload .default = .ok m) :
    ReadAs manifest m ∧ m.Lawful crates := by
  obtain ⟨-, hEncoded⟩ := then_eq_ok.mp hPayload
  exact readAs_of_decode hManifest hEncoded h

/-- The envelope of the generator verifies when its payload decodes and both
descriptors are the expected ones. -/
theorem verifyManifestCose_positive (hManifest : WellFormed (.map manifest))
    (hBuilt : buildPositive Cli.sha256 manifest = .ok (payload, envelope)) :
    verifyManifestCose crates envelope Cli.conformanceFixtureVerifier = .ok m ↔
      decodeManifestCbor crates payload .default = .ok m ∧ KeysBound manifest := by
  obtain ⟨first, second, hAdmitted⟩ := admitted_of_buildPositive hManifest hBuilt
  obtain ⟨hPayload, hEnvelope⟩ := (buildPositive_eq_ok hAdmitted).mp hBuilt
  have hShort : Short payload := (makeEnvelope_short hEnvelope).1
  have hOctets := signed_octets hEnvelope
  rw [verifyManifestCose_fixture_eq_ok]
  constructor
  · intro h
    obtain ⟨-, other, hOther, hDecode, hKeys⟩ := h
    obtain ⟨_, hEncodes, -⟩ := decodeManifestCbor_eq_ok.mp hDecode
    have hSame := fixtureEnvelope_payload hShort (hEncodes.short.trans_lt (limit_lt _))
      (hOctets.symm.trans hOther)
    rw [← hSame] at hDecode
    exact ⟨hDecode, ((readAs_of_payload hManifest hPayload hDecode).1.fixtureKeys_iff hAdmitted).mp
      hKeys⟩
  · intro h
    obtain ⟨hDecode, hBound⟩ := h
    obtain ⟨_, hEncodes, -⟩ := decodeManifestCbor_eq_ok.mp hDecode
    have hKeys := ((readAs_of_payload hManifest hPayload hDecode).1.fixtureKeys_iff hAdmitted).mpr
      hBound
    have hLimit : payload.length ≤ 4 * 1024 * 1024 := hEncodes.short
    have hLength := length_fixtureEnvelope_le (fun _ => false) payload
    refine ⟨?_, payload, hOctets, hDecode, hKeys⟩
    rw [hOctets]
    omega

/-- The CLI accepts the envelope of the generator when it accepts the payload and both
descriptors are the expected ones, and only then. -/
theorem validateBytes_positive (hManifest : WellFormed (.map manifest))
    (hBuilt : buildPositive Cli.sha256 manifest = .ok (payload, envelope)) :
    Cli.validateBytes crates json .cose envelope = .ok m ↔
      Cli.validateBytes crates json .cbor payload = .ok m ∧ KeysBound manifest := by
  rw [validateBytes_cose, validateBytes_cbor]
  exact verifyManifestCose_positive hManifest hBuilt

/-- The sample of both models, as the generator builds it, with the keys of the
fixture. -/
def sampleDict : Dict :=
  sampleManifest "Example Organization" (publicKeyUri "ed25519") (expectedSha256 "ed25519")

theorem encodeManifest_sampleDict : encodeManifest sampleDict = .ok samplePayload := by
  rw [samplePayload, item_sample]
  exact encodeManifest_sampleManifest hexDigest_ed25519 (by decide) (by decide)

/-- `tfws-core` reads it whatever the decoder does with other octets, because the
model decoder reads these. -/
theorem decodeManifestCbor_sample (decoder : Minicbor.Decoder) :
    decodeManifestCbor { Crates.model with decoder } samplePayload .default = .ok .sample := by
  have hLawful : Manifest.sample.Lawful { Crates.model with decoder } :=
    ⟨Manifest.lawful_sample.valid, Manifest.lawful_sample.identity⟩
  exact hLawful.decode_document Manifest.encodes_sample

/-- The positive vector of the sample is accepted, under both formats. -/
theorem validateBytes_positive_sample : ∃ envelope,
    buildPositive Cli.sha256 sampleDict = .ok (samplePayload, envelope) ∧
    Cli.validateBytes .model Cli.FromSlice.model .cose envelope = .ok .sample := by
  have hAdmitted := @admitted_sampleManifest "Example Organization" _ hexDigest_ed25519
  have hShort : Short samplePayload :=
    Manifest.encodes_sample.short.trans_lt (limit_lt _)
  obtain ⟨envelope, hEnvelope⟩ := exists_signed Cli.length_sha256 hShort
    (length_standardBody_le.trans_lt (by decide))
  have hBuilt := (buildPositive_eq_ok hAdmitted).mpr ⟨encodeManifest_sampleDict, hEnvelope⟩
  exact ⟨envelope, hBuilt, (validateBytes_positive readable_sample.wellFormed hBuilt).mpr
    ⟨validateBytes_cbor.mpr (decodeManifestCbor_sample _), keysBound_sample⟩⟩

theorem fits_of_length {body : Bytes} {signatures : List EncodedSignature}
    (h : (Tfws.envelopeItem body payload signatures).encode.length ≤ 4 * 1024 * 1024) :
    Fits body payload signatures := by
  have hBody : body.length ≤ (Tfws.envelopeItem body payload signatures).encode.length := by
    simp only [Tfws.envelopeItem, Item.encode, Item.encodeItems, List.length_append]
    omega
  have hPayload : payload.length ≤ (Tfws.envelopeItem body payload signatures).encode.length := by
    simp only [Tfws.envelopeItem, Item.encode, Item.encodeItems, List.length_append]
    omega
  have hEight : 4 * 1024 * 1024 ≤ CoseLimits.default.maxEnvelopeBytes.toNat := by decide
  exact ⟨h.trans hEight, hBody.trans h, hPayload.trans h⟩

/-- The content of an envelope with the headers of `build_positive`, apart from
the key identifier of the first. -/
def pairContent (payload : Bytes) {keyId : String} (hKeyId : keyId ≠ "") {left right : Bytes}
    (hLeft : left.length = 64) (hRight : right.length = 3309) : EnvelopeContent where
  payload
  keyId := CoseAlgorithm.select keyId "release-1"
  signature := CoseAlgorithm.select left right
  keyId_ne := by
    intro algorithm
    cases algorithm with
    | ed25519 => exact hKeyId
    | mlDsa65 => exact ne_of_beq_false rfl
  signature_length := by
    intro algorithm
    cases algorithm with
    | ed25519 => exact hLeft
    | mlDsa65 => exact hRight

variable {keyId : String} {left right : Bytes}

theorem pairContent_octets (hKeyId : keyId ≠ "") (hLeft : left.length = 64)
    (hRight : right.length = 3309)
    (h : makeEnvelope (.bytes payload) (.bytes standardBody)
      ([((signatureHeader ed25519.algorithm (Utf8.encode keyId)).encode, left),
        (mlDsa65.header, right)].map octetPair) = .ok envelope) :
    envelope = (@pairContent payload keyId hKeyId left right hLeft hRight).octets := by
  have hEd : signatureHeader ed25519.algorithm (Utf8.encode keyId) =
      signatureProtectedItem .ed25519 (Utf8.encode keyId) := rfl
  have hMl := header_eq .mlDsa65
  rw [profileFor, CoseAlgorithm.select] at hMl
  rw [makeEnvelope_octets h, standardBody_eq, hEd, hMl]
  rfl

theorem length_protectedHeader_le (content : EnvelopeContent) (algorithm : CoseAlgorithm) :
    (content.protectedHeader algorithm).length ≤ content.octets.length := by
  cases algorithm <;>
  · simp only [EnvelopeContent.octets, EnvelopeContent.encoded, Tfws.envelopeItem,
      requiredSignatures, signatureItem, Item.encode, Item.encodeItems, List.map_cons, List.map_nil,
      List.length_append]
    omega

/-- An envelope of two signatures of the right lengths is within the default limits,
if it is no longer than a document may be. -/
theorem pairContent_within (hKeyId : keyId ≠ "") (hLeft : left.length = 64)
    (hRight : right.length = 3309)
    (hShort : (@pairContent payload keyId hKeyId left right hLeft hRight).octets.length ≤
      4 * 1024 * 1024) :
    (@pairContent payload keyId hKeyId left right hLeft hRight).Within .default := by
  have hFits := fits_of_length hShort
  constructor
  case depth | arrayItems | mapPairs => decide
  case envelope => exact hFits.envelope
  case body => exact hFits.body
  case payload => exact hFits.payload
  case protectedHeader =>
    intro algorithm
    exact (length_protectedHeader_le _ algorithm).trans hShort
  case signature =>
    intro algorithm
    rw [EnvelopeContent.signature_length]
    cases algorithm <;> decide

/-- A valid manifest with the fixture's keys has exactly one of them for each
algorithm. -/
theorem exists_fixtureKeys (hValid : m.Valid crates) (hKeys : FixtureKeys m) :
    ∃ key : CoseAlgorithm → KeyDescriptor, ∀ algorithm, Describes m algorithm (key algorithm) ∧
      (key algorithm).keyId = "release-1" ∧
      Cli.validateFixtureBinding algorithm (key algorithm) = .ok () := by
  choose key hMem hAlgorithm hKeyId hSha256 using hKeys
  refine ⟨key, fun algorithm => ⟨hValid.describes (hMem algorithm) (hAlgorithm algorithm),
    hKeyId algorithm, ?_⟩⟩
  have hKey := hValid.keys _ (hMem algorithm)
  exact validateFixtureBinding_eq_ok.mpr ⟨hAlgorithm algorithm, hKeyId algorithm,
    hAlgorithm algorithm ▸ hKey.publicKeyUri, hSha256 algorithm, hKey.status, hKey.usage⟩

/-- Under the expected key only the fixture is compared, and the verdict is the
comparison's. -/
theorem checkSigned_fixture {content : EnvelopeContent} {algorithm : CoseAlgorithm}
    {key : KeyDescriptor} (hKeyId : content.keyId algorithm = key.keyId)
    (hBinding : Cli.validateFixtureBinding algorithm key = .ok ()) :
    checkSigned Cli.conformanceFixtureVerifier content algorithm key =
      failIf (content.signature algorithm ≠
        Cli.fixtureSignature algorithm (content.message algorithm)) .signatureInvalid := by
  have hKid : ¬content.kid algorithm ≠ Utf8.encode key.keyId :=
    not_not.mpr (congrArg Utf8.encode hKeyId)
  rw [checkSigned, failIf_of_not hKid, ok_bind, Cli.conformanceFixtureVerifier]
  dsimp only
  rw [hBinding, ok_bind]
  unfold failIf
  split_ifs <;> rfl

/-- What verification makes of two signatures of the right lengths behind the headers
of `build_positive`: each is compared with the fixture. -/
theorem verifyManifestCose_pair (hDecode : decodeManifestCbor crates payload .default = .ok m)
    (hKeys : FixtureKeys m) (hLeft : left.length = 64) (hRight : right.length = 3309)
    (h : makeEnvelope (.bytes payload) (.bytes standardBody)
      ([(ed25519.header, left), (mlDsa65.header, right)].map octetPair) = .ok envelope)
    (hShort : envelope.length ≤ 4 * 1024 * 1024) :
    verifyManifestCose crates envelope Cli.conformanceFixtureVerifier = (do
      failIf (left ≠ ed25519.fixture Cli.sha256 (message standardBody ed25519.header payload))
        .signatureInvalid
      failIf (right ≠ mlDsa65.fixture Cli.sha256 (message standardBody mlDsa65.header payload))
        .signatureInvalid
      .ok m) := by
  have hKeyId : "release-1" ≠ "" := by decide
  obtain ⟨_, -, -, hLawful⟩ := decodeManifestCbor_eq_ok.mp hDecode
  obtain ⟨key, hKey⟩ := exists_fixtureKeys (Manifest.validate_eq_ok.mp hLawful.valid) hKeys
  have hOctets := pairContent_octets hKeyId hLeft hRight h
  rw [hOctets] at hShort ⊢
  have hWithin := pairContent_within hKeyId hLeft hRight hShort
  have hMessage (algorithm : CoseAlgorithm) : Cli.fixtureSignature algorithm
      ((@pairContent payload "release-1" hKeyId left right hLeft hRight).message algorithm) =
        (profileFor algorithm).fixture Cli.sha256
          (message standardBody (profileFor algorithm).header payload) := by
    rw [fixture_eq, header_eq]
    cases algorithm <;> rfl
  have hSame (algorithm : CoseAlgorithm) :
      (@pairContent payload "release-1" hKeyId left right hLeft hRight).keyId algorithm =
        (key algorithm).keyId := by
    rw [(hKey algorithm).2.1]
    cases algorithm <;> rfl
  rw [verifyManifestCose, verifyManifestCose_content hWithin hDecode fun algorithm => (hKey algorithm).1,
    checkSigned_fixture (hSame _) (hKey _).2.2, checkSigned_fixture (hSame _) (hKey _).2.2, hMessage,
    hMessage]
  rfl

/-- The vectors that are no documents: their octets are damaged, or no deterministic
encoding. -/
theorem manifestVectors_rejected {sha256 : Bytes → Bytes} (hStrict : crates.decoder.Strict)
    (hDecode : decodeManifestCbor crates payload .default = .ok m) :
    ∀ case ∈ manifestVectors sha256 payload, Rejected crates json case := by
  obtain ⟨value, hEncodes, -⟩ := decodeManifestCbor_eq_ok.mp hDecode
  have hNe : payload ≠ [] := by
    rintro rfl
    cases hDecode
  obtain ⟨_, hPart⟩ := malformed_part hStrict hEncodes (cut_dropLast hNe)
  have hEmpty : decodeManifestCbor crates [] .default = .error (.malformedCbor "empty input") := rfl
  have hTruncated := decodeManifestCbor_of_structure hPart
  have hNoncanonical : decodeManifestCbor crates [0xB8, 0x00] .default =
      .error .nonDeterministicCbor := decodeManifestCbor_of_structure decodeStructure_noncanonical
  have hDuplicate : decodeManifestCbor crates [0xA2, 0x61, 0x61, 0x01, 0x61, 0x61, 0x02] .default =
      .error (.duplicateKey "a") := decodeManifestCbor_of_structure decodeStructure_duplicateKey
  simp only [manifestVectors, List.forall_mem_cons]
  exact ⟨rejected_manifest ⟨_, hEmpty, rfl⟩, rejected_manifest ⟨_, hTruncated, rfl⟩,
    rejected_manifest ⟨_, hNoncanonical, rfl⟩, rejected_manifest ⟨_, hDuplicate, rfl⟩,
    List.forall_mem_nil _⟩

/-- Another header of the body is refused before anything else is looked at. -/
theorem raises_body {pairs : List (Bytes × Bytes)} {body : Bytes} {raised : CoseEnvelopeError}
    (hBody : validateBodyProtected crates .default body = .error raised)
    (h : makeEnvelope (.bytes payload) (.bytes body) (pairs.map octetPair) = .ok envelope)
    (hShort : envelope.length ≤ 4 * 1024 * 1024) : Raises crates envelope raised.category := by
  rw [makeEnvelope_octets h] at hShort ⊢
  exact ⟨raised, verifyManifestCose_of_parse (parseEnvelope_of_body (fits_of_length hShort) hBody) _,
    rfl⟩

/-- One of the two signatures is not the fixture, and the first of these is
reported. -/
theorem raises_signature (hDecode : decodeManifestCbor crates payload .default = .ok m)
    (hKeys : FixtureKeys m) (hLeft : left.length = 64) (hRight : right.length = 3309)
    (h : makeEnvelope (.bytes payload) (.bytes standardBody)
      ([(ed25519.header, left), (mlDsa65.header, right)].map octetPair) = .ok envelope)
    (hOther : left ≠ ed25519.fixture Cli.sha256 (message standardBody ed25519.header payload) ∨
      right ≠ mlDsa65.fixture Cli.sha256 (message standardBody mlDsa65.header payload))
    (hShort : envelope.length ≤ 4 * 1024 * 1024) : Raises crates envelope "signature_invalid" := by
  rw [Raises, verifyManifestCose_pair hDecode hKeys hLeft hRight h hShort]
  by_cases hFirst : left ≠ ed25519.fixture Cli.sha256 (message standardBody ed25519.header payload)
  · rw [failIf_of hFirst]
    exact ⟨_, rfl, rfl⟩
  · rw [failIf_of_not hFirst, ok_bind, failIf_of (hOther.resolve_left hFirst)]
    exact ⟨_, rfl, rfl⟩

/-- A renamed operator is noticed when the digests tell the payloads apart; nothing
else in the envelope would show it. -/
theorem raises_renamed {renamed : Dict} {other : Bytes} (hManifest : WellFormed (.map manifest))
    (hPayload : encodeManifest manifest = .ok payload)
    (hDecode : decodeManifestCbor crates payload .default = .ok m) (hKeys : FixtureKeys m)
    (hRenamed : renameOperator manifest = .ok renamed)
    (hOther : encodeManifest renamed = .ok other)
    (hShown : Distinguished Cli.sha256 payload other)
    (h : mutatePayload (positiveOuter Cli.sha256 payload) other = .ok envelope)
    (hShort : envelope.length ≤ 4 * 1024 * 1024) : Raises crates envelope "signature_invalid" := by
  obtain ⟨hRead, hLawful⟩ := readAs_of_payload hManifest hPayload hDecode
  obtain ⟨-, hEncoded⟩ := then_eq_ok.mp hOther
  rw [mutatePayload_eq] at h
  have hLimit : other.length ≤ CborLimits.default.maxManifestBytes.toNat := by
    have hOctets := makeEnvelope_octets h
    rw [hOctets] at hShort
    exact (fits_of_length hShort).payload
  have hAgain := (hRead.rename hRenamed).accepted (lawful_rename hRead hLawful) hEncoded hLimit
  have hLengths (profile : Profile) := @length_fixture Cli.sha256 profile Cli.length_sha256
  apply raises_signature hAgain hKeys (hLengths ed25519 _) (hLengths mlDsa65 _) h ?_ hShort
  obtain ⟨profile, hProfile, hDiffer⟩ := hShown
  have hFixture := mt (fixture_inj Cli.length_sha256 hProfile).mp hDiffer
  simp only [expectedProfiles, List.mem_cons, List.not_mem_nil, or_false] at hProfile
  obtain rfl | rfl := hProfile
  · exact Or.inl hFixture
  · exact Or.inr hFixture

/-- The vectors in which the payload, or the body header, is another one. -/
theorem substitutionVectors_rejected {sha256 : Bytes → Bytes} (hManifest : WellFormed (.map manifest))
    (hPayload : encodeManifest manifest = .ok payload)
    (hDecode : decodeManifestCbor crates payload .default = .ok m) (hKeys : FixtureKeys m)
    (h : substitutionVectors sha256 manifest payload (positiveOuter Cli.sha256 payload)
      (octetPair (signedPair Cli.sha256 payload ed25519))
      (octetPair (signedPair Cli.sha256 payload mlDsa65)) = .ok cases) :
    ∀ case ∈ cases, RenamingShows Cli.sha256 manifest ∨ case.id ≠ "payload-substitution" →
      Rejected crates json case := by
  have hExtra : bodyProtected coseContentType [(.int 99, .bool true)] =
      .ok (bodyHeader coseContentType [(.int 99, .bool true)]).encode :=
    readable_extraHeader.cborEncode_eq
  have hCbos : bodyProtected "application/tfws+cbos" [] =
      .ok (bodyHeader "application/tfws+cbos" []).encode :=
    (readable_bodyHeader (by decide)).cborEncode_eq
  have hContentType : validateBodyProtected crates .default
      (bodyHeader "application/tfws+cbos" []).encode = .error .invalidContentType :=
    validateBodyProtected_contentType (by decide) (by decide)
  simp only [substitutionVectors, hExtra, hCbos, ok_bind, bind_eq_ok, Except.ok.injEq] at h
  obtain ⟨extra, hExtraEnvelope, renamed, hRenamed, other, hOther, swap, hSwap, cbos, hCbosEnvelope,
    rfl⟩ := h
  have hTwo : [octetPair (signedPair Cli.sha256 payload ed25519),
      octetPair (signedPair Cli.sha256 payload mlDsa65)] =
        [signedPair Cli.sha256 payload ed25519, signedPair Cli.sha256 payload mlDsa65].map
          octetPair := rfl
  rw [hTwo] at hExtraEnvelope hCbosEnvelope
  simp only [List.forall_mem_cons]
  refine ⟨fun _ => rejected_cose (raises_body validateBodyProtected_extra hExtraEnvelope),
    fun hShows => rejected_cose (raises_renamed hManifest hPayload hDecode hKeys hRenamed hOther ?_
      hSwap),
    fun _ => rejected_cose (raises_body hContentType hCbosEnvelope), List.forall_mem_nil _⟩
  obtain ⟨renamed', payload', other', hPayload', hRenamed', hOther', hDistinguished⟩ :=
    hShows.resolve_right (not_not.mpr rfl)
  obtain rfl := Except.ok.inj (hPayload.symm.trans hPayload')
  obtain rfl := Except.ok.inj (hRenamed.symm.trans hRenamed')
  obtain rfl := Except.ok.inj (hOther.symm.trans hOther')
  exact hDistinguished

section Signatures

variable {pair : Bytes × Bytes}

/-- What the parser refuses is raised under the parser's category, for envelopes that
the generator could write. -/
theorem raises_of_parse {raised : CoseEnvelopeError} {pairs : List (Bytes × Bytes)}
    (hParse : Fits bodyProtectedItem.encode payload (pairs.map encodedOf) →
      parseEnvelope crates (Tfws.envelopeItem bodyProtectedItem.encode payload
        (pairs.map encodedOf)).encode .default = .error raised)
    (h : makeEnvelope (.bytes payload) (.bytes standardBody) (pairs.map octetPair) = .ok envelope)
    (hShort : envelope.length ≤ 4 * 1024 * 1024) : Raises crates envelope raised.category := by
  rw [makeEnvelope_octets h, standardBody_eq] at hShort ⊢
  exact ⟨raised, verifyManifestCose_of_parse (hParse (fits_of_length hShort)) _, rfl⟩

/-- With one signature instead of two, the structure is refused, whichever of the two
is left. -/
theorem raises_count (h : makeEnvelope (.bytes payload) (.bytes standardBody)
      ([pair].map octetPair) = .ok envelope) (hShort : envelope.length ≤ 4 * 1024 * 1024) :
    Raises crates envelope "invalid_cose_structure" :=
  @raises_of_parse crates payload envelope _ [pair] parseEnvelope_of_count h hShort

/-- The first signature of `build_positive` parses, so that what is wrong with the
second is reported. -/
theorem parseSignature_first (hLeft : left.length = 64) : ∃ parsed, ∀ rest,
    parseSignature crates .default .ed25519
      ((signatureItem (encodedOf (ed25519.header, left))).encode ++ rest) = .ok (parsed, rest) := by
  have hHeader := header_eq .ed25519
  rw [profileFor, CoseAlgorithm.select] at hHeader
  rw [hHeader]
  exact ⟨_, parseSignature_due .ed25519 (by decide) (by decide) hLeft⟩

/-- What is wrong with the second signature is raised, as soon as the first one is
read. -/
theorem raises_second {raised : CoseEnvelopeError} (hLeft : left.length = 64)
    (hRight : ∀ rest, parseSignature crates .default .mlDsa65
      ((signatureItem (encodedOf pair)).encode ++ rest) = .error raised)
    (h : makeEnvelope (.bytes payload) (.bytes standardBody)
      ([(ed25519.header, left), pair].map octetPair) = .ok envelope)
    (hShort : envelope.length ≤ 4 * 1024 * 1024) : Raises crates envelope raised.category := by
  obtain ⟨parsed, hParsed⟩ := @parseSignature_first crates left hLeft
  exact raises_of_parse (fun hFits => parseEnvelope_second hFits hParsed hRight) h hShort

/-- Another key identifier is noticed before the keys are, and before any fixture is
compared. -/
theorem raises_kid (hDecode : decodeManifestCbor crates payload .default = .ok m)
    (hKeys : FixtureKeys m) (hKeyId : keyId ≠ "") (hOther : keyId ≠ "release-1")
    (hLeft : left.length = 64) (hRight : right.length = 3309)
    (h : makeEnvelope (.bytes payload) (.bytes standardBody)
      ([((signatureHeader ed25519.algorithm (Utf8.encode keyId)).encode, left),
        (mlDsa65.header, right)].map octetPair) = .ok envelope)
    (hShort : envelope.length ≤ 4 * 1024 * 1024) : Raises crates envelope "invalid_kid" := by
  obtain ⟨_, -, -, hLawful⟩ := decodeManifestCbor_eq_ok.mp hDecode
  obtain ⟨key, hKey⟩ := exists_fixtureKeys (Manifest.validate_eq_ok.mp hLawful.valid) hKeys
  have hOctets := pairContent_octets hKeyId hLeft hRight h
  rw [hOctets] at hShort ⊢
  have hWithin := pairContent_within hKeyId hLeft hRight hShort
  have hKid : (@pairContent payload keyId hKeyId left right hLeft hRight).kid .ed25519 ≠
      Utf8.encode (key .ed25519).keyId := by
    rw [(hKey .ed25519).2.1]
    intro hSame
    exact hOther (Utf8.encode_injective hSame)
  refine ⟨.invalidKid, ?_, rfl⟩
  rw [verifyManifestCose, verifyManifestCose_content hWithin hDecode fun algorithm => (hKey algorithm).1, checkSigned,
    failIf_of hKid, error_bind, error_bind]

/-- The vectors in which a signature is missing, repeated or out of place, or does not
belong to its header. -/
theorem signatureVectors_rejected {sha256 : Bytes → Bytes}
    (hDecode : decodeManifestCbor crates payload .default = .ok m) (hKeys : FixtureKeys m)
    (h : signatureVectors sha256 payload (.bytes standardBody)
      (octetPair (signedPair Cli.sha256 payload ed25519))
      (octetPair (signedPair Cli.sha256 payload mlDsa65)) = .ok cases) :
    ∀ case ∈ cases, Rejected crates json case := by
  have hUnknownKey : Readable (signatureHeader (-999) kid) :=
    readable_signatureHeader (readable_small (by decide) (by decide)) (by decide)
  have hOtherKid : Readable (signatureHeader ed25519.algorithm (Utf8.encode "release-2")) :=
    readable_signatureHeader (readable_small (by decide) (by decide)) (by decide)
  simp only [signatureVectors, bind_eq_ok, Except.ok.injEq, signatureProtected_eq_ok hUnknownKey,
    signatureProtected_eq_ok hOtherKid, exists_eq_left] at h
  obtain ⟨noEd, hNoEd, noMl, hNoMl, twice, hTwice, unknown, hUnknown, swapped, hSwapped, mixed, hMixed,
    otherKid, hOtherKidEnvelope, rfl⟩ := h
  have hEd : (signedPair Cli.sha256 payload ed25519).2.length = 64 :=
    length_fixture Cli.length_sha256 _
  have hMl : (signedPair Cli.sha256 payload mlDsa65).2.length = 3309 :=
    length_fixture Cli.length_sha256 _
  have hEdShort : (signedPair Cli.sha256 payload ed25519).2.length ≤
      CoseLimits.default.cbor.maxStringBytes.toNat := hEd.trans_le (by decide)
  have hMlShort : (signedPair Cli.sha256 payload mlDsa65).2.length ≤
      CoseLimits.default.cbor.maxStringBytes.toNat := hMl.trans_le (by decide)
  have hDuplicate : twice.length ≤ 4 * 1024 * 1024 → Raises crates twice "invalid_algorithm" :=
    raises_second hEd (@parseSignature_other crates (-19) kid _ .mlDsa65 (by decide) (by decide)
      hEdShort) hTwice
  have hUnknownAlgorithm : unknown.length ≤ 4 * 1024 * 1024 →
      Raises crates unknown "invalid_algorithm" :=
    raises_second hEd (@parseSignature_other crates (-999) kid _ .mlDsa65 (by decide) (by decide)
      hMlShort) hUnknown
  have hReordered : swapped.length ≤ 4 * 1024 * 1024 → Raises crates swapped "invalid_algorithm" :=
    raises_of_parse (fun hFits => parseEnvelope_first hFits
      (@parseSignature_other crates (-49) kid _ .ed25519 (by decide) (by decide) hMlShort)) hSwapped
  have hMismatch : mixed.length ≤ 4 * 1024 * 1024 → Raises crates mixed "signature_invalid" :=
    raises_second hEd (@parseSignature_length crates "release-1" _ .mlDsa65 (by decide) (by decide)
      hEdShort (by rw [hEd]; decide)) hMixed
  have hKid : otherKid.length ≤ 4 * 1024 * 1024 → Raises crates otherKid "invalid_kid" :=
    fun hShort => raises_kid hDecode hKeys (by decide) (by decide) hEd hMl hOtherKidEnvelope hShort
  simp only [List.forall_mem_cons]
  exact ⟨rejected_cose (raises_count hNoEd), rejected_cose (raises_count hNoMl),
    rejected_cose hDuplicate, rejected_cose hUnknownAlgorithm, rejected_cose hReordered,
    rejected_cose hMismatch, rejected_cose hKid, List.forall_mem_nil _⟩

end Signatures

/-- An envelope of `build_positive` around another payload, with the signatures of the
first. -/
theorem mutated_content {other : Bytes}
    (h : mutatePayload (positiveOuter Cli.sha256 payload) other = .ok envelope)
    (hShort : envelope.length ≤ 4 * 1024 * 1024) : ∃ content : EnvelopeContent,
      envelope = content.octets ∧ content.Within .default ∧ content.payload = other ∧
      content.keyId = fun _ => "release-1" := by
  have hKeyId : "release-1" ≠ "" := by decide
  have hLengths (profile : Profile) := @length_fixture Cli.sha256 profile Cli.length_sha256
  rw [mutatePayload_eq] at h
  have hOctets := pairContent_octets hKeyId (hLengths ed25519 _) (hLengths mlDsa65 _) h
  rw [hOctets] at hShort
  refine ⟨_, hOctets, pairContent_within hKeyId _ _ hShort, rfl, funext fun algorithm => ?_⟩
  cases algorithm <;> rfl

/-- A descriptor that names another file is refused by the policy. -/
theorem raises_uri {first second : Dict} {name : String} {other : Bytes} (hRead : ReadAs manifest m)
    (hFramed : Framed manifest first second)
    (hName : ∀ algorithm ∈ baselineAlgorithms, name ≠ "/.well-known/keys/" ++ algorithm ++ ".pem")
    (hLong : (Utf8.encode name).length ≤ CborLimits.default.maxStringBytes.toNat)
    (hOther : cborEncode (.map (withFirst manifest
      (setItem (.text "public_key_uri") (.text name) first) second)) = .ok other)
    (h : mutatePayload (positiveOuter Cli.sha256 payload) other = .ok envelope)
    (hShort : envelope.length ≤ 4 * 1024 * 1024) :
    Raises crates envelope "manifest_policy_invalid" := by
  obtain ⟨content, rfl, hWithin, rfl, -⟩ := mutated_content h hShort
  obtain ⟨firstKey, secondKey, -, -, -, hSet⟩ := hRead.setFirst hFramed
  obtain ⟨error, hError, hCategory⟩ := (hSet name hLong).1.refused crates
    (not_valid_uri hName) hOther hWithin.payload
  exact ⟨.manifestCbor error, verifyManifestCose_of_decode hWithin hError _, hCategory⟩

/-- Another digest in the first descriptor is noticed before the signatures. -/
theorem raises_digest {first second : Dict} {digest : String} {other : Bytes}
    (hRead : ReadAs manifest m) (hLawful : m.Lawful crates)
    (hAdmitted : Admitted manifest first second) (hDigest : isLowerHex digest 64 = true)
    (hChanged : digest ≠ Cli.expectedSha .ed25519)
    (hLong : (Utf8.encode digest).length ≤ CborLimits.default.maxStringBytes.toNat)
    (hOther : cborEncode (.map (withFirst manifest
      (setItem (.text "public_key_sha256") (.text digest) first) second)) = .ok other)
    (h : mutatePayload (positiveOuter Cli.sha256 payload) other = .ok envelope)
    (hShort : envelope.length ≤ 4 * 1024 * 1024) :
    Raises crates envelope "key_binding_mismatch" := by
  obtain ⟨content, rfl, hWithin, rfl, hKeyIds⟩ := mutated_content h hShort
  obtain ⟨firstKey, secondKey, hKeys, hAlgorithm, hKeyId, hSet⟩ := hRead.setFirst hAdmitted.framed
  rw [hAdmitted.first.algorithm, Option.some.injEq, Item.text.injEq] at hAlgorithm
  rw [hAdmitted.first.keyId, Option.some.injEq, Item.text.injEq] at hKeyId
  have hAgain := lawful_sha256 hRead hLawful hKeys hDigest
  have hDecode := (hSet digest hLong).2.accepted hAgain hOther hWithin.payload
  have hValid := Manifest.validate_eq_ok.mp hAgain.valid
  have hEd : Describes (withKeys m [{ firstKey with publicKeySha256 := digest }, secondKey]) .ed25519
      { firstKey with publicKeySha256 := digest } :=
    hValid.describes List.mem_cons_self hAlgorithm.symm
  obtain ⟨mlKey, hMl⟩ := hValid.exists_describes (List.cons_ne_nil _ _) .mlDsa65
  have hDescribes (algorithm : CoseAlgorithm) :
      Describes (withKeys m [{ firstKey with publicKeySha256 := digest }, secondKey]) algorithm
        (CoseAlgorithm.select { firstKey with publicKeySha256 := digest } mlKey algorithm) := by
    cases algorithm with
    | ed25519 => exact hEd
    | mlDsa65 => exact hMl
  have hKid : ¬content.kid .ed25519 ≠ Utf8.encode firstKey.keyId := by
    rw [EnvelopeContent.kid, hKeyIds, hKeyId]
    exact not_not.mpr rfl
  have hBinding : Cli.validateFixtureBinding .ed25519
      { firstKey with publicKeySha256 := digest } = .error .keyBindingMismatch :=
    failIf_of (Or.inr (Or.inr (Or.inr (Or.inl hChanged)))) _
  refine ⟨.keyBindingMismatch, ?_, rfl⟩
  rw [verifyManifestCose, verifyManifestCose_content hWithin hDecode hDescribes, checkSigned, CoseAlgorithm.select,
    failIf_of_not hKid, ok_bind, Cli.conformanceFixtureVerifier]
  dsimp only
  rw [hBinding]
  rfl

/-- The vectors in which a descriptor is another one, by its URI or by its digest. -/
theorem descriptorVectors_rejected {sha256 : Bytes → Bytes} {first second : Dict}
    (hManifest : WellFormed (.map manifest)) (hAdmitted : Admitted manifest first second)
    (hBound : Bound ed25519 first) (hPayload : encodeManifest manifest = .ok payload)
    (hDecode : decodeManifestCbor crates payload .default = .ok m)
    (h : descriptorVectors sha256 manifest (positiveOuter Cli.sha256 payload) = .ok cases) :
    ∀ case ∈ cases, Rejected crates json case := by
  obtain ⟨hRead, hLawful⟩ := readAs_of_payload hManifest hPayload hDecode
  have hKeys : subscript (.map manifest) "keys" = .ok (.array [.map first, .map second]) :=
    subscript_map.mpr hAdmitted.framed.keys
  have hFirstKey : index (.array [.map first, .map second]) 0 = .ok (.map first) := rfl
  have hOld : subscript (.map first) "public_key_sha256" =
      .ok (.text (expectedSha256 ed25519.name)) :=
    subscript_map.mpr (hAdmitted.first.bound_iff.mp hBound).2
  have hNew : replaceDigit (.text (expectedSha256 ed25519.name)) = .ok (.text
      "0fe64728f1a7bb8c6c103f49c0e2ed0e999678229256c7aab813634cc6c85ba9") := rfl
  simp only [descriptorVectors, replaceDigest, hKeys, hFirstKey, hOld, hNew,
    setFirstKey_eq hAdmitted, ok_bind, bind_eq_ok, Except.ok.injEq] at h
  obtain ⟨other, hOther, uri, hUri, wrong, hWrong, digest, hDigest, rfl⟩ := h
  obtain ⟨-, hWrongEncoded⟩ := then_eq_ok.mp hWrong
  simp only [List.forall_mem_cons]
  exact ⟨rejected_cose (raises_uri hRead hAdmitted.framed (by decide) (by decide) hOther hUri),
    rejected_cose (raises_digest hRead hLawful hAdmitted (by decide) (by decide) (by decide)
      hWrongEncoded hDigest), List.forall_mem_nil _⟩

/-- The vectors in which one bit of a signature is another one. -/
theorem flippedVectors_rejected {sha256 : Bytes → Bytes}
    (hDecode : decodeManifestCbor crates payload .default = .ok m) (hKeys : FixtureKeys m)
    (h : flippedVectors sha256 payload (.bytes standardBody)
      (octetPair (signedPair Cli.sha256 payload ed25519))
      (octetPair (signedPair Cli.sha256 payload mlDsa65)) = .ok cases) :
    ∀ case ∈ cases, Rejected crates json case := by
  simp only [flippedVectors, bind_eq_ok, Except.ok.injEq] at h
  obtain ⟨_, hEdFlip, badEd, hBadEd, _, hMlFlip, badMl, hBadMl, rfl⟩ := h
  have hEdLength : (signedPair Cli.sha256 payload ed25519).2.length = 64 :=
    length_fixture Cli.length_sha256 _
  have hMlLength : (signedPair Cli.sha256 payload mlDsa65).2.length = 3309 :=
    length_fixture Cli.length_sha256 _
  obtain ⟨left, hLeftFlip, hLeftLength, hLeft⟩ := flipLast_bytes (by rw [hEdLength]; decide)
  obtain rfl := Except.ok.inj (hLeftFlip.symm.trans hEdFlip)
  obtain ⟨right, hRightFlip, hRightLength, hRight⟩ := flipLast_bytes (by rw [hMlLength]; decide)
  obtain rfl := Except.ok.inj (hRightFlip.symm.trans hMlFlip)
  have hEd : badEd.length ≤ 4 * 1024 * 1024 → Raises crates badEd "signature_invalid" :=
    raises_signature hDecode hKeys (hLeftLength.trans hEdLength) hMlLength hBadEd (Or.inl hLeft)
  have hMl : badMl.length ≤ 4 * 1024 * 1024 → Raises crates badMl "signature_invalid" :=
    raises_signature hDecode hKeys hEdLength (hRightLength.trans hMlLength) hBadMl (Or.inr hRight)
  simp only [List.forall_mem_cons]
  exact ⟨rejected_cose hEd, rejected_cose hMl, List.forall_mem_nil _⟩

/-- The CLI rejects every negative vector of a manifest whose positive vector it
accepts, as the vector demands; for the payload substitution this rests on a digest
that tells the payloads apart. -/
theorem validateBytes_negative (crates : Crates) (hStrict : crates.decoder.Strict)
    (json : Cli.FromSlice) (manifest : Dict) (corpus : Corpus) (m : Manifest)
    (hManifest : WellFormed (.map manifest))
    (hBuilt : buildCorpus Cli.sha256 manifest = .ok corpus)
    (hAccepted : ∃ octets, fromHex corpus.positive.coseHex = .ok octets ∧
      Cli.validateBytes crates json .cose octets = .ok m) :
    ∀ case ∈ corpus.negative, RenamingShows Cli.sha256 manifest ∨
      case.id ≠ "payload-substitution" → Rejected crates json case := by
  obtain ⟨payload, envelope, number, outer, negative, hPositive, hDecoded, hNegative, rfl⟩ :=
    buildCorpus_eq_ok.mp hBuilt
  obtain ⟨first, second, hAdmitted⟩ := admitted_of_buildPositive hManifest hPositive
  obtain ⟨hPayload, hEnvelope⟩ := (buildPositive_eq_ok hAdmitted).mp hPositive
  have hOuter := decode_cborEncode (wellFormed_envelopeItem _ _ _) hEnvelope
  rw [sorted_envelopeItem, hDecoded, Except.ok.injEq, envelopeItem, Item.tag.injEq] at hOuter
  obtain ⟨-, rfl⟩ := hOuter
  obtain ⟨octets, hOctets, hValid⟩ := hAccepted
  rw [corpusOf, fromHex_hexdigest, Except.ok.injEq] at hOctets
  obtain ⟨hDecode, hBound⟩ := (verifyManifestCose_positive hManifest hPositive).mp
    (validateBytes_cose.mp (hOctets ▸ hValid))
  have hKeys := ((readAs_of_payload hManifest hPayload hDecode).1.fixtureKeys_iff hAdmitted).mpr
    hBound
  obtain ⟨substituted, recombined, redescribed, flipped, hSubstituted, hRecombined, hRedescribed,
    hFlipped, rfl⟩ := negativeVectors_eq_ok hNegative
  have hSubstitutions : ∀ case ∈ substituted, RenamingShows Cli.sha256 manifest ∨
      case.id ≠ "payload-substitution" → Rejected crates json case :=
    substitutionVectors_rejected hManifest hPayload hDecode hKeys hSubstituted
  have hOthers : ∀ case ∈ manifestVectors Cli.sha256 payload ++
      (recombined ++ (redescribed ++ flipped)), Rejected crates json case := by
    simp only [List.forall_mem_append]
    exact ⟨manifestVectors_rejected hStrict hDecode,
      signatureVectors_rejected hDecode hKeys hRecombined,
      descriptorVectors_rejected hManifest hAdmitted (hAdmitted.keysBound_iff.mp hBound).1 hPayload
        hDecode hRedescribed,
      flippedVectors_rejected hDecode hKeys hFlipped⟩
  intro case hMem hShows
  simp only [corpusOf, List.mem_append] at hMem
  obtain hFirst | hSubstituted | hRest := hMem
  · exact hOthers case (List.mem_append_left _ hFirst)
  · exact hSubstitutions case hSubstituted hShows
  · apply hOthers case
    simp only [List.mem_append]
    exact Or.inr hRest

/-- The corpus of the sample, under the strict decoder. The digests of its two
payloads are computed, and differ. -/
theorem validateBytes_negative_sample : ∃ corpus,
    buildCorpus Cli.sha256 sampleDict = .ok corpus ∧
    ∀ case ∈ corpus.negative,
      Rejected { Crates.model with decoder := Minicbor.Decoder.strictModel } Cli.FromSlice.model
        case := by
  obtain ⟨corpus, hBuilt⟩ := exists_corpus_sample Cli.length_sha256
  obtain ⟨payload, envelope, _, _, _, hPositive, -, -, hCorpus⟩ := buildCorpus_eq_ok.mp hBuilt
  obtain ⟨first, second, hAdmitted⟩ :=
    admitted_of_buildPositive readable_sample.wellFormed hPositive
  obtain ⟨hPayload, -⟩ := (buildPositive_eq_ok hAdmitted).mp hPositive
  obtain rfl := Except.ok.inj (encodeManifest_sampleDict.symm.trans hPayload)
  have hVerified := (@verifyManifestCose_positive
    { Crates.model with decoder := Minicbor.Decoder.strictModel } _ .sample _ _
    readable_sample.wellFormed hPositive).mpr ⟨decodeManifestCbor_sample _, keysBound_sample⟩
  have hHex : fromHex corpus.positive.coseHex = .ok envelope := by
    rw [hCorpus, corpusOf, fromHex_hexdigest]
  exact ⟨corpus, hBuilt, fun case hMem => validateBytes_negative _
    Minicbor.Decoder.strict_strictModel _ _ corpus .sample readable_sample.wellFormed hBuilt
    ⟨envelope, hHex, validateBytes_cose.mpr hVerified⟩ case hMem (Or.inl renamingShows_sample)⟩

end Tfws.Vectors
