import Tfws.Agreement.Envelope
import Tfws.Core.CoseVerification

/-! The two conformance verifiers. Each accepts the envelopes with the fixture
over some payload; the reference implementation takes one more header. -/
namespace Tfws

open SerdeJson Fallible Cbor
open Python (Object Key Canonical Flags Runtime)

variable {crates : Crates} {runtime : Runtime}

/-- The fixture binds to a descriptor exactly if it is that of the fixture's key. -/
theorem validateFixtureBinding_eq_ok {algorithm : CoseAlgorithm} {key : KeyDescriptor} :
    Cli.validateFixtureBinding algorithm key = .ok () ↔
      key.algorithm = algorithm.tfwsIdentifier ∧ key.keyId = "release-1" ∧
        key.publicKeyUri = "/.well-known/keys/" ++ algorithm.tfwsIdentifier ++ ".pem" ∧
        key.publicKeySha256 = Cli.expectedSha algorithm ∧ key.status = "active" ∧
        key.usage = ["release"] := by
  rw [Cli.validateFixtureBinding, failIf_eq_ok]
  simp only [not_or, not_ne_iff]

/-- The descriptor of an algorithm is the only one in a valid manifest. -/
theorem Manifest.Valid.describes {manifest : Manifest} (hValid : manifest.Valid crates)
    {key : KeyDescriptor} (hMem : key ∈ manifest.keys) {algorithm : CoseAlgorithm}
    (hAlgorithm : key.algorithm = algorithm.tfwsIdentifier) : Describes manifest algorithm key := by
  obtain ⟨other, hOther⟩ := hValid.exists_describes (List.ne_nil_of_mem hMem) algorithm
  obtain ⟨hOtherMem, hOtherAlgorithm⟩ := hOther.mem
  obtain rfl := List.inj_on_of_nodup_map hValid.keys_nodup hMem hOtherMem
    (hAlgorithm.trans hOtherAlgorithm.symm)
  exact hOther

/-- What is signed with fixtures is the fixture envelope over its payload. -/
theorem octets_eq_fixtureEnvelope {content : EnvelopeContent}
    (hKeyId : ∀ algorithm, content.keyId algorithm = "release-1")
    (hSignature : ∀ algorithm, content.signature algorithm =
      Cli.fixtureSignature algorithm (content.message algorithm)) :
    content.octets = fixtureEnvelope (fun _ => false) content.payload := by
  have hHeader (algorithm : CoseAlgorithm) : content.protectedHeader algorithm =
      (signatureHeaderItem false algorithm).encode := by
    rw [EnvelopeContent.protectedHeader, EnvelopeContent.kid, hKeyId, signatureHeaderItem_false]
  have hEncoded : content.encoded = fixtureSigned (fun _ => false) content.payload := by
    funext algorithm
    have hSame := hSignature algorithm
    rw [EnvelopeContent.message, hHeader] at hSame
    rw [EnvelopeContent.encoded, hHeader, hSame]
    rfl
  rw [EnvelopeContent.octets, hEncoded]
  rfl

/-- The verifier of the CLI accepts a signature exactly when it is the fixture and the
descriptor that of the fixture's key. -/
theorem fixtureVerifier_eq_ok {algorithm : CoseAlgorithm} {key : KeyDescriptor}
    {message signature : Bytes} :
    Cli.conformanceFixtureVerifier.verify algorithm key message signature = .ok () ↔
      Cli.validateFixtureBinding algorithm key = .ok () ∧
        signature = Cli.fixtureSignature algorithm message := by
  rw [Cli.conformanceFixtureVerifier]
  exact then_eq_ok.trans (and_congr_right fun _ => failIf_eq_ok.trans not_ne_iff)

/-- What `tfws-cli` accepts: a fixture envelope with the plain headers, around a
manifest with the fixture's keys. -/
theorem verifyManifestCose_fixture_eq_ok {envelope : Bytes} {manifest : Manifest} :
    verifyManifestCose crates envelope Cli.conformanceFixtureVerifier = .ok manifest ↔
      envelope.length ≤ 8 * 1024 * 1024 ∧ ∃ payload,
        envelope = fixtureEnvelope (fun _ => false) payload ∧
        decodeManifestCbor crates payload .default = .ok manifest ∧ FixtureKeys manifest := by
  rw [verifyManifestCose, verifyManifestCoseWithLimits_eq_ok]
  constructor
  · rintro ⟨content, hWithin, rfl, hDecode, hSigned⟩
    have hVerified (algorithm : CoseAlgorithm) : content.keyId algorithm = "release-1" ∧
        content.signature algorithm =
          Cli.fixtureSignature algorithm (content.message algorithm) ∧
        ∃ key ∈ manifest.keys, key.algorithm = algorithm.tfwsIdentifier ∧
          key.keyId = "release-1" ∧ key.publicKeySha256 = Cli.expectedSha algorithm := by
      obtain ⟨key, hKey⟩ := hSigned algorithm
      obtain ⟨hBinding, hSignature⟩ := fixtureVerifier_eq_ok.mp hKey.verified
      obtain ⟨hAlgorithm, hKeyId, _, hSha256, _⟩ := validateFixtureBinding_eq_ok.mp hBinding
      exact ⟨hKey.keyId.trans hKeyId, hSignature, key, hKey.describes.mem.1, hAlgorithm, hKeyId,
        hSha256⟩
    exact ⟨hWithin.envelope, content.payload, octets_eq_fixtureEnvelope
      (fun algorithm => (hVerified algorithm).1) (fun algorithm => (hVerified algorithm).2.1),
      hDecode, fun algorithm => (hVerified algorithm).2.2⟩
  · rintro ⟨hShort, payload, rfl, hDecode, hKeys⟩
    have hValid : manifest.Valid crates := by
      obtain ⟨_, _, _, hLawful⟩ := decodeManifestCbor_eq_ok.mp hDecode
      exact Manifest.validate_eq_ok.mp hLawful.valid
    choose key hMem hAlgorithm hKeyId hSha256 using hKeys
    have hDescribes (algorithm : CoseAlgorithm) : Describes manifest algorithm (key algorithm) :=
      hValid.describes (hMem algorithm) (hAlgorithm algorithm)
    let signature := fun algorithm => (fixtureSigned (fun _ => false) payload algorithm).signature
    let content := contentOf payload key signature hDescribes fun _ => length_fixtureSignature _ _
    have hHeader (algorithm : CoseAlgorithm) : content.protectedHeader algorithm =
        (signatureHeaderItem false algorithm).encode := by
      rw [signatureHeaderItem_false, ← hKeyId algorithm]
      rfl
    have hSignature (algorithm : CoseAlgorithm) : content.signature algorithm =
        Cli.fixtureSignature algorithm (content.message algorithm) := by
      rw [EnvelopeContent.message, hHeader]
      rfl
    have hOctets : fixtureEnvelope (fun _ => false) payload = content.octets :=
      (@octets_eq_fixtureEnvelope content hKeyId hSignature).symm
    refine ⟨content, within_default hDecode (hOctets ▸ hShort) fun algorithm =>
      ⟨key algorithm, hDescribes algorithm, rfl⟩, hOctets, hDecode, fun algorithm =>
      ⟨key algorithm, hDescribes algorithm, rfl, ?_⟩⟩
    have hKey := hValid.keys _ (hMem algorithm)
    exact fixtureVerifier_eq_ok.mpr ⟨validateFixtureBinding_eq_ok.mpr ⟨hAlgorithm algorithm,
      hKeyId algorithm, hAlgorithm algorithm ▸ hKey.publicKeyUri, hSha256 algorithm, hKey.status,
      hKey.usage⟩, hSignature algorithm⟩

/-- A returned dictionary that stands for a manifest is the one of its document. -/
theorem eq_ofEntries_of_sameManifest {payload : Bytes} {manifest : Manifest}
    {entries : List (Key × Object)} (hPython : Python.decodeManifestCbor runtime payload = .ok entries)
    (hSame : SameManifest manifest entries) :
    entries = Object.ofEntries (SortedMap.present manifest.record) := by
  obtain ⟨value, _, _, _, _, hEntries⟩ := Python.decodeManifestCbor_eq_ok.mp hPython
  rw [SameManifest, hEntries, Object.toValue_ofValue value.ordered, Option.some.injEq] at hSame
  rw [hSame, Manifest.document, Object.ofValue_object_eq, Object.dict.injEq] at hEntries
  exact hEntries

/-- Octets that are an envelope around a payload, whatever its headers and signatures
are. -/
def Embeds (envelope payload : Bytes) : Prop :=
  ∃ bodyProtected bodyUnprotected signatures,
    Python.decodeCborDocument Flags.envelope envelope =
      .ok (.tag 98 (.list [bodyProtected, bodyUnprotected, .bytes payload, signatures]))

/-- Whatever one of the verifiers returns, the other one returns it, too. -/
structure ConformanceVerifiersAgree (crates : Crates) (runtime : Runtime) (envelope : Bytes) :
    Prop where
  rust : ∀ entries, Python.verifyManifestCoseConformance Cli.sha256 runtime envelope = .ok entries →
    ∃ manifest, verifyManifestCose crates envelope Cli.conformanceFixtureVerifier = .ok manifest ∧
      SameManifest manifest entries
  python : ∀ manifest,
    verifyManifestCose crates envelope Cli.conformanceFixtureVerifier = .ok manifest →
    ∃ entries, Python.verifyManifestCoseConformance Cli.sha256 runtime envelope = .ok entries ∧
      SameManifest manifest entries

/-- An envelope that would be accepted, were the label 1 not written as `true`
in the header of some signature. -/
def AliasedEnvelope (crates : Crates) (envelope : Bytes) : Prop :=
  ∃ aliased payload manifest, (∃ algorithm, aliased algorithm = true) ∧
    envelope = fixtureEnvelope aliased payload ∧
    decodeManifestCbor crates payload .default = .ok manifest ∧ FixtureKeys manifest

theorem decode_fixtureEnvelope {aliased : CoseAlgorithm → Bool} {payload : Bytes}
    (hShort : (fixtureEnvelope aliased payload).length ≤ Python.maxCborBytes)
    (hPayload : payload.length ≤ Python.maxCborStringBytes) :
    Python.decodeCborDocument Flags.envelope (fixtureEnvelope aliased payload) =
      .ok (envelopeObject aliased payload fun algorithm =>
        (fixtureSigned aliased payload algorithm).signature) := by
  refine Python.decodeCborDocument_eq_ok.mpr ⟨hShort,
    canonical_envelopeObject hPayload fun _ => length_fixtureSignature _ _, ?_⟩
  rw [envelopeObject_item]
  rfl

theorem length_payload_le (aliased : CoseAlgorithm → Bool) (payload : Bytes) :
    payload.length ≤ (fixtureEnvelope aliased payload).length := by
  simp only [fixtureEnvelope, envelopeItem, Item.encode, Item.encodeItems, List.length_append]
  omega

/-- The payload of a fixture envelope can be taken out again. -/
theorem embeds_fixtureEnvelope {aliased : CoseAlgorithm → Bool} {payload : Bytes}
    (hShort : (fixtureEnvelope aliased payload).length ≤ Python.maxCborBytes) :
    Embeds (fixtureEnvelope aliased payload) payload :=
  ⟨_, _, _, decode_fixtureEnvelope hShort ((length_payload_le aliased payload).trans hShort)⟩

/-- The two headers of a signature have different encodings, so that the octets tell
which one an envelope has. -/
theorem signatureHeaderItem_injective (algorithm : CoseAlgorithm) {first second : Bool}
    (h : (signatureHeaderItem first algorithm).encode =
      (signatureHeaderItem second algorithm).encode) : first = second := by
  revert h
  cases first <;> cases second <;> cases algorithm <;> decide

/-- An envelope determines its payload and which of its headers are aliased. -/
theorem fixtureEnvelope_injective {aliased aliased' : CoseAlgorithm → Bool} {payload payload' : Bytes}
    (h : fixtureEnvelope aliased payload = fixtureEnvelope aliased' payload')
    (hShort : (fixtureEnvelope aliased payload).length ≤ Python.maxCborBytes) :
    aliased = aliased' ∧ payload = payload' := by
  have hFirst := decode_fixtureEnvelope hShort ((length_payload_le aliased payload).trans hShort)
  have hSecond := decode_fixtureEnvelope (h ▸ hShort)
    ((length_payload_le aliased' payload').trans (h ▸ hShort))
  rw [h, hSecond, Except.ok.injEq] at hFirst
  simp only [envelopeObject, Object.tag.injEq, Object.list.injEq, List.cons.injEq,
    Object.bytes.injEq, requiredSignatures, List.map_cons, List.map_nil, entryObject] at hFirst
  obtain ⟨_, _, _, hPayload, ⟨⟨hEd, _⟩, ⟨hMl, _⟩, _⟩, _⟩ := hFirst
  refine ⟨funext fun algorithm => ?_, hPayload.symm⟩
  cases algorithm with
  | ed25519 => exact signatureHeaderItem_injective .ed25519 hEd.symm
  | mlDsa65 => exact signatureHeaderItem_injective .mlDsa65 hMl.symm

/-- Where the manifest decoders agree on the payload, the conformance verifiers agree
on the envelope exactly when no header of a signature has `true` for its label 1 in an
envelope that is a fixture otherwise. -/
theorem conformanceVerifiersAgree_iff (crates : Crates) (runtime : Runtime) (envelope : Bytes)
    (hShort : envelope.length ≤ 1048576)
    (hPayload : ∀ payload, Embeds envelope payload →
      ManifestDecodersAgree crates .default runtime payload) :
    ConformanceVerifiersAgree crates runtime envelope ↔ ¬AliasedEnvelope crates envelope := by
  have hBindings {aliased : CoseAlgorithm → Bool} {payload : Bytes} {manifest : Manifest}
      {entries : List (Key × Object)}
      (hDecode : decodeManifestCbor crates payload .default = .ok manifest)
      (hPython : Python.decodeManifestCbor runtime payload = .ok entries)
      (hSame : SameManifest manifest entries) :
      (∃ descriptors, Python.descriptorsOf entries = .ok descriptors ∧
        Python.validateBindings descriptors (requiredSignatures.map fun algorithm =>
          entryParsed (aliased algorithm) algorithm
            (fixtureSigned aliased payload algorithm).signature) = .ok ()) ↔
        FixtureKeys manifest := by
    obtain ⟨_, _, _, hLawful⟩ := decodeManifestCbor_eq_ok.mp hDecode
    rw [eq_ofEntries_of_sameManifest hPython hSame]
    exact validateBindings_eq_ok (Manifest.validate_eq_ok.mp hLawful.valid).keys_nodup
  constructor
  · rintro hAgree ⟨aliased, payload, manifest, ⟨algorithm, hAliased⟩, rfl, hDecode, hKeys⟩
    obtain ⟨entries, hPython, hSame⟩ := (hPayload payload (embeds_fixtureEnvelope hShort)).python
      manifest hDecode
    obtain ⟨_, hRust, _⟩ := hAgree.rust entries (Python.verifyManifestCoseConformance_eq_ok.mpr
      ⟨hShort, aliased, payload, rfl, hPython, (hBindings hDecode hPython hSame).mpr hKeys⟩)
    obtain ⟨_, _, hPlain, _⟩ := verifyManifestCose_fixture_eq_ok.mp hRust
    rw [(fixtureEnvelope_injective hPlain hShort).1] at hAliased
    cases hAliased
  · intro hPlain
    constructor
    · intro entries hEntries
      obtain ⟨_, aliased, payload, rfl, hPython, hKeys⟩ :=
        Python.verifyManifestCoseConformance_eq_ok.mp hEntries
      obtain ⟨manifest, hDecode, hSame⟩ := (hPayload payload (embeds_fixtureEnvelope hShort)).rust
        entries hPython
      have hFixture := (hBindings hDecode hPython hSame).mp hKeys
      have hAliased : aliased = fun _ => false := funext fun algorithm =>
        Bool.eq_false_iff.mpr fun hTrue =>
          hPlain ⟨aliased, payload, manifest, ⟨algorithm, hTrue⟩, rfl, hDecode, hFixture⟩
      subst hAliased
      exact ⟨manifest, verifyManifestCose_fixture_eq_ok.mpr ⟨hShort.trans (by decide), payload, rfl,
        hDecode, hFixture⟩, hSame⟩
    · intro manifest hManifest
      obtain ⟨_, payload, rfl, hDecode, hFixture⟩ := verifyManifestCose_fixture_eq_ok.mp hManifest
      obtain ⟨entries, hPython, hSame⟩ := (hPayload payload (embeds_fixtureEnvelope hShort)).python
        manifest hDecode
      exact ⟨entries, Python.verifyManifestCoseConformance_eq_ok.mpr ⟨hShort, _, payload, rfl, hPython,
        (hBindings hDecode hPython hSame).mpr hFixture⟩, hSame⟩

/-- The octets of the test vector, as the encoder writes them. -/
def samplePayload : Bytes := Manifest.sample.document.item.encode

theorem decode_samplePayload : decodeManifestCbor .model samplePayload .default = .ok .sample :=
  Manifest.lawful_sample.decode_document Manifest.encodes_sample

theorem fixtureKeys_sample : FixtureKeys .sample := by
  rintro (_ | _) <;> decide

/-- A fixture envelope is not much longer than its payload, so that both readers have
room for it. -/
theorem length_fixtureEnvelope_le (aliased : CoseAlgorithm → Bool) (payload : Bytes) :
    (fixtureEnvelope aliased payload).length ≤ payload.length + 4000 := by
  have hHead (n : Nat) : headLength n ≤ 9 := by
    rw [← length_head 0]
    exact length_head_le 0 n
  have hBody : bodyProtectedItem.encode.length ≤ 100 := by decide
  have hSigned (algorithm : CoseAlgorithm) :
      (signatureItem (fixtureSigned aliased payload algorithm)).encode.length ≤
        algorithm.expectedSignatureLen + 68 := by
    have hHeader := length_signatureHeader_le (aliased algorithm) algorithm
    have hSignature := length_fixtureSignature algorithm
      (fixtureMessage (aliased algorithm) payload algorithm)
    have hFirst := hHead (signatureHeaderItem (aliased algorithm) algorithm).encode.length
    have hSecond := hHead algorithm.expectedSignatureLen
    have hArray := hHead 3
    have hMap := hHead 0
    simp only [signatureItem, fixtureSigned, Item.encode, Item.encodeItems, Item.encodeEntries,
      List.length_append, length_head, List.length_cons, List.length_nil, hSignature,
      Nat.reduceAdd, Nat.add_zero]
    omega
  have hEd := hSigned .ed25519
  have hMl := hSigned .mlDsa65
  have hTag := hHead 98
  have hFour := hHead 4
  have hTwo := hHead 2
  have hZero := hHead 0
  have hPayload := hHead payload.length
  have hBodyHead := hHead bodyProtectedItem.encode.length
  simp only [CoseAlgorithm.expectedSignatureLen, ed25519SignatureBytes, mlDsa65SignatureBytes]
    at hEd hMl
  simp only [fixtureEnvelope, envelopeItem, requiredSignatures, Item.encode, Item.encodeItems,
    Item.encodeEntries, List.map_cons, List.map_nil, List.length_append, length_head,
    List.length_cons, List.length_nil, Nat.reduceAdd, Nat.add_zero]
  omega

theorem length_fixtureEnvelope_sample (aliased : CoseAlgorithm → Bool) :
    (fixtureEnvelope aliased samplePayload).length ≤ 1048576 := by
  have hPayload : samplePayload.length ≤ 32768 :=
    (Manifest.encodes_of_smallEntries Manifest.smallEntries_sample (.refl _)).short
  have hLength := length_fixtureEnvelope_le aliased samplePayload
  omega

theorem agree_on_samplePayload {aliased : CoseAlgorithm → Bool}
    (hShort : (fixtureEnvelope aliased samplePayload).length ≤ Python.maxCborBytes)
    {payload : Bytes} (h : Embeds (fixtureEnvelope aliased samplePayload) payload) :
    ManifestDecodersAgree .model .default .model payload := by
  obtain ⟨_, _, _, hDecode⟩ := h
  rw [decode_fixtureEnvelope hShort ((length_payload_le aliased samplePayload).trans hShort),
    Except.ok.injEq] at hDecode
  simp only [envelopeObject, Object.tag.injEq, Object.list.injEq, List.cons.injEq,
    Object.bytes.injEq] at hDecode
  obtain ⟨_, _, _, rfl, _⟩ := hDecode
  exact manifestDecodersAgree_of_lawful Manifest.lawful_sample Manifest.encodes_sample
    Manifest.encodes_python_sample fun _ => Draft.pythonDemands_sample

/-- The verifiers agree on the fixture envelope of the test vector, and accept it. -/
theorem conformanceVerifiersAgree_sample :
    ConformanceVerifiersAgree .model .model (fixtureEnvelope (fun _ => false) samplePayload) := by
  refine (conformanceVerifiersAgree_iff .model .model _ (length_fixtureEnvelope_sample _)
    fun _ => agree_on_samplePayload (length_fixtureEnvelope_sample _)).mpr ?_
  rintro ⟨aliased, payload, _, ⟨algorithm, hAliased⟩, hEnvelope, _⟩
  rw [← (fixtureEnvelope_injective hEnvelope (length_fixtureEnvelope_sample _)).1] at hAliased
  cases hAliased

/-- With `true` for the label 1, the envelope of the test vector is accepted by the
reference implementation alone, though the decoders agree on its payload. -/
theorem conformanceVerifiers_disagree_aliased :
    (fixtureEnvelope (fun _ => true) samplePayload).length ≤ 1048576 ∧
    (∀ payload, Embeds (fixtureEnvelope (fun _ => true) samplePayload) payload →
      ManifestDecodersAgree .model .default .model payload) ∧
    ¬ConformanceVerifiersAgree .model .model (fixtureEnvelope (fun _ => true) samplePayload) := by
  have hShort := length_fixtureEnvelope_sample fun _ => true
  refine ⟨hShort, fun _ => agree_on_samplePayload hShort, fun hAgree => ?_⟩
  have hDecoders := agree_on_samplePayload hShort (embeds_fixtureEnvelope hShort)
  obtain ⟨entries, hPython, hSame⟩ := hDecoders.python _ decode_samplePayload
  have hNodup : (Manifest.sample.keys.map KeyDescriptor.algorithm).Nodup := by decide
  have hKeys := eq_ofEntries_of_sameManifest hPython hSame
  have hBindings : ∃ descriptors, Python.descriptorsOf entries = .ok descriptors ∧
      Python.validateBindings descriptors (requiredSignatures.map fun algorithm =>
        entryParsed true algorithm
          (fixtureSigned (fun _ => true) samplePayload algorithm).signature) = .ok () :=
    hKeys ▸ (validateBindings_eq_ok hNodup).mpr fixtureKeys_sample
  obtain ⟨_, hRust, _⟩ := hAgree.rust entries (Python.verifyManifestCoseConformance_eq_ok.mpr
    ⟨hShort, fun _ => true, samplePayload, rfl, hPython, hBindings⟩)
  obtain ⟨_, _, hPlain, _⟩ := verifyManifestCose_fixture_eq_ok.mp hRust
  have hAliased := congrFun (fixtureEnvelope_injective hPlain hShort).1 .ed25519
  cases hAliased

end Tfws
