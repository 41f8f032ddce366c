import Tfws.Core.CborManifest
import Tfws.Core.CoseParsing
import Tfws.Core.DocumentLength

/-! Verification accepts exactly the envelopes that the profile describes, and
accepts what signing produces. -/
namespace Tfws

open SerdeJson Fallible Cbor

variable {crates : Crates} {limits : CoseLimits}

/-- The one descriptor of a manifest for an algorithm: there is no second one, and its
identifier is not empty. -/
structure Describes (manifest : Manifest) (algorithm : CoseAlgorithm) (key : KeyDescriptor) :
    Prop where
  unique : manifest.keys.filter (fun other => other.algorithm = algorithm.tfwsIdentifier) = [key]
  keyId_ne : key.keyId ≠ ""

/-- The key described is one of the manifest's. -/
theorem Describes.mem {manifest : Manifest} {algorithm : CoseAlgorithm} {key : KeyDescriptor}
    (h : Describes manifest algorithm key) :
    key ∈ manifest.keys ∧ key.algorithm = algorithm.tfwsIdentifier := by
  have hMem : key ∈ manifest.keys.filter
      (fun other => other.algorithm = algorithm.tfwsIdentifier) := by
    rw [h.unique]
    exact List.mem_singleton.mpr rfl
  simpa using hMem

/-- The search returns the key that the algorithm describes, and fails where there is
none. -/
theorem descriptorFor_eq_ok {manifest : Manifest} {algorithm : CoseAlgorithm}
    {key : KeyDescriptor} :
    descriptorFor manifest algorithm = .ok key ↔ Describes manifest algorithm key := by
  unfold descriptorFor
  split
  · rename_i descriptor hFilter
    rw [then_eq_ok, failIf_eq_ok, Except.ok.injEq]
    constructor
    · rintro ⟨hKeyId, rfl⟩
      exact ⟨hFilter, hKeyId⟩
    · intro h
      obtain rfl : descriptor = key := by simpa [hFilter] using h.unique
      exact ⟨h.keyId_ne, rfl⟩
  · rename_i hFilter
    exact ⟨nofun, fun h => absurd h.unique (hFilter key)⟩

/-- The policy leaves exactly one usable key for each algorithm, unless there are no
keys at all. -/
theorem Manifest.Valid.exists_describes {manifest : Manifest} (h : manifest.Valid crates)
    (hKeys : manifest.keys ≠ []) (algorithm : CoseAlgorithm) :
    ∃ key, Describes manifest algorithm key := by
  obtain ⟨first, second, hBoth⟩ := List.length_eq_two.mp (h.bound hKeys)
  have hNodup := h.keys_nodup
  have hValid := h.keys
  rw [hBoth] at hNodup hValid
  simp only [List.map_cons, List.map_nil, List.nodup_cons, List.mem_singleton] at hNodup
  have hKeyId {key : KeyDescriptor} (hKey : key.Valid) : key.keyId ≠ "" := by
    intro hEmpty
    have hText := hKey.keyId
    rw [hEmpty] at hText
    cases hText
  obtain ⟨hFirst, hSecond⟩ : first.Valid ∧ second.Valid := by simpa using hValid
  have hFirstAlgorithm := hFirst.algorithm
  have hSecondAlgorithm := hSecond.algorithm
  simp only [baselineAlgorithms, List.mem_cons, List.not_mem_nil,
    or_false] at hFirstAlgorithm hSecondAlgorithm
  have hDistinct : first.algorithm ≠ second.algorithm := hNodup.1
  -- Two distinct algorithms out of two: each descriptor has its own.
  rcases hFirstAlgorithm with hOne | hOne <;> rcases hSecondAlgorithm with hTwo | hTwo
  · exact absurd (hOne.trans hTwo.symm) hDistinct
  · cases algorithm with
    | ed25519 =>
        exact ⟨first, by simp [hBoth, hOne, hTwo, CoseAlgorithm.tfwsIdentifier], hKeyId hFirst⟩
    | mlDsa65 =>
        exact ⟨second, by simp [hBoth, hOne, hTwo, CoseAlgorithm.tfwsIdentifier], hKeyId hSecond⟩
  · cases algorithm with
    | ed25519 =>
        exact ⟨second, by simp [hBoth, hOne, hTwo, CoseAlgorithm.tfwsIdentifier], hKeyId hSecond⟩
    | mlDsa65 =>
        exact ⟨first, by simp [hBoth, hOne, hTwo, CoseAlgorithm.tfwsIdentifier], hKeyId hFirst⟩
  · exact absurd (hOne.trans hTwo.symm) hDistinct

/-- The protected header of a signature is no longer than the manifest: both contain
the key identifier, and the manifest a key fingerprint besides. -/
theorem length_protectedHeader_le {cborLimits : CborLimits} {payload : Bytes} {manifest : Manifest}
    (h : decodeManifestCbor crates payload cborLimits = .ok manifest) {key : KeyDescriptor}
    (hKey : key ∈ manifest.keys) (algorithm : CoseAlgorithm) :
    (signatureProtectedItem algorithm (Utf8.encode key.keyId)).encode.length ≤ payload.length := by
  obtain ⟨value, hEncodes, hRead, hLawful⟩ := decodeManifestCbor_eq_ok.mp h
  have hValid := (Manifest.validate_eq_ok.mp hLawful.valid).keys key hKey
  have hSha256 : (Utf8.encode key.publicKeySha256).length = 64 := by
    have hHex := hValid.publicKeySha256
    simp only [isLowerHex, Bool.and_eq_true, decide_eq_true_eq] at hHex
    exact hHex.1
  have hHeader := length_signatureProtected_le algorithm (Utf8.encode key.keyId)
  have hDocument := Manifest.key_length_le hRead hKey
  rw [hEncodes.deterministic.2.2, Value.length_encode_item]
  unfold textLength at hDocument
  omega

/-- The octets that a signature of an envelope covers, payload and both headers. -/
def EnvelopeContent.message (content : EnvelopeContent) (algorithm : CoseAlgorithm) : Bytes :=
  (sigStructureItem bodyProtectedItem.encode (content.protectedHeader algorithm)
    content.payload).encode

theorem EnvelopeContent.Short.encodeSigStructure_eq {content : EnvelopeContent}
    (h : content.Short) (algorithm : CoseAlgorithm) :
    encodeSigStructure crates bodyProtectedItem.encode (content.protectedHeader algorithm)
      content.payload = .ok (content.message algorithm) :=
  Tfws.encodeSigStructure_eq (by decide) (h.protectedHeader algorithm) h.payload

/-- The header for a key with the key identifier of the content is that of the
content. -/
theorem EnvelopeContent.Short.encodeSignatureProtected_eq {content : EnvelopeContent}
    (h : content.Short) {algorithm : CoseAlgorithm} {key : KeyDescriptor}
    (hKeyId : content.keyId algorithm = key.keyId) :
    encodeSignatureProtected crates algorithm (Utf8.encode key.keyId) =
      .ok (content.protectedHeader algorithm) := by
  rw [← hKeyId]
  exact Tfws.encodeSignatureProtected_eq algorithm
    ((kid_length_le algorithm _).trans_lt (h.protectedHeader algorithm))

theorem EnvelopeContent.Within.short {content : EnvelopeContent} (h : content.Within limits) :
    content.Short :=
  ⟨h.payload.trans_lt (limit_lt _),
    fun algorithm => (h.protectedHeader algorithm).trans_lt (limit_lt _)⟩

/-- One signature of the content stands up to the verifier, under the descriptor of
its algorithm. -/
structure EnvelopeContent.Signed (content : EnvelopeContent) (verifier : CoseVerifier)
    (manifest : Manifest) (algorithm : CoseAlgorithm) (key : KeyDescriptor) : Prop where
  describes : Describes manifest algorithm key
  keyId : content.keyId algorithm = key.keyId
  verified : verifier.verify algorithm key (content.message algorithm)
    (content.signature algorithm) = .ok ()

/-- The loop ends well exactly if every algorithm demanded has signed, under the key
that the manifest describes for it. -/
theorem verifyAll_eq_ok {verifier : CoseVerifier} {manifest : Manifest}
    {content : EnvelopeContent} (hShort : content.Short) {algorithms : List CoseAlgorithm} :
    verifyAll crates verifier manifest bodyProtectedItem.encode content.payload
        ((algorithms.map content.parsed).zip algorithms) = .ok () ↔
      ∀ algorithm ∈ algorithms, ∃ key, content.Signed verifier manifest algorithm key := by
  induction algorithms with
  | nil => simp [verifyAll]
  | cons algorithm algorithms ih =>
      rw [List.map_cons, List.zip_cons_cons, verifyAll, List.forall_mem_cons]
      have hAlgorithm : (content.parsed algorithm).algorithm = algorithm := rfl
      have hHeader : (content.parsed algorithm).protectedHeader =
          content.protectedHeader algorithm := rfl
      have hKid : (content.parsed algorithm).kid = Utf8.encode (content.keyId algorithm) := rfl
      have hSignature : (content.parsed algorithm).signature = content.signature algorithm := rfl
      simp only [hAlgorithm, hHeader, hKid, hSignature, failIf_ne_self, ok_bind, bind_eq_ok,
        descriptorFor_eq_ok, hShort.encodeSigStructure_eq, failIf_eq_ok, not_not,
        mapError_eq_ok, ih]
      constructor
      · rintro ⟨key, hDescribes, _, hKeyId, _, hVerified, hRest⟩
        exact ⟨⟨key, hDescribes, Utf8.encode_injective hKeyId, hVerified⟩, hRest⟩
      · rintro ⟨⟨key, hDescribes, hKeyId, hVerified⟩, hRest⟩
        exact ⟨key, hDescribes, (), by rw [hKeyId], (), hVerified, hRest⟩

/-- Behind the parser, verification is the decoding of the payload and one check for
each algorithm. -/
theorem verify_of_parseEnvelope {envelope : Bytes} {verifier : CoseVerifier}
    {content : EnvelopeContent} (hShort : content.Short)
    (hParse : parseEnvelope crates envelope limits = .ok content.parsedEnvelope)
    {manifest : Manifest} :
    verifyManifestCoseWithLimits crates envelope verifier limits = .ok manifest ↔
      decodeManifestCbor crates content.payload limits.cbor = .ok manifest ∧
        ∀ algorithm, ∃ key, content.Signed verifier manifest algorithm key := by
  have hAll : verifyAll crates verifier manifest bodyProtectedItem.encode content.payload
      ((requiredSignatures.map content.parsed).zip requiredSignatures) = .ok () ↔
        ∀ algorithm, ∃ key, content.Signed verifier manifest algorithm key := by
    rw [verifyAll_eq_ok hShort]
    exact ⟨fun h algorithm => h algorithm (by cases algorithm <;> decide),
      fun h algorithm _ => h algorithm⟩
  rw [verifyManifestCoseWithLimits, hParse, ok_bind, bind_eq_ok]
  constructor
  · rintro ⟨decoded, hDecoded, h⟩
    obtain ⟨_, h⟩ := then_eq_ok.mp h
    obtain ⟨hVerified, hManifest⟩ := then_eq_ok.mp h
    obtain rfl := Except.ok.inj hManifest
    exact ⟨mapError_eq_ok.mp hDecoded, hAll.mp hVerified⟩
  · rintro ⟨hDecoded, hSigned⟩
    refine ⟨manifest, mapError_eq_ok.mpr hDecoded, ?_⟩
    exact then_eq_ok.mpr ⟨failIf_of_not (not_not.mpr rfl) _,
      then_eq_ok.mpr ⟨hAll.mpr hSigned, rfl⟩⟩

/-- Verification under any limits: an envelope within them, a payload that decodes,
and both signatures. -/
theorem verifyManifestCoseWithLimits_eq_ok {envelope : Bytes} {verifier : CoseVerifier}
    {manifest : Manifest} :
    verifyManifestCoseWithLimits crates envelope verifier limits = .ok manifest ↔
      ∃ content : EnvelopeContent, content.Within limits ∧ envelope = content.octets ∧
        decodeManifestCbor crates content.payload limits.cbor = .ok manifest ∧
        ∀ algorithm, ∃ key, content.Signed verifier manifest algorithm key := by
  constructor
  · intro h
    obtain ⟨parsed, hParsed, _⟩ := bind_eq_ok.mp h
    obtain ⟨content, hWithin, rfl, rfl⟩ := parseEnvelope_eq_ok.mp hParsed
    exact ⟨content, hWithin, rfl, (verify_of_parseEnvelope hWithin.short hParsed).mp h⟩
  · rintro ⟨content, hWithin, rfl, h⟩
    have hParse : parseEnvelope crates content.octets limits = .ok content.parsedEnvelope :=
      parseEnvelope_eq_ok.mpr ⟨content, hWithin, rfl, rfl⟩
    exact (verify_of_parseEnvelope hWithin.short hParse).mpr h

theorem Describes.length_protectedHeader {manifest : Manifest} {algorithm : CoseAlgorithm}
    {key : KeyDescriptor} (h : Describes manifest algorithm key) {cborLimits : CborLimits}
    {payload : Bytes} (hDecode : decodeManifestCbor crates payload cborLimits = .ok manifest) :
    (signatureProtectedItem algorithm (Utf8.encode key.keyId)).encode.length ≤ payload.length :=
  length_protectedHeader_le hDecode h.mem.1 algorithm

/-- A payload that decodes is within the limit on manifests, which the decoder checks
first. -/
theorem length_le_of_decodeManifestCbor {cborLimits : CborLimits} {payload : Bytes}
    {manifest : Manifest} (h : decodeManifestCbor crates payload cborLimits = .ok manifest) :
    payload.length ≤ cborLimits.maxManifestBytes.toNat := by
  obtain ⟨_, hEncodes, _⟩ := decodeManifestCbor_eq_ok.mp h
  exact hEncodes.short

/-- Two usable keys and two signatures over a payload make a content: what signing
assembles. -/
def contentOf {manifest : Manifest} (payload : Bytes) (key : CoseAlgorithm → KeyDescriptor)
    (signature : CoseAlgorithm → Bytes)
    (hKeys : ∀ algorithm, Describes manifest algorithm (key algorithm))
    (hLengths : ∀ algorithm,
      (signature algorithm).length = algorithm.expectedSignatureLen) : EnvelopeContent where
  payload := payload
  keyId algorithm := (key algorithm).keyId
  signature := signature
  keyId_ne algorithm := (hKeys algorithm).keyId_ne
  signature_length := hLengths

/-- The headers of a content are no longer than a payload with their keys. -/
theorem length_header_le_payload {content : EnvelopeContent} {manifest : Manifest}
    {cborLimits : CborLimits}
    (hDecode : decodeManifestCbor crates content.payload cborLimits = .ok manifest)
    (hKeys : ∀ algorithm, ∃ key, Describes manifest algorithm key ∧
      content.keyId algorithm = key.keyId) (algorithm : CoseAlgorithm) :
    (content.protectedHeader algorithm).length ≤ content.payload.length := by
  obtain ⟨key, hDescribes, hKeyId⟩ := hKeys algorithm
  rw [EnvelopeContent.protectedHeader, EnvelopeContent.kid, hKeyId]
  exact hDescribes.length_protectedHeader hDecode

theorem short_of_describes {content : EnvelopeContent} {manifest : Manifest}
    {cborLimits : CborLimits}
    (hDecode : decodeManifestCbor crates content.payload cborLimits = .ok manifest)
    (hKeys : ∀ algorithm, ∃ key, Describes manifest algorithm key ∧
      content.keyId algorithm = key.keyId) : content.Short where
  payload := (length_le_of_decodeManifestCbor hDecode).trans_lt (limit_lt _)
  protectedHeader algorithm := (length_header_le_payload hDecode hKeys algorithm).trans_lt
    ((length_le_of_decodeManifestCbor hDecode).trans_lt (limit_lt _))

/-- The default limits leave room for every header of a manifest within them, so that
only the length of the envelope is left to be asked for. -/
theorem within_default {content : EnvelopeContent} {manifest : Manifest}
    (hDecode : decodeManifestCbor crates content.payload .default = .ok manifest)
    (hEnvelope : content.octets.length ≤ CoseLimits.default.maxEnvelopeBytes.toNat)
    (hKeys : ∀ algorithm, ∃ key, Describes manifest algorithm key ∧
      content.keyId algorithm = key.keyId) : content.Within .default where
  depth := by decide
  arrayItems := by decide
  mapPairs := by decide
  envelope := hEnvelope
  body := by decide
  payload := length_le_of_decodeManifestCbor hDecode
  protectedHeader algorithm := (length_header_le_payload hDecode hKeys algorithm).trans
    (length_le_of_decodeManifestCbor hDecode)
  signature algorithm := by
      rw [content.signature_length]
      cases algorithm <;> decide

theorem Describes.keys_ne_nil {manifest : Manifest} {algorithm : CoseAlgorithm}
    {key : KeyDescriptor} (h : Describes manifest algorithm key) :
    manifest.keys ≠ [] := by
  intro hEmpty
  have hMem := h.mem.1
  rw [hEmpty] at hMem
  cases hMem

/-- Keys of a decoded manifest are usable: the only one for its algorithm is the one
that the algorithm describes. -/
theorem describes_of_filter_eq {manifest : Manifest} {cborLimits : CborLimits} {payload : Bytes}
    (hDecode : decodeManifestCbor crates payload cborLimits = .ok manifest)
    (hKeys : manifest.keys ≠ []) {algorithm : CoseAlgorithm} {key : KeyDescriptor}
    (hUnique : manifest.keys.filter
      (fun other => other.algorithm = algorithm.tfwsIdentifier) = [key]) :
    Describes manifest algorithm key := by
  obtain ⟨_, _, _, hLawful⟩ := decodeManifestCbor_eq_ok.mp hDecode
  have hValid : manifest.Valid crates := Manifest.validate_eq_ok.mp hLawful.valid
  obtain ⟨other, hOther⟩ := hValid.exists_describes hKeys algorithm
  obtain rfl : other = key := by simpa [hUnique] using hOther.unique.symm
  exact hOther

/-- Exact acceptance: under the default limits the verifier returns a manifest
exactly for the one envelope that the encoder writes for a payload that decodes
to it, headers that name its two keys, and two signatures of the fixed lengths
over that payload which stand up to `verifier`. -/
theorem verifyManifestCose_eq_ok (crates : Crates) (envelope : Bytes) (verifier : CoseVerifier)
    (manifest : Manifest) :
    verifyManifestCose crates envelope verifier = .ok manifest ↔
      envelope.length ≤ 8 * 1024 * 1024 ∧
      ∃ payload edSignature mlSignature edKey mlKey body edHeader mlHeader edMessage mlMessage,
        decodeManifestCbor crates payload .default = .ok manifest ∧
        manifest.keys ≠ [] ∧
        manifest.keys.filter (fun key => key.algorithm = "ed25519") = [edKey] ∧
        manifest.keys.filter (fun key => key.algorithm = "ml-dsa-65") = [mlKey] ∧
        encodeBodyProtected crates = .ok body ∧
        encodeSignatureProtected crates .ed25519 (Utf8.encode edKey.keyId) = .ok edHeader ∧
        encodeSignatureProtected crates .mlDsa65 (Utf8.encode mlKey.keyId) = .ok mlHeader ∧
        encodeEnvelope crates body payload
          [⟨edHeader, edSignature⟩, ⟨mlHeader, mlSignature⟩] = .ok envelope ∧
        edSignature.length = 64 ∧ mlSignature.length = 3309 ∧
        encodeSigStructure crates body edHeader payload = .ok edMessage ∧
        encodeSigStructure crates body mlHeader payload = .ok mlMessage ∧
        verifier.verify .ed25519 edKey edMessage edSignature = .ok () ∧
        verifier.verify .mlDsa65 mlKey mlMessage mlSignature = .ok () := by
  rw [verifyManifestCose, verifyManifestCoseWithLimits_eq_ok]
  constructor
  · rintro ⟨content, hWithin, rfl, hDecode, hSigned⟩
    obtain ⟨edKey, hEd⟩ := hSigned .ed25519
    obtain ⟨mlKey, hMl⟩ := hSigned .mlDsa65
    have hShort := hWithin.short
    exact ⟨hWithin.envelope, content.payload, content.signature .ed25519,
      content.signature .mlDsa65, edKey, mlKey, _, _, _, _, _, hDecode,
      hEd.describes.keys_ne_nil, hEd.describes.unique, hMl.describes.unique,
      encodeBodyProtected_eq, hShort.encodeSignatureProtected_eq hEd.keyId,
      hShort.encodeSignatureProtected_eq hMl.keyId, hShort.encodeEnvelope_eq_ok.mpr rfl,
      content.signature_length .ed25519, content.signature_length .mlDsa65,
      hShort.encodeSigStructure_eq .ed25519, hShort.encodeSigStructure_eq .mlDsa65,
      hEd.verified, hMl.verified⟩
  · rintro ⟨hLength, payload, edSignature, mlSignature, edKey, mlKey, body, edHeader, mlHeader,
      edMessage, mlMessage, hDecode, hKeys, hEdUnique, hMlUnique, hBody, hEdHeader, hMlHeader,
      hEnvelope, hEdLength, hMlLength, hEdMessage, hMlMessage, hEdVerified, hMlVerified⟩
    have hDescribes : ∀ algorithm, Describes manifest algorithm
        (CoseAlgorithm.select edKey mlKey algorithm) := by
      rintro (_ | _)
      · exact describes_of_filter_eq hDecode hKeys hEdUnique
      · exact describes_of_filter_eq hDecode hKeys hMlUnique
    have hLengths : ∀ algorithm, (CoseAlgorithm.select edSignature mlSignature algorithm).length =
        algorithm.expectedSignatureLen := by
      rintro (_ | _)
      · exact hEdLength
      · exact hMlLength
    let content : EnvelopeContent := contentOf payload (CoseAlgorithm.select edKey mlKey)
      (CoseAlgorithm.select edSignature mlSignature) hDescribes hLengths
    have hUsable (algorithm : CoseAlgorithm) : ∃ key, Describes manifest algorithm key ∧
        content.keyId algorithm = key.keyId := ⟨_, hDescribes algorithm, rfl⟩
    have hShort : content.Short := short_of_describes hDecode hUsable
    -- The encodings are those of the content.
    obtain rfl := Except.ok.inj (encodeBodyProtected_eq.symm.trans hBody)
    have hEdKeyId : content.keyId .ed25519 = edKey.keyId := rfl
    have hMlKeyId : content.keyId .mlDsa65 = mlKey.keyId := rfl
    obtain rfl := Except.ok.inj
      ((hShort.encodeSignatureProtected_eq hEdKeyId).symm.trans hEdHeader)
    obtain rfl := Except.ok.inj
      ((hShort.encodeSignatureProtected_eq hMlKeyId).symm.trans hMlHeader)
    obtain rfl := Except.ok.inj ((hShort.encodeSigStructure_eq .ed25519).symm.trans hEdMessage)
    obtain rfl := Except.ok.inj ((hShort.encodeSigStructure_eq .mlDsa65).symm.trans hMlMessage)
    have hOctets : envelope = content.octets := hShort.encodeEnvelope_eq_ok.mp hEnvelope
    refine ⟨content, within_default hDecode (hOctets ▸ hLength) hUsable, hOctets, hDecode, ?_⟩
    rintro (_ | _)
    · exact ⟨edKey, hDescribes .ed25519, hEdKeyId, hEdVerified⟩
    · exact ⟨mlKey, hDescribes .mlDsa65, hMlKeyId, hMlVerified⟩

/-- What the signer puts into an envelope: for each algorithm its descriptor's
key identifier and the signature over its own message. -/
structure EnvelopeContent.SignedBy (content : EnvelopeContent) (signer : CoseSigner)
    (manifest : Manifest) (algorithm : CoseAlgorithm) (key : KeyDescriptor) : Prop where
  describes : Describes manifest algorithm key
  keyId : content.keyId algorithm = key.keyId
  signed : signer.sign algorithm key (content.message algorithm) =
    .ok (content.signature algorithm)

/-- Signing with every algorithm gives the signatures of the content, or exceeds a
limit. -/
theorem signAll_outcome {signer : CoseSigner} {manifest : Manifest} {content : EnvelopeContent}
    (hShort : content.Short)
    (hSigned : ∀ algorithm, ∃ key, content.SignedBy signer manifest algorithm key)
    (algorithms : List CoseAlgorithm) :
    Outcome (signAll crates signer limits manifest bodyProtectedItem.encode content.payload
        algorithms) (· = algorithms.map content.encoded) (OverLimit (content.Within limits)) := by
  induction algorithms with
  | nil => rfl
  | cons algorithm algorithms ih =>
      obtain ⟨key, hKey⟩ := hSigned algorithm
      have hHeader := @EnvelopeContent.Short.encodeSignatureProtected_eq crates _ hShort _ _
        hKey.keyId
      have hLength := content.signature_length algorithm
      rw [signAll, descriptorFor_eq_ok.mpr hKey.describes]
      simp only [ok_bind, hHeader, hShort.encodeSigStructure_eq, hKey.signed, mapError_ok,
        validateSignatureLength, hLength, failIf_ne_self]
      refine Outcome.check (fun hLong => ?_) fun _ => ih.bind fun signatures hSignatures => ?_
      · refine ⟨⟨_, rfl⟩, fun hWithin => ?_⟩
        exact absurd (hLength ▸ hWithin.signature algorithm) (not_le.mpr hLong)
      rw [hSignatures]
      rfl

/-- Signing returns the envelope of the content within the limits, or some limit is
exceeded. -/
theorem signManifestCoseWithLimits_outcome {signer : CoseSigner} {manifest : Manifest}
    {content : EnvelopeContent} (hShort : content.Short)
    (hPayload : encodeManifestCborWithLimits crates manifest limits.cbor = .ok content.payload)
    (hSigned : ∀ algorithm, ∃ key, content.SignedBy signer manifest algorithm key) :
    Outcome (signManifestCoseWithLimits crates manifest signer limits)
      (fun envelope => envelope = content.octets ∧
        parseEnvelope crates envelope limits = .ok content.parsedEnvelope)
      (OverLimit (content.Within limits)) := by
  refine (validateFixedShapeLimits_outcome fun name hNot => ⟨⟨name, rfl⟩, fun hWithin => hNot
    ⟨hWithin.depth, hWithin.arrayItems, hWithin.mapPairs⟩⟩).bind fun _ _ => ?_
  rw [hPayload, mapError_ok, ok_bind, encodeBodyProtected_eq, ok_bind]
  refine (signAll_outcome hShort hSigned requiredSignatures).bind fun signatures hSignatures => ?_
  rw [hSignatures, hShort.encodeEnvelope_eq_ok.mpr rfl, ok_bind]
  refine Outcome.check (fun hLong => ⟨⟨_, rfl⟩, fun hWithin =>
    absurd hWithin.envelope (not_le.mpr hLong)⟩) fun _ => ?_
  have hParse : Outcome (parseEnvelope crates content.octets limits)
      (· = content.parsedEnvelope) (OverLimit (content.Within limits)) :=
    parseEnvelope_outcome hShort id
  cases hResult : parseEnvelope crates content.octets limits with
  | error error => exact hParse.of_error hResult
  | ok parsed => exact ⟨rfl, hResult.trans (congrArg Except.ok (hParse.of_ok hResult))⟩

/-- A signer that answers every descriptor of the manifest with a signature of the
profile's length. -/
def CoseSigner.Signs (signer : CoseSigner) (manifest : Manifest) : Prop :=
  ∀ algorithm, ∀ key ∈ manifest.keys, key.algorithm = algorithm.tfwsIdentifier →
    ∀ message, ∃ signature, signer.sign algorithm key message = .ok signature ∧
      signature.length = algorithm.expectedSignatureLen

/-- Each algorithm has one descriptor, so the payload and the signer determine what
the envelope of a manifest carries. -/
theorem exists_signedContent {signer : CoseSigner} {manifest : Manifest} {payload : Bytes}
    (hKeys : manifest.keys ≠ []) (hSigner : signer.Signs manifest)
    (hPayload : encodeManifestCborWithLimits crates manifest limits.cbor = .ok payload) :
    ∃ content : EnvelopeContent, content.payload = payload ∧
      decodeManifestCbor crates content.payload limits.cbor = .ok manifest ∧
      ∀ algorithm, ∃ key, content.SignedBy signer manifest algorithm key := by
  obtain ⟨hLawful, hEncodes⟩ := encodeManifestCborWithLimits_eq_ok.mp hPayload
  have hValid := Manifest.validate_eq_ok.mp hLawful.valid
  choose key hDescribes using hValid.exists_describes hKeys
  have hSignature := fun algorithm => hSigner algorithm (key algorithm)
    (hDescribes algorithm).mem.1 (hDescribes algorithm).mem.2
  let header := fun algorithm => (signatureProtectedItem algorithm
    (Utf8.encode (key algorithm).keyId)).encode
  choose signature hSigned hLengths using fun algorithm => hSignature algorithm
    (sigStructureItem bodyProtectedItem.encode (header algorithm) payload).encode
  let content := contentOf payload key signature hDescribes hLengths
  exact ⟨content, rfl, hLawful.decode_document hEncodes,
    fun algorithm => ⟨key algorithm, hDescribes algorithm, rfl, hSigned algorithm⟩⟩

/-- What signing has returned verifies under every verifier that accepts the signer's
signatures, in the limits that it was signed in. -/
theorem verify_of_signed {signer : CoseSigner} {manifest : Manifest} {payload envelope : Bytes}
    {verifier : CoseVerifier} (hKeys : manifest.keys ≠ []) (hSigner : signer.Signs manifest)
    (hPayload : encodeManifestCborWithLimits crates manifest limits.cbor = .ok payload)
    (hVerifier : ∀ algorithm key message signature,
      signer.sign algorithm key message = .ok signature →
        verifier.verify algorithm key message signature = .ok ())
    (hEnvelope : signManifestCoseWithLimits crates manifest signer limits = .ok envelope) :
    verifyManifestCoseWithLimits crates envelope verifier limits = .ok manifest := by
  obtain ⟨content, rfl, hDecode, hSigned⟩ := exists_signedContent hKeys hSigner hPayload
  have hShort : content.Short := short_of_describes hDecode fun algorithm =>
    (hSigned algorithm).imp fun _ h => ⟨h.describes, h.keyId⟩
  obtain ⟨rfl, hParse⟩ :=
    (signManifestCoseWithLimits_outcome hShort hPayload hSigned).of_ok hEnvelope
  refine (verify_of_parseEnvelope hShort hParse).mpr ⟨hDecode, fun algorithm => ?_⟩
  obtain ⟨key, hKey⟩ := hSigned algorithm
  exact ⟨key, hKey.describes, hKey.keyId, hVerifier _ _ _ _ hKey.signed⟩

/-- Signing a manifest that can be encoded yields an envelope that verifies as the
same manifest, or fails for a limit. Which of the two it is depends on the lengths
alone; under the default limits, a payload up to two mebibytes is always signed. -/
theorem verifyManifestCose_sign (crates : Crates) (limits : CoseLimits) (manifest : Manifest)
    (signer : CoseSigner) (verifier : CoseVerifier) (hKeys : manifest.keys ≠ [])
    (hEncode : ∃ payload, encodeManifestCborWithLimits crates manifest limits.cbor = .ok payload)
    (hSigner : ∀ algorithm, ∀ key ∈ manifest.keys, key.algorithm = algorithm.tfwsIdentifier →
      ∀ message, ∃ signature, signer.sign algorithm key message = .ok signature ∧
        signature.length = algorithm.expectedSignatureLen)
    (hVerifier : ∀ algorithm key message signature,
      signer.sign algorithm key message = .ok signature →
        verifier.verify algorithm key message signature = .ok ()) :
    ((∃ envelope, signManifestCoseWithLimits crates manifest signer limits = .ok envelope) ∨
      ∃ error, signManifestCoseWithLimits crates manifest signer limits = .error error ∧
        error.category = "resource_limit") ∧
    ∀ envelope, signManifestCoseWithLimits crates manifest signer limits = .ok envelope →
      verifyManifestCoseWithLimits crates envelope verifier limits = .ok manifest := by
  obtain ⟨payload, hPayload⟩ := hEncode
  constructor
  · obtain ⟨content, rfl, hDecode, hSigned⟩ := exists_signedContent hKeys hSigner hPayload
    have hShort : content.Short := short_of_describes hDecode fun algorithm =>
      (hSigned algorithm).imp fun _ h => ⟨h.describes, h.keyId⟩
    have hOutcome := signManifestCoseWithLimits_outcome hShort hPayload hSigned
    cases hResult : signManifestCoseWithLimits crates manifest signer limits with
    | ok envelope => exact Or.inl ⟨envelope, rfl⟩
    | error error =>
        obtain ⟨⟨name, rfl⟩, -⟩ := hOutcome.of_error hResult
        exact Or.inr ⟨_, rfl, rfl⟩
  · exact fun envelope hEnvelope => verify_of_signed hKeys hSigner hPayload hVerifier hEnvelope

theorem length_signatureItem_le (signature : EncodedSignature) :
    (signatureItem signature).encode.length ≤
      signature.protectedHeader.length + signature.signature.length + 36 := by
  have hArray := length_head_le 4 3
  have hHeader := length_head_le 2 signature.protectedHeader.length
  have hMap := length_head_le 5 0
  have hSignature := length_head_le 2 signature.signature.length
  simp only [signatureItem, Item.encode, Item.encodeItems, Item.encodeEntries, List.length_append,
    List.length_cons, List.length_nil, Nat.reduceAdd]
  omega

/-- An envelope is hardly longer than what it carries, the signatures of fixed length
apart. -/
theorem EnvelopeContent.length_octets_le (content : EnvelopeContent) :
    content.octets.length ≤ content.payload.length +
      (content.protectedHeader .ed25519).length + (content.protectedHeader .mlDsa65).length +
      4096 := by
  have hBody : bodyProtectedItem.encode.length ≤ 100 := by decide
  have hEd := length_signatureItem_le (content.encoded .ed25519)
  have hMl := length_signatureItem_le (content.encoded .mlDsa65)
  have hEdSignature : (content.encoded .ed25519).signature.length = 64 := content.signature_length _
  have hMlSignature : (content.encoded .mlDsa65).signature.length = 3309 :=
    content.signature_length _
  have hEdHeader : (content.encoded .ed25519).protectedHeader = content.protectedHeader .ed25519 :=
    rfl
  have hMlHeader : (content.encoded .mlDsa65).protectedHeader = content.protectedHeader .mlDsa65 :=
    rfl
  rw [hEdHeader, hEdSignature] at hEd
  rw [hMlHeader, hMlSignature] at hMl
  have hTag := length_head_le 6 98
  have hOuter := length_head_le 4 4
  have hBodyHead := length_head_le 2 bodyProtectedItem.encode.length
  have hMap := length_head_le 5 0
  have hPayload := length_head_le 2 content.payload.length
  have hInner := length_head_le 4 2
  simp only [octets, envelopeItem, requiredSignatures, List.map_cons, List.map_nil, Item.encode,
    Item.encodeItems, Item.encodeEntries, List.length_append, List.length_cons, List.length_nil,
    Nat.reduceAdd]
  omega

/-- Under the default limits signing succeeds for every payload up to two mebibytes:
the headers hold key identifiers, which the payload holds as well. -/
theorem signManifestCose_ok {signer : CoseSigner} {manifest : Manifest} {payload : Bytes}
    (hKeys : manifest.keys ≠ []) (hSigner : signer.Signs manifest)
    (hPayload : encodeManifestCborWithLimits crates manifest .default = .ok payload)
    (hLength : payload.length ≤ 2097152) :
    ∃ envelope, signManifestCose crates manifest signer = .ok envelope := by
  obtain ⟨content, rfl, hDecode, hSigned⟩ :=
    @exists_signedContent crates .default _ _ _ hKeys hSigner hPayload
  have hUsable (algorithm : CoseAlgorithm) : ∃ key, Describes manifest algorithm key ∧
      content.keyId algorithm = key.keyId :=
    (hSigned algorithm).imp fun _ h => ⟨h.describes, h.keyId⟩
  have hWithin : content.Within .default := by
    have hEd := length_header_le_payload hDecode hUsable .ed25519
    have hMl := length_header_le_payload hDecode hUsable .mlDsa65
    have hOctets := content.length_octets_le
    have hMaximum : CoseLimits.default.maxEnvelopeBytes.toNat = 8388608 := by decide
    exact within_default hDecode (by omega) hUsable
  have hOutcome := @signManifestCoseWithLimits_outcome crates .default _ _ _
    (short_of_describes hDecode hUsable) hPayload hSigned
  rw [signManifestCose]
  cases hResult : signManifestCoseWithLimits crates manifest signer .default with
  | ok envelope => exact ⟨envelope, rfl⟩
  | error error => exact absurd hWithin (hOutcome.of_error hResult).2

/-- A signer that returns a constant of the profile's length. It is enough to show
that signing succeeds. -/
def constantSigner : CoseSigner where
  sign algorithm _ _ := .ok (List.replicate algorithm.expectedSignatureLen 0x11)

/-- A verifier that takes every signature, as the counterpart of a signer whose
signatures nobody can check. -/
def permissiveVerifier : CoseVerifier where
  verify _ _ _ _ := .ok ()

/-- The constant signer returns signatures of the length demanded, for every key. -/
theorem constantSigner_signs (manifest : Manifest) : constantSigner.Signs manifest :=
  fun _ _ _ _ _ => ⟨_, rfl, List.length_replicate⟩

theorem encodeManifestCbor_sample : encodeManifestCborWithLimits .model .sample .default =
    .ok Manifest.sample.document.item.encode :=
  encodeManifestCborWithLimits_eq_ok.mpr ⟨Manifest.lawful_sample, Manifest.encodes_sample⟩

/-- The test vector can be signed under the default limits, so that an envelope is
there to be verified. -/
theorem signManifestCose_sample : ∃ envelope,
    signManifestCose .model .sample constantSigner = .ok envelope := by
  apply signManifestCose_ok (by decide) (constantSigner_signs _) encodeManifestCbor_sample
  have hShort := Manifest.encodedLength_sample
  rw [Value.length_encode_item]
  omega

/-- The test vector is signed, and its envelope verifies as the test vector: neither
is stopped by a limit. -/
theorem verifyManifestCose_sign_sample : ∃ envelope,
    signManifestCoseWithLimits .model .sample constantSigner .default = .ok envelope ∧
      verifyManifestCoseWithLimits .model envelope permissiveVerifier .default = .ok .sample := by
  obtain ⟨envelope, hEnvelope⟩ := signManifestCose_sample
  refine ⟨envelope, hEnvelope, ?_⟩
  exact (verifyManifestCose_sign .model .default .sample constantSigner permissiveVerifier
    (by decide) ⟨_, encodeManifestCbor_sample⟩ (constantSigner_signs _)
    fun _ _ _ _ _ => rfl).2 envelope hEnvelope

/-- The default limits, with room for envelopes of twice the size. The limits of the
codec are the same. -/
def CoseLimits.roomy : CoseLimits := { CoseLimits.default with maxEnvelopeBytes := 16777216 }

theorem CoseLimits.default_atMost_roomy : CoseLimits.default.AtMost .roomy :=
  ⟨by decide, CborLimits.AtMost.refl _⟩

/-- The test vector is read under small limits and under the default ones, and its
envelope is verified under the default limits and under larger ones. -/
theorem larger_limits_repeat_sample :
    (decodeManifestCbor .model Manifest.sample.document.item.encode .small = .ok .sample ∧
      decodeManifestCbor .model Manifest.sample.document.item.encode .default = .ok .sample) ∧
    ∃ envelope,
      verifyManifestCoseWithLimits .model envelope permissiveVerifier .default = .ok .sample ∧
        verifyManifestCoseWithLimits .model envelope permissiveVerifier .roomy = .ok .sample := by
  constructor
  · have hSmall : decodeManifestCbor .model Manifest.sample.document.item.encode .small =
        .ok .sample := Manifest.lawful_sample.decode_document
      (Manifest.encodes_of_smallEntries Manifest.smallEntries_sample (CborLimits.AtMost.refl _))
    have hRepeat := (larger_limits_repeat .model Manifest.sample.document.item.encode
      permissiveVerifier).1 .small .default CborLimits.small_atMost_default
      fun error hError => by cases hSmall.symm.trans hError
    exact ⟨hSmall, hRepeat.trans hSmall⟩
  · obtain ⟨envelope, hEnvelope⟩ := signManifestCose_sample
    have hVerified : verifyManifestCoseWithLimits .model envelope permissiveVerifier .default =
        .ok .sample := verify_of_signed (by decide) (constantSigner_signs _)
      encodeManifestCbor_sample (fun _ _ _ _ _ => rfl) hEnvelope
    have hRepeat := (larger_limits_repeat .model envelope permissiveVerifier).2 .default .roomy
      CoseLimits.default_atMost_roomy fun error hError => by cases hVerified.symm.trans hError
    exact ⟨envelope, hVerified, hRepeat.trans hVerified⟩

end Tfws
