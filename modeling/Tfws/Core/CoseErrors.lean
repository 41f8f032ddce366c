import Tfws.Core.CoseVerification

/-! Which errors the verifier raises, and what each of them is about. -/
namespace Tfws

open SerdeJson Fallible Cbor

variable {crates : Crates} {limits : CoseLimits} {error : CoseEnvelopeError}

/-- The categories of an envelope that is not one of the profile, whoever signed
it. -/
def structuralCategories : List String :=
  ["malformed_cbor", "non_deterministic_cbor", "resource_limit", "invalid_cose_structure",
    "unsupported_header", "invalid_content_type", "invalid_type", "invalid_algorithm", "invalid_kid",
    "signature_invalid"]

/-- An error about the envelope itself, before its manifest or any key is looked
at. -/
def Structural (error : CoseEnvelopeError) : Prop := error.category ∈ structuralCategories

instance : DecidablePred Structural := fun _ => inferInstanceAs (Decidable (_ ∈ _))

/-- Whatever the result, an error is about the envelope, and so neither about the
manifest nor about the keys. -/
abbrev RaisesStructural {α : Type} (computation : CoseResult α) : Prop :=
  Outcome computation (fun _ => True) Structural

theorem structural_malformed (cause : String) : Structural (.malformedCbor cause) := by
  change "malformed_cbor" ∈ _
  decide

theorem structural_encodeFailure (cause : String) : Structural (.encodeFailure cause) := by
  change "malformed_cbor" ∈ _
  decide

theorem structural_structure (name : String) : Structural (.invalidCoseStructure name) := by
  change "invalid_cose_structure" ∈ _
  decide

theorem structural_limit (name : String) : Structural (.resourceLimit name) := by
  change "resource_limit" ∈ _
  decide

theorem structural_determinism : Structural .nonDeterministicCbor := by decide

theorem structural_header : Structural .unsupportedHeader := by decide

/-- A step of the decoder, whose refusal is an error about the envelope, and so may be
followed by anything that raises such. -/
theorem decoding_raises {α β : Type} {step : Except String α} {next : α → CoseResult β}
    (hNext : ∀ read, RaisesStructural (next read)) :
    RaisesStructural (step.mapError .malformedCbor >>= next) :=
  (Outcome.mapError structural_malformed).bind fun read _ => hNext read

/-- A step of the encoder, whose refusal counts as one about the envelope too. -/
theorem encoding_raises {α β : Type} {step : Except String α} {next : α → CoseResult β}
    (hNext : ∀ out, RaisesStructural (next out)) :
    RaisesStructural (step.mapError .encodeFailure >>= next) :=
  (Outcome.mapError structural_encodeFailure).bind fun out _ => hNext out

theorem validateFixedShapeLimits_raises : RaisesStructural (validateFixedShapeLimits limits) := by
  apply Outcome.check fun _ => structural_limit _
  intro _
  apply Outcome.check fun _ => structural_limit _
  intro _
  exact (Outcome.lastCheck fun _ => structural_limit _).mono fun _ _ => trivial

theorem expectArray_raises (expected : UInt64) (name : String) (input : Bytes) :
    RaisesStructural (expectArray crates expected name input) := by
  apply decoding_raises
  intro _
  apply Outcome.check fun _ => structural_determinism
  intro _
  apply Outcome.check fun _ => structural_structure name
  intro _
  apply decoding_raises
  intro read
  obtain ⟨length, rest⟩ := read
  cases length with
  | none => exact structural_determinism
  | some length => exact Outcome.check (fun _ => structural_structure name) fun _ => trivial

theorem readMapLength_raises (name : String) (input : Bytes) :
    RaisesStructural (readMapLength crates name input) := by
  apply decoding_raises
  intro _
  apply Outcome.check fun _ => structural_determinism
  intro _
  apply Outcome.check fun _ => structural_structure name
  intro _
  apply decoding_raises
  intro read
  obtain ⟨length, rest⟩ := read
  cases length with
  | none => exact structural_determinism
  | some length => trivial

theorem expectEmptyMap_raises (name : String) (input : Bytes) :
    RaisesStructural (expectEmptyMap crates name input) := by
  apply (readMapLength_raises name input).bind
  intro _ _
  exact Outcome.check (fun _ => structural_header) fun _ => trivial

theorem readBytes_raises (maximum : UInt64) (name : String) (input : Bytes) :
    RaisesStructural (readBytes crates maximum name input) := by
  apply decoding_raises
  intro _
  apply Outcome.check fun _ => structural_determinism
  intro _
  apply Outcome.check fun _ => structural_structure name
  intro _
  apply decoding_raises
  intro _
  exact Outcome.check (fun _ => structural_limit name) fun _ => trivial

theorem readText_raises (maximum : UInt64) (name : String) (input : Bytes) :
    RaisesStructural (readText crates maximum name input) := by
  apply decoding_raises
  intro _
  apply Outcome.check fun _ => structural_determinism
  intro _
  apply Outcome.check fun _ => structural_structure name
  intro _
  apply decoding_raises
  intro _
  exact Outcome.check (fun _ => structural_limit name) fun _ => trivial

theorem readHeaderLabel_raises (input : Bytes) : RaisesStructural (readHeaderLabel crates input) :=
  Outcome.mapError fun _ => structural_header

theorem validateBodyProtected_raises (input : Bytes) :
    RaisesStructural (validateBodyProtected crates limits input) := by
  apply (readMapLength_raises _ input).bind
  intro _ _
  apply Outcome.check fun _ => structural_header
  intro _
  apply (readHeaderLabel_raises _).bind
  intro _ _
  apply Outcome.check fun _ => structural_header
  intro _
  apply (readText_raises _ _ _).bind
  intro _ _
  apply Outcome.check fun _ => (by decide)
  intro _
  apply (readHeaderLabel_raises _).bind
  intro _ _
  apply Outcome.check fun _ => structural_header
  intro _
  apply (readText_raises _ _ _).bind
  intro _ _
  apply Outcome.check fun _ => (by decide)
  intro _
  apply Outcome.check fun _ => structural_malformed _
  intro _
  rw [encodeBodyProtected_eq, ok_bind]
  exact (Outcome.lastCheck fun _ => structural_determinism).mono fun _ _ => trivial

theorem encodeSignatureProtected_raises (algorithm : CoseAlgorithm) (kid : Bytes) :
    RaisesStructural (encodeSignatureProtected crates algorithm kid) := by
  apply encoding_raises
  intro _
  apply encoding_raises
  intro _
  apply encoding_raises
  intro _
  apply encoding_raises
  intro _
  exact Outcome.mapError structural_encodeFailure

theorem validateSignatureProtected_raises (algorithm : CoseAlgorithm) (input : Bytes) :
    RaisesStructural (validateSignatureProtected crates limits algorithm input) := by
  apply (readMapLength_raises _ input).bind
  intro _ _
  apply Outcome.check fun _ => structural_header
  intro _
  apply (readHeaderLabel_raises _).bind
  intro _ _
  apply Outcome.check fun _ => structural_header
  intro _
  apply (Outcome.mapError fun _ => (by decide)).bind
  intro _ _
  apply Outcome.check fun _ => (by decide)
  intro _
  apply (readHeaderLabel_raises _).bind
  intro _ _
  apply Outcome.check fun _ => structural_header
  intro _
  apply (readBytes_raises _ _ _).bind
  intro _ _
  apply Outcome.check fun _ => (by decide)
  intro _
  apply Outcome.check fun _ => structural_malformed _
  intro _
  apply (encodeSignatureProtected_raises _ _).bind
  intro _ _
  exact Outcome.check (fun _ => structural_determinism) fun _ => trivial

theorem parseSignature_raises (algorithm : CoseAlgorithm) (input : Bytes) :
    RaisesStructural (parseSignature crates limits algorithm input) := by
  apply (expectArray_raises _ _ input).bind
  intro _ _
  apply (readBytes_raises _ _ _).bind
  intro _ _
  apply (validateSignatureProtected_raises algorithm _).bind
  intro _ _
  apply (expectEmptyMap_raises _ _).bind
  intro _ _
  apply (readBytes_raises _ _ _).bind
  intro _ _
  exact Outcome.check (fun _ => (by decide)) fun _ => trivial

/-- Reading the signatures ends with as many as are required, or with a structural
error. -/
theorem parseSignatures_raises (algorithms : List CoseAlgorithm) (input : Bytes) :
    Outcome (parseSignatures crates limits algorithms input)
      (fun result => result.1.length = algorithms.length) Structural := by
  induction algorithms generalizing input with
  | nil => rfl
  | cons algorithm algorithms ih =>
      apply (parseSignature_raises algorithm input).bind
      intro first _
      apply (ih first.2).bind
      intro others hOthers
      exact congrArg Nat.succ hOthers

theorem encodeSignatures_raises (signatures : List EncodedSignature) (out : Bytes) :
    RaisesStructural (encodeSignatures crates signatures out) := by
  induction signatures generalizing out with
  | nil => trivial
  | cons signature rest ih =>
      apply encoding_raises
      intro _
      apply encoding_raises
      intro _
      apply encoding_raises
      intro _
      apply encoding_raises
      intro _
      exact ih _

/-- With both signatures there, nothing is missing from the baseline, and whatever
else goes wrong is about the envelope. -/
theorem encodeEnvelope_raises (bodyProtected payload : Bytes) {signatures : List EncodedSignature}
    (hTwo : signatures.length = requiredSignatures.length) :
    RaisesStructural (encodeEnvelope crates bodyProtected payload signatures) := by
  rw [encodeEnvelope, failIf_of_not (not_not.mpr hTwo), ok_bind]
  apply encoding_raises
  intro _
  apply encoding_raises
  intro _
  apply encoding_raises
  intro _
  apply encoding_raises
  intro _
  apply encoding_raises
  intro _
  exact encodeSignatures_raises signatures _

/-- The parser raises structural errors only, whatever the octets. Its loops are
followed step by step. -/
theorem parseEnvelope_raises (input : Bytes) : RaisesStructural (parseEnvelope crates input limits) := by
  apply validateFixedShapeLimits_raises.bind
  intro _ _
  apply Outcome.check fun _ => structural_limit _
  intro _
  apply Outcome.check fun _ => structural_malformed _
  intro _
  apply Outcome.check fun _ => structural_structure _
  intro _
  apply (expectArray_raises _ _ _).bind
  intro _ _
  apply (readBytes_raises _ _ _).bind
  intro _ _
  apply (validateBodyProtected_raises _).bind
  intro _ _
  apply (expectEmptyMap_raises _ _).bind
  intro _ _
  apply (readBytes_raises _ _ _).bind
  intro _ _
  apply (expectArray_raises _ _ _).bind
  intro _ _
  apply (parseSignatures_raises _ _).bind
  intro signatures hTwo
  apply Outcome.check fun _ => structural_malformed _
  intro _
  apply (encodeEnvelope_raises _ _ (by rwa [List.length_map])).bind
  intro _ _
  exact Outcome.check (fun _ => structural_determinism) fun _ => trivial

variable {content : EnvelopeContent} {verifier : CoseVerifier} {manifest : Manifest}
  {algorithm : CoseAlgorithm} {key : KeyDescriptor}

/-- What verification checks of one signature: the key identifier first, then the
signature itself. -/
def checkSigned (verifier : CoseVerifier) (content : EnvelopeContent) (algorithm : CoseAlgorithm)
    (key : KeyDescriptor) : CoseResult Unit := do
  failIf (content.kid algorithm ≠ Utf8.encode key.keyId) .invalidKid
  (verifier.verify algorithm key (content.message algorithm)
    (content.signature algorithm)).mapError mapCryptoError

/-- The loop of the verifier at one parsed signature: the header that it encodes again
is the one received, so that only the two checks are left. -/
theorem verifyAll_parsed (hShort : content.Short) (hKey : Describes manifest algorithm key)
    (rest : List (ParsedSignature × CoseAlgorithm)) :
    verifyAll crates verifier manifest bodyProtectedItem.encode content.payload
        ((content.parsed algorithm, algorithm) :: rest) = (do
      checkSigned verifier content algorithm key
      verifyAll crates verifier manifest bodyProtectedItem.encode content.payload rest) := by
  have hAlgorithm : (content.parsed algorithm).algorithm = algorithm := rfl
  have hHeader : (content.parsed algorithm).protectedHeader = content.protectedHeader algorithm := rfl
  have hKid : (content.parsed algorithm).kid = content.kid algorithm := rfl
  have hSignature : (content.parsed algorithm).signature = content.signature algorithm := rfl
  rw [verifyAll, checkSigned]
  simp only [hAlgorithm, hHeader, hKid, hSignature, failIf_ne_self, ok_bind,
    descriptorFor_eq_ok.mpr hKey, hShort.encodeSigStructure_eq, bind_assoc]

/-- What the parser refuses is refused, with the parser's error, before the payload is
looked at. -/
theorem verifyManifestCose_of_parse {envelope : Bytes}
    (h : parseEnvelope crates envelope limits = .error error) (verifier : CoseVerifier) :
    verifyManifestCoseWithLimits crates envelope verifier limits = .error error := by
  rw [verifyManifestCoseWithLimits, h, error_bind]

/-- What is left to verification behind the parser: the payload and the signatures, in
this order. -/
theorem verifyManifestCose_parsed (hWithin : content.Within limits) (verifier : CoseVerifier) :
    verifyManifestCoseWithLimits crates content.octets verifier limits = (do
      let manifest ← (decodeManifestCbor crates content.payload limits.cbor).mapError .manifestCbor
      verifyAll crates verifier manifest bodyProtectedItem.encode content.payload
        [(content.parsed .ed25519, .ed25519), (content.parsed .mlDsa65, .mlDsa65)]
      .ok manifest) := by
  have hParsed : parseEnvelope crates content.octets limits = .ok content.parsedEnvelope :=
    parseEnvelope_eq_ok.mpr ⟨content, hWithin, rfl, rfl⟩
  have hCount : ¬content.parsedEnvelope.signatures.length ≠ requiredSignatures.length :=
    not_not.mpr rfl
  rw [verifyManifestCoseWithLimits, hParsed, ok_bind]
  simp only [failIf_of_not hCount, ok_bind]
  rfl

/-- A payload that the codec refuses is refused with the codec's error, before any
signature is looked at. -/
theorem verifyManifestCose_of_decode {refused : CborCodecError} (hWithin : content.Within limits)
    (hDecode : decodeManifestCbor crates content.payload limits.cbor = .error refused)
    (verifier : CoseVerifier) :
    verifyManifestCoseWithLimits crates content.octets verifier limits =
      .error (.manifestCbor refused) := by
  rw [verifyManifestCose_parsed hWithin, hDecode]
  rfl

/-- What is left behind the decoder: one check for each signature, in order, and no
other source of errors. -/
theorem verifyManifestCose_content {key : CoseAlgorithm → KeyDescriptor}
    (hWithin : content.Within limits)
    (hDecode : decodeManifestCbor crates content.payload limits.cbor = .ok manifest)
    (hKeys : ∀ algorithm, Describes manifest algorithm (key algorithm)) (verifier : CoseVerifier) :
    verifyManifestCoseWithLimits crates content.octets verifier limits = (do
      checkSigned verifier content .ed25519 (key .ed25519)
      checkSigned verifier content .mlDsa65 (key .mlDsa65)
      .ok manifest) := by
  rw [verifyManifestCose_parsed hWithin, hDecode, mapError_ok, ok_bind,
    verifyAll_parsed hWithin.short (hKeys _), verifyAll_parsed hWithin.short (hKeys _), verifyAll]
  simp only [bind_assoc, ok_bind]

/-- A manifest without keys has none for the first signature, and is refused there. -/
theorem verifyManifestCose_unbound (hWithin : content.Within limits)
    (hDecode : decodeManifestCbor crates content.payload limits.cbor = .ok manifest)
    (hKeys : manifest.keys = []) (verifier : CoseVerifier) :
    verifyManifestCoseWithLimits crates content.octets verifier limits =
      .error .hybridBaselineIncomplete := by
  have hAlgorithm : (content.parsed .ed25519).algorithm = .ed25519 := rfl
  have hDescriptor : descriptorFor manifest .ed25519 = .error .hybridBaselineIncomplete := by
    rw [descriptorFor, hKeys]
    rfl
  rw [verifyManifestCose_parsed hWithin, hDecode, mapError_ok, ok_bind, verifyAll, hAlgorithm,
    failIf_ne_self, ok_bind, hDescriptor]
  rfl

/-- What is said against one signature of the content: its key identifier, or the
verifier's own answer. -/
inductive EnvelopeContent.Objection (content : EnvelopeContent) (verifier : CoseVerifier)
    (manifest : Manifest) (algorithm : CoseAlgorithm) : CoseEnvelopeError → Prop where
  | keyId (key : KeyDescriptor) (hDescribes : Describes manifest algorithm key)
      (hKeyId : content.keyId algorithm ≠ key.keyId) :
      content.Objection verifier manifest algorithm .invalidKid
  | verifier (key : KeyDescriptor) (cause : CoseCryptoError)
      (hDescribes : Describes manifest algorithm key) (hKeyId : content.keyId algorithm = key.keyId)
      (hRefused : verifier.verify algorithm key (content.message algorithm)
        (content.signature algorithm) = .error cause) :
      content.Objection verifier manifest algorithm (mapCryptoError cause)

/-- No algorithm is described by two keys: being described means that there is no
other one. -/
theorem Describes.unique_key {other : KeyDescriptor} (h : Describes manifest algorithm key)
    (hOther : Describes manifest algorithm other) : key = other :=
  (List.cons.inj (h.unique.symm.trans hOther.unique)).1

theorem kid_ne_iff : content.kid algorithm ≠ Utf8.encode key.keyId ↔
    content.keyId algorithm ≠ key.keyId :=
  not_congr ⟨fun h => Utf8.encode_injective h, fun h => congrArg Utf8.encode h⟩

/-- The check passes exactly if the content is signed with the key that the manifest
describes. -/
theorem checkSigned_eq_ok (h : Describes manifest algorithm key) :
    checkSigned verifier content algorithm key = .ok () ↔
      ∃ key, content.Signed verifier manifest algorithm key := by
  rw [checkSigned, then_eq_ok, failIf_eq_ok, kid_ne_iff, not_not, mapError_eq_ok]
  constructor
  · intro hChecks
    exact ⟨key, h, hChecks.1, hChecks.2⟩
  · intro hSigned
    obtain ⟨other, hOther⟩ := hSigned
    obtain rfl := h.unique_key hOther.describes
    exact ⟨hOther.keyId, hOther.verified⟩

/-- The check fails with the objection to the signature, and with nothing else. -/
theorem checkSigned_eq_error (h : Describes manifest algorithm key) :
    checkSigned verifier content algorithm key = .error error ↔
      content.Objection verifier manifest algorithm error := by
  rw [checkSigned, bind_eq_error]
  simp only [failIf_eq_error, failIf_eq_ok, kid_ne_iff, not_not, exists_const]
  constructor
  · intro hError
    obtain ⟨hKeyId, rfl⟩ | ⟨hKeyId, hRefused⟩ := hError
    · exact .keyId key h hKeyId
    · cases hVerify : verifier.verify algorithm key (content.message algorithm)
        (content.signature algorithm) with
      | ok =>
          rw [hVerify] at hRefused
          cases hRefused
      | error cause =>
          rw [hVerify] at hRefused
          obtain rfl := Except.error.inj hRefused
          exact .verifier key cause h hKeyId hVerify
  · intro hObjection
    cases hObjection with
    | keyId other hDescribes hKeyId =>
        obtain rfl := h.unique_key hDescribes
        exact Or.inl ⟨hKeyId, rfl⟩
    | verifier other cause hDescribes hKeyId hRefused =>
        obtain rfl := h.unique_key hDescribes
        rw [hRefused]
        exact Or.inr ⟨hKeyId, rfl⟩

/-- What the verifier says against an envelope that parses, case by case and in the
order of the source. -/
inductive EnvelopeContent.Refused (crates : Crates) (limits : CoseLimits) (verifier : CoseVerifier)
    (content : EnvelopeContent) : CoseEnvelopeError → Prop where
  | payload (cause : CborCodecError)
      (hDecode : decodeManifestCbor crates content.payload limits.cbor = .error cause) :
      content.Refused crates limits verifier (.manifestCbor cause)
  | unbound (manifest : Manifest)
      (hDecode : decodeManifestCbor crates content.payload limits.cbor = .ok manifest)
      (hKeys : manifest.keys = []) :
      content.Refused crates limits verifier .hybridBaselineIncomplete
  | first (manifest : Manifest) (error : CoseEnvelopeError)
      (hDecode : decodeManifestCbor crates content.payload limits.cbor = .ok manifest)
      (hObjection : content.Objection verifier manifest .ed25519 error) :
      content.Refused crates limits verifier error
  | second (manifest : Manifest) (key : KeyDescriptor) (error : CoseEnvelopeError)
      (hDecode : decodeManifestCbor crates content.payload limits.cbor = .ok manifest)
      (hSigned : content.Signed verifier manifest .ed25519 key)
      (hObjection : content.Objection verifier manifest .mlDsa65 error) :
      content.Refused crates limits verifier error

/-- Verification of an envelope within the limits fails with an error exactly if it is
refused for it. -/
theorem refused_iff (hWithin : content.Within limits) :
    verifyManifestCoseWithLimits crates content.octets verifier limits = .error error ↔
      content.Refused crates limits verifier error := by
  cases hDecode : decodeManifestCbor crates content.payload limits.cbor with
  | error cause =>
      rw [verifyManifestCose_of_decode hWithin hDecode, Except.error.injEq]
      constructor
      · intro hSame
        exact hSame ▸ .payload cause hDecode
      · intro hRefused
        cases hRefused with
        | payload other hOther => rw [Except.error.inj (hDecode.symm.trans hOther)]
        | unbound _ hOther _ | first _ _ hOther _ | second _ _ _ hOther _ _ =>
            rw [hDecode] at hOther
            cases hOther
  | ok manifest =>
      by_cases hKeys : manifest.keys = []
      · rw [verifyManifestCose_unbound hWithin hDecode hKeys, Except.error.injEq]
        have hNone {algorithm : CoseAlgorithm} {error : CoseEnvelopeError}
            (hObjection : content.Objection verifier manifest algorithm error) : False := by
          cases hObjection with
          | keyId _ hDescribes _ | verifier _ _ hDescribes _ _ => exact hDescribes.keys_ne_nil hKeys
        constructor
        · intro hSame
          exact hSame ▸ .unbound manifest hDecode hKeys
        · intro hRefused
          cases hRefused with
          | payload _ hOther =>
              rw [hDecode] at hOther
              cases hOther
          | unbound _ _ _ => rfl
          | first _ _ hOther hObjection | second _ _ _ hOther _ hObjection =>
              obtain rfl := Except.ok.inj (hDecode.symm.trans hOther)
              exact (hNone hObjection).elim
      · obtain ⟨value, -, -, hLawful⟩ := decodeManifestCbor_eq_ok.mp hDecode
        have hValid := Manifest.validate_eq_ok.mp hLawful.valid
        choose key hKey using hValid.exists_describes hKeys
        rw [verifyManifestCose_content hWithin hDecode hKey, bind_eq_error,
          checkSigned_eq_error (hKey _)]
        simp only [bind_eq_error, checkSigned_eq_error (hKey _), checkSigned_eq_ok (hKey _),
          reduceCtorEq, and_false, exists_const, or_false]
        constructor
        · intro hError
          obtain hFirst | ⟨⟨ed, hSigned⟩, hSecond⟩ := hError
          · exact .first manifest error hDecode hFirst
          · exact .second manifest ed error hDecode hSigned hSecond
        · intro hRefused
          cases hRefused with
          | payload _ hOther =>
              rw [hDecode] at hOther
              cases hOther
          | unbound _ hOther hNone =>
              obtain rfl := Except.ok.inj (hDecode.symm.trans hOther)
              exact absurd hNone hKeys
          | first _ _ hOther hObjection =>
              obtain rfl := Except.ok.inj (hDecode.symm.trans hOther)
              exact Or.inl hObjection
          | second _ ed _ hOther hSigned hObjection =>
              obtain rfl := Except.ok.inj (hDecode.symm.trans hOther)
              exact Or.inr ⟨⟨ed, hSigned⟩, hObjection⟩

/-- The baseline is incomplete in a manifest without keys, and nowhere else: a single
key of the two does not pass the policy. -/
theorem incomplete_iff {envelope : Bytes} :
    verifyManifestCoseWithLimits crates envelope verifier limits = .error .hybridBaselineIncomplete ↔
      ∃ content : EnvelopeContent, content.Within limits ∧ envelope = content.octets ∧
        ∃ manifest, decodeManifestCbor crates content.payload limits.cbor = .ok manifest ∧
          manifest.keys = [] := by
  have hNone {content : EnvelopeContent} {manifest : Manifest} {algorithm : CoseAlgorithm}
      (hObjection : content.Objection verifier manifest algorithm .hybridBaselineIncomplete) :
      False := by
    generalize hError : CoseEnvelopeError.hybridBaselineIncomplete = error at hObjection
    cases hObjection with
    | keyId _ _ _ => cases hError
    | verifier _ cause _ _ _ => cases cause <;> cases hError
  constructor
  · intro h
    cases hParse : parseEnvelope crates envelope limits with
    | error raised =>
        rw [verifyManifestCose_of_parse hParse] at h
        obtain rfl := Except.error.inj h
        exact absurd ((parseEnvelope_raises envelope).of_error hParse) (by decide)
    | ok parsed =>
        obtain ⟨content, hWithin, rfl, -⟩ := parseEnvelope_eq_ok.mp hParse
        cases (refused_iff hWithin).mp h with
        | unbound manifest hDecode hKeys => exact ⟨content, hWithin, rfl, manifest, hDecode, hKeys⟩
        | first _ _ _ hObjection | second _ _ _ _ _ hObjection => exact (hNone hObjection).elim
  · intro h
    obtain ⟨content, hWithin, rfl, manifest, hDecode, hKeys⟩ := h
    exact verifyManifestCose_unbound hWithin hDecode hKeys verifier

theorem CborCodecError.category_ne (cause : CborCodecError) :
    cause.category ≠ "hybrid_baseline_incomplete" := by
  cases cause <;> simp [category]

/-- No error shares the category of an incomplete baseline, so that the category tells
the error. -/
theorem category_incomplete : error.category = "hybrid_baseline_incomplete" ↔
    error = .hybridBaselineIncomplete := by
  constructor
  · intro h
    cases error with
    | manifestCbor cause => exact absurd h cause.category_ne
    | hybridBaselineIncomplete => rfl
    | _ => simp [CoseEnvelopeError.category] at h
  · intro h
    rw [h]
    rfl

/-- An envelope is refused for what it is, for its payload, for want of keys, or for
the first signature with another key identifier or that the verifier refuses. No other
check of the source ever fails. -/
theorem verifyManifestCose_eq_error (crates : Crates) (envelope : Bytes) (verifier : CoseVerifier)
    (limits : CoseLimits) (error : CoseEnvelopeError) :
    verifyManifestCoseWithLimits crates envelope verifier limits = .error error ↔
      (parseEnvelope crates envelope limits = .error error ∧
        error.category ∈ structuralCategories) ∨
      ∃ content : EnvelopeContent, content.Within limits ∧ envelope = content.octets ∧
        content.Refused crates limits verifier error := by
  cases hParse : parseEnvelope crates envelope limits with
  | error raised =>
      have hNone (content : EnvelopeContent) (hWithin : content.Within limits) :
          envelope ≠ content.octets := by
        intro hOctets
        rw [parseEnvelope_eq_ok.mpr ⟨content, hWithin, hOctets, rfl⟩] at hParse
        cases hParse
      have hStructural : Structural raised := (parseEnvelope_raises envelope).of_error hParse
      rw [verifyManifestCose_of_parse hParse, Except.error.injEq, Except.error.injEq]
      constructor
      · intro hSame
        exact Or.inl ⟨hSame, hSame ▸ hStructural⟩
      · intro hReason
        obtain ⟨hSame, -⟩ | ⟨content, hWithin, hOctets, -⟩ := hReason
        · exact hSame
        · exact absurd hOctets (hNone content hWithin)
  | ok parsed =>
      obtain ⟨content, hWithin, rfl, -⟩ := parseEnvelope_eq_ok.mp hParse
      rw [refused_iff hWithin]
      constructor
      · intro hRefused
        exact Or.inr ⟨content, hWithin, rfl, hRefused⟩
      · intro hReason
        obtain ⟨hError, -⟩ | ⟨other, hOther, hOctets, hRefused⟩ := hReason
        · cases hError
        · rw [← refused_iff hWithin, hOctets]
          exact (refused_iff hOther).mpr hRefused

end Tfws
