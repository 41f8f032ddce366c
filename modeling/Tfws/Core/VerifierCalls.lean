import Tfws.Core.CoseVerification

/-! The calls that `verify_manifest_cose_with_limits` makes to its verifier, and
what has been checked by then. -/
namespace Tfws

open Fallible Cbor

/-- The arguments of one call, which are all that a verifier sees of envelope and
manifest. -/
structure VerifierCall where
  algorithm : CoseAlgorithm
  descriptor : KeyDescriptor
  message : Bytes
  signature : Bytes

/-- A verifier may answer by the calls before, too, so that nothing is assumed of its
state. -/
abbrev Answer := List VerifierCall → VerifierCall → Except CoseCryptoError Unit

/-- A verifier answers by the call at hand, whatever it was asked before. -/
def CoseVerifier.answer (verifier : CoseVerifier) : Answer := fun _ call =>
  verifier.verify call.algorithm call.descriptor call.message call.signature

/-- The body of the loop up to the call: what is checked of a signature before the
verifier sees it. -/
def prepareCall (crates : Crates) (manifest : Manifest) (bodyProtected payload : Bytes)
    (signature : ParsedSignature) (expectedAlgorithm : CoseAlgorithm) :
    CoseResult VerifierCall := do
  failIf (signature.algorithm ≠ expectedAlgorithm) .invalidAlgorithm
  let descriptor ← descriptorFor manifest expectedAlgorithm
  failIf (signature.kid ≠ Utf8.encode descriptor.keyId) .invalidKid
  let message ← encodeSigStructure crates bodyProtected signature.protectedHeader payload
  .ok { algorithm := expectedAlgorithm, descriptor, message, signature := signature.signature }

/-- The loop, with the calls made so far. They are kept when the loop ends with an
error. -/
def recordAll (crates : Crates) (answer : Answer) (manifest : Manifest)
    (bodyProtected payload : Bytes) (calls : List VerifierCall) :
    List (ParsedSignature × CoseAlgorithm) → List VerifierCall × CoseResult Unit
  | [] => (calls, .ok ())
  | (signature, expectedAlgorithm) :: rest =>
      match prepareCall crates manifest bodyProtected payload signature expectedAlgorithm with
      | .error error => (calls, .error error)
      | .ok call =>
          match answer calls call with
          | .error error => (calls ++ [call], .error (mapCryptoError error))
          | .ok () =>
              recordAll crates answer manifest bodyProtected payload (calls ++ [call]) rest

/-- `verify_manifest_cose_with_limits` up to the loop, where no call has been made
yet, and none is if it fails. -/
def decodeEnvelope (crates : Crates) (envelope : Bytes) (limits : CoseLimits) :
    CoseResult (ParsedEnvelope × Manifest) := do
  let parsed ← parseEnvelope crates envelope limits
  let manifest ← (decodeManifestCbor crates parsed.payload limits.cbor).mapError .manifestCbor
  failIf (parsed.signatures.length ≠ requiredSignatures.length) .hybridBaselineIncomplete
  .ok (parsed, manifest)

/-- `verify_manifest_cose_with_limits` with the calls that it makes, in order,
whatever it returns. -/
def recordManifestCose (crates : Crates) (envelope : Bytes) (answer : Answer)
    (limits : CoseLimits) : List VerifierCall × CoseResult Manifest :=
  match decodeEnvelope crates envelope limits with
  | .error error => ([], .error error)
  | .ok (parsed, manifest) =>
      let recorded := recordAll crates answer manifest parsed.bodyProtected parsed.payload []
        (parsed.signatures.zip requiredSignatures)
      (recorded.1, recorded.2.map fun _ => manifest)

section Recording

variable {crates : Crates} {manifest : Manifest} {bodyProtected payload : Bytes}

/-- One round of the loop: prepare the call, make it, go on. The source does these in
turn for each signature. -/
theorem verifyAll_cons (verifier : CoseVerifier) (signature : ParsedSignature)
    (expectedAlgorithm : CoseAlgorithm) (rest : List (ParsedSignature × CoseAlgorithm)) :
    verifyAll crates verifier manifest bodyProtected payload
        ((signature, expectedAlgorithm) :: rest) = (do
      let call ←
        prepareCall crates manifest bodyProtected payload signature expectedAlgorithm
      (verifier.answer [] call).mapError mapCryptoError
      verifyAll crates verifier manifest bodyProtected payload rest) := by
  simp only [verifyAll, prepareCall, bind_assoc, ok_bind]
  rfl

/-- Recording the calls does not change the result, for a verifier that does not look
at the calls before. -/
theorem recordAll_result (verifier : CoseVerifier) (calls : List VerifierCall)
    (pairs : List (ParsedSignature × CoseAlgorithm)) :
    (recordAll crates verifier.answer manifest bodyProtected payload calls pairs).2 =
      verifyAll crates verifier manifest bodyProtected payload pairs := by
  induction pairs generalizing calls with
  | nil => rfl
  | cons pair rest ih =>
      obtain ⟨signature, expectedAlgorithm⟩ := pair
      rw [recordAll, verifyAll_cons]
      cases prepareCall crates manifest bodyProtected payload signature expectedAlgorithm with
      | error raised => rfl
      | ok call =>
          have hSame : verifier.answer calls call = verifier.answer [] call := rfl
          simp only [hSame, ok_bind]
          cases verifier.answer [] call with
          | error raised => rfl
          | ok answered => exact ih (calls ++ [call])

/-- The recording verifier returns what the verifier returns, so that what is said of
its calls is said of the verifier. -/
theorem recordManifestCose_result (crates : Crates) (envelope : Bytes) (verifier : CoseVerifier)
    (limits : CoseLimits) :
    (recordManifestCose crates envelope verifier.answer limits).2 =
      verifyManifestCoseWithLimits crates envelope verifier limits := by
  have hDecode : verifyManifestCoseWithLimits crates envelope verifier limits = (do
      let decoded ← decodeEnvelope crates envelope limits
      verifyAll crates verifier decoded.2 decoded.1.bodyProtected decoded.1.payload
        (decoded.1.signatures.zip requiredSignatures)
      .ok decoded.2) := by
    simp only [verifyManifestCoseWithLimits, decodeEnvelope, bind_assoc, ok_bind]
  rw [hDecode, recordManifestCose]
  cases decodeEnvelope crates envelope limits with
  | error raised => rfl
  | ok decoded =>
      obtain ⟨parsed, decodedManifest⟩ := decoded
      simp only [recordAll_result, ok_bind]
      cases verifyAll crates verifier decodedManifest parsed.bodyProtected parsed.payload
        (parsed.signatures.zip requiredSignatures) with
      | error raised => rfl
      | ok verified => rfl

/-- Calls are only added, and those made stay made. By induction on the signatures
still to come. -/
theorem recordAll_prefix (answer : Answer) (calls : List VerifierCall)
    (pairs : List (ParsedSignature × CoseAlgorithm)) :
    calls <+: (recordAll crates answer manifest bodyProtected payload calls pairs).1 := by
  induction pairs generalizing calls with
  | nil => exact List.prefix_rfl
  | cons pair rest ih =>
      obtain ⟨signature, expectedAlgorithm⟩ := pair
      rw [recordAll]
      cases prepareCall crates manifest bodyProtected payload signature expectedAlgorithm with
      | error raised => exact List.prefix_rfl
      | ok call =>
          have hAdded : calls <+: calls ++ [call] := List.prefix_append _ _
          dsimp only
          cases answer calls call with
          | error raised => exact hAdded
          | ok answered => exact hAdded.trans (ih (calls ++ [call]))

/-- A call that cannot be prepared is not made, and ends the loop with its error. -/
theorem recordAll_of_error {answer : Answer} {calls : List VerifierCall}
    {signature : ParsedSignature} {expectedAlgorithm : CoseAlgorithm} {raised : CoseEnvelopeError}
    (h : prepareCall crates manifest bodyProtected payload signature expectedAlgorithm =
      .error raised) (rest : List (ParsedSignature × CoseAlgorithm)) :
    recordAll crates answer manifest bodyProtected payload calls
      ((signature, expectedAlgorithm) :: rest) = (calls, .error raised) := by
  rw [recordAll, h]

/-- A call that can be prepared is made, whatever its answer and whatever the next
signature is. -/
theorem recordAll_of_ok (answer : Answer) (calls : List VerifierCall)
    {signature : ParsedSignature} {expectedAlgorithm : CoseAlgorithm} {call : VerifierCall}
    (h : prepareCall crates manifest bodyProtected payload signature expectedAlgorithm = .ok call)
    (rest : List (ParsedSignature × CoseAlgorithm)) :
    calls ++ [call] <+: (recordAll crates answer manifest bodyProtected payload calls
      ((signature, expectedAlgorithm) :: rest)).1 := by
  rw [recordAll, h]
  dsimp only
  cases answer calls call with
  | error raised => exact List.prefix_rfl
  | ok answered => exact recordAll_prefix answer (calls ++ [call]) rest

end Recording

/-- The signature for the algorithm names the key of the manifest's descriptor, which
is what the specification calls bound. -/
def KidBound (parsed : ParsedEnvelope) (manifest : Manifest) (algorithm : CoseAlgorithm) : Prop :=
  ∃ signature ∈ parsed.signatures, signature.algorithm = algorithm ∧
    ∃ key, descriptorFor manifest algorithm = .ok key ∧ signature.kid = Utf8.encode key.keyId

/-- The signature for the algorithm names another key than the descriptor, and so is
not bound to it. -/
def KidMismatched (parsed : ParsedEnvelope) (manifest : Manifest) (algorithm : CoseAlgorithm) :
    Prop :=
  ∃ signature ∈ parsed.signatures, signature.algorithm = algorithm ∧
    ∃ key, descriptorFor manifest algorithm = .ok key ∧ signature.kid ≠ Utf8.encode key.keyId

/-- The verifier is called only after the envelope and the manifest have been
read and both signatures bound, and never when one of them is bound wrongly. -/
structure BindsFirst (crates : Crates) (envelope : Bytes) (limits : CoseLimits)
    (outcome : List VerifierCall × CoseResult Manifest) : Prop where
  checked : outcome.1 ≠ [] → ∃ parsed manifest,
    parseEnvelope crates envelope limits = .ok parsed ∧
      decodeManifestCbor crates parsed.payload limits.cbor = .ok manifest ∧
      ∀ algorithm, KidBound parsed manifest algorithm
  mismatch : ∀ parsed manifest, parseEnvelope crates envelope limits = .ok parsed →
    decodeManifestCbor crates parsed.payload limits.cbor = .ok manifest →
    (∃ algorithm, KidMismatched parsed manifest algorithm) →
    outcome = ([], .error .invalidKid)

section Content

variable {crates : Crates} {limits : CoseLimits} {manifest : Manifest} {content : EnvelopeContent}
  {algorithm : CoseAlgorithm}

theorem mem_parsedEnvelope {signature : ParsedSignature} :
    signature ∈ content.parsedEnvelope.signatures ↔
      ∃ algorithm, signature = content.parsed algorithm := by
  simp only [EnvelopeContent.parsedEnvelope, List.mem_map]
  constructor
  · intro h
    obtain ⟨algorithm, -, rfl⟩ := h
    exact ⟨algorithm, rfl⟩
  · intro h
    obtain ⟨algorithm, rfl⟩ := h
    exact ⟨algorithm, by cases algorithm <;> decide, rfl⟩

theorem exists_signature_iff {property : ParsedSignature → Prop} :
    (∃ signature ∈ content.parsedEnvelope.signatures, signature.algorithm = algorithm ∧
      property signature) ↔ property (content.parsed algorithm) := by
  constructor
  · intro h
    obtain ⟨signature, hMember, hAlgorithm, hProperty⟩ := h
    obtain ⟨other, rfl⟩ := mem_parsedEnvelope.mp hMember
    obtain rfl : other = algorithm := hAlgorithm
    exact hProperty
  · intro h
    exact ⟨_, mem_parsedEnvelope.mpr ⟨algorithm, rfl⟩, rfl, h⟩

theorem prepareCall_content (hShort : content.Short) :
    prepareCall crates manifest bodyProtectedItem.encode content.payload
        (content.parsed algorithm) algorithm = (do
      let descriptor ← descriptorFor manifest algorithm
      failIf (content.kid algorithm ≠ Utf8.encode descriptor.keyId) .invalidKid
      .ok { algorithm, descriptor, message := content.message algorithm,
            signature := content.signature algorithm }) := by
  have hMessage : encodeSigStructure crates bodyProtectedItem.encode
      (content.parsed algorithm).protectedHeader content.payload =
        .ok (content.message algorithm) := hShort.encodeSigStructure_eq algorithm
  have hAlgorithm : (content.parsed algorithm).algorithm = algorithm := rfl
  rw [prepareCall, hAlgorithm, failIf_ne_self, ok_bind, hMessage]
  rfl

/-- A call can be prepared exactly for a signature that names its key; nothing else
can go wrong with a content. -/
theorem prepareCall_eq_ok (hShort : content.Short) :
    (∃ call, prepareCall crates manifest bodyProtectedItem.encode content.payload
        (content.parsed algorithm) algorithm = .ok call) ↔
      KidBound content.parsedEnvelope manifest algorithm := by
  rw [KidBound, exists_signature_iff, prepareCall_content hShort]
  simp only [bind_eq_ok, failIf_eq_ok, exists_const, not_ne_iff]
  constructor
  · intro h
    obtain ⟨call, key, hKey, hKid, -⟩ := h
    exact ⟨key, hKey, hKid⟩
  · intro h
    obtain ⟨key, hKey, hKid⟩ := h
    exact ⟨_, key, hKey, hKid, rfl⟩

/-- A signature with another key identifier is not handed on: the loop ends before its
call. -/
theorem prepareCall_of_mismatched (hShort : content.Short)
    (h : KidMismatched content.parsedEnvelope manifest algorithm) :
    prepareCall crates manifest bodyProtectedItem.encode content.payload
      (content.parsed algorithm) algorithm = .error .invalidKid := by
  rw [KidMismatched, exists_signature_iff] at h
  obtain ⟨key, hKey, hKid⟩ := h
  have hOther : content.kid algorithm ≠ Utf8.encode key.keyId := hKid
  rw [prepareCall_content hShort, hKey, ok_bind, failIf_of hOther]
  rfl

theorem decodeEnvelope_eq_ok {envelope : Bytes} {parsed : ParsedEnvelope} :
    decodeEnvelope crates envelope limits = .ok (parsed, manifest) ↔
      parseEnvelope crates envelope limits = .ok parsed ∧
        decodeManifestCbor crates parsed.payload limits.cbor = .ok manifest := by
  simp only [decodeEnvelope, bind_eq_ok, mapError_eq_ok, exists_const, failIf_eq_ok, not_ne_iff,
    Except.ok.injEq, Prod.mk.injEq]
  constructor
  · intro h
    obtain ⟨read, hRead, decoded, hDecoded, -, rfl, rfl⟩ := h
    exact ⟨hRead, hDecoded⟩
  · intro h
    obtain ⟨content, -, -, rfl⟩ := parseEnvelope_eq_ok.mp h.1
    exact ⟨_, h.1, _, h.2, rfl, rfl, rfl⟩

theorem KidBound.not_mismatched (h : KidBound content.parsedEnvelope manifest algorithm) :
    ¬KidMismatched content.parsedEnvelope manifest algorithm := by
  rw [KidBound, exists_signature_iff] at h
  rw [KidMismatched, exists_signature_iff]
  obtain ⟨key, hKey, hKid⟩ := h
  intro hMismatched
  obtain ⟨other, hOther, hDiffers⟩ := hMismatched
  rw [hKey, Except.ok.injEq] at hOther
  rw [← hOther] at hDiffers
  exact hDiffers hKid

/-- A manifest that has a key for one algorithm has one for the other too, so that its
signature is bound to it or names another one. -/
theorem bound_or_mismatched (hDecode : decodeManifestCbor crates content.payload limits.cbor =
      .ok manifest) {other : CoseAlgorithm}
    (h : KidMismatched content.parsedEnvelope manifest other) :
    KidBound content.parsedEnvelope manifest algorithm ∨
      KidMismatched content.parsedEnvelope manifest algorithm := by
  obtain ⟨-, -, -, key, hKey, -⟩ := h
  obtain ⟨-, -, -, hLawful⟩ := decodeManifestCbor_eq_ok.mp hDecode
  have hKeys := (descriptorFor_eq_ok.mp hKey).keys_ne_nil
  obtain ⟨own, hOwn⟩ := (Manifest.validate_eq_ok.mp hLawful.valid).exists_describes hKeys algorithm
  rw [← descriptorFor_eq_ok] at hOwn
  rw [KidBound, KidMismatched, exists_signature_iff, exists_signature_iff]
  by_cases hKid : (content.parsed algorithm).kid = Utf8.encode own.keyId
  · exact .inl ⟨own, hOwn, hKid⟩
  · exact .inr ⟨own, hOwn, hKid⟩

/-- The two rounds of the loop over a content, in the order of the required
signatures. -/
def EnvelopeContent.rounds (content : EnvelopeContent) : List (ParsedSignature × CoseAlgorithm) :=
  [(content.parsed .ed25519, .ed25519), (content.parsed .mlDsa65, .mlDsa65)]

theorem recordManifestCose_content {envelope : Bytes} {answer : Answer}
    (hDecoded : decodeEnvelope crates envelope limits = .ok (content.parsedEnvelope, manifest)) :
    recordManifestCose crates envelope answer limits =
      ((recordAll crates answer manifest bodyProtectedItem.encode content.payload []
          content.rounds).1,
        (recordAll crates answer manifest bodyProtectedItem.encode content.payload []
          content.rounds).2.map fun _ => manifest) := by
  rw [recordManifestCose, hDecoded]
  rfl

/-- The first call is made exactly when the signature of Ed25519 is bound, whatever
the other one names. -/
theorem recordManifestCose_calls {envelope : Bytes} (answer : Answer) (hShort : content.Short)
    (hDecoded : decodeEnvelope crates envelope limits = .ok (content.parsedEnvelope, manifest)) :
    (recordManifestCose crates envelope answer limits).1 ≠ [] ↔
      KidBound content.parsedEnvelope manifest .ed25519 := by
  rw [← prepareCall_eq_ok hShort, recordManifestCose_content hDecoded]
  dsimp only [EnvelopeContent.rounds]
  cases hPrepared : prepareCall crates manifest bodyProtectedItem.encode content.payload
      (content.parsed .ed25519) .ed25519 with
  | error raised =>
      rw [recordAll_of_error hPrepared]
      simp
  | ok call =>
      apply iff_of_true
      · intro hNone
        have hFirst := recordAll_of_ok answer [] hPrepared
          [(content.parsed .mlDsa65, CoseAlgorithm.mlDsa65)]
        rw [hNone] at hFirst
        simp at hFirst
      · exact ⟨call, rfl⟩

/-- With the first signature unbound, the envelope is refused without a call, under
the error for the key identifier. -/
theorem recordManifestCose_of_mismatched {envelope : Bytes} {answer : Answer}
    (hShort : content.Short)
    (hDecoded : decodeEnvelope crates envelope limits = .ok (content.parsedEnvelope, manifest))
    (h : KidMismatched content.parsedEnvelope manifest .ed25519) :
    recordManifestCose crates envelope answer limits = ([], .error .invalidKid) := by
  rw [recordManifestCose_content hDecoded, EnvelopeContent.rounds,
    recordAll_of_error (prepareCall_of_mismatched hShort h)]
  rfl

end Content

/-- The verifier is called too early exactly on an envelope whose first signature is
bound to its key and whose second is not. On all other envelopes, every signature is
bound before any is verified. -/
theorem recordManifestCose_bindsFirst_iff (crates : Crates) (envelope : Bytes) (answer : Answer)
    (limits : CoseLimits) :
    BindsFirst crates envelope limits (recordManifestCose crates envelope answer limits) ↔
      ∀ parsed manifest, parseEnvelope crates envelope limits = .ok parsed →
        decodeManifestCbor crates parsed.payload limits.cbor = .ok manifest →
        KidBound parsed manifest .ed25519 → KidBound parsed manifest .mlDsa65 := by
  constructor
  · intro h parsed manifest hParse hDecode hFirst
    obtain ⟨content, hWithin, -, rfl⟩ := parseEnvelope_eq_ok.mp hParse
    have hDecoded := decodeEnvelope_eq_ok.mpr ⟨hParse, hDecode⟩
    have hCalls := (recordManifestCose_calls answer hWithin.short hDecoded).mpr hFirst
    obtain ⟨parsed, manifest', hParse', hDecode', hBound⟩ := h.checked hCalls
    obtain rfl := Except.ok.inj (hParse.symm.trans hParse')
    obtain rfl := Except.ok.inj (hDecode.symm.trans hDecode')
    exact hBound .mlDsa65
  · intro h
    constructor
    · intro hCalls
      cases hDecoded : decodeEnvelope crates envelope limits with
      | error raised => simp [recordManifestCose, hDecoded] at hCalls
      | ok decoded =>
          obtain ⟨hParse, hDecode⟩ := decodeEnvelope_eq_ok.mp hDecoded
          obtain ⟨content, hWithin, -, hContent⟩ := parseEnvelope_eq_ok.mp hParse
          obtain ⟨parsed, manifest⟩ := decoded
          obtain rfl : parsed = content.parsedEnvelope := hContent
          have hFirst := (recordManifestCose_calls answer hWithin.short hDecoded).mp hCalls
          refine ⟨_, manifest, hParse, hDecode, ?_⟩
          intro algorithm
          cases algorithm with
          | ed25519 => exact hFirst
          | mlDsa65 => exact h _ manifest hParse hDecode hFirst
    · intro parsed manifest hParse hDecode hMismatch
      obtain ⟨content, hWithin, -, rfl⟩ := parseEnvelope_eq_ok.mp hParse
      obtain ⟨algorithm, hMismatch⟩ := hMismatch
      apply recordManifestCose_of_mismatched hWithin.short
        (decodeEnvelope_eq_ok.mpr ⟨hParse, hDecode⟩)
      rcases bound_or_mismatched hDecode hMismatch with hFirst | hFirst
      · have hSecond := h _ manifest hParse hDecode hFirst
        cases algorithm with
        | ed25519 => exact absurd hMismatch hFirst.not_mismatched
        | mlDsa65 => exact absurd hMismatch hSecond.not_mismatched
      · exact hFirst

/-- The test vector in an envelope whose second signature names another key, while the
first one is in order. -/
def wrongKidContent : EnvelopeContent where
  payload := Manifest.sample.document.item.encode
  keyId := CoseAlgorithm.select "release-1" "wrong-key"
  signature algorithm := List.replicate algorithm.expectedSignatureLen 0x11
  keyId_ne algorithm := by cases algorithm <;> decide
  signature_length algorithm := List.length_replicate

theorem wrongKidContent_within : wrongKidContent.Within .default := by
  have hPayload : wrongKidContent.payload.length ≤ 4 * 1024 * 1024 := Manifest.encodes_sample.short
  have hHeader : ∀ algorithm, (wrongKidContent.protectedHeader algorithm).length ≤ 100 := by
    intro algorithm
    cases algorithm <;> decide
  have hString : CoseLimits.default.cbor.maxStringBytes.toNat = 4 * 1024 * 1024 := by decide
  constructor
  · decide
  · decide
  · decide
  · calc
      wrongKidContent.octets.length ≤ _ := wrongKidContent.length_octets_le
      _ ≤ 4 * 1024 * 1024 + 100 + 100 + 4096 := Nat.add_le_add_right
        (Nat.add_le_add (Nat.add_le_add hPayload (hHeader .ed25519)) (hHeader .mlDsa65)) _
      _ ≤ CoseLimits.default.maxEnvelopeBytes.toNat := by decide
  · decide
  · exact hPayload
  · intro algorithm
    exact (hHeader algorithm).trans (by rw [hString]; omega)
  · intro algorithm
    rw [wrongKidContent.signature_length, hString]
    cases algorithm <;> decide

/-- The first signature goes to the verifier although the second names no key of the
manifest. -/
theorem recordManifestCose_wrongKid :
    ¬∀ (crates : Crates) (envelope : Bytes) (answer : Answer) (limits : CoseLimits),
      BindsFirst crates envelope limits (recordManifestCose crates envelope answer limits) := by
  intro h
  have hParse : parseEnvelope .model wrongKidContent.octets .default =
      .ok wrongKidContent.parsedEnvelope :=
    parseEnvelope_eq_ok.mpr ⟨_, wrongKidContent_within, rfl, rfl⟩
  have hDecode : decodeManifestCbor .model wrongKidContent.parsedEnvelope.payload .default =
      .ok .sample := Manifest.lawful_sample.decode_document Manifest.encodes_sample
  have hFirst : KidBound wrongKidContent.parsedEnvelope .sample .ed25519 := by
    rw [KidBound, exists_signature_iff]
    exact ⟨_, rfl, rfl⟩
  have hSecond : KidMismatched wrongKidContent.parsedEnvelope .sample .mlDsa65 := by
    rw [KidMismatched, exists_signature_iff]
    exact ⟨_, rfl, by decide⟩
  have hCalls := (recordManifestCose_calls permissiveVerifier.answer wrongKidContent_within.short
    (decodeEnvelope_eq_ok.mpr ⟨hParse, hDecode⟩)).mpr hFirst
  obtain ⟨parsed, manifest, hParse', hDecode', hBound⟩ :=
    (h .model wrongKidContent.octets permissiveVerifier.answer .default).checked hCalls
  obtain rfl := Except.ok.inj (hParse.symm.trans hParse')
  obtain rfl := Except.ok.inj (hDecode.symm.trans hDecode')
  exact (hBound .mlDsa65).not_mismatched hSecond

end Tfws
