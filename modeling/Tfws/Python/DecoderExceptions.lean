import Tfws.Python.Exceptions

/-! Which exceptions leave `decode_manifest_cbor` and
`verify_manifest_cose_conformance`: those of interoperability, and one more when
a timestamp has no instant in UTC. -/
namespace Tfws.Python

open Fallible Cbor

/-- The checks of `validate_manifest` that come before the timestamps, in their order.
None of them raises what is not caught. -/
def checksBeforeTimes (runtime : Runtime) (allowNonproduction allowUnboundDevelopment : Bool)
    (data : List (Key × Object)) : Result Unit := do
  let missing := requiredFields.filter fun name => !Object.contains (.str name) data
  raiseIf (missing ≠ []) do
    let text ← runtime.sortedText (missing.map Object.str)
    .ok (.validation ("missing manifest fields: " ++ text))
  let unknown := (data.map Prod.fst).filter fun key =>
    ("expires_at" :: "identity" :: requiredFields).all fun name => key ≠ .str name
  raiseIf (unknown ≠ []) do
    let text ← runtime.sortedText (unknown.map Key.object)
    .ok (.validation ("unknown manifest fields: " ++ text))
  let tfwsVersion ← Object.getItem "tfws_version" data
  failIf (tfwsVersion.text? ≠ some "3.0") (.validation "unsupported tfws_version")
  let parsed ← urlparse runtime (← Object.getItem "subject" data)
  failIf (parsed.isHttpsOrigin = false) (.validation
    "subject must be an HTTPS origin without credentials/path/query/fragment")
  let environment ← Object.getItem "environment" data
  failIf (environment.hashable = false) (.typeError "unhashable type")
  failIf (["development", "staging", "production"].all fun name => environment.text? ≠ some name)
    (.validation "invalid environment")
  failIf (allowNonproduction = false ∧ environment.text? ≠ some "production")
    (.policy "non-production manifest cannot pass production gate")
  let keyEpoch ← Object.getItem "key_epoch" data
  failIf (validKeyEpoch keyEpoch = false)
    (.validation "key_epoch must be a positive interoperable integer")
  validatePolicy (← Object.getItem "signature_policy" data)
  validateKeyDescriptors allowUnboundDevelopment data
  validateCapabilities runtime (← Object.getItem "capabilities" data)

/-- The checks of `validate_manifest` that come after the timestamps, in their
order. -/
def checksAfterTimes (data : List (Key × Object)) : Result Unit := do
  validateOperator (← Object.getItem "operator" data)
  match ← Object.getItem "artifacts" data with
  | .list artifacts => validateArtifacts 0 artifacts
  | _ => .error (.validation "artifacts must be an array")

section Manifest

variable {runtime : Runtime} {data : List (Key × Object)}
  {allowNonproduction allowUnboundDevelopment : Bool}

/-- The policy, cut at the checks of its times, which alone let an exception
through. -/
theorem validateManifest_eq :
    validateManifest runtime allowNonproduction allowUnboundDevelopment data =
      (do
        checksBeforeTimes runtime allowNonproduction allowUnboundDevelopment data
        validateTimes runtime data
        checksAfterTimes data) := by
  rw [validateManifest, checksBeforeTimes]
  simp only [bind_assoc]
  exact rfl

theorem checksBeforeTimes_outcome (hSorted : runtime.SortsOrTypeError) :
    Outcome (checksBeforeTimes runtime allowNonproduction allowUnboundDevelopment data)
      (fun _ => ∃ keys, Object.get (.str "keys") data = some (.list keys) ∧ BoundKeys keys)
      Exception.Caught := by
  refine (raiseIf_catches hSorted _ _ _ fun _ => rfl).bind fun _ _ => ?_
  refine (raiseIf_catches hSorted _ _ _ fun _ => rfl).bind fun _ _ => ?_
  refine (getItem_outcome _ _).bind fun _ _ => Outcome.check (fun _ => rfl) fun _ => ?_
  refine (getItem_outcome _ _).bind fun _ _ => (urlparse_catches _).bind fun _ _ => ?_
  refine Outcome.check (fun _ => rfl) fun _ => ?_
  refine (getItem_outcome _ _).bind fun _ _ => Outcome.check (fun _ => rfl) fun _ => ?_
  refine Outcome.check (fun _ => rfl) fun _ => Outcome.check (fun _ => rfl) fun _ => ?_
  refine (getItem_outcome _ _).bind fun _ _ => Outcome.check (fun _ => rfl) fun _ => ?_
  refine (getItem_outcome _ _).bind fun _ _ => (validatePolicy_catches _).bind fun _ _ => ?_
  refine (validateKeyDescriptors_outcome _).bind fun _ hKeys => ?_
  refine (getItem_outcome _ _).bind fun _ _ => ?_
  exact (validateCapabilities_catches hSorted _).mono fun _ _ => hKeys

/-- The checks after the times raise what the decoder catches, whatever the document
holds. -/
theorem checksAfterTimes_catches : Catches (checksAfterTimes data) := by
  refine (getItem_outcome _ _).bind fun _ _ => (validateOperator_catches _).bind fun _ _ => ?_
  refine (getItem_outcome _ _).bind fun artifacts _ => ?_
  cases artifacts with
  | list artifacts => exact validateArtifacts_catches artifacts 0
  | none | bool _ | int _ | float _ | str _ | bytes _ | dict _ | tag _ _ => rfl

/-- The policy raises what is caught, or a timestamp goes out of range once all checks
before it have passed. -/
theorem validateManifest_outcome (hSorted : runtime.SortsOrTypeError) :
    Outcome (validateManifest runtime allowNonproduction allowUnboundDevelopment data)
      (fun _ => ∃ keys, Object.get (.str "keys") data = some (.list keys) ∧ BoundKeys keys)
      fun exception => exception.Caught ∨ (exception = outOfRange ∧
        checksBeforeTimes runtime allowNonproduction allowUnboundDevelopment data = .ok () ∧
        TimesOverflow runtime data) := by
  rw [validateManifest_eq]
  have hBefore : Outcome
      (checksBeforeTimes runtime allowNonproduction allowUnboundDevelopment data)
      (fun _ => ∃ keys, Object.get (.str "keys") data = some (.list keys) ∧ BoundKeys keys)
      Exception.Caught := checksBeforeTimes_outcome hSorted
  cases hChecks : checksBeforeTimes runtime allowNonproduction allowUnboundDevelopment data with
  | error exception => exact Or.inl (hBefore.of_error hChecks)
  | ok _ =>
      have hKeys := hBefore.of_ok hChecks
      rw [ok_bind]
      cases hTimes : validateTimes runtime data with
      | error exception =>
          obtain hCaught | ⟨hRange, hOverflow⟩ := validateTimes_outcome.of_error hTimes
          · exact Or.inl hCaught
          · exact Or.inr ⟨hRange, rfl, hOverflow⟩
      | ok _ =>
          rw [ok_bind]
          cases hAfter : checksAfterTimes data with
          | error exception => exact Or.inl (checksAfterTimes_catches.of_error hAfter)
          | ok _ => exact hKeys

/-- The octets are a manifest in every check before the timestamps, and a
timestamp overflows. -/
def ManifestOverflows (runtime : Runtime) (octets : Bytes) : Prop :=
  ∃ entries, decodeCborDocument Flags.manifest octets = .ok (.dict entries) ∧
    validateManifestCborValue "$" (.dict entries) = .ok () ∧
    checksBeforeTimes runtime true true entries = .ok () ∧ TimesOverflow runtime entries

/-- An exception of interoperability, or `overflow` and then the exception of a
conversion out of the range of dates. -/
def Exception.OnlyIf (overflow : Prop) (exception : Exception) : Prop :=
  exception.Interoperability ∨ (exception = outOfRange ∧ overflow)

theorem FailsClosed.onlyIf {α : Type} {result : Result α} (h : FailsClosed result)
    (overflow : Prop) : Outcome result (fun _ => True) (Exception.OnlyIf overflow) := by
  cases result with
  | ok value => trivial
  | error exception => exact Or.inl h

/-- The decoder raises exceptions of interoperability, or the one of the conversion
where something overflows. -/
theorem decodeManifestCbor_outcome (hSorted : runtime.SortsOrTypeError) (octets : Bytes) :
    Outcome (decodeManifestCbor runtime octets)
      (fun entries => octets.length ≤ maxCborBytes ∧
        ∃ keys, Object.get (.str "keys") entries = some (.list keys) ∧ BoundKeys keys)
      (Exception.OnlyIf (ManifestOverflows runtime octets)) := by
  unfold decodeManifestCbor
  cases hDocument : decodeCborDocument Flags.manifest octets with
  | error exception =>
      exact Or.inl ((decodeCborDocument_failsClosed Flags.manifest octets).of_error hDocument)
  | ok value =>
      have hShort := (decodeCborDocument_eq_ok.mp hDocument).1
      rw [ok_bind]
      cases value with
      | dict entries =>
          dsimp only
          cases hValue : validateManifestCborValue "$" (.dict entries) with
          | error exception =>
              exact Or.inl ((validateManifestCborValue_failsClosed "$" _).of_error hValue)
          | ok _ =>
              rw [ok_bind]
              cases hPolicy : validateManifest runtime true true entries with
              | ok _ => exact ⟨hShort, (validateManifest_outcome hSorted).of_ok hPolicy⟩
              | error exception =>
                  obtain hCaught | ⟨rfl, hChecks, hOverflow⟩ :=
                    (validateManifest_outcome hSorted).of_error hPolicy
                  · rw [Except.mapError, if_pos hCaught]
                    exact Or.inl trivial
                  · exact Or.inr ⟨rfl, entries, hDocument, hValue, hChecks, hOverflow⟩
      | none | bool _ | int _ | float _ | str _ | bytes _ | list _ | tag _ _ =>
          exact Or.inl trivial

/-- Where something overflows, that exception is raised: the checks before it have
passed, and it is not caught. -/
theorem decodeManifestCbor_of_overflows {octets : Bytes} (h : ManifestOverflows runtime octets) :
    decodeManifestCbor runtime octets = .error outOfRange := by
  obtain ⟨entries, hDocument, hValue, hChecks, hOverflow⟩ := h
  have hPolicy : validateManifest runtime true true entries = .error outOfRange := by
    rw [validateManifest_eq, hChecks, ok_bind, validateTimes_of_overflow hOverflow, error_bind]
  simp only [decodeManifestCbor, hDocument, hValue, hPolicy, ok_bind]
  rfl

end Manifest

section Envelope

variable {sha256 : Bytes → Bytes} {runtime : Runtime}

/-- A byte string that can be encoded again, as every one can that was read from a
document. -/
def ShortBytes (object : Object) : Prop :=
  ∃ octets, object = .bytes octets ∧ octets.length ≤ maxCborBytes

theorem decodeProtected_outcome (value : Object) (label : String) :
    Outcome (decodeProtected value label) (fun _ => ShortBytes value)
      Exception.Interoperability := by
  cases value with
  | bytes octets =>
      cases hDocument : decodeCborDocument Flags.protectedHeader octets with
      | error exception =>
          rw [decodeProtected, hDocument]
          exact (decodeCborDocument_failsClosed _ octets).of_error hDocument
      | ok headers =>
          have hShort : ShortBytes (.bytes octets) :=
            ⟨octets, rfl, (decodeCborDocument_eq_ok.mp hDocument).1⟩
          rw [decodeProtected, hDocument, ok_bind]
          cases headers with
          | dict headers => exact hShort
          | none | bool _ | int _ | float _ | str _ | bytes _ | list _ | tag _ _ => trivial
  | none | bool _ | int _ | float _ | str _ | dict _ | list _ | tag _ _ => trivial

theorem validateBodyProtected_outcome (bodyProtected : Object) :
    Outcome (validateBodyProtected bodyProtected) (fun _ => ShortBytes bodyProtected)
      Exception.Interoperability := by
  refine (decodeProtected_outcome _ _).bind fun _ hShort => ?_
  refine Outcome.check (fun _ => trivial) fun _ => Outcome.check (fun _ => trivial) fun _ => ?_
  exact failIf_outcome trivial hShort

theorem validateSignatureProtected_outcome (label : String) (profile : Profile)
    (protectedHeader : Object) :
    Outcome (validateSignatureProtected label profile protectedHeader)
      (fun _ => ShortBytes protectedHeader) Exception.Interoperability := by
  refine (decodeProtected_outcome _ _).bind fun _ hShort => ?_
  refine Outcome.check (fun _ => trivial) fun _ => Outcome.check (fun _ => trivial) fun _ => ?_
  exact failIf_outcome trivial hShort

theorem parseSignature_outcome (index : Nat) (entry : Object) (profile : Profile) :
    Outcome (parseSignature index entry profile) (fun parsed => ShortBytes parsed.protectedHeader)
      Exception.Interoperability := by
  unfold parseSignature
  split
  case h_1 protectedHeader unprotectedHeader signature =>
    refine Outcome.check (fun _ => trivial) fun _ => ?_
    refine (validateSignatureProtected_outcome _ _ _).bind fun _ hShort => ?_
    split
    case h_1 => exact Outcome.check (fun _ => trivial) fun _ => hShort
    case h_2 => trivial
  case h_2 => trivial

theorem parseSignatures_outcome (entries : List (Object × Profile)) (index : Nat) :
    Outcome (parseSignatures index entries)
      (fun parsed => ∀ signature ∈ parsed, ShortBytes signature.protectedHeader)
      Exception.Interoperability := by
  induction entries generalizing index with
  | nil => exact List.forall_mem_nil _
  | cons entry rest ih =>
      refine (parseSignature_outcome _ _ _).bind fun first hFirst => ?_
      refine (ih (index + 1)).bind fun others hOthers => ?_
      exact List.forall_mem_cons.mpr ⟨hFirst, hOthers⟩

theorem getItem_of_get {name : String} {entries : List (Key × Object)} {object : Object}
    (h : Object.get (.str name) entries = some object) :
    Object.getItem name entries = .ok object := by
  rw [Object.getItem, h]

/-- With bound keys the dictionary of descriptors is built, and holds bound
descriptors only. -/
theorem algorithmEntries_of_bound {keys : List Object} (h : BoundKeys keys) :
    ∃ descriptors, algorithmEntries keys = .ok descriptors ∧
      ∀ entry ∈ descriptors, BoundDescriptor entry.2 := by
  induction keys with
  | nil => exact ⟨[], rfl, List.forall_mem_nil _⟩
  | cons key rest ih =>
      obtain ⟨⟨descriptor, rfl, hDescriptor⟩, hRest⟩ := List.forall_mem_cons.mp h
      obtain ⟨algorithm, hAlgorithm⟩ := hDescriptor.algorithm
      obtain ⟨others, hOthers, hBound⟩ := ih hRest
      refine ⟨(.str algorithm, descriptor) :: others, ?_,
        List.forall_mem_cons.mpr ⟨hDescriptor, hBound⟩⟩
      simp [algorithmEntries, algorithmEntry, getItem_of_get hAlgorithm, Object.hashable, hOthers,
        failIf_of_not]

theorem validateBinding_failsClosed {descriptors : List (Object × List (Key × Object))}
    (h : ∀ entry ∈ descriptors, BoundDescriptor entry.2) (name : String) :
    FailsClosed (validateBinding descriptors name) := by
  unfold validateBinding
  split
  case h_1 => trivial
  case h_2 descriptor hDescriptor =>
    obtain ⟨entry, hFind, rfl⟩ := Option.map_eq_some_iff.mp hDescriptor
    have hBound := h entry (List.mem_reverse.mp (List.mem_of_find?_eq_some hFind))
    obtain ⟨keyId, hKeyId⟩ := hBound.keyId
    obtain ⟨digest, hDigest⟩ := hBound.publicKeySha256
    rw [getItem_of_get hKeyId, ok_bind, textOr, ok_bind]
    refine Outcome.check (fun _ => trivial) fun _ => ?_
    rw [getItem_of_get hDigest, ok_bind]
    exact failIf_outcome trivial trivial

theorem validateBindings_failsClosed {descriptors : List (Object × List (Key × Object))}
    (h : ∀ entry ∈ descriptors, BoundDescriptor entry.2) (parsed : List ParsedSignature) :
    FailsClosed (validateBindings descriptors parsed) := by
  induction parsed with
  | nil => trivial
  | cons first rest ih => exact (validateBinding_failsClosed h _).bind fun _ _ => ih

theorem cborHead_of_short (major : Nat) {value : Nat} (h : value ≤ maxCborBytes) :
    ∃ head, cborHead major value = .ok head := by
  unfold cborHead
  have hLt : value < 18446744073709551616 := lt_of_le_of_lt h (by decide)
  split_ifs <;> exact ⟨_, rfl⟩

theorem encodeCoseSigValue_of_short {object : Object} (h : ShortBytes object) :
    ∃ octets, encodeCoseSigValue object = .ok octets := by
  obtain ⟨octets, rfl, hShort⟩ := h
  obtain ⟨head, hHead⟩ := cborHead_of_short 2 hShort
  exact ⟨_, by rw [encodeCoseSigValue, hHead, ok_bind]⟩

/-- The message is written whenever its three byte strings can be, which the decoder
has seen to. -/
theorem encodeCoseSigValue_message {bodyProtected protectedHeader payload : Object}
    (hBody : ShortBytes bodyProtected) (hHeader : ShortBytes protectedHeader)
    (hPayload : ShortBytes payload) :
    ∃ message, encodeCoseSigValue
      (.list [.str "Signature", bodyProtected, protectedHeader, .bytes [], payload]) =
        .ok message := by
  obtain ⟨body, hBody⟩ := encodeCoseSigValue_of_short hBody
  obtain ⟨header, hHeader⟩ := encodeCoseSigValue_of_short hHeader
  obtain ⟨octets, hPayload⟩ := encodeCoseSigValue_of_short hPayload
  obtain ⟨empty, hEmpty⟩ := encodeCoseSigValue_of_short ⟨[], rfl, Nat.zero_le _⟩
  obtain ⟨context, hContext⟩ : ∃ context, encodeCoseSigValue (.str "Signature") = .ok context :=
    ⟨_, rfl⟩
  obtain ⟨head, hHead⟩ := cborHead_of_short 4 (show 5 ≤ maxCborBytes by decide)
  refine ⟨head ++ (context ++ (body ++ (header ++ (empty ++ (octets ++ []))))), ?_⟩
  rw [encodeCoseSigValue]
  simp only [List.length_cons, List.length_nil, Nat.reduceAdd, hHead, ok_bind,
    encodeCoseSigMembers, hContext, hBody, hHeader, hEmpty, hPayload]

/-- Comparing the signatures raises exceptions of interoperability only, for the parts
of the message all have heads. -/
theorem checkSignatures_failsClosed {bodyProtected payload : Object}
    (hBody : ShortBytes bodyProtected) (hPayload : ShortBytes payload)
    {parsed : List ParsedSignature}
    (hParsed : ∀ signature ∈ parsed, ShortBytes signature.protectedHeader) :
    FailsClosed (checkSignatures sha256 bodyProtected payload parsed) := by
  induction parsed with
  | nil => trivial
  | cons first rest ih =>
      obtain ⟨hFirst, hRest⟩ := List.forall_mem_cons.mp hParsed
      obtain ⟨message, hMessage⟩ := encodeCoseSigValue_message hBody hFirst hPayload
      rw [checkSignatures, hMessage, ok_bind]
      exact Outcome.check (fun _ => trivial) fun _ => ih hRest

/-- Nothing that follows the decoding of the manifest raises anything else: its keys
are bound. -/
theorem verifyBindings_failsClosed {manifest : List (Key × Object)} {keys : List Object}
    (hKeys : Object.get (.str "keys") manifest = some (.list keys)) (hBound : BoundKeys keys)
    {bodyProtected payload : Object} (hBody : ShortBytes bodyProtected)
    (hPayload : ShortBytes payload) {parsed : List ParsedSignature}
    (hParsed : ∀ signature ∈ parsed, ShortBytes signature.protectedHeader) :
    FailsClosed (do
      let descriptors ← descriptorsOf manifest
      validateBindings descriptors parsed
      checkSignatures sha256 bodyProtected payload parsed
      .ok manifest) := by
  obtain ⟨descriptors, hDescriptors, hDescriptorsBound⟩ := algorithmEntries_of_bound hBound
  rw [descriptorsOf, getItem_of_get hKeys, ok_bind]
  dsimp only
  rw [hDescriptors, ok_bind]
  refine (validateBindings_failsClosed hDescriptorsBound parsed).bind fun _ _ => ?_
  exact (checkSignatures_failsClosed hBody hPayload hParsed).bind fun _ _ => trivial

/-- The elements have the shape, the headers and the lengths of the profile, and
the payload is a manifest that overflows. -/
def ElementsOverflow (runtime : Runtime)
    (bodyProtected bodyUnprotected payload signatures : Object) : Prop :=
  ∃ octets entries, bodyUnprotected = .dict [] ∧ payload = .bytes octets ∧
    signatures = .list entries ∧ validateBodyProtected bodyProtected = .ok () ∧
    entries.length = 2 ∧
    (∃ parsed, parseSignatures 0 (entries.zip expectedProfiles) = .ok parsed) ∧
    ManifestOverflows runtime octets

/-- The envelope can be read, and the manifest in it overflows: its signatures are not
looked at any more. -/
def EnvelopeOverflows (runtime : Runtime) (envelope : Bytes) : Prop :=
  ∃ bodyProtected bodyUnprotected payload signatures,
    decodeCborDocument Flags.envelope envelope =
      .ok (.tag 98 (.list [bodyProtected, bodyUnprotected, payload, signatures])) ∧
    ElementsOverflow runtime bodyProtected bodyUnprotected payload signatures

theorem isEmptyDict_eq_true {object : Object} : isEmptyDict object = true ↔ object = .dict [] := by
  unfold isEmptyDict
  split
  case h_1 => simp
  case h_2 hNot => simpa using hNot

/-- The four elements, up to the decoding of the manifest and past it. -/
theorem verifyElements_outcome (hSorted : runtime.SortsOrTypeError)
    (bodyProtected bodyUnprotected payload signatures : Object) :
    Outcome (verifyElements sha256 runtime bodyProtected bodyUnprotected payload signatures)
      (fun _ => True) (Exception.OnlyIf
        (ElementsOverflow runtime bodyProtected bodyUnprotected payload signatures)) := by
  refine Outcome.check (fun _ => Or.inl trivial) fun hUnprotected => ?_
  rw [Bool.not_eq_false, isEmptyDict_eq_true] at hUnprotected
  cases payload with
  | bytes octets =>
      dsimp only
      cases hBody : validateBodyProtected bodyProtected with
      | error exception =>
          exact Or.inl ((validateBodyProtected_outcome bodyProtected).of_error hBody)
      | ok _ =>
          have hShortBody := (validateBodyProtected_outcome bodyProtected).of_ok hBody
          rw [ok_bind]
          cases signatures with
          | list entries =>
              refine Outcome.check (fun _ => Or.inl trivial) fun hTwo => ?_
              cases hSignatures : parseSignatures 0 (entries.zip expectedProfiles) with
              | error exception =>
                  exact Or.inl ((parseSignatures_outcome _ 0).of_error hSignatures)
              | ok parsed =>
                  have hHeaders := (parseSignatures_outcome _ 0).of_ok hSignatures
                  rw [ok_bind]
                  cases hManifest : decodeManifestCbor runtime octets with
                  | error exception =>
                      obtain hClosed | ⟨hRange, hOverflow⟩ :=
                        (decodeManifestCbor_outcome hSorted octets).of_error hManifest
                      · exact Or.inl hClosed
                      · exact Or.inr ⟨hRange, octets, entries, hUnprotected, rfl, rfl, hBody,
                          not_not.mp hTwo, ⟨parsed, hSignatures⟩, hOverflow⟩
                  | ok manifest =>
                      obtain ⟨hShort, keys, hKeys, hBound⟩ :=
                        (decodeManifestCbor_outcome hSorted octets).of_ok hManifest
                      exact (verifyBindings_failsClosed hKeys hBound hShortBody
                        ⟨octets, rfl, hShort⟩ hHeaders).onlyIf _
          | none | bool _ | int _ | float _ | str _ | bytes _ | dict _ | tag _ _ =>
              exact Or.inl trivial
  | none | bool _ | int _ | float _ | str _ | list _ | dict _ | tag _ _ => exact Or.inl trivial

theorem verifyElements_of_overflow
    {bodyProtected bodyUnprotected payload signatures : Object}
    (h : ElementsOverflow runtime bodyProtected bodyUnprotected payload signatures) :
    verifyElements sha256 runtime bodyProtected bodyUnprotected payload signatures =
      .error outOfRange := by
  obtain ⟨octets, entries, rfl, rfl, rfl, hBody, hTwo, ⟨parsed, hParsed⟩, hOverflow⟩ := h
  simp [verifyElements, isEmptyDict, hBody, hTwo, hParsed,
    decodeManifestCbor_of_overflows hOverflow, failIf_of_not]

/-- The verifier raises exceptions of interoperability, or the one of the conversion
where the manifest overflows. -/
theorem verifyManifestCoseConformance_outcome (hSorted : runtime.SortsOrTypeError)
    (envelope : Bytes) :
    Outcome (verifyManifestCoseConformance sha256 runtime envelope) (fun _ => True)
      (Exception.OnlyIf (EnvelopeOverflows runtime envelope)) := by
  unfold verifyManifestCoseConformance
  cases hDocument : decodeCborDocument Flags.envelope envelope with
  | error exception =>
      exact Or.inl ((decodeCborDocument_failsClosed Flags.envelope envelope).of_error hDocument)
  | ok document =>
      rw [ok_bind]
      split
      case h_1 outer =>
        split
        case h_1 bodyProtected bodyUnprotected payload signatures =>
          cases hElements : verifyElements sha256 runtime bodyProtected bodyUnprotected payload
              signatures with
          | ok manifest => trivial
          | error exception =>
              obtain hClosed | ⟨hRange, hOverflow⟩ :=
                (verifyElements_outcome hSorted _ _ _ _).of_error hElements
              · exact Or.inl hClosed
              · exact Or.inr ⟨hRange, _, _, _, _, hDocument, hOverflow⟩
        case h_2 => exact Or.inl trivial
      case h_2 => exact Or.inl trivial

theorem verifyManifestCoseConformance_of_overflows {envelope : Bytes}
    (h : EnvelopeOverflows runtime envelope) :
    verifyManifestCoseConformance sha256 runtime envelope = .error outOfRange := by
  obtain ⟨_, _, _, _, hDocument, hElements⟩ := h
  rw [verifyManifestCoseConformance, hDocument, ok_bind]
  exact verifyElements_of_overflow hElements

end Envelope

/-- A result that raises an exception of interoperability, or the one of a conversion
when something overflows, fails closed exactly when it does not. -/
theorem failsClosed_iff_not {α : Type} {result : Result α} {overflow : Prop}
    {returns : α → Prop} (hOutcome : Outcome result returns (Exception.OnlyIf overflow))
    (hOverflow : overflow → result = .error outOfRange) : FailsClosed result ↔ ¬overflow := by
  constructor
  · intro hClosed h
    exact hClosed.of_error (hOverflow h)
  · intro hNot
    cases result with
    | ok value => trivial
    | error exception => exact hOutcome.resolve_right fun h => hNot h.2

end Tfws.Python
