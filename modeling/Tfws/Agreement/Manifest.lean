import Tfws.Agreement.PythonPolicy
import Tfws.Core.CborManifest
import Tfws.Python.RuntimeModel

/-! The two manifest decoders. Both accept only drafts that meet the common
demands; they agree on a document exactly when it meets the demands of both or
misses some of each. -/
namespace Tfws

open SerdeJson Fallible
open Python (Object Key Runtime)

variable {crates : Crates} {runtime : Runtime} {limits : CborLimits} {depth : Nat}

section Fields

variable {root : List (String × Value)} {name : String}

/-- A value is a map with some facts exactly if it is an object whose fields, read as
those of a struct, meet them. -/
theorem mapWith_iff {names : List String} {fact : (String → Option Value) → Prop} {value : Value} :
    MapWith names fact value ↔
      isObject value ∧ ∃ field, structFields names value = some field ∧ fact field := by
  cases value with
  | object entries =>
      simp only [MapWith, Value.object.injEq, exists_eq_left', structFields_object, isObject,
        true_and, and_assoc]
      constructor
      · intro h
        exact ⟨_, h.1, rfl, h.2⟩
      · intro h
        obtain ⟨_, hKnown, rfl, hFact⟩ := h
        exact ⟨hKnown, hFact⟩
  | _ => simp [MapWith, isObject]

/-- A field that is a map with some facts is read as a struct, from a map. -/
theorem subFields_of_mapWith {names : List String} {fact : (String → Option Value) → Prop}
    {value : Value} (hField : SortedMap.lookup name root = some value)
    (h : MapWith names fact value) :
    fieldIsObject name root = true ∧
      ∃ field, subFields names (SortedMap.lookup name root) = some field ∧ fact field := by
  obtain ⟨hObject, hFields⟩ := mapWith_iff.mp h
  rw [fieldIsObject, hField]
  exact ⟨hObject, hFields⟩

/-- A struct that is read from a map is a map with every fact about its fields. -/
theorem mapWith_of_subFields {names : List String} {field : String → Option Value}
    (hShape : fieldIsObject name root = true)
    (hField : subFields names (SortedMap.lookup name root) = some field) :
    ∃ value, SortedMap.lookup name root = some value ∧
      ∀ fact : (String → Option Value) → Prop, fact field → MapWith names fact value := by
  obtain ⟨value, hValue, hFields⟩ := Option.bind_eq_some_iff.mp hField
  rw [fieldIsObject, hValue] at hShape
  refine ⟨value, hValue, ?_⟩
  intro fact hFact
  exact mapWith_iff.mpr ⟨hShape, field, hFields, hFact⟩

theorem readList_iff {α : Type} {read : Value → Option α} {field : Option Value}
    {members : List α} :
    readList read field = some members ↔
      ∃ items, field = some (.array items) ∧ items.mapM read = some members := by
  unfold readList
  split <;> simp_all

/-- A field that is a list of maps is read member by member, each from a map. -/
theorem mapsField_iff {α : Type} {read : Value → Option α} {members : List α} :
    (∃ items, SortedMap.lookup name root = some (.array items) ∧ ReadsMaps read items members) ↔
      membersAreObjects name root = true ∧
        readList read (SortedMap.lookup name root) = some members := by
  rw [membersAreObjects, readList_iff]
  constructor
  · intro h
    obtain ⟨items, hItems, hReads⟩ := h
    rw [hItems]
    exact ⟨List.all_eq_true.mpr hReads.objects, items, rfl, hReads.members⟩
  · intro h
    obtain ⟨hObjects, items, hItems, hMembers⟩ := h
    rw [hItems] at hObjects
    exact ⟨items, hItems, List.all_eq_true.mp hObjects, hMembers⟩

end Fields

section Policy

variable {root : List (String × Value)}

section Structs

variable (h : Decoded limits depth (.object root)) (hPolicy : PythonPolicy runtime root)

include h hPolicy

/-- The operator is a map, with a name that is not blank where it is a text. -/
theorem PythonPolicy.exists_operator : fieldIsObject "operator" root = true ∧
    ∃ operator name jurisdiction,
      subFields Operator.fields (SortedMap.lookup "operator" root) = some operator ∧
      operator "name" = some name ∧
      (∀ text, name = .string text → Python.stripIsEmpty text = false) ∧
      readOptionString (operator "jurisdiction") = some jurisdiction ∧
      ∀ code ∈ jurisdiction, code.toList.length = 2 ∧ Python.isAsciiUpper code := by
  obtain ⟨_, hField, hChecked⟩ := hPolicy.operator
  obtain ⟨hShape, operator, hFields, ⟨name, hName, hBlank⟩, jurisdiction, hJurisdiction, hCode⟩ :=
    subFields_of_mapWith hField ((validateOperator_eq_ok (h.field hField)).mp hChecked)
  exact ⟨hShape, operator, name, jurisdiction, hFields, hName, hBlank, hJurisdiction, hCode⟩

/-- The signature policy is a map that names the baseline; its algorithms may come in
any container that has the texts. -/
theorem PythonPolicy.exists_policy : fieldIsObject "signature_policy" root = true ∧
    ∃ policy algorithms,
      subFields SignaturePolicy.fields (SortedMap.lookup "signature_policy" root) = some policy ∧
      policy "policy_id" = some (.string baselinePolicy) ∧
      policy "required_algorithms" = some algorithms ∧
      ∃ items, (Object.ofValue algorithms).tuple = .ok items ∧
        items.mapM Object.text? = some baselineAlgorithms := by
  obtain ⟨_, hField, hChecked⟩ := hPolicy.policy
  obtain ⟨hShape, policy, hFields, hPolicyId, algorithms, hAlgorithms, hTexts⟩ :=
    subFields_of_mapWith hField ((validatePolicy_eq_ok (h.field hField)).mp hChecked)
  exact ⟨hShape, policy, algorithms, hFields, hPolicyId, hAlgorithms, hTexts⟩

/-- The capabilities are a map of two lists, the required ones all known texts and the
optional ones hashable. -/
theorem PythonPolicy.exists_capabilities : fieldIsObject "capabilities" root = true ∧
    ∃ capabilities required optional,
      subFields Capabilities.fields (SortedMap.lookup "capabilities" root) = some capabilities ∧
      readStrings (capabilities "required") = some required ∧
      readMembers (capabilities "optional") = some optional ∧
      required.Nodup ∧ (∀ capability ∈ required, capability ∈ knownCapabilities) ∧
      (∀ item ∈ optional, (Object.ofValue item).hashable) ∧
      (optional.Pairwise fun first second =>
        (Object.ofValue first).equal (Object.ofValue second) = false) ∧
      ∀ capability ∈ required, Value.string capability ∉ optional := by
  obtain ⟨_, hField, hChecked⟩ := hPolicy.capabilities
  obtain ⟨hShape, capabilities, hFields, _, optional, hRequired, hOptional, hLists⟩ :=
    subFields_of_mapWith hField
      ((Python.validateCapabilities_eq_ok (h.field hField)).mp hChecked)
  obtain ⟨required, rfl, hFacts⟩ := validateCapabilityLists_eq_ok.mp hLists
  exact ⟨hShape, capabilities, required, optional, hFields, readStrings_eq_some.mpr hRequired,
    readMembers_eq_some.mpr hOptional, hFacts⟩

/-- The artifacts are a list of maps, each of which is read as an artifact. -/
theorem PythonPolicy.exists_artifacts : membersAreObjects "artifacts" root = true ∧
    ∃ artifacts,
      readList Artifact.deserialize (SortedMap.lookup "artifacts" root) = some artifacts ∧
      ∀ artifact ∈ artifacts, artifact.uri ≠ "" ∧ artifact.mediaType ≠ "" ∧
        isLowerHex artifact.sha512 128 := by
  obtain ⟨items, hField, hChecked⟩ := hPolicy.artifacts
  obtain ⟨artifacts, hItems, hValid⟩ :=
    (Python.validateArtifacts_eq_ok (h.field hField).item).mp hChecked
  obtain ⟨hShape, hArtifacts⟩ := mapsField_iff.mp ⟨items, hField, hItems⟩
  exact ⟨hShape, artifacts, hArtifacts, hValid⟩

/-- A document that the policy accepts is read as a draft that meets all demands, with
a map for every struct. -/
theorem PythonPolicy.exists_draft : mapShaped (.object root) = true ∧
      ∃ draft, Draft.deserialize (.object root) = some draft ∧ draft.Common ∧
        draft.PythonDemands runtime := by
  obtain ⟨subject, hSubject, hOrigin⟩ := hPolicy.subject
  obtain ⟨environment, hEnvironmentName, hEnvironment⟩ := hPolicy.environment
  obtain ⟨keyEpoch, hKeyEpoch, hEpoch⟩ := hPolicy.keyEpoch
  obtain ⟨hPolicyShape, policy, algorithms, hPolicyFields, hPolicyId, hAlgorithms, hTexts⟩ :=
    hPolicy.exists_policy h
  obtain ⟨keys, keyItems, hKeysField, hKeyItems, hUnbound, hBound, hKeysValid, hKeysNodup⟩ :=
    hPolicy.keys
  obtain ⟨hKeysShape, hKeys⟩ := mapsField_iff.mp ⟨keyItems, hKeysField, hKeyItems⟩
  obtain ⟨hCapabilitiesShape, capabilities, required, optional, hCapabilityFields, hRequired,
    hOptional, hNodup, hKnown, hHashable, hDistinct, hDisjoint⟩ := hPolicy.exists_capabilities h
  obtain ⟨updatedAt, expiresAt, hUpdatedAt, hExpiresAt, hTimes⟩ :=
    (validateTimes_eq_ok h).mp hPolicy.times
  obtain ⟨hOperatorShape, operator, name, jurisdiction, hOperatorFields, hName, hBlank,
    hJurisdiction, hCode⟩ := hPolicy.exists_operator h
  obtain ⟨hArtifactsShape, artifacts, hArtifacts, hArtifactsValid⟩ := hPolicy.exists_artifacts h
  let draft : Draft :=
    { tfwsVersion := "3.0", subject, environment, operatorName := name, jurisdiction, keyEpoch,
      keys, policyId := baselinePolicy, requiredAlgorithms := algorithms, required, optional,
      identity := SortedMap.lookup "identity" root, artifacts, updatedAt, expiresAt }
  have hRead : draft.ReadFrom (fun name => SortedMap.lookup name root) operator policy
      capabilities := {
    tfwsVersion := readString_eq_some.mpr hPolicy.version
    subject := readString_eq_some.mpr hSubject
    environment := readString_eq_some.mpr hEnvironment
    operatorFields := hOperatorFields
    operatorName := hName
    jurisdiction := hJurisdiction
    keyEpoch := readU64_eq_some.mpr hKeyEpoch
    keys := hKeys
    policyFields := hPolicyFields
    policyId := readString_eq_some.mpr hPolicyId
    requiredAlgorithms := hAlgorithms
    capabilityFields := hCapabilityFields
    required := hRequired
    optional := hOptional
    identity := rfl
    artifacts := hArtifacts
    updatedAt := readString_eq_some.mpr hUpdatedAt
    expiresAt := hExpiresAt }
  refine ⟨?_, draft, Draft.deserialize_eq_some.mpr ⟨_, operator, policy, capabilities,
    structFields_object.mpr ⟨hPolicy.known, rfl⟩, hRead⟩, ?_, ?_⟩
  · simp only [mapShaped, Bool.and_eq_true]
    exact ⟨⟨⟨⟨hOperatorShape, hPolicyShape⟩, hCapabilitiesShape⟩, hKeysShape⟩, hArtifactsShape⟩
  · exact {
      version := rfl
      environment := hEnvironmentName
      jurisdiction := hCode
      keyEpoch := hEpoch
      unbound := fun hNil => Value.string.inj
        (Option.some.inj (hEnvironment.symm.trans (hUnbound hNil)))
      bound := hBound
      keys := fun key hMem => (hKeysValid key hMem).1
      keys_nodup := hKeysNodup
      policyId := rfl
      requiredAlgorithms := hTexts
      required_nodup := hNodup
      known := hKnown
      optional_hashable := hHashable
      optional_distinct := hDistinct
      disjoint := hDisjoint
      mediaTypes := fun artifact hMem => (hArtifactsValid artifact hMem).2.1
      sha512 := fun artifact hMem => (hArtifactsValid artifact hMem).2.2 }
  · exact {
      subject := hOrigin
      operatorName := hBlank
      keyIds := fun key hMem => (hKeysValid key hMem).2
      uris := fun artifact hMem => (hArtifactsValid artifact hMem).1
      times := hTimes }

end Structs

/-- The converse: a draft that meets all demands comes from a document that the policy
accepts. -/
theorem Draft.pythonPolicy (h : Decoded limits depth (.object root))
    (hShape : mapShaped (.object root) = true) {draft : Draft}
    (hDraft : Draft.deserialize (.object root) = some draft) (hCommon : draft.Common)
    (hDemands : draft.PythonDemands runtime) : PythonPolicy runtime root := by
  obtain ⟨_, operator, policy, capabilities, hFields, hRead⟩ := Draft.deserialize_eq_some.mp hDraft
  obtain ⟨hKnown, rfl⟩ := structFields_object.mp hFields
  simp only [mapShaped, Bool.and_eq_true] at hShape
  obtain ⟨⟨⟨⟨hOperatorShape, hPolicyShape⟩, hCapabilitiesShape⟩, hKeysShape⟩,
    hArtifactsShape⟩ := hShape
  obtain ⟨_, hOperatorField, hOperator⟩ :=
    mapWith_of_subFields hOperatorShape hRead.operatorFields
  obtain ⟨_, hPolicyField, hPolicy⟩ := mapWith_of_subFields hPolicyShape hRead.policyFields
  obtain ⟨_, hCapabilitiesField, hCapabilities⟩ :=
    mapWith_of_subFields hCapabilitiesShape hRead.capabilityFields
  obtain ⟨keyItems, hKeysField, hKeys⟩ := mapsField_iff.mpr ⟨hKeysShape, hRead.keys⟩
  obtain ⟨artifactItems, hArtifactsField, hArtifacts⟩ :=
    mapsField_iff.mpr ⟨hArtifactsShape, hRead.artifacts⟩
  exact {
    known := hKnown
    version := hCommon.version ▸ readString_eq_some.mp hRead.tfwsVersion
    subject := ⟨_, readString_eq_some.mp hRead.subject, hDemands.subject⟩
    environment := ⟨_, hCommon.environment, readString_eq_some.mp hRead.environment⟩
    keyEpoch := ⟨_, readU64_eq_some.mp hRead.keyEpoch, hCommon.keyEpoch⟩
    policy := ⟨_, hPolicyField, (validatePolicy_eq_ok (h.field hPolicyField)).mpr
      (hPolicy _ ⟨hCommon.policyId ▸ readString_eq_some.mp hRead.policyId, _,
        hRead.requiredAlgorithms, hCommon.requiredAlgorithms⟩)⟩
    keys := ⟨draft.keys, keyItems, hKeysField, hKeys,
      fun hNil => hCommon.unbound hNil ▸ readString_eq_some.mp hRead.environment, hCommon.bound,
      fun key hMem => ⟨hCommon.keys key hMem, hDemands.keyIds key hMem⟩, hCommon.keys_nodup⟩
    capabilities := ⟨_, hCapabilitiesField,
      (Python.validateCapabilities_eq_ok (h.field hCapabilitiesField)).mpr
        (hCapabilities _ ⟨_, _, readStrings_eq_some.mp hRead.required,
          readMembers_eq_some.mp hRead.optional, validateCapabilityLists_eq_ok.mpr
            ⟨_, rfl, hCommon.required_nodup, hCommon.known, hCommon.optional_hashable,
              hCommon.optional_distinct, hCommon.disjoint⟩⟩)⟩
    times := (validateTimes_eq_ok h).mpr ⟨_, _, readString_eq_some.mp hRead.updatedAt,
      hRead.expiresAt, hDemands.times⟩
    operator := ⟨_, hOperatorField, (validateOperator_eq_ok (h.field hOperatorField)).mpr
      (hOperator _ ⟨⟨_, hRead.operatorName, hDemands.operatorName⟩, _, hRead.jurisdiction,
        hCommon.jurisdiction⟩)⟩
    artifacts := ⟨artifactItems, hArtifactsField,
      (Python.validateArtifacts_eq_ok (h.field hArtifactsField).item).mpr ⟨draft.artifacts,
        hArtifacts, fun artifact hMem => ⟨hDemands.uris artifact hMem,
          hCommon.mediaTypes artifact hMem, hCommon.sha512 artifact hMem⟩⟩⟩ }

/-- The reference implementation accepts a document when it is a map at every struct
and its draft meets the common demands and those of Python. -/
theorem pythonPolicy_iff (h : Decoded limits depth (.object root)) :
    PythonPolicy runtime root ↔ mapShaped (.object root) ∧
      ∃ draft, Draft.deserialize (.object root) = some draft ∧ draft.Common ∧
        draft.PythonDemands runtime := by
  constructor
  · exact PythonPolicy.exists_draft h
  · intro hAll
    obtain ⟨hShape, draft, hDraft, hCommon, hDemands⟩ := hAll
    exact Draft.pythonPolicy h hShape hDraft hCommon hDemands

end Policy

/-- The reference decoder accepts the encodings of the documents that its policy
accepts, and returns their dictionaries. -/
theorem Python.decodeManifestCbor_eq_ok {data : Bytes} {manifest : List (Key × Object)} :
    Python.decodeManifestCbor runtime data = .ok manifest ↔
      ∃ (value : OrderedValue) (root : List (String × Value)), Encodes pythonLimits value data ∧
        value.value = .object root ∧ PythonPolicy runtime root ∧
        Object.dict manifest = Object.ofValue value.value := by
  have hStage {object : Object} : Python.decodeCborDocument Flags.manifest data = .ok object ∧
      Python.validateManifestCborValue "$" object = .ok () ↔
        ∃ value : OrderedValue, Encodes pythonLimits value data ∧
          object = Object.ofValue value.value := by
    rw [← Python.decodeManifestValue_eq_ok, Python.decodeManifestValue, bind_eq_ok]
    simp [then_eq_ok, ← and_assoc]
  rw [Python.decodeManifestCbor, bind_eq_ok]
  constructor
  · rintro ⟨object, hObject, hManifest⟩
    cases object with
    | dict entries =>
        simp only [then_eq_ok, mapError_eq_ok, Except.ok.injEq] at hManifest
        obtain ⟨hPlain, hValid, rfl⟩ := hManifest
        obtain ⟨value, hEncodes, hValue⟩ := hStage.mp ⟨hObject, hPlain⟩
        obtain ⟨root, hRoot⟩ := ofValue_eq_dict hValue.symm
        have hDecoded : Decoded pythonLimits 0 (.object root) :=
          hRoot ▸ ⟨hEncodes.admissible, value.ordered⟩
        rw [hRoot, Object.ofValue_object_eq, Object.dict.injEq] at hValue
        rw [hValue, validateManifest_eq_ok hDecoded] at hValid
        exact ⟨value, root, hEncodes, hRoot, hValid, by rw [hRoot, hValue, Object.ofValue_object_eq]⟩
    | _ => simp at hManifest
  · rintro ⟨value, root, hEncodes, hRoot, hPolicy, hManifest⟩
    obtain ⟨hObject, hPlain⟩ := hStage.mpr ⟨value, hEncodes, rfl⟩
    have hDecoded : Decoded pythonLimits 0 (.object root) :=
      hRoot ▸ ⟨hEncodes.admissible, value.ordered⟩
    have hValid := (validateManifest_eq_ok hDecoded).mpr hPolicy
    rw [← hManifest] at hObject hPlain
    rw [hRoot, Object.ofValue_object_eq, Object.dict.injEq] at hManifest
    refine ⟨_, hObject, ?_⟩
    simp only [then_eq_ok, mapError_eq_ok]
    exact ⟨hPlain, hManifest ▸ hValid, trivial⟩

/-- The dictionary and the manifest stand for the same document: agreement is about
this and not about verdicts alone. -/
def SameManifest (manifest : Manifest) (entries : List (Key × Object)) : Prop :=
  (Object.dict entries).toValue = some manifest.document

/-- Whatever one of the decoders returns, the other one returns it, too. -/
structure ManifestDecodersAgree (crates : Crates) (limits : CborLimits) (runtime : Runtime)
    (data : Bytes) : Prop where
  python : ∀ manifest, decodeManifestCbor crates data limits = .ok manifest →
    ∃ entries, Python.decodeManifestCbor runtime data = .ok entries ∧
      SameManifest manifest entries
  rust : ∀ entries, Python.decodeManifestCbor runtime data = .ok entries →
    ∃ manifest, decodeManifestCbor crates data limits = .ok manifest ∧
      SameManifest manifest entries

/-- A document that both policies could accept meets the demands that only one
of them makes on both sides or on neither. -/
def DemandsCoincide (crates : Crates) (runtime : Runtime) (data : Bytes) : Prop :=
  ∀ value draft, Encodes pythonLimits value data → Draft.deserialize value.value = some draft →
    draft.Common →
    (draft.RustDemands crates ↔ mapShaped value.value ∧ draft.PythonDemands runtime)

theorem eq_object_of_mapShaped {value : Value} (h : mapShaped value) :
    ∃ root, value = .object root := by
  cases value with
  | object root => exact ⟨root, rfl⟩
  | _ => cases h

/-- What `tfws-core` accepts, by the draft of the document: its common demands, and
those that only it makes. -/
theorem decodeManifestCbor_iff_draft {data : Bytes} {value : OrderedValue}
    (hEncodes : Encodes pythonLimits value data) :
    (∃ manifest, decodeManifestCbor crates data pythonLimits = .ok manifest) ↔
      ∃ draft, Draft.deserialize value.value = some draft ∧ draft.Common ∧
        draft.RustDemands crates := by
  have hDecoded : Decoded pythonLimits 0 value.value := ⟨hEncodes.admissible, value.ordered⟩
  constructor
  · rintro ⟨manifest, hManifest⟩
    obtain ⟨read, hRead, hDeserialize, hLawful⟩ := decodeManifestCbor_eq_ok.mp hManifest
    obtain rfl := hEncodes.value_unique crates hRead
    obtain ⟨draft, hDraft, hTypes⟩ := (Manifest.deserialize_iff_draft hDecoded).mp hDeserialize
    have hAccepts : draft.RustAccepts crates manifest :=
      ⟨hTypes, requireIdentityObject_eq_ok.mp hLawful.identity,
        Manifest.validate_eq_ok.mp hLawful.valid⟩
    exact ⟨draft, hDraft, hAccepts.common, hAccepts.demands⟩
  · rintro ⟨draft, hDraft, hCommon, hDemands⟩
    have hIdentity : ∀ identity ∈ draft.identity, Decoded pythonLimits 1 identity := by
      intro identity hMem
      obtain ⟨field, _, _, _, hFields, hRead⟩ := Draft.deserialize_eq_some.mp hDraft
      exact hDecoded.structField hFields (hRead.identity.trans hMem)
    obtain ⟨manifest, hTypes, hObject, hValid⟩ := Draft.exists_rustAccepts hIdentity hCommon hDemands
    exact ⟨manifest, decodeManifestCbor_eq_ok.mpr ⟨value, hEncodes,
      (Manifest.deserialize_iff_draft hDecoded).mpr ⟨draft, hDraft, hTypes⟩,
      Manifest.validate_eq_ok.mpr hValid, requireIdentityObject_eq_ok.mpr hObject⟩⟩

/-- What the reference implementation accepts, by the draft of the document, which has
to be a map at every struct. -/
theorem Python.decodeManifestCbor_iff_draft {data : Bytes} {value : OrderedValue}
    (hEncodes : Encodes pythonLimits value data) {entries : List (Key × Object)} :
    Python.decodeManifestCbor runtime data = .ok entries ↔
      Object.dict entries = Object.ofValue value.value ∧ mapShaped value.value ∧
        ∃ draft, Draft.deserialize value.value = some draft ∧ draft.Common ∧
          draft.PythonDemands runtime := by
  have hDecoded : Decoded pythonLimits 0 value.value := ⟨hEncodes.admissible, value.ordered⟩
  rw [Python.decodeManifestCbor_eq_ok]
  constructor
  · rintro ⟨read, root, hRead, hRoot, hPolicy, hEntries⟩
    obtain rfl := hEncodes.value_unique Crates.model hRead
    rw [hRoot] at hDecoded hEntries ⊢
    exact ⟨hEntries, (pythonPolicy_iff hDecoded).mp hPolicy⟩
  · rintro ⟨hEntries, hShape, hDraft⟩
    obtain ⟨root, hRoot⟩ := ofValue_eq_dict hEntries.symm
    rw [hRoot] at hDecoded hShape hDraft
    exact ⟨value, root, hEncodes, hRoot, (pythonPolicy_iff hDecoded).mpr ⟨hShape, hDraft⟩, hEntries⟩

/-- Two decoders that accept the same octets return the same manifest, be it as a
struct or as a dictionary. -/
theorem sameManifest_of_decode {data : Bytes} {manifest : Manifest} {entries : List (Key × Object)}
    (hRust : decodeManifestCbor crates data pythonLimits = .ok manifest)
    (hPython : Python.decodeManifestCbor runtime data = .ok entries) :
    SameManifest manifest entries := by
  obtain ⟨value, hEncodes, hDeserialize, _⟩ := decodeManifestCbor_eq_ok.mp hRust
  obtain ⟨hEntries, hShape, _⟩ := (Python.decodeManifestCbor_iff_draft hEncodes).mp hPython
  have hValue := (Manifest.deserialize_mapShaped ⟨hEncodes.admissible, value.ordered⟩ hShape).mp
    hDeserialize
  rw [SameManifest, hEntries, Object.toValue_ofValue value.ordered, hValue]

/-- The decoders agree on the octets exactly when the demands coincide there. The
demands are listed field by field and speak of the document alone. -/
theorem manifestDecodersAgree_iff (crates : Crates) (runtime : Runtime) (data : Bytes) :
    ManifestDecodersAgree crates pythonLimits runtime data ↔ DemandsCoincide crates runtime data := by
  constructor
  · intro hAgree value draft hEncodes hDraft hCommon
    constructor
    · intro hDemands
      obtain ⟨manifest, hManifest⟩ :=
        (decodeManifestCbor_iff_draft hEncodes).mpr ⟨draft, hDraft, hCommon, hDemands⟩
      obtain ⟨entries, hEntries, _⟩ := hAgree.python manifest hManifest
      obtain ⟨_, hShape, other, hOther, _, hPython⟩ :=
        (Python.decodeManifestCbor_iff_draft hEncodes).mp hEntries
      obtain rfl := Option.some.inj (hDraft.symm.trans hOther)
      exact ⟨hShape, hPython⟩
    · rintro ⟨hShape, hDemands⟩
      obtain ⟨root, hRoot⟩ := eq_object_of_mapShaped hShape
      obtain ⟨manifest, hManifest, _⟩ := hAgree.rust (Object.ofEntries root)
        ((Python.decodeManifestCbor_iff_draft hEncodes).mpr ⟨by rw [hRoot, Object.ofValue_object_eq],
          hShape, draft, hDraft, hCommon, hDemands⟩)
      obtain ⟨other, hOther, _, hRust⟩ :=
        (decodeManifestCbor_iff_draft hEncodes).mp ⟨manifest, hManifest⟩
      obtain rfl := Option.some.inj (hDraft.symm.trans hOther)
      exact hRust
  · intro hCoincide
    constructor
    · intro manifest hManifest
      obtain ⟨value, hEncodes, _⟩ := decodeManifestCbor_eq_ok.mp hManifest
      obtain ⟨draft, hDraft, hCommon, hDemands⟩ :=
        (decodeManifestCbor_iff_draft hEncodes).mp ⟨manifest, hManifest⟩
      obtain ⟨hShape, hPython⟩ := (hCoincide value draft hEncodes hDraft hCommon).mp hDemands
      obtain ⟨root, hRoot⟩ := eq_object_of_mapShaped hShape
      have hEntries := (Python.decodeManifestCbor_iff_draft hEncodes).mpr
        ⟨by rw [hRoot, Object.ofValue_object_eq], hShape, draft, hDraft, hCommon, hPython⟩
      exact ⟨Object.ofEntries root, hEntries, sameManifest_of_decode hManifest hEntries⟩
    · intro entries hEntries
      obtain ⟨value, root, hEncodes, _⟩ := Python.decodeManifestCbor_eq_ok.mp hEntries
      obtain ⟨_, hShape, draft, hDraft, hCommon, hPython⟩ :=
        (Python.decodeManifestCbor_iff_draft hEncodes).mp hEntries
      have hDemands := (hCoincide value draft hEncodes hDraft hCommon).mpr ⟨hShape, hPython⟩
      obtain ⟨manifest, hManifest⟩ :=
        (decodeManifestCbor_iff_draft hEncodes).mpr ⟨draft, hDraft, hCommon, hDemands⟩
      exact ⟨manifest, hManifest, sameManifest_of_decode hManifest hEntries⟩

/-- The reference implementation accepts the document of a lawful manifest that also
meets its own demands. -/
theorem Manifest.Lawful.exists_draft {manifest : Manifest} (hLawful : manifest.Lawful crates)
    (hDecoded : Decoded limits 0 manifest.document)
    (hDemands : ∀ draft : Draft, draft.Types manifest → draft.PythonDemands runtime) :
    ∃ draft, Draft.deserialize manifest.document = some draft ∧ draft.Common ∧
      draft.PythonDemands runtime := by
  have hRead := (Manifest.deserialize_mapShaped hDecoded manifest.document_mapShaped).mpr rfl
  obtain ⟨draft, hDraft, hTypes⟩ := (Manifest.deserialize_iff_draft hDecoded).mp hRead
  have hAccepts : draft.RustAccepts crates manifest :=
    ⟨hTypes, requireIdentityObject_eq_ok.mp hLawful.identity,
      Manifest.validate_eq_ok.mp hLawful.valid⟩
  exact ⟨draft, hDraft, hAccepts.common, hDemands draft hTypes⟩

/-- The decoders agree on the document of a lawful manifest that also meets the
demands of the reference implementation. -/
theorem manifestDecodersAgree_of_lawful {manifest : Manifest} {octets : Bytes}
    (hLawful : manifest.Lawful crates) (hEncodes : Encodes limits manifest.orderedDocument octets)
    (hPython : Encodes pythonLimits manifest.orderedDocument octets)
    (hDemands : ∀ draft : Draft, draft.Types manifest → draft.PythonDemands runtime) :
    ManifestDecodersAgree crates limits runtime octets := by
  have hRust := hLawful.decode_document hEncodes
  have hDecode := hLawful.decode_document hPython
  have hDraft := hLawful.exists_draft ⟨hPython.admissible, manifest.document_ordered⟩ hDemands
  have hEntries : Python.decodeManifestCbor runtime octets =
      .ok (Object.ofEntries (SortedMap.present manifest.record)) :=
    (Python.decodeManifestCbor_iff_draft hPython).mpr
      ⟨(Object.ofValue_object_eq _).symm, manifest.document_mapShaped, hDraft⟩
  constructor
  · intro other hOther
    obtain rfl := Except.ok.inj (hRust.symm.trans hOther)
    exact ⟨_, hEntries, sameManifest_of_decode hDecode hEntries⟩
  · intro other hOther
    obtain rfl := Except.ok.inj (hEntries.symm.trans hOther)
    exact ⟨_, hRust, sameManifest_of_decode hDecode hEntries⟩

theorem CborLimits.small_atMost_python : CborLimits.small.AtMost pythonLimits := by
  constructor <;> decide

theorem Manifest.encodes_python_sample :
    Encodes pythonLimits Manifest.sample.orderedDocument Manifest.sample.document.item.encode :=
  encodes_of_smallEntries smallEntries_sample CborLimits.small_atMost_python

/-- The manifest has what Python looks at for itself from the test vector. -/
structure Manifest.LikeSample (manifest : Manifest) : Prop where
  subject : manifest.subject = Manifest.sample.subject
  operatorName : manifest.operator.name = Manifest.sample.operator.name
  keys : manifest.keys = Manifest.sample.keys
  artifacts : manifest.artifacts = Manifest.sample.artifacts
  updatedAt : manifest.updatedAt = Manifest.sample.updatedAt
  expiresAt : manifest.expiresAt = Manifest.sample.expiresAt

/-- A manifest that differs from the test vector in harmless places meets the demands
of the reference implementation. -/
theorem Draft.pythonDemands_likeSample {draft : Draft} {manifest : Manifest}
    (h : draft.Types manifest) (hLike : manifest.LikeSample) : draft.PythonDemands .model := by
  have hUpdated : Python.parseRfc3339 .model (.str "2026-07-21T00:00:00Z") = .ok 63946627200 := by
    decide
  have hExpires : Python.parseRfc3339 .model (.str "2027-07-21T00:00:00Z") = .ok 63978163200 := by
    decide +kernel
  constructor
  · rw [h.subject, hLike.subject]
    exact ⟨_, rfl, by decide +kernel⟩
  · rw [h.operatorName, hLike.operatorName]
    rintro _ ⟨⟩
    decide +kernel
  · rw [h.keys, hLike.keys]
    decide +kernel
  · rw [h.artifacts, hLike.artifacts]
    exact fun artifact hMem => absurd hMem List.not_mem_nil
  · rw [h.updatedAt, h.expiresAt, hLike.updatedAt, hLike.expiresAt]
    refine ⟨_, hUpdated, ?_⟩
    rintro _ ⟨⟩
    exact ⟨_, hExpires, by decide⟩

theorem Draft.pythonDemands_sample {draft : Draft} (h : draft.Types .sample) :
    draft.PythonDemands .model :=
  pythonDemands_likeSample h ⟨rfl, rfl, rfl, rfl, rfl, rfl⟩

/-- The test vector, last updated at a time that is none. -/
def Manifest.timeless : Manifest := { Manifest.sample with updatedAt := "yesterday" }

/-- A time that is no time passes the policy of `tfws-core`. -/
theorem Manifest.lawful_timeless : Manifest.timeless.Lawful .model := lawful_updated _

theorem Manifest.encodes_timeless :
    Encodes pythonLimits Manifest.timeless.orderedDocument
      Manifest.timeless.document.item.encode := by
  have hText : SmallEntry ("updated_at", .string "yesterday") :=
    ⟨by decide +kernel, validateValueProfile_eq_ok.mp (by decide)⟩
  exact encodes_of_smallEntries (smallEntries_updated hText) CborLimits.small_atMost_python

/-- The time of the last change tells the decoders apart: `tfws-core` never looks at
it, and the reference implementation parses it. -/
theorem manifestDecoders_disagree_timeless :
    ¬ManifestDecodersAgree .model pythonLimits .model Manifest.timeless.document.item.encode := by
  intro hAgree
  obtain ⟨entries, hEntries, _⟩ := hAgree.python _
    (Manifest.lawful_timeless.decode_document Manifest.encodes_timeless)
  obtain ⟨_, _, draft, hDraft, _, hDemands⟩ :=
    (Python.decodeManifestCbor_iff_draft Manifest.encodes_timeless).mp hEntries
  obtain ⟨updated, hUpdated, _⟩ := hDemands.times
  obtain ⟨field, _, _, _, hFields, hRead⟩ := Draft.deserialize_eq_some.mp hDraft
  obtain ⟨_, rfl⟩ := structFields_object.mp hFields
  have hLookup : SortedMap.lookup "updated_at" (SortedMap.present Manifest.timeless.record) =
      some (.string "yesterday") :=
    Manifest.timeless.lookup_document _ _ (by simp [Manifest.record, Manifest.timeless, stringField])
  rw [readString_eq_some.mp hRead.updatedAt, stringField] at hLookup
  rw [Value.string.inj (Option.some.inj hLookup)] at hUpdated
  exact absurd hUpdated (by simp [show Python.parseRfc3339 .model (.str "yesterday") = .error
    (.validation "invalid RFC3339 timestamp: yesterday") from by decide])

end Tfws
