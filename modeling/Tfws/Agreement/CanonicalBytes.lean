import Tfws.Agreement.Manifest
import Tfws.Core.CanonicalBytes
import Tfws.Python.Jcs
import Tfws.Python.KeyBinding

/-! The octets that are signed: `Manifest::canonical_bytes` of `tfws-core` beside
`canonicalize` of the Python reference, on documents that both accept. -/
namespace Tfws

open SerdeJson Fallible
open Python (Object Key Runtime)

namespace Python

/-- What `validate_manifest` makes sure of: the members that hold structs are
dictionaries. -/
structure KeyedManifest (manifest : List (Key × Object)) : Prop where
  operator : ∃ entries, Object.get (.str "operator") manifest = some (.dict entries)
  signaturePolicy : ∃ entries, Object.get (.str "signature_policy") manifest = some (.dict entries)
  capabilities : ∃ entries, Object.get (.str "capabilities") manifest = some (.dict entries)
  keys : ∃ keys, Object.get (.str "keys") manifest = some (.list keys) ∧
    ∀ key ∈ keys, ∃ entries, key = .dict entries
  artifacts : ∃ artifacts, Object.get (.str "artifacts") manifest = some (.list artifacts) ∧
    ∀ artifact ∈ artifacts, ∃ entries, artifact = .dict entries

theorem validateOperator_dict {object : Object} (h : validateOperator object = .ok ()) :
    ∃ entries, object = .dict entries := by
  cases object with
  | dict entries => exact ⟨entries, rfl⟩
  | none | bool _ | int _ | float _ | str _ | bytes _ | list _ | tag _ _ => cases h

theorem validatePolicy_dict {object : Object} (h : validatePolicy object = .ok ()) :
    ∃ entries, object = .dict entries := by
  cases object with
  | dict entries => exact ⟨entries, rfl⟩
  | none | bool _ | int _ | float _ | str _ | bytes _ | list _ | tag _ _ => cases h

theorem validateCapabilities_dict {runtime : Runtime} {object : Object}
    (h : validateCapabilities runtime object = .ok ()) : ∃ entries, object = .dict entries := by
  cases object with
  | dict entries => exact ⟨entries, rfl⟩
  | none | bool _ | int _ | float _ | str _ | bytes _ | list _ | tag _ _ => cases h

theorem validateArtifacts_dicts {index : Nat} {artifacts : List Object}
    (h : validateArtifacts index artifacts = .ok ()) :
    ∀ artifact ∈ artifacts, ∃ entries, artifact = .dict entries := by
  induction artifacts generalizing index with
  | nil => exact List.forall_mem_nil _
  | cons artifact rest ih =>
      cases artifact with
      | dict entries =>
          rw [validateArtifacts] at h
          obtain ⟨_, -, hRest⟩ := bind_eq_ok.mp h
          exact List.forall_mem_cons.mpr ⟨⟨entries, rfl⟩, ih hRest⟩
      | none | bool _ | int _ | float _ | str _ | bytes _ | list _ | tag _ _ => cases h

theorem validateKeyDescriptors_dicts {allowUnbound : Bool} {manifest : List (Key × Object)}
    (h : validateKeyDescriptors allowUnbound manifest = .ok ()) :
    ∃ keys, Object.get (.str "keys") manifest = some (.list keys) ∧
      ∀ key ∈ keys, ∃ entries, key = .dict entries := by
  unfold validateKeyDescriptors at h
  split at h
  case h_1 keys hKeys =>
    refine ⟨keys, hKeys, ?_⟩
    split_ifs at h with hUnbound
    · rw [hUnbound.1]
      exact List.forall_mem_nil _
    · obtain ⟨_, -, h⟩ := bind_eq_ok.mp h
      obtain ⟨seen, hList, -⟩ := bind_eq_ok.mp h
      obtain ⟨algorithms, hDescribed, -⟩ := validateKeyList_bound hList
      intro key hKey
      obtain ⟨_, -, descriptor, hDescriptor, -⟩ := Traversal.exists_right hDescribed hKey
      exact ⟨descriptor, hDescriptor⟩
  case h_2 => cases h

/-- A manifest that the reference implementation admits has dictionaries where the
structs of the other one are. -/
theorem validateManifest_keyed {runtime : Runtime} {allowNonproduction allowUnbound : Bool}
    {manifest : List (Key × Object)}
    (h : validateManifest runtime allowNonproduction allowUnbound manifest = .ok ()) :
    KeyedManifest manifest := by
  have hChecks := validateManifest_checks h
  obtain ⟨policy, hPolicy, hPolicyValid⟩ := hChecks.signaturePolicy
  obtain ⟨capabilities, hCapabilities, hCapabilitiesValid⟩ := hChecks.capabilities
  obtain ⟨operator, hOperator, hOperatorValid⟩ := hChecks.operator
  obtain ⟨artifacts, hArtifacts, hArtifactsValid⟩ := hChecks.artifacts
  obtain ⟨policyEntries, rfl⟩ := validatePolicy_dict hPolicyValid
  obtain ⟨capabilityEntries, rfl⟩ := validateCapabilities_dict hCapabilitiesValid
  obtain ⟨operatorEntries, rfl⟩ := validateOperator_dict hOperatorValid
  exact ⟨⟨_, hOperator⟩, ⟨_, hPolicy⟩, ⟨_, hCapabilities⟩,
    validateKeyDescriptors_dicts hChecks.keys,
    ⟨artifacts, hArtifacts, validateArtifacts_dicts hArtifactsValid⟩⟩

end Python

/-- A document without nulls, floats and repeated names, as `serde_json` and as
Python hold it. -/
structure SharedDocument (value : OrderedValue) (entries : List (Key × Object)) : Prop where
  noNull : nullFree value.value = true
  proper : (Object.dict entries).Proper
  same : ∃ json, value.value.json = some json ∧ (Object.dict entries).json = some json

namespace Python.Object

theorem distinctKeys_ofEntries {entries : List (String × Value)} (h : SortedMap.Sorted entries) :
    DistinctKeys (ofEntries entries) := by
  have hNames : entries.Pairwise fun first second => first.1 ≠ second.1 :=
    h.imp fun hLt => ne_of_lt hLt
  have hShuffled := ((sortFields_perm entries).pairwise_iff fun hNe => Ne.symm hNe).mpr hNames
  apply List.pairwise_map.mpr
  apply hShuffled.imp
  intro first second hNe
  simpa [ofField, Key.equal, Key.identity] using hNe

/-- The dictionary of an ordered value has no key twice, at any depth. -/
theorem proper_ofValue {value : Value} (h : value.ordered = true) : (ofValue value).Proper := by
  induction value with
  | null | bool _ | string _ =>
      rw [ofValue]
      constructor
  | number number =>
      rw [ofValue]
      cases number <;> constructor
  | array items ih =>
      rw [ofValue_array]
      apply Proper.list
      intro object hObject
      obtain ⟨item, hItem, rfl⟩ := List.mem_map.mp hObject
      exact ih item hItem (Value.ordered_array.mp h item hItem)
  | object entries ih =>
      obtain ⟨hSorted, hMembers⟩ := Value.ordered_object.mp h
      rw [ofValue_object_eq]
      apply Proper.dict (distinctKeys_ofEntries hSorted)
      intro entry hEntry
      obtain ⟨field, hShuffled, rfl⟩ := List.mem_map.mp hEntry
      have hField := (sortFields_perm entries).mem_iff.mp hShuffled
      exact ih field hField (hMembers field hField)

/-- The dictionary of a document is written as the document is. -/
theorem json_ofValue {value : Value} (h : value.ordered = true) {json : Json.Value}
    (hJson : value.json = some json) : (ofValue value).json = some json := by
  induction value generalizing json with
  | null | bool _ | string _ =>
      rw [ofValue]
      exact hJson
  | number number =>
      rw [ofValue]
      cases number <;> exact hJson
  | array items ih =>
      obtain ⟨values, rfl, hValues⟩ := Value.json_array.mp hJson
      rw [ofValue_array, json_list]
      refine ⟨values, rfl, List.forall₂_map_left_iff.mpr ?_⟩
      apply Traversal.imp_mem hValues
      intro item hItem value hValue
      exact ih item hItem (Value.ordered_array.mp h item hItem) hValue
  | object entries ih =>
      obtain ⟨fields, rfl, hFields⟩ := Value.json_object.mp hJson
      obtain ⟨hSorted, hMembers⟩ := Value.ordered_object.mp h
      have hFieldsSorted : SortedMap.Sorted fields := by
        apply Traversal.pairwise_right hFields hSorted
        intro first second field other hFirst hSecond hLt
        rw [← (Value.field_eq_some.mp hFirst).1, ← (Value.field_eq_some.mp hSecond).1]
        exact hLt
      have hRead : entries.mapM (jsonEntry ∘ ofField) = some fields := by
        apply Traversal.mapM_eq_some.mpr
        apply Traversal.imp_mem hFields
        intro entry hEntry field hField
        obtain ⟨hName, hValue⟩ := Value.field_eq_some.mp hField
        exact jsonEntry_eq_some.mpr
          ⟨congrArg Key.str hName, ih entry hEntry (hMembers entry hEntry) hValue⟩
      obtain ⟨shuffled, hShuffled, hPerm⟩ := Traversal.mapM_perm hRead (sortFields_perm entries)
      rw [ofValue_object_eq, json_dict]
      refine ⟨shuffled, ?_, List.forall₂_map_left_iff.mpr (Traversal.mapM_eq_some.mp hShuffled)⟩
      rw [hFieldsSorted.insertAll_nil_eq hPerm]

end Python.Object

section Shared

variable {value : OrderedValue} {entries : List (Key × Object)}

theorem isObject_of_dict {item : Value} {entries : List (Key × Object)}
    (h : item.json = (Object.dict entries).json) {result : Json.Value}
    (hResult : item.json = some result) : isObject item = true := by
  obtain ⟨_, rfl, -⟩ := Python.Object.json_dict.mp (h.symm.trans hResult)
  obtain ⟨_, rfl⟩ := Value.json_eq_object hResult
  rfl

/-- The members of the two sides are written alike, under each name. -/
theorem SharedDocument.members (h : SharedDocument value entries) :
    ∃ root, value.value = .object root ∧ ∀ name,
      (SortedMap.lookup name root).bind Value.json =
        (Object.get (.str name) entries).bind Object.json ∧
      ∀ item, SortedMap.lookup name root = some item → ∃ result, item.json = some result := by
  obtain ⟨json, hValue, hDict⟩ := h.same
  have hProper := h.proper
  cases hProper with
  | dict hDistinct _ =>
  obtain ⟨fields, rfl, -, hLookup⟩ := Python.Object.json_dict_lookup hDistinct hDict
  obtain ⟨root, hRoot⟩ := Value.json_eq_object hValue
  rw [hRoot] at hValue
  refine ⟨root, hRoot, ?_⟩
  intro name
  refine ⟨(Value.json_object_lookup hValue name).symm.trans (hLookup name), ?_⟩
  intro item hItem
  obtain ⟨_, -, hFields⟩ := Value.json_object.mp hValue
  obtain ⟨field, -, hField⟩ := Traversal.exists_right hFields (SortedMap.mem_of_lookup hItem)
  exact ⟨field.2, (Value.field_eq_some.mp hField).2⟩

/-- Where Python has a dictionary, the derived reader finds an object. -/
theorem SharedDocument.mapShaped (h : SharedDocument value entries)
    (hKeyed : Python.KeyedManifest entries) : mapShaped value.value = true := by
  obtain ⟨root, hRoot, hMembers⟩ := h.members
  have hStruct {name : String} (hDict : ∃ dictionary,
      Object.get (.str name) entries = some (.dict dictionary)) :
      fieldIsObject name root = true := by
    obtain ⟨dictionary, hGet⟩ := hDict
    obtain ⟨hSame, hWritten⟩ := hMembers name
    rw [fieldIsObject]
    cases hItem : SortedMap.lookup name root with
    | none => rfl
    | some item =>
        obtain ⟨result, hResult⟩ := hWritten item hItem
        rw [hItem, hGet, Option.bind_some, Option.bind_some] at hSame
        exact isObject_of_dict hSame hResult
  have hList {name : String} (hDicts : ∃ objects,
      Object.get (.str name) entries = some (.list objects) ∧
        ∀ object ∈ objects, ∃ dictionary, object = .dict dictionary) :
      membersAreObjects name root = true := by
    obtain ⟨objects, hGet, hObjects⟩ := hDicts
    obtain ⟨hSame, hWritten⟩ := hMembers name
    rw [membersAreObjects.eq_def]
    cases hItem : SortedMap.lookup name root with
    | none => rfl
    | some item =>
        cases item with
        | array items =>
            obtain ⟨result, hResult⟩ := hWritten _ hItem
            rw [hItem, hGet, Option.bind_some, Option.bind_some] at hSame
            obtain ⟨values, rfl, hValues⟩ := Value.json_array.mp hResult
            obtain ⟨others, hOthers, hTexts⟩ :=
              Python.Object.json_list.mp (hSame.symm.trans hResult)
            obtain rfl := Json.Value.array.inj hOthers
            apply List.all_eq_true.mpr
            intro member hMember
            obtain ⟨written, hWrittenIn, hJson⟩ := Traversal.exists_right hValues hMember
            obtain ⟨object, hObject, hObjectJson⟩ := Traversal.exists_left hTexts hWrittenIn
            obtain ⟨dictionary, rfl⟩ := hObjects object hObject
            exact isObject_of_dict (hJson.trans hObjectJson.symm) hJson
        | null | bool _ | number _ | string _ | object _ => rfl
  rw [hRoot, Tfws.mapShaped, hStruct hKeyed.operator, hStruct hKeyed.signaturePolicy,
    hStruct hKeyed.capabilities, hList hKeyed.keys, hList hKeyed.artifacts]
  rfl

end Shared

theorem inProfile_of_numbers {value : Value} (h : validateJsonNumberProfile value = .ok ())
    {json : Json.Value} (hJson : value.json = some json) : Python.Object.InProfile json := by
  induction value generalizing json with
  | null | bool _ | string _ =>
      obtain rfl := Option.some.inj hJson
      constructor
  | number _ =>
      obtain ⟨integer, hInteger, rfl⟩ := Option.map_eq_some_iff.mp hJson
      rw [validateJsonNumberProfile, failIf_eq_ok, Bool.not_eq_false, numberInProfile_iff] at h
      obtain ⟨same, hSame, hSafe⟩ := h
      obtain rfl := Option.some.inj (hInteger.symm.trans hSame)
      exact .int hSafe
  | array items ih =>
      obtain ⟨values, rfl, hValues⟩ := Value.json_array.mp hJson
      rw [validateJsonNumberProfile, validateJsonItems_eq_ok] at h
      apply Python.Object.InProfile.array
      intro member hMember
      obtain ⟨item, hItem, hMemberJson⟩ := Traversal.exists_left hValues hMember
      exact ih item hItem (h item hItem) hMemberJson
  | object fields ih =>
      obtain ⟨written, rfl, hWritten⟩ := Value.json_object.mp hJson
      rw [validateJsonNumberProfile, validateJsonEntries_eq_ok] at h
      apply Python.Object.InProfile.object
      intro member hMember
      obtain ⟨field, hField, hMemberJson⟩ := Traversal.exists_left hWritten hMember
      exact ih field hField (h field hField) (Value.field_eq_some.mp hMemberJson).2

/-- Both programs hash the same octets, for both of them have some. -/
def SamePayload (crates : Crates) (jcs : SerdeJcs) (manifest : Manifest)
    (entries : List (Key × Object)) : Prop :=
  ∃ octets, manifest.canonicalBytes crates jcs = .ok octets ∧
    Python.canonicalize (.dict entries) = .ok octets

section Payload

variable {crates : Crates} {jcs : SerdeJcs} {runtime : Runtime} {value : OrderedValue}
  {entries : List (Key × Object)} {manifest : Manifest}

/-- What Python writes of a document that reads as a valid manifest is the document's
compact text. -/
theorem SharedDocument.canonicalize_eq (h : SharedDocument value entries)
    (hRead : Manifest.deserialize value.value = some manifest)
    (hValid : manifest.validate crates = .ok ()) :
    ∃ json, value.value.json = some json ∧ (Object.dict entries).json = some json ∧
      Python.Object.InProfile json ∧
      Python.canonicalize (.dict entries) = .ok (Python.jsonText json) := by
  obtain ⟨json, hValue, hDict⟩ := h.same
  have hPolicy := Manifest.validate_eq_ok.mp hValid
  have hNumbers :=
    Manifest.deserialize_numbers value.ordered hRead hPolicy.keyEpoch.2 hPolicy.numbers
  have hProfile := inProfile_of_numbers hNumbers hValue
  have hAccepted := Python.Object.validate_of_json h.proper hDict hProfile "$"
  refine ⟨json, hValue, hDict, hProfile, ?_⟩
  rw [Python.canonicalize, hAccepted, ok_bind, hDict]

/-- Equal octets are of equal values: what the derived code makes of the manifest is
the document. -/
theorem serialize_eq_of_sameText {json written : Json.Value} (hValue : value.value.json = some json)
    (hWritten : manifest.serialize.json = some written)
    (h : Utf8.encode (String.ofList written.canonical) = Python.jsonText json) :
    manifest.serialize = value.value ∧ written = json := by
  have hTexts := String.ofList_injective (Utf8.encode_injective h)
  rw [Json.Value.canonical_eq_write] at hTexts
  have hSame := Json.Value.write_injective (Value.json_plain hWritten).reordered
    (Value.json_plain hValue) hTexts
  have hBack := Value.ofJson_reordered manifest.serialize_ordered hWritten
  rw [hSame, Value.ofJson_json value.ordered hValue] at hBack
  obtain hValues := Option.some.inj hBack
  rw [← hValues, hValue] at hWritten
  exact ⟨hValues.symm, (Option.some.inj hWritten).symm⟩

/-- Octets that agree are those of a manifest with all its options. -/
theorem SharedDocument.complete (h : SharedDocument value entries)
    (hRead : Manifest.deserialize value.value = some manifest)
    (hSame : SamePayload crates jcs manifest entries) :
    manifest.Complete ∧ (Object.dict entries).Uncrossed := by
  obtain ⟨octets, hRust, hPython⟩ := hSame
  obtain ⟨hValid, hJcs⟩ := Manifest.canonicalBytes_eq_ok.mp hRust
  obtain ⟨json, hValue, hDict, hProfile, hOctets⟩ := h.canonicalize_eq hRead hValid
  obtain ⟨written, hWritten, hText⟩ := Option.map_eq_some_iff.mp hJcs
  obtain rfl := Except.ok.inj (hOctets.symm.trans hPython)
  obtain ⟨hValues, rfl⟩ := serialize_eq_of_sameText hValue hWritten hText
  refine ⟨manifest.complete_of_nullFree (hValues ▸ h.noNull), ?_⟩
  have hTexts := String.ofList_injective (Utf8.encode_injective hText)
  rw [Json.Value.canonical_eq_write_iff (Python.Object.json_normal hDict) hProfile.plain] at hTexts
  exact (Python.Object.uncrossed_json h.proper hDict).mp hTexts

end Payload

/-- On a document that both programs accept they hash the same octets exactly when the
manifest leaves no option out and no names in it cross. Elsewhere a signature made by
the one is not verified by the other. -/
theorem canonicalBytes_eq_canonicalize_iff (crates : Crates) (jcs : SerdeJcs) (runtime : Runtime)
    (allowNonproduction allowUnboundDevelopment : Bool) (value : OrderedValue)
    (entries : List (Key × Object)) (manifest : Manifest)
    (hDocument : SharedDocument value entries)
    (hRead : Manifest.deserialize value.value = some manifest)
    (hValid : manifest.validate crates = .ok ())
    (hPython : Python.validateManifest runtime allowNonproduction allowUnboundDevelopment entries =
      .ok ()) :
    SamePayload crates jcs manifest entries ↔
      manifest.Complete ∧ (Object.dict entries).Uncrossed := by
  constructor
  · intro hSame
    exact hDocument.complete hRead hSame
  · intro hBoth
    obtain ⟨hComplete, hUncrossed⟩ := hBoth
    obtain ⟨json, hValue, hDict, hProfile, hOctets⟩ := hDocument.canonicalize_eq hRead hValid
    have hShape := hDocument.mapShaped (Python.validateManifest_keyed hPython)
    have hSame := (Manifest.deserialize_ordinary ⟨value.ordered, hDocument.noNull⟩ hShape).mp hRead
    have hTexts : json.canonical = json.write :=
      (Json.Value.canonical_eq_write_iff (Python.Object.json_normal hDict) hProfile.plain).mpr
        ((Python.Object.uncrossed_json hDocument.proper hDict).mpr hUncrossed)
    rw [← hComplete.serialize_eq] at hSame
    refine ⟨_, Manifest.canonicalBytes_eq_ok.mpr ⟨hValid, ?_⟩, hOctets⟩
    rw [Value.toJcs, ← hSame, hValue, Option.map_some, hTexts, Python.jsonText]

/-- The dictionary of the document of a manifest, as the reference implementation
decodes it. -/
def Manifest.dictionary (manifest : Manifest) : List (Key × Object) :=
  Object.ofEntries (SortedMap.present manifest.record)

/-- A manifest's document and its dictionary are one document, so that both programs
may be given it. -/
theorem Manifest.sharedDocument {manifest : Manifest} {limits : CborLimits}
    (h : Admissible limits 0 manifest.document) :
    SharedDocument manifest.orderedDocument manifest.dictionary := by
  have hModel := (admissible_iff.mp h).2
  obtain ⟨json, hJson⟩ := hModel.json
  have hProper := Python.Object.proper_ofValue manifest.document_ordered
  have hSame := Python.Object.json_ofValue manifest.document_ordered hJson
  rw [document, Object.ofValue_object_eq] at hProper hSame
  exact ⟨(inDataModel_iff.mp hModel).1, hProper, json, hJson, hSame⟩

theorem Manifest.Lawful.validateManifest_dictionary {manifest : Manifest} {limits : CborLimits}
    (hLawful : manifest.Lawful .model) (hAdmissible : Admissible limits 0 manifest.document)
    (hLike : manifest.LikeSample) :
    Python.validateManifest .model true true manifest.dictionary = .ok () := by
  have hDecoded : Decoded limits 0 manifest.document := ⟨hAdmissible, manifest.document_ordered⟩
  have hDraft := hLawful.exists_draft hDecoded fun draft hTypes =>
    Draft.pythonDemands_likeSample hTypes hLike
  exact (validateManifest_eq_ok hDecoded).mpr
    ((pythonPolicy_iff hDecoded).mpr ⟨manifest.document_mapShaped, hDraft⟩)

theorem Manifest.deserialize_document {manifest : Manifest} {limits : CborLimits}
    (h : Admissible limits 0 manifest.document) :
    Manifest.deserialize manifest.document = some manifest :=
  (deserialize_mapShaped ⟨h, manifest.document_ordered⟩ manifest.document_mapShaped).mpr rfl

/-- Both programs accept the test vector and hash different octets: one of them writes
a null for the identity. -/
theorem canonicalBytes_ne_canonicalize :
    SharedDocument Manifest.sample.orderedDocument Manifest.sample.dictionary ∧
      Manifest.deserialize Manifest.sample.document = some .sample ∧
      Manifest.sample.validate .model = .ok () ∧
      Python.validateManifest .model true true Manifest.sample.dictionary = .ok () ∧
      ¬SamePayload .model .model .sample Manifest.sample.dictionary := by
  have hAdmissible := Manifest.encodes_sample.admissible
  have hDocument := Manifest.sharedDocument hAdmissible
  have hRead := Manifest.deserialize_document hAdmissible
  refine ⟨hDocument, hRead, Manifest.validate_sample,
    Manifest.lawful_sample.validateManifest_dictionary hAdmissible ⟨rfl, rfl, rfl, rfl, rfl, rfl⟩,
    ?_⟩
  intro hSame
  have hIdentity := (hDocument.complete hRead hSame).1.identity
  cases hIdentity

theorem Manifest.uncrossed_completeSample :
    (Object.dict Manifest.completeSample.dictionary).Uncrossed := by
  have hDocument := Manifest.sharedDocument Manifest.encodes_completeSample.admissible
  obtain ⟨json, hJson, hDict⟩ := hDocument.same
  have hReordered : Manifest.completeSample.document.json.map Json.Value.reordered =
      Manifest.completeSample.document.json := by
    rfl
  rw [show Manifest.completeSample.document.json = some json from hJson, Option.map_some,
    Option.some.injEq] at hReordered
  apply (Python.Object.uncrossed_json hDocument.proper hDict).mp
  exact (Json.Value.reordered_eq_self (Python.Object.json_normal hDict)).mp hReordered

/-- With nothing left out both programs hash the same octets, as this variant of the
test vector shows. -/
theorem canonicalBytes_eq_canonicalize_complete :
    SamePayload .model .model .completeSample Manifest.completeSample.dictionary := by
  have hAdmissible := Manifest.encodes_completeSample.admissible
  have hDocument := Manifest.sharedDocument hAdmissible
  have hLawful := Manifest.lawful_completeSample
  exact (canonicalBytes_eq_canonicalize_iff .model .model .model true true _ _ .completeSample
    hDocument (Manifest.deserialize_document hAdmissible) hLawful.valid
    (hLawful.validateManifest_dictionary hAdmissible ⟨rfl, rfl, rfl, rfl, rfl, rfl⟩)).mpr
    ⟨⟨rfl, rfl, rfl⟩, Manifest.uncrossed_completeSample⟩

end Tfws
