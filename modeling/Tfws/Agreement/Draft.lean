import Tfws.Core.Document

/-! Drafts of manifests. Where the two implementations type a field
differently, a draft holds its value as it stands; the derived reader goes
through the draft of a document. -/
namespace Tfws

open SerdeJson

/-- A manifest with the operator's name, the required algorithms, the optional
capabilities and the identity left untyped. -/
structure Draft where
  tfwsVersion : String
  subject : String
  environment : String
  operatorName : Value
  jurisdiction : Option String
  keyEpoch : UInt64
  keys : List KeyDescriptor
  policyId : String
  requiredAlgorithms : Value
  required : List String
  optional : List Value
  identity : Option Value
  artifacts : List Artifact
  updatedAt : String
  expiresAt : Option String

/-- The fields of a struct that is itself a field, in either shape. -/
def subFields (names : List String) (field : Option Value) : Option (String → Option Value) :=
  field.bind (structFields names)

/-- The members of an array, as they stand, and nothing for any other value. -/
def readMembers : Option Value → Option (List Value)
  | some (.array items) => some items
  | _ => none

/-- The draft of a document: its fields under their names, in either shape of a
struct. -/
def Draft.deserialize (value : Value) : Option Draft := do
  let field ← structFields Manifest.fields value
  let tfwsVersion ← readString (field "tfws_version")
  let subject ← readString (field "subject")
  let environment ← readString (field "environment")
  let operator ← subFields Operator.fields (field "operator")
  let operatorName ← operator "name"
  let jurisdiction ← readOptionString (operator "jurisdiction")
  let keyEpoch ← readU64 (field "key_epoch")
  let keys ← readList KeyDescriptor.deserialize (field "keys")
  let policy ← subFields SignaturePolicy.fields (field "signature_policy")
  let policyId ← readString (policy "policy_id")
  let requiredAlgorithms ← policy "required_algorithms"
  let capabilities ← subFields Capabilities.fields (field "capabilities")
  let required ← readStrings (capabilities "required")
  let optional ← readMembers (capabilities "optional")
  let artifacts ← readList Artifact.deserialize (field "artifacts")
  let updatedAt ← readString (field "updated_at")
  let expiresAt ← readOptionString (field "expires_at")
  some { tfwsVersion, subject, environment, operatorName, jurisdiction, keyEpoch, keys, policyId,
         requiredAlgorithms, required, optional, identity := field "identity", artifacts,
         updatedAt, expiresAt }

/-- Every field of the draft is what the reader of that field returns. -/
structure Draft.ReadFrom (field operator policy capabilities : String → Option Value)
    (draft : Draft) : Prop where
  tfwsVersion : readString (field "tfws_version") = some draft.tfwsVersion
  subject : readString (field "subject") = some draft.subject
  environment : readString (field "environment") = some draft.environment
  operatorFields : subFields Operator.fields (field "operator") = some operator
  operatorName : operator "name" = some draft.operatorName
  jurisdiction : readOptionString (operator "jurisdiction") = some draft.jurisdiction
  keyEpoch : readU64 (field "key_epoch") = some draft.keyEpoch
  keys : readList KeyDescriptor.deserialize (field "keys") = some draft.keys
  policyFields : subFields SignaturePolicy.fields (field "signature_policy") = some policy
  policyId : readString (policy "policy_id") = some draft.policyId
  requiredAlgorithms : policy "required_algorithms" = some draft.requiredAlgorithms
  capabilityFields : subFields Capabilities.fields (field "capabilities") = some capabilities
  required : readStrings (capabilities "required") = some draft.required
  optional : readMembers (capabilities "optional") = some draft.optional
  identity : field "identity" = draft.identity
  artifacts : readList Artifact.deserialize (field "artifacts") = some draft.artifacts
  updatedAt : readString (field "updated_at") = some draft.updatedAt
  expiresAt : readOptionString (field "expires_at") = some draft.expiresAt

/-- A document has the draft exactly if every field is read as that of the draft. -/
theorem Draft.deserialize_eq_some {value : Value} {draft : Draft} :
    Draft.deserialize value = some draft ↔
      ∃ field operator policy capabilities, structFields Manifest.fields value = some field ∧
        draft.ReadFrom field operator policy capabilities := by
  constructor
  · intro h
    obtain ⟨field, hField, h⟩ := Option.bind_eq_some_iff.mp h
    obtain ⟨_, hVersion, h⟩ := Option.bind_eq_some_iff.mp h
    obtain ⟨_, hSubject, h⟩ := Option.bind_eq_some_iff.mp h
    obtain ⟨_, hEnvironment, h⟩ := Option.bind_eq_some_iff.mp h
    obtain ⟨operator, hOperator, h⟩ := Option.bind_eq_some_iff.mp h
    obtain ⟨_, hName, h⟩ := Option.bind_eq_some_iff.mp h
    obtain ⟨_, hJurisdiction, h⟩ := Option.bind_eq_some_iff.mp h
    obtain ⟨_, hKeyEpoch, h⟩ := Option.bind_eq_some_iff.mp h
    obtain ⟨_, hKeys, h⟩ := Option.bind_eq_some_iff.mp h
    obtain ⟨policy, hPolicy, h⟩ := Option.bind_eq_some_iff.mp h
    obtain ⟨_, hPolicyId, h⟩ := Option.bind_eq_some_iff.mp h
    obtain ⟨_, hAlgorithms, h⟩ := Option.bind_eq_some_iff.mp h
    obtain ⟨capabilities, hCapabilities, h⟩ := Option.bind_eq_some_iff.mp h
    obtain ⟨_, hRequired, h⟩ := Option.bind_eq_some_iff.mp h
    obtain ⟨_, hOptional, h⟩ := Option.bind_eq_some_iff.mp h
    obtain ⟨_, hArtifacts, h⟩ := Option.bind_eq_some_iff.mp h
    obtain ⟨_, hUpdatedAt, h⟩ := Option.bind_eq_some_iff.mp h
    obtain ⟨_, hExpiresAt, h⟩ := Option.bind_eq_some_iff.mp h
    obtain rfl := Option.some.inj h
    exact ⟨field, operator, policy, capabilities, hField, hVersion, hSubject, hEnvironment,
      hOperator, hName, hJurisdiction, hKeyEpoch, hKeys, hPolicy, hPolicyId, hAlgorithms,
      hCapabilities, hRequired, hOptional, rfl, hArtifacts, hUpdatedAt, hExpiresAt⟩
  · rintro ⟨field, operator, policy, capabilities, hField, h⟩
    obtain ⟨_, _, _, _, _, _, _, _, _, _, _, _, _, _, _⟩ := draft
    calc
      deserialize value = _ := bind_of_eq_some hField _
      _ = _ := bind_of_eq_some h.tfwsVersion _
      _ = _ := bind_of_eq_some h.subject _
      _ = _ := bind_of_eq_some h.environment _
      _ = _ := bind_of_eq_some h.operatorFields _
      _ = _ := bind_of_eq_some h.operatorName _
      _ = _ := bind_of_eq_some h.jurisdiction _
      _ = _ := bind_of_eq_some h.keyEpoch _
      _ = _ := bind_of_eq_some h.keys _
      _ = _ := bind_of_eq_some h.policyFields _
      _ = _ := bind_of_eq_some h.policyId _
      _ = _ := bind_of_eq_some h.requiredAlgorithms _
      _ = _ := bind_of_eq_some h.capabilityFields _
      _ = _ := bind_of_eq_some h.required _
      _ = _ := bind_of_eq_some h.optional _
      _ = _ := bind_of_eq_some h.artifacts _
      _ = _ := bind_of_eq_some h.updatedAt _
      _ = _ := bind_of_eq_some h.expiresAt _
      _ = _ := by rw [h.identity]

/-- The open fields of the draft have the types that the manifest gives them. -/
structure Draft.Types (draft : Draft) (manifest : Manifest) : Prop where
  tfwsVersion : draft.tfwsVersion = manifest.tfwsVersion
  subject : draft.subject = manifest.subject
  environment : draft.environment = manifest.environment
  operatorName : draft.operatorName = .string manifest.operator.name
  jurisdiction : draft.jurisdiction = manifest.operator.jurisdiction
  keyEpoch : draft.keyEpoch = manifest.keyEpoch
  keys : draft.keys = manifest.keys
  policyId : draft.policyId = manifest.signaturePolicy.policyId
  requiredAlgorithms :
    draft.requiredAlgorithms = stringsValue manifest.signaturePolicy.requiredAlgorithms
  required : draft.required = manifest.capabilities.required
  optional : draft.optional = manifest.capabilities.optional.map Value.string
  identity : draft.identity = manifest.identity.map OrderedValue.value
  artifacts : draft.artifacts = manifest.artifacts
  updatedAt : draft.updatedAt = manifest.updatedAt
  expiresAt : draft.expiresAt = manifest.expiresAt

theorem readStruct_bind {α : Type} {names : List String}
    {next : (String → Option Value) → Option α} {field : Option Value} {result : α} :
    readStruct (fun value => (structFields names value).bind next) field = some result ↔
      ∃ fields, subFields names field = some fields ∧ next fields = some result := by
  cases field with
  | none => simp [readStruct, subFields]
  | some value => rw [readStruct, Option.bind_eq_some_iff]; rfl

theorem readOperator_eq_some {field : Option Value} {operator : Operator} :
    readStruct Operator.deserialize field = some operator ↔
      ∃ fields, subFields Operator.fields field = some fields ∧
        fields "name" = some (.string operator.name) ∧
        readOptionString (fields "jurisdiction") = some operator.jurisdiction := by
  have hRead : Operator.deserialize = fun value =>
      (structFields Operator.fields value).bind _ := rfl
  rw [hRead, readStruct_bind]
  simp only [Option.bind_eq_bind, Option.bind_eq_some_iff, readString_eq_some, stringField]
  constructor
  · rintro ⟨fields, hFields, name, hName, jurisdiction, hJurisdiction, h⟩
    obtain rfl := Option.some.inj h
    exact ⟨fields, hFields, hName, hJurisdiction⟩
  · rintro ⟨fields, hFields, hName, hJurisdiction⟩
    exact ⟨fields, hFields, _, hName, _, hJurisdiction, rfl⟩

theorem readPolicy_eq_some {field : Option Value} {policy : SignaturePolicy} :
    readStruct SignaturePolicy.deserialize field = some policy ↔
      ∃ fields, subFields SignaturePolicy.fields field = some fields ∧
        readString (fields "policy_id") = some policy.policyId ∧
        fields "required_algorithms" = some (stringsValue policy.requiredAlgorithms) := by
  have hRead : SignaturePolicy.deserialize = fun value =>
      (structFields SignaturePolicy.fields value).bind _ := rfl
  rw [hRead, readStruct_bind]
  simp only [Option.bind_eq_bind, Option.bind_eq_some_iff, readStrings_eq_some]
  constructor
  · rintro ⟨fields, hFields, policyId, hPolicyId, required, hRequired, h⟩
    obtain rfl := Option.some.inj h
    exact ⟨fields, hFields, hPolicyId, hRequired⟩
  · rintro ⟨fields, hFields, hPolicyId, hRequired⟩
    exact ⟨fields, hFields, _, hPolicyId, _, hRequired, rfl⟩

@[simp] theorem readMembers_eq_some {field : Option Value} {items : List Value} :
    readMembers field = some items ↔ field = some (.array items) := by
  unfold readMembers
  split <;> simp_all

theorem readCapabilities_eq_some {field : Option Value} {capabilities : Capabilities} :
    readStruct Capabilities.deserialize field = some capabilities ↔
      ∃ fields, subFields Capabilities.fields field = some fields ∧
        readStrings (fields "required") = some capabilities.required ∧
        readMembers (fields "optional") = some (capabilities.optional.map Value.string) := by
  have hRead : Capabilities.deserialize = fun value =>
      (structFields Capabilities.fields value).bind _ := rfl
  rw [hRead, readStruct_bind]
  simp only [Option.bind_eq_bind, Option.bind_eq_some_iff, readStrings_eq_some,
    readMembers_eq_some]
  constructor
  · rintro ⟨fields, hFields, required, hRequired, optional, hOptional, h⟩
    obtain rfl := Option.some.inj h
    exact ⟨fields, hFields, hRequired, hOptional⟩
  · rintro ⟨fields, hFields, hRequired, hOptional⟩
    exact ⟨fields, hFields, _, hRequired, _, hOptional, rfl⟩

/-- The fields of a struct in a decoded document are decoded, in either shape. -/
theorem Decoded.structField {limits : CborLimits} {depth : Nat} {value : Value}
    (h : Decoded limits depth value) {names : List String} {field : String → Option Value}
    (hFields : structFields names value = some field) {name : String} {content : Value}
    (hContent : field name = some content) : Decoded limits (depth + 1) content := by
  cases value with
  | object entries =>
      obtain ⟨_, rfl⟩ := structFields_object.mp hFields
      exact h.field hContent
  | array items =>
      rw [structFields] at hFields
      split_ifs at hFields
      obtain rfl := Option.some.inj hFields
      exact h.item content (List.mem_of_getElem? hContent)
  | null | bool _ | number _ | string _ => cases hFields

/-- The derived reader reads a draft and then types its open fields. What is left to
compare with the other implementation is the typing. -/
theorem Manifest.deserialize_iff_draft {limits : CborLimits} {depth : Nat} {value : Value}
    (h : Decoded limits depth value) {manifest : Manifest} :
    Manifest.deserialize value = some manifest ↔
      ∃ draft, Draft.deserialize value = some draft ∧ draft.Types manifest := by
  have hIdentity {field : String → Option Value}
      (hFields : structFields Manifest.fields value = some field) :
      readIdentity (field "identity") = some manifest.identity ↔
        field "identity" = manifest.identity.map OrderedValue.value := by
    refine readIdentity_eq_some (fun hNull => ?_) fun content hContent => ?_
    · cases (h.structField hFields hNull).1
    · exact (h.structField hFields hContent).2
  rw [deserialize_eq_some]
  constructor
  · rintro ⟨field, hField, hRead⟩
    obtain ⟨operator, hOperator, hName, hJurisdiction⟩ := readOperator_eq_some.mp hRead.operator
    obtain ⟨policy, hPolicy, hPolicyId, hAlgorithms⟩ :=
      readPolicy_eq_some.mp hRead.signaturePolicy
    obtain ⟨capabilities, hCapabilities, hRequired, hOptional⟩ :=
      readCapabilities_eq_some.mp hRead.capabilities
    exact ⟨⟨manifest.tfwsVersion, manifest.subject, manifest.environment, .string
        manifest.operator.name, manifest.operator.jurisdiction, manifest.keyEpoch, manifest.keys,
        manifest.signaturePolicy.policyId, stringsValue manifest.signaturePolicy.requiredAlgorithms,
        manifest.capabilities.required, manifest.capabilities.optional.map Value.string,
        manifest.identity.map OrderedValue.value, manifest.artifacts, manifest.updatedAt,
        manifest.expiresAt⟩,
      Draft.deserialize_eq_some.mpr ⟨field, operator, policy, capabilities, hField,
        hRead.tfwsVersion, hRead.subject, hRead.environment, hOperator, hName, hJurisdiction,
        hRead.keyEpoch, hRead.keys, hPolicy, hPolicyId, hAlgorithms, hCapabilities, hRequired,
        hOptional, (hIdentity hField).mp hRead.identity, hRead.artifacts, hRead.updatedAt,
        hRead.expiresAt⟩,
      ⟨rfl, rfl, rfl, rfl, rfl, rfl, rfl, rfl, rfl, rfl, rfl, rfl, rfl, rfl, rfl⟩⟩
  · rintro ⟨draft, hDraft, hTypes⟩
    obtain ⟨field, operator, policy, capabilities, hField, hRead⟩ :=
      Draft.deserialize_eq_some.mp hDraft
    refine ⟨field, hField, ?_⟩
    exact {
      tfwsVersion := hTypes.tfwsVersion ▸ hRead.tfwsVersion
      subject := hTypes.subject ▸ hRead.subject
      environment := hTypes.environment ▸ hRead.environment
      operator := readOperator_eq_some.mpr ⟨operator, hRead.operatorFields,
        hTypes.operatorName ▸ hRead.operatorName, hTypes.jurisdiction ▸ hRead.jurisdiction⟩
      keyEpoch := hTypes.keyEpoch ▸ hRead.keyEpoch
      keys := hTypes.keys ▸ hRead.keys
      signaturePolicy := readPolicy_eq_some.mpr ⟨policy, hRead.policyFields,
        hTypes.policyId ▸ hRead.policyId, hTypes.requiredAlgorithms ▸ hRead.requiredAlgorithms⟩
      capabilities := readCapabilities_eq_some.mpr ⟨capabilities, hRead.capabilityFields,
        hTypes.required ▸ hRead.required, hTypes.optional ▸ hRead.optional⟩
      identity := (hIdentity hField).mpr (hTypes.identity ▸ hRead.identity)
      artifacts := hTypes.artifacts ▸ hRead.artifacts
      updatedAt := hTypes.updatedAt ▸ hRead.updatedAt
      expiresAt := hTypes.expiresAt ▸ hRead.expiresAt }

end Tfws
