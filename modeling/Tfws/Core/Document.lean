import Tfws.Core.CborStructure

/-! Manifest documents. A manifest has one document that is keyed by field name
at every struct and leaves absent options out; the derived reader, which also
takes structs as arrays, reads exactly that document among the keyed ones. -/
namespace Tfws

open SerdeJson Fallible Cbor

variable {limits : CborLimits} {depth : Nat}

/-- A field with a text, which is never absent from the document. -/
def stringField (text : String) : Option Value := some (.string text)

/-- The operator's fields under their names, a jurisdiction only where there is one.
The order is that of the struct. -/
def Operator.record (operator : Operator) : List (String × Option Value) :=
  [("name", stringField operator.name), ("jurisdiction", operator.jurisdiction.map Value.string)]

/-- The operator's object, in the order of the names. An absent jurisdiction has no
entry. -/
def Operator.document (operator : Operator) : Value :=
  .object (SortedMap.present operator.record)

def SignaturePolicy.record (policy : SignaturePolicy) : List (String × Option Value) :=
  [("policy_id", stringField policy.policyId),
    ("required_algorithms", some (stringsValue policy.requiredAlgorithms))]

def SignaturePolicy.document (policy : SignaturePolicy) : Value :=
  .object (SortedMap.present policy.record)

def Capabilities.record (capabilities : Capabilities) : List (String × Option Value) :=
  [("required", some (stringsValue capabilities.required)),
    ("optional", some (stringsValue capabilities.optional))]

def Capabilities.document (capabilities : Capabilities) : Value :=
  .object (SortedMap.present capabilities.record)

def Artifact.record (artifact : Artifact) : List (String × Option Value) :=
  [("uri", stringField artifact.uri), ("media_type", stringField artifact.mediaType),
    ("sha512", stringField artifact.sha512)]

def Artifact.document (artifact : Artifact) : Value :=
  .object (SortedMap.present artifact.record)

def KeyDescriptor.record (key : KeyDescriptor) : List (String × Option Value) :=
  [("algorithm", stringField key.algorithm), ("key_id", stringField key.keyId),
    ("public_key_uri", stringField key.publicKeyUri),
    ("public_key_sha256", stringField key.publicKeySha256),
    ("status", stringField key.status), ("usage", some (stringsValue key.usage))]

def KeyDescriptor.document (key : KeyDescriptor) : Value :=
  .object (SortedMap.present key.record)

/-- The manifest's fields under their names, the absent options without a value. The
order here is that of the struct. -/
def Manifest.record (manifest : Manifest) : List (String × Option Value) :=
  [("tfws_version", stringField manifest.tfwsVersion),
    ("subject", stringField manifest.subject),
    ("environment", stringField manifest.environment),
    ("operator", some manifest.operator.document),
    ("key_epoch", some (.number (Number.ofU64 manifest.keyEpoch))),
    ("keys", some (.array (manifest.keys.map KeyDescriptor.document))),
    ("signature_policy", some manifest.signaturePolicy.document),
    ("capabilities", some manifest.capabilities.document),
    ("identity", manifest.identity.map OrderedValue.value),
    ("artifacts", some (.array (manifest.artifacts.map Artifact.document))),
    ("updated_at", stringField manifest.updatedAt),
    ("expires_at", manifest.expiresAt.map Value.string)]

/-- The manifest's object, in the order of the names: the value that a CBOR document
of it holds. -/
def Manifest.document (manifest : Manifest) : Value :=
  .object (SortedMap.present manifest.record)

@[simp] theorem readString_eq_some {field : Option Value} {text : String} :
    readString field = some text ↔ field = stringField text := by
  unfold readString stringField
  split <;> simp_all

/-- Where no null stands, an option is read from its own text or from nothing. -/
theorem readOptionString_eq_some {field : Option Value} (hField : field ≠ some .null)
    {text : Option String} :
    readOptionString field = some text ↔ field = text.map Value.string := by
  unfold readOptionString
  split
  · cases text <;> simp
  · exact absurd rfl hField
  · cases text <;> simp
  · cases text <;> simp_all

@[simp] theorem readU64_eq_some {field : Option Value} {n : UInt64} :
    readU64 field = some n ↔ field = some (.number (Number.ofU64 n)) := by
  unfold readU64 Number.ofU64
  split
  · rename_i number
    cases number <;> simp [Number.asU64]
  · simp_all

theorem mapM_eq_some {α : Type} {read : Value → Option α} {code : α → Value} {items : List Value}
    (hRead : ∀ item ∈ items, ∀ member, read item = some member ↔ item = code member)
    {members : List α} : items.mapM read = some members ↔ items = members.map code := by
  induction items generalizing members with
  | nil => cases members <;> simp
  | cons item items ih =>
      obtain ⟨hItem, hItems⟩ := List.forall_mem_cons.mp hRead
      cases members with
      | nil => simp [List.mapM_cons, Option.bind_eq_some_iff]
      | cons member members => simp [List.mapM_cons, Option.bind_eq_some_iff, hItem, ih hItems]

/-- A list is read exactly from the list of its members' values, if each member is. -/
theorem readList_eq_some {α : Type} {read : Value → Option α} {code : α → Value}
    {field : Option Value}
    (hRead : ∀ items, field = some (.array items) →
      ∀ item ∈ items, ∀ member, read item = some member ↔ item = code member)
    {members : List α} :
    readList read field = some members ↔ field = some (.array (members.map code)) := by
  unfold readList
  split
  · rename_i items
    rw [mapM_eq_some (hRead items rfl), Option.some.injEq, Value.array.injEq]
  · simp_all

@[simp] theorem readStrings_eq_some {field : Option Value} {texts : List String} :
    readStrings field = some texts ↔ field = some (stringsValue texts) :=
  readList_eq_some fun _ _ _ _ _ => by
    rw [readString_eq_some, stringField, Option.some.injEq]

/-- A struct is read exactly from its own value, if its reader takes no other. -/
theorem readStruct_eq_some {α : Type} {read : Value → Option α} {code : α → Value}
    {field : Option Value}
    (hRead : ∀ value, field = some value → ∀ result, read value = some result ↔ value = code result)
    {result : α} : readStruct read field = some result ↔ field = some (code result) := by
  cases field with
  | none => simp [readStruct]
  | some value => rw [readStruct, hRead value rfl, Option.some.injEq]

/-- An identity is taken as it is, whatever value it is, apart from null, which reads
as absent. -/
theorem readIdentity_eq_some {field : Option Value} (hField : field ≠ some .null)
    (hOrdered : ∀ value, field = some value → value.ordered = true)
    {identity : Option OrderedValue} :
    readIdentity field = some identity ↔ field = identity.map OrderedValue.value := by
  cases field with
  | none => cases identity <;> simp [readIdentity]
  | some value =>
      have hRead : readIdentity (some value) = (OrderedValue.ofValue value).map some := by
        cases value <;> first | rfl | exact absurd rfl hField
      rw [hRead, OrderedValue.ofValue, dif_pos (hOrdered value rfl)]
      cases identity with
      | none => simp
      | some identity =>
          simp only [Option.map_some, Option.some.injEq]
          exact ⟨fun h => h ▸ rfl, fun h => OrderedValue.ext h⟩

/-- From a map, a reader gets every field under its name, and no others may be
there. -/
theorem structFields_object_bind {α : Type} {names : List String}
    {entries : List (String × Value)} {next : (String → Option Value) → Option α} {result : α} :
    (structFields names (.object entries)).bind next = some result ↔
      (∀ entry ∈ entries, entry.1 ∈ names) ∧
        next (fun name => SortedMap.lookup name entries) = some result := by
  simp only [structFields, List.all_eq_true, List.contains_iff_mem]
  split_ifs with h
  · exact ⟨fun hNext => ⟨h, hNext⟩, fun hNext => hNext.2⟩
  · exact ⟨fun hNext => by simp at hNext, fun hNext => absurd hNext.1 h⟩

mutual
/-- No null at any depth. Neither codec writes one, and the JSON texts have them. -/
def nullFree : Value → Bool
  | .null => false
  | .array items => nullFreeItems items
  | .object entries => nullFreeEntries entries
  | _ => true

def nullFreeItems : List Value → Bool
  | [] => true
  | item :: rest => nullFree item && nullFreeItems rest

def nullFreeEntries : List (String × Value) → Bool
  | [] => true
  | (_, item) :: rest => nullFree item && nullFreeEntries rest
end

theorem nullFree_array {items : List Value} :
    nullFree (.array items) = true ↔ ∀ item ∈ items, nullFree item = true := by
  rw [nullFree]
  induction items with
  | nil => simp [nullFreeItems]
  | cons item rest ih => rw [nullFreeItems, Bool.and_eq_true, ih, List.forall_mem_cons]

theorem nullFree_object {entries : List (String × Value)} :
    nullFree (.object entries) = true ↔ ∀ entry ∈ entries, nullFree entry.2 = true := by
  rw [nullFree]
  induction entries with
  | nil => simp [nullFreeEntries]
  | cons entry rest ih => rw [nullFreeEntries, Bool.and_eq_true, ih, List.forall_mem_cons]

/-- A value without nulls whose objects are ordered maps, as everything is that the
decoder returns. -/
structure Ordinary (value : Value) : Prop where
  ordered : value.ordered = true
  noNull : nullFree value = true

namespace Ordinary

variable {entries : List (String × Value)}

theorem sorted (h : Ordinary (.object entries)) : SortedMap.Sorted entries :=
  (Value.ordered_object.mp h.ordered).1

theorem item {items : List Value} (h : Ordinary (.array items)) : ∀ item ∈ items, Ordinary item :=
  fun item hMem => ⟨Value.ordered_array.mp h.ordered item hMem, nullFree_array.mp h.noNull item hMem⟩

theorem field (h : Ordinary (.object entries)) {name : String} {value : Value}
    (hLookup : SortedMap.lookup name entries = some value) : Ordinary value :=
  have hMem := SortedMap.mem_of_lookup hLookup
  ⟨(Value.ordered_object.mp h.ordered).2 _ hMem, nullFree_object.mp h.noNull _ hMem⟩

/-- No field of an ordinary object is null, so that a reader's treatment of null does
not matter. -/
theorem field_ne_null (h : Ordinary (.object entries)) (name : String) :
    SortedMap.lookup name entries ≠ some .null := fun hNull => by
  have hNoNull := (h.field hNull).noNull
  simp [nullFree] at hNoNull

end Ordinary

theorem Admissible.nullFree {value : Value} (h : Admissible limits depth value) :
    nullFree value = true := by
  induction h with
  | bool | number | string => simp [Tfws.nullFree]
  | array _ _ _ ih => exact nullFree_array.mpr ih
  | object _ _ _ _ ih => exact nullFree_object.mpr ih

/-- What the decoder returns is ordinary: it refuses null and duplicate keys, and it
sorts. -/
theorem Decoded.ordinary {value : Value} (h : Decoded limits depth value) : Ordinary value :=
  ⟨h.2, h.1.nullFree⟩

theorem Decoded.sorted {entries : List (String × Value)}
    (h : Decoded limits depth (.object entries)) : SortedMap.Sorted entries :=
  (Decoded.ordinary h).sorted

theorem Decoded.item {items : List Value} (h : Decoded limits depth (.array items)) :
    ∀ item ∈ items, Decoded limits (depth + 1) item :=
  fun item hMem => ⟨h.1.of_array item hMem, Value.ordered_array.mp h.2 item hMem⟩

theorem Decoded.field {entries : List (String × Value)} (h : Decoded limits depth (.object entries))
    {name : String} {value : Value} (hLookup : SortedMap.lookup name entries = some value) :
    Decoded limits (depth + 1) value :=
  have hMem := SortedMap.mem_of_lookup hLookup
  ⟨h.1.of_object _ hMem, (Value.ordered_object.mp h.2).2 _ hMem⟩

theorem Decoded.field_ne_null {entries : List (String × Value)}
    (h : Decoded limits depth (.object entries)) (name : String) :
    SortedMap.lookup name entries ≠ some .null :=
  (Decoded.ordinary h).field_ne_null name

/-- A reader that reads its document from maps, and only its document. There is one
lemma of this form for every struct. -/
def ReadsRecord {α : Type} (read : Value → Option α) (document : α → Value) : Prop :=
  ∀ ⦃entries⦄, Ordinary (.object entries) →
    ∀ result, read (.object entries) = some result ↔ Value.object entries = document result

/-- The same of the maps that a decoder returns, for a reader with fields that only
those values allow. -/
def ReadsDocument {α : Type} (read : Value → Option α) (document : α → Value) : Prop :=
  ∀ ⦃limits depth entries⦄, Decoded limits depth (.object entries) →
    ∀ result, read (.object entries) = some result ↔ Value.object entries = document result

theorem Operator.readsRecord : ReadsRecord Operator.deserialize Operator.document := by
  intro entries h operator
  have hNames : (operator.record.map Prod.fst).Nodup := show Operator.fields.Nodup by decide
  rw [document, Value.object.injEq, h.sorted.eq_present_iff hNames, deserialize,
    Option.bind_eq_bind, structFields_object_bind]
  simp only [Option.bind_eq_bind, Option.bind_eq_some_iff, readString_eq_some,
    readOptionString_eq_some (h.field_ne_null _), record, List.forall_mem_cons,
    Option.some.injEq]
  constructor
  · rintro ⟨hKnown, name, hName, jurisdiction, hJurisdiction, rfl⟩
    exact ⟨hKnown, hName, hJurisdiction, by simp⟩
  · rintro ⟨hKnown, hName, hJurisdiction, _⟩
    exact ⟨hKnown, _, hName, _, hJurisdiction, rfl⟩

theorem SignaturePolicy.readsRecord :
    ReadsRecord SignaturePolicy.deserialize SignaturePolicy.document := by
  intro entries h policy
  have hNames : (policy.record.map Prod.fst).Nodup := show SignaturePolicy.fields.Nodup by decide
  rw [document, Value.object.injEq, h.sorted.eq_present_iff hNames, deserialize,
    Option.bind_eq_bind, structFields_object_bind]
  simp only [Option.bind_eq_bind, Option.bind_eq_some_iff, readString_eq_some,
    readStrings_eq_some, record, List.forall_mem_cons, Option.some.injEq]
  constructor
  · rintro ⟨hKnown, policyId, hPolicyId, requiredAlgorithms, hRequired, rfl⟩
    exact ⟨hKnown, hPolicyId, hRequired, by simp⟩
  · rintro ⟨hKnown, hPolicyId, hRequired, _⟩
    exact ⟨hKnown, _, hPolicyId, _, hRequired, rfl⟩

theorem Capabilities.readsRecord : ReadsRecord Capabilities.deserialize Capabilities.document := by
  intro entries h capabilities
  have hNames : (capabilities.record.map Prod.fst).Nodup := show Capabilities.fields.Nodup by decide
  rw [document, Value.object.injEq, h.sorted.eq_present_iff hNames, deserialize,
    Option.bind_eq_bind, structFields_object_bind]
  simp only [Option.bind_eq_bind, Option.bind_eq_some_iff, readStrings_eq_some, record,
    List.forall_mem_cons, Option.some.injEq]
  constructor
  · rintro ⟨hKnown, required, hRequired, optional, hOptional, rfl⟩
    exact ⟨hKnown, hRequired, hOptional, by simp⟩
  · rintro ⟨hKnown, hRequired, hOptional, _⟩
    exact ⟨hKnown, _, hRequired, _, hOptional, rfl⟩

theorem Artifact.readsRecord : ReadsRecord Artifact.deserialize Artifact.document := by
  intro entries h artifact
  have hNames : (artifact.record.map Prod.fst).Nodup := show Artifact.fields.Nodup by decide
  rw [document, Value.object.injEq, h.sorted.eq_present_iff hNames, deserialize,
    Option.bind_eq_bind, structFields_object_bind]
  simp only [Option.bind_eq_bind, Option.bind_eq_some_iff, readString_eq_some, record,
    List.forall_mem_cons, Option.some.injEq]
  constructor
  · rintro ⟨hKnown, uri, hUri, mediaType, hMediaType, sha512, hSha512, rfl⟩
    exact ⟨hKnown, hUri, hMediaType, hSha512, by simp⟩
  · rintro ⟨hKnown, hUri, hMediaType, hSha512, _⟩
    exact ⟨hKnown, _, hUri, _, hMediaType, _, hSha512, rfl⟩

theorem KeyDescriptor.readsRecord : ReadsRecord KeyDescriptor.deserialize KeyDescriptor.document := by
  intro entries h key
  have hNames : (key.record.map Prod.fst).Nodup := show KeyDescriptor.fields.Nodup by decide
  rw [document, Value.object.injEq, h.sorted.eq_present_iff hNames, deserialize,
    Option.bind_eq_bind, structFields_object_bind]
  simp only [Option.bind_eq_bind, Option.bind_eq_some_iff, readString_eq_some,
    readStrings_eq_some, record, List.forall_mem_cons, Option.some.injEq]
  constructor
  · rintro ⟨hKnown, algorithm, hAlgorithm, keyId, hKeyId, uri, hUri, sha256, hSha256, status,
      hStatus, usage, hUsage, rfl⟩
    exact ⟨hKnown, hAlgorithm, hKeyId, hUri, hSha256, hStatus, hUsage, by simp⟩
  · rintro ⟨hKnown, hAlgorithm, hKeyId, hUri, hSha256, hStatus, hUsage, _⟩
    exact ⟨hKnown, _, hAlgorithm, _, hKeyId, _, hUri, _, hSha256, _, hStatus, _, hUsage, rfl⟩

/-- A reader of records reads, from a map, the document and nothing else. This lifts
the lemma of a struct to what the decoder returns. -/
theorem ReadsRecord.readsDocument {α : Type} {read : Value → Option α} {document : α → Value}
    (h : ReadsRecord read document) : ReadsDocument read document :=
  fun _ _ _ hDecoded => h (Decoded.ordinary hDecoded)

/-- The field, if it is there, is a map. A missing field is reported by the reader and
not here. -/
def fieldIsObject (name : String) (root : List (String × Value)) : Bool :=
  (SortedMap.lookup name root).all isObject

/-- The field, if it is there and a list, lists maps. Another type is left to the
reader. -/
def membersAreObjects (name : String) (root : List (String × Value)) : Bool :=
  match SortedMap.lookup name root with
  | some (.array items) => items.all isObject
  | _ => true

/-- Every position at which a manifest has a struct holds a map. serde would read a
struct from a list as well. -/
def mapShaped : Value → Bool
  | .object root =>
      fieldIsObject "operator" root && fieldIsObject "signature_policy" root &&
        fieldIsObject "capabilities" root && membersAreObjects "keys" root &&
        membersAreObjects "artifacts" root
  | _ => false

section Fields

variable {α : Type} {read : Value → Option α} {document : α → Value}
  {root : List (String × Value)} {name : String}

/-- A field that is an object is read exactly from the document of the result. -/
theorem readStruct_field (hReads : ReadsRecord read document)
    (h : Ordinary (.object root)) (hShape : fieldIsObject name root = true)
    (result : α) :
    readStruct read (SortedMap.lookup name root) = some result ↔
      SortedMap.lookup name root = some (document result) := by
  refine readStruct_eq_some fun value hLookup result => ?_
  rw [fieldIsObject, hLookup, Option.all_some] at hShape
  cases value with
  | object entries => exact hReads (h.field hLookup) result
  | _ => cases hShape

/-- A field whose members are objects is read exactly from the documents of the
results. -/
theorem readList_field (hReads : ReadsRecord read document)
    (h : Ordinary (.object root)) (hShape : membersAreObjects name root = true)
    (members : List α) :
    readList read (SortedMap.lookup name root) = some members ↔
      SortedMap.lookup name root = some (.array (members.map document)) := by
  refine readList_eq_some fun items hLookup item hMem member => ?_
  simp only [membersAreObjects, hLookup, List.all_eq_true] at hShape
  have hItem := (h.field hLookup).item item hMem
  have hObject := hShape item hMem
  cases item with
  | object entries => exact hReads hItem member
  | _ => cases hObject

end Fields

theorem Manifest.record_names (manifest : Manifest) :
    (manifest.record.map Prod.fst).Nodup :=
  show Manifest.fields.Nodup by decide

theorem bind_of_eq_some {α β : Type} {first : Option α} {value : α} (h : first = some value)
    (next : α → Option β) : first >>= next = next value := by
  rw [h]
  rfl

/-- Every field of the manifest is what the reader of that field returns, one reader
for each type of field. -/
structure Manifest.ReadFrom (field : String → Option Value) (manifest : Manifest) : Prop where
  tfwsVersion : readString (field "tfws_version") = some manifest.tfwsVersion
  subject : readString (field "subject") = some manifest.subject
  environment : readString (field "environment") = some manifest.environment
  operator : readStruct Operator.deserialize (field "operator") = some manifest.operator
  keyEpoch : readU64 (field "key_epoch") = some manifest.keyEpoch
  keys : readList KeyDescriptor.deserialize (field "keys") = some manifest.keys
  signaturePolicy : readStruct SignaturePolicy.deserialize (field "signature_policy") =
    some manifest.signaturePolicy
  capabilities : readStruct Capabilities.deserialize (field "capabilities") =
    some manifest.capabilities
  identity : readIdentity (field "identity") = some manifest.identity
  artifacts : readList Artifact.deserialize (field "artifacts") = some manifest.artifacts
  updatedAt : readString (field "updated_at") = some manifest.updatedAt
  expiresAt : readOptionString (field "expires_at") = some manifest.expiresAt

/-- The derived reader, field by field: it returns a manifest exactly if every field
of the struct is read as that of the manifest. -/
theorem Manifest.deserialize_eq_some {value : Value} {manifest : Manifest} :
    Manifest.deserialize value = some manifest ↔
      ∃ field, structFields Manifest.fields value = some field ∧ manifest.ReadFrom field := by
  constructor
  · intro h
    obtain ⟨field, hField, h⟩ := Option.bind_eq_some_iff.mp h
    obtain ⟨_, hVersion, h⟩ := Option.bind_eq_some_iff.mp h
    obtain ⟨_, hSubject, h⟩ := Option.bind_eq_some_iff.mp h
    obtain ⟨_, hEnvironment, h⟩ := Option.bind_eq_some_iff.mp h
    obtain ⟨_, hOperator, h⟩ := Option.bind_eq_some_iff.mp h
    obtain ⟨_, hKeyEpoch, h⟩ := Option.bind_eq_some_iff.mp h
    obtain ⟨_, hKeys, h⟩ := Option.bind_eq_some_iff.mp h
    obtain ⟨_, hPolicy, h⟩ := Option.bind_eq_some_iff.mp h
    obtain ⟨_, hCapabilities, h⟩ := Option.bind_eq_some_iff.mp h
    obtain ⟨_, hIdentity, h⟩ := Option.bind_eq_some_iff.mp h
    obtain ⟨_, hArtifacts, h⟩ := Option.bind_eq_some_iff.mp h
    obtain ⟨_, hUpdatedAt, h⟩ := Option.bind_eq_some_iff.mp h
    obtain ⟨_, hExpiresAt, h⟩ := Option.bind_eq_some_iff.mp h
    obtain rfl := Option.some.inj h
    exact ⟨field, hField, hVersion, hSubject, hEnvironment, hOperator, hKeyEpoch, hKeys, hPolicy,
      hCapabilities, hIdentity, hArtifacts, hUpdatedAt, hExpiresAt⟩
  · rintro ⟨field, hField, h⟩
    calc
      deserialize value = _ := bind_of_eq_some hField _
      _ = _ := bind_of_eq_some h.tfwsVersion _
      _ = _ := bind_of_eq_some h.subject _
      _ = _ := bind_of_eq_some h.environment _
      _ = _ := bind_of_eq_some h.operator _
      _ = _ := bind_of_eq_some h.keyEpoch _
      _ = _ := bind_of_eq_some h.keys _
      _ = _ := bind_of_eq_some h.signaturePolicy _
      _ = _ := bind_of_eq_some h.capabilities _
      _ = _ := bind_of_eq_some h.identity _
      _ = _ := bind_of_eq_some h.artifacts _
      _ = _ := bind_of_eq_some h.updatedAt _
      _ = some manifest := bind_of_eq_some h.expiresAt _

theorem structFields_object {names : List String} {entries : List (String × Value)}
    {field : String → Option Value} :
    structFields names (.object entries) = some field ↔
      (∀ entry ∈ entries, entry.1 ∈ names) ∧ field = fun name => SortedMap.lookup name entries := by
  rw [structFields, Option.ite_none_right_eq_some, Option.some.injEq, List.all_eq_true,
    eq_comm]
  simp only [List.contains_iff_mem]

/-- Among documents that are maps at every struct, the derived reader takes the
manifest's own document and no other. -/
theorem Manifest.deserialize_ordinary {value : Value} (h : Ordinary value)
    (hShape : mapShaped value = true) {manifest : Manifest} :
    Manifest.deserialize value = some manifest ↔ value = manifest.document := by
  cases value with
  | object root =>
      simp only [mapShaped, Bool.and_eq_true] at hShape
      obtain ⟨⟨⟨⟨hOperatorShape, hPolicyShape⟩, hCapabilitiesShape⟩, hKeysShape⟩,
        hArtifactsShape⟩ := hShape
      have hOrdered : ∀ value, SortedMap.lookup "identity" root = some value →
          value.ordered = true := fun _ hLookup => (h.field hLookup).ordered
      have hOptional := fun name => h.field_ne_null name
      have hOperator := readStruct_field Operator.readsRecord h hOperatorShape
      have hPolicy := readStruct_field SignaturePolicy.readsRecord h hPolicyShape
      have hCapabilities := readStruct_field Capabilities.readsRecord h hCapabilitiesShape
      have hKeys := readList_field KeyDescriptor.readsRecord h hKeysShape
      have hArtifacts := readList_field Artifact.readsRecord h hArtifactsShape
      rw [document, Value.object.injEq, h.sorted.eq_present_iff manifest.record_names,
        deserialize_eq_some]
      simp only [structFields_object, record, List.forall_mem_cons]
      constructor
      · rintro ⟨_, ⟨hKnown, rfl⟩, hRead⟩
        exact ⟨hKnown, readString_eq_some.mp hRead.tfwsVersion,
          readString_eq_some.mp hRead.subject, readString_eq_some.mp hRead.environment,
          (hOperator _).mp hRead.operator, readU64_eq_some.mp hRead.keyEpoch, (hKeys _).mp hRead.keys,
          (hPolicy _).mp hRead.signaturePolicy, (hCapabilities _).mp hRead.capabilities,
          (readIdentity_eq_some (hOptional _) hOrdered).mp hRead.identity,
          (hArtifacts _).mp hRead.artifacts, readString_eq_some.mp hRead.updatedAt,
          (readOptionString_eq_some (hOptional _)).mp hRead.expiresAt, by simp⟩
      · rintro ⟨hKnown, hVersion, hSubject, hEnvironment, hOperatorField, hKeyEpoch, hKeysField,
          hPolicyField, hCapabilitiesField, hIdentity, hArtifactsField, hUpdatedAt, hExpiresAt, _⟩
        exact ⟨_, ⟨hKnown, rfl⟩, readString_eq_some.mpr hVersion,
          readString_eq_some.mpr hSubject, readString_eq_some.mpr hEnvironment,
          (hOperator _).mpr hOperatorField, readU64_eq_some.mpr hKeyEpoch, (hKeys _).mpr hKeysField,
          (hPolicy _).mpr hPolicyField, (hCapabilities _).mpr hCapabilitiesField,
          (readIdentity_eq_some (hOptional _) hOrdered).mpr hIdentity,
          (hArtifacts _).mpr hArtifactsField, readString_eq_some.mpr hUpdatedAt,
          (readOptionString_eq_some (hOptional _)).mpr hExpiresAt⟩
  | _ => cases hShape

/-- The same for what the decoder returns: of map-shaped values, exactly the documents
are read as their manifests. -/
theorem Manifest.deserialize_mapShaped {value : Value} (h : Decoded limits depth value)
    (hShape : mapShaped value = true) {manifest : Manifest} :
    Manifest.deserialize value = some manifest ↔ value = manifest.document :=
  deserialize_ordinary (Decoded.ordinary h) hShape

/-- A document holds every field of its manifest under the field's name, and no other
value there. -/
theorem Manifest.lookup_document (manifest : Manifest) (name : String) (value : Option Value)
    (hMem : (name, value) ∈ manifest.record) :
    SortedMap.lookup name (SortedMap.present manifest.record) = value :=
  SortedMap.lookup_present manifest.record_names hMem

/-- A document is a map at every struct, so that what is encoded is never of the
positional form. -/
theorem Manifest.document_mapShaped (manifest : Manifest) : mapShaped manifest.document = true := by
  have hOperator := manifest.lookup_document "operator" (some manifest.operator.document)
    (by simp [record])
  have hPolicy := manifest.lookup_document "signature_policy"
    (some manifest.signaturePolicy.document) (by simp [record])
  have hCapabilities := manifest.lookup_document "capabilities"
    (some manifest.capabilities.document) (by simp [record])
  have hKeys := manifest.lookup_document "keys"
    (some (.array (manifest.keys.map KeyDescriptor.document))) (by simp [record])
  have hArtifacts := manifest.lookup_document "artifacts"
    (some (.array (manifest.artifacts.map Artifact.document))) (by simp [record])
  simp [document, mapShaped, fieldIsObject, membersAreObjects, hOperator, hPolicy, hCapabilities,
    hKeys, hArtifacts, isObject, Operator.document, SignaturePolicy.document,
    Capabilities.document, KeyDescriptor.document, Artifact.document]

theorem ordered_present {fields : List (String × Option Value)}
    (hNames : (fields.map Prod.fst).Nodup)
    (h : ∀ field ∈ fields, ∀ value ∈ field.2, value.ordered = true) :
    (Value.object (SortedMap.present fields)).ordered = true :=
  Value.ordered_object.mpr ⟨SortedMap.sorted_present fields, fun entry hMem =>
    h _ ((SortedMap.mem_present hNames).mp hMem) entry.2 rfl⟩

theorem stringsValue_ordered (texts : List String) : (stringsValue texts).ordered = true := by
  rw [stringsValue, Value.ordered_array, List.forall_mem_map]
  intro text _
  simp only [Value.ordered]

theorem Operator.document_ordered (operator : Operator) : operator.document.ordered = true := by
  refine ordered_present (show Operator.fields.Nodup by decide) ?_
  cases hJurisdiction : operator.jurisdiction <;>
    simp [record, stringField, hJurisdiction, Value.ordered]

theorem SignaturePolicy.document_ordered (policy : SignaturePolicy) :
    policy.document.ordered = true := by
  refine ordered_present (show SignaturePolicy.fields.Nodup by decide) ?_
  simp [record, stringField, stringsValue_ordered, Value.ordered]

theorem Capabilities.document_ordered (capabilities : Capabilities) :
    capabilities.document.ordered = true := by
  refine ordered_present (show Capabilities.fields.Nodup by decide) ?_
  simp [record, stringsValue_ordered]

theorem Artifact.document_ordered (artifact : Artifact) : artifact.document.ordered = true := by
  refine ordered_present (show Artifact.fields.Nodup by decide) ?_
  simp [record, stringField, Value.ordered]

theorem KeyDescriptor.document_ordered (key : KeyDescriptor) : key.document.ordered = true := by
  refine ordered_present (show KeyDescriptor.fields.Nodup by decide) ?_
  simp [record, stringField, stringsValue_ordered, Value.ordered]

/-- The objects of a document are in key order, those inside the identity included. -/
theorem Manifest.document_ordered (manifest : Manifest) : manifest.document.ordered = true := by
  refine ordered_present manifest.record_names ?_
  have hKeys : ∀ item ∈ manifest.keys.map KeyDescriptor.document, item.ordered = true :=
    List.forall_mem_map.mpr fun key _ => key.document_ordered
  have hArtifacts : ∀ item ∈ manifest.artifacts.map Artifact.document, item.ordered = true :=
    List.forall_mem_map.mpr fun artifact _ => artifact.document_ordered
  have hIdentity : ∀ value ∈ manifest.identity.map OrderedValue.value, value.ordered = true := by
    cases manifest.identity with
    | none => simp
    | some identity => simpa using identity.ordered
  have hExpiresAt : ∀ value ∈ manifest.expiresAt.map Value.string, value.ordered = true := by
    cases manifest.expiresAt <;> simp [Value.ordered]
  simp only [record, List.forall_mem_cons]
  refine ⟨?_, ?_, ?_, ?_, ?_, ?_, ?_, ?_, hIdentity, ?_, ?_, hExpiresAt, by simp⟩
  · simp [stringField, Value.ordered]
  · simp [stringField, Value.ordered]
  · simp [stringField, Value.ordered]
  · simpa using manifest.operator.document_ordered
  · simp [Value.ordered]
  · simpa using hKeys
  · simpa using manifest.signaturePolicy.document_ordered
  · simpa using manifest.capabilities.document_ordered
  · simpa using hArtifacts
  · simp [stringField, Value.ordered]

end Tfws
