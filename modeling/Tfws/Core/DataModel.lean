import Tfws.Core.CborEncoding
import Tfws.Core.Document
import Tfws.Crates.SerdeJsonText

/-! The data model of manifests apart from the limits on its size, and which
values the struct readers take out of it. -/
namespace Tfws

open SerdeJson Fallible

variable {limits : CborLimits} {depth : Nat}

/-- No null and no float, and every integer in the safe range: what a CBOR document
may say. -/
inductive InDataModel : Value → Prop where
  | bool {value : Bool} : InDataModel (.bool value)
  | number {number : Number} (integer : Int) (isInteger : number.toInt = some integer)
      (safe : integer.natAbs ≤ maxSafeInteger) : InDataModel (.number number)
  | string {text : String} : InDataModel (.string text)
  | array {items : List Value} (members : ∀ item ∈ items, InDataModel item) :
      InDataModel (.array items)
  | object {entries : List (String × Value)} (fields : ∀ entry ∈ entries, InDataModel entry.2) :
      InDataModel (.object entries)

/-- Every part is at an allowed depth and of an allowed size, whatever its values
are. -/
inductive WithinLimits (limits : CborLimits) : Nat → Value → Prop where
  | null {depth : Nat} (shallow : depth ≤ limits.maxDepth.toNat) : WithinLimits limits depth .null
  | bool {depth : Nat} {value : Bool} (shallow : depth ≤ limits.maxDepth.toNat) :
      WithinLimits limits depth (.bool value)
  | number {depth : Nat} {number : Number} (shallow : depth ≤ limits.maxDepth.toNat) :
      WithinLimits limits depth (.number number)
  | string {depth : Nat} {text : String} (shallow : depth ≤ limits.maxDepth.toNat)
      (short : (Utf8.encode text).length ≤ limits.maxStringBytes.toNat) :
      WithinLimits limits depth (.string text)
  | array {depth : Nat} {items : List Value} (shallow : depth ≤ limits.maxDepth.toNat)
      (short : items.length ≤ limits.maxArrayItems.toNat)
      (members : ∀ item ∈ items, WithinLimits limits (depth + 1) item) :
      WithinLimits limits depth (.array items)
  | object {depth : Nat} {entries : List (String × Value)}
      (shallow : depth ≤ limits.maxDepth.toNat)
      (short : entries.length ≤ limits.maxMapPairs.toNat)
      (keys : ∀ entry ∈ entries, (Utf8.encode entry.1).length ≤ limits.maxStringBytes.toNat)
      (fields : ∀ entry ∈ entries, WithinLimits limits (depth + 1) entry.2) :
      WithinLimits limits depth (.object entries)

/-- What the encoder takes is the data model within the limits: two conditions that do
not depend on each other. -/
theorem admissible_iff {value : Value} :
    Admissible limits depth value ↔ WithinLimits limits depth value ∧ InDataModel value := by
  constructor
  · intro h
    induction h with
    | bool shallow => exact ⟨.bool shallow, .bool⟩
    | number shallow integer isInteger safe =>
        exact ⟨.number shallow, .number integer isInteger safe⟩
    | string shallow short => exact ⟨.string shallow short, .string⟩
    | array shallow short _ ih =>
        exact ⟨.array shallow short fun item hMem => (ih item hMem).1,
          .array fun item hMem => (ih item hMem).2⟩
    | object shallow short keys _ ih =>
        exact ⟨.object shallow short keys fun entry hMem => (ih entry hMem).1,
          .object fun entry hMem => (ih entry hMem).2⟩
  · intro ⟨hWithin, hModel⟩
    induction hWithin with
    | null _ => cases hModel
    | bool shallow => exact .bool shallow
    | number shallow =>
        cases hModel with
        | number integer isInteger safe => exact .number shallow integer isInteger safe
    | string shallow short => exact .string shallow short
    | array shallow short _ ih =>
        cases hModel with
        | array members => exact .array shallow short fun item hMem => ih item hMem (members item hMem)
    | object shallow short keys _ ih =>
        cases hModel with
        | object fields =>
            exact .object shallow short keys fun entry hMem => ih entry hMem (fields entry hMem)

theorem validateJsonEntries_eq_ok {entries : List (String × Value)} :
    validateJsonEntries entries = .ok () ↔
      ∀ entry ∈ entries, validateJsonNumberProfile entry.2 = .ok () := by
  induction entries with
  | nil => simp [validateJsonEntries]
  | cons entry rest ih => rw [validateJsonEntries, then_eq_ok, ih, List.forall_mem_cons]

theorem validateJsonItems_eq_ok {items : List Value} :
    validateJsonItems items = .ok () ↔
      ∀ item ∈ items, validateJsonNumberProfile item = .ok () := by
  induction items with
  | nil => simp [validateJsonItems]
  | cons item rest ih => rw [validateJsonItems, then_eq_ok, ih, List.forall_mem_cons]

theorem numberInProfile_of_toInt {number : Number} {integer : Int}
    (hInteger : number.toInt = some integer) (hSafe : integer.natAbs ≤ maxSafeInteger) :
    numberInProfile number = true := by
  cases number with
  | posInt value =>
      obtain rfl := Option.some.inj hInteger
      have hSmall : value.toNat ≤ maxSafeInteger := by simpa using hSafe
      have hFits : value ≤ 9223372036854775807 :=
        UInt64.le_iff_toNat_le.mpr (hSmall.trans (by decide))
      have hBack : value.toInt64.toInt = value.toNat := by
        calc
          value.toInt64.toInt = (UInt64.ofNat value.toNat).toInt64.toInt := by rw [UInt64.ofNat_toNat]
          _ = (Int64.ofNat value.toNat).toInt := by rw [UInt64.toInt64_ofNat']
          _ = value.toNat := Int64.toInt_ofNat_of_lt (hSmall.trans_lt (by decide))
      simpa [numberInProfile, Number.asI64, hFits, hBack] using hSafe
  | negInt value =>
      obtain rfl := Option.some.inj hInteger
      simpa [numberInProfile, Number.asI64] using hSafe
  | float bits => cases hInteger

/-- The number profile of the policy and that of the codec are the same. -/
theorem numberInProfile_iff {number : Number} : numberInProfile number = true ↔
    ∃ integer, number.toInt = some integer ∧ integer.natAbs ≤ maxSafeInteger := by
  constructor
  · intro h
    cases number with
    | posInt value =>
        refine ⟨value.toNat, rfl, ?_⟩
        by_cases hFits : value ≤ 9223372036854775807
        · have hLt : value.toNat < 9223372036854775808 :=
            Nat.lt_succ_of_le (UInt64.le_iff_toNat_le.mp hFits)
          have hBack : value.toInt64.toInt = value.toNat := by
            calc
              value.toInt64.toInt = (UInt64.ofNat value.toNat).toInt64.toInt := by
                rw [UInt64.ofNat_toNat]
              _ = (Int64.ofNat value.toNat).toInt := by rw [UInt64.toInt64_ofNat']
              _ = value.toNat := Int64.toInt_ofNat_of_lt hLt
          simpa [numberInProfile, Number.asI64, hFits, hBack] using h
        · simpa [numberInProfile, Number.asI64, Number.asU64, hFits] using h
    | negInt value => exact ⟨_, rfl, by simpa [numberInProfile, Number.asI64] using h⟩
    | float bits => simp [numberInProfile, Number.asI64, Number.asU64] at h
  · intro h
    obtain ⟨integer, hInteger, hSafe⟩ := h
    exact numberInProfile_of_toInt hInteger hSafe

/-- The number profile is the data model but for the nulls, which JSON has and CBOR
documents do not. -/
theorem inDataModel_iff {value : Value} :
    InDataModel value ↔ nullFree value = true ∧ validateJsonNumberProfile value = .ok () := by
  induction value with
  | null =>
      simp only [nullFree, Bool.false_eq_true, false_and, iff_false]
      intro h
      cases h
  | bool value => simp [nullFree, validateJsonNumberProfile, InDataModel.bool]
  | number number =>
      rw [validateJsonNumberProfile, failIf_eq_ok, Bool.not_eq_false, numberInProfile_iff]
      constructor
      · intro h
        cases h with
        | number integer isInteger safe => exact ⟨by simp [nullFree], integer, isInteger, safe⟩
      · intro h
        obtain ⟨-, integer, isInteger, safe⟩ := h
        exact .number integer isInteger safe
  | string text => simp [nullFree, validateJsonNumberProfile, InDataModel.string]
  | array items ih =>
      rw [nullFree_array, validateJsonNumberProfile, validateJsonItems_eq_ok]
      constructor
      · intro h
        cases h with
        | array members =>
            exact ⟨fun item hMem => ((ih item hMem).mp (members item hMem)).1,
              fun item hMem => ((ih item hMem).mp (members item hMem)).2⟩
      · intro h
        obtain ⟨hNulls, hNumbers⟩ := h
        exact .array fun item hMem => (ih item hMem).mpr ⟨hNulls item hMem, hNumbers item hMem⟩
  | object entries ih =>
      rw [nullFree_object, validateJsonNumberProfile, validateJsonEntries_eq_ok]
      constructor
      · intro h
        cases h with
        | object fields =>
            exact ⟨fun entry hMem => ((ih entry hMem).mp (fields entry hMem)).1,
              fun entry hMem => ((ih entry hMem).mp (fields entry hMem)).2⟩
      · intro h
        obtain ⟨hNulls, hNumbers⟩ := h
        exact .object fun entry hMem => (ih entry hMem).mpr ⟨hNulls entry hMem, hNumbers entry hMem⟩

/-- Values with all numbers in the profile have a JSON text, since no float is among
them. -/
theorem exists_json_of_numbers {value : Value} (h : validateJsonNumberProfile value = .ok ()) :
    ∃ result, value.json = some result := by
  induction value with
  | null | bool _ | string _ => exact ⟨_, rfl⟩
  | number number =>
      rw [validateJsonNumberProfile, failIf_eq_ok, Bool.not_eq_false, numberInProfile_iff] at h
      obtain ⟨integer, hInteger, -⟩ := h
      exact ⟨.int integer, Option.map_eq_some_iff.mpr ⟨integer, hInteger, rfl⟩⟩
  | array items ih =>
      rw [validateJsonNumberProfile, validateJsonItems_eq_ok] at h
      obtain ⟨values, hValues⟩ := Traversal.exists_mapM fun item hMem => ih item hMem (h item hMem)
      exact ⟨.array values, Value.json_array.mpr ⟨values, rfl, Traversal.mapM_eq_some.mp hValues⟩⟩
  | object entries ih =>
      rw [validateJsonNumberProfile, validateJsonEntries_eq_ok] at h
      have hField (entry) (hMem : entry ∈ entries) :
          ∃ result, Value.field Value.json entry = some result := by
        obtain ⟨value, hValue⟩ := ih entry hMem (h entry hMem)
        exact ⟨(entry.1, value), Value.field_eq_some.mpr ⟨rfl, hValue⟩⟩
      obtain ⟨fields, hFields⟩ := Traversal.exists_mapM hField
      exact ⟨.object fields, Value.json_object.mpr ⟨fields, rfl, Traversal.mapM_eq_some.mp hFields⟩⟩

/-- Values of the data model have a JSON text, since no number of theirs is one that
JSON cannot write. -/
theorem InDataModel.json {value : Value} (h : InDataModel value) :
    ∃ result, value.json = some result :=
  exists_json_of_numbers (inDataModel_iff.mp h).2

theorem validateJsonNumberProfile_string (text : String) :
    validateJsonNumberProfile (.string text) = .ok () := by
  simp [validateJsonNumberProfile]

theorem validateJsonNumberProfile_strings (texts : List String) :
    validateJsonNumberProfile (stringsValue texts) = .ok () := by
  rw [stringsValue, validateJsonNumberProfile, validateJsonItems_eq_ok, List.forall_mem_map]
  exact fun text _ => validateJsonNumberProfile_string text

theorem validateJsonNumberProfile_objectOf {fields : List (String × Value)}
    (h : ∀ field ∈ fields, validateJsonNumberProfile field.2 = .ok ()) :
    validateJsonNumberProfile (objectOf fields) = .ok () := by
  rw [objectOf, validateJsonNumberProfile, validateJsonEntries_eq_ok]
  intro entry hMem
  rcases SortedMap.mem_insertAll hMem with hMem | hMem
  · cases hMem
  · exact h entry hMem

/-- The numbers of a manifest are its key epoch and those of its identity. -/
theorem Manifest.numbers_of {manifest : Manifest}
    (hEpoch : manifest.keyEpoch.toNat ≤ maxSafeInteger)
    (hIdentity : ∀ identity ∈ manifest.identity, validateJsonNumberProfile identity.value = .ok ()) :
    validateJsonNumberProfile manifest.serialize = .ok () := by
  have hString := validateJsonNumberProfile_string
  have hOption (text : Option String) : validateJsonNumberProfile (optionValue text) = .ok () := by
    cases text <;> simp [optionValue, validateJsonNumberProfile]
  have hNumber : validateJsonNumberProfile (.number (Number.ofU64 manifest.keyEpoch)) = .ok () := by
    rw [validateJsonNumberProfile, failIf_eq_ok, Bool.not_eq_false]
    exact numberInProfile_of_toInt (toInt_ofU64 _) (by simpa using hEpoch)
  have hKeys : validateJsonNumberProfile (.array (manifest.keys.map KeyDescriptor.serialize)) =
      .ok () := by
    rw [validateJsonNumberProfile, validateJsonItems_eq_ok, List.forall_mem_map]
    intro key _
    refine validateJsonNumberProfile_objectOf ?_
    simp [hString, validateJsonNumberProfile_strings]
  have hArtifacts : validateJsonNumberProfile (.array (manifest.artifacts.map Artifact.serialize)) =
      .ok () := by
    rw [validateJsonNumberProfile, validateJsonItems_eq_ok, List.forall_mem_map]
    intro artifact _
    refine validateJsonNumberProfile_objectOf ?_
    simp [hString]
  have hIdentityValue : validateJsonNumberProfile (identityValue manifest.identity) = .ok () := by
    cases hCase : manifest.identity with
    | none => simp [identityValue, validateJsonNumberProfile]
    | some identity => exact hIdentity identity hCase
  refine validateJsonNumberProfile_objectOf ?_
  simp only [List.forall_mem_cons]
  refine ⟨hString _, hString _, hString _, validateJsonNumberProfile_objectOf ?_, hNumber, hKeys,
    validateJsonNumberProfile_objectOf ?_, validateJsonNumberProfile_objectOf ?_, hIdentityValue,
    hArtifacts, hString _, hOption _, by simp⟩
  · simp [hString, hOption]
  · simp [hString, validateJsonNumberProfile_strings]
  · simp [validateJsonNumberProfile_strings]

/-- The encoder takes an identity only if it is an object, or absent. The policy alone
would take any. -/
theorem requireIdentityObject_eq_ok {manifest : Manifest} :
    requireIdentityObject manifest = .ok () ↔
      ∀ identity ∈ manifest.identity, isObject identity.value := by
  rw [requireIdentityObject, failIf_eq_ok]
  cases manifest.identity <;> simp

/-- The numbers of the field, if it is there, are in the profile, at any depth. -/
def NumbersIn (field : Option Value) : Prop :=
  ∀ item, field = some item → validateJsonNumberProfile item = .ok ()

/-- What is read of an ordered value has its numbers in the profile. Each struct has
its lemma of this form. -/
def ReadsNumbers {α : Type} (read : Value → Option α) : Prop :=
  ∀ value result, value.ordered = true → read value = some result →
    validateJsonNumberProfile value = .ok ()

/-- The numbers of a struct are those of its fields, whether it is written as a map or
as a list. -/
theorem structFields_numbers {names : List String} (hNames : names.Nodup) {value : Value}
    (hOrdered : value.ordered = true) {field : String → Option Value}
    (h : structFields names value = some field)
    (hFields : ∀ name ∈ names, NumbersIn (field name)) :
    validateJsonNumberProfile value = .ok () := by
  cases value with
  | object entries =>
      obtain ⟨hKnown, rfl⟩ := structFields_object.mp h
      rw [validateJsonNumberProfile, validateJsonEntries_eq_ok]
      intro entry hMem
      have hLookup := (Value.ordered_object.mp hOrdered).1.lookup_of_mem hMem
      exact hFields entry.1 (hKnown entry hMem) entry.2 hLookup
  | array items =>
      simp only [structFields, Option.ite_none_right_eq_some, Option.some.injEq] at h
      obtain ⟨hLength, rfl⟩ := h
      rw [validateJsonNumberProfile, validateJsonItems_eq_ok]
      intro item hMem
      obtain ⟨place, hPlace, rfl⟩ := List.mem_iff_getElem.mp hMem
      have hName : place < names.length := hLength ▸ hPlace
      have hItem : items[names.idxOf names[place]]? = some items[place] := by
        rw [hNames.idxOf_getElem place hName]
        exact List.getElem?_eq_getElem hPlace
      exact hFields names[place] (List.getElem_mem _) _ hItem
  | _ => cases h

theorem structFields_ordered {names : List String} {value : Value} (hOrdered : value.ordered = true)
    {field : String → Option Value} (h : structFields names value = some field) {name : String}
    {item : Value} (hItem : field name = some item) : item.ordered = true := by
  cases value with
  | object entries =>
      obtain ⟨_, rfl⟩ := structFields_object.mp h
      exact (Value.ordered_object.mp hOrdered).2 _ (SortedMap.mem_of_lookup hItem)
  | array items =>
      simp only [structFields, Option.ite_none_right_eq_some, Option.some.injEq] at h
      obtain ⟨_, rfl⟩ := h
      exact Value.ordered_array.mp hOrdered item (List.mem_of_getElem? hItem)
  | _ => cases h

theorem readString_numbers {field : Option Value} {text : String}
    (h : readString field = some text) : NumbersIn field := by
  intro item hItem
  rw [readString_eq_some.mp h, stringField, Option.some.injEq] at hItem
  exact hItem ▸ validateJsonNumberProfile_string text

theorem readOptionString_numbers {field : Option Value} {text : Option String}
    (h : readOptionString field = some text) : NumbersIn field := by
  intro item hItem
  rw [hItem] at h
  cases item with
  | null => simp [validateJsonNumberProfile]
  | string text => exact validateJsonNumberProfile_string text
  | bool _ | number _ | array _ | object _ => cases h

theorem readStrings_numbers {field : Option Value} {texts : List String}
    (h : readStrings field = some texts) : NumbersIn field := by
  intro item hItem
  rw [readStrings_eq_some.mp h, Option.some.injEq] at hItem
  exact hItem ▸ validateJsonNumberProfile_strings texts

/-- The numbers of a field that is read as a struct are those that its reader accounts
for. -/
theorem readStruct_numbers {α : Type} {read : Value → Option α} (hRead : ReadsNumbers read)
    {field : Option Value} (hOrdered : ∀ item, field = some item → item.ordered = true)
    {result : α} (h : readStruct read field = some result) : NumbersIn field := by
  intro item hItem
  rw [hItem] at h
  exact hRead item result (hOrdered item hItem) h

/-- The numbers of a field that is read as a list are those of its members. -/
theorem readList_numbers {α : Type} {read : Value → Option α} (hRead : ReadsNumbers read)
    {field : Option Value} (hOrdered : ∀ item, field = some item → item.ordered = true)
    {results : List α} (h : readList read field = some results) : NumbersIn field := by
  intro item hItem
  have hMembers := hOrdered item hItem
  rw [hItem] at h
  cases item with
  | array items =>
      rw [validateJsonNumberProfile, validateJsonItems_eq_ok]
      intro member hMem
      obtain ⟨result, -, hResult⟩ := Traversal.exists_right (Traversal.mapM_eq_some.mp h) hMem
      exact hRead member result (Value.ordered_array.mp hMembers member hMem) hResult
  | null | bool _ | number _ | string _ | object _ => cases h

theorem Operator.readsNumbers : ReadsNumbers Operator.deserialize := by
  intro value operator hOrdered h
  simp only [deserialize, Option.bind_eq_bind, Option.bind_eq_some_iff] at h
  obtain ⟨field, hField, _, hName, _, hJurisdiction, -⟩ := h
  refine structFields_numbers (by decide) hOrdered hField ?_
  simp only [fields, List.forall_mem_cons]
  exact ⟨readString_numbers hName, readOptionString_numbers hJurisdiction, by simp⟩

theorem SignaturePolicy.readsNumbers : ReadsNumbers SignaturePolicy.deserialize := by
  intro value policy hOrdered h
  simp only [deserialize, Option.bind_eq_bind, Option.bind_eq_some_iff] at h
  obtain ⟨field, hField, _, hPolicyId, _, hRequired, -⟩ := h
  refine structFields_numbers (by decide) hOrdered hField ?_
  simp only [fields, List.forall_mem_cons]
  exact ⟨readString_numbers hPolicyId, readStrings_numbers hRequired, by simp⟩

theorem Capabilities.readsNumbers : ReadsNumbers Capabilities.deserialize := by
  intro value capabilities hOrdered h
  simp only [deserialize, Option.bind_eq_bind, Option.bind_eq_some_iff] at h
  obtain ⟨field, hField, _, hRequired, _, hOptional, -⟩ := h
  refine structFields_numbers (by decide) hOrdered hField ?_
  simp only [fields, List.forall_mem_cons]
  exact ⟨readStrings_numbers hRequired, readStrings_numbers hOptional, by simp⟩

theorem Artifact.readsNumbers : ReadsNumbers Artifact.deserialize := by
  intro value artifact hOrdered h
  simp only [deserialize, Option.bind_eq_bind, Option.bind_eq_some_iff] at h
  obtain ⟨field, hField, _, hUri, _, hMediaType, _, hSha512, -⟩ := h
  refine structFields_numbers (by decide) hOrdered hField ?_
  simp only [fields, List.forall_mem_cons]
  exact ⟨readString_numbers hUri, readString_numbers hMediaType, readString_numbers hSha512,
    by simp⟩

theorem KeyDescriptor.readsNumbers : ReadsNumbers KeyDescriptor.deserialize := by
  intro value key hOrdered h
  simp only [deserialize, Option.bind_eq_bind, Option.bind_eq_some_iff] at h
  obtain ⟨field, hField, _, hAlgorithm, _, hKeyId, _, hUri, _, hSha256, _, hStatus, _, hUsage, -⟩ :=
    h
  refine structFields_numbers (by decide) hOrdered hField ?_
  simp only [fields, List.forall_mem_cons]
  exact ⟨readString_numbers hAlgorithm, readString_numbers hKeyId, readString_numbers hUri,
    readString_numbers hSha256, readString_numbers hStatus, readStrings_numbers hUsage, by simp⟩

/-- The numbers of an identity are among those that the policy looks at, since it
looks at the whole derived value. -/
theorem Manifest.identity_numbers {manifest : Manifest}
    (h : validateJsonNumberProfile manifest.serialize = .ok ()) {identity : OrderedValue}
    (hIdentity : manifest.identity = some identity) :
    validateJsonNumberProfile identity.value = .ok () := by
  rw [serialize, objectOf, validateJsonNumberProfile, validateJsonEntries_eq_ok] at h
  have hNames : Manifest.fields.Pairwise (· ≠ ·) := by decide
  have hIn := h ("identity", identityValue manifest.identity)
    ((SortedMap.insertAll_perm (List.pairwise_map.mp hNames)
      fun _ _ _ hOld => absurd hOld List.not_mem_nil).mem_iff.mpr (by simp))
  rwa [hIdentity] at hIn

/-- Whatever document a valid manifest is read from, all numbers in it are in the
profile, those of the identity because the policy looks at them. -/
theorem Manifest.deserialize_numbers {value : Value} {manifest : Manifest}
    (hOrdered : value.ordered = true) (hRead : Manifest.deserialize value = some manifest)
    (hEpoch : manifest.keyEpoch.toNat ≤ maxSafeInteger)
    (hNumbers : validateJsonNumberProfile manifest.serialize = .ok ()) :
    validateJsonNumberProfile value = .ok () := by
  obtain ⟨field, hField, hFields⟩ := deserialize_eq_some.mp hRead
  have hItems : ∀ name item, field name = some item → item.ordered = true :=
    fun _ _ hItem => structFields_ordered hOrdered hField hItem
  have hKeyEpoch : NumbersIn (field "key_epoch") := by
    intro item hItem
    rw [readU64_eq_some.mp hFields.keyEpoch, Option.some.injEq] at hItem
    rw [← hItem, validateJsonNumberProfile, failIf_eq_ok, Bool.not_eq_false]
    exact numberInProfile_iff.mpr ⟨_, rfl, by simpa using hEpoch⟩
  have hIdentity : NumbersIn (field "identity") := by
    intro item hItem
    by_cases hNull : item = .null
    · rw [hNull]
      simp [validateJsonNumberProfile]
    · have hSome := (readIdentity_eq_some (by simpa [hItem] using hNull)
        (fun value hValue => hItems _ value hValue)).mp hFields.identity
      obtain ⟨identity, hIdentity, rfl⟩ := Option.map_eq_some_iff.mp (hSome.symm.trans hItem)
      exact identity_numbers hNumbers hIdentity
  refine structFields_numbers (by decide) hOrdered hField ?_
  simp only [fields, List.forall_mem_cons]
  exact ⟨readString_numbers hFields.tfwsVersion, readString_numbers hFields.subject,
    readString_numbers hFields.environment,
    readStruct_numbers Operator.readsNumbers (hItems _) hFields.operator, hKeyEpoch,
    readList_numbers KeyDescriptor.readsNumbers (hItems _) hFields.keys,
    readStruct_numbers SignaturePolicy.readsNumbers (hItems _) hFields.signaturePolicy,
    readStruct_numbers Capabilities.readsNumbers (hItems _) hFields.capabilities, hIdentity,
    readList_numbers Artifact.readsNumbers (hItems _) hFields.artifacts,
    readString_numbers hFields.updatedAt, readOptionString_numbers hFields.expiresAt, by simp⟩

end Tfws
