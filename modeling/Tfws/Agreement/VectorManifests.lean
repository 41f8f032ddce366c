import Tfws.Agreement.Demands
import Tfws.Core.CborManifest
import Tfws.Agreement.Envelope
import Tfws.Vectors.Mutations

/-! The manifests of the vector generator as `tfws-core` reads them: a
dictionary and an object with the same encoding, and what an assignment in one
of them is in the other. -/
namespace Tfws.Vectors

open SerdeJson Fallible Cbor Sorting

variable {crates : Crates} {dict manifest renamed : Dict} {entries : List (String × Value)}
  {name : String} {item old : Item} {value : Value} {payload : Bytes}

/-- The value under a name replaced, where the entry has the name. -/
def replaceField (name : String) (item : Item) (entry : Item × Item) : Item × Item :=
  if equal entry.1 (.text name) then (entry.1, item) else entry

theorem replaceField_fst (entry : Item × Item) : (replaceField name item entry).1 = entry.1 := by
  unfold replaceField
  split_ifs <;> rfl

/-- An assignment under a name that is there replaces the value and keeps the
order. -/
theorem setItem_of_mem (hDistinct : dict.Pairwise KeysDiffer)
    (hMem : (Item.text name, old) ∈ dict) :
    setItem (.text name) item dict = dict.map (replaceField name item) := by
  induction dict with
  | nil => cases hMem
  | cons other rest ih =>
      obtain ⟨here, value⟩ := other
      obtain ⟨hHere, hRest⟩ := List.pairwise_cons.mp hDistinct
      rw [setItem, List.map_cons]
      split_ifs with hKey
      · obtain rfl := equal_text.mp hKey
        have hOthers : rest.map (replaceField name item) = rest := by
          apply (List.map_congr_left fun entry hEntry => ?_).trans (List.map_id rest)
          rw [replaceField, (hHere entry hEntry).2]
          rfl
        rw [hOthers, replaceField, if_pos hKey]
      · obtain hSame | hIn := List.mem_cons.mp hMem
        · exact absurd (equal_text.mpr (Prod.mk.inj hSame).1.symm) hKey
        · rw [ih hRest hIn, replaceField, if_neg hKey]

/-- Sorting does not look at the values, and so an assignment may come before it or
after. -/
theorem sortBy_map {f : Item × Item → Item × Item} (hFst : ∀ entry, (f entry).1 = entry.1)
    (fields : Dict) : sortBy lengthFirst (fun entry => entry.1.encode) (fields.map f) =
      (sortBy lengthFirst (fun entry => entry.1.encode) fields).map f := by
  rw [sortBy, sortBy, ← List.map_mergeSort]
  intro first _ second _
  rw [hFst, hFst]

/-- The canonical form of a dictionary after an assignment is that of before, with the
value replaced. -/
theorem sortedDict_setItem (h : WellFormed (.map dict)) (hItem : WellFormed item)
    (hFound : lookup (.text name) dict = some old) :
    sortedDict (setItem (.text name) item dict) =
      (sortedDict dict).map (replaceField name (sorted item)) := by
  have hSet : WellFormed (.map (setItem (.text name) item dict)) := h.setItem rfl hItem
  rw [sortedDict, sortedDict, sortedEntries_hashed hSet.hashed, sortedEntries_hashed h.hashed,
    setItem_of_mem h.distinct (lookup_text hFound), ← sortBy_map replaceField_fst, List.map_map,
    List.map_map]
  congr 1
  apply List.map_congr_left
  intro entry _
  simp only [Function.comp_apply, replaceField]
  split_ifs <;> rfl

theorem insert_of_mem (hSorted : SortedMap.Sorted entries) {found : Value}
    (hMem : (name, found) ∈ entries) : SortedMap.insert name value entries =
      entries.map fun entry => if entry.1 = name then (entry.1, value) else entry := by
  induction entries with
  | nil => cases hMem
  | cons other rest ih =>
      obtain ⟨here, old⟩ := other
      obtain ⟨hHere, hRest⟩ := List.pairwise_cons.mp hSorted
      rw [SortedMap.insert, List.map_cons]
      obtain hSame | hIn := List.mem_cons.mp hMem
      · obtain ⟨rfl, -⟩ := Prod.mk.inj hSame
        have hOthers : rest.map (fun entry => if entry.1 = name then (entry.1, value) else entry) =
            rest := by
          apply (List.map_congr_left fun entry hEntry => ?_).trans (List.map_id rest)
          rw [if_neg (hHere entry hEntry).ne']
          rfl
        rw [if_neg (lt_irrefl _), if_pos rfl, if_pos rfl, hOthers]
      · have hLt : here < name := hHere _ hIn
        rw [if_neg hLt.not_gt, if_neg hLt.ne', if_neg hLt.ne, ih hRest hIn]

theorem replaceField_fieldItem (entry : String × Value) :
    replaceField name value.item (Value.fieldItem entry) =
      Value.fieldItem (if entry.1 = name then (entry.1, value) else entry) := by
  by_cases hName : entry.1 = name
  · have hKey : equal (Value.fieldItem entry).1 (.text name) = true :=
      equal_text.mpr (congrArg Item.text hName)
    rw [replaceField, if_pos hKey, if_pos hName]
    rfl
  · have hKey : ¬equal (Value.fieldItem entry).1 (.text name) = true := fun hSame =>
      hName (Item.text.inj (equal_text.mp hSame))
    rw [replaceField, if_neg hKey, if_neg hName]

/-- The fields of an object after an assignment are those of before, with the value
replaced. -/
theorem sortFields_insert (hSorted : SortedMap.Sorted entries) {found : Value}
    (hFound : SortedMap.lookup name entries = some found) :
    (sortFields (SortedMap.insert name value entries)).map Value.fieldItem =
      ((sortFields entries).map Value.fieldItem).map (replaceField name value.item) := by
  rw [insert_of_mem hSorted (SortedMap.mem_of_lookup hFound), sortFields, sortFields, ←
    List.map_mergeSort, List.map_map, List.map_map]
  · congr 1
    funext entry
    exact (replaceField_fieldItem entry).symm
  · intro first _ second _
    split_ifs <;> rfl

/-- The dictionary and the object have the same encoding, once the dictionary is
sorted. -/
structure Mirrors (dict : Dict) (entries : List (String × Value)) : Prop where
  wellFormed : WellFormed (.map dict)
  ordered : SortedMap.Sorted entries
  same : sortedDict dict = (sortFields entries).map Value.fieldItem

theorem Mirrors.item_eq (h : Mirrors dict entries) :
    sorted (.map dict) = (Value.object entries).item := by
  rw [sorted_map, item_object_eq, h.same]

/-- A dictionary with the encoding of a value mirrors an object. -/
theorem mirrors_of_item (hDict : WellFormed (.map dict)) (hOrdered : value.ordered = true)
    (h : sorted (.map dict) = value.item) : ∃ entries, value = .object entries ∧
      Mirrors dict entries := by
  rw [sorted_map] at h
  cases value with
  | object entries =>
      rw [item_object_eq] at h
      exact ⟨entries, rfl, hDict, (Value.ordered_object.mp hOrdered).1, Item.map.inj h⟩
  | null | bool _ | string _ | array _ => simp only [Value.item, reduceCtorEq] at h
  | number number => cases number <;> cases h

/-- The same is found under a name, on both sides, up to the order within what is
found. -/
theorem Mirrors.lookup_eq (h : Mirrors dict entries) (name : String) :
    (lookup (.text name) dict).map sorted = (SortedMap.lookup name entries).map Value.item := by
  rw [← lookup_sortedDict h.wellFormed]
  apply Option.ext
  intro item
  rw [lookup_eq_some_iff (sortedDict_distinct h.wellFormed), h.same]
  simp only [List.mem_map, Value.fieldItem, Prod.mk.injEq, Item.text.injEq, Prod.exists,
    Option.map_eq_some_iff]
  constructor
  · intro hMem
    obtain ⟨key, value, hIn, rfl, rfl⟩ := hMem
    exact ⟨value, h.ordered.lookup_of_mem ((sortFields_perm entries).mem_iff.mp hIn), rfl⟩
  · intro hFound
    obtain ⟨value, hLookup, rfl⟩ := hFound
    exact ⟨name, value, (sortFields_perm entries).mem_iff.mpr (SortedMap.mem_of_lookup hLookup), rfl,
      rfl⟩

theorem Mirrors.exists_value (h : Mirrors dict entries) (hFound : lookup (.text name) dict =
    some item) : ∃ value, SortedMap.lookup name entries = some value ∧ sorted item = value.item := by
  have hBoth := h.lookup_eq name
  rw [hFound, Option.map_some] at hBoth
  obtain ⟨value, hValue, hItem⟩ := Option.map_eq_some_iff.mp hBoth.symm
  exact ⟨value, hValue, hItem.symm⟩

/-- An assignment in the dictionary is one in the object, if it puts the same value
under a name that is there. -/
theorem Mirrors.set (h : Mirrors dict entries) (hItem : WellFormed item)
    (hValue : sorted item = value.item) (hFound : lookup (.text name) dict = some old) :
    Mirrors (setItem (.text name) item dict) (SortedMap.insert name value entries) := by
  obtain ⟨found, hOld, -⟩ := h.exists_value hFound
  constructor
  · exact h.wellFormed.setItem rfl hItem
  · exact h.ordered.insert name value
  · rw [sortedDict_setItem h.wellFormed hItem hFound, h.same, hValue, sortFields_insert h.ordered hOld]

section Limits

variable {limits : CborLimits} {depth : Nat} {found : Value}

theorem length_insert (hSorted : SortedMap.Sorted entries)
    (hFound : SortedMap.lookup name entries = some found) :
    (SortedMap.insert name value entries).length = entries.length := by
  rw [insert_of_mem hSorted (SortedMap.mem_of_lookup hFound), List.length_map]

/-- An object stays within the data model and the limits when a field of it is
replaced by a value that is. -/
theorem decoded_insert (h : Decoded limits depth (.object entries))
    (hFound : SortedMap.lookup name entries = some found)
    (hValue : Decoded limits (depth + 1) value) :
    Decoded limits depth (.object (SortedMap.insert name value entries)) := by
  obtain ⟨hAdmissible, hOrdered⟩ := h
  obtain ⟨hSorted, hFields⟩ := Value.ordered_object.mp hOrdered
  have hKeys := hAdmissible.key_length_le
  have hOld := hAdmissible.of_object
  constructor
  · cases hAdmissible with
    | object hShallow hShort _ _ =>
        apply Admissible.object hShallow
        · rwa [length_insert hSorted hFound]
        · intro entry hMem
          obtain rfl | hIn := SortedMap.mem_insert hMem
          · exact hKeys (name, found) (SortedMap.mem_of_lookup hFound)
          · exact hKeys entry hIn
        · intro entry hMem
          obtain rfl | hIn := SortedMap.mem_insert hMem
          · exact hValue.1
          · exact hOld entry hIn
  · apply Value.ordered_object.mpr ⟨hSorted.insert name value, fun entry hMem => ?_⟩
    obtain rfl | hIn := SortedMap.mem_insert hMem
    · exact hValue.2
    · exact hFields entry hIn

theorem decoded_string {text : String} (hDepth : depth ≤ limits.maxDepth.toNat)
    (hText : (Utf8.encode text).length ≤ limits.maxStringBytes.toNat) :
    Decoded limits depth (.string text) :=
  ⟨.string hDepth hText, by simp only [Value.ordered]⟩

/-- Whatever stands in the place of a string may be another short one. -/
theorem decoded_insert_string (h : Decoded limits depth (.object entries)) {text new : String}
    (hFound : SortedMap.lookup name entries = some (.string text))
    (hNew : (Utf8.encode new).length ≤ limits.maxStringBytes.toNat) :
    Decoded limits depth (.object (SortedMap.insert name (.string new) entries)) :=
  decoded_insert h hFound (decoded_string (h.field hFound).1.shallow hNew)

end Limits

theorem known_insert {names : List String} {found : Value}
    (hFound : SortedMap.lookup name entries = some found)
    (h : ∀ entry ∈ entries, entry.1 ∈ names) :
    ∀ entry ∈ SortedMap.insert name value entries, entry.1 ∈ names := by
  intro entry hMem
  obtain rfl | hIn := SortedMap.mem_insert hMem
  · exact h (name, found) (SortedMap.mem_of_lookup hFound)
  · exact h entry hIn

theorem lookup_insert_self : SortedMap.lookup name (SortedMap.insert name value entries) =
    some value := by
  rw [SortedMap.lookup_insert, if_pos rfl]

theorem lookup_insert_of_ne {other : String} (h : name ≠ other) :
    SortedMap.lookup other (SortedMap.insert name value entries) =
      SortedMap.lookup other entries := by
  rw [SortedMap.lookup_insert, if_neg h]

/-- An operator with another name is read with that name, and its jurisdiction
stays. -/
theorem deserialize_operator {operator : Operator}
    (h : Operator.deserialize (.object entries) = some operator) (new : String) :
    SortedMap.lookup "name" entries = some (.string operator.name) ∧
      Operator.deserialize (.object (SortedMap.insert "name" (.string new) entries)) =
        some { operator with name := new } := by
  rw [Operator.deserialize, Option.bind_eq_bind, structFields_object_bind] at h ⊢
  simp only [Option.bind_eq_bind, Option.bind_eq_some_iff, readString_eq_some,
    Option.some.injEq] at h ⊢
  obtain ⟨hKnown, text, hText, jurisdiction, hJurisdiction, rfl⟩ := h
  refine ⟨hText, known_insert hText hKnown, new, lookup_insert_self, jurisdiction, ?_, rfl⟩
  rwa [lookup_insert_of_ne (by decide)]

/-- The fields of the object are those of the descriptor, and there are no others. -/
structure KeyFields (entries : List (String × Value)) (key : KeyDescriptor) : Prop where
  known : ∀ entry ∈ entries, entry.1 ∈ KeyDescriptor.fields
  algorithm : SortedMap.lookup "algorithm" entries = stringField key.algorithm
  keyId : SortedMap.lookup "key_id" entries = stringField key.keyId
  publicKeyUri : SortedMap.lookup "public_key_uri" entries = stringField key.publicKeyUri
  publicKeySha256 : SortedMap.lookup "public_key_sha256" entries = stringField key.publicKeySha256
  status : SortedMap.lookup "status" entries = stringField key.status
  usage : SortedMap.lookup "usage" entries = some (stringsValue key.usage)

/-- A descriptor is read from an object exactly if its six fields are there, and no
others. -/
theorem deserialize_key {key : KeyDescriptor} :
    KeyDescriptor.deserialize (.object entries) = some key ↔ KeyFields entries key := by
  rw [KeyDescriptor.deserialize, Option.bind_eq_bind, structFields_object_bind]
  simp only [Option.bind_eq_bind, Option.bind_eq_some_iff, readString_eq_some, readStrings_eq_some,
    Option.some.injEq]
  constructor
  · intro h
    obtain ⟨hKnown, algorithm, hAlgorithm, keyId, hKeyId, uri, hUri, sha256, hSha256, status, hStatus,
      usage, hUsage, rfl⟩ := h
    exact ⟨hKnown, hAlgorithm, hKeyId, hUri, hSha256, hStatus, hUsage⟩
  · intro h
    exact ⟨h.known, _, h.algorithm, _, h.keyId, _, h.publicKeyUri, _, h.publicKeySha256, _, h.status,
      _, h.usage, rfl⟩

theorem KeyFields.setUri {key : KeyDescriptor} (h : KeyFields entries key) (new : String) :
    KeyFields (SortedMap.insert "public_key_uri" (.string new) entries)
      { key with publicKeyUri := new } := by
  constructor
  case known => exact known_insert h.publicKeyUri h.known
  case publicKeyUri => exact lookup_insert_self
  all_goals rw [lookup_insert_of_ne (by decide)]
  · exact h.algorithm
  · exact h.keyId
  · exact h.publicKeySha256
  · exact h.status
  · exact h.usage

theorem KeyFields.setSha256 {key : KeyDescriptor} (h : KeyFields entries key) (new : String) :
    KeyFields (SortedMap.insert "public_key_sha256" (.string new) entries)
      { key with publicKeySha256 := new } := by
  constructor
  case known => exact known_insert h.publicKeySha256 h.known
  case publicKeySha256 => exact lookup_insert_self
  all_goals rw [lookup_insert_of_ne (by decide)]
  · exact h.algorithm
  · exact h.keyId
  · exact h.publicKeyUri
  · exact h.status
  · exact h.usage

theorem structFields_insert {names : List String} {found : Value}
    (hFound : SortedMap.lookup name entries = some found)
    (hKnown : ∀ entry ∈ entries, entry.1 ∈ names) :
    structFields names (.object (SortedMap.insert name value entries)) =
      some fun other => SortedMap.lookup other (SortedMap.insert name value entries) :=
  structFields_object.mpr ⟨known_insert hFound hKnown, rfl⟩

/-- A manifest with another operator is read with that operator, and is otherwise the
same. -/
theorem deserialize_withOperator {m : Manifest} {operator : Operator} {found : Value}
    (h : Manifest.deserialize (.object entries) = some m)
    (hFound : SortedMap.lookup "operator" entries = some found)
    (hOperator : Operator.deserialize value = some operator) :
    Manifest.deserialize (.object (SortedMap.insert "operator" value entries)) =
      some { m with operator := operator } := by
  obtain ⟨field, hField, hRead⟩ := Manifest.deserialize_eq_some.mp h
  obtain ⟨hKnown, rfl⟩ := structFields_object.mp hField
  apply Manifest.deserialize_eq_some.mpr
  refine ⟨_, structFields_insert hFound hKnown, ?_⟩
  constructor
  case operator => rwa [lookup_insert_self, readStruct]
  all_goals rw [lookup_insert_of_ne (by decide)]
  · exact hRead.tfwsVersion
  · exact hRead.subject
  · exact hRead.environment
  · exact hRead.keyEpoch
  · exact hRead.keys
  · exact hRead.signaturePolicy
  · exact hRead.capabilities
  · exact hRead.identity
  · exact hRead.artifacts
  · exact hRead.updatedAt
  · exact hRead.expiresAt

/-- A manifest with other keys is read with those keys, and is otherwise the same. -/
theorem deserialize_withKeys {m : Manifest} {keys : List KeyDescriptor} {items : List Value}
    {found : Value} (h : Manifest.deserialize (.object entries) = some m)
    (hFound : SortedMap.lookup "keys" entries = some found)
    (hKeys : items.mapM KeyDescriptor.deserialize = some keys) :
    Manifest.deserialize (.object (SortedMap.insert "keys" (.array items) entries)) =
      some { m with keys := keys } := by
  obtain ⟨field, hField, hRead⟩ := Manifest.deserialize_eq_some.mp h
  obtain ⟨hKnown, rfl⟩ := structFields_object.mp hField
  apply Manifest.deserialize_eq_some.mpr
  refine ⟨_, structFields_insert hFound hKnown, ?_⟩
  constructor
  case keys => rwa [lookup_insert_self, readList]
  all_goals rw [lookup_insert_of_ne (by decide)]
  · exact hRead.tfwsVersion
  · exact hRead.subject
  · exact hRead.environment
  · exact hRead.operator
  · exact hRead.keyEpoch
  · exact hRead.signaturePolicy
  · exact hRead.capabilities
  · exact hRead.identity
  · exact hRead.artifacts
  · exact hRead.updatedAt
  · exact hRead.expiresAt

/-- The dictionary has an encoding within the limits of `tfws-core`, apart from
its length, and it is read as the manifest. -/
def ReadAs (dict : Dict) (m : Manifest) : Prop :=
  ∃ entries, Mirrors dict entries ∧ Decoded CborLimits.default 0 (.object entries) ∧
    Manifest.deserialize (.object entries) = some m

/-- A dictionary whose encoding decodes to a manifest is read as that manifest. -/
theorem readAs_of_decode {m : Manifest} (hDict : WellFormed (.map dict))
    (hEncoded : cborEncode (.map dict) = .ok payload)
    (h : decodeManifestCbor crates payload .default = .ok m) :
    ReadAs dict m ∧ m.Lawful crates := by
  obtain ⟨value, hEncodes, hRead, hLawful⟩ := decodeManifestCbor_eq_ok.mp h
  obtain ⟨hEncodable, hPayload⟩ := cborEncode_eq_ok.mp hEncoded
  obtain ⟨-, hAdmissible, hOctets⟩ := encodes_iff.mp hEncodes
  have hSorted := (readable_sorted hDict hEncodable).encodable
  have hItem := hSorted.encode_inj (hAdmissible.deterministic value.ordered).1
    (hPayload.symm.trans hOctets)
  obtain ⟨entries, hValue, hMirrors⟩ := mirrors_of_item hDict value.ordered hItem
  have hDecoded : Decoded CborLimits.default 0 value.value := ⟨hAdmissible, value.ordered⟩
  rw [hValue] at hDecoded hRead
  exact ⟨⟨entries, hMirrors, hDecoded, hRead⟩, hLawful⟩

variable (crates) in
/-- What is encoded of such a dictionary is left to the policy. -/
theorem ReadAs.decodeManifestCbor_eq {m : Manifest} (h : ReadAs dict m)
    (hEncoded : cborEncode (.map dict) = .ok payload)
    (hShort : payload.length ≤ CborLimits.default.maxManifestBytes.toNat) :
    ∃ value, decodeManifestCbor crates payload .default = manifestOfValue crates value ∧
      Manifest.deserialize value = some m ∧
      ∃ ordered : OrderedValue, ordered.value = value ∧ Encodes .default ordered payload := by
  obtain ⟨entries, hMirrors, hDecoded, hRead⟩ := h
  obtain ⟨-, hPayload⟩ := cborEncode_eq_ok.mp hEncoded
  rw [hMirrors.item_eq] at hPayload
  have hEncodes : Encodes .default ⟨.object entries, hDecoded.2⟩ payload :=
    encodes_iff.mpr ⟨hShort, hDecoded.1, hPayload⟩
  exact ⟨_, hEncodes.decodeManifestCbor_eq, hRead, _, rfl, hEncodes⟩

/-- If the policy admits the manifest, its encoding is decoded to it. -/
theorem ReadAs.accepted {m : Manifest} (h : ReadAs dict m) (hLawful : m.Lawful crates)
    (hEncoded : cborEncode (.map dict) = .ok payload)
    (hShort : payload.length ≤ CborLimits.default.maxManifestBytes.toNat) :
    decodeManifestCbor crates payload .default = .ok m := by
  obtain ⟨value, hDecode, hRead, -⟩ := h.decodeManifestCbor_eq crates hEncoded hShort
  rw [hDecode]
  exact manifestOfValue_eq_ok.mpr ⟨hRead, hLawful⟩

variable (crates) in
/-- If it does not, the encoding is refused as a matter of policy. -/
theorem ReadAs.refused {m : Manifest} (h : ReadAs dict m) (hInvalid : ¬m.Valid crates)
    (hEncoded : cborEncode (.map dict) = .ok payload)
    (hShort : payload.length ≤ CborLimits.default.maxManifestBytes.toNat) :
    ∃ error, decodeManifestCbor crates payload .default = .error error ∧
      error.category = "manifest_policy_invalid" := by
  obtain ⟨value, hDecode, hRead, -⟩ := h.decodeManifestCbor_eq crates hEncoded hShort
  rw [hDecode, manifestOfValue, (crates.serde.fromValue_eq_ok _ _).mpr hRead, mapError_ok, ok_bind,
    requireIdentityObject]
  cases hPolicy : m.validate crates with
  | ok => exact absurd (Manifest.validate_eq_ok.mp hPolicy) hInvalid
  | error error =>
      unfold failIf
      split_ifs
      · exact ⟨_, rfl, rfl⟩
      · exact ⟨_, rfl, rfl⟩

theorem ReadAs.identity {m : Manifest} (h : ReadAs dict m) :
    ∀ identity ∈ m.identity, validateJsonNumberProfile identity.value = .ok () := by
  obtain ⟨entries, -, hDecoded, hRead⟩ := h
  obtain ⟨field, hField, hManifest⟩ := Manifest.deserialize_eq_some.mp hRead
  obtain ⟨-, rfl⟩ := structFields_object.mp hField
  intro identity hIdentity
  have hOrdered : ∀ value, SortedMap.lookup "identity" entries = some value →
      value.ordered = true := fun value hValue => (hDecoded.field hValue).2
  have hValue := (readIdentity_eq_some (hDecoded.field_ne_null "identity") hOrdered).mp
    hManifest.identity
  rw [hIdentity, Option.map_some] at hValue
  exact validateJsonNumberProfile_of_admissible (hDecoded.field hValue).1

/-- The manifest with another name for its operator, everything else as it was. -/
def withOperatorName (m : Manifest) (name : String) : Manifest :=
  { m with operator := { m.operator with name := name } }

/-- The renaming of the generator, said of the manifest that `tfws-core` reads. -/
theorem ReadAs.rename {m : Manifest} (h : ReadAs dict m) (hRenamed : renameOperator dict =
    .ok renamed) : ReadAs renamed (withOperatorName m "Example Organizatioo") := by
  obtain ⟨operator, hOperator, rfl⟩ := renameOperator_eq_ok.mp hRenamed
  obtain ⟨entries, hMirrors, hDecoded, hRead⟩ := h
  obtain ⟨field, hField, hManifest⟩ := Manifest.deserialize_eq_some.mp hRead
  obtain ⟨-, rfl⟩ := structFields_object.mp hField
  obtain ⟨value, hValue, hItem⟩ := hMirrors.exists_value hOperator
  have hFieldDecoded := hDecoded.field hValue
  have hWell := hMirrors.wellFormed.lookup hOperator
  obtain ⟨fields, rfl, hFields⟩ := mirrors_of_item hWell hFieldDecoded.2 hItem
  have hReadOperator := hManifest.operator
  rw [hValue, readStruct] at hReadOperator
  obtain ⟨hName, hNew⟩ := deserialize_operator hReadOperator "Example Organizatioo"
  obtain ⟨old, hOld⟩ : ∃ old, lookup (.text "name") operator = some old := by
    have hBoth := hFields.lookup_eq "name"
    rw [hName, Option.map_some] at hBoth
    obtain ⟨old, hOld, -⟩ := Option.map_eq_some_iff.mp hBoth
    exact ⟨old, hOld⟩
  have hSet : Mirrors (setItem (.text "name") (.text "Example Organizatioo") operator)
      (SortedMap.insert "name" (.string "Example Organizatioo") fields) :=
    hFields.set .text (by rw [Vectors.sorted, Value.item]) hOld
  refine ⟨_, hMirrors.set (hWell.setItem rfl .text) hSet.item_eq hOperator, ?_,
    deserialize_withOperator hRead hValue hNew⟩
  exact decoded_insert hDecoded hValue (decoded_insert_string hFieldDecoded hName (by decide))

/-- The policy has nothing against the other name, so that only the signatures can
show it. -/
theorem lawful_rename {m : Manifest} (h : ReadAs dict m) (hLawful : m.Lawful crates) :
    (withOperatorName m "Example Organizatioo").Lawful crates where
  valid := by
    have hValid := Manifest.validate_eq_ok.mp hLawful.valid
    exact Manifest.validate_eq_ok.mpr
      { hValid with
        operatorName := show trimIsEmpty "Example Organizatioo" = false by decide
        numbers := Manifest.numbers_of hValid.keyEpoch.2 h.identity }
  identity := hLawful.identity

/-- `tfws-core` reads the dictionary as the descriptor, through an object that it
mirrors. -/
structure KeyReadAs (dict : Dict) (key : KeyDescriptor) (fields : List (String × Value)) : Prop where
  mirrors : Mirrors dict fields
  decoded : Decoded CborLimits.default 2 (.object fields)
  read : KeyFields fields key

theorem KeyReadAs.lookup_text {key : KeyDescriptor} {fields : List (String × Value)}
    (h : KeyReadAs dict key fields) {text : String}
    (hField : SortedMap.lookup name fields = stringField text) :
    lookup (.text name) dict = some (.text text) := by
  have hBoth := h.mirrors.lookup_eq name
  rw [hField, stringField, Option.map_some] at hBoth
  obtain ⟨item, hItem, hText⟩ := Option.map_eq_some_iff.mp hBoth
  rw [hItem, sorted_eq_text hText]

/-- Another text in a field that is there is read as the descriptor with that text. -/
theorem KeyReadAs.set {key changed : KeyDescriptor} {fields : List (String × Value)}
    (h : KeyReadAs dict key fields) {text new : String}
    (hField : SortedMap.lookup name fields = stringField text)
    (hNew : (Utf8.encode new).length ≤ CborLimits.default.maxStringBytes.toNat)
    (hChanged : KeyFields (SortedMap.insert name (.string new) fields) changed) :
    KeyReadAs (setItem (.text name) (.text new) dict) changed
      (SortedMap.insert name (.string new) fields) where
  mirrors := h.mirrors.set .text (by rw [Vectors.sorted, Value.item]) (h.lookup_text hField)
  decoded := decoded_insert_string h.decoded hField hNew
  read := hChanged

/-- The two descriptors of a dictionary are the two keys of the manifest, and another
one in the first place is the first key. -/
theorem ReadAs.keys {m : Manifest} {first second : Dict} (h : ReadAs dict m)
    (hFramed : Framed dict first second) : ∃ firstKey secondKey fields secondFields,
      m.keys = [firstKey, secondKey] ∧ KeyReadAs first firstKey fields ∧
      KeyReadAs second secondKey secondFields ∧ ∀ other key others, KeyReadAs other key others →
        ReadAs (withFirst dict other second) { m with keys := [key, secondKey] } := by
  obtain ⟨entries, hMirrors, hDecoded, hRead⟩ := h
  obtain ⟨field, hFieldsOf, hManifest⟩ := Manifest.deserialize_eq_some.mp hRead
  obtain ⟨-, rfl⟩ := structFields_object.mp hFieldsOf
  obtain ⟨value, hValue, hItem⟩ := hMirrors.exists_value hFramed.keys
  have hArray := hDecoded.field hValue
  obtain ⟨hFirstWell, hSecondWell⟩ := hFramed.wellFormed_keys hMirrors.wellFormed
  have hReadKeys := hManifest.keys
  rw [hValue] at hReadKeys
  obtain ⟨items, rfl⟩ : ∃ items, value = .array items := by
    cases value with
    | array items => exact ⟨items, rfl⟩
    | null | bool _ | number _ | string _ | object _ => cases hReadKeys
  rw [Value.item_array, Vectors.sorted, sortedMembers_eq_map, Item.array.injEq] at hItem
  obtain ⟨left, rest, rfl, hLeft, hRest⟩ := List.map_eq_cons_iff.mp hItem.symm
  obtain ⟨right, tail, rfl, hRight, hTail⟩ := List.map_eq_cons_iff.mp hRest
  obtain rfl := List.map_eq_nil_iff.mp hTail
  have hLeftDecoded := hArray.item left (by simp)
  have hRightDecoded := hArray.item right (by simp)
  obtain ⟨fields, rfl, hFirst⟩ := mirrors_of_item hFirstWell hLeftDecoded.2 hLeft.symm
  obtain ⟨secondFields, rfl, hSecond⟩ := mirrors_of_item hSecondWell hRightDecoded.2 hRight.symm
  rw [readList, List.mapM_cons, List.mapM_cons, List.mapM_nil] at hReadKeys
  simp only [Option.pure_def, Option.bind_eq_bind, Option.bind_some, Option.bind_eq_some_iff,
    Option.some.injEq] at hReadKeys
  obtain ⟨firstKey, hFirstKey, _, ⟨secondKey, hSecondKey, rfl⟩, hKeys⟩ := hReadKeys
  refine ⟨firstKey, secondKey, fields, secondFields, hKeys.symm,
    ⟨hFirst, hLeftDecoded, deserialize_key.mp hFirstKey⟩,
    ⟨hSecond, hRightDecoded, deserialize_key.mp hSecondKey⟩, ?_⟩
  intro other key others hOther
  have hItems : sorted (.array [.map other, .map second]) =
      (Value.array [.object others, .object secondFields]).item := by
    rw [Value.item_array, Vectors.sorted, sortedMembers_eq_map, List.map_cons, List.map_cons,
      List.map_nil, hOther.mirrors.item_eq, ← hRight]
    rfl
  have hWell : WellFormed (.array [.map other, .map second]) :=
    .array (List.forall_mem_cons.mpr ⟨hOther.mirrors.wellFormed,
      List.forall_mem_singleton.mpr hSecondWell⟩)
  have hNewArray : Decoded CborLimits.default 1
      (.array [.object others, .object secondFields]) := by
    constructor
    · have hTwo : 2 ≤ CborLimits.default.maxArrayItems.toNat := by decide
      refine Admissible.array hArray.1.shallow (by exact hTwo) ?_
      exact List.forall_mem_cons.mpr ⟨hOther.decoded.1,
        List.forall_mem_singleton.mpr hRightDecoded.1⟩
    · apply Value.ordered_array.mpr
      exact List.forall_mem_cons.mpr ⟨hOther.decoded.2,
        List.forall_mem_singleton.mpr hRightDecoded.2⟩
  refine ⟨_, hMirrors.set hWell hItems hFramed.keys, decoded_insert hDecoded hValue hNewArray,
    deserialize_withKeys hRead hValue ?_⟩
  rw [List.mapM_cons, List.mapM_cons, List.mapM_nil, deserialize_key.mpr hOther.read, hSecondKey]
  rfl

/-- A descriptor that `tfws-core` reads has its six fields and no others. -/
theorem KeyReadAs.length_eq {key : KeyDescriptor} {fields : List (String × Value)}
    (h : KeyReadAs dict key fields) : dict.length = 6 := by
  have hNodup : (fields.map Prod.fst).Nodup :=
    List.pairwise_map.mpr (h.mirrors.ordered.imp fun hLt => ne_of_lt hLt)
  have hNames : ∀ name ∈ KeyDescriptor.fields, name ∈ fields.map Prod.fst := by
    have hFound {name : String} {value : Value}
        (hLookup : SortedMap.lookup name fields = some value) : name ∈ fields.map Prod.fst :=
      List.mem_map_of_mem (SortedMap.mem_of_lookup hLookup)
    simp only [KeyDescriptor.fields, List.forall_mem_cons]
    exact ⟨hFound h.read.algorithm, hFound h.read.keyId, hFound h.read.publicKeyUri,
      hFound h.read.publicKeySha256, hFound h.read.status, hFound h.read.usage,
      List.forall_mem_nil _⟩
  have hPerm : (fields.map Prod.fst).Perm KeyDescriptor.fields := by
    apply (List.perm_ext_iff_of_nodup hNodup (by decide)).mpr
    intro name
    constructor
    · intro hMem
      obtain ⟨entry, hEntry, rfl⟩ := List.mem_map.mp hMem
      exact h.read.known entry hEntry
    · exact hNames name
  have hLength : (sortedDict dict).length = fields.length := by
    rw [h.mirrors.same, List.length_map, (sortFields_perm fields).length_eq]
  rw [← length_sortedDict h.mirrors.wellFormed, hLength, ← List.length_map Prod.fst,
    hPerm.length_eq]
  rfl

/-- Such a descriptor is the expected one when its digest is, for the policy has
settled the rest. -/
theorem KeyReadAs.bound_iff {profile : Profile} {key : KeyDescriptor}
    {fields : List (String × Value)} (h : KeyReadAs dict key fields)
    (hEntry : KeyEntry profile.name dict) :
    Bound profile dict ↔ key.publicKeySha256 = expectedSha256 profile.name := by
  rw [hEntry.bound_iff, h.lookup_text h.read.publicKeySha256, Option.some.injEq, Item.text.injEq]
  exact and_iff_right h.length_eq

/-- The verifiers ask the same of the descriptors: the keys of the fixture for the one
are those bound for the other. -/
theorem ReadAs.fixtureKeys_iff {m : Manifest} {first second : Dict} (h : ReadAs dict m)
    (hAdmitted : Admitted dict first second) : FixtureKeys m ↔ KeysBound dict := by
  obtain ⟨firstKey, secondKey, fields, secondFields, hKeys, hFirst, hSecond, -⟩ :=
    h.keys hAdmitted.framed
  have hFirstEntry : KeyEntry ed25519.name first := hAdmitted.first
  have hSecondEntry : KeyEntry mlDsa65.name second := hAdmitted.second
  have hText {entry : Dict} {key : KeyDescriptor} {others : List (String × Value)}
      (hRead : KeyReadAs entry key others) {name text field : String}
      (hEntry : lookup (.text name) entry = some (.text text))
      (hField : SortedMap.lookup name others = stringField field) : field = text := by
    have hSame := hRead.lookup_text hField
    rw [hEntry] at hSame
    exact (Item.text.inj (Option.some.inj hSame)).symm
  have hFirstName := hText hFirst hAdmitted.first.algorithm hFirst.read.algorithm
  have hFirstId := hText hFirst hAdmitted.first.keyId hFirst.read.keyId
  have hSecondName := hText hSecond hAdmitted.second.algorithm hSecond.read.algorithm
  have hSecondId := hText hSecond hAdmitted.second.keyId hSecond.read.keyId
  rw [hAdmitted.keysBound_iff, hFirst.bound_iff hFirstEntry, hSecond.bound_iff hSecondEntry,
    FixtureKeys, hKeys]
  constructor
  · intro hFixture
    obtain ⟨left, hLeft, hLeftName, -, hLeftSha⟩ := hFixture .ed25519
    obtain ⟨right, hRight, hRightName, -, hRightSha⟩ := hFixture .mlDsa65
    have hNames : "ed25519" ≠ "ml-dsa-65" := by decide
    simp only [List.mem_cons, List.not_mem_nil, or_false] at hLeft hRight
    obtain rfl : left = firstKey := hLeft.resolve_right fun hOther =>
      hNames (hLeftName.symm.trans (hOther ▸ hSecondName))
    obtain rfl : right = secondKey := hRight.resolve_left fun hOther =>
      hNames ((hOther ▸ hFirstName : right.algorithm = "ed25519").symm.trans hRightName)
    exact ⟨hLeftSha, hRightSha⟩
  · intro hBoth algorithm
    cases algorithm with
    | ed25519 => exact ⟨firstKey, by simp, hFirstName, hFirstId, hBoth.1⟩
    | mlDsa65 => exact ⟨secondKey, by simp, hSecondName, hSecondId, hBoth.2⟩

/-- The manifest with other keys in place of its own, everything else as it was. -/
def withKeys (m : Manifest) (keys : List KeyDescriptor) : Manifest := { m with keys := keys }

/-- The two fields of the first descriptor that negative vectors replace. -/
theorem ReadAs.setFirst {m : Manifest} {first second : Dict} (h : ReadAs dict m)
    (hFramed : Framed dict first second) : ∃ firstKey secondKey,
      m.keys = [firstKey, secondKey] ∧
      lookup (.text "algorithm") first = some (.text firstKey.algorithm) ∧
      lookup (.text "key_id") first = some (.text firstKey.keyId) ∧
      ∀ new, (Utf8.encode new).length ≤ CborLimits.default.maxStringBytes.toNat →
        ReadAs (withFirst dict (setItem (.text "public_key_uri") (.text new) first) second)
          (withKeys m [{ firstKey with publicKeyUri := new }, secondKey]) ∧
        ReadAs (withFirst dict (setItem (.text "public_key_sha256") (.text new) first) second)
          (withKeys m [{ firstKey with publicKeySha256 := new }, secondKey]) := by
  obtain ⟨firstKey, secondKey, fields, -, hKeys, hFirst, -, hOther⟩ := h.keys hFramed
  refine ⟨firstKey, secondKey, hKeys, hFirst.lookup_text hFirst.read.algorithm,
    hFirst.lookup_text hFirst.read.keyId, fun new hNew => ?_⟩
  have hRead := hFirst.read
  exact ⟨hOther _ _ _ (hFirst.set hRead.publicKeyUri hNew (hRead.setUri new)),
    hOther _ _ _ (hFirst.set hRead.publicKeySha256 hNew (hRead.setSha256 new))⟩

/-- A descriptor names the file of its own algorithm, and any other name is
refused. -/
theorem not_valid_uri {m : Manifest} {firstKey secondKey : KeyDescriptor} {new : String}
    (hNew : ∀ algorithm ∈ baselineAlgorithms, new ≠ "/.well-known/keys/" ++ algorithm ++ ".pem") :
    ¬(withKeys m [{ firstKey with publicKeyUri := new }, secondKey]).Valid crates := by
  intro hValid
  have hFirst := hValid.keys { firstKey with publicKeyUri := new } (by simp [withKeys])
  exact hNew _ hFirst.algorithm hFirst.publicKeyUri

/-- Another digest of the right form is no matter for the policy. -/
theorem lawful_sha256 {m : Manifest} {firstKey secondKey : KeyDescriptor} {new : String}
    (h : ReadAs dict m) (hLawful : m.Lawful crates) (hKeys : m.keys = [firstKey, secondKey])
    (hNew : isLowerHex new 64 = true) :
    (withKeys m [{ firstKey with publicKeySha256 := new }, secondKey]).Lawful crates where
  valid := by
    have hValid := Manifest.validate_eq_ok.mp hLawful.valid
    have hEach := hValid.keys
    have hNodup := hValid.keys_nodup
    rw [hKeys] at hEach hNodup
    obtain ⟨hFirst, hSecond⟩ := List.forall_mem_cons.mp hEach
    exact Manifest.validate_eq_ok.mpr
      { hValid with
        unbound := fun hNone => absurd hNone (List.cons_ne_nil _ _)
        bound := fun _ => rfl
        keys := List.forall_mem_cons.mpr ⟨{ hFirst with publicKeySha256 := hNew }, hSecond⟩
        keys_nodup := hNodup
        numbers := Manifest.numbers_of hValid.keyEpoch.2 h.identity }
  identity := hLawful.identity

end Tfws.Vectors
