import Tfws.Python.AbstractValue

/-! The structural stages of the two manifest decoders accept the same octets
and hand the same abstract value on. -/
namespace Tfws

open SerdeJson Fallible Cbor
open Python (Object Key Flags Canonical)

/-- The limits of the reference implementation, which has one for arrays and maps. -/
def pythonLimits : CborLimits where
  maxManifestBytes := .ofNat Python.maxCborBytes
  maxDepth := .ofNat Python.maxCborDepth
  maxMapPairs := .ofNat Python.maxCborCollectionItems
  maxArrayItems := .ofNat Python.maxCborCollectionItems
  maxStringBytes := .ofNat Python.maxCborStringBytes

@[simp] theorem pythonLimits_maxManifestBytes :
    pythonLimits.maxManifestBytes.toNat = Python.maxCborBytes := by decide

@[simp] theorem pythonLimits_maxDepth : pythonLimits.maxDepth.toNat = Python.maxCborDepth := by
  decide

@[simp] theorem pythonLimits_maxMapPairs :
    pythonLimits.maxMapPairs.toNat = Python.maxCborCollectionItems := by decide

@[simp] theorem pythonLimits_maxArrayItems :
    pythonLimits.maxArrayItems.toNat = Python.maxCborCollectionItems := by decide

@[simp] theorem pythonLimits_maxStringBytes :
    pythonLimits.maxStringBytes.toNat = Python.maxCborStringBytes := by decide

/-- The manifest data model among the objects: dictionaries have text keys. -/
inductive Plain : Object → Prop where
  | bool {value : Bool} : Plain (.bool value)
  | int {value : Int} (safe : value.natAbs ≤ Python.maxSafeInteger) : Plain (.int value)
  | str {text : String} : Plain (.str text)
  | list {items : List Object} (members : ∀ item ∈ items, Plain item) : Plain (.list items)
  | dict {entries : List (Key × Object)} (keys : ∀ entry ∈ entries, ∃ text, entry.1 = .str text)
      (values : ∀ entry ∈ entries, Plain entry.2) : Plain (.dict entries)

theorem validateManifestCborItems_eq_ok {path : String} {index : Nat} {items : List Object}
    (hItem : ∀ item ∈ items, ∀ path,
      Python.validateManifestCborValue path item = .ok () ↔ Plain item) :
    Python.validateManifestCborItems path index items = .ok () ↔ ∀ item ∈ items, Plain item := by
  induction items generalizing index with
  | nil => simp [Python.validateManifestCborItems]
  | cons item rest ih =>
      obtain ⟨hItem, hRest⟩ := List.forall_mem_cons.mp hItem
      rw [Python.validateManifestCborItems, then_eq_ok, hItem, ih hRest, List.forall_mem_cons]

theorem validateManifestCborEntries_eq_ok {path : String} {entries : List (Key × Object)}
    (hEntry : ∀ entry ∈ entries, ∀ path,
      Python.validateManifestCborValue path entry.2 = .ok () ↔ Plain entry.2) :
    Python.validateManifestCborEntries path entries = .ok () ↔
      (∀ entry ∈ entries, ∃ text, entry.1 = .str text) ∧ ∀ entry ∈ entries, Plain entry.2 := by
  induction entries with
  | nil => simp [Python.validateManifestCborEntries]
  | cons entry rest ih =>
      obtain ⟨key, object⟩ := entry
      obtain ⟨hObject, hRest⟩ := List.forall_mem_cons.mp hEntry
      cases key with
      | str text =>
          rw [Python.validateManifestCborEntries, then_eq_ok, hObject, ih hRest]
          simp only [List.forall_mem_cons, Key.str.injEq, exists_eq', true_and]
          tauto
      | int _ | bool _ | bytes _ => simp [Python.validateManifestCborEntries]

/-- The second pass lets exactly the plain objects through, at any path. -/
theorem validateManifestCborValue_eq_ok {path : String} {object : Object} :
    Python.validateManifestCborValue path object = .ok () ↔ Plain object := by
  induction object generalizing path with
  | bool value => simp [Python.validateManifestCborValue, Plain.bool]
  | str text => simp [Python.validateManifestCborValue, Plain.str]
  | int value =>
      rw [Python.validateManifestCborValue, failIf_eq_ok, not_lt]
      exact ⟨.int, by rintro ⟨⟩; assumption⟩
  | list items ih =>
      rw [Python.validateManifestCborValue,
        validateManifestCborItems_eq_ok fun item hMem path => ih item hMem]
      exact ⟨.list, by rintro ⟨⟩; assumption⟩
  | dict entries ih =>
      rw [Python.validateManifestCborValue,
        validateManifestCborEntries_eq_ok fun entry hMem path => ih entry hMem]
      exact ⟨fun h => .dict h.1 h.2, by rintro ⟨⟩; exact ⟨‹_›, ‹_›⟩⟩
  | none | float _ | bytes _ | tag _ _ _ =>
      simp only [Python.validateManifestCborValue, reduceCtorEq, false_iff]
      rintro ⟨⟩

/-- The object of an admissible value is plain: no octets, tags or nulls, and texts
for keys. -/
theorem plain_ofValue {limits : CborLimits} {depth : Nat} {value : Value}
    (h : Admissible limits depth value) : Plain (Object.ofValue value) := by
  induction h with
  | bool _ => rw [Object.ofValue]; exact .bool
  | @number _ number _ integer hInteger hSafe =>
      rw [Object.ofValue]
      cases number <;> cases hInteger <;> exact .int hSafe
  | string _ _ => rw [Object.ofValue]; exact .str
  | array _ _ _ ih =>
      rw [Object.ofValue_array]
      exact .list (List.forall_mem_map.mpr ih)
  | object _ _ _ _ ih =>
      rw [Object.ofValue_object]
      refine .dict (List.forall_mem_map.mpr fun field _ => ⟨field.1, rfl⟩)
        (List.forall_mem_map.mpr fun field hMem => ih field ((sortFields_perm _).mem_iff.mp hMem))

theorem canonical_ofNumber {flags : Flags} {depth : Nat} {number : Number} {integer : Int}
    (hDepth : depth ≤ Python.maxCborDepth) (hInteger : number.toInt = some integer)
    (hSafe : integer.natAbs ≤ maxSafeInteger) :
    Canonical flags depth (Object.ofNumber number) := by
  cases number <;> cases hInteger <;> exact .int hDepth hSafe

/-- The object of an admissible value is canonical, under any flags, since it needs
none of what they allow. -/
theorem canonical_ofValue {flags : Flags} {depth : Nat} {value : Value}
    (h : Admissible pythonLimits depth value) (hOrdered : value.ordered = true) :
    Canonical flags depth (Object.ofValue value) := by
  induction h with
  | bool hDepth =>
      rw [Object.ofValue]
      exact .bool (by simpa using hDepth)
  | number hDepth integer hInteger hSafe =>
      rw [Object.ofValue]
      exact canonical_ofNumber (by simpa using hDepth) hInteger hSafe
  | string hDepth hShort =>
      rw [Object.ofValue]
      exact .str (by simpa using hDepth) (by simpa using hShort)
  | array hDepth hShort _ ih =>
      rw [Object.ofValue_array]
      refine .list (by simpa using hDepth) (by simpa using hShort) ?_
      exact List.forall_mem_map.mpr fun item hMem =>
        ih item hMem (Value.ordered_array.mp hOrdered item hMem)
  | @object depth entries hDepth hShort hKeys hFields ih =>
      obtain ⟨hSorted, hOrdered⟩ := Value.ordered_object.mp hOrdered
      have hMem {entry : String × Value} : entry ∈ sortFields entries → entry ∈ entries :=
        (sortFields_perm entries).mem_iff.mp
      have hFits : ∀ entry ∈ entries, (Utf8.encode entry.1).length < 18446744073709551616 :=
        fun entry hEntry => (hKeys entry hEntry).trans_lt (limit_lt _)
      have hDistinct : (sortFields entries).Pairwise fun first second => first.1 ≠ second.1 :=
        ((sortFields_perm entries).pairwise_iff fun hNe => Ne.symm hNe).mpr
          (hSorted.imp fun hLt => ne_of_lt hLt)
      rw [Object.ofValue_object]
      refine .dict (by simpa using hDepth) ?_ ?_ ?_ ?_ ?_
      · rw [List.length_map, (sortFields_perm entries).length_eq]
        simpa using hShort
      · rw [List.pairwise_map]
        refine List.Pairwise.imp_of_mem (fun {first second} hFirst hSecond hLt => ?_)
          (sortFields_ascending hSorted hFits)
        exact (lengthFirst_encode_text (hFits _ (hMem hFirst)) (hFits _ (hMem hSecond))).trans hLt
      · rw [List.pairwise_map]
        exact hDistinct.imp fun hNe => by simpa [Object.ofField, Key.equal_str] using hNe
      · refine List.forall_mem_map.mpr fun entry hEntry => .str ?_ ?_
        · simpa using (hFields entry (hMem hEntry)).shallow
        · simpa using hKeys entry (hMem hEntry)
      · exact List.forall_mem_map.mpr fun entry hEntry =>
          ih entry (hMem hEntry) (hOrdered entry (hMem hEntry))

theorem exists_map_eq {α β : Type*} {P : α → Prop} {f : α → β} {items : List β}
    (h : ∀ item ∈ items, ∃ source, P source ∧ f source = item) :
    ∃ sources : List α, (∀ source ∈ sources, P source) ∧ sources.map f = items := by
  induction items with
  | nil => exact ⟨[], by simp, rfl⟩
  | cons item rest ih =>
      obtain ⟨⟨source, hSource, hItem⟩, hRest⟩ := List.forall_mem_cons.mp h
      obtain ⟨sources, hSources, hMap⟩ := ih hRest
      exact ⟨source :: sources, List.forall_mem_cons.mpr ⟨hSource, hSources⟩, by simp [hItem, hMap]⟩

/-- Fields whose encoded names ascend, as the decoder leaves them, come from an object
with sorted fields. -/
theorem exists_sorted_object {depth : Nat} {fields : List (String × Value)}
    (hDepth : depth ≤ pythonLimits.maxDepth.toNat)
    (hShort : (fields.map Object.ofField).length ≤ Python.maxCborCollectionItems)
    (hFields : ∀ field ∈ fields, (Utf8.encode field.1).length ≤ Python.maxCborStringBytes ∧
      Decoded pythonLimits (depth + 1) field.2)
    (hAscending : (fields.map Object.ofField).Pairwise fun left right =>
      lengthFirst left.1.item.encode right.1.item.encode = .lt)
    (hDistinct : (fields.map Object.ofField).Pairwise fun first second =>
      first.1.equal second.1 = false) :
    ∃ value, Decoded pythonLimits depth value ∧
      Object.ofValue value = .dict (fields.map Object.ofField) := by
  rw [List.pairwise_map] at hAscending hDistinct
  have hFits : ∀ field ∈ fields, (Utf8.encode field.1).length < 18446744073709551616 :=
    fun field hMem => (hFields field hMem).1.trans_lt (by decide)
  have hBytewise : fields.Pairwise fun left right =>
      bytewise (Item.text left.1).encode (Item.text right.1).encode = .lt :=
    List.Pairwise.imp_of_mem (fun {left right} hLeft hRight hLt =>
      (lengthFirst_encode_text (hFits _ hLeft) (hFits _ hRight)).symm.trans hLt) hAscending
  have hNames : fields.Pairwise fun first second => first.1 ≠ second.1 :=
    hDistinct.imp fun hNe => by simpa [Object.ofField, Key.equal_str] using hNe
  have hFresh : ∀ field ∈ fields, ∀ old ∈ ([] : List (String × Value)), old.1 ≠ field.1 :=
    by simp
  have hPerm : (SortedMap.insertAll [] fields).Perm fields := by
    simpa using SortedMap.insertAll_perm hNames hFresh
  have hSorted : SortedMap.Sorted (SortedMap.insertAll [] fields) :=
    SortedMap.Sorted.insertAll (List.Pairwise.nil) fields
  refine ⟨.object (SortedMap.insertAll [] fields), ⟨.object hDepth ?_ ?_ ?_, ?_⟩, ?_⟩
  · rw [hPerm.length_eq]
    simpa using hShort
  · intro field hMem
    simpa using (hFields field (hPerm.mem_iff.mp hMem)).1
  · exact fun field hMem => (hFields field (hPerm.mem_iff.mp hMem)).2.1
  · exact Value.ordered_object.mpr ⟨hSorted, fun field hMem =>
      (hFields field (hPerm.mem_iff.mp hMem)).2.2⟩
  · rw [Object.ofValue_object, sortFields_eq_of_perm hBytewise hPerm]

/-- What the decoder returns and the second pass lets through is the object of an
admissible value. -/
theorem Canonical.exists_value {flags : Flags} {depth : Nat} {object : Object}
    (hPlain : Plain object) (h : Canonical flags depth object) :
    ∃ value, Decoded pythonLimits depth value ∧ Object.ofValue value = object := by
  have hDepth : depth ≤ pythonLimits.maxDepth.toNat := by simpa using h.shallow
  induction hPlain generalizing depth with
  | @bool value =>
      exact ⟨.bool value, ⟨.bool hDepth, by simp [Value.ordered]⟩, by rw [Object.ofValue]⟩
  | @int value hSafe =>
      obtain ⟨number, hNumber⟩ := Number.exists_toInt (hSafe.trans_lt (by decide))
      refine ⟨.number number, ⟨.number hDepth value hNumber hSafe, by simp [Value.ordered]⟩, ?_⟩
      rw [Object.ofValue]
      cases number <;> cases hNumber <;> rfl
  | @str text =>
      cases h with
      | str _ hShort =>
          exact ⟨.string text, ⟨.string hDepth (by simpa using hShort), by simp [Value.ordered]⟩,
            by rw [Object.ofValue]⟩
  | @list items _ ih =>
      cases h with
      | list _ hShort hItems =>
          obtain ⟨values, hValues, rfl⟩ := exists_map_eq fun item hMem =>
            ih item hMem (hItems item hMem) (by simpa using (hItems item hMem).shallow)
          refine ⟨.array values, ⟨.array hDepth (by simpa using hShort) fun value hMem =>
            (hValues value hMem).1, ?_⟩, Object.ofValue_array values⟩
          exact Value.ordered_array.mpr fun value hMem => (hValues value hMem).2
  | @dict entries hTexts _ ih =>
      cases h with
      | dict _ hShort hAscending hDistinct hKeys hItems =>
          have hSources : ∀ entry ∈ entries, ∃ field : String × Value,
              ((Utf8.encode field.1).length ≤ Python.maxCborStringBytes ∧
                Decoded pythonLimits (depth + 1) field.2) ∧ Object.ofField field = entry := by
            rintro ⟨key, object⟩ hMem
            obtain ⟨text, rfl⟩ := hTexts _ hMem
            obtain ⟨value, hValue, rfl⟩ :=
              ih _ hMem (hItems _ hMem) (by simpa using (hItems _ hMem).shallow)
            have hKey := hKeys _ hMem
            cases hKey with
            | str _ hLength => exact ⟨(text, value), ⟨hLength, hValue⟩, rfl⟩
          obtain ⟨fields, hFields, rfl⟩ := exists_map_eq hSources
          exact exists_sorted_object hDepth hShort hFields hAscending hDistinct

/-- `_decode_cbor_document` with all flags off, then `_validate_manifest_cbor_value`,
which is what precedes the policy. -/
def Python.decodeManifestValue (data : Bytes) : Python.Result Object := do
  let value ← Python.decodeCborDocument Flags.manifest data
  Python.validateManifestCborValue "$" value
  .ok value

/-- The reference implementation, too, accepts exactly the deterministic encodings,
and builds the object of the value encoded. -/
theorem Python.decodeManifestValue_eq_ok {data : Bytes} {object : Object} :
    Python.decodeManifestValue data = .ok object ↔
      ∃ value : OrderedValue, Encodes pythonLimits value data ∧
        object = Object.ofValue value.value := by
  rw [Python.decodeManifestValue, bind_eq_ok]
  simp only [then_eq_ok, validateManifestCborValue_eq_ok, Except.ok.injEq]
  constructor
  · rintro ⟨_, hDecode, hPlain, rfl⟩
    obtain ⟨hShort, hCanonical, hData⟩ := Python.decodeCborDocument_eq_ok.mp hDecode
    obtain ⟨value, ⟨hAdmissible, hOrdered⟩, rfl⟩ := Canonical.exists_value hPlain hCanonical
    refine ⟨⟨value, hOrdered⟩, encodes_iff.mpr ⟨by simpa using hShort, hAdmissible, ?_⟩, rfl⟩
    rw [hData, Object.item_ofValue]
  · rintro ⟨value, hEncodes, rfl⟩
    obtain ⟨hShort, hAdmissible, hData⟩ := encodes_iff.mp hEncodes
    refine ⟨_, Python.decodeCborDocument_eq_ok.mpr ⟨by simpa using hShort,
      canonical_ofValue hAdmissible value.ordered, ?_⟩, plain_ofValue hAdmissible, rfl⟩
    rw [Object.item_ofValue, hData]

/-- The two structural stages agree on every input: either both fail, or both succeed
with the same abstract value. This is under the constants of the reference
implementation, for the other one's defaults allow fewer pairs in a map. -/
theorem decodeStructure_agrees (crates : Crates) (data : Bytes) :
    (∀ value, decodeStructure crates data pythonLimits = .ok value →
      ∃ object, Python.decodeManifestValue data = .ok object ∧ object.toValue = some value) ∧
    ∀ object, Python.decodeManifestValue data = .ok object →
      ∃ value, decodeStructure crates data pythonLimits = .ok value ∧
        object.toValue = some value := by
  constructor
  · intro value hRust
    obtain ⟨ordered, rfl, hEncodes⟩ := decodeStructure_eq_ok.mp hRust
    exact ⟨_, Python.decodeManifestValue_eq_ok.mpr ⟨ordered, hEncodes, rfl⟩,
      Object.toValue_ofValue ordered.ordered⟩
  · intro object hPython
    obtain ⟨ordered, hEncodes, rfl⟩ := Python.decodeManifestValue_eq_ok.mp hPython
    exact ⟨_, hEncodes.decodeStructure_eq, Object.toValue_ofValue ordered.ordered⟩

end Tfws
