import Tfws.Agreement.Conformance
import Tfws.Vectors.NegativeVectors

/-! The documents of `tfws-core` as the vector generator reads them. -/
namespace Tfws.Vectors

open SerdeJson Fallible Cbor Sorting

variable {limits : CborLimits} {depth : Nat} {entries : List (String × Value)} {octets : Bytes}

/-- The fields of an object in the order of their encoding. -/
def sortedItems (entries : List (String × Value)) : List (String × Item) :=
  (sortFields entries).map fun entry => (entry.1, entry.2.item)

/-- The item of an object is a map of its fields under their names, in the order of
the encoding. -/
theorem item_object_named (entries : List (String × Value)) :
    (Value.object entries).item = .map (named (sortedItems entries)) := by
  rw [item_object_eq, named, sortedItems, List.map_map]
  rfl

theorem sortedItems_ascend (hSorted : SortedMap.Sorted entries)
    (hKeys : ∀ entry ∈ entries, (Utf8.encode entry.1).length < 18446744073709551616) :
    NamesAscend ((sortedItems entries).map Prod.fst) := by
  have hMem {entry : String × Value} : entry ∈ sortFields entries → entry ∈ entries :=
    (sortFields_perm entries).mem_iff.mp
  rw [NamesAscend, sortedItems, List.map_map, List.pairwise_map]
  apply List.Pairwise.imp_of_mem ?_ (sortFields_ascending hSorted hKeys)
  intro first second hFirst hSecond hLt
  exact (lengthFirst_encode_text (hKeys _ (hMem hFirst)) (hKeys _ (hMem hSecond))).trans hLt

theorem mem_sortedItems {field : String × Item} :
    field ∈ sortedItems entries ↔ ∃ entry ∈ entries, (entry.1, entry.2.item) = field := by
  simp only [sortedItems, List.mem_map, (sortFields_perm entries).mem_iff]

theorem length_sortedItems : (sortedItems entries).length = entries.length := by
  rw [sortedItems, List.length_map, (sortFields_perm entries).length_eq]

theorem readable_fields (hSorted : SortedMap.Sorted entries)
    (hKeys : ∀ entry ∈ entries, (Utf8.encode entry.1).length < 18446744073709551616)
    (hCount : entries.length < 18446744073709551616)
    (hFields : ∀ entry ∈ entries, Readable entry.2.item) : Readable (Value.object entries).item := by
  rw [item_object_named]
  apply readable_named _ rfl (sortedItems_ascend hSorted hKeys)
  · intro name hName
    obtain ⟨field, hField, rfl⟩ := List.mem_map.mp hName
    obtain ⟨entry, hEntry, rfl⟩ := mem_sortedItems.mp hField
    exact hKeys entry hEntry
  · rwa [List.length_map, length_sortedItems]
  · intro field hField
    obtain ⟨entry, hEntry, rfl⟩ := mem_sortedItems.mp hField
    exact hFields entry hEntry

/-- Every value of the manifest data model can be read by the generator. -/
theorem readable_item {value : Value} (h : Admissible limits depth value)
    (hOrdered : value.ordered = true) : Readable value.item := by
  induction value generalizing depth with
  | null => cases h
  | bool value => exact .bool
  | number number =>
      cases h with
      | number _ integer hInteger hSafe =>
          have hItem : number.item = .int integer := by
            cases number <;> cases hInteger <;> rfl
          rw [Value.item, hItem]
          unfold maxSafeInteger at hSafe
          exact .int (by omega) (by omega)
  | string text =>
      cases h with
      | string _ hShort => exact .text (hShort.trans_lt (limit_lt _))
  | array items ih =>
      rw [Value.item_array]
      have hMembers := fun item hMem =>
        ih item hMem (h.of_array item hMem) (Value.ordered_array.mp hOrdered item hMem)
      cases h with
      | array _ hShort _ =>
          apply Readable.array
          · rw [List.length_map]
            exact hShort.trans_lt (limit_lt _)
          · exact List.forall_mem_map.mpr hMembers
  | object entries ih =>
      obtain ⟨hSorted, hFieldsOrdered⟩ := Value.ordered_object.mp hOrdered
      have hFields := fun entry hMem =>
        ih entry hMem (h.of_object entry hMem) (hFieldsOrdered entry hMem)
      have hKeys := h.key_length_le
      cases h with
      | object _ hShort _ _ =>
          exact readable_fields hSorted (fun entry hMem => (hKeys entry hMem).trans_lt (limit_lt _))
            (hShort.trans_lt (limit_lt _)) hFields

/-- The decoder of the generator reads every document of `tfws-core`, as the same
item. -/
theorem cborDecodeExact_document {value : OrderedValue} (h : Encodes limits value octets) :
    cborDecodeExact octets = .ok value.value.item := by
  obtain ⟨-, hAdmissible, rfl⟩ := encodes_iff.mp h
  exact cborDecodeExact_eq_ok.mpr ⟨readable_item hAdmissible value.ordered, rfl⟩

/-- A list of fields in the order of the encoding is the item of an object when each
of them is one of its entries. -/
theorem item_eq_named {fields : List (String × Item)} (names : List String)
    (hNames : fields.map Prod.fst = names) (hAscend : NamesAscend names)
    (hShort : ∀ name ∈ names, (Utf8.encode name).length < 18446744073709551616)
    (hSorted : SortedMap.Sorted entries) (hKnown : ∀ entry ∈ entries, entry.1 ∈ names)
    (hFields : ∀ field ∈ fields, ∃ value,
      SortedMap.lookup field.1 entries = some value ∧ value.item = field.2) :
    (Value.object entries).item = .map (named fields) := by
  subst hNames
  have hAscending : Ascending lengthFirst (fun field : String × Item => (Item.text field.1).encode)
      fields := List.pairwise_map.mp hAscend
  have hNodup : fields.Nodup := by
    apply hAscending.imp
    intro first second hLt hSame
    have hSelf : lengthFirst (Item.text first.1).encode (Item.text first.1).encode = .eq :=
      Std.ReflCmp.compare_self
    rw [← hSame, hSelf] at hLt
    cases hLt
  have hSubset : fields ⊆ sortedItems entries := by
    intro field hField
    obtain ⟨value, hLookup, hItem⟩ := hFields field hField
    exact mem_sortedItems.mpr ⟨_, SortedMap.mem_of_lookup hLookup, by rw [hItem]⟩
  have hEntries : (entries.map Prod.fst).Nodup :=
    List.pairwise_map.mpr (hSorted.imp fun hLt => ne_of_lt hLt)
  have hListed : entries.map Prod.fst ⊆ fields.map Prod.fst := by
    intro name hName
    obtain ⟨entry, hEntry, rfl⟩ := List.mem_map.mp hName
    exact hKnown entry hEntry
  have hCount := (List.subperm_of_subset hEntries hListed).length_le
  rw [List.length_map, List.length_map, ← length_sortedItems] at hCount
  rw [item_object_named, hAscending.eq_of_perm (List.pairwise_map.mp (sortedItems_ascend hSorted
    fun entry hEntry => hShort entry.1 (hKnown entry hEntry)))
    ((List.subperm_of_subset hNodup hSubset).perm_of_length_le hCount)]

/-- The item of a record, once the order of its names in the encoding is known. -/
theorem item_record {record : List (String × Option Value)} {fields : List (String × Item)}
    (names : List String) (hNames : fields.map Prod.fst = names) (hAscend : NamesAscend names)
    (hShort : ∀ name ∈ names, (Utf8.encode name).length < 18446744073709551616)
    (hNodup : (record.map Prod.fst).Nodup)
    (hKnown : ∀ field ∈ record, ∀ value, field.2 = some value → field.1 ∈ names)
    (hFields : ∀ field ∈ fields, ∃ value, (field.1, some value) ∈ record ∧ value.item = field.2) :
    (Value.object (SortedMap.present record)).item = .map (named fields) := by
  apply item_eq_named names hNames hAscend hShort (SortedMap.sorted_present record)
  · intro entry hEntry
    exact hKnown _ ((SortedMap.mem_present hNodup).mp hEntry) _ rfl
  · intro field hField
    obtain ⟨value, hMem, hItem⟩ := hFields field hField
    exact ⟨value, SortedMap.lookup_present hNodup hMem, hItem⟩

theorem item_strings (names : List String) : (stringsValue names).item = texts names := by
  rw [stringsValue, Value.item_array, List.map_map]
  rfl

/-- A descriptor in the order of its encoding, which goes by the lengths of the
names. -/
theorem item_key (key : KeyDescriptor) : key.document.item =
    .map (named [("usage", texts key.usage), ("key_id", .text key.keyId),
      ("status", .text key.status), ("algorithm", .text key.algorithm),
      ("public_key_uri", .text key.publicKeyUri),
      ("public_key_sha256", .text key.publicKeySha256)]) := by
  apply item_record ["usage", "key_id", "status", "algorithm", "public_key_uri",
    "public_key_sha256"] rfl (by decide) (by decide) key.record_names
  · simp [KeyDescriptor.record]
  · simp [KeyDescriptor.record, stringField, item_strings, Value.item]

theorem item_policy (policy : SignaturePolicy) : policy.document.item =
    .map (named [("policy_id", .text policy.policyId),
      ("required_algorithms", texts policy.requiredAlgorithms)]) := by
  have hNames : (policy.record.map Prod.fst).Nodup :=
    show ["policy_id", "required_algorithms"].Nodup by decide
  apply item_record ["policy_id", "required_algorithms"] rfl (by decide) (by decide) hNames
  · simp [SignaturePolicy.record]
  · simp [SignaturePolicy.record, stringField, item_strings, Value.item]

theorem item_capabilities (capabilities : Capabilities) : capabilities.document.item =
    .map (named [("optional", texts capabilities.optional),
      ("required", texts capabilities.required)]) := by
  have hNames : (capabilities.record.map Prod.fst).Nodup :=
    show ["required", "optional"].Nodup by decide
  apply item_record ["optional", "required"] rfl (by decide) (by decide) hNames
  · simp [Capabilities.record]
  · simp [Capabilities.record, item_strings]

/-- The generator's sample and the test vector are one document, written by different
programs. -/
theorem item_sample : Manifest.sample.document.item = .map (sampleManifest "Example Organization"
    (publicKeyUri "ed25519") (expectedSha256 "ed25519")) := by
  have hOperator : Manifest.sample.operator.document.item =
      .map (named [("name", .text "Example Organization")]) := by
    have hNames : (Manifest.sample.operator.record.map Prod.fst).Nodup :=
      show ["name", "jurisdiction"].Nodup by decide
    apply item_record ["name"] rfl (by decide) (by decide) hNames
    · simp [Operator.record, Manifest.sample]
    · simp [Operator.record, stringField, Value.item, Manifest.sample]
  apply item_record ["keys", "subject", "operator", "artifacts", "key_epoch", "expires_at",
    "updated_at", "environment", "capabilities", "tfws_version", "signature_policy"] rfl (by decide)
    (by decide) Manifest.sample.record_names
  · simp [Manifest.record, Manifest.sample]
  · have hKeys : (Value.array (Manifest.sample.keys.map KeyDescriptor.document)).item =
        .array [.map (sampleEntry "ed25519" (publicKeyUri "ed25519") (expectedSha256 "ed25519")),
          .map (sampleEntry "ml-dsa-65" (publicKeyUri "ml-dsa-65") (expectedSha256 "ml-dsa-65"))] := by
      rw [Value.item_array, List.map_map, Manifest.sample]
      simp only [List.map_cons, List.map_nil, Function.comp_apply, item_key]
      rfl
    simp only [List.forall_mem_cons]
    have hRecord {place : Nat} {field : String × Option Value}
        (h : Manifest.sample.record[place]? = some field) : field ∈ Manifest.sample.record :=
      List.mem_of_getElem? h
    exact ⟨⟨_, @hRecord 5 _ rfl, hKeys⟩, ⟨_, @hRecord 1 _ rfl, rfl⟩, ⟨_, @hRecord 3 _ rfl, hOperator⟩,
      ⟨_, @hRecord 9 _ rfl, rfl⟩, ⟨_, @hRecord 4 _ rfl, rfl⟩, ⟨_, @hRecord 11 _ rfl, rfl⟩,
      ⟨_, @hRecord 10 _ rfl, rfl⟩, ⟨_, @hRecord 2 _ rfl, rfl⟩,
      ⟨_, @hRecord 7 _ rfl, item_capabilities _⟩, ⟨_, @hRecord 0 _ rfl, rfl⟩,
      ⟨_, @hRecord 6 _ rfl, item_policy _⟩, List.forall_mem_nil _⟩

end Tfws.Vectors
