import Tfws.Core.Document
import Tfws.Core.Policy
import Tfws.Crates.EncodedLength
import Tfws.Data.Traversal

/-! A document is longer than the key identifiers it contains, in whichever
shape its structs are written. The protected headers of an envelope repeat a
key identifier, so they fit wherever the document does. -/
namespace Tfws

open SerdeJson

/-- Two members at different places are together no longer than the whole. -/
theorem add_le_sum_of_getElem? {lengths : List Nat} {i j first second : Nat}
    (hFirst : lengths[i]? = some first) (hSecond : lengths[j]? = some second) (hPlaces : i ≠ j) :
    first + second ≤ lengths.sum := by
  induction lengths generalizing i j with
  | nil => simp at hFirst
  | cons length rest ih =>
      have hMem {place value : Nat} (h : rest[place]? = some value) : value ≤ rest.sum :=
        List.le_sum_of_mem (List.mem_of_getElem? h)
      rw [List.sum_cons]
      cases i with
      | zero =>
          cases j with
          | zero => exact absurd rfl hPlaces
          | succ j =>
              obtain rfl := Option.some.inj hFirst
              exact Nat.add_le_add_left (hMem hSecond) _
      | succ i =>
          cases j with
          | zero =>
              obtain rfl := Option.some.inj hSecond
              rw [Nat.add_comm]
              exact Nat.add_le_add_left (hMem hFirst) _
          | succ j =>
              have hRest := ih hFirst hSecond fun h => hPlaces (congrArg Nat.succ h)
              omega

/-- Two fields of a struct are together no longer than the struct, be it a map or a
list. -/
theorem structFields_length {names : List String} {value : Value}
    {field : String → Option Value} (h : structFields names value = some field)
    {name other : String} (hName : name ∈ names) (hDistinct : name ≠ other)
    {first second : Value} (hFirst : field name = some first)
    (hSecond : field other = some second) :
    first.encodedLength + second.encodedLength ≤ value.encodedLength := by
  cases value with
  | object entries =>
      simp only [structFields, Option.ite_none_right_eq_some, Option.some.injEq] at h
      obtain ⟨_, rfl⟩ := h
      obtain ⟨i, hi⟩ := List.mem_iff_getElem?.mp (SortedMap.mem_of_lookup hFirst)
      obtain ⟨j, hj⟩ := List.mem_iff_getElem?.mp (SortedMap.mem_of_lookup hSecond)
      have hPlaces : i ≠ j := by
        rintro rfl
        rw [hi] at hj
        exact hDistinct (congrArg Prod.fst (Option.some.inj hj))
      let length := fun entry : String × Value => textLength entry.1 + entry.2.encodedLength
      have hLengths {place : Nat} {entry : String × Value} (h : entries[place]? = some entry) :
          (entries.map length)[place]? = some (length entry) := by
        rw [List.getElem?_map, h, Option.map_some]
      have hSum := add_le_sum_of_getElem? (hLengths hi) (hLengths hj) hPlaces
      rw [Value.encodedLength, Value.fieldsLength_eq_sum]
      simp only [length] at hSum
      omega
  | array items =>
      simp only [structFields, Option.ite_none_right_eq_some, Option.some.injEq] at h
      obtain ⟨_, rfl⟩ := h
      have hPlaces : names.idxOf name ≠ names.idxOf other :=
        fun hEqual => hDistinct ((List.idxOf_inj hName).mp hEqual)
      have hLengths {place : Nat} {item : Value} (h : items[place]? = some item) :
          (items.map Value.encodedLength)[place]? = some item.encodedLength := by
        rw [List.getElem?_map, h, Option.map_some]
      have hSum := add_le_sum_of_getElem? (hLengths hFirst) (hLengths hSecond) hPlaces
      rw [Value.encodedLength, Value.itemsLength_eq_sum]
      omega
  | _ => cases h

/-- Every member of a list that was read comes from a member of the value. -/
theorem readList_mem {α : Type} {read : Value → Option α} {field : Option Value}
    {members : List α} (h : readList read field = some members) {member : α}
    (hMem : member ∈ members) :
    ∃ items, field = some (.array items) ∧ ∃ item ∈ items, read item = some member := by
  unfold readList at h
  split at h
  · exact ⟨_, rfl, Traversal.exists_left (Traversal.mapM_eq_some.mp h) hMem⟩
  · cases h

theorem KeyDescriptor.length_le {value : Value} {key : KeyDescriptor}
    (h : KeyDescriptor.deserialize value = some key) :
    textLength key.keyId + textLength key.publicKeySha256 ≤ value.encodedLength := by
  simp only [deserialize, Option.bind_eq_bind, Option.bind_eq_some_iff, Option.some.injEq] at h
  obtain ⟨field, hField, _, _, _, hKeyId, _, _, _, hSha256, _, _, _, _, rfl⟩ := h
  have hLength := structFields_length hField (by decide) (by decide)
    (readString_eq_some.mp hKeyId) (readString_eq_some.mp hSha256)
  simpa only [Value.encodedLength] using hLength

theorem item_length_le {items : List Value} {item : Value} (h : item ∈ items) :
    item.encodedLength ≤ (Value.array items).encodedLength := by
  rw [Value.encodedLength, Value.itemsLength_eq_sum]
  exact (List.le_sum_of_mem (List.mem_map_of_mem h)).trans (Nat.le_add_left _ _)

/-- A document is longer than any key identifier in it by the rest of the key
descriptor, in whichever shape the structs are written. -/
theorem Manifest.key_length_le {value : Value} {manifest : Manifest}
    (h : Manifest.deserialize value = some manifest) {key : KeyDescriptor}
    (hKey : key ∈ manifest.keys) :
    textLength key.keyId + textLength key.publicKeySha256 ≤ value.encodedLength := by
  obtain ⟨field, hField, hFields⟩ := deserialize_eq_some.mp h
  obtain ⟨items, hItems, item, hItem, hRead⟩ := readList_mem hFields.keys hKey
  have hBoth := structFields_length hField (by decide) (by decide) hItems
    (readString_eq_some.mp hFields.subject)
  calc
    textLength key.keyId + textLength key.publicKeySha256 ≤ item.encodedLength :=
      KeyDescriptor.length_le hRead
    _ ≤ (Value.array items).encodedLength := item_length_le hItem
    _ ≤ value.encodedLength := (Nat.le_add_right _ _).trans hBoth

end Tfws
