import Tfws.Vectors.Codec

/-! What `cbor_encode` writes: the encoding of the value with its dictionaries
sorted. -/
namespace Tfws.Vectors

open Fallible Cbor Sorting

mutual
/-- The value with the entries of every dictionary in the order in which they
are encoded. -/
def sorted : Item → Item
  | .array items => .array (sortedMembers items)
  | .map entries => .map (sortBy lengthFirst (fun entry => entry.1.encode) (sortedEntries entries))
  | .tag number value => .tag number (sorted value)
  | .null => .null
  | .bool value => .bool value
  | .int value => .int value
  | .float bits => .float bits
  | .text text => .text text
  | .bytes octets => .bytes octets

def sortedMembers : List Item → List Item
  | [] => []
  | item :: rest => sorted item :: sortedMembers rest

def sortedEntries : Dict → Dict
  | [] => []
  | (key, value) :: rest => (sorted key, sorted value) :: sortedEntries rest
end

/-- An entry with both sides sorted, key and value. -/
def sortedEntry (entry : Item × Item) : Item × Item := (sorted entry.1, sorted entry.2)

theorem sortedMembers_eq_map (items : List Item) : sortedMembers items = items.map sorted := by
  induction items with
  | nil => rfl
  | cons item rest ih => rw [sortedMembers, ih, List.map_cons]

theorem sortedEntries_eq_map (entries : Dict) :
    sortedEntries entries = entries.map sortedEntry := by
  induction entries with
  | nil => rfl
  | cons entry rest ih => rw [sortedEntries, ih, List.map_cons, sortedEntry]

/-- What has a hash holds no dictionary, and so has nothing to sort. -/
theorem sorted_of_hashable {value : Item} (h : hashable value = true) : sorted value = value := by
  induction value with
  | array _ | map _ => cases h
  | tag number value ih => rw [sorted, ih h]
  | null | bool _ | int _ | float _ | text _ | bytes _ => rw [sorted]

/-- A head is written exactly for a number of 64 bits, in its preferred form. -/
theorem head_eq_ok {major value : Nat} {octets : Bytes} : head major value = .ok octets ↔
    value < 18446744073709551616 ∧ octets = Cbor.head major value := by
  unfold head Cbor.head preferred
  split_ifs <;> simp [Form.head, Form.additional, Form.width, bigEndian, eq_comm] <;> omega

/-- The members of an array are written exactly if each of them can be. -/
theorem encodeMembers_eq_ok {items : List Item} {octets : Bytes}
    (hItems : ∀ item ∈ items, ∀ octets, cborEncode item = .ok octets ↔
      item.Encodable ∧ octets = (sorted item).encode) :
    encodeMembers items = .ok octets ↔ (∀ item ∈ items, item.Encodable) ∧
      octets = Item.encodeItems (items.map sorted) := by
  induction items generalizing octets with
  | nil => simp [encodeMembers, Item.encodeItems, eq_comm]
  | cons item rest ih =>
      obtain ⟨hItem, hRest⟩ := List.forall_mem_cons.mp hItems
      simp only [encodeMembers, bind_eq_ok, hItem, ih hRest, Except.ok.injEq,
        List.forall_mem_cons, List.map_cons, Item.encodeItems]
      constructor
      · intro h
        obtain ⟨_, ⟨hFirst, rfl⟩, _, ⟨hOthers, rfl⟩, rfl⟩ := h
        exact ⟨⟨hFirst, hOthers⟩, rfl⟩
      · intro h
        obtain ⟨⟨hFirst, hOthers⟩, rfl⟩ := h
        exact ⟨_, ⟨hFirst, rfl⟩, _, ⟨hOthers, rfl⟩, rfl⟩

/-- An entry as the sort sees it: the encoded key, and the value to come. -/
def encodedEntry (entry : Item × Item) : Bytes × Result Bytes :=
  ((sorted entry.1).encode, cborEncode entry.2)

/-- The keys of a dictionary are written exactly if each of them can be. -/
theorem encodeKeys_eq_ok {entries : Dict} {encoded : List (Bytes × Result Bytes)}
    (hKeys : ∀ entry ∈ entries, ∀ octets, cborEncode entry.1 = .ok octets ↔
      entry.1.Encodable ∧ octets = (sorted entry.1).encode) :
    encodeKeys entries = .ok encoded ↔ (∀ entry ∈ entries, entry.1.Encodable) ∧
      encoded = entries.map encodedEntry := by
  induction entries generalizing encoded with
  | nil => simp [encodeKeys, eq_comm]
  | cons entry rest ih =>
      obtain ⟨hKey, hRest⟩ := List.forall_mem_cons.mp hKeys
      simp only [encodeKeys, bind_eq_ok, hKey, ih hRest, Except.ok.injEq, List.forall_mem_cons,
        List.map_cons]
      constructor
      · intro h
        obtain ⟨_, ⟨hFirst, rfl⟩, _, ⟨hOthers, rfl⟩, rfl⟩ := h
        exact ⟨⟨hFirst, hOthers⟩, rfl⟩
      · intro h
        obtain ⟨⟨hFirst, hOthers⟩, rfl⟩ := h
        exact ⟨_, ⟨hFirst, rfl⟩, _, ⟨hOthers, rfl⟩, rfl⟩

/-- Sorting the encoded entries is encoding the sorted ones: the encoder sorts after
encoding, and its result is the encoding of the sorted value. -/
theorem sortEncoded_map (entries : Dict) : sortEncoded (entries.map encodedEntry) =
    (sortBy lengthFirst (fun entry => (sorted entry.1).encode) entries).map encodedEntry := by
  symm
  apply List.map_mergeSort
  intro first _ second _
  rfl

theorem joinEncoded_eq_ok {entries : Dict} {octets : Bytes}
    (hValues : ∀ entry ∈ entries, ∀ octets, cborEncode entry.2 = .ok octets ↔
      entry.2.Encodable ∧ octets = (sorted entry.2).encode) :
    joinEncoded (entries.map encodedEntry) = .ok octets ↔
      (∀ entry ∈ entries, entry.2.Encodable) ∧
        octets = Item.encodeEntries (entries.map sortedEntry) := by
  induction entries generalizing octets with
  | nil => simp [joinEncoded, Item.encodeEntries, eq_comm]
  | cons entry rest ih =>
      obtain ⟨hValue, hRest⟩ := List.forall_mem_cons.mp hValues
      rw [List.map_cons, List.map_cons, encodedEntry, sortedEntry, joinEncoded,
        Item.encodeEntries]
      simp only [bind_eq_ok, hValue, Except.ok.injEq, List.forall_mem_cons, ih hRest]
      constructor
      · intro h
        obtain ⟨_, ⟨hFirst, rfl⟩, _, ⟨hOthers, rfl⟩, rfl⟩ := h
        exact ⟨⟨hFirst, hOthers⟩, rfl⟩
      · intro h
        obtain ⟨⟨hFirst, hOthers⟩, rfl⟩ := h
        exact ⟨_, ⟨hFirst, rfl⟩, _, ⟨hOthers, rfl⟩, rfl⟩

/-- A dictionary is written as the map of its entries in the order of their keys. -/
theorem cborEncode_map {entries : Dict} {octets : Bytes}
    (hKeys : ∀ entry ∈ entries, ∀ octets, cborEncode entry.1 = .ok octets ↔
      entry.1.Encodable ∧ octets = (sorted entry.1).encode)
    (hValues : ∀ entry ∈ entries, ∀ octets, cborEncode entry.2 = .ok octets ↔
      entry.2.Encodable ∧ octets = (sorted entry.2).encode) :
    cborEncode (.map entries) = .ok octets ↔
      (Item.map entries).Encodable ∧ octets = (sorted (.map entries)).encode := by
  have hPerm : (sortBy lengthFirst (fun entry => (sorted entry.1).encode) entries).Perm entries :=
    sortBy_perm entries
  have hSorted : sorted (.map entries) =
      .map ((sortBy lengthFirst (fun entry => (sorted entry.1).encode) entries).map sortedEntry) := by
    rw [sorted, sortedEntries_eq_map, sortBy, sortBy, List.map_mergeSort]
    intro first _ second _
    rfl
  have hJoin {octets : Bytes} := @joinEncoded_eq_ok _ octets fun entry hMem =>
    hValues entry (hPerm.mem_iff.mp hMem)
  rw [cborEncode, hSorted, Item.encode_map, List.length_map, hPerm.length_eq]
  simp only [bind_eq_ok, encodeKeys_eq_ok hKeys, head_eq_ok, Except.ok.injEq]
  constructor
  · intro h
    obtain ⟨_, ⟨hAllKeys, rfl⟩, _, ⟨hShort, rfl⟩, pairs, hPairs, rfl⟩ := h
    rw [sortEncoded_map, hJoin] at hPairs
    rw [List.length_map] at hShort ⊢
    obtain ⟨hAllValues, rfl⟩ := hPairs
    exact ⟨.map hShort hAllKeys fun entry hMem => hAllValues entry (hPerm.mem_iff.mpr hMem), rfl⟩
  · intro h
    obtain ⟨hEncodable, rfl⟩ := h
    cases hEncodable with
    | map hShort hAllKeys hAllValues =>
        refine ⟨_, ⟨hAllKeys, rfl⟩, _, ⟨by rwa [List.length_map], rfl⟩, _, ?_, by rw [List.length_map]⟩
        rw [sortEncoded_map, hJoin]
        exact ⟨fun entry hMem => hAllValues entry (hPerm.mem_iff.mp hMem), rfl⟩

theorem cborEncode_int {value : Int} {octets : Bytes} :
    cborEncode (.int value) = .ok octets ↔
      (Item.int value).Encodable ∧ octets = (sorted (.int value)).encode := by
  rw [cborEncode, sorted, Item.encode]
  split_ifs with hSign <;> rw [head_eq_ok] <;> constructor
  · intro h
    exact ⟨.int (by omega) (by omega), h.2⟩
  · intro h
    obtain ⟨hEncodable, hOctets⟩ := h
    cases hEncodable
    exact ⟨by omega, hOctets⟩
  · intro h
    exact ⟨.int (by omega) (by omega), h.2⟩
  · intro h
    obtain ⟨hEncodable, hOctets⟩ := h
    cases hEncodable
    exact ⟨by omega, hOctets⟩

theorem cborEncode_bytes {content octets : Bytes} :
    cborEncode (.bytes content) = .ok octets ↔
      (Item.bytes content).Encodable ∧ octets = (sorted (.bytes content)).encode := by
  rw [cborEncode, sorted, Item.encode]
  simp only [bind_eq_ok, head_eq_ok, Except.ok.injEq]
  constructor
  · intro h
    obtain ⟨_, ⟨hShort, rfl⟩, rfl⟩ := h
    exact ⟨.bytes hShort, rfl⟩
  · intro h
    obtain ⟨hEncodable, rfl⟩ := h
    cases hEncodable with
    | bytes hShort => exact ⟨_, ⟨hShort, rfl⟩, rfl⟩

theorem cborEncode_text {content : String} {octets : Bytes} :
    cborEncode (.text content) = .ok octets ↔
      (Item.text content).Encodable ∧ octets = (sorted (.text content)).encode := by
  rw [cborEncode, sorted, Item.encode]
  simp only [bind_eq_ok, head_eq_ok, Except.ok.injEq]
  constructor
  · intro h
    obtain ⟨_, ⟨hShort, rfl⟩, rfl⟩ := h
    exact ⟨.text hShort, rfl⟩
  · intro h
    obtain ⟨hEncodable, rfl⟩ := h
    cases hEncodable with
    | text hShort => exact ⟨_, ⟨hShort, rfl⟩, rfl⟩

/-- A value is encoded when its numbers and lengths have heads and it has no float;
its dictionaries are then written in the order of their encoded keys. -/
theorem cborEncode_eq_ok {value : Item} {octets : Bytes} :
    cborEncode value = .ok octets ↔ value.Encodable ∧ octets = (sorted value).encode := by
  induction value generalizing octets with
  | null => exact ⟨fun h => ⟨.null, (Except.ok.inj h).symm⟩, fun h => congrArg Except.ok h.2.symm⟩
  | bool value =>
      cases value <;>
        exact ⟨fun h => ⟨.bool, (Except.ok.inj h).symm⟩, fun h => congrArg Except.ok h.2.symm⟩
  | float bits => exact ⟨fun h => (by cases h), fun h => by cases h.1⟩
  | int value => exact cborEncode_int
  | bytes content => exact cborEncode_bytes
  | text content => exact cborEncode_text
  | array items ih =>
      rw [cborEncode, sorted, sortedMembers_eq_map, Item.encode, List.length_map]
      simp only [bind_eq_ok, head_eq_ok, Except.ok.injEq,
        encodeMembers_eq_ok fun item hMem octets => ih item hMem]
      constructor
      · intro h
        obtain ⟨_, ⟨hShort, rfl⟩, _, ⟨hMembers, rfl⟩, rfl⟩ := h
        exact ⟨.array hShort hMembers, rfl⟩
      · intro h
        obtain ⟨hEncodable, rfl⟩ := h
        cases hEncodable with
        | array hShort hMembers => exact ⟨_, ⟨hShort, rfl⟩, _, ⟨hMembers, rfl⟩, rfl⟩
  | map entries ih =>
      exact cborEncode_map (fun entry hMem octets => (ih entry hMem).1)
        fun entry hMem octets => (ih entry hMem).2
  | tag number value ih =>
      rw [cborEncode, sorted, Item.encode]
      simp only [bind_eq_ok, head_eq_ok, Except.ok.injEq, ih]
      constructor
      · intro h
        obtain ⟨_, ⟨hShort, rfl⟩, _, ⟨hValue, rfl⟩, rfl⟩ := h
        exact ⟨.tag hShort hValue, rfl⟩
      · intro h
        obtain ⟨hEncodable, rfl⟩ := h
        cases hEncodable with
        | tag hShort hValue => exact ⟨_, ⟨hShort, rfl⟩, _, ⟨hValue, rfl⟩, rfl⟩

end Tfws.Vectors
