import Mathlib.Data.List.Pairwise
import Tfws.Vectors.CodecExact

/-! Whatever the generator encodes it decodes to the same value, with the
dictionaries sorted. -/
namespace Tfws.Vectors

open Fallible Cbor Sorting

variable {value key : Item} {entries fields : Dict}

/-- What has a hash and an encoding is read back as it is. -/
theorem readable_of_hashable (hHash : hashable key = true) (h : key.Encodable) : Readable key := by
  induction h with
  | array | map => cases hHash
  | null => exact .null
  | bool => exact .bool
  | int hLower hUpper => exact .int hLower hUpper
  | text hShort => exact .text hShort
  | bytes hShort => exact .bytes hShort
  | tag hShort _ ih => exact .tag hShort (ih hHash)

/-- Keys that are not equal have different encodings, so that sorting by encodings is
strict on a dictionary. -/
theorem lengthFirst_ne_eq {other : Item} (hHash : hashable key = true) (hKey : key.Encodable)
    (hOther : other.Encodable) (h : equal key other = false) :
    lengthFirst key.encode other.encode ≠ .eq := by
  intro hSame
  have hEncode := Std.LawfulEqCmp.eq_of_compare hSame
  rw [← hKey.encode_inj hOther hEncode, equal_self hHash] at h
  cases h

/-- The keys of two entries are different, whichever of them is compared. -/
def KeysDiffer (first second : Item × Item) : Prop :=
  equal first.1 second.1 = false ∧ equal second.1 first.1 = false

instance : Std.Symm KeysDiffer := ⟨fun _ _ h => ⟨h.2, h.1⟩⟩

theorem pairwise_keysDiffer (hHashed : ∀ entry ∈ entries, hashable entry.1 = true)
    (hDistinct : entries.Pairwise fun first second => equal first.1 second.1 = false) :
    entries.Pairwise KeysDiffer := by
  apply hDistinct.imp_of_mem
  intro first second hFirst _ hNe
  exact ⟨hNe, by rwa [← equal_comm (hHashed first hFirst)]⟩

theorem sortedEntries_hashed (hHashed : ∀ entry ∈ entries, hashable entry.1 = true) :
    sortedEntries entries = entries.map fun entry => (entry.1, sorted entry.2) := by
  rw [sortedEntries_eq_map]
  apply List.map_congr_left
  intro entry hMem
  rw [sortedEntry, sorted_of_hashable (hHashed entry hMem)]

/-- The entries of a dictionary, sorted by their encoded keys, with the values sorted
as well. -/
def sortedDict (entries : Dict) : Dict :=
  sortBy lengthFirst (fun entry => entry.1.encode) (sortedEntries entries)

theorem sorted_map (entries : Dict) : sorted (.map entries) = .map (sortedDict entries) := by
  rw [sorted, sortedDict]

theorem WellFormed.hashed (h : WellFormed (.map entries)) :
    ∀ entry ∈ entries, hashable entry.1 = true := by
  cases h
  assumption

theorem WellFormed.distinct (h : WellFormed (.map entries)) : entries.Pairwise KeysDiffer := by
  cases h with
  | map hHashed hDistinct _ => exact pairwise_keysDiffer hHashed hDistinct

theorem WellFormed.values (h : WellFormed (.map entries)) :
    ∀ entry ∈ entries, WellFormed entry.2 := by
  cases h
  assumption

/-- Sorting neither adds an entry nor loses one, while the values are sorted in
turn. -/
theorem sortedDict_perm (h : WellFormed (.map entries)) : (sortedDict entries).Perm
    (entries.map fun entry => (entry.1, sorted entry.2)) := by
  rw [← sortedEntries_hashed h.hashed]
  exact sortBy_perm _

theorem sortedDict_distinct (h : WellFormed (.map entries)) :
    (sortedDict entries).Pairwise KeysDiffer := by
  have hSource : (entries.map fun entry => (entry.1, sorted entry.2)).Pairwise KeysDiffer :=
    List.pairwise_map.mpr h.distinct
  exact ((sortedDict_perm h).pairwise_iff fun hPair => ⟨hPair.2, hPair.1⟩).mpr hSource

/-- Sorting makes an encodable value one that is read back. By induction on the
value. -/
theorem readable_sorted (h : WellFormed value) (hEncodable : value.Encodable) :
    Readable (sorted value) := by
  induction h with
  | null => exact .null
  | bool => exact .bool
  | int =>
      cases hEncodable with
      | int hLower hUpper => exact .int hLower hUpper
  | float => cases hEncodable
  | text =>
      cases hEncodable with
      | text hShort => exact .text hShort
  | bytes =>
      cases hEncodable with
      | bytes hShort => exact .bytes hShort
  | @array items _ ih =>
      cases hEncodable with
      | array hShort hMembers =>
          rw [sorted, sortedMembers_eq_map]
          refine .array (by rwa [List.length_map]) fun item hMem => ?_
          obtain ⟨member, hMember, rfl⟩ := List.mem_map.mp hMem
          exact ih member hMember (hMembers member hMember)
  | @map entries hHashed hDistinct hWell ih =>
      cases hEncodable with
      | map hShort hKeys hValues =>
          have hMap : WellFormed (.map entries) := .map hHashed hDistinct hWell
          have hMember {entry : Item × Item} (hMem : entry ∈ sortedDict entries) :
              ∃ source ∈ entries, entry = (source.1, sorted source.2) := by
            obtain ⟨source, hSource, rfl⟩ :=
              List.mem_map.mp ((sortedDict_perm hMap).mem_iff.mp hMem)
            exact ⟨source, hSource, rfl⟩
          rw [sorted_map]
          apply Readable.map
          case short => rwa [(sortedDict_perm hMap).length_eq, List.length_map]
          case ascending =>
            apply Distinct.ascending_sortBy
            rw [sortedEntries_hashed hHashed]
            apply List.pairwise_map.mpr
            apply hDistinct.imp_of_mem
            intro first second hFirst hSecond hNe
            exact lengthFirst_ne_eq (hHashed first hFirst) (hKeys first hFirst)
              (hKeys second hSecond) hNe
          case hashed =>
            intro entry hMem
            obtain ⟨source, hSource, rfl⟩ := hMember hMem
            exact hHashed source hSource
          case distinct => exact (sortedDict_distinct hMap).imp fun hPair => hPair.1
          case keys =>
            intro entry hMem
            obtain ⟨source, hSource, rfl⟩ := hMember hMem
            exact readable_of_hashable (hHashed source hSource) (hKeys source hSource)
          case values =>
            intro entry hMem
            obtain ⟨source, hSource, rfl⟩ := hMember hMem
            exact ih source hSource (hValues source hSource)
  | tag _ ih =>
      cases hEncodable with
      | tag hShort hContent => exact .tag hShort (ih hContent)

/-- The entry of a key among entries with distinct keys, wherever it stands: the order
of a dictionary does not matter to a lookup. -/
theorem find_key {others : Dict} {entry : Item × Item} (hMem : entry ∈ others)
    (hHash : hashable entry.1 = true)
    (hDistinct : ∀ other ∈ others, other ≠ entry → equal entry.1 other.1 = false) :
    others.find? (fun other => equal entry.1 other.1) = some entry := by
  cases hFind : others.find? fun other => equal entry.1 other.1 with
  | none =>
      have hNone := List.find?_eq_none.mp hFind entry hMem
      exact absurd (equal_self hHash) hNone
  | some found =>
      have hFound := List.find?_some hFind
      by_cases hSame : found = entry
      · rw [hSame]
      · have hNe := hDistinct found (List.mem_of_find?_eq_some hFind) hSame
        exact absurd hFound (by rw [hNe]; decide)

theorem equalItems_of_forall₂ {items others : List Item}
    (h : List.Forall₂ (fun item other => equal item other = true) items others) :
    equalItems items others = true := by
  induction h with
  | nil => rfl
  | cons hItem _ ih =>
      rw [equalItems, hItem, ih]
      rfl

/-- Entries that all have an equal value under their key make equal dictionaries. -/
theorem equalEntries_of_mem {others : Dict} (hOthers : others.Pairwise KeysDiffer)
    (hHashed : ∀ entry ∈ fields, hashable entry.1 = true)
    (hMem : ∀ entry ∈ fields, ∃ value, (entry.1, value) ∈ others ∧ equal entry.2 value = true) :
    equalEntries fields others = true := by
  induction fields with
  | nil => rfl
  | cons entry rest ih =>
      obtain ⟨hHash, hHashed⟩ := List.forall_mem_cons.mp hHashed
      obtain ⟨⟨value, hHere, hValue⟩, hMem⟩ := List.forall_mem_cons.mp hMem
      have hFind : others.find? (fun other => equal entry.1 other.1) = some (entry.1, value) := by
        apply find_key hHere hHash
        intro other hOther hNe
        exact (hOthers.forall hHere hOther (Ne.symm hNe)).1
      rw [equalEntries, ih hHashed hMem]
      rw [hFind]
      dsimp only
      rw [hValue]
      rfl

/-- Sorting does not change a value, as `==` goes, from either side. -/
theorem equal_sorted (h : WellFormed value) :
    equal value (sorted value) = true ∧ equal (sorted value) value = true := by
  induction h with
  | null => exact ⟨rfl, rfl⟩
  | bool | int | float | text | bytes =>
      simp [sorted, equal, integer?, text?, octets?, bits?]
  | @array items _ ih =>
      rw [sorted, sortedMembers_eq_map, equal, equal]
      constructor
      · apply equalItems_of_forall₂
        exact List.forall₂_map_right_iff.mpr (List.forall₂_same.mpr fun item hMem => (ih item hMem).1)
      · apply equalItems_of_forall₂
        exact List.forall₂_map_left_iff.mpr (List.forall₂_same.mpr fun item hMem => (ih item hMem).2)
  | @map entries hHashed hDistinct hWell ih =>
      have hMap : WellFormed (.map entries) := .map hHashed hDistinct hWell
      have hPerm := sortedDict_perm hMap
      have hLength : entries.length = (sortedDict entries).length := by
        rw [hPerm.length_eq, List.length_map]
      rw [sorted_map, equal, equal]
      rw [← hLength, decide_eq_true rfl, Bool.true_and, Bool.true_and]
      constructor
      · apply equalEntries_of_mem (sortedDict_distinct hMap) hHashed
        intro entry hMem
        exact ⟨sorted entry.2, hPerm.mem_iff.mpr (List.mem_map.mpr ⟨entry, hMem, rfl⟩),
          (ih entry hMem).1⟩
      · apply equalEntries_of_mem hMap.distinct
        · intro entry hMem
          obtain ⟨source, hSource, rfl⟩ := List.mem_map.mp (hPerm.mem_iff.mp hMem)
          exact hHashed source hSource
        · intro entry hMem
          obtain ⟨source, hSource, rfl⟩ := List.mem_map.mp (hPerm.mem_iff.mp hMem)
          exact ⟨source.2, hSource, (ih source hSource).2⟩
  | tag _ ih =>
      rw [sorted, equal, equal]
      simpa using ih

/-- What `cbor_encode` writes, `cbor_decode_exact` reads, as the value with its
dictionaries sorted. -/
theorem decode_cborEncode {octets : Bytes} (hValue : WellFormed value)
    (hEncoded : cborEncode value = .ok octets) : cborDecodeExact octets = .ok (sorted value) := by
  obtain ⟨hEncodable, rfl⟩ := cborEncode_eq_ok.mp hEncoded
  exact cborDecodeExact_eq_ok.mpr ⟨readable_sorted hValue hEncodable, rfl⟩

/-- The round trip: what is read equals the value encoded, the same one with its
dictionaries sorted; it has the same encoding, and so have no values but those
that sort alike. -/
theorem cborDecodeExact_cborEncode (value : Item) (octets : Bytes) (hValue : WellFormed value)
    (hEncoded : cborEncode value = .ok octets) :
    cborDecodeExact octets = .ok (sorted value) ∧
      (equal value (sorted value) = true ∧ equal (sorted value) value = true) ∧
      cborEncode (sorted value) = .ok octets ∧
      ∀ other, WellFormed other → cborEncode other = .ok octets → sorted other = sorted value := by
  have hDecoded := decode_cborEncode hValue hEncoded
  obtain ⟨hReadable, rfl⟩ := cborDecodeExact_eq_ok.mp hDecoded
  refine ⟨hDecoded, equal_sorted hValue, hReadable.cborEncode_eq, fun other hOther hSame => ?_⟩
  exact Except.ok.inj ((decode_cborEncode hOther hSame).symm.trans hDecoded)

/-- A dictionary that is not in order is read back in order, and equals itself all the
same. -/
theorem cborDecodeExact_cborEncode_unsorted : ∃ octets,
    cborEncode (.map [(.text "b", .int 1), (.text "a", .null)]) = .ok octets ∧
      cborDecodeExact octets = .ok (sorted (.map [(.text "b", .int 1), (.text "a", .null)])) := by
  have hValue : WellFormed (.map [(.text "b", .int 1), (.text "a", .null)]) :=
    .map (by decide) (by decide) (by simp [WellFormed.int, WellFormed.null])
  have hEncodable : (Item.map [(.text "b", .int 1), (.text "a", .null)]).Encodable :=
    .map (by decide)
      (List.forall_mem_cons.mpr ⟨.text (by decide), List.forall_mem_singleton.mpr (.text (by decide))⟩)
      (List.forall_mem_cons.mpr ⟨.int (by decide) (by decide), List.forall_mem_singleton.mpr .null⟩)
  have hEncoded := cborEncode_eq_ok.mpr ⟨hEncodable, rfl⟩
  exact ⟨_, hEncoded, (cborDecodeExact_cborEncode _ _ hValue hEncoded).1⟩

end Tfws.Vectors
