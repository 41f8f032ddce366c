import Tfws.Vectors.Encoding

/-! The generator's decoder reads nothing but canonical encodings. -/
namespace Tfws.Vectors

open Fallible Cbor Sorting

/-- The values that the decoder can return: no floats, and dictionaries with their
keys in order and different. -/
inductive Readable : Item → Prop where
  | null : Readable .null
  | bool {value : Bool} : Readable (.bool value)
  | int {value : Int} (lower : -18446744073709551616 ≤ value)
      (upper : value < 18446744073709551616) : Readable (.int value)
  | text {text : String} (short : (Utf8.encode text).length < 18446744073709551616) :
      Readable (.text text)
  | bytes {octets : Bytes} (short : octets.length < 18446744073709551616) :
      Readable (.bytes octets)
  | array {items : List Item} (short : items.length < 18446744073709551616)
      (members : ∀ item ∈ items, Readable item) : Readable (.array items)
  | map {entries : Dict} (short : entries.length < 18446744073709551616)
      (ascending : Ascending lengthFirst (fun entry : Item × Item => entry.1.encode) entries)
      (hashed : ∀ entry ∈ entries, hashable entry.1 = true)
      (distinct : entries.Pairwise fun first second => equal first.1 second.1 = false)
      (keys : ∀ entry ∈ entries, Readable entry.1) (values : ∀ entry ∈ entries, Readable entry.2) :
      Readable (.map entries)
  | tag {number : Nat} {value : Item} (short : number < 18446744073709551616)
      (content : Readable value) : Readable (.tag number value)

/-- A readable value has an encoding, since all its lengths fit a head. -/
theorem Readable.encodable {value : Item} (h : Readable value) : value.Encodable := by
  induction h with
  | null => exact .null
  | bool => exact .bool
  | int hLower hUpper => exact .int hLower hUpper
  | text hShort => exact .text hShort
  | bytes hShort => exact .bytes hShort
  | array hShort _ ih => exact .array hShort ih
  | map hShort _ _ _ _ _ ihKeys ihValues => exact .map hShort ihKeys ihValues
  | tag hShort _ ih => exact .tag hShort ih

/-- A readable value is one that Python can hold: its keys have hashes and differ. -/
theorem Readable.wellFormed {value : Item} (h : Readable value) : WellFormed value := by
  induction h with
  | null => exact .null
  | bool => exact .bool
  | int => exact .int
  | text => exact .text
  | bytes => exact .bytes
  | array _ _ ih => exact .array ih
  | map _ _ hHashed hDistinct _ _ _ ihValues => exact .map hHashed hDistinct ihValues
  | tag _ _ ih => exact .tag ih

/-- Sorting leaves what is in order already, at every depth. -/
theorem Readable.sorted {value : Item} (h : Readable value) : sorted value = value := by
  induction h with
  | null | bool | int | text | bytes => rw [Vectors.sorted]
  | @array items _ _ ih =>
      rw [Vectors.sorted, sortedMembers_eq_map, List.map_congr_left ih, List.map_id']
  | @map entries _ hAscending _ _ _ _ ihKeys ihValues =>
      have hSame : entries.map sortedEntry = entries := by
        rw [List.map_congr_left (g := id), List.map_id]
        intro entry hMem
        exact Prod.ext (ihKeys entry hMem) (ihValues entry hMem)
      rw [Vectors.sorted, sortedEntries_eq_map, hSame]
      congr 1
      exact ((ascending_iff_eq_sortBy hAscending.distinct (List.Perm.refl _)).mp hAscending).symm
  | tag _ _ ih => rw [Vectors.sorted, ih]

theorem read_eq_ok {count : Nat} {data octets rest : Bytes} :
    read count data = .ok (octets, rest) ↔ octets.length = count ∧ data = octets ++ rest := by
  rw [read, then_eq_ok, failIf_eq_ok, Except.ok.injEq, Prod.mk.injEq]
  constructor
  · intro h
    obtain ⟨hLong, rfl, rfl⟩ := h
    exact ⟨List.length_take_of_le (not_lt.mp hLong), (List.take_append_drop count data).symm⟩
  · intro h
    obtain ⟨rfl, rfl⟩ := h
    simp

theorem wideArgument_eq_ok {width largest n : Nat} {data rest : Bytes} :
    wideArgument width largest data = .ok (n, rest) ↔
      largest < n ∧ n < 256 ^ width ∧ data = bigEndian width n ++ rest := by
  simp only [wideArgument, bind_eq_ok, Prod.exists, read_eq_ok, failIf_eq_ok, not_le,
    Except.ok.injEq, Prod.mk.injEq]
  constructor
  · intro h
    obtain ⟨octets, _, ⟨rfl, rfl⟩, _, hLarge, rfl, rfl⟩ := h
    exact ⟨hLarge, ofBigEndian_lt octets, by rw [bigEndian_ofBigEndian]⟩
  · intro h
    obtain ⟨hLarge, hFits, rfl⟩ := h
    refine ⟨bigEndian width n, rest, ⟨length_bigEndian width n, rfl⟩, (), ?_, ?_, rfl⟩
    · rwa [ofBigEndian_bigEndian hFits]
    · exact ofBigEndian_bigEndian hFits

/-- An argument is read exactly when it stands there in its preferred form. -/
theorem argument_eq_ok {additional n : Nat} {data rest : Bytes} :
    argument additional data = .ok (n, rest) ↔ n < 18446744073709551616 ∧
      (preferred n).additional n = additional ∧
      data = bigEndian (preferred n).width n ++ rest := by
  constructor
  · intro h
    unfold argument at h
    split_ifs at h with hInline hOne hTwo hFour hEight
    · obtain ⟨rfl, rfl⟩ := Prod.mk.inj (Except.ok.inj h)
      have hForm : preferred additional = .inline := if_pos hInline
      exact ⟨by omega, by rw [hForm]; rfl, by rw [hForm]; rfl⟩
    all_goals
      obtain ⟨hLarge, hFits, hData⟩ := wideArgument_eq_ok.mp h
      subst additional
    · have hForm : preferred n = .one := by
        unfold preferred
        split_ifs <;> first | rfl | omega
      exact ⟨by omega, by rw [hForm]; rfl, by rw [hForm]; exact hData⟩
    · have hForm : preferred n = .two := by
        unfold preferred
        split_ifs <;> first | rfl | omega
      exact ⟨by omega, by rw [hForm]; rfl, by rw [hForm]; exact hData⟩
    · have hForm : preferred n = .four := by
        unfold preferred
        split_ifs <;> first | rfl | omega
      exact ⟨by omega, by rw [hForm]; rfl, by rw [hForm]; exact hData⟩
    · have hForm : preferred n = .eight := by
        unfold preferred
        split_ifs <;> first | rfl | omega
      exact ⟨by omega, by rw [hForm]; rfl, by rw [hForm]; exact hData⟩
  · intro h
    obtain ⟨hShort, hAdditional, hData⟩ := h
    unfold preferred at hAdditional hData
    split_ifs at hAdditional hData <;> subst hAdditional hData
    · exact if_pos ‹_›
    · exact wideArgument_eq_ok.mpr ⟨by omega, by omega, rfl⟩
    · exact wideArgument_eq_ok.mpr ⟨by omega, by omega, rfl⟩
    · exact wideArgument_eq_ok.mpr ⟨by omega, by omega, rfl⟩
    · exact wideArgument_eq_ok.mpr ⟨by omega, by omega, rfl⟩

/-- The octet of a major type with the argument it announces is the beginning of a
head. -/
theorem cons_eq_head {initial : UInt8} {major n : Nat} (hMajor : initial.toNat / 32 = major)
    (hAdditional : (preferred n).additional n = initial.toNat % 32) (rest : Bytes) :
    initial :: (bigEndian (preferred n).width n ++ rest) = Cbor.head major n ++ rest := by
  rw [Cbor.head, Form.head, hAdditional, ← hMajor, initial_eq, List.cons_append]

variable {decodeItem : Bytes → Result (Item × Bytes)} {data rest : Bytes} {initial : UInt8}
  {value : Item} {major : Nat}

/-- Whatever a reader of members reads was written: what it returns is readable, and
the octets are its encoding. -/
def Sound (decodeItem : Bytes → Result (Item × Bytes)) : Prop :=
  ∀ data value rest, decodeItem data = .ok (value, rest) →
    Readable value ∧ data = value.encode ++ rest

/-- Whatever is read as an integer was encoded so, in the preferred form. -/
theorem decodeInteger_sound (hMajor : initial.toNat / 32 = major) (hSmall : major ≤ 1)
    (h : decodeInteger major (initial.toNat % 32) data = .ok (value, rest)) :
    Readable value ∧ initial :: data = value.encode ++ rest := by
  obtain ⟨⟨n, rest'⟩, hArgument, hNext⟩ := bind_eq_ok.mp h
  obtain ⟨hFits, hAdditional, rfl⟩ := argument_eq_ok.mp hArgument
  obtain ⟨rfl, rfl⟩ := Prod.mk.inj (Except.ok.inj hNext)
  rw [cons_eq_head hMajor hAdditional]
  obtain rfl | rfl : major = 0 ∨ major = 1 := by omega
  · exact ⟨.int (by rw [if_pos rfl]; omega) (by rw [if_pos rfl]; omega), by
      rw [if_pos rfl, Item.encode, if_pos (by omega), Int.toNat_natCast]⟩
  · have hBack : (-1 - (-1 - (n : Int))).toNat = n := by omega
    exact ⟨.int (by rw [if_neg one_ne_zero]; omega) (by rw [if_neg one_ne_zero]; omega), by
      rw [if_neg one_ne_zero, Item.encode, if_neg (by omega), hBack]⟩

theorem decodeString_sound (hMajor : initial.toNat / 32 = major) (hString : major = 2 ∨ major = 3)
    (h : decodeString major (initial.toNat % 32) data = .ok (value, rest)) :
    Readable value ∧ initial :: data = value.encode ++ rest := by
  obtain ⟨⟨n, rest'⟩, hArgument, hNext⟩ := bind_eq_ok.mp h
  obtain ⟨⟨raw, rest''⟩, hRead, hThen⟩ := bind_eq_ok.mp hNext
  obtain ⟨hFits, hAdditional, rfl⟩ := argument_eq_ok.mp hArgument
  obtain ⟨rfl, rfl⟩ := read_eq_ok.mp hRead
  rw [cons_eq_head hMajor hAdditional]
  dsimp only at hThen
  split_ifs at hThen with hBytes
  · obtain ⟨rfl, rfl⟩ := Prod.mk.inj (Except.ok.inj hThen)
    rw [hBytes, Item.encode_bytes, List.append_assoc]
    exact ⟨.bytes hFits, rfl⟩
  · split at hThen
    · rename_i text hText
      obtain ⟨rfl, rfl⟩ := Prod.mk.inj (Except.ok.inj hThen)
      have hRaw := Utf8.decode_eq_some.mp hText
      subst hRaw
      rw [hString.resolve_left hBytes, Item.encode, List.append_assoc]
      exact ⟨.text hFits, rfl⟩
    · cases hThen

/-- Whatever is read as the members of an array was encoded so, by induction on their
number. -/
theorem decodeMembers_sound (hItem : Sound decodeItem) {count : Nat} {items : List Item}
    (h : decodeMembers decodeItem count data = .ok (items, rest)) :
    items.length = count ∧ (∀ item ∈ items, Readable item) ∧
      data = Item.encodeItems items ++ rest := by
  induction count generalizing data items with
  | zero =>
      obtain ⟨rfl, rfl⟩ := Prod.mk.inj (Except.ok.inj h)
      exact ⟨rfl, List.forall_mem_nil _, rfl⟩
  | succ count ih =>
      obtain ⟨⟨item, rest'⟩, hFirst, hNext⟩ := bind_eq_ok.mp h
      obtain ⟨⟨others, rest''⟩, hOthers, hThen⟩ := bind_eq_ok.mp hNext
      obtain ⟨rfl, rfl⟩ := Prod.mk.inj (Except.ok.inj hThen)
      obtain ⟨hReadable, rfl⟩ := hItem _ _ _ hFirst
      obtain ⟨hLength, hMembers, rfl⟩ := ih hOthers
      refine ⟨by rw [List.length_cons, hLength], List.forall_mem_cons.mpr ⟨hReadable, hMembers⟩, ?_⟩
      rw [Item.encodeItems, List.append_assoc]

theorem decodeArray_sound (hItem : Sound decodeItem) (hMajor : initial.toNat / 32 = 4)
    (h : decodeArray decodeItem (initial.toNat % 32) data = .ok (value, rest)) :
    Readable value ∧ initial :: data = value.encode ++ rest := by
  obtain ⟨⟨n, rest'⟩, hArgument, hNext⟩ := bind_eq_ok.mp h
  obtain ⟨⟨items, rest''⟩, hMembers, hThen⟩ := bind_eq_ok.mp hNext
  obtain ⟨hFits, hAdditional, rfl⟩ := argument_eq_ok.mp hArgument
  obtain ⟨rfl, rfl⟩ := Prod.mk.inj (Except.ok.inj hThen)
  obtain ⟨rfl, hReadable, rfl⟩ := decodeMembers_sound hItem hMembers
  rw [cons_eq_head hMajor hAdditional, Item.encode, List.append_assoc]
  exact ⟨.array hFits hReadable, rfl⟩

/-- The invariant of the loop over the pairs of a map. -/
structure PairsRead (result : Dict) (previous : Option Bytes) : Prop where
  ascending : Ascending lengthFirst (fun entry : Item × Item => entry.1.encode) result
  previous : ∀ entry ∈ result, ∃ last ∈ previous, (lengthFirst entry.1.encode last).isLE
  hashed : ∀ entry ∈ result, hashable entry.1 = true
  distinct : result.Pairwise fun first second => equal first.1 second.1 = false
  keys : ∀ entry ∈ result, Readable entry.1
  values : ∀ entry ∈ result, Readable entry.2

/-- A key passes the checks exactly when it is above the one before it, has a hash,
and equals none of those before it. -/
theorem checkKey_eq_ok {result : Dict} {previous : Option Bytes} {key : Item} {keyBytes : Bytes} :
    checkKey result previous key keyBytes = .ok () ↔
      (∀ last ∈ previous, lengthFirst last keyBytes = .lt) ∧ hashable key = true ∧
        ∀ entry ∈ result, equal entry.1 key = false := by
  unfold checkKey
  split_ifs with hOrder
  · constructor
    · intro h
      obtain ⟨seen, -, h⟩ := bind_eq_ok.mp h
      obtain ⟨-, h⟩ := then_eq_ok.mp h
      cases h
    · intro h
      obtain ⟨last, hLast, hNot⟩ := hOrder
      exact absurd (h.1 last hLast) hNot
  · have hAbove : ∀ last ∈ previous, lengthFirst last keyBytes = .lt := by
      simpa using hOrder
    simp only [bind_eq_ok, contains_eq_ok, failIf_eq_ok]
    constructor
    · intro h
      obtain ⟨seen, ⟨hHash, rfl⟩, hFresh⟩ := h
      exact ⟨hAbove, hHash, by simpa using hFresh⟩
    · intro h
      exact ⟨_, ⟨h.2.1, rfl⟩, by simpa using h.2.2⟩

/-- One more entry, behind the last key and different from all of them. -/
theorem PairsRead.append {result : Dict} {previous : Option Bytes} {key value : Item}
    (h : PairsRead result previous)
    (hCheck : checkKey result previous key key.encode = .ok ()) (hKey : Readable key)
    (hValue : Readable value) :
    PairsRead (result ++ [(key, value)]) (some key.encode) := by
  obtain ⟨hAbove, hHash, hFresh⟩ := checkKey_eq_ok.mp hCheck
  have hBelow (entry) (hMem : entry ∈ result) :
      lengthFirst entry.1.encode key.encode = .lt := by
    obtain ⟨last, hLast, hLe⟩ := h.previous entry hMem
    exact Std.TransCmp.lt_of_isLE_of_lt hLe (hAbove last hLast)
  constructor
  · apply List.pairwise_append.mpr
    refine ⟨h.ascending, List.pairwise_singleton _ _, fun entry hMem other hOther => ?_⟩
    rw [List.mem_singleton.mp hOther]
    exact hBelow entry hMem
  · intro entry hMem
    refine ⟨key.encode, rfl, ?_⟩
    obtain hMem | hMem := List.mem_append.mp hMem
    · rw [hBelow entry hMem]
      rfl
    · rw [List.mem_singleton.mp hMem]
      exact Std.ReflCmp.isLE_rfl
  · exact List.forall_mem_append.mpr ⟨h.hashed, List.forall_mem_singleton.mpr hHash⟩
  · apply List.pairwise_append.mpr
    refine ⟨h.distinct, List.pairwise_singleton _ _, fun entry hMem other hOther => ?_⟩
    rw [List.mem_singleton.mp hOther]
    exact hFresh entry hMem
  · exact List.forall_mem_append.mpr ⟨h.keys, List.forall_mem_singleton.mpr hKey⟩
  · exact List.forall_mem_append.mpr ⟨h.values, List.forall_mem_singleton.mpr hValue⟩

/-- Whatever is read as the entries of a map was encoded so, by induction on their
number. -/
theorem decodePairs_sound (hItem : Sound decodeItem) {count : Nat} {result entries : Dict}
    {previous : Option Bytes} (hResult : PairsRead result previous)
    (h : decodePairs decodeItem count result previous data = .ok (entries, rest)) :
    ∃ added last, entries = result ++ added ∧ added.length = count ∧ PairsRead entries last ∧
      data = Item.encodeEntries added ++ rest := by
  induction count generalizing data result previous with
  | zero =>
      obtain ⟨rfl, rfl⟩ := Prod.mk.inj (Except.ok.inj h)
      exact ⟨[], previous, (List.append_nil _).symm, rfl, hResult, rfl⟩
  | succ count ih =>
      obtain ⟨⟨key, rest'⟩, hKey, hNext⟩ := bind_eq_ok.mp h
      obtain ⟨_, hCheck, hThen⟩ := bind_eq_ok.mp hNext
      obtain ⟨⟨value, rest''⟩, hValue, hLast⟩ := bind_eq_ok.mp hThen
      obtain ⟨hReadable, rfl⟩ := hItem _ _ _ hKey
      obtain ⟨hValueReadable, rfl⟩ := hItem _ _ _ hValue
      have hKeyBytes (tail : Bytes) : (key.encode ++ tail).take
          ((key.encode ++ tail).length - tail.length) = key.encode :=
        List.take_left' (by simp)
      dsimp only at hCheck hLast
      rw [hKeyBytes] at hCheck hLast
      obtain ⟨added, last, rfl, hLength, hPairs, rfl⟩ :=
        ih (hResult.append hCheck hReadable hValueReadable) hLast
      refine ⟨(key, value) :: added, last, by simp, by simpa using hLength, hPairs, ?_⟩
      rw [Item.encodeEntries, List.append_assoc, List.append_assoc]

theorem decodeMap_sound (hItem : Sound decodeItem) (hMajor : initial.toNat / 32 = 5)
    (h : decodeMap decodeItem (initial.toNat % 32) data = .ok (value, rest)) :
    Readable value ∧ initial :: data = value.encode ++ rest := by
  obtain ⟨⟨n, rest'⟩, hArgument, hNext⟩ := bind_eq_ok.mp h
  obtain ⟨⟨entries, rest''⟩, hPairs, hThen⟩ := bind_eq_ok.mp hNext
  obtain ⟨hFits, hAdditional, rfl⟩ := argument_eq_ok.mp hArgument
  obtain ⟨rfl, rfl⟩ := Prod.mk.inj (Except.ok.inj hThen)
  have hEmpty : PairsRead [] none :=
    ⟨List.Pairwise.nil, by simp, by simp, List.Pairwise.nil, by simp, by simp⟩
  obtain ⟨added, last, hAdded, rfl, hRead, rfl⟩ := decodePairs_sound hItem hEmpty hPairs
  obtain rfl : entries = added := by simpa using hAdded
  rw [cons_eq_head hMajor hAdditional, Item.encode_map, List.append_assoc]
  exact ⟨.map hFits hRead.ascending hRead.hashed hRead.distinct hRead.keys hRead.values, rfl⟩

theorem decodeTag_sound (hItem : Sound decodeItem) (hMajor : initial.toNat / 32 = 6)
    (h : decodeTag decodeItem (initial.toNat % 32) data = .ok (value, rest)) :
    Readable value ∧ initial :: data = value.encode ++ rest := by
  obtain ⟨⟨n, rest'⟩, hArgument, hNext⟩ := bind_eq_ok.mp h
  obtain ⟨⟨content, rest''⟩, hContent, hThen⟩ := bind_eq_ok.mp hNext
  obtain ⟨hFits, hAdditional, rfl⟩ := argument_eq_ok.mp hArgument
  obtain ⟨rfl, rfl⟩ := Prod.mk.inj (Except.ok.inj hThen)
  obtain ⟨hReadable, rfl⟩ := hItem _ _ _ hContent
  rw [cons_eq_head hMajor hAdditional, Item.encode, List.append_assoc]
  exact ⟨.tag hFits hReadable, rfl⟩

theorem decodeSimple_sound (hMajor : initial.toNat / 32 = 7)
    (h : decodeSimple (initial.toNat % 32) data = .ok (value, rest)) :
    Readable value ∧ initial :: data = value.encode ++ rest := by
  have hHead {n : Nat} (hSmall : n < 24) (hAdditional : initial.toNat % 32 = n) :
      initial :: data = Cbor.head 7 n ++ data := by
    have hForm : preferred n = .inline := if_pos hSmall
    have hCons := cons_eq_head hMajor (by rw [hForm, hAdditional]; rfl) data
    rwa [hForm] at hCons
  unfold decodeSimple at h
  split_ifs at h with hFalse hTrue hNull
  · obtain ⟨rfl, rfl⟩ := Prod.mk.inj (Except.ok.inj h)
    exact ⟨.bool, hHead (n := 20) (by omega) hFalse⟩
  · obtain ⟨rfl, rfl⟩ := Prod.mk.inj (Except.ok.inj h)
    exact ⟨.bool, hHead (n := 21) (by omega) hTrue⟩
  · obtain ⟨rfl, rfl⟩ := Prod.mk.inj (Except.ok.inj h)
    exact ⟨.null, hHead (n := 22) (by omega) hNull⟩

/-- Whatever the decoder reads is readable and stood there in its encoding, by
induction on the levels that are left. -/
theorem decodeItem_sound (levels : Nat) : Sound (Vectors.decodeItem levels) := by
  induction levels with
  | zero =>
      intro data value rest h
      rw [Vectors.decodeItem] at h
      · cases h
      · intro _ _ _ hLevels
        cases hLevels
  | succ levels ih =>
      intro data value rest h
      cases data with
      | nil =>
          rw [Vectors.decodeItem] at h
          · cases h
          · intro _ _ _ _ hData
            cases hData
      | cons initial data =>
          rw [Vectors.decodeItem] at h
          have hLt := initial.toNat_lt
          match hMajor : initial.toNat / 32 with
          | 0 => rw [hMajor] at h; exact decodeInteger_sound hMajor (by omega) h
          | 1 => rw [hMajor] at h; exact decodeInteger_sound hMajor (by omega) h
          | 2 => rw [hMajor] at h; exact decodeString_sound hMajor (Or.inl rfl) h
          | 3 => rw [hMajor] at h; exact decodeString_sound hMajor (Or.inr rfl) h
          | 4 => rw [hMajor] at h; exact decodeArray_sound ih hMajor h
          | 5 => rw [hMajor] at h; exact decodeMap_sound ih hMajor h
          | 6 => rw [hMajor] at h; exact decodeTag_sound ih hMajor h
          | 7 => rw [hMajor] at h; exact decodeSimple_sound hMajor h
          | _ + 8 => omega

end Tfws.Vectors
