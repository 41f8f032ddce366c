import Tfws.Cbor.Cut
import Tfws.Vectors.Decoding

/-! The generator's decoder is exact: every canonical encoding is read back,
and where one breaks off that is what is reported. -/
namespace Tfws.Vectors

open Fallible Cbor Sorting

variable {decodeItem : Bytes → Result (Item × Bytes)} {data rest : Bytes} {value : Item}
  {major : Nat}

/-- The error for data that break off, wherever they do. -/
def truncated : Failure := malformed "truncated CBOR"

theorem read_of_short {count : Nat} {data : Bytes} (h : data.length < count) :
    read count data = .error truncated := by
  rw [read, failIf_of h]
  rfl

theorem wideArgument_of_short {width largest : Nat} {data : Bytes} (h : data.length < width) :
    wideArgument width largest data = .error truncated := by
  rw [wideArgument, read_of_short h]
  rfl

/-- The argument of a head that breaks off is not read. -/
theorem argument_cut {n : Nat} {part : Bytes} (h : Cut part (bigEndian (preferred n).width n)) :
    argument ((preferred n).additional n) part = .error truncated := by
  have hShort := h.length_lt
  rw [length_bigEndian] at hShort
  cases hForm : preferred n with
  | inline =>
      rw [hForm] at hShort
      exact absurd hShort (Nat.not_lt_zero _)
  | one | two | four | eight =>
      rw [hForm] at hShort
      exact wideArgument_of_short hShort

theorem argument_preferred {n : Nat} (h : n < 18446744073709551616) (rest : Bytes) :
    argument ((preferred n).additional n) (bigEndian (preferred n).width n ++ rest) =
      .ok (n, rest) :=
  argument_eq_ok.mpr ⟨h, rfl, rfl⟩

theorem decodeItem_cons {levels : Nat} (initial : UInt8) (data : Bytes) :
    Vectors.decodeItem (levels + 1) (initial :: data) =
      decodeMajor (Vectors.decodeItem levels) (initial.toNat / 32) (initial.toNat % 32) data := by
  rw [Vectors.decodeItem]

theorem decodeItem_nil (levels : Nat) : Vectors.decodeItem levels [] = .error truncated := by
  rw [Vectors.decodeItem]
  · rfl
  · intro _ _ _ _ hData
    cases hData

theorem decodeItem_head {levels major n : Nat} (hMajor : major < 8)
    (hArgument : n < 18446744073709551616) (data : Bytes) :
    Vectors.decodeItem (levels + 1)
        (UInt8.ofNat (32 * major + (preferred n).additional n) :: data) =
      decodeMajor (Vectors.decodeItem levels) major ((preferred n).additional n) data := by
  have hAdditional := (fits_preferred hArgument).additional_lt.trans (by decide : 28 < 32)
  rw [decodeItem_cons, initial_div hMajor hAdditional, initial_mod major hAdditional]

/-- The six branches that read an argument stop where it breaks off. -/
theorem decodeMajor_short {additional : Nat} {part : Bytes} (hMajor : major < 7)
    (h : argument additional part = .error truncated) :
    decodeMajor decodeItem major additional part = .error truncated := by
  match major, hMajor with
  | 0, _ | 1, _ => rw [decodeMajor, decodeInteger, h, error_bind]
  | 2, _ | 3, _ => rw [decodeMajor, decodeString, h, error_bind]
  | 4, _ => rw [decodeMajor, decodeArray, h, error_bind]
  | 5, _ => rw [decodeMajor, decodeMap, h, error_bind]
  | 6, _ => rw [decodeMajor, decodeTag, h, error_bind]

/-- With octets enough for so many levels, a value is read back whatever comes
behind it, and no part of it is taken for a value. -/
structure ReadsBack (levels : Nat) (decodeItem : Bytes → Result (Item × Bytes)) (value : Item) :
    Prop where
  whole : ∀ rest, (value.encode ++ rest).length ≤ levels →
    decodeItem (value.encode ++ rest) = .ok (value, rest)
  cut : ∀ part, Cut part value.encode → part.length ≤ levels → decodeItem part = .error truncated

/-- The value of a head is read back when the branch of its major type reads back what
follows the head. -/
theorem readsBack_head {levels n : Nat} {content : Bytes} (hMajor : major < 7)
    (hArgument : n < 18446744073709551616) (hEncode : value.encode = Cbor.head major n ++ content)
    (hWhole : ∀ levels rest, (content ++ rest).length ≤ levels →
      decodeMajor (Vectors.decodeItem levels) major ((preferred n).additional n)
        (bigEndian (preferred n).width n ++ (content ++ rest)) = .ok (value, rest))
    (hCut : ∀ levels part, Cut part content → part.length ≤ levels →
      decodeMajor (Vectors.decodeItem levels) major ((preferred n).additional n)
        (bigEndian (preferred n).width n ++ part) = .error truncated) :
    ReadsBack levels (Vectors.decodeItem levels) value := by
  have hStart (tail : Bytes) : Cbor.head major n ++ tail =
      UInt8.ofNat (32 * major + (preferred n).additional n) ::
        (bigEndian (preferred n).width n ++ tail) := by
    rw [Cbor.head, Form.head, List.cons_append]
  have hLevels {tail : Bytes} (h : (Cbor.head major n ++ tail).length ≤ levels) :
      ∃ deeper, levels = deeper + 1 ∧ tail.length ≤ deeper := by
    rw [hStart, List.length_cons, List.length_append] at h
    exact ⟨levels - 1, by omega, by omega⟩
  constructor
  · intro rest hLong
    rw [hEncode, List.append_assoc] at hLong ⊢
    obtain ⟨deeper, rfl, hRest⟩ := hLevels hLong
    rw [hStart, decodeItem_head (by omega) hArgument]
    exact hWhole deeper rest hRest
  · intro part hPart hLong
    rw [hEncode] at hPart
    obtain hPart | ⟨later, rfl, hLater⟩ := hPart.append
    · cases part with
      | nil => exact decodeItem_nil levels
      | cons initial part =>
          obtain ⟨missing, hMissing, hWhole⟩ := hPart
          rw [Cbor.head, Form.head, List.cons_append] at hWhole
          obtain ⟨rfl, hTail⟩ := List.cons.inj hWhole
          cases levels with
          | zero => exact absurd hLong (Nat.not_succ_le_zero _)
          | succ deeper =>
              rw [decodeItem_head (by omega) hArgument]
              exact decodeMajor_short hMajor (argument_cut ⟨missing, hMissing, hTail⟩)
    · obtain ⟨deeper, rfl, hRest⟩ := hLevels hLong
      rw [hStart, decodeItem_head (by omega) hArgument]
      exact hCut deeper later hLater hRest

/-- Members that are read back one by one are read back together. -/
theorem decodeMembers_whole {levels : Nat} {items : List Item}
    (hItems : ∀ item ∈ items, ReadsBack levels decodeItem item)
    (hLong : (Item.encodeItems items ++ rest).length ≤ levels) :
    decodeMembers decodeItem items.length (Item.encodeItems items ++ rest) =
      .ok (items, rest) := by
  induction items with
  | nil => rfl
  | cons item items ih =>
      obtain ⟨hItem, hItems⟩ := List.forall_mem_cons.mp hItems
      rw [Item.encodeItems, List.append_assoc] at hLong ⊢
      rw [List.length_cons, decodeMembers, hItem.whole _ hLong, ok_bind]
      rw [List.length_append] at hLong
      dsimp only
      rw [ih hItems (by omega), ok_bind]

/-- Where the members break off, so does one of them, and that is reported. -/
theorem decodeMembers_cut {levels : Nat} {items : List Item} {part : Bytes}
    (hItems : ∀ item ∈ items, ReadsBack levels decodeItem item)
    (hPart : Cut part (Item.encodeItems items)) (hLong : part.length ≤ levels) :
    decodeMembers decodeItem items.length part = .error truncated := by
  induction items generalizing part with
  | nil => exact absurd hPart not_cut_nil
  | cons item items ih =>
      obtain ⟨hItem, hItems⟩ := List.forall_mem_cons.mp hItems
      rw [Item.encodeItems] at hPart
      rw [List.length_cons, decodeMembers]
      obtain hFirst | ⟨later, rfl, hLater⟩ := hPart.append
      · rw [hItem.cut part hFirst hLong, error_bind]
      · rw [hItem.whole later hLong, ok_bind]
        rw [List.length_append] at hLong
        dsimp only
        rw [ih hItems hLater (by omega), error_bind]

/-- The keys that come pass the checks against the pairs read so far. -/
structure PairsFit (result fields : Dict) (previous : Option Bytes) : Prop where
  ascending : Ascending lengthFirst (fun entry : Item × Item => entry.1.encode) fields
  above : ∀ field ∈ fields, ∀ last ∈ previous, lengthFirst last field.1.encode = .lt
  hashed : ∀ field ∈ fields, hashable field.1 = true
  distinct : (result ++ fields).Pairwise fun first second => equal first.1 second.1 = false

theorem PairsFit.check {result fields : Dict} {field : Item × Item} {previous : Option Bytes}
    (h : PairsFit result (field :: fields) previous) :
    checkKey result previous field.1 field.1.encode = .ok () := by
  have hFresh := (List.pairwise_append.mp h.distinct).2.2
  exact checkKey_eq_ok.mpr ⟨h.above field List.mem_cons_self, h.hashed field List.mem_cons_self,
    fun entry hMem => hFresh entry hMem field List.mem_cons_self⟩

/-- What is asked of the entries is asked of the rest of them behind the first. -/
theorem PairsFit.next {result fields : Dict} {field : Item × Item} {previous : Option Bytes}
    (h : PairsFit result (field :: fields) previous) :
    PairsFit (result ++ [field]) fields (some field.1.encode) := by
  obtain ⟨hBelow, hAscending⟩ := List.pairwise_cons.mp h.ascending
  refine ⟨hAscending, ?above, (List.forall_mem_cons.mp h.hashed).2, ?distinct⟩
  case above =>
    intro next hMem last hLast
    obtain rfl := Option.some.inj hLast
    exact hBelow next hMem
  case distinct =>
    rw [List.append_assoc]
    exact h.distinct

theorem take_key (key : Item) (tail : Bytes) :
    (key.encode ++ tail).take ((key.encode ++ tail).length - tail.length) = key.encode :=
  List.take_left' (by simp)

/-- Entries in order are read back together, if their keys and values are one by
one. -/
theorem decodePairs_whole {levels : Nat} {result fields : Dict} {previous : Option Bytes}
    (hKeys : ∀ field ∈ fields, ReadsBack levels decodeItem field.1)
    (hValues : ∀ field ∈ fields, ReadsBack levels decodeItem field.2)
    (hFit : PairsFit result fields previous)
    (hLong : (Item.encodeEntries fields ++ rest).length ≤ levels) :
    decodePairs decodeItem fields.length result previous (Item.encodeEntries fields ++ rest) =
      .ok (result ++ fields, rest) := by
  induction fields generalizing result previous with
  | nil => simp [decodePairs, Item.encodeEntries]
  | cons field fields ih =>
      obtain ⟨hKey, hKeys⟩ := List.forall_mem_cons.mp hKeys
      obtain ⟨hValue, hValues⟩ := List.forall_mem_cons.mp hValues
      rw [Item.encodeEntries, List.append_assoc, List.append_assoc] at hLong ⊢
      rw [List.length_cons, decodePairs, hKey.whole _ hLong, ok_bind]
      rw [List.length_append] at hLong
      have hValueLong : (field.2.encode ++ (Item.encodeEntries fields ++ rest)).length ≤ levels := by
        omega
      dsimp only
      rw [take_key, hFit.check, ok_bind, hValue.whole _ hValueLong, ok_bind]
      rw [List.length_append] at hValueLong
      have hNext := ih hKeys hValues hFit.next (by omega)
      rw [List.append_assoc] at hNext
      exact hNext

/-- Where the entries break off, a key or a value does, and that is reported. -/
theorem decodePairs_cut {levels : Nat} {result fields : Dict} {previous : Option Bytes}
    {part : Bytes} (hKeys : ∀ field ∈ fields, ReadsBack levels decodeItem field.1)
    (hValues : ∀ field ∈ fields, ReadsBack levels decodeItem field.2)
    (hFit : PairsFit result fields previous) (hPart : Cut part (Item.encodeEntries fields))
    (hLong : part.length ≤ levels) :
    decodePairs decodeItem fields.length result previous part = .error truncated := by
  induction fields generalizing result previous part with
  | nil => exact absurd hPart not_cut_nil
  | cons field fields ih =>
      obtain ⟨hKey, hKeys⟩ := List.forall_mem_cons.mp hKeys
      obtain ⟨hValue, hValues⟩ := List.forall_mem_cons.mp hValues
      rw [Item.encodeEntries, List.append_assoc] at hPart
      rw [List.length_cons, decodePairs]
      obtain hInKey | ⟨later, rfl, hLater⟩ := hPart.append
      · rw [hKey.cut part hInKey hLong, error_bind]
      · rw [hKey.whole later hLong, ok_bind]
        rw [List.length_append] at hLong
        have hLaterLong : later.length ≤ levels := by omega
        dsimp only
        rw [take_key, hFit.check, ok_bind]
        obtain hInValue | ⟨last, rfl, hLast⟩ := hLater.append
        · rw [hValue.cut later hInValue hLaterLong, error_bind]
        · rw [hValue.whole last hLaterLong, ok_bind]
          rw [List.length_append] at hLaterLong
          have hNext := ih hKeys hValues hFit.next hLast (show last.length ≤ levels by omega)
          exact hNext

theorem argument_content {n : Nat} (h : n < 18446744073709551616) (content rest : Bytes) :
    argument ((preferred n).additional n) (bigEndian (preferred n).width n ++ (content ++ rest)) =
      .ok (n, content ++ rest) :=
  argument_preferred h _

theorem read_append (octets rest : Bytes) : read octets.length (octets ++ rest) = .ok (octets, rest) :=
  read_eq_ok.mpr ⟨rfl, rfl⟩

/-- An item without content is read back from its one octet. -/
theorem simple_readsBack {levels n : Nat} (hSmall : n < 24) (hEncode : value.encode = Cbor.head 7 n)
    (hBranch : ∀ data, decodeSimple n data = .ok (value, data)) :
    ReadsBack levels (Vectors.decodeItem levels) value := by
  have hForm : preferred n = .inline := if_pos hSmall
  have hArgument : n < 18446744073709551616 := by omega
  have hWhole (levels : Nat) (data : Bytes) :
      decodeMajor (Vectors.decodeItem levels) 7 ((preferred n).additional n)
        (bigEndian (preferred n).width n ++ data) = .ok (value, data) := by
    rw [hForm, decodeMajor]
    exact hBranch data
    all_goals simp
  constructor
  · intro rest hLong
    rw [hEncode, Cbor.head, Form.head, List.cons_append] at hLong ⊢
    cases levels with
    | zero => exact absurd hLong (Nat.not_succ_le_zero _)
    | succ deeper =>
        rw [decodeItem_head (by decide) hArgument]
        exact hWhole deeper rest
  · intro part hPart hLong
    have hShort := hPart.length_lt
    rw [hEncode, Cbor.head, Form.head, hForm] at hShort
    have hEmpty : part = [] := List.length_eq_zero_iff.mp (Nat.lt_one_iff.mp hShort)
    rw [hEmpty]
    exact decodeItem_nil levels

/-- An integer is read back from its head, whichever sign it has, and a cut through
the head is noticed. -/
theorem int_readsBack {levels : Nat} {value : Int} (hLower : -18446744073709551616 ≤ value)
    (hUpper : value < 18446744073709551616) :
    ReadsBack levels (Vectors.decodeItem levels) (.int value) := by
  by_cases hSign : 0 ≤ value
  · have hArgument : value.toNat < 18446744073709551616 := by omega
    have hEncode : (Item.int value).encode = Cbor.head 0 value.toNat ++ [] := by
      rw [Item.encode, if_pos hSign, List.append_nil]
    apply readsBack_head (by decide) hArgument hEncode
    case hCut => exact fun _ _ hPart => absurd hPart not_cut_nil
    case hWhole =>
      intro _ rest _
      rw [decodeMajor, decodeInteger, argument_content hArgument, ok_bind]
      dsimp only
      rw [if_pos rfl, Int.toNat_of_nonneg hSign, List.nil_append]
  · have hArgument : (-1 - value).toNat < 18446744073709551616 := by omega
    have hBack : -1 - ((-1 - value).toNat : Int) = value := by omega
    have hEncode : (Item.int value).encode = Cbor.head 1 (-1 - value).toNat ++ [] := by
      rw [Item.encode, if_neg hSign, List.append_nil]
    apply readsBack_head (by decide) hArgument hEncode
    case hCut => exact fun _ _ hPart => absurd hPart not_cut_nil
    case hWhole =>
      intro _ rest _
      rw [decodeMajor, decodeInteger, argument_content hArgument, ok_bind]
      dsimp only
      rw [if_neg one_ne_zero, hBack, List.nil_append]

/-- A string is cut in its head or in its octets, which `read` then misses. -/
theorem string_readsBack {levels : Nat} {octets : Bytes} (hMajor : major = 2 ∨ major = 3)
    (hShort : octets.length < 18446744073709551616)
    (hEncode : value.encode = Cbor.head major octets.length ++ octets)
    (hValue : ∀ rest, decodeString major ((preferred octets.length).additional octets.length)
      (bigEndian (preferred octets.length).width octets.length ++ (octets ++ rest)) =
        .ok (value, rest)) :
    ReadsBack levels (Vectors.decodeItem levels) value := by
  have hBranch (decodeItem : Bytes → Result (Item × Bytes)) (additional : Nat) (data : Bytes) :
      decodeMajor decodeItem major additional data = decodeString major additional data := by
    obtain rfl | rfl := hMajor <;> rw [decodeMajor]
  apply readsBack_head (by omega) hShort hEncode
  case hWhole => exact fun _ rest _ => (hBranch _ _ _).trans (hValue rest)
  case hCut =>
    intro _ part hPart _
    rw [hBranch, decodeString, argument_preferred hShort, ok_bind]
    dsimp only
    rw [read_of_short hPart.length_lt, error_bind]

theorem text_readsBack {levels : Nat} {text : String}
    (hShort : (Utf8.encode text).length < 18446744073709551616) :
    ReadsBack levels (Vectors.decodeItem levels) (.text text) := by
  apply string_readsBack (Or.inr rfl) hShort (by rw [Item.encode])
  intro rest
  rw [decodeString, argument_content hShort, ok_bind]
  dsimp only
  rw [read_append, ok_bind]
  dsimp only
  rw [if_neg (by decide), Utf8.decode_encode]

theorem bytes_readsBack {levels : Nat} {octets : Bytes}
    (hShort : octets.length < 18446744073709551616) :
    ReadsBack levels (Vectors.decodeItem levels) (.bytes octets) := by
  apply string_readsBack (Or.inl rfl) hShort (Item.encode_bytes octets)
  intro rest
  rw [decodeString, argument_content hShort, ok_bind]
  dsimp only
  rw [read_append, ok_bind]
  dsimp only
  rw [if_pos rfl]

/-- An array is read back when its members are, at any level. -/
theorem array_readsBack {levels : Nat} {items : List Item}
    (hShort : items.length < 18446744073709551616)
    (hItems : ∀ item ∈ items, ∀ levels, ReadsBack levels (Vectors.decodeItem levels) item) :
    ReadsBack levels (Vectors.decodeItem levels) (.array items) := by
  have hEncode : (Item.array items).encode = Cbor.head 4 items.length ++ Item.encodeItems items := by
    rw [Item.encode]
  apply readsBack_head (by decide) hShort hEncode
  case hWhole =>
    intro levels rest hLong
    rw [decodeMajor, decodeArray, argument_content hShort, ok_bind]
    dsimp only
    rw [decodeMembers_whole (fun item hMem => hItems item hMem levels) hLong, ok_bind]
  case hCut =>
    intro levels part hPart hLong
    rw [decodeMajor, decodeArray, argument_preferred hShort, ok_bind]
    dsimp only
    rw [decodeMembers_cut (fun item hMem => hItems item hMem levels) hPart hLong, error_bind]

/-- A map is read back when its keys and values are, at any level. -/
theorem map_readsBack {levels : Nat} {entries : Dict}
    (hShort : entries.length < 18446744073709551616) (hFit : PairsFit [] entries none)
    (hKeys : ∀ field ∈ entries, ∀ levels, ReadsBack levels (Vectors.decodeItem levels) field.1)
    (hValues : ∀ field ∈ entries, ∀ levels, ReadsBack levels (Vectors.decodeItem levels) field.2) :
    ReadsBack levels (Vectors.decodeItem levels) (.map entries) := by
  apply readsBack_head (by decide) hShort (Item.encode_map entries)
  case hWhole =>
    intro levels rest hLong
    rw [decodeMajor, decodeMap, argument_content hShort, ok_bind]
    dsimp only
    rw [decodePairs_whole (fun field hMem => hKeys field hMem levels)
      (fun field hMem => hValues field hMem levels) hFit hLong, ok_bind]
    rfl
  case hCut =>
    intro levels part hPart hLong
    rw [decodeMajor, decodeMap, argument_preferred hShort, ok_bind]
    dsimp only
    rw [decodePairs_cut (fun field hMem => hKeys field hMem levels)
      (fun field hMem => hValues field hMem levels) hFit hPart hLong, error_bind]

/-- A tagged value is read back when the value is, and a cut through either part is
noticed. -/
theorem tag_readsBack {levels number : Nat} (hShort : number < 18446744073709551616)
    (hContent : ∀ levels, ReadsBack levels (Vectors.decodeItem levels) value) :
    ReadsBack levels (Vectors.decodeItem levels) (.tag number value) := by
  have hEncode : (Item.tag number value).encode = Cbor.head 6 number ++ value.encode := by
    rw [Item.encode]
  apply readsBack_head (by decide) hShort hEncode
  case hWhole =>
    intro levels rest hLong
    rw [decodeMajor, decodeTag, argument_content hShort, ok_bind]
    dsimp only
    rw [(hContent levels).whole rest hLong, ok_bind]
  case hCut =>
    intro levels part hPart hLong
    rw [decodeMajor, decodeTag, argument_preferred hShort, ok_bind]
    dsimp only
    rw [(hContent levels).cut part hPart hLong, error_bind]

/-- A readable value is read back from its encoding, whatever stands behind it, and
from no part of its encoding. The induction is on how the value was built, with one
lemma for each major type. -/
theorem Readable.readsBack (h : Readable value) (levels : Nat) :
    ReadsBack levels (Vectors.decodeItem levels) value := by
  induction h generalizing levels with
  | null => exact simple_readsBack (n := 22) (by decide) (by rw [Item.encode]) fun _ => rfl
  | @bool value =>
      cases value with
      | false => exact simple_readsBack (n := 20) (by decide) (by rw [Item.encode]; rfl) fun _ => rfl
      | true => exact simple_readsBack (n := 21) (by decide) (by rw [Item.encode]; rfl) fun _ => rfl
  | int hLower hUpper => exact int_readsBack hLower hUpper
  | text hShort => exact text_readsBack hShort
  | bytes hShort => exact bytes_readsBack hShort
  | array hShort _ ih => exact array_readsBack hShort ih
  | map hShort hAscending hHashed hDistinct _ _ ihKeys ihValues =>
      exact map_readsBack hShort ⟨hAscending, by simp, hHashed, hDistinct⟩ ihKeys ihValues
  | tag hShort _ ih => exact tag_readsBack hShort ih

/-- The encoding of a readable value is read back, whatever follows it. -/
theorem decodeItem_encode (h : Readable value) (rest : Bytes) :
    Vectors.decodeItem (value.encode ++ rest).length (value.encode ++ rest) = .ok (value, rest) :=
  (h.readsBack _).whole rest le_rfl

/-- The encoder writes a readable value as the encoding of the item. -/
theorem Readable.cborEncode_eq (h : Readable value) : cborEncode value = .ok value.encode :=
  cborEncode_eq_ok.mpr ⟨h.encodable, by rw [h.sorted]⟩

/-- What is read is canonical: the comparison with the encoding never fails. -/
theorem cborDecodeExact_eq_ok :
    cborDecodeExact data = .ok value ↔ Readable value ∧ data = value.encode := by
  constructor
  · intro h
    obtain ⟨⟨decoded, rest⟩, hItem, hNext⟩ := bind_eq_ok.mp h
    obtain ⟨hRest, hThen⟩ := then_eq_ok.mp hNext
    obtain ⟨canonical, -, hEnd⟩ := bind_eq_ok.mp hThen
    obtain ⟨-, hSame⟩ := then_eq_ok.mp hEnd
    obtain rfl := Except.ok.inj hSame
    obtain ⟨hReadable, hData⟩ := decodeItem_sound _ _ _ _ hItem
    obtain rfl : rest = [] := by simpa using hRest
    exact ⟨hReadable, by rw [hData, List.append_nil]⟩
  · intro h
    obtain ⟨hReadable, rfl⟩ := h
    have hItem := decodeItem_encode hReadable []
    rw [List.append_nil] at hItem
    rw [cborDecodeExact, hItem, ok_bind]
    simp only [failIf_ne_self, ok_bind, hReadable.cborEncode_eq]

/-- An encoding that breaks off is reported as such, wherever it does. -/
theorem cborDecodeExact_cut {part : Bytes} (h : Readable value) (hPart : Cut part value.encode) :
    cborDecodeExact part = .error truncated := by
  rw [cborDecodeExact, (h.readsBack part.length).cut part hPart le_rfl, error_bind]

/-- An encoding with octets behind it is reported as such, whatever they are. -/
theorem cborDecodeExact_append {extra : Bytes} (h : Readable value) (hExtra : extra ≠ []) :
    cborDecodeExact (value.encode ++ extra) = .error (malformed "trailing CBOR data") := by
  rw [cborDecodeExact, decodeItem_encode h, ok_bind]
  dsimp only
  rw [failIf_of hExtra, error_bind]

/-- The decoder is exact: it accepts a document if and only if that is the encoding of
a readable value, which it then returns. Where an accepted document breaks off, or
goes on behind its end, that is what is reported. -/
theorem cborDecodeExact_exact :
    (∀ data value, cborDecodeExact data = .ok value ↔ Readable value ∧ data = value.encode) ∧
    ∀ data value, cborDecodeExact data = .ok value →
      (∀ part, Cut part data → cborDecodeExact part = .error (malformed "truncated CBOR")) ∧
      ∀ extra, extra ≠ [] →
        cborDecodeExact (data ++ extra) = .error (malformed "trailing CBOR data") := by
  constructor
  · intro data value
    exact cborDecodeExact_eq_ok
  · intro data value h
    obtain ⟨hReadable, rfl⟩ := cborDecodeExact_eq_ok.mp h
    constructor
    · intro part hPart
      exact cborDecodeExact_cut hReadable hPart
    · intro extra hExtra
      exact cborDecodeExact_append hReadable hExtra

end Tfws.Vectors
