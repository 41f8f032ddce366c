import Tfws.Cbor.Cut
import Tfws.Core.CborManifest
import Tfws.Crates.MinicborErrors

/-! Documents that break off, and documents with something behind them. -/
namespace Tfws

open SerdeJson Fallible Cbor Minicbor

variable {crates : Crates} {limits : CborLimits} {depth : Nat}

/-- The decoder ran into octets that are not well formed, under whatever message. -/
def Malformed {α : Type} (result : CborResult α) : Prop :=
  ∃ cause, result = .error (.malformedCbor cause)

/-- A step that is malformed makes what it begins malformed, whatever would follow. -/
theorem Malformed.bind {α β : Type} {result : CborResult α} (h : Malformed result)
    (next : α → CborResult β) : Malformed (result >>= next) := by
  obtain ⟨cause, rfl⟩ := h
  exact ⟨cause, rfl⟩

/-- An operation of the decoder that fails is reported as such, whatever cause it
gives. -/
theorem malformed_of_error {α : Type} {foreign : Except String α}
    (h : ∃ cause, foreign = .error cause) : Malformed (foreign.mapError .malformedCbor) := by
  obtain ⟨cause, rfl⟩ := h
  exact ⟨cause, rfl⟩

/-- The octets that open a container of indefinite length open no other, so that a cut
head is not mistaken for one. -/
theorem head_ne_indefinite {major n : Nat} {tail : Bytes} {octet : UInt8}
    (hArgument : n < 18446744073709551616) (hOctet : octet.toNat % 32 = 31) :
    (UInt8.ofNat (32 * major + (preferred n).additional n) :: tail).head? ≠ some octet := by
  have hAdditional := (fits_preferred hArgument).additional_lt
  have hMod := initial_mod major (hAdditional.trans (by decide))
  rw [List.head?_cons, ne_eq, Option.some.injEq]
  intro hSame
  rw [hSame, hOctet] at hMod
  omega

/-- Where the members are read back and none of their parts is, no part of all of them
is: the cut lies in some member, and those before it have been read. -/
theorem malformed_items {decodeItem : Bytes → CborResult (Value × Bytes)} {items : List Value}
    {part : Bytes}
    (hWhole : ∀ item ∈ items, ∀ rest, decodeItem (item.item.encode ++ rest) = .ok (item, rest))
    (hCut : ∀ item ∈ items, ∀ part, Cut part item.item.encode → Malformed (decodeItem part))
    (hPart : Cut part (Item.encodeItems (items.map Value.item))) :
    Malformed (decodeItems decodeItem items.length part) := by
  induction items generalizing part with
  | nil => exact absurd hPart not_cut_nil
  | cons item items ih =>
      obtain ⟨hItem, hWhole⟩ := List.forall_mem_cons.mp hWhole
      obtain ⟨hItemCut, hCut⟩ := List.forall_mem_cons.mp hCut
      rw [List.map_cons, Item.encodeItems] at hPart
      rw [List.length_cons, decodeItems]
      obtain hHere | ⟨later, rfl, hLater⟩ := hPart.append
      · exact (hItemCut part hHere).bind _
      · rw [hItem, ok_bind]
        exact (ih hWhole hCut hLater).bind _

/-- Fields in their order, with keys of allowed lengths, behind the keys `seen`,
of which `previous` is the last one. -/
structure FieldsFit (limits : CborLimits) (fields : List (String × Value)) (seen : List String)
    (previous : Option Bytes) : Prop where
  keys : ∀ field ∈ fields, (Utf8.encode field.1).length ≤ limits.maxStringBytes.toNat
  ascending : fields.Pairwise fun left right =>
    bytewise (Item.text left.1).encode (Item.text right.1).encode = .lt
  fresh : ∀ field ∈ fields, field.1 ∉ seen
  above : ∀ field ∈ fields, ∀ last ∈ previous,
    compareEncodedKeys last (Item.text field.1).encode = .lt

section Fields

variable {field : String × Value} {fields entries : List (String × Value)} {seen : List String}
  {previous : Option Bytes}

theorem FieldsFit.tail (h : FieldsFit limits (field :: fields) seen previous) :
    FieldsFit limits fields (field.1 :: seen) (some (Item.text field.1).encode) := by
  obtain ⟨hKey, hKeys⟩ := List.forall_mem_cons.mp h.keys
  obtain ⟨hBelow, hAscending⟩ := List.pairwise_cons.mp h.ascending
  obtain ⟨-, hFresh⟩ := List.forall_mem_cons.mp h.fresh
  constructor
  · exact hKeys
  · exact hAscending
  · intro next hMem hNext
    rcases List.mem_cons.mp hNext with hEq | hNext
    · have hLt := hBelow next hMem
      have hSame : bytewise (Item.text field.1).encode (Item.text field.1).encode = .eq :=
        Std.ReflCmp.compare_self
      rw [hEq, hSame] at hLt
      cases hLt
    · exact hFresh next hMem hNext
  · intro next hMem last hLast
    obtain rfl := Option.some.inj hLast
    rw [compareEncodedKeys_text (hKey.trans_lt (limit_lt _))
      ((hKeys next hMem).trans_lt (limit_lt _))]
    exact hBelow next hMem

/-- What is left of the loop behind the key of a field is the value and the fields
after it. -/
theorem decodeEntries_key {decodeItem : Bytes → CborResult (Value × Bytes)}
    (h : FieldsFit limits (field :: fields) seen previous) (rest : Bytes) :
    decodeEntries crates limits decodeItem (fields.length + 1) entries seen previous
        ((Item.text field.1).encode ++ rest) = (do
      let (value, rest) ← decodeItem rest
      decodeEntries crates limits decodeItem fields.length (SortedMap.insert field.1 value entries)
        (field.1 :: seen) (some (Item.text field.1).encode) rest) := by
  have hOrder : ¬∃ last ∈ previous, compareEncodedKeys last (Item.text field.1).encode ≠ .lt := by
    intro hLast
    obtain ⟨last, hMem, hNe⟩ := hLast
    exact hNe (h.above field List.mem_cons_self last hMem)
  rw [decodeEntries, decodeKey_encode (h.keys field List.mem_cons_self), ok_bind]
  dsimp only
  rw [failIf_of_not (h.fresh field List.mem_cons_self), ok_bind, failIf_of_not hOrder, ok_bind]

/-- The same for the entries of a map, where the cut may lie in a key or in a
value. -/
theorem malformed_entries {decodeItem : Bytes → CborResult (Value × Bytes)} {part : Bytes}
    (hFit : FieldsFit limits fields seen previous)
    (hKeyCut : ∀ field ∈ fields, ∀ part, Cut part (Item.text field.1).encode →
      Malformed (decodeKey crates limits part))
    (hWhole : ∀ field ∈ fields, ∀ rest,
      decodeItem (field.2.item.encode ++ rest) = .ok (field.2, rest))
    (hCut : ∀ field ∈ fields, ∀ part, Cut part field.2.item.encode → Malformed (decodeItem part))
    (hPart : Cut part (Item.encodeEntries (fields.map Value.fieldItem))) :
    Malformed (decodeEntries crates limits decodeItem fields.length entries seen previous part) := by
  induction fields generalizing entries seen previous part with
  | nil => exact absurd hPart not_cut_nil
  | cons field fields ih =>
      obtain ⟨hThisKey, hKeyCut⟩ := List.forall_mem_cons.mp hKeyCut
      obtain ⟨hItem, hWhole⟩ := List.forall_mem_cons.mp hWhole
      obtain ⟨hItemCut, hCut⟩ := List.forall_mem_cons.mp hCut
      rw [List.map_cons, Value.fieldItem, Item.encodeEntries, List.append_assoc] at hPart
      rw [List.length_cons]
      obtain hHere | ⟨later, rfl, hLater⟩ := hPart.append
      · rw [decodeEntries]
        exact (hThisKey part hHere).bind _
      · rw [decodeEntries_key hFit]
        obtain hHere | ⟨later, rfl, hLast⟩ := hLater.append
        · exact (hItemCut _ hHere).bind _
        · rw [hItem, ok_bind]
          exact ih hFit.tail hKeyCut hWhole hCut hLast

end Fields

section Strict

variable (hStrict : crates.decoder.Strict)

include hStrict

/-- Where nothing is left, a value is missed, at every depth that is allowed. -/
theorem malformed_nil (hDepth : depth ≤ limits.maxDepth.toNat) :
    Malformed (decodeValue crates limits depth []) := by
  rw [decodeValue_of_shallow hDepth]
  exact (malformed_of_error hStrict.datatype_nil).bind _

/-- The type of a head is told before its argument is missed, so that a cut head is
refused by what reads the argument. -/
theorem datatype_cut {major n : Nat} (tail : Bytes) (hMajor : major < 8) (hOther : major ≠ 1)
    (hArgument : n < 18446744073709551616) : ∃ initial : UInt8, initial.toNat / 32 = major ∧
      initial.toNat % 32 < 28 ∧
      UInt8.ofNat (32 * major + (preferred n).additional n) = initial ∧
      crates.decoder.datatype (initial :: tail) = .ok (DataType.ofInitial initial) := by
  have hAdditional := (fits_preferred hArgument).additional_lt
  have hDiv := initial_div hMajor (hAdditional.trans (by decide))
  have hMod := initial_mod major (hAdditional.trans (by decide))
  refine ⟨_, hDiv, by rwa [hMod], rfl, hStrict.datatype_initial _ _ fun hWide => hOther ?_⟩
  exact hDiv.symm.trans hWide.1

theorem malformed_unsigned {n : Nat} {part : Bytes} (hDepth : depth ≤ limits.maxDepth.toNat)
    (hArgument : n < 18446744073709551616) (hPart : Cut part (head 0 n)) :
    Malformed (decodeValue crates limits depth part) := by
  have hNone := hPart.readHead_eq_none (by decide) hArgument
  obtain rfl | ⟨tail, rfl, -⟩ := hPart.head_cases
  · exact malformed_nil hStrict hDepth
  · obtain ⟨initial, hDiv, hMod, hInitial, hType⟩ :=
      datatype_cut hStrict tail (by decide : 0 < 8) (by decide) hArgument
    have hUnsigned := DataType.ofInitial_unsigned hDiv hMod
    rw [hInitial] at hNone ⊢
    have hError := malformed_of_error (hStrict.u64_error _ hNone)
    rw [decodeValue_of_shallow hDepth, hType, mapError_ok, ok_bind]
    simp only [List.mem_cons, List.not_mem_nil, or_false] at hUnsigned
    obtain h | h | h | h := hUnsigned
    all_goals
      rw [h]
      exact hError.bind _

theorem malformed_negative {n : Nat} {part : Bytes} (hDepth : depth ≤ limits.maxDepth.toNat)
    (hSmall : n < 9007199254740992) (hPart : Cut part (head 1 n)) :
    Malformed (decodeValue crates limits depth part) := by
  have hArgument : n < 18446744073709551616 := hSmall.trans (by decide)
  have hNone := hPart.readHead_eq_none (by decide) hArgument
  have hAdditional := (fits_preferred hArgument).additional_lt
  have hDiv := initial_div (by decide : 1 < 8) (hAdditional.trans (by decide))
  have hMod := initial_mod 1 (hAdditional.trans (by decide))
  rw [decodeValue_of_shallow hDepth]
  obtain rfl | ⟨tail, rfl, hTail⟩ := hPart.head_cases
  · exact (malformed_of_error hStrict.datatype_nil).bind _
  · have hInline : preferred n ≠ .inline := fun hForm => by
      rw [hForm] at hTail
      exact not_cut_nil hTail
    have hLong : 24 ≤ (preferred n).additional n := by
      cases hForm : preferred n with
      | inline => exact absurd hForm hInline
      | one | two | four | eight => simp [Form.additional]
    have hWide : WideNegative (UInt8.ofNat (32 * 1 + (preferred n).additional n)) :=
      ⟨hDiv, by rwa [hMod], by rwa [hMod]⟩
    cases tail with
    | nil => exact (malformed_of_error (hStrict.datatype_negative_nil _ hWide)).bind _
    | cons next tail =>
        have hType := hStrict.datatype_negative _ next tail hWide
        have hError := malformed_of_error (hStrict.i64_error _ hNone)
        obtain ⟨hMem, -⟩ | ⟨-, hEight, hLarge⟩ := DataType.ofNegative_cases hWide next
        · rw [hType, mapError_ok, ok_bind]
          simp only [List.mem_cons, List.not_mem_nil, or_false] at hMem
          obtain h | h | h | h := hMem
          all_goals
            rw [h]
            exact hError.bind _
        · -- The first of eight octets of a safe integer is small.
          rw [hMod] at hEight
          have hForm : preferred n = .eight := by
            cases hForm : preferred n with
            | eight => rfl
            | inline => exact absurd hForm hInline
            | one | two | four =>
                rw [hForm] at hEight
                cases hEight
          obtain ⟨missing, -, hOctets⟩ := hTail
          obtain ⟨first, others, hFirst, hSize⟩ :=
            Model.bigEndian_cons (by rw [hForm]; decide) (fits_preferred hArgument)
          rw [hFirst, List.cons_append] at hOctets
          obtain ⟨rfl, -⟩ := List.cons.inj hOctets
          have hFloor : (0x80 : UInt8).toNat = 128 := rfl
          rw [UInt8.le_iff_toNat_le, hSize hForm, hFloor] at hLarge
          omega

/-- A type that has a length is told from the first octet of its head. -/
theorem datatype_counted {major n : Nat} {type : DataType} (indefinite : DataType) (tail : Bytes)
    (hMajor : major < 8) (hOther : major ≠ 1) (hArgument : n < 18446744073709551616)
    (hTable : ∀ initial : UInt8, initial.toNat / 32 = major →
      DataType.ofInitial initial = DataType.counted type indefinite initial) :
    crates.decoder.datatype (UInt8.ofNat (32 * major + (preferred n).additional n) :: tail) =
      .ok type := by
  obtain ⟨initial, hDiv, hMod, hInitial, hType⟩ :=
    datatype_cut hStrict tail hMajor hOther hArgument
  rw [hInitial, hType, hTable initial hDiv, DataType.counted, if_pos hMod]

theorem datatype_text {n : Nat} (tail : Bytes) (hArgument : n < 18446744073709551616) :
    crates.decoder.datatype (UInt8.ofNat (32 * 3 + (preferred n).additional n) :: tail) =
      .ok .string :=
  datatype_counted hStrict .stringIndef tail (by decide) (by decide) hArgument fun initial h => by
    simp only [DataType.ofInitial, h]

theorem datatype_array {n : Nat} (tail : Bytes) (hArgument : n < 18446744073709551616) :
    crates.decoder.datatype (UInt8.ofNat (32 * 4 + (preferred n).additional n) :: tail) =
      .ok .array :=
  datatype_counted hStrict .arrayIndef tail (by decide) (by decide) hArgument fun initial h => by
    simp only [DataType.ofInitial, h]

theorem datatype_map {n : Nat} (tail : Bytes) (hArgument : n < 18446744073709551616) :
    crates.decoder.datatype (UInt8.ofNat (32 * 5 + (preferred n).additional n) :: tail) =
      .ok .map :=
  datatype_counted hStrict .mapIndef tail (by decide) (by decide) hArgument fun initial h => by
    simp only [DataType.ofInitial, h]

/-- A text breaks off in its head or behind it, and is missed in either case. -/
theorem text_cut {text : String} {part : Bytes} (hShort : (Utf8.encode text).length <
    18446744073709551616) (hPart : Cut part (Item.text text).encode) :
    part = [] ∨ (crates.decoder.datatype part = .ok .string ∧
      ∃ cause, crates.decoder.str part = .error cause) := by
  rw [Item.encode] at hPart
  obtain hHead | ⟨later, rfl, hLater⟩ := hPart.append
  · have hNone := hHead.readHead_eq_none (by decide) hShort
    obtain rfl | ⟨tail, rfl, -⟩ := hHead.head_cases
    · exact Or.inl rfl
    · exact Or.inr ⟨datatype_text hStrict tail hShort, hStrict.str_error _ hNone⟩
  · right
    have hFits := fits_preferred hShort
    constructor
    · rw [head, crates.decoder.datatype_string _ _ _ hFits]
    · exact hStrict.str_short _ _ _ hFits hLater.length_lt

theorem malformed_text {text : String} {part : Bytes} (hDepth : depth ≤ limits.maxDepth.toNat)
    (hShort : (Utf8.encode text).length < 18446744073709551616)
    (hPart : Cut part (Item.text text).encode) :
    Malformed (decodeValue crates limits depth part) := by
  obtain rfl | ⟨hType, hError⟩ := text_cut hStrict hShort hPart
  · exact malformed_nil hStrict hDepth
  · rw [decodeValue_of_shallow hDepth, hType, mapError_ok, ok_bind]
    exact (malformed_of_error hError).bind _

theorem malformed_key {key : String} {part : Bytes}
    (hShort : (Utf8.encode key).length < 18446744073709551616)
    (hPart : Cut part (Item.text key).encode) : Malformed (decodeKey crates limits part) := by
  rw [decodeKey]
  obtain rfl | ⟨hType, hError⟩ := text_cut hStrict hShort hPart
  · exact (malformed_of_error hStrict.datatype_nil).bind _
  · rw [hType, mapError_ok, ok_bind, failIf_of_not (by decide), ok_bind, failIf_of_not (by decide),
      ok_bind]
    exact (malformed_of_error hError).bind _

theorem malformed_array {items : List Value} {part : Bytes}
    (hDepth : depth ≤ limits.maxDepth.toNat) (hShort : items.length ≤ limits.maxArrayItems.toNat)
    (hWhole : ∀ item ∈ items, ∀ rest,
      decodeValue crates limits (depth + 1) (item.item.encode ++ rest) = .ok (item, rest))
    (hCut : ∀ item ∈ items, ∀ part, Cut part item.item.encode →
      Malformed (decodeValue crates limits (depth + 1) part))
    (hPart : Cut part (Value.array items).item.encode) :
    Malformed (decodeValue crates limits depth part) := by
  have hLength := toNat_ofNat_of_le hShort
  have hArgument := hShort.trans_lt (limit_lt _)
  rw [Value.item_array, Item.encode, List.length_map] at hPart
  obtain hHead | ⟨later, rfl, hLater⟩ := hPart.append
  · have hNone := hHead.readHead_eq_none (by decide) hArgument
    obtain rfl | ⟨tail, rfl, -⟩ := hHead.head_cases
    · exact malformed_nil hStrict hDepth
    · have hError := hStrict.array_error _ hNone (head_ne_indefinite hArgument rfl)
      rw [decodeValue_of_shallow hDepth, datatype_array hStrict tail hArgument, mapError_ok, ok_bind]
      exact (malformed_of_error hError).bind _
  · have hFits := fits_preferred hArgument
    have hArray := crates.decoder.array_head (preferred items.length) (.ofNat items.length) later
      (by rwa [hLength])
    have hFail : ¬limits.maxArrayItems < UInt64.ofNat items.length := by
      rw [UInt64.lt_iff_toNat_lt, hLength]
      exact not_lt.mpr hShort
    rw [hLength] at hArray
    rw [decodeValue_of_shallow hDepth, head, crates.decoder.datatype_array _ _ _ hFits, mapError_ok,
      ok_bind]
    dsimp only
    rw [decodeArray, hArray, mapError_ok, ok_bind]
    dsimp only
    rw [failIf_of_not hFail, ok_bind, hLength]
    exact (malformed_items hWhole hCut hLater).bind _

theorem malformed_object {entries : List (String × Value)} {part : Bytes}
    (hDepth : depth ≤ limits.maxDepth.toNat) (hShort : entries.length ≤ limits.maxMapPairs.toNat)
    (hFit : FieldsFit limits (sortFields entries) [] none)
    (hWhole : ∀ field ∈ sortFields entries, ∀ rest,
      decodeValue crates limits (depth + 1) (field.2.item.encode ++ rest) = .ok (field.2, rest))
    (hCut : ∀ field ∈ sortFields entries, ∀ part, Cut part field.2.item.encode →
      Malformed (decodeValue crates limits (depth + 1) part))
    (hPart : Cut part (Value.object entries).item.encode) :
    Malformed (decodeValue crates limits depth part) := by
  rw [← (sortFields_perm entries).length_eq] at hShort
  have hLength := toNat_ofNat_of_le hShort
  have hArgument := hShort.trans_lt (limit_lt _)
  rw [item_object_eq, Item.encode_map, List.length_map] at hPart
  obtain hHead | ⟨later, rfl, hLater⟩ := hPart.append
  · have hNone := hHead.readHead_eq_none (by decide) hArgument
    obtain rfl | ⟨tail, rfl, -⟩ := hHead.head_cases
    · exact malformed_nil hStrict hDepth
    · have hError := hStrict.map_error _ hNone (head_ne_indefinite hArgument rfl)
      rw [decodeValue_of_shallow hDepth, datatype_map hStrict tail hArgument, mapError_ok, ok_bind]
      exact (malformed_of_error hError).bind _
  · have hFits := fits_preferred hArgument
    have hMap := crates.decoder.map_head (preferred (sortFields entries).length)
      (.ofNat (sortFields entries).length) later (by rwa [hLength])
    have hFail : ¬limits.maxMapPairs < UInt64.ofNat (sortFields entries).length := by
      rw [UInt64.lt_iff_toNat_lt, hLength]
      exact not_lt.mpr hShort
    have hKeyCut : ∀ field ∈ sortFields entries, ∀ part, Cut part (Item.text field.1).encode →
        Malformed (decodeKey crates limits part) := fun field hMem _ =>
      malformed_key hStrict ((hFit.keys field hMem).trans_lt (limit_lt _))
    rw [hLength] at hMap
    rw [decodeValue_of_shallow hDepth, head, crates.decoder.datatype_map _ _ _ hFits, mapError_ok,
      ok_bind]
    dsimp only
    rw [decodeMap, hMap, mapError_ok, ok_bind]
    dsimp only
    rw [failIf_of_not hFail, ok_bind, hLength]
    exact (malformed_entries hFit hKeyCut hWhole hCut hLater).bind _

/-- No part of the encoding of an admissible value is taken for a value: the decoder
runs into the end. The induction is on the value, with the depth that it stands at. -/
theorem malformed_value {value : Value} (h : Admissible limits depth value)
    (hOrdered : value.ordered = true) {part : Bytes} (hPart : Cut part value.item.encode) :
    Malformed (decodeValue crates limits depth part) := by
  have hDepth := h.shallow
  induction value generalizing depth part with
  | null => cases h
  | bool value =>
      have hItem : (Value.bool value).item.encode = [if value then 0xF5 else 0xF4] := by
        cases value <;> rfl
      rw [hItem] at hPart
      obtain rfl : part = [] := List.length_eq_zero_iff.mp (Nat.lt_one_iff.mp hPart.length_lt)
      exact malformed_nil hStrict hDepth
  | number number =>
      cases h with
      | number _ integer hInteger hSafe =>
          unfold maxSafeInteger at hSafe
          have hItem : (Value.number number).item = .int integer := by
            cases number <;> cases hInteger <;> rfl
          rw [hItem, Item.encode] at hPart
          split_ifs at hPart with hSign
          · exact malformed_unsigned hStrict hDepth (by omega) hPart
          · exact malformed_negative hStrict hDepth (by omega) hPart
  | string text =>
      cases h with
      | string _ hShort =>
          have hItem : (Value.string text).item = .text text := by simp only [Value.item]
          rw [hItem] at hPart
          exact malformed_text hStrict hDepth (hShort.trans_lt (limit_lt _)) hPart
  | array items ih =>
      have hMember := fun item (hMem : item ∈ items) => h.of_array item hMem
      have hMemberOrdered := Value.ordered_array.mp hOrdered
      cases h with
      | array _ hShort _ =>
          apply malformed_array hStrict hDepth hShort ?_ ?_ hPart
          · exact fun item hMem => decodeValue_encode (hMember item hMem) (hMemberOrdered item hMem)
          · exact fun item hMem part hCut => ih item hMem (hMember item hMem)
              (hMemberOrdered item hMem) hCut (hMember item hMem).shallow
  | object entries ih =>
      obtain ⟨hSorted, hFieldsOrdered⟩ := Value.ordered_object.mp hOrdered
      have hMem {entry : String × Value} : entry ∈ sortFields entries → entry ∈ entries :=
        (sortFields_perm entries).mem_iff.mp
      have hKeys := h.key_length_le
      have hField := fun entry (hEntry : entry ∈ sortFields entries) =>
        h.of_object entry (hMem hEntry)
      have hFit : FieldsFit limits (sortFields entries) [] none := by
        constructor
        · exact fun field hIn => hKeys field (hMem hIn)
        · exact sortFields_ascending hSorted fun entry hEntry =>
            (hKeys entry hEntry).trans_lt (limit_lt _)
        · exact fun _ _ => List.not_mem_nil
        · simp
      cases h with
      | object _ hShort _ _ =>
          apply malformed_object hStrict hDepth hShort hFit ?_ ?_ hPart
          · exact fun entry hEntry => decodeValue_encode (hField entry hEntry)
              (hFieldsOrdered entry (hMem hEntry))
          · exact fun entry hEntry part hCut => ih entry (hMem hEntry) (hField entry hEntry)
              (hFieldsOrdered entry (hMem hEntry)) hCut (hField entry hEntry).shallow

end Strict

/-- A document that breaks off is malformed, and is refused for no other reason. -/
theorem malformed_part (hStrict : crates.decoder.Strict) {value : OrderedValue} {input part : Bytes}
    (h : Encodes limits value input) (hPart : Cut part input) :
    Malformed (decodeStructure crates part limits) := by
  obtain ⟨hShort, hAdmissible, rfl⟩ := encodes_iff.mp h
  have hLimit : ¬limits.maxManifestBytes.toNat < part.length :=
    not_lt.mpr (hPart.length_lt.le.trans hShort)
  rw [decodeStructure, failIf_of_not hLimit, ok_bind]
  by_cases hEmpty : part.isEmpty
  · rw [failIf_of hEmpty]
    exact ⟨_, rfl⟩
  · rw [failIf_of_not hEmpty, ok_bind]
    exact (malformed_value hStrict hAdmissible value.ordered hPart).bind _

/-- A document with something behind it has trailing data, and one that breaks off is
malformed, wherever it does. Of the document nothing is asked but that the structural
half accepts it. -/
theorem decodeManifestCbor_damaged (crates : Crates) (hStrict : crates.decoder.Strict)
    (limits : CborLimits) (value : OrderedValue) (input : Bytes)
    (hEncodes : Encodes limits value input) :
    (∀ part, Cut part input →
      ∃ cause, decodeManifestCbor crates part limits = .error (.malformedCbor cause)) ∧
    ∀ extra, extra ≠ [] → decodeManifestCbor crates (input ++ extra) limits =
      .error (if limits.maxManifestBytes.toNat < (input ++ extra).length then
        .resourceLimit "manifest bytes" else .trailingData) := by
  constructor
  · intro part hPart
    obtain ⟨cause, hError⟩ := malformed_part hStrict hEncodes hPart
    exact ⟨cause, by rw [decodeManifestCbor, hError, error_bind]⟩
  · intro extra hExtra
    obtain ⟨-, hAdmissible, rfl⟩ := encodes_iff.mp hEncodes
    rw [decodeManifestCbor, decodeStructure]
    split_ifs with hLimit
    · rw [failIf_of hLimit, error_bind, error_bind]
    · rw [failIf_of_not hLimit, ok_bind, failIf_of_not (by simp [hExtra]), ok_bind,
        decodeValue_encode hAdmissible value.ordered, ok_bind]
      dsimp only
      rw [failIf_of hExtra, error_bind, error_bind]

/-- The test vector without its last octet, and with one octet more, under the strict
decoder. -/
theorem decodeManifestCbor_damaged_sample :
    (∃ cause, decodeManifestCbor { Crates.model with decoder := Decoder.strictModel }
      Manifest.sample.document.item.encode.dropLast .default = .error (.malformedCbor cause)) ∧
    decodeManifestCbor { Crates.model with decoder := Decoder.strictModel }
      (Manifest.sample.document.item.encode ++ [0x00]) .default = .error .trailingData := by
  obtain ⟨hCut, hExtended⟩ :=
    decodeManifestCbor_damaged { Crates.model with decoder := Decoder.strictModel }
      Decoder.strict_strictModel _ _ _ Manifest.encodes_sample
  refine ⟨hCut _ (cut_dropLast Manifest.encodes_sample.deterministic.1.encode_ne_nil), ?_⟩
  have hShort := Manifest.encodedLength_sample
  have hLimit : CborLimits.default.maxManifestBytes.toNat = 4194304 := by decide
  rw [hExtended [0x00] (List.cons_ne_nil _ _), if_neg]
  rw [List.length_append, Value.length_encode_item, List.length_singleton, hLimit]
  omega

end Tfws
