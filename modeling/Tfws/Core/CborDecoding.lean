import Tfws.Core.CborEncoding

/-! The decoder against the encoder: the encoding of every admissible value is
read back, and whatever is read is admissible. -/
namespace Tfws

open SerdeJson Fallible Cbor

variable {crates : Crates} {limits : CborLimits} {depth : Nat}

/-- The members of an array are read back one after the other, if each of them is. -/
theorem decodeItems_encode {decodeItem : Bytes → CborResult (Value × Bytes)}
    {items : List Value}
    (hItems : ∀ item ∈ items, ∀ rest,
      decodeItem (item.item.encode ++ rest) = .ok (item, rest)) (rest : Bytes) :
    decodeItems decodeItem items.length (Item.encodeItems (items.map Value.item) ++ rest) =
      .ok (items, rest) := by
  induction items with
  | nil => rfl
  | cons item items ih =>
      obtain ⟨hItem, hItems⟩ := List.forall_mem_cons.mp hItems
      rw [List.map_cons, Item.encodeItems, List.append_assoc, List.length_cons, decodeItems, hItem]
      simp only [ok_bind, ih hItems]

/-- A key within the limit is read back, together with the octets that it was written
in. -/
theorem decodeKey_encode {key : String}
    (hKey : (Utf8.encode key).length ≤ limits.maxStringBytes.toNat) (rest : Bytes) :
    decodeKey crates limits ((Item.text key).encode ++ rest) =
      .ok (key, (Item.text key).encode, rest) := by
  have hFits := fits_preferred (hKey.trans_lt (limit_lt _))
  have hType := crates.decoder.datatype_string _ _ (Utf8.encode key ++ rest) hFits
  have hStr := crates.decoder.str_head _ key rest hFits
  rw [← List.append_assoc] at hType
  have hTake : ((Item.text key).encode ++ rest).take
      (((Item.text key).encode ++ rest).length - rest.length) = (Item.text key).encode :=
    List.take_left' (by simp)
  simp only [Item.encode, head] at hTake ⊢
  rw [decodeKey, hType, hStr]
  simp only [mapError_ok, ok_bind, reduceCtorEq, not_false_eq_true, failIf_of_not, ne_eq,
    not_true_eq_false, not_lt.mpr hKey, hTake]

/-- Entries that ascend by their encoded names are read back as the object that they
belong to. Any other order would be refused. -/
theorem decodeEntries_encode {decodeItem : Bytes → CborResult (Value × Bytes)}
    {fields entries : List (String × Value)} {seen : List String} {previous : Option Bytes}
    (hKeys : ∀ field ∈ fields, (Utf8.encode field.1).length ≤ limits.maxStringBytes.toNat)
    (hItems : ∀ field ∈ fields, ∀ rest,
      decodeItem (field.2.item.encode ++ rest) = .ok (field.2, rest))
    (hAscending : fields.Pairwise fun left right =>
      bytewise (Item.text left.1).encode (Item.text right.1).encode = .lt)
    (hSeen : ∀ field ∈ fields, field.1 ∉ seen)
    (hPrevious : ∀ field ∈ fields, ∀ last ∈ previous,
      compareEncodedKeys last (Item.text field.1).encode = .lt) (rest : Bytes) :
    decodeEntries crates limits decodeItem fields.length entries seen previous
        (Item.encodeEntries (fields.map Value.fieldItem) ++ rest) =
      .ok (SortedMap.insertAll entries fields, rest) := by
  induction fields generalizing entries seen previous with
  | nil => rfl
  | cons field fields ih =>
      obtain ⟨hKey, hKeys⟩ := List.forall_mem_cons.mp hKeys
      obtain ⟨hItem, hItems⟩ := List.forall_mem_cons.mp hItems
      obtain ⟨hBelow, hAscending⟩ := List.pairwise_cons.mp hAscending
      obtain ⟨hFresh, hSeen⟩ := List.forall_mem_cons.mp hSeen
      obtain ⟨hAbove, _⟩ := List.forall_mem_cons.mp hPrevious
      have hOrder : ¬∃ last ∈ previous,
          compareEncodedKeys last (Item.text field.1).encode ≠ .lt :=
        fun ⟨last, hLast, hNe⟩ => hNe (hAbove last hLast)
      -- Later keys are larger than this one, hence also different from it.
      have hSeen' : ∀ next ∈ fields, next.1 ∉ field.1 :: seen := fun next hMem hNext => by
        rcases List.mem_cons.mp hNext with hEq | hNext
        · have hLt := hBelow next hMem
          have hSame : bytewise (Item.text field.1).encode (Item.text field.1).encode = .eq :=
            Std.ReflCmp.compare_self
          rw [hEq, hSame] at hLt
          cases hLt
        · exact hSeen next hMem hNext
      have hPrevious' : ∀ next ∈ fields, ∀ last ∈ some (Item.text field.1).encode,
          compareEncodedKeys last (Item.text next.1).encode = .lt := fun next hMem last hLast => by
        obtain rfl := Option.some.inj hLast
        rw [compareEncodedKeys_text (hKey.trans_lt (limit_lt _))
          ((hKeys next hMem).trans_lt (limit_lt _))]
        exact hBelow next hMem
      rw [List.map_cons, Value.fieldItem, Item.encodeEntries, List.append_assoc, List.append_assoc,
        List.length_cons, decodeEntries, decodeKey_encode hKey]
      simp only [ok_bind, failIf_of_not hFresh, failIf_of_not hOrder, hItem,
        ih hKeys hItems hAscending hSeen' hPrevious']
      rfl

theorem decodeValue_of_shallow (h : depth ≤ limits.maxDepth.toNat) (input : Bytes) :
    decodeValue crates limits depth input =
      ((crates.decoder.datatype input).mapError .malformedCbor >>= fun type =>
        match type with
        | .array => decodeArray crates limits (decodeValue crates limits (depth + 1)) input
        | .map => decodeMap crates limits (decodeValue crates limits (depth + 1)) input
        | other => decodeScalar crates limits other input) := by
  rw [decodeValue]
  exact if_neg (not_lt.mpr h)

theorem decodeValue_posInt {value : UInt64} (hDepth : depth ≤ limits.maxDepth.toNat)
    (hSafe : value.toNat ≤ maxSafeInteger) (rest : Bytes) :
    decodeValue crates limits depth ((Item.int value.toNat).encode ++ rest) =
      .ok (.number (.posInt value), rest) := by
  have hFits := fits_preferred (limit_lt value)
  obtain ⟨type, hMem, hType⟩ := crates.decoder.datatype_unsigned _ _ rest hFits
  have hRead := crates.decoder.u64_head _ value rest hFits
  have hEncode : (Item.int value.toNat).encode = (preferred value.toNat).head 0 value.toNat := by
    simp [Item.encode, head]
  rw [decodeValue_of_shallow hDepth, hEncode, hType]
  simp only [List.mem_cons, List.not_mem_nil, or_false] at hMem
  rcases hMem with rfl | rfl | rfl | rfl <;>
    simp [decodeScalar, hRead, failIf_of_not (not_lt.mpr hSafe), Number.ofU64]

theorem decodeValue_negInt {value : { z : Int64 // z < 0 }}
    (hDepth : depth ≤ limits.maxDepth.toNat) (hSafe : value.1.toInt.natAbs ≤ maxSafeInteger)
    (rest : Bytes) :
    decodeValue crates limits depth ((Item.int value.1.toInt).encode ++ rest) =
      .ok (.number (.negInt value), rest) := by
  obtain ⟨z, hz⟩ := value
  have hNeg : z.toInt < 0 := by simpa using Int64.lt_iff_toInt_lt.mp hz
  have hLower := z.le_toInt
  let n := (-1 - z.toInt).toNat
  have hBound : n < 9223372036854775808 := by omega
  have hBack : (-1 - (n : Int)) = z.toInt := by omega
  have hFits := fits_preferred (hBound.trans (by decide))
  obtain ⟨type, hMem, hType⟩ := crates.decoder.datatype_negative _ _ rest hFits hBound
  have hRead := crates.decoder.i64_head_negative _ _ rest hFits hBound
  rw [hBack, Int64.ofInt_toInt] at hRead
  have hEncode : (Item.int z.toInt).encode = (preferred n).head 1 n := by
    rw [Item.encode, if_neg (not_le.mpr hNeg)]
    rfl
  rw [decodeValue_of_shallow hDepth, hEncode, hType]
  simp only [List.mem_cons, List.not_mem_nil, or_false] at hMem
  rcases hMem with rfl | rfl | rfl | rfl <;>
    simp [decodeScalar, hRead, failIf_of_not (not_lt.mpr hSafe), Number.ofI64, hz]

theorem decodeValue_string {text : String} (hDepth : depth ≤ limits.maxDepth.toNat)
    (hShort : (Utf8.encode text).length ≤ limits.maxStringBytes.toNat) (rest : Bytes) :
    decodeValue crates limits depth ((Item.text text).encode ++ rest) =
      .ok (.string text, rest) := by
  have hFits := fits_preferred (hShort.trans_lt (limit_lt _))
  have hType := crates.decoder.datatype_string _ _ (Utf8.encode text ++ rest) hFits
  have hStr := crates.decoder.str_head _ text rest hFits
  rw [← List.append_assoc] at hType
  rw [decodeValue_of_shallow hDepth, Item.encode, head, hType]
  simp only [mapError_ok, ok_bind, decodeScalar, hStr, failIf_of_not (not_lt.mpr hShort)]

theorem decodeValue_array {items : List Value} (hDepth : depth ≤ limits.maxDepth.toNat)
    (hShort : items.length ≤ limits.maxArrayItems.toNat)
    (hItems : ∀ item ∈ items, ∀ rest,
      decodeValue crates limits (depth + 1) (item.item.encode ++ rest) = .ok (item, rest))
    (rest : Bytes) :
    decodeValue crates limits depth ((Value.array items).item.encode ++ rest) =
      .ok (.array items, rest) := by
  have hLength := toNat_ofNat_of_le hShort
  have hFits := fits_preferred (hShort.trans_lt (limit_lt _))
  have hHead := crates.decoder.array_head (preferred items.length) (.ofNat items.length)
    (Item.encodeItems (items.map Value.item) ++ rest) (by rwa [hLength])
  have hFail : ¬limits.maxArrayItems < UInt64.ofNat items.length := by
    rw [UInt64.lt_iff_toNat_lt, hLength]
    exact not_lt.mpr hShort
  rw [hLength] at hHead
  rw [decodeValue_of_shallow hDepth, Value.item_array, Item.encode, List.length_map, head,
    List.append_assoc, crates.decoder.datatype_array _ _ _ hFits]
  simp only [mapError_ok, ok_bind, decodeArray, hHead, failIf_of_not hFail, hLength,
    decodeItems_encode hItems]

/-- The fields of a map are written in the order of their encoded names, in which the
decoder demands them, and come back in the order of the object. -/
theorem decodeValue_object {entries : List (String × Value)}
    (hDepth : depth ≤ limits.maxDepth.toNat)
    (hShort : entries.length ≤ limits.maxMapPairs.toNat) (hSorted : SortedMap.Sorted entries)
    (hKeys : ∀ entry ∈ entries, (Utf8.encode entry.1).length ≤ limits.maxStringBytes.toNat)
    (hItems : ∀ entry ∈ entries, ∀ rest,
      decodeValue crates limits (depth + 1) (entry.2.item.encode ++ rest) = .ok (entry.2, rest))
    (rest : Bytes) :
    decodeValue crates limits depth ((Value.object entries).item.encode ++ rest) =
      .ok (.object entries, rest) := by
  have hMem {entry : String × Value} : entry ∈ sortFields entries → entry ∈ entries :=
    (sortFields_perm entries).mem_iff.mp
  have hAscending := sortFields_ascending hSorted fun entry hEntry =>
    (hKeys entry hEntry).trans_lt (limit_lt _)
  have hCount : (sortFields entries).length = entries.length :=
    (sortFields_perm entries).length_eq
  rw [← hCount] at hShort
  have hLength := toNat_ofNat_of_le hShort
  have hFits := fits_preferred (hShort.trans_lt (limit_lt _))
  have hHead := crates.decoder.map_head (preferred (sortFields entries).length)
    (.ofNat (sortFields entries).length)
    (Item.encodeEntries ((sortFields entries).map Value.fieldItem) ++ rest) (by rwa [hLength])
  have hFail : ¬limits.maxMapPairs < UInt64.ofNat (sortFields entries).length := by
    rw [UInt64.lt_iff_toNat_lt, hLength]
    exact not_lt.mpr hShort
  have hEntries : decodeEntries crates limits (decodeValue crates limits (depth + 1))
      (sortFields entries).length [] [] none _ = _ :=
    decodeEntries_encode (fun field hField => hKeys field (hMem hField))
      (fun field hField => hItems field (hMem hField)) hAscending
      (fun _ _ => List.not_mem_nil) (by simp) rest
  rw [hSorted.insertAll_nil_eq (sortFields_perm entries)] at hEntries
  rw [hLength] at hHead
  rw [decodeValue_of_shallow hDepth, item_object_eq, Item.encode, List.length_map, head,
    List.append_assoc, crates.decoder.datatype_map _ _ _ hFits]
  simp only [mapError_ok, ok_bind, decodeMap, hHead, failIf_of_not hFail, hLength, hEntries]

/-- The decoder reads an admissible value back from its encoding and stops right
behind it. The induction is on the value; the depth grows with every level, and the
limit on it is part of being admissible. -/
theorem decodeValue_encode {value : Value} (h : Admissible limits depth value)
    (hOrdered : value.ordered = true) (rest : Bytes) :
    decodeValue crates limits depth (value.item.encode ++ rest) = .ok (value, rest) := by
  have hDepth := h.shallow
  induction value generalizing depth rest with
  | null => cases h
  | bool value =>
      have hItem : (Value.bool value).item = .bool value := by simp only [Value.item]
      rw [decodeValue_of_shallow hDepth, hItem, crates.decoder.datatype_bool]
      simp [decodeScalar, crates.decoder.bool_encode]
  | number number =>
      cases h with
      | number _ integer hInteger hSafe =>
          cases number with
          | posInt value =>
              cases hInteger
              exact decodeValue_posInt hDepth (by simpa using hSafe) rest
          | negInt value =>
              cases hInteger
              exact decodeValue_negInt hDepth hSafe rest
          | float bits => cases hInteger
  | string text =>
      cases h with
      | string _ hShort =>
          have hItem : (Value.string text).item = .text text := by simp only [Value.item]
          rw [hItem]
          exact decodeValue_string hDepth hShort rest
  | array items ih =>
      have hItems := fun item hMem rest =>
        ih item hMem (h.of_array item hMem) (Value.ordered_array.mp hOrdered item hMem) rest
          (h.of_array item hMem).shallow
      cases h with
      | array _ hShort _ => exact decodeValue_array hDepth hShort hItems rest
  | object entries ih =>
      obtain ⟨hSorted, hFieldsOrdered⟩ := Value.ordered_object.mp hOrdered
      have hKeys := h.key_length_le
      have hItems := fun entry hMem rest =>
        ih entry hMem (h.of_object entry hMem) (hFieldsOrdered entry hMem) rest
          (h.of_object entry hMem).shallow
      cases h with
      | object _ hShort _ _ => exact decodeValue_object hDepth hShort hSorted hKeys hItems rest

/-- The errors that speak of octets, not of the manifest they hold. The structural
half raises no others. -/
def CborCodecError.Structural : CborCodecError → Prop
  | .schemaViolation _ | .manifestPolicy _ => False
  | _ => True

/-- A result of the decoder holds a value for its depth, its maps in key order. That
much holds under no law of the decoder: the limits and the range of numbers are
checked on what it returns. -/
abbrev Decoded (limits : CborLimits) (depth : Nat) (value : Value) : Prop :=
  Admissible limits depth value ∧ value.ordered = true

theorem decodeItems_outcome {decodeItem : Bytes → CborResult (Value × Bytes)}
    {good : Value → Prop}
    (hItem : ∀ input,
      Outcome (decodeItem input) (fun result => good result.1) CborCodecError.Structural)
    (count : Nat) (input : Bytes) :
    Outcome (decodeItems decodeItem count input)
      (fun result => result.1.length = count ∧ ∀ item ∈ result.1, good item)
      CborCodecError.Structural := by
  induction count generalizing input with
  | zero => simp [decodeItems]
  | succ count ih =>
      refine (hItem input).bind fun first hFirst => ?_
      refine (ih first.2).bind fun others hOthers => ?_
      simpa using ⟨hOthers.1, hFirst, hOthers.2⟩

/-- An array of admissible members within the limits is admissible, and there is no
other way to end well. -/
theorem decodeArray_outcome {decodeItem : Bytes → CborResult (Value × Bytes)}
    (hDepth : depth ≤ limits.maxDepth.toNat)
    (hItem : ∀ input, Outcome (decodeItem input)
      (fun result => Decoded limits (depth + 1) result.1) CborCodecError.Structural)
    (input : Bytes) :
    Outcome (decodeArray crates limits decodeItem input)
      (fun result => Decoded limits depth result.1) CborCodecError.Structural := by
  refine (Outcome.mapError fun _ => trivial).bind fun ⟨length, rest⟩ _ => ?_
  cases length with
  | none => trivial
  | some length =>
      refine Outcome.check (fun _ => trivial) fun hShort => ?_
      refine (decodeItems_outcome hItem length.toNat rest).bind fun result hItems => ?_
      have hLength : length.toNat ≤ limits.maxArrayItems.toNat :=
        UInt64.le_iff_toNat_le.mp (UInt64.not_lt.mp hShort)
      refine ⟨.array hDepth (hItems.1 ▸ hLength) fun item hMem => (hItems.2 item hMem).1, ?_⟩
      exact Value.ordered_array.mpr fun item hMem => (hItems.2 item hMem).2

/-- A key that was read is within the limit on texts, and its failures are
structural. -/
theorem decodeKey_outcome (input : Bytes) :
    Outcome (decodeKey crates limits input)
      (fun result => (Utf8.encode result.1).length ≤ limits.maxStringBytes.toNat)
      CborCodecError.Structural := by
  refine (Outcome.mapError fun _ => trivial).bind fun keyType _ => ?_
  refine Outcome.check (fun _ => trivial) fun _ => Outcome.check (fun _ => trivial) fun _ => ?_
  refine (Outcome.mapError fun _ => trivial).bind fun read _ => ?_
  exact Outcome.check (fun _ => trivial) fun hShort => not_lt.mp hShort

/-- What the pairs read so far have in common: keys in order and short, values
good. -/
structure GoodEntries (limits : CborLimits) (good : Value → Prop)
    (entries : List (String × Value)) : Prop where
  sorted : SortedMap.Sorted entries
  keys : ∀ entry ∈ entries, (Utf8.encode entry.1).length ≤ limits.maxStringBytes.toNat
  values : ∀ entry ∈ entries, good entry.2

/-- An entry under a new name keeps the entries in order and within the limits. -/
theorem GoodEntries.insert {good : Value → Prop} {entries : List (String × Value)}
    (h : GoodEntries limits good entries) {key : String} {value : Value}
    (hKey : (Utf8.encode key).length ≤ limits.maxStringBytes.toNat) (hValue : good value) :
    GoodEntries limits good (SortedMap.insert key value entries) where
  sorted := h.sorted.insert key value
  keys entry hMem := by
      rcases SortedMap.mem_insert hMem with rfl | hMem
      · exact hKey
      · exact h.keys entry hMem
  values entry hMem := by
      rcases SortedMap.mem_insert hMem with rfl | hMem
      · exact hValue
      · exact h.values entry hMem

/-- The entries read so far are in order and admissible, which is the invariant of the
loop. -/
theorem decodeEntries_outcome {decodeItem : Bytes → CborResult (Value × Bytes)}
    {good : Value → Prop}
    (hItem : ∀ input,
      Outcome (decodeItem input) (fun result => good result.1) CborCodecError.Structural)
    (count : Nat) {entries : List (String × Value)} (hEntries : GoodEntries limits good entries)
    (seen : List String) (previous : Option Bytes) (input : Bytes) :
    Outcome (decodeEntries crates limits decodeItem count entries seen previous input)
      (fun result => GoodEntries limits good result.1 ∧ result.1.length ≤ entries.length + count)
      CborCodecError.Structural := by
  induction count generalizing entries seen previous input with
  | zero => exact ⟨hEntries, le_refl _⟩
  | succ count ih =>
      refine (decodeKey_outcome input).bind fun key hKey => ?_
      refine Outcome.check (fun _ => trivial) fun _ => Outcome.check (fun _ => trivial) fun _ => ?_
      refine (hItem key.2.2).bind fun value hValue => ?_
      have hLength := SortedMap.length_insert_le key.1 value.1 entries
      refine (ih (hEntries.insert hKey hValue) _ _ value.2).mono fun result hResult => ?_
      exact ⟨hResult.1, hResult.2.trans (by omega)⟩

/-- So is a map, whose keys are read in the order in which it is written. -/
theorem decodeMap_outcome {decodeItem : Bytes → CborResult (Value × Bytes)}
    (hDepth : depth ≤ limits.maxDepth.toNat)
    (hItem : ∀ input, Outcome (decodeItem input)
      (fun result => Decoded limits (depth + 1) result.1) CborCodecError.Structural)
    (input : Bytes) :
    Outcome (decodeMap crates limits decodeItem input)
      (fun result => Decoded limits depth result.1) CborCodecError.Structural := by
  refine (Outcome.mapError fun _ => trivial).bind fun ⟨length, rest⟩ _ => ?_
  cases length with
  | none => trivial
  | some length =>
      refine Outcome.check (fun _ => trivial) fun hShort => ?_
      have hEmpty : GoodEntries limits (Decoded limits (depth + 1)) [] :=
        ⟨List.Pairwise.nil, by simp, by simp⟩
      refine (decodeEntries_outcome hItem length.toNat hEmpty [] none rest).bind
        fun result ⟨hEntries, hLength⟩ => ?_
      have hLimit : length.toNat ≤ limits.maxMapPairs.toNat :=
        UInt64.le_iff_toNat_le.mp (UInt64.not_lt.mp hShort)
      rw [List.length_nil, Nat.zero_add] at hLength
      refine ⟨.object hDepth (hLength.trans hLimit) hEntries.keys
        fun entry hMem => (hEntries.values entry hMem).1, ?_⟩
      exact Value.ordered_object.mpr
        ⟨hEntries.sorted, fun entry hMem => (hEntries.values entry hMem).2⟩

theorem toInt_ofU64 (value : UInt64) : (Number.ofU64 value).toInt = some (value.toNat : Int) := rfl

theorem toInt_ofI64 (value : Int64) : (Number.ofI64 value).toInt = some value.toInt := by
  unfold Number.ofI64
  split_ifs with h
  · rfl
  · have hNonneg := Int64.not_lt.mp h
    have hBack : (value.toUInt64.toNat : Int) = value.toInt := by
      rw [Int64.toNat_toUInt64_of_le hNonneg]
      exact Int.toNat_of_nonneg (by simpa using Int64.le_iff_toInt_le.mp hNonneg)
    rw [Number.toInt, hBack]

/-- A scalar that was read is admissible at its depth, and its failures are
structural. -/
theorem decodeScalar_outcome (hDepth : depth ≤ limits.maxDepth.toNat) (type : Minicbor.DataType)
    (input : Bytes) :
    Outcome (decodeScalar crates limits type input) (fun result => Decoded limits depth result.1)
      CborCodecError.Structural := by
  have hUnsigned : Outcome (decodeScalar crates limits .u64 input)
      (fun result => Decoded limits depth result.1) CborCodecError.Structural := by
    refine (Outcome.mapError fun _ => trivial).bind fun read _ => ?_
    refine Outcome.check (fun _ => trivial) fun hSafe => ?_
    exact ⟨.number hDepth _ (toInt_ofU64 read.1) (by simpa using hSafe), by simp [Value.ordered]⟩
  have hSigned : Outcome (decodeScalar crates limits .i64 input)
      (fun result => Decoded limits depth result.1) CborCodecError.Structural := by
    refine (Outcome.mapError fun _ => trivial).bind fun read _ => ?_
    refine Outcome.check (fun _ => trivial) fun hSafe => ?_
    exact ⟨.number hDepth _ (toInt_ofI64 read.1) (not_lt.mp hSafe), by simp [Value.ordered]⟩
  cases type with
  | bool =>
      refine (Outcome.mapError fun _ => trivial).bind fun read _ => ?_
      exact ⟨.bool hDepth, by simp [Value.ordered]⟩
  | u8 | u16 | u32 | u64 => exact hUnsigned
  | i8 | i16 | i32 | i64 => exact hSigned
  | string =>
      refine (Outcome.mapError fun _ => trivial).bind fun read _ => ?_
      refine Outcome.check (fun _ => trivial) fun hShort => ?_
      exact ⟨.string hDepth (not_lt.mp hShort), by simp [Value.ordered]⟩
  | _ => trivial

/-- The decoder returns admissible values only, and fails for structural reasons only:
no policy is looked at before the octets have been read. -/
theorem decodeValue_outcome (input : Bytes) :
    Outcome (decodeValue crates limits depth input) (fun result => Decoded limits depth result.1)
      CborCodecError.Structural := by
  induction hFuel : limits.maxDepth.toNat + 1 - depth generalizing depth input with
  | zero =>
      rw [decodeValue, if_pos (by omega)]
      trivial
  | succ fuel ih =>
      have hDepth : depth ≤ limits.maxDepth.toNat := by omega
      have hItem : ∀ input, Outcome (decodeValue crates limits (depth + 1) input)
          (fun result => Decoded limits (depth + 1) result.1) CborCodecError.Structural :=
        fun input => ih input (by omega)
      rw [decodeValue_of_shallow hDepth]
      refine (Outcome.mapError fun _ => trivial).bind fun type _ => ?_
      split
      · exact decodeArray_outcome hDepth hItem input
      · exact decodeMap_outcome hDepth hItem input
      · exact decodeScalar_outcome hDepth _ input

end Tfws
