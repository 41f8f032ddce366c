import Tfws.Core.Cbor

/-! What the encoder accepts and what it writes: exactly the values of the
manifest data model within the limits, as deterministic CBOR. -/
namespace Tfws

open SerdeJson Fallible Cbor

/-- The manifest data model within the limits: booleans, safe integers, texts,
arrays and maps, every one of them at an allowed depth and of an allowed size. -/
inductive Admissible (limits : CborLimits) : Nat → Value → Prop where
  | bool {depth : Nat} {value : Bool} (shallow : depth ≤ limits.maxDepth.toNat) :
      Admissible limits depth (.bool value)
  | number {depth : Nat} {number : Number} (shallow : depth ≤ limits.maxDepth.toNat)
      (integer : Int) (isInteger : number.toInt = some integer)
      (safe : integer.natAbs ≤ maxSafeInteger) : Admissible limits depth (.number number)
  | string {depth : Nat} {text : String} (shallow : depth ≤ limits.maxDepth.toNat)
      (short : (Utf8.encode text).length ≤ limits.maxStringBytes.toNat) :
      Admissible limits depth (.string text)
  | array {depth : Nat} {items : List Value} (shallow : depth ≤ limits.maxDepth.toNat)
      (short : items.length ≤ limits.maxArrayItems.toNat)
      (members : ∀ item ∈ items, Admissible limits (depth + 1) item) :
      Admissible limits depth (.array items)
  | object {depth : Nat} {entries : List (String × Value)}
      (shallow : depth ≤ limits.maxDepth.toNat)
      (short : entries.length ≤ limits.maxMapPairs.toNat)
      (keys : ∀ entry ∈ entries, (Utf8.encode entry.1).length ≤ limits.maxStringBytes.toNat)
      (fields : ∀ entry ∈ entries, Admissible limits (depth + 1) entry.2) :
      Admissible limits depth (.object entries)

variable {limits : CborLimits} {depth : Nat}

theorem Admissible.of_array {items : List Value} (h : Admissible limits depth (.array items)) :
    ∀ item ∈ items, Admissible limits (depth + 1) item := by
  cases h
  assumption

theorem Admissible.of_object {entries : List (String × Value)}
    (h : Admissible limits depth (.object entries)) :
    ∀ entry ∈ entries, Admissible limits (depth + 1) entry.2 := by
  cases h
  assumption

theorem Admissible.key_length_le {entries : List (String × Value)}
    (h : Admissible limits depth (.object entries)) :
    ∀ entry ∈ entries, (Utf8.encode entry.1).length ≤ limits.maxStringBytes.toNat := by
  cases h
  assumption

theorem Admissible.shallow {value : Value} (h : Admissible limits depth value) :
    depth ≤ limits.maxDepth.toNat := by
  cases h <;> assumption

/-- A number passes exactly if it is an integer of at most the safe magnitude. -/
theorem validateNumber_eq_ok {number : Number} :
    validateNumber number = .ok () ↔
      ∃ integer, number.toInt = some integer ∧ integer.natAbs ≤ maxSafeInteger := by
  cases number with
  | posInt value =>
      simp only [validateNumber, Number.asU64, Number.toInt, Option.some.injEq, exists_eq_left',
        Int.natAbs_natCast]
      split_ifs with h <;> simp [h]
  | negInt value =>
      simp only [validateNumber, Number.asU64, Number.asI64, Number.toInt, Option.some.injEq,
        exists_eq_left']
      split_ifs with h <;> simp [h]
  | float bits => simp [validateNumber, Number.asU64, Number.asI64, Number.toInt]

theorem validateItemsProfile_eq_ok {items : List Value} :
    validateItemsProfile limits depth items = .ok () ↔
      ∀ item ∈ items, validateValueProfile limits depth item = .ok () := by
  induction items with
  | nil => simp [validateItemsProfile]
  | cons item rest ih => simp [validateItemsProfile, then_eq_ok, ih]

theorem validateEntriesProfile_eq_ok {entries : List (String × Value)} :
    validateEntriesProfile limits depth entries = .ok () ↔
      ∀ entry ∈ entries, (Utf8.encode entry.1).length ≤ limits.maxStringBytes.toNat ∧
        validateValueProfile limits depth entry.2 = .ok () := by
  induction entries with
  | nil => simp [validateEntriesProfile]
  | cons entry rest ih => simp [validateEntriesProfile, then_eq_ok, ih, and_assoc]

/-- The profile check accepts the admissible values and no others, at any depth. By
induction on the value. -/
theorem validateValueProfile_eq_ok {value : Value} :
    validateValueProfile limits depth value = .ok () ↔ Admissible limits depth value := by
  induction value generalizing depth with
  | null =>
      refine ⟨fun h => ?_, fun h => by cases h⟩
      simp [validateValueProfile, then_eq_ok] at h
  | bool value =>
      simp only [validateValueProfile, failIf_eq_ok, not_lt]
      exact ⟨.bool, Admissible.shallow⟩
  | number number =>
      simp only [validateValueProfile, then_eq_ok, failIf_eq_ok, not_lt,
        validateNumber_eq_ok]
      constructor
      · rintro ⟨hDepth, integer, hInteger, hSafe⟩
        exact .number hDepth integer hInteger hSafe
      · rintro ⟨⟩
        exact ⟨‹_›, _, ‹_›, ‹_›⟩
  | string text =>
      simp only [validateValueProfile, then_eq_ok, failIf_eq_ok, not_lt]
      exact ⟨fun h => .string h.1 h.2, by rintro ⟨⟩; exact ⟨‹_›, ‹_›⟩⟩
  | array items ih =>
      simp only [validateValueProfile, then_eq_ok, failIf_eq_ok, not_lt,
        validateItemsProfile_eq_ok]
      constructor
      · rintro ⟨hDepth, hLength, hItems⟩
        exact .array hDepth hLength fun item hMem => (ih item hMem).mp (hItems item hMem)
      · intro h
        refine ⟨h.shallow, ?_, fun item hMem => (ih item hMem).mpr (h.of_array item hMem)⟩
        cases h
        assumption
  | object entries ih =>
      simp only [validateValueProfile, then_eq_ok, failIf_eq_ok, not_lt,
        validateEntriesProfile_eq_ok]
      constructor
      · rintro ⟨hDepth, hLength, hEntries⟩
        exact .object hDepth hLength (fun entry hMem => (hEntries entry hMem).1)
          fun entry hMem => (ih entry hMem).mp (hEntries entry hMem).2
      · intro h
        refine ⟨h.shallow, ?_, fun entry hMem =>
          ⟨h.key_length_le entry hMem, (ih entry hMem).mpr (h.of_object entry hMem)⟩⟩
        cases h
        assumption

theorem limit_lt (limit : UInt64) : limit.toNat < 18446744073709551616 := limit.toNat_lt

/-- The entries of an object in the order in which they are encoded, which is not that
of the names. -/
def sortFields (entries : List (String × Value)) : List (String × Value) :=
  entries.mergeSort fun left right =>
    (bytewise (Item.text left.1).encode (Item.text right.1).encode).isLE

/-- Sorting the fields neither adds one nor loses one. -/
theorem sortFields_perm (entries : List (String × Value)) :
    (sortFields entries).Perm entries :=
  List.mergeSort_perm _ _

theorem item_object_eq (entries : List (String × Value)) :
    (Value.object entries).item = .map ((sortFields entries).map Value.fieldItem) := by
  have hMap : (sortFields entries).map Value.fieldItem =
      Item.sortEntries (entries.map Value.fieldItem) := List.map_mergeSort fun _ _ _ _ => rfl
  rw [Value.item_object, hMap]

/-- Different names have different encodings, and so the order of encoded names is
strict. -/
theorem Item.encode_text_injective {first second : String}
    (hFirst : (Utf8.encode first).length < 18446744073709551616)
    (hSecond : (Utf8.encode second).length < 18446744073709551616)
    (h : (Item.text first).encode = (Item.text second).encode) : first = second :=
  Item.text.inj ((Item.Encodable.text hFirst).encode_inj (.text hSecond) h)

theorem sortFields_strict {entries : List (String × Value)}
    (h : entries.Pairwise fun left right =>
      (Item.text left.1).encode ≠ (Item.text right.1).encode) :
    (sortFields entries).Pairwise fun left right =>
      bytewise (Item.text left.1).encode (Item.text right.1).encode = .lt := by
  have hDistinct : Sorting.Distinct bytewise (fun entry => (Item.text entry.1).encode) entries :=
    h.imp fun hNe hEq => hNe (Std.LawfulEqCmp.eq_of_compare hEq)
  exact hDistinct.ascending_sortBy

/-- The sorted fields of an object ascend strictly by their encoded names, since no
two names are the same. -/
theorem sortFields_ascending {entries : List (String × Value)}
    (hSorted : SortedMap.Sorted entries)
    (hKeys : ∀ entry ∈ entries, (Utf8.encode entry.1).length < 18446744073709551616) :
    (sortFields entries).Pairwise fun left right =>
      bytewise (Item.text left.1).encode (Item.text right.1).encode = .lt := by
  refine sortFields_strict (List.Pairwise.imp_of_mem (fun hLeft hRight hLt hEq => ?_) hSorted)
  exact absurd (Item.encode_text_injective (hKeys _ hLeft) (hKeys _ hRight) hEq) (ne_of_lt hLt)

/-- Ascending fields are what sorting makes of any arrangement of themselves: the
order of a document is no choice. -/
theorem sortFields_eq_of_perm {fields shuffled : List (String × Value)}
    (hAscending : fields.Pairwise fun left right =>
      bytewise (Item.text left.1).encode (Item.text right.1).encode = .lt)
    (hPerm : shuffled.Perm fields) : sortFields shuffled = fields := by
  have hSorted : Sorting.Ascending bytewise (fun field => (Item.text field.1).encode) fields :=
    hAscending
  have hDistinct := (hPerm.pairwise_iff Sorting.ne_eq_symm).mpr hSorted.distinct
  exact ((Sorting.ascending_iff_eq_sortBy hDistinct hPerm.symm).mp hSorted).symm

/-- An admissible value whose objects are ordered maps is a deterministic item: every
head is preferred and every map in order. -/
theorem Admissible.deterministic {value : Value} (h : Admissible limits depth value)
    (hOrdered : value.ordered = true) :
    value.item.Encodable ∧ value.item.Ordered bytewise := by
  induction value generalizing depth with
  | null => cases h
  | bool value => exact ⟨.bool, .bool⟩
  | number number =>
      cases h with
      | number _ integer hInteger hSafe =>
          have hItem : number.item = .int integer := by
            cases number <;> cases hInteger <;> rfl
          rw [Value.item, hItem]
          unfold maxSafeInteger at hSafe
          exact ⟨.int (by omega) (by omega), .int⟩
  | string text =>
      cases h with
      | string _ hShort => exact ⟨.text (hShort.trans_lt (limit_lt _)), .text⟩
  | array items ih =>
      rw [Value.item_array]
      have hMembers := fun item hMem =>
        ih item hMem (h.of_array item hMem) (Value.ordered_array.mp hOrdered item hMem)
      cases h with
      | array _ hShort _ =>
          refine ⟨.array ?_ ?_, .array ?_⟩
          · rw [List.length_map]
            exact hShort.trans_lt (limit_lt _)
          · exact List.forall_mem_map.mpr fun item hMem => (hMembers item hMem).1
          · exact List.forall_mem_map.mpr fun item hMem => (hMembers item hMem).2
  | object entries ih =>
      rw [item_object_eq]
      obtain ⟨hSorted, hFieldsOrdered⟩ := Value.ordered_object.mp hOrdered
      have hKeys : ∀ entry ∈ entries, (Utf8.encode entry.1).length < 18446744073709551616 :=
        fun entry hMem => (h.key_length_le entry hMem).trans_lt (limit_lt _)
      have hFields := fun entry hMem =>
        ih entry hMem (h.of_object entry hMem) (hFieldsOrdered entry hMem)
      have hMem {entry : String × Value} : entry ∈ sortFields entries ↔ entry ∈ entries :=
        (sortFields_perm entries).mem_iff
      cases h with
      | object _ hShort _ _ =>
          refine ⟨.map ?_ ?_ ?_, .map ?_ ?_ ?_⟩
          · rw [List.length_map, (sortFields_perm entries).length_eq]
            exact hShort.trans_lt (limit_lt _)
          · exact List.forall_mem_map.mpr fun entry h => .text (hKeys entry (hMem.mp h))
          · exact List.forall_mem_map.mpr fun entry h => (hFields entry (hMem.mp h)).1
          · rw [List.pairwise_map]
            exact sortFields_ascending hSorted hKeys
          · exact List.forall_mem_map.mpr fun entry _ => .text
          · exact List.forall_mem_map.mpr fun entry h => (hFields entry (hMem.mp h)).2

variable {crates : Crates}

theorem toNat_ofNat_of_le {n : Nat} {limit : UInt64} (h : n ≤ limit.toNat) :
    (UInt64.ofNat n).toNat = n :=
  UInt64.toNat_ofNat_of_lt' (h.trans_lt (limit_lt limit))

/-- Every preferred head of a text key is written in front of it, so comparing what is
written is comparing items. -/
theorem compareEncodedKeys_text {left right : String}
    (hLeft : (Utf8.encode left).length < 18446744073709551616)
    (hRight : (Utf8.encode right).length < 18446744073709551616) :
    compareEncodedKeys (Item.text left).encode (Item.text right).encode =
      bytewise (Item.text left).encode (Item.text right).encode :=
  lengthFirst_encode_text hLeft hRight

theorem encodedTextKey_eq {key : String} (h : (Utf8.encode key).length < 18446744073709551616) :
    encodedTextKey crates key = .ok (Item.text key).encode := by
  simp [encodedTextKey, crates.encoder.str_eq key [] h]

/-- What `encode_value` collects for one field before sorting: the encoded key, the
key, and how to write the value. -/
def orderedField (crates : Crates) (limits : CborLimits) (depth : Nat)
    (field : String × Value) : Bytes × String × EncodeStep :=
  ((Item.text field.1).encode, field.1, encodeValue crates limits depth field.2)

theorem encodeEntries_eq {entries : List (String × Value)}
    (hKeys : ∀ entry ∈ entries, (Utf8.encode entry.1).length ≤ limits.maxStringBytes.toNat) :
    encodeEntries crates limits depth entries =
      .ok (entries.map (orderedField crates limits depth)) := by
  induction entries with
  | nil => rfl
  | cons entry rest ih =>
      obtain ⟨hKey, hRest⟩ := List.forall_mem_cons.mp hKeys
      rw [encodeEntries, failIf_of_not (not_lt.mpr hKey),
        encodedTextKey_eq (hKey.trans_lt (limit_lt _)), ih hRest]
      rfl

/-- Sorting the fields that have been prepared for writing is sorting the fields, so
that the encoder's steps need not be looked into. -/
theorem sort_orderedField {entries : List (String × Value)}
    (hKeys : ∀ entry ∈ entries, (Utf8.encode entry.1).length < 18446744073709551616) :
    ((entries.map (orderedField crates limits depth)).mergeSort fun left right =>
      (compareEncodedKeys left.1 right.1).isLE) =
      (sortFields entries).map (orderedField crates limits depth) :=
  (List.map_mergeSort fun left hLeft right hRight => by
    simp only [orderedField]
    rw [compareEncodedKeys_text (hKeys left hLeft) (hKeys right hRight)]).symm

/-- Fields are written one after the other, each name in front of its value. -/
theorem encodeOrdered_eq {fields : List (String × Value)} {out : Bytes}
    (hKeys : ∀ field ∈ fields, (Utf8.encode field.1).length < 18446744073709551616)
    (hItems : ∀ field ∈ fields, ∀ out,
      encodeValue crates limits depth field.2 out = .ok (out ++ field.2.item.encode)) :
    encodeOrdered crates (fields.map (orderedField crates limits depth)) out =
      .ok (out ++ Item.encodeEntries (fields.map Value.fieldItem)) := by
  induction fields generalizing out with
  | nil => simp [encodeOrdered, Item.encodeEntries]
  | cons field rest ih =>
      obtain ⟨hKey, hKeys⟩ := List.forall_mem_cons.mp hKeys
      obtain ⟨hItem, hItems⟩ := List.forall_mem_cons.mp hItems
      rw [List.map_cons, orderedField, encodeOrdered, crates.encoder.str_eq _ _ hKey]
      simp only [mapError_ok, ok_bind, hItem, ih hKeys hItems]
      simp [Item.encodeEntries, Value.fieldItem]

theorem encodeItems_eq {items : List Value} {out : Bytes}
    (hItems : ∀ item ∈ items, ∀ out,
      encodeValue crates limits depth item out = .ok (out ++ item.item.encode)) :
    encodeItems crates limits depth items out =
      .ok (out ++ Item.encodeItems (items.map Value.item)) := by
  induction items generalizing out with
  | nil => simp [encodeItems, Item.encodeItems]
  | cons item rest ih =>
      obtain ⟨hItem, hItems⟩ := List.forall_mem_cons.mp hItems
      rw [encodeItems, hItem, ok_bind, ih hItems]
      simp [Item.encodeItems]

/-- An admissible value is written as the deterministic encoding of its item, behind
what has been written before. -/
theorem encodeValue_eq {value : Value} (h : Admissible limits depth value) (out : Bytes) :
    encodeValue crates limits depth value out = .ok (out ++ value.item.encode) := by
  have hDepth := failIf_of_not (not_lt.mpr h.shallow)
    (CborCodecError.resourceLimit "nesting depth")
  induction value generalizing depth out with
  | null => cases h
  | bool value =>
      rw [encodeValue, hDepth, crates.encoder.bool_eq]
      rfl
  | number number =>
      have hNumber : validateNumber number = .ok () := by
        cases h with
        | number _ integer hInteger hSafe => exact validateNumber_eq_ok.mpr ⟨_, hInteger, hSafe⟩
      rw [encodeValue, hDepth, hNumber]
      cases number with
      | posInt value =>
          simp only [Number.asU64, crates.encoder.u64_eq]
          rfl
      | negInt value =>
          simp only [Number.asU64, Number.asI64, crates.encoder.i64_eq]
          rfl
      | float bits =>
          cases h with
          | number _ integer hInteger _ => cases hInteger
  | string text =>
      cases h with
      | string _ hShort =>
          rw [encodeValue, hDepth, failIf_of_not (not_lt.mpr hShort),
            crates.encoder.str_eq text out (hShort.trans_lt (limit_lt _))]
          rfl
  | array items ih =>
      have hItems := fun item hMem out =>
        ih item hMem (h.of_array item hMem) out
          (failIf_of_not (not_lt.mpr (h.of_array item hMem).shallow) _)
      cases h with
      | array _ hShort _ =>
          rw [encodeValue, hDepth, failIf_of_not (not_lt.mpr hShort), crates.encoder.array_eq,
            toNat_ofNat_of_le hShort]
          simp only [mapError_ok, ok_bind, encodeItems_eq hItems, Value.item_array, Item.encode,
            List.length_map, List.append_assoc]
  | object entries ih =>
      have hKeys := h.key_length_le
      have hKeyLimit : ∀ entry ∈ entries, (Utf8.encode entry.1).length < 18446744073709551616 :=
        fun entry hMem => (hKeys entry hMem).trans_lt (limit_lt _)
      have hItems := fun entry hMem out =>
        ih entry hMem (h.of_object entry hMem) out
          (failIf_of_not (not_lt.mpr (h.of_object entry hMem).shallow) _)
      have hMem {entry : String × Value} : entry ∈ sortFields entries → entry ∈ entries :=
        (sortFields_perm entries).mem_iff.mp
      have hLength : (sortFields entries).length = entries.length :=
        (sortFields_perm entries).length_eq
      cases h with
      | object _ hShort _ _ =>
          rw [encodeValue, hDepth, failIf_of_not (not_lt.mpr hShort), encodeEntries_eq hKeys]
          simp only [ok_bind, sort_orderedField hKeyLimit, List.length_map, hLength,
            crates.encoder.map_eq, mapError_ok, toNat_ofNat_of_le hShort]
          rw [encodeOrdered_eq (fun field h => hKeyLimit field (hMem h))
            (fun field h => hItems field (hMem h)), item_object_eq]
          simp only [Item.encode, List.length_map, hLength, List.append_assoc]

/-- The checked encoder succeeds exactly on admissible values, and what it writes is
the encoding of the item. -/
theorem encodeValueToVec_eq_ok {value : Value} {octets : Bytes} :
    encodeValueToVec crates limits value = .ok octets ↔
      Admissible limits 0 value ∧ octets = value.item.encode := by
  rw [encodeValueToVec, then_eq_ok, validateValueProfile_eq_ok]
  refine and_congr_right fun h => ?_
  rw [encodeValue_eq h, List.nil_append, Except.ok.injEq, eq_comm]

end Tfws
