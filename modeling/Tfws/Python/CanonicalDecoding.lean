import Tfws.Python.Canonical

/-! The decoder of the reference implementation accepts exactly the canonical
encodings: whatever it reads was one, and each of them is read back. -/
namespace Tfws.Python

open Fallible Cbor

/-- The objects that the decoder can return at a depth, with every limit and flag that
it checks on the way. -/
inductive Canonical (flags : Flags) : Nat → Object → Prop where
  | none {depth : Nat} (shallow : depth ≤ maxCborDepth) (allowed : flags.allowNull = true) :
      Canonical flags depth .none
  | bool {depth : Nat} {value : Bool} (shallow : depth ≤ maxCborDepth) :
      Canonical flags depth (.bool value)
  | int {depth : Nat} {value : Int} (shallow : depth ≤ maxCborDepth)
      (safe : value.natAbs ≤ maxSafeInteger) : Canonical flags depth (.int value)
  | str {depth : Nat} {text : String} (shallow : depth ≤ maxCborDepth)
      (short : (Utf8.encode text).length ≤ maxCborStringBytes) : Canonical flags depth (.str text)
  | bytes {depth : Nat} {octets : Bytes} (shallow : depth ≤ maxCborDepth)
      (short : octets.length ≤ maxCborStringBytes) (allowed : flags.allowBytes = true) :
      Canonical flags depth (.bytes octets)
  | list {depth : Nat} {items : List Object} (shallow : depth ≤ maxCborDepth)
      (short : items.length ≤ maxCborCollectionItems)
      (members : ∀ item ∈ items, Canonical flags (depth + 1) item) :
      Canonical flags depth (.list items)
  | dict {depth : Nat} {entries : List (Key × Object)} (shallow : depth ≤ maxCborDepth)
      (short : entries.length ≤ maxCborCollectionItems)
      (ascending : entries.Pairwise fun first second =>
        lengthFirst first.1.item.encode second.1.item.encode = .lt)
      (distinct : entries.Pairwise fun first second => first.1.equal second.1 = false)
      (keys : ∀ entry ∈ entries, Canonical flags (depth + 1) entry.1.object)
      (values : ∀ entry ∈ entries, Canonical flags (depth + 1) entry.2) :
      Canonical flags depth (.dict entries)
  | tag {depth : Nat} {number : Nat} {value : Object} (shallow : depth ≤ maxCborDepth)
      (allowed : flags.allowTags = true) (short : number < 18446744073709551616)
      (content : Canonical flags (depth + 1) value) : Canonical flags depth (.tag number value)

/-- Every failure of the decoder is reported as an `InteroperabilityError`, which its
callers expect. -/
def Exception.Interoperability : Exception → Prop
  | .interoperability _ _ => True
  | _ => False

variable {flags : Flags} {depth : Nat}

theorem Canonical.shallow {object : Object} (h : Canonical flags depth object) :
    depth ≤ maxCborDepth := by
  cases h <;> assumption

/-- What is announced by the additional information, apart from the argument itself: a
form of its own. -/
theorem argumentWidth_eq_some {additional width : Nat} :
    argumentWidth additional = some width ↔
      ∃ form : Form, form ≠ .inline ∧ form.width = width ∧
        ∀ n, form.additional n = additional := by
  constructor
  · intro h
    unfold argumentWidth at h
    split at h <;> cases h
    · exact ⟨.one, nofun, rfl, fun _ => rfl⟩
    · exact ⟨.two, nofun, rfl, fun _ => rfl⟩
    · exact ⟨.four, nofun, rfl, fun _ => rfl⟩
    · exact ⟨.eight, nofun, rfl, fun _ => rfl⟩
  · rintro ⟨form, hForm, rfl, hAdditional⟩
    rw [← hAdditional 0]
    cases form with
    | inline => exact absurd rfl hForm
    | one | two | four | eight => rfl

/-- The minimum of each width tells the preferred forms from the others: the decoder's
comparison is the definition. -/
theorem preferred_eq_iff {n : Nat} {form : Form} (hForm : form ≠ .inline) :
    preferred n = form ↔
      (form = .eight ∨ n < 256 ^ form.width) ∧ argumentMinimum form.width ≤ n := by
  unfold preferred
  cases form with
  | inline => exact absurd rfl hForm
  | one | two | four | eight =>
      split_ifs <;> simp [Form.width, argumentMinimum] <;> omega

theorem take_append {octets : Bytes} (rest : Bytes) :
    take octets.length (octets ++ rest) = .ok (octets, rest) := by
  simp [take, failIf]

theorem take_outcome (count : Nat) (input : Bytes) :
    Outcome (take count input)
      (fun result => result.1.length = count ∧ input = result.1 ++ result.2)
      Exception.Interoperability := by
  refine Outcome.check (fun _ => trivial) fun hLong => ?_
  exact ⟨List.length_take_of_le (not_lt.mp hLong), (List.take_append_drop count input).symm⟩

/-- The argument of a preferred head is read, whatever follows, in each of the five
forms. -/
theorem argument_preferred {n : Nat} (h : n < 18446744073709551616) (kind : String)
    (rest : Bytes) :
    argument ((preferred n).additional n) kind (bigEndian (preferred n).width n ++ rest) =
      .ok (n, rest) := by
  have hFits := fits_preferred h
  by_cases hInline : preferred n = .inline
  · rw [hInline] at hFits ⊢
    exact if_pos hFits
  · obtain ⟨_, hMinimum⟩ := (preferred_eq_iff hInline).mp rfl
    have hLarge : ¬(preferred n).additional n < 24 := by
      cases hCase : preferred n <;> simp_all [Form.additional]
    have hWidth : argumentWidth ((preferred n).additional n) = some (preferred n).width :=
      argumentWidth_eq_some.mpr ⟨_, hInline, rfl, fun m => by
        cases hCase : preferred n <;> first | exact absurd hCase hInline | rfl⟩
    have hValue : ofBigEndian (bigEndian (preferred n).width n) = n := by
      refine ofBigEndian_bigEndian ?_
      cases hCase : preferred n <;> rw [hCase] at hFits <;> first
        | exact absurd hCase hInline
        | exact hFits
    have hTake : take (bigEndian (preferred n).width n).length
        (bigEndian (preferred n).width n ++ rest) = .ok (bigEndian (preferred n).width n, rest) :=
      take_append rest
    rw [length_bigEndian] at hTake
    rw [argument, if_neg hLarge, hWidth]
    simp only [hTake, ok_bind, hValue, failIf_of_not (not_lt.mpr hMinimum)]

/-- Whatever is read as an argument stood there in its preferred form, and fits into
64 bits. -/
theorem argument_outcome {additional : Nat} (kind : String) (input : Bytes) :
    Outcome (argument additional kind input)
      (fun result => result.1 < 18446744073709551616 ∧
        (preferred result.1).additional result.1 = additional ∧
        input = bigEndian (preferred result.1).width result.1 ++ result.2)
      Exception.Interoperability := by
  unfold argument
  split_ifs with hInline
  · have hForm : preferred additional = .inline := if_pos hInline
    exact ⟨hInline.trans (by decide), by rw [hForm]; rfl, by rw [hForm]; rfl⟩
  · split
    · unfold failIf
      split_ifs <;> trivial
    · rename_i width hWidth
      obtain ⟨form, hForm, rfl, hAdditional⟩ := argumentWidth_eq_some.mp hWidth
      refine (take_outcome form.width input).bind fun ⟨octets, rest⟩ ⟨hLength, hInput⟩ => ?_
      refine Outcome.check (fun _ => trivial) fun hMinimum => ?_
      have hLt := ofBigEndian_lt octets
      have hWrite := bigEndian_ofBigEndian octets
      rw [hLength] at hLt hWrite
      have hPreferred := (preferred_eq_iff hForm).mpr ⟨Or.inr hLt, not_lt.mp hMinimum⟩
      refine ⟨hLt.trans_le ?_, ?_, ?_⟩
      · cases form <;> decide
      · rw [hPreferred, hAdditional]
      · rw [hPreferred, hWrite]
        exact hInput

/-- `result` is a canonical object together with what follows its encoding in
the input. -/
def Reads (flags : Flags) (depth : Nat) (input : Bytes) (result : Object × Bytes) : Prop :=
  Canonical flags depth result.1 ∧ input = result.1.item.encode ++ result.2

theorem cons_eq_head {initial : UInt8} {major n : Nat} (hMajor : initial.toNat / 32 = major)
    (hAdditional : (preferred n).additional n = initial.toNat % 32) (rest : Bytes) :
    initial :: (bigEndian (preferred n).width n ++ rest) = head major n ++ rest := by
  rw [head, Form.head, hAdditional, ← hMajor, initial_eq, List.cons_append]

/-- Whatever is read as an integer was encoded so, and every failure is one of
interoperability. -/
theorem decodeInteger_outcome {initial : UInt8} {major : Nat} (hDepth : depth ≤ maxCborDepth)
    (hMajor : initial.toNat / 32 = major) (hSign : major ≤ 1) (input : Bytes) :
    Outcome (decodeInteger major (initial.toNat % 32) input)
      (Reads flags depth (initial :: input)) Exception.Interoperability := by
  refine (argument_outcome _ input).bind fun ⟨value, rest⟩ ⟨hValue, hAdditional, hInput⟩ => ?_
  refine Outcome.check (fun _ => trivial) fun hSafe => ⟨.int hDepth (not_lt.mp hSafe), ?_⟩
  have hHead := cons_eq_head hMajor hAdditional rest
  rw [hInput, hHead, Object.item, Item.encode]
  obtain rfl | rfl : major = 0 ∨ major = 1 := by omega
  · rfl
  · have hNegative : ¬(0 : Int) ≤ -1 - (value : Int) := by omega
    have hBack : (-1 - (-1 - (value : Int))).toNat = value := by omega
    simp only [one_ne_zero, ↓reduceIte, hNegative, hBack]

/-- Whatever is read as a string was encoded so, and every failure is one of
interoperability. -/
theorem decodeString_outcome {initial : UInt8} {major : Nat} (hDepth : depth ≤ maxCborDepth)
    (hMajor : initial.toNat / 32 = major) (hString : major = 2 ∨ major = 3) (input : Bytes) :
    Outcome (decodeString flags major (initial.toNat % 32) input)
      (Reads flags depth (initial :: input)) Exception.Interoperability := by
  refine (argument_outcome _ input).bind fun ⟨length, rest⟩ ⟨hLength, hAdditional, hInput⟩ => ?_
  refine Outcome.check (fun _ => trivial) fun hShort => ?_
  refine (take_outcome length rest).bind fun ⟨raw, rest'⟩ ⟨hRaw, hRest⟩ => ?_
  subst hRaw
  have hHead := cons_eq_head hMajor hAdditional rest
  dsimp only at hRest hInput ⊢
  split_ifs with hBytes
  · refine Outcome.check (fun _ => trivial) fun hAllowed => ?_
    refine ⟨.bytes hDepth (not_lt.mp hShort) (by simpa using hAllowed), ?_⟩
    rw [hInput, hHead, hRest, hBytes, Object.item, Item.encode, List.append_assoc]
  · split
    · rename_i text hText
      obtain rfl := Utf8.decode_eq_some.mp hText
      refine ⟨.str hDepth (not_lt.mp hShort), ?_⟩
      rw [hInput, hHead, hRest, hString.resolve_left hBytes, Object.item, Item.encode,
        List.append_assoc]
    · trivial

theorem decodeMembers_outcome {decodeItem : Bytes → Result (Object × Bytes)}
    (hItem : ∀ input,
      Outcome (decodeItem input) (Reads flags depth input) Exception.Interoperability)
    (count : Nat) (input : Bytes) :
    Outcome (decodeMembers decodeItem count input)
      (fun result => result.1.length = count ∧ (∀ item ∈ result.1, Canonical flags depth item) ∧
        input = Item.encodeItems (result.1.map Object.item) ++ result.2)
      Exception.Interoperability := by
  induction count generalizing input with
  | zero => simp [decodeMembers, Item.encodeItems]
  | succ count ih =>
      refine (hItem input).bind fun first hFirst => ?_
      refine (ih first.2).bind fun others hOthers => ?_
      obtain ⟨hFirst, hInput⟩ := hFirst
      obtain ⟨hLength, hOthers, hRest⟩ := hOthers
      refine ⟨congrArg (· + 1) hLength, List.forall_mem_cons.mpr ⟨hFirst, hOthers⟩, ?_⟩
      rw [hInput, hRest, List.map_cons, Item.encodeItems, List.append_assoc]

theorem decodeArray_outcome {decodeItem : Bytes → Result (Object × Bytes)} {initial : UInt8}
    (hDepth : depth ≤ maxCborDepth) (hMajor : initial.toNat / 32 = 4)
    (hItem : ∀ input,
      Outcome (decodeItem input) (Reads flags (depth + 1) input) Exception.Interoperability)
    (input : Bytes) :
    Outcome (decodeArray decodeItem (initial.toNat % 32) input)
      (Reads flags depth (initial :: input)) Exception.Interoperability := by
  refine (argument_outcome _ input).bind fun ⟨length, rest⟩ ⟨_, hAdditional, hInput⟩ => ?_
  refine Outcome.check (fun _ => trivial) fun hShort => ?_
  refine (decodeMembers_outcome hItem length rest).bind
    fun ⟨items, rest'⟩ ⟨hLength, hItems, hRest⟩ => ?_
  subst hLength
  refine ⟨.list hDepth (not_lt.mp hShort) hItems, ?_⟩
  have hHead := cons_eq_head hMajor hAdditional rest
  dsimp only at hRest hInput hHead ⊢
  rw [hInput, hHead, hRest, Object.item_list, Item.encode, List.length_map, List.append_assoc]

/-- The pairs read so far, the encoding of the last key being `previous`. -/
structure PairsRead (flags : Flags) (depth : Nat) (entries : List (Key × Object))
    (previous : Option Bytes) : Prop where
  ascending : entries.Pairwise fun first second =>
    lengthFirst first.1.item.encode second.1.item.encode = .lt
  distinct : entries.Pairwise fun first second => first.1.equal second.1 = false
  keys : ∀ entry ∈ entries, Canonical flags depth entry.1.object
  values : ∀ entry ∈ entries, Canonical flags depth entry.2
  bounded : ∀ entry ∈ entries, ∃ last ∈ previous, (lengthFirst entry.1.item.encode last).isLE

/-- One more pair, behind the last key and different from all of them. -/
theorem PairsRead.append {entries : List (Key × Object)} {previous : Option Bytes}
    (h : PairsRead flags depth entries previous) {key : Key} {value : Object}
    (hOrder : ∀ last ∈ previous, lengthFirst last key.item.encode = .lt)
    (hFresh : Object.contains key entries = false) (hKey : Canonical flags depth key.object)
    (hValue : Canonical flags depth value) :
    PairsRead flags depth (entries ++ [(key, value)]) (some key.item.encode) := by
  have hBelow : ∀ entry ∈ entries, lengthFirst entry.1.item.encode key.item.encode = .lt := by
    intro entry hMem
    obtain ⟨last, hLast, hLe⟩ := h.bounded entry hMem
    exact Std.TransCmp.lt_of_isLE_of_lt hLe (hOrder last hLast)
  constructor
  · exact List.pairwise_append.mpr
      ⟨h.ascending, List.pairwise_singleton .., by simpa using hBelow⟩
  · refine List.pairwise_append.mpr ⟨h.distinct, List.pairwise_singleton .., ?_⟩
    simpa [Object.contains] using hFresh
  · exact List.forall_mem_append.mpr ⟨h.keys, by simpa using hKey⟩
  · exact List.forall_mem_append.mpr ⟨h.values, by simpa using hValue⟩
  · intro entry hMem
    refine ⟨_, rfl, ?_⟩
    rcases List.mem_append.mp hMem with hOld | hNew
    · rw [hBelow entry hOld]
      rfl
    · obtain rfl := List.mem_singleton.mp hNew
      exact Std.ReflCmp.isLE_rfl

/-- The pairs read are the encoding of entries with ascending, different keys, by
induction on their number. -/
theorem decodePairs_outcome {decodeItem : Bytes → Result (Object × Bytes)}
    (hItem : ∀ input,
      Outcome (decodeItem input) (Reads flags depth input) Exception.Interoperability)
    (count : Nat) {entries : List (Key × Object)} {previous : Option Bytes}
    (hEntries : PairsRead flags depth entries previous) (input : Bytes) :
    Outcome (decodePairs decodeItem count entries previous input)
      (fun result => ∃ added last, result.1 = entries ++ added ∧ added.length = count ∧
        PairsRead flags depth result.1 last ∧
        input = Item.encodeEntries (added.map Object.fieldItem) ++ result.2)
      Exception.Interoperability := by
  induction count generalizing entries previous input with
  | zero => exact ⟨[], previous, by simp, rfl, hEntries, rfl⟩
  | succ count ih =>
      refine (hItem input).bind fun ⟨object, rest⟩ ⟨hObject, hInput⟩ => ?_
      dsimp only at hObject hInput ⊢
      split
      · trivial
      rename_i key hKey
      obtain rfl := Object.key?_eq_some.mp hKey
      have hEncoding : input.take (input.length - rest.length) = key.item.encode := by
        rw [hInput, Object.item_key]
        exact List.take_left' (by simp)
      rw [hEncoding]
      refine Outcome.check (fun _ => trivial) fun hOrder => ?_
      refine Outcome.check (fun _ => trivial) fun hFresh => ?_
      refine (hItem rest).bind fun ⟨value, rest'⟩ ⟨hValue, hRest⟩ => ?_
      have hNext := hEntries.append (by simpa using hOrder) (by simpa using hFresh) hObject hValue
      refine (ih hNext rest').mono fun result ⟨added, last, hResult, hLength, hAll, hTail⟩ => ?_
      refine ⟨(key, value) :: added, last, by simpa using hResult, by simpa using hLength, hAll, ?_⟩
      rw [hInput, hRest, hTail, List.map_cons, Object.fieldItem, Item.encodeEntries,
        Object.item_key, List.append_assoc, List.append_assoc]

theorem decodeMap_outcome {decodeItem : Bytes → Result (Object × Bytes)} {initial : UInt8}
    (hDepth : depth ≤ maxCborDepth) (hMajor : initial.toNat / 32 = 5)
    (hItem : ∀ input,
      Outcome (decodeItem input) (Reads flags (depth + 1) input) Exception.Interoperability)
    (input : Bytes) :
    Outcome (decodeMap decodeItem (initial.toNat % 32) input)
      (Reads flags depth (initial :: input)) Exception.Interoperability := by
  refine (argument_outcome _ input).bind fun ⟨length, rest⟩ ⟨_, hAdditional, hInput⟩ => ?_
  refine Outcome.check (fun _ => trivial) fun hShort => ?_
  have hEmpty : PairsRead flags (depth + 1) [] none :=
    ⟨List.Pairwise.nil, List.Pairwise.nil, by simp, by simp, by simp⟩
  refine (decodePairs_outcome hItem length hEmpty rest).bind
    fun ⟨entries, rest'⟩ ⟨added, last, hAdded, hLength, hEntries, hRest⟩ => ?_
  obtain rfl : entries = added := by simpa using hAdded
  subst hLength
  refine ⟨.dict hDepth (not_lt.mp hShort) hEntries.ascending hEntries.distinct hEntries.keys
    hEntries.values, ?_⟩
  have hHead := cons_eq_head hMajor hAdditional rest
  dsimp only at hRest hInput hHead ⊢
  rw [hInput, hHead, hRest, Object.item_dict, Item.encode_map, List.length_map, List.append_assoc]

theorem decodeTag_outcome {decodeItem : Bytes → Result (Object × Bytes)} {initial : UInt8}
    (hDepth : depth ≤ maxCborDepth) (hMajor : initial.toNat / 32 = 6)
    (hItem : ∀ input,
      Outcome (decodeItem input) (Reads flags (depth + 1) input) Exception.Interoperability)
    (input : Bytes) :
    Outcome (decodeTag flags decodeItem (initial.toNat % 32) input)
      (Reads flags depth (initial :: input)) Exception.Interoperability := by
  refine (argument_outcome _ input).bind fun ⟨number, rest⟩ ⟨hNumber, hAdditional, hInput⟩ => ?_
  refine Outcome.check (fun _ => trivial) fun hAllowed => ?_
  refine (hItem rest).bind fun ⟨value, rest'⟩ ⟨hValue, hRest⟩ => ?_
  refine ⟨.tag hDepth (by simpa using hAllowed) hNumber hValue, ?_⟩
  have hHead := cons_eq_head hMajor hAdditional rest
  dsimp only at hRest hInput hHead ⊢
  rw [hInput, hHead, hRest, Object.item, Item.encode, List.append_assoc]

theorem decodeSimple_outcome {initial : UInt8} (hDepth : depth ≤ maxCborDepth)
    (hMajor : initial.toNat / 32 = 7) (input : Bytes) :
    Outcome (decodeSimple flags (initial.toNat % 32) input)
      (Reads flags depth (initial :: input)) Exception.Interoperability := by
  have hHead {n : Nat} (hSmall : n < 24) (hAdditional : initial.toNat % 32 = n) :
      initial :: input = head 7 n ++ input := by
    have hForm : preferred n = .inline := if_pos hSmall
    have hCons := cons_eq_head hMajor (by rw [hForm, hAdditional]; rfl) input
    rwa [hForm] at hCons
  unfold decodeSimple
  split_ifs with hFalse hTrue hNull
  · exact ⟨.bool hDepth, by rw [hHead (by decide) hFalse, Object.item, Item.encode]; rfl⟩
  · exact ⟨.bool hDepth, by rw [hHead (by decide) hTrue, Object.item, Item.encode]; rfl⟩
  · exact ⟨.none hDepth hNull.2, by rw [hHead (by decide) hNull.1, Object.item, Item.encode]⟩
  · trivial

/-- Whatever is read as an item was the encoding of a canonical object, at any
depth. -/
theorem decodeItem_outcome (input : Bytes) :
    Outcome (decodeItem flags depth input) (Reads flags depth input)
      Exception.Interoperability := by
  induction hFuel : maxCborDepth + 1 - depth generalizing depth input with
  | zero =>
      rw [decodeItem.eq_def, if_pos (by omega)]
      trivial
  | succ fuel ih =>
      have hDepth : depth ≤ maxCborDepth := by omega
      have hItem : ∀ input, Outcome (decodeItem flags (depth + 1) input)
          (Reads flags (depth + 1) input) Exception.Interoperability :=
        fun input => ih input (by omega)
      rw [decodeItem.eq_def, if_neg (by omega)]
      cases input with
      | nil => trivial
      | cons initial rest =>
          have hLt := initial.toNat_lt
          dsimp only
          match hMajor : initial.toNat / 32 with
          | 0 => exact decodeInteger_outcome hDepth hMajor (by decide) rest
          | 1 => exact decodeInteger_outcome hDepth hMajor (by decide) rest
          | 2 => exact decodeString_outcome hDepth hMajor (by decide) rest
          | 3 => exact decodeString_outcome hDepth hMajor (by decide) rest
          | 4 => exact decodeArray_outcome hDepth hMajor hItem rest
          | 5 => exact decodeMap_outcome hDepth hMajor hItem rest
          | 6 => exact decodeTag_outcome hDepth hMajor hItem rest
          | 7 => exact decodeSimple_outcome hDepth hMajor rest
          | _ + 8 => omega

theorem decodeItem_head {major n : Nat} (hDepth : depth ≤ maxCborDepth) (hMajor : major < 8)
    (hArgument : n < 18446744073709551616) (rest : Bytes) :
    decodeItem flags depth (head major n ++ rest) =
      decodeMajor flags (decodeItem flags (depth + 1)) major ((preferred n).additional n)
        (bigEndian (preferred n).width n ++ rest) := by
  have hAdditional := (fits_preferred hArgument).additional_lt.trans (by decide : 28 < 32)
  rw [decodeItem.eq_def, if_neg (not_lt.mpr hDepth), head, Form.head, List.cons_append]
  simp only [initial_div hMajor hAdditional, initial_mod major hAdditional]

theorem decodeMembers_encode {decodeItem : Bytes → Result (Object × Bytes)} {items : List Object}
    (hItems : ∀ item ∈ items, ∀ rest,
      decodeItem (item.item.encode ++ rest) = .ok (item, rest)) (rest : Bytes) :
    decodeMembers decodeItem items.length (Item.encodeItems (items.map Object.item) ++ rest) =
      .ok (items, rest) := by
  induction items with
  | nil => rfl
  | cons item items ih =>
      obtain ⟨hItem, hItems⟩ := List.forall_mem_cons.mp hItems
      rw [List.map_cons, Item.encodeItems, List.append_assoc, List.length_cons, decodeMembers,
        hItem]
      simp only [ok_bind, ih hItems]

/-- Canonical entries are read back in their order, with the entries before them and
the last key general. -/
theorem decodePairs_encode {decodeItem : Bytes → Result (Object × Bytes)}
    {fields entries : List (Key × Object)} {previous : Option Bytes}
    (hKeys : ∀ field ∈ fields, ∀ rest,
      decodeItem (field.1.object.item.encode ++ rest) = .ok (field.1.object, rest))
    (hValues : ∀ field ∈ fields, ∀ rest,
      decodeItem (field.2.item.encode ++ rest) = .ok (field.2, rest))
    (hAscending : fields.Pairwise fun first second =>
      lengthFirst first.1.item.encode second.1.item.encode = .lt)
    (hPrevious : ∀ field ∈ fields, ∀ last ∈ previous,
      lengthFirst last field.1.item.encode = .lt)
    (hDistinct : (entries ++ fields).Pairwise fun first second => first.1.equal second.1 = false)
    (rest : Bytes) :
    decodePairs decodeItem fields.length entries previous
        (Item.encodeEntries (fields.map Object.fieldItem) ++ rest) =
      .ok (entries ++ fields, rest) := by
  induction fields generalizing entries previous with
  | nil => simp [decodePairs, Item.encodeEntries]
  | cons field fields ih =>
      obtain ⟨hKey, hKeys⟩ := List.forall_mem_cons.mp hKeys
      obtain ⟨hValue, hValues⟩ := List.forall_mem_cons.mp hValues
      obtain ⟨hBelow, hAscending⟩ := List.pairwise_cons.mp hAscending
      obtain ⟨hAbove, _⟩ := List.forall_mem_cons.mp hPrevious
      have hOrder : ¬∃ last ∈ previous, lengthFirst last field.1.item.encode ≠ .lt :=
        not_exists.mpr fun last hLast => hLast.2 (hAbove last hLast.1)
      have hFresh : Object.contains field.1 entries = false := by
        have hOld := (List.pairwise_append.mp hDistinct).2.2
        simpa [Object.contains] using fun key value hMem =>
          hOld (key, value) hMem field (List.mem_cons_self ..)
      have hNext := ih hKeys hValues hAscending
        (fun next hMem last hLast => Option.some.inj hLast ▸ hBelow next hMem)
        (by rwa [List.append_assoc, List.singleton_append] :
          ((entries ++ [field]) ++ fields).Pairwise fun first second =>
            first.1.equal second.1 = false)
      have hTake (tail : Bytes) : (field.1.item.encode ++ tail).take
          ((field.1.item.encode ++ tail).length - tail.length) = field.1.item.encode :=
        List.take_left' (by simp)
      have hRead := hKey (field.2.item.encode ++
        (Item.encodeEntries (fields.map Object.fieldItem) ++ rest))
      rw [Object.item_key] at hRead
      rw [List.map_cons, Object.fieldItem, Item.encodeEntries, List.append_assoc,
        List.append_assoc, List.length_cons, decodePairs, hRead]
      simp only [ok_bind, hTake, Object.key?_eq_some.mpr rfl, failIf_of_not hOrder,
        failIf_of_not (Bool.eq_false_iff.mp hFresh), hValue, hNext]
      simp

/-- A canonical object is read back from its encoding, whatever follows. By induction
on the object. -/
theorem decodeItem_encode {object : Object} (h : Canonical flags depth object) (rest : Bytes) :
    decodeItem flags depth (object.item.encode ++ rest) = .ok (object, rest) := by
  induction h generalizing rest with
  | none hDepth hAllowed =>
      rw [Object.item, Item.encode, decodeItem_head hDepth (by decide) (by decide)]
      simp [decodeMajor, decodeSimple, preferred, Form.additional, Form.width, bigEndian, hAllowed]
  | @bool _ value hDepth =>
      rw [Object.item, Item.encode, decodeItem_head hDepth (by decide) (by split <;> decide)]
      cases value <;>
        simp [decodeMajor, decodeSimple, preferred, Form.additional, Form.width, bigEndian]
  | @int _ value hDepth hSafe =>
      have hBound : value.natAbs < 18446744073709551615 := hSafe.trans_lt (by decide)
      have hFail := not_lt.mpr hSafe
      rw [Object.item, Item.encode]
      split_ifs with hSign
      · have hBack : (value.toNat : Int) = value := Int.toNat_of_nonneg hSign
        rw [decodeItem_head hDepth (by decide) (by omega), decodeMajor, decodeInteger,
          argument_preferred (by omega)]
        simp only [ok_bind, ↓reduceIte, hBack, failIf_of_not hFail]
      · have hBack : -1 - ((-1 - value).toNat : Int) = value := by omega
        rw [decodeItem_head hDepth (by decide) (by omega), decodeMajor, decodeInteger,
          argument_preferred (by omega)]
        simp only [ok_bind, one_ne_zero, ↓reduceIte, hBack, failIf_of_not hFail]
  | str hDepth hShort =>
      have hLength := hShort.trans_lt (by decide : maxCborStringBytes < 18446744073709551616)
      rw [Object.item, Item.encode, List.append_assoc, decodeItem_head hDepth (by decide) hLength,
        decodeMajor, decodeString, argument_preferred hLength]
      simp only [ok_bind, failIf_of_not (not_lt.mpr hShort), take_append, Utf8.decode_encode,
        Nat.reduceEqDiff, ↓reduceIte]
  | bytes hDepth hShort hAllowed =>
      have hLength := hShort.trans_lt (by decide : maxCborStringBytes < 18446744073709551616)
      rw [Object.item, Item.encode, List.append_assoc, decodeItem_head hDepth (by decide) hLength,
        decodeMajor, decodeString, argument_preferred hLength]
      simp only [ok_bind, failIf_of_not (not_lt.mpr hShort), take_append, hAllowed,
        Bool.true_eq_false, not_false_eq_true, failIf_of_not, ↓reduceIte]
  | @list _ items hDepth hShort _ ih =>
      have hLength :=
        hShort.trans_lt (by decide : maxCborCollectionItems < 18446744073709551616)
      rw [Object.item_list, Item.encode, List.length_map, List.append_assoc,
        decodeItem_head hDepth (by decide) hLength, decodeMajor, decodeArray,
        argument_preferred hLength]
      simp only [ok_bind, failIf_of_not (not_lt.mpr hShort), decodeMembers_encode ih]
  | @dict _ entries hDepth hShort hAscending hDistinct _ _ ihKeys ihValues =>
      have hLength :=
        hShort.trans_lt (by decide : maxCborCollectionItems < 18446744073709551616)
      have hPairs : decodePairs _ entries.length [] none _ = .ok ([] ++ entries, rest) :=
        decodePairs_encode ihKeys ihValues hAscending (by simp) (by simpa using hDistinct) rest
      rw [Object.item_dict, Item.encode_map, List.length_map, List.append_assoc,
        decodeItem_head hDepth (by decide) hLength, decodeMajor, decodeMap,
        argument_preferred hLength]
      simp only [ok_bind, failIf_of_not (not_lt.mpr hShort), hPairs, List.nil_append]
  | tag hDepth hAllowed hNumber _ ih =>
      rw [Object.item, Item.encode, List.append_assoc,
        decodeItem_head hDepth (by decide) hNumber, decodeMajor, decodeTag,
        argument_preferred hNumber]
      simp only [ok_bind, hAllowed, Bool.true_eq_false, not_false_eq_true, failIf_of_not, ih]

/-- The decoder is exact: a document is accepted if and only if it is the encoding of
a canonical object, which is the one returned. -/
theorem decodeCborDocument_eq_ok {data : Bytes} {object : Object} :
    decodeCborDocument flags data = .ok object ↔
      data.length ≤ maxCborBytes ∧ Canonical flags 0 object ∧ data = object.item.encode := by
  constructor
  · intro h
    obtain ⟨hShort, h⟩ := then_eq_ok.mp h
    obtain ⟨⟨value, rest⟩, hItem, h⟩ := bind_eq_ok.mp h
    obtain ⟨hRest, hValue⟩ := then_eq_ok.mp h
    obtain rfl := Except.ok.inj hValue
    obtain ⟨hCanonical, hData⟩ := (decodeItem_outcome data).of_ok hItem
    obtain rfl : rest = [] := by simpa using hRest
    exact ⟨not_lt.mp (failIf_eq_ok.mp hShort), hCanonical, by simpa using hData⟩
  · rintro ⟨hShort, hCanonical, rfl⟩
    have hItem := decodeItem_encode hCanonical []
    rw [List.append_nil] at hItem
    rw [decodeCborDocument, failIf_of_not (not_lt.mpr hShort), ok_bind, hItem]
    simp only [ok_bind, failIf_ne_self]

end Tfws.Python
