import Tfws.Python.JsonReading

/-! Which JSON value an object is, said without a text: canonical texts are the
same exactly for objects that are the same JSON value. -/
namespace Tfws.Python

open Fallible

namespace Object

/-- The dictionaries have different keys, as those of Python have, at every depth. A
list of entries alone would not say so. -/
inductive Proper : Object → Prop where
  | none : Proper .none
  | bool {value : Bool} : Proper (.bool value)
  | int {value : Int} : Proper (.int value)
  | float {bits : UInt64} : Proper (.float bits)
  | str {text : String} : Proper (.str text)
  | bytes {octets : Bytes} : Proper (.bytes octets)
  | list {items : List Object} (members : ∀ item ∈ items, Proper item) : Proper (.list items)
  | dict {entries : List (Key × Object)} (distinct : DistinctKeys entries)
      (members : ∀ entry ∈ entries, Proper entry.2) : Proper (.dict entries)
  | tag {number : Nat} {value : Object} (content : Proper value) : Proper (.tag number value)

end Object

/-- The same JSON value. Dictionaries have the same names, in any order, and the
same values under them; a boolean is never a number. -/
inductive JsonEq : Object → Object → Prop where
  | none : JsonEq .none .none
  | bool (value : Bool) : JsonEq (.bool value) (.bool value)
  | int (value : Int) : JsonEq (.int value) (.int value)
  | str (text : String) : JsonEq (.str text) (.str text)
  | list {items items' : List Object} (length : items.length = items'.length)
      (members : ∀ (place : Nat) (item item' : Object), items[place]? = some item →
        items'[place]? = some item' → JsonEq item item') : JsonEq (.list items) (.list items')
  | dict {entries entries' : List (Key × Object)}
      (names : ∀ name, (Object.get (.str name) entries).isSome =
        (Object.get (.str name) entries').isSome)
      (values : ∀ (name : String) (value value' : Object),
        Object.get (.str name) entries = some value →
        Object.get (.str name) entries' = some value' → JsonEq value value') :
      JsonEq (.dict entries) (.dict entries')

namespace Object

theorem DistinctKeys.get_of_mem {name : String} {value : Object} {entries : List (Key × Object)}
    (hDistinct : DistinctKeys entries) (h : (.str name, value) ∈ entries) :
    get (.str name) entries = some value := by
  induction entries with
  | nil => cases h
  | cons entry rest ih =>
      obtain ⟨hFirst, hRest⟩ := List.pairwise_cons.mp hDistinct
      rw [get_cons]
      rcases List.mem_cons.mp h with rfl | hMember
      · exact if_pos (Key.equal_str_iff.mpr rfl)
      · rw [hFirst _ hMember]
        exact ih hRest hMember

/-- The fields of a dictionary have different names, because only texts have names. -/
theorem DistinctKeys.fields {entries : List (Key × Object)} {fields : List (String × Json.Value)}
    (hDistinct : DistinctKeys entries)
    (h : List.Forall₂ (fun entry field => jsonEntry entry = some field) entries fields) :
    fields.Pairwise fun first second => first.1 ≠ second.1 := by
  apply Traversal.pairwise_right h hDistinct
  intro first second field other hFirst hSecond hKeys hSame
  rw [(jsonEntry_eq_some.mp hFirst).1, (jsonEntry_eq_some.mp hSecond).1, hSame] at hKeys
  simp [Key.equal] at hKeys

/-- The map that a dictionary is written as holds the values under its names. -/
theorem json_dict_lookup {entries : List (Key × Object)} {result : Json.Value}
    (hDistinct : DistinctKeys entries) (h : (Object.dict entries).json = some result) :
    ∃ fields, result = .object fields ∧ SortedMap.Sorted fields ∧
      ∀ name, SortedMap.lookup name fields = (get (.str name) entries).bind json := by
  obtain ⟨fields, rfl, hFields⟩ := json_dict.mp h
  have hSorted : SortedMap.Sorted (SortedMap.insertAll [] fields) :=
    SortedMap.Sorted.insertAll List.Pairwise.nil fields
  have hPerm : (SortedMap.insertAll [] fields).Perm (fields ++ []) :=
    SortedMap.insertAll_perm (hDistinct.fields hFields) (by simp)
  rw [List.append_nil] at hPerm
  refine ⟨_, rfl, hSorted, ?_⟩
  intro name
  cases hValue : get (.str name) entries with
  | some value =>
      obtain ⟨field, hField, hRelated⟩ := Traversal.exists_right hFields (mem_of_get hValue)
      obtain ⟨hName, hJson⟩ := jsonEntry_eq_some.mp hRelated
      obtain rfl := Key.str.inj hName
      exact (hSorted.lookup_of_mem (hPerm.mem_iff.mpr hField)).trans hJson.symm
  | none =>
      apply Option.eq_none_iff_forall_not_mem.mpr
      intro member hMember
      have hField := hPerm.mem_iff.mp (SortedMap.mem_of_lookup hMember)
      obtain ⟨entry, hEntry, hRelated⟩ := Traversal.exists_left hFields hField
      obtain ⟨key, value⟩ := entry
      obtain rfl : key = .str name := (jsonEntry_eq_some.mp hRelated).1
      rw [hDistinct.get_of_mem hEntry] at hValue
      cases hValue

theorem json_dict_member {entries : List (Key × Object)} {result : Json.Value}
    (h : (Object.dict entries).json = some result) {name : String} {value : Object}
    (hValue : get (.str name) entries = some value) : ∃ member, value.json = some member := by
  obtain ⟨fields, -, hFields⟩ := json_dict.mp h
  obtain ⟨field, -, hField⟩ := Traversal.exists_right hFields (mem_of_get hValue)
  exact ⟨_, (jsonEntry_eq_some.mp hField).2⟩

theorem isSome_bind_json {entries : List (Key × Object)} {result : Json.Value}
    (h : (Object.dict entries).json = some result) (name : String) :
    ((get (.str name) entries).bind json).isSome = (get (.str name) entries).isSome := by
  cases hValue : get (.str name) entries with
  | none => rfl
  | some value =>
      obtain ⟨member, hMember⟩ := json_dict_member h hValue
      rw [Option.bind_some, hMember]
      rfl

/-- Objects that are the same JSON value are written from the same value. -/
theorem json_eq_of_jsonEq {first second : Object} (h : JsonEq first second) :
    ∀ {value other : Json.Value}, first.Proper → second.Proper → first.json = some value →
      second.json = some other → value = other := by
  induction h with
  | none | bool _ | int _ | str _ =>
      intro value other _ _ hFirst hSecond
      exact Option.some.inj (hFirst.symm.trans hSecond)
  | @list items items' hLength _ ih =>
      intro value other hProper hProper' hFirst hSecond
      obtain ⟨values, rfl, hValues⟩ := json_list.mp hFirst
      obtain ⟨others, rfl, hOthers⟩ := json_list.mp hSecond
      cases hProper with
      | list hMembers =>
      cases hProper' with
      | list hMembers' =>
      apply congrArg Json.Value.array
      apply List.ext_getElem?
      intro place
      cases hItem : items[place]? with
      | none =>
          have hPlace := List.getElem?_eq_none_iff.mp hItem
          rw [List.getElem?_eq_none (hValues.length_eq ▸ hPlace),
            List.getElem?_eq_none (hOthers.length_eq ▸ hLength ▸ hPlace)]
      | some item =>
          have hPlace : place < items'.length :=
            hLength ▸ (List.getElem?_eq_some_iff.mp hItem).1
          have hItem' : items'[place]? = some items'[place] := List.getElem?_eq_getElem hPlace
          obtain ⟨result, hResult, hJson⟩ := Traversal.exists_getElem? hValues hItem
          obtain ⟨result', hResult', hJson'⟩ := Traversal.exists_getElem? hOthers hItem'
          rw [hResult, hResult', ih place item _ hItem hItem'
            (hMembers item (List.mem_of_getElem? hItem))
            (hMembers' _ (List.mem_of_getElem? hItem')) hJson hJson']
  | @dict entries entries' hNames _ ih =>
      intro value other hProper hProper' hFirst hSecond
      cases hProper with
      | dict hDistinct hMembers =>
      cases hProper' with
      | dict hDistinct' hMembers' =>
      obtain ⟨fields, rfl, hSorted, hLookup⟩ := json_dict_lookup hDistinct hFirst
      obtain ⟨others, rfl, hSorted', hLookup'⟩ := json_dict_lookup hDistinct' hSecond
      apply congrArg Json.Value.object
      apply hSorted.ext_lookup hSorted'
      intro name
      have hName := hNames name
      rw [hLookup, hLookup']
      cases hValue : get (.str name) entries with
      | none =>
          rw [hValue, Option.isSome_none] at hName
          rw [Option.not_isSome_iff_eq_none.mp (Bool.eq_false_iff.mp hName.symm)]
      | some member =>
          rw [hValue, Option.isSome_some] at hName
          obtain ⟨member', hValue'⟩ := Option.isSome_iff_exists.mp hName.symm
          obtain ⟨result, hResult⟩ := json_dict_member hFirst hValue
          obtain ⟨result', hResult'⟩ := json_dict_member hSecond hValue'
          rw [hValue', Option.bind_some, Option.bind_some, hResult, hResult',
            ih name member member' hValue hValue' (hMembers _ (mem_of_get hValue))
              (hMembers' _ (mem_of_get hValue')) hResult hResult']

theorem json_scalar {object : Object} {value : Json.Value} (h : object.json = some value) :
    (value = .null → object = .none) ∧ (∀ truth, value = .bool truth → object = .bool truth) ∧
      (∀ number, value = .int number → object = .int number) ∧
      ∀ text, value = .string text → object = .str text := by
  cases object with
  | none | bool _ | int _ | str _ =>
      obtain rfl := Option.some.inj h
      simp
  | float _ | bytes _ | tag _ _ => cases h
  | list items =>
      obtain ⟨values, rfl, -⟩ := json_list.mp h
      simp
  | dict entries =>
      obtain ⟨fields, rfl, -⟩ := json_dict.mp h
      simp

theorem json_array {object : Object} {values : List Json.Value}
    (h : object.json = some (.array values)) : ∃ items, object = .list items := by
  cases object with
  | list items => exact ⟨items, rfl⟩
  | none | bool _ | int _ | str _ | float _ | bytes _ | tag _ _ => cases h
  | dict entries =>
      obtain ⟨fields, hFields, -⟩ := json_dict.mp h
      cases hFields

theorem json_object {object : Object} {fields : List (String × Json.Value)}
    (h : object.json = some (.object fields)) : ∃ entries, object = .dict entries := by
  cases object with
  | dict entries => exact ⟨entries, rfl⟩
  | none | bool _ | int _ | str _ | float _ | bytes _ | tag _ _ => cases h
  | list items =>
      obtain ⟨values, hValues, -⟩ := json_list.mp h
      cases hValues

theorem jsonEq_list {items : List Object} {second : Object} {value : Json.Value}
    (hProper : (Object.list items).Proper) (hProper' : second.Proper)
    (hFirst : (Object.list items).json = some value) (hSecond : second.json = some value)
    (hItems : ∀ item ∈ items, ∀ {other : Object} {member : Json.Value}, item.Proper →
      other.Proper → item.json = some member → other.json = some member → JsonEq item other) :
    JsonEq (.list items) second := by
  obtain ⟨values, rfl, hValues⟩ := json_list.mp hFirst
  obtain ⟨items', rfl⟩ := json_array hSecond
  obtain ⟨others, hOther, hOthers⟩ := json_list.mp hSecond
  obtain rfl := Json.Value.array.inj hOther
  cases hProper with
  | list hMembers =>
  cases hProper' with
  | list hMembers' =>
  apply JsonEq.list (hValues.length_eq.trans hOthers.length_eq.symm)
  intro place item item' hItem hItem'
  obtain ⟨result, hResult, hJson⟩ := Traversal.exists_getElem? hValues hItem
  obtain ⟨result', hResult', hJson'⟩ := Traversal.exists_getElem? hOthers hItem'
  obtain rfl := Option.some.inj (hResult.symm.trans hResult')
  exact hItems item (List.mem_of_getElem? hItem) (hMembers item (List.mem_of_getElem? hItem))
    (hMembers' item' (List.mem_of_getElem? hItem')) hJson hJson'

theorem jsonEq_dict {entries : List (Key × Object)} {second : Object} {value : Json.Value}
    (hProper : (Object.dict entries).Proper) (hProper' : second.Proper)
    (hFirst : (Object.dict entries).json = some value) (hSecond : second.json = some value)
    (hEntries : ∀ entry ∈ entries, ∀ {other : Object} {member : Json.Value}, entry.2.Proper →
      other.Proper → entry.2.json = some member → other.json = some member →
        JsonEq entry.2 other) :
    JsonEq (.dict entries) second := by
  cases hProper with
  | dict hDistinct hMembers =>
  obtain ⟨fields, rfl, -, hLookup⟩ := json_dict_lookup hDistinct hFirst
  obtain ⟨entries', rfl⟩ := json_object hSecond
  cases hProper' with
  | dict hDistinct' hMembers' =>
  obtain ⟨others, hOther, -, hLookup'⟩ := json_dict_lookup hDistinct' hSecond
  obtain rfl := Json.Value.object.inj hOther
  have hBoth (name : String) : (get (.str name) entries).bind json =
      (get (.str name) entries').bind json := (hLookup name).symm.trans (hLookup' name)
  apply JsonEq.dict
  · intro name
    have hName := congrArg Option.isSome (hBoth name)
    rwa [isSome_bind_json hFirst, isSome_bind_json hSecond] at hName
  · intro name member member' hValue hValue'
    have hSame := hBoth name
    rw [hValue, hValue', Option.bind_some, Option.bind_some] at hSame
    obtain ⟨result, hResult⟩ := json_dict_member hFirst hValue
    exact hEntries _ (mem_of_get hValue) (hMembers _ (mem_of_get hValue))
      (hMembers' _ (mem_of_get hValue')) hResult (hSame ▸ hResult)

/-- Objects that are written from the same value are the same JSON value. -/
theorem jsonEq_of_json_eq {first : Object} :
    ∀ {second : Object} {value : Json.Value}, first.Proper → second.Proper →
      first.json = some value → second.json = some value → JsonEq first second := by
  induction first with
  | none =>
      intro second value _ _ hFirst hSecond
      rw [(json_scalar hSecond).1 (Option.some.inj hFirst).symm]
      exact .none
  | bool truth =>
      intro second value _ _ hFirst hSecond
      rw [(json_scalar hSecond).2.1 truth (Option.some.inj hFirst).symm]
      exact .bool truth
  | int number =>
      intro second value _ _ hFirst hSecond
      rw [(json_scalar hSecond).2.2.1 number (Option.some.inj hFirst).symm]
      exact .int number
  | str text =>
      intro second value _ _ hFirst hSecond
      rw [(json_scalar hSecond).2.2.2 text (Option.some.inj hFirst).symm]
      exact .str text
  | float _ | bytes _ | tag _ _ =>
      intro second value _ _ hFirst
      cases hFirst
  | list items ih =>
      intro second value hProper hProper' hFirst hSecond
      exact jsonEq_list hProper hProper' hFirst hSecond fun item hMem => ih item hMem
  | dict entries ih =>
      intro second value hProper hProper' hFirst hSecond
      exact jsonEq_dict hProper hProper' hFirst hSecond fun entry hMem => ih entry hMem

/-- An object that is written as data of the profile passes `_validate`, at every path
of a message. -/
theorem validate_of_json {object : Object} {value : Json.Value} (hProper : object.Proper)
    (h : object.json = some value) (hProfile : InProfile value) :
    ∀ path, object.validate path = .ok () := by
  induction object generalizing value with
  | none | bool _ | str _ => exact fun _ => rfl
  | int _ =>
      obtain rfl := Option.some.inj h
      cases hProfile with
      | int hSafe => exact fun _ => failIf_of_not (not_not.mpr hSafe) _
  | float _ | bytes _ | tag _ _ => cases h
  | list items ih =>
      obtain ⟨values, rfl, hValues⟩ := json_list.mp h
      cases hProper with
      | list hMembers =>
      cases hProfile with
      | array hProfiles =>
      intro path
      rw [validate]
      apply validateItems_of_forall
      intro item hItem
      obtain ⟨member, hMember, hJson⟩ := Traversal.exists_right hValues hItem
      exact ih item hItem (hMembers item hItem) hJson (hProfiles member hMember)
  | dict entries ih =>
      cases hProper with
      | dict hDistinct hMembers =>
      obtain ⟨fields, rfl, -, hLookup⟩ := json_dict_lookup hDistinct h
      cases hProfile with
      | object hProfiles =>
      obtain ⟨_, -, hFields⟩ := json_dict.mp h
      intro path
      rw [validate]
      apply validateEntries_of_forall
      intro entry hEntry
      obtain ⟨key, item⟩ := entry
      obtain ⟨field, -, hField⟩ := Traversal.exists_right hFields hEntry
      obtain rfl : key = .str field.1 := (jsonEntry_eq_some.mp hField).1
      have hFound := hLookup field.1
      rw [hDistinct.get_of_mem hEntry, Option.bind_some, (jsonEntry_eq_some.mp hField).2] at hFound
      refine ⟨⟨field.1, rfl⟩, ?_⟩
      exact ih _ hEntry (hMembers _ hEntry) (jsonEntry_eq_some.mp hField).2
        (hProfiles _ (SortedMap.mem_of_lookup hFound))

theorem value_mem_setItem {α : Type} {key : Key} {value : α} {entries : List (Key × α)}
    {entry : Key × α} (h : entry ∈ setItem key value entries) :
    entry.2 = value ∨ ∃ old ∈ entries, old.2 = entry.2 := by
  induction entries with
  | nil =>
      obtain rfl := List.mem_singleton.mp h
      exact .inl rfl
  | cons first rest ih =>
      rw [setItem] at h
      split_ifs at h
      · rcases List.mem_cons.mp h with rfl | hMember
        · exact .inl rfl
        · exact .inr ⟨entry, List.mem_cons_of_mem _ hMember, rfl⟩
      · rcases List.mem_cons.mp h with rfl | hMember
        · exact .inr ⟨first, List.mem_cons_self .., rfl⟩
        · rcases ih hMember with hSame | ⟨old, hOld, hSame⟩
          · exact .inl hSame
          · exact .inr ⟨old, List.mem_cons_of_mem _ hOld, hSame⟩

/-- The values of a dictionary are values that were entered; the others were
overwritten. -/
theorem value_mem_setItems {α : Type} {start pairs : List (Key × α)} {entry : Key × α}
    (h : entry ∈ setItems start pairs) :
    (∃ old ∈ start, old.2 = entry.2) ∨ ∃ pair ∈ pairs, pair.2 = entry.2 := by
  induction pairs generalizing start with
  | nil => exact .inl ⟨entry, h, rfl⟩
  | cons pair rest ih =>
      rcases ih h with ⟨old, hOld, hSame⟩ | ⟨other, hOther, hSame⟩
      · rcases value_mem_setItem hOld with hPair | ⟨older, hOlder, hOldest⟩
        · exact .inr ⟨pair, List.mem_cons_self .., hPair.symm.trans hSame⟩
        · exact .inl ⟨older, hOlder, hOldest.trans hSame⟩
      · exact .inr ⟨other, List.mem_cons_of_mem _ hOther, hSame⟩

/-- What was read has no key twice, at any depth, even where the text repeats a
name. -/
theorem proper_ofJson {float : String → UInt64} {value : Json.Value} {object : Object}
    (h : ofJson float value = some object) : object.Proper := by
  induction value generalizing object with
  | null | bool _ | int _ | decimal _ | string _ =>
      obtain rfl := Option.some.inj h
      constructor
  | unpaired => cases h
  | array items ih =>
      rw [ofJson, ofJsonItems_eq_mapM] at h
      obtain ⟨objects, hObjects, rfl⟩ := Option.map_eq_some_iff.mp h
      apply Proper.list
      intro member hMember
      obtain ⟨item, hItem, hRead⟩ :=
        Traversal.exists_left (Traversal.mapM_eq_some.mp hObjects) hMember
      exact ih item hItem hRead
  | object fields ih =>
      have hDistinct := h
      rw [ofJson, ofJsonFields_eq_map] at h
      obtain ⟨entries, hEntries, rfl⟩ := Option.map_eq_some_iff.mp h
      apply Proper.dict (distinctKeys_ofJson hDistinct)
      intro entry hEntry
      obtain ⟨pair, hPair, hPresent⟩ :=
        Traversal.exists_left (Traversal.mapM_eq_some.mp hEntries) hEntry
      obtain ⟨member, hValue, rfl⟩ := Option.map_eq_some_iff.mp hPresent
      rcases value_mem_setItems hPair with ⟨_, hNone, -⟩ | ⟨source, hSource, hSame⟩
      · cases hNone
      · obtain ⟨field, hField, rfl⟩ := List.mem_map.mp hSource
        exact ih field hField (hSame.trans hValue)

end Object

/-- `json.loads` of UTF-8, with a function for the texts of floats. Integers are read
exactly. -/
def jsonLoads (float : String → UInt64) (octets : Bytes) : Option Object := do
  let text ← Utf8.decode octets
  let value ← Json.Value.parse text.toList
  Object.ofJson float value

/-- A written value is read as the object of the value: the parser takes nothing
away. -/
theorem jsonLoads_jsonText (float : String → UInt64) {value : Json.Value} (h : value.Plain) :
    jsonLoads float (jsonText value) = Object.ofJson float value := by
  have hParsed := Json.Value.parse_write h (List.forall_mem_nil _) (List.forall_mem_nil _)
  rw [List.nil_append, List.append_nil] at hParsed
  rw [jsonLoads, jsonText, Utf8.decode_encode]
  simp only [Option.bind_eq_bind, Option.bind_some, String.toList_ofList, hParsed]

/-- A Python value that `_validate` accepts, with the dictionaries that Python can
have. -/
structure Accepted where
  object : Object
  proper : object.Proper
  valid : object.validate "$" = .ok ()

/-- Canonical octets are the same exactly for the same JSON value, and parsing them
gives that value back. So a signature over the octets is one over the value. -/
theorem canonicalize_eq_iff (float : String → UInt64) (first second : Accepted) :
    (canonicalize first.object = canonicalize second.object ↔
      JsonEq first.object second.object) ∧
    ∃ octets, canonicalize first.object = .ok octets ∧
      ∃ read : Accepted, jsonLoads float octets = some read.object ∧
        JsonEq read.object first.object := by
  obtain ⟨value, hValue, hOctets⟩ := canonicalize_of_validate first.valid
  obtain ⟨other, hOther, hOtherOctets⟩ := canonicalize_of_validate second.valid
  constructor
  · constructor
    · intro h
      have hSame := canonicalize_injective hOctets (h ▸ hOctets)
      exact Object.jsonEq_of_json_eq first.proper second.proper hValue (hSame ▸ hValue)
    · intro h
      rw [hOctets, hOtherOctets,
        Object.json_eq_of_jsonEq h first.proper second.proper hValue hOther]
  · obtain ⟨same, hSame, hProfile⟩ := Object.json_of_validate first.valid
    obtain rfl := Option.some.inj (hValue.symm.trans hSame)
    obtain ⟨object, hObject⟩ :=
      Object.exists_readsAs float (Object.json_normal hValue) hProfile
    have hProper := Object.proper_ofJson hObject.read
    refine ⟨_, hOctets, ⟨object, hProper, hObject.valid "$"⟩, ?_, ?_⟩
    · rw [jsonLoads_jsonText float hProfile.plain]
      exact hObject.read
    · exact Object.jsonEq_of_json_eq hProper first.proper hObject.json hValue

end Tfws.Python
