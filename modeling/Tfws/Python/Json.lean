import Tfws.Data.Traversal
import Tfws.Json.Value
import Tfws.Python.AbstractValue

/-! `canonicalize` of `tfws3/canonical.py`, and the objects that `json.loads`
reads. Objects with the same canonical text are the same JSON value. -/
namespace Tfws.Python

open Fallible

/-- An integer that the core profile lets through: every implementation holds it
exactly, also one that has only floats. -/
def safeInteger (value : Int) : Prop := value.natAbs ≤ maxSafeInteger

instance (value : Int) : Decidable (safeInteger value) := inferInstanceAs (Decidable (_ ≤ _))

namespace Object

mutual
/-- `_validate`: names are texts, integers are in the safe range, and floats are
refused, at any depth. -/
def validate (path : String) : Object → Result Unit
  | .none | .str _ | .bool _ => .ok ()
  | .int value =>
      failIf (¬safeInteger value)
        (.validation ("integer outside interoperable range at " ++ path))
  | .float _ =>
      .error (.validation ("floating point values are forbidden in TFWS core at " ++ path))
  | .list items => validateItems path 0 items
  | .dict entries => validateEntries path entries
  | .bytes _ => .error (.validation ("unsupported value type at " ++ path ++ ": bytes"))
  | .tag _ _ => .error (.validation ("unsupported value type at " ++ path ++ ": _CborTag"))

def validateItems (path : String) (index : Nat) : List Object → Result Unit
  | [] => .ok ()
  | item :: rest => do
      validate (path ++ "[" ++ toString index ++ "]") item
      validateItems path (index + 1) rest

def validateEntries (path : String) : List (Key × Object) → Result Unit
  | [] => .ok ()
  | (key, item) :: rest =>
      match key with
      | .str name => do
          validate (path ++ "." ++ name) item
          validateEntries path rest
      | _ => .error (.validation ("non-string object key at " ++ path))
end

mutual
/-- The JSON value of an object that `_validate` lets through; with `sort_keys`
the fields of a dictionary are written in ascending order. -/
def json : Object → Option Json.Value
  | .none => some .null
  | .bool value => some (.bool value)
  | .int value => some (.int value)
  | .str text => some (.string text)
  | .list items => (jsonItems items).map .array
  | .dict entries => (jsonEntries entries).map fun fields =>
      .object (SortedMap.insertAll [] fields)
  | .float _ | .bytes _ | .tag _ _ => Option.none

def jsonItems : List Object → Option (List Json.Value)
  | [] => some []
  | item :: rest => do
      let item ← item.json
      let rest ← jsonItems rest
      some (item :: rest)

def jsonEntries : List (Key × Object) → Option (List (String × Json.Value))
  | [] => some []
  | (key, value) :: rest =>
      match key with
      | .str name => do
          let value ← value.json
          let rest ← jsonEntries rest
          some ((name, value) :: rest)
      | _ => Option.none
end

/-- One entry of a dictionary as a field. A key that is no text has no JSON name. -/
def jsonEntry (entry : Key × Object) : Option (String × Json.Value) :=
  match entry.1 with
  | .str name => entry.2.json.map fun value => (name, value)
  | _ => Option.none

theorem jsonEntry_eq_some {entry : Key × Object} {field : String × Json.Value} :
    jsonEntry entry = some field ↔ entry.1 = .str field.1 ∧ entry.2.json = some field.2 := by
  obtain ⟨key, value⟩ := entry
  obtain ⟨name, result⟩ := field
  cases key <;> simp [jsonEntry, and_comm]

theorem jsonItems_eq_mapM (items : List Object) : jsonItems items = items.mapM json := by
  induction items with
  | nil => rfl
  | cons item rest ih => rw [jsonItems, ih, List.mapM_cons]; rfl

theorem jsonEntries_eq_mapM (entries : List (Key × Object)) :
    jsonEntries entries = entries.mapM jsonEntry := by
  induction entries with
  | nil => rfl
  | cons entry rest ih =>
      obtain ⟨key, value⟩ := entry
      rw [jsonEntries.eq_def, List.mapM_cons, ← ih]
      cases key with
      | str name => cases hValue : value.json <;> simp [jsonEntry, hValue]
      | int _ | bool _ | bytes _ => rfl

theorem json_list {items : List Object} {result : Json.Value} :
    (Object.list items).json = some result ↔ ∃ values, result = .array values ∧
      List.Forall₂ (fun item value => item.json = some value) items values := by
  rw [json, jsonItems_eq_mapM, Option.map_eq_some_iff]
  exact exists_congr fun _ => and_comm.trans (and_congr eq_comm Traversal.mapM_eq_some)

/-- A dictionary is written as the map of its fields, in the order of the names. -/
theorem json_dict {entries : List (Key × Object)} {result : Json.Value} :
    (Object.dict entries).json = some result ↔
      ∃ fields, result = .object (SortedMap.insertAll [] fields) ∧
        List.Forall₂ (fun entry field => jsonEntry entry = some field) entries fields := by
  rw [json, jsonEntries_eq_mapM, Option.map_eq_some_iff]
  exact exists_congr fun _ => and_comm.trans (and_congr eq_comm Traversal.mapM_eq_some)

/-- What is written has its fields in order, whatever order the dictionary was in. -/
theorem json_normal {object : Object} {result : Json.Value} (h : object.json = some result) :
    result.Normal := by
  induction object generalizing result with
  | none | bool _ | int _ | str _ =>
      obtain rfl := Option.some.inj h
      constructor
  | float _ | bytes _ | tag _ _ => cases h
  | list items ih =>
      obtain ⟨values, rfl, hValues⟩ := json_list.mp h
      refine .array fun value hMem => ?_
      obtain ⟨item, hItem, hValue⟩ := Traversal.exists_left hValues hMem
      exact ih item hItem hValue
  | dict entries ih =>
      obtain ⟨fields, rfl, hFields⟩ := json_dict.mp h
      refine .object (.insertAll List.Pairwise.nil _) fun field hMem => ?_
      obtain hNone | hMem := SortedMap.mem_insertAll hMem
      · cases hNone
      · obtain ⟨entry, hEntry, hField⟩ := Traversal.exists_left hFields hMem
        exact ih entry hEntry (jsonEntry_eq_some.mp hField).2

/-- What `_validate` lets through: texts, integers in the safe range, and what is made
of them. No decimal number is among them. -/
inductive InProfile : Json.Value → Prop where
  | null : InProfile .null
  | bool {value : Bool} : InProfile (.bool value)
  | int {value : Int} (safe : safeInteger value) : InProfile (.int value)
  | string {text : String} : InProfile (.string text)
  | array {items : List Json.Value} (members : ∀ item ∈ items, InProfile item) :
      InProfile (.array items)
  | object {fields : List (String × Json.Value)} (members : ∀ field ∈ fields, InProfile field.2) :
      InProfile (.object fields)

/-- A value of the profile can be written and read back, since there are no decimal
numbers in it. -/
theorem InProfile.plain {value : Json.Value} (h : InProfile value) : value.Plain := by
  induction h with
  | null | bool | int | string => constructor
  | array _ ih => exact .array ih
  | object _ ih => exact .object ih

theorem validateItems_eq_ok {path : String} {index : Nat} {items : List Object}
    (h : validateItems path index items = .ok ()) :
    ∀ item ∈ items, ∃ path, item.validate path = .ok () := by
  induction items generalizing index with
  | nil => exact List.forall_mem_nil _
  | cons item rest ih =>
      obtain ⟨hItem, hRest⟩ := then_eq_ok.mp h
      exact List.forall_mem_cons.mpr ⟨⟨_, hItem⟩, ih hRest⟩

theorem validateEntries_eq_ok {path : String} {entries : List (Key × Object)}
    (h : validateEntries path entries = .ok ()) :
    ∀ entry ∈ entries, (∃ name, entry.1 = .str name) ∧ ∃ path, entry.2.validate path = .ok () := by
  induction entries with
  | nil => exact List.forall_mem_nil _
  | cons entry rest ih =>
      obtain ⟨key, value⟩ := entry
      cases key with
      | str name =>
          obtain ⟨hValue, hRest⟩ := then_eq_ok.mp h
          exact List.forall_mem_cons.mpr ⟨⟨⟨name, rfl⟩, _, hValue⟩, ih hRest⟩
      | int _ | bool _ | bytes _ => cases h

/-- A validated object is a JSON value of the profile, so that results about texts can
be stated about values. -/
theorem json_of_validate {object : Object} {path : String} (h : object.validate path = .ok ()) :
    ∃ value, object.json = some value ∧ InProfile value := by
  induction object generalizing path with
  | none => exact ⟨.null, rfl, .null⟩
  | bool value => exact ⟨.bool value, rfl, .bool⟩
  | int value => exact ⟨.int value, rfl, .int (not_not.mp (failIf_eq_ok.mp h))⟩
  | str text => exact ⟨.string text, rfl, .string⟩
  | float _ | bytes _ | tag _ _ => cases h
  | list items ih =>
      rw [validate] at h
      have hItem (item) (hMem : item ∈ items) : ∃ value, item.json = some value ∧ InProfile value :=
        have ⟨_, hItem⟩ := validateItems_eq_ok h item hMem
        ih item hMem hItem
      obtain ⟨values, hValues⟩ := Traversal.exists_mapM fun item hMem =>
        (hItem item hMem).imp fun _ hValue => hValue.1
      have hRelated := Traversal.mapM_eq_some.mp hValues
      refine ⟨.array values, json_list.mpr ⟨values, rfl, hRelated⟩, .array fun value hMem => ?_⟩
      obtain ⟨item, hIn, hValue⟩ := Traversal.exists_left hRelated hMem
      obtain ⟨_, hSame, hProfile⟩ := hItem item hIn
      exact Option.some.inj (hSame.symm.trans hValue) ▸ hProfile
  | dict entries ih =>
      rw [validate] at h
      have hEntry (entry) (hMem : entry ∈ entries) :
          ∃ field, jsonEntry entry = some field ∧ InProfile field.2 := by
        obtain ⟨⟨name, hName⟩, path, hValid⟩ := validateEntries_eq_ok h entry hMem
        obtain ⟨value, hValue, hProfile⟩ := ih entry hMem hValid
        exact ⟨(name, value), jsonEntry_eq_some.mpr ⟨hName, hValue⟩, hProfile⟩
      obtain ⟨fields, hFields⟩ := Traversal.exists_mapM fun entry hMem =>
        (hEntry entry hMem).imp fun _ hField => hField.1
      have hRelated := Traversal.mapM_eq_some.mp hFields
      refine ⟨_, json_dict.mpr ⟨fields, rfl, hRelated⟩, .object fun field hMem => ?_⟩
      obtain hNone | hMem := SortedMap.mem_insertAll hMem
      · cases hNone
      · obtain ⟨entry, hIn, hField⟩ := Traversal.exists_left hRelated hMem
        obtain ⟨_, hSame, hProfile⟩ := hEntry entry hIn
        exact Option.some.inj (hSame.symm.trans hField) ▸ hProfile

end Object

/-- Objects that are the same JSON value, `true` being another one than 1. -/
def SameValue (first second : Object) : Prop :=
  ∃ value, first.json = some value ∧ second.json = some value

/-- The text of a JSON value, in UTF-8: the octets that are hashed and signed. -/
def jsonText (value : Json.Value) : Bytes := Utf8.encode (String.ofList value.write)

/-- The text of an object opens with a brace, which tells it from the message of a
Merkle node. -/
theorem write_object_eq (fields : List (String × Json.Value)) :
    ∃ rest, (Json.Value.object fields).write = '{' :: rest := by
  cases fields with
  | nil => exact ⟨_, by rw [Json.Value.write]⟩
  | cons field rest => exact ⟨_, by rw [Json.Value.write]⟩

theorem jsonText_object_eq (fields : List (String × Json.Value)) :
    ∃ rest, jsonText (.object fields) = 0x7B :: rest := by
  obtain ⟨rest, hWrite⟩ := write_object_eq fields
  refine ⟨rest.flatMap String.utf8EncodeChar, ?_⟩
  rw [jsonText, Utf8.encode, String.toList_ofList, hWrite, List.flatMap_cons,
    Utf8.encodeChar_ascii (show '{'.toNat < 128 by decide)]
  rfl

/-- The last case is that of an object `json.dumps` refuses; none of them is
left after `_validate`. -/
def canonicalize (object : Object) : Result Bytes := do
  object.validate "$"
  match object.json with
  | some value => .ok (jsonText value)
  | none => .error (.typeError "Object is not JSON serializable")

/-- Canonical octets are those of the JSON value of a validated object. Nothing else
about the object shows in them. -/
theorem canonicalize_eq_ok {object : Object} {octets : Bytes}
    (h : canonicalize object = .ok octets) :
    ∃ value, object.json = some value ∧ Object.InProfile value ∧ octets = jsonText value := by
  obtain ⟨hValid, hText⟩ := then_eq_ok.mp h
  obtain ⟨value, hValue, hProfile⟩ := Object.json_of_validate hValid
  rw [hValue] at hText
  exact ⟨value, hValue, hProfile, (Except.ok.inj hText).symm⟩

/-- What `_validate` lets through has a canonical text; no later step fails. -/
theorem canonicalize_of_validate {object : Object} (h : object.validate "$" = .ok ()) :
    ∃ value, object.json = some value ∧ canonicalize object = .ok (jsonText value) := by
  obtain ⟨value, hValue, -⟩ := Object.json_of_validate h
  exact ⟨value, hValue, by rw [canonicalize, h, ok_bind, hValue]⟩

/-- Different values of the profile have different texts, because a text is read back
as the value. -/
theorem jsonText_injective {first second : Json.Value} (hFirst : first.Plain)
    (hSecond : second.Plain) (h : jsonText first = jsonText second) : first = second :=
  Json.Value.write_injective hFirst hSecond (String.ofList_injective (Utf8.encode_injective h))

/-- No two JSON values have the same canonical text, so that a digest of the text is
one of the value. -/
theorem canonicalize_injective {first second : Object} {octets : Bytes}
    (hFirst : canonicalize first = .ok octets) (hSecond : canonicalize second = .ok octets) :
    first.json = second.json := by
  obtain ⟨value, hValue, hProfile, rfl⟩ := canonicalize_eq_ok hFirst
  obtain ⟨other, hOther, hOtherProfile, hSame⟩ := canonicalize_eq_ok hSecond
  rw [hValue, hOther, jsonText_injective hProfile.plain hOtherProfile.plain hSame]

end Tfws.Python
