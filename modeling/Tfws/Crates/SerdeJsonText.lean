import Tfws.Crates.SerdeJson
import Tfws.Data.Traversal
import Tfws.Data.Utf8
import Tfws.Json.Value

/-! The JSON texts of the values of `serde_json`, as far as they hold no float:
how a float is written is left open. -/
namespace SerdeJson.Value

mutual
/-- The JSON value of a tree without floats. A float has none, since its text is up to
the printer. -/
def json : Value → Option Json.Value
  | .null => some .null
  | .bool value => some (.bool value)
  | .number value => value.toInt.map .int
  | .string text => some (.string text)
  | .array items => (jsonItems items).map .array
  | .object entries => (jsonEntries entries).map .object

def jsonItems : List Value → Option (List Json.Value)
  | [] => some []
  | item :: rest => do
      let item ← item.json
      let rest ← jsonItems rest
      some (item :: rest)

def jsonEntries : List (String × Value) → Option (List (String × Json.Value))
  | [] => some []
  | (name, value) :: rest => do
      let field ← value.json.map fun value => (name, value)
      let rest ← jsonEntries rest
      some (field :: rest)
end

mutual
/-- The tree of a JSON value whose numbers are integers of 64 bits; of repeated
fields the last one counts. -/
def ofJson : Json.Value → Option Value
  | .null => some .null
  | .bool value => some (.bool value)
  | .int value => (Number.ofInt value).map .number
  | .decimal _ => none
  | .string text => some (.string text)
  | .unpaired => none
  | .array items => (ofJsonItems items).map .array
  | .object fields => (ofJsonFields fields).map fun entries =>
      .object (SortedMap.insertAll [] entries)

def ofJsonItems : List Json.Value → Option (List Value)
  | [] => some []
  | item :: rest => do
      let item ← ofJson item
      let rest ← ofJsonItems rest
      some (item :: rest)

def ofJsonFields : List (String × Json.Value) → Option (List (String × Value))
  | [] => some []
  | (name, value) :: rest => do
      let entry ← (ofJson value).map fun value => (name, value)
      let rest ← ofJsonFields rest
      some (entry :: rest)
end

/-- One field with the value that a reading gives it, if it gives one. -/
def field {α β : Type} (read : α → Option β) (entry : String × α) : Option (String × β) :=
  (read entry.2).map fun value => (entry.1, value)

theorem field_eq_some {α β : Type} {read : α → Option β} {entry : String × α} {result : String × β} :
    field read entry = some result ↔ entry.1 = result.1 ∧ read entry.2 = some result.2 := by
  rw [field, Option.map_eq_some_iff]
  constructor
  · intro ⟨value, hValue, hSame⟩
    rw [← hSame]
    exact ⟨rfl, hValue⟩
  · intro ⟨hName, hValue⟩
    exact ⟨result.2, hValue, Prod.ext hName rfl⟩

theorem jsonItems_eq_mapM (items : List Value) : jsonItems items = items.mapM json := by
  induction items with
  | nil => rfl
  | cons item rest ih => rw [jsonItems, ih, List.mapM_cons]; rfl

theorem jsonEntries_eq_mapM (entries : List (String × Value)) :
    jsonEntries entries = entries.mapM (field json) := by
  induction entries with
  | nil => rfl
  | cons entry rest ih => rw [jsonEntries, ih, List.mapM_cons]; rfl

theorem ofJsonItems_eq_mapM (items : List Json.Value) : ofJsonItems items = items.mapM ofJson := by
  induction items with
  | nil => rfl
  | cons item rest ih => rw [ofJsonItems, ih, List.mapM_cons]; rfl

theorem ofJsonFields_eq_mapM (fields : List (String × Json.Value)) :
    ofJsonFields fields = fields.mapM (field ofJson) := by
  induction fields with
  | nil => rfl
  | cons field rest ih => rw [ofJsonFields, ih, List.mapM_cons]; rfl

theorem json_array {items : List Value} {result : Json.Value} :
    (Value.array items).json = some result ↔ ∃ values, result = .array values ∧
      List.Forall₂ (fun item value => item.json = some value) items values := by
  rw [json, jsonItems_eq_mapM, Option.map_eq_some_iff]
  exact exists_congr fun _ => and_comm.trans (and_congr eq_comm Traversal.mapM_eq_some)

theorem json_object {entries : List (String × Value)} {result : Json.Value} :
    (Value.object entries).json = some result ↔ ∃ fields, result = .object fields ∧
      List.Forall₂ (fun entry result => field json entry = some result) entries fields := by
  rw [json, jsonEntries_eq_mapM, Option.map_eq_some_iff]
  exact exists_congr fun _ => and_comm.trans (and_congr eq_comm Traversal.mapM_eq_some)

/-- The fields of a map are written under their names, and absent names stay
absent. -/
theorem json_object_lookup {entries : List (String × Value)} {fields : List (String × Json.Value)}
    (h : (Value.object entries).json = some (.object fields)) (name : String) :
    SortedMap.lookup name fields = (SortedMap.lookup name entries).bind json := by
  obtain ⟨others, hSame, hFields⟩ := json_object.mp h
  obtain rfl := Json.Value.object.inj hSame
  induction hFields with
  | nil => rfl
  | @cons entry field entries fields hField hRest ih =>
      obtain ⟨hName, hValue⟩ := field_eq_some.mp hField
      rw [SortedMap.lookup_cons, SortedMap.lookup_cons, hName]
      split_ifs with hHere
      · exact hValue.symm
      · exact ih (json_object.mpr ⟨_, rfl, hRest⟩) rfl

theorem json_eq_object {value : Value} {fields : List (String × Json.Value)}
    (h : value.json = some (.object fields)) : ∃ entries, value = .object entries := by
  cases value with
  | object entries => exact ⟨entries, rfl⟩
  | null | bool _ | string _ => cases h
  | number _ =>
      obtain ⟨_, -, hSame⟩ := Option.map_eq_some_iff.mp h
      cases hSame
  | array _ =>
      obtain ⟨_, hSame, -⟩ := json_array.mp h
      cases hSame

/-- A value without floats has a JSON value that can be written and read back. -/
theorem json_plain {value : Value} {result : Json.Value} (h : value.json = some result) :
    result.Plain := by
  induction value generalizing result with
  | null | bool _ | string _ =>
      obtain rfl := Option.some.inj h
      constructor
  | number _ =>
      obtain ⟨_, -, rfl⟩ := Option.map_eq_some_iff.mp h
      exact .int
  | array items ih =>
      obtain ⟨values, rfl, hValues⟩ := json_array.mp h
      refine .array fun value hMem => ?_
      obtain ⟨item, hItem, hValue⟩ := Traversal.exists_left hValues hMem
      exact ih item hItem hValue
  | object entries ih =>
      obtain ⟨fields, rfl, hFields⟩ := json_object.mp h
      refine .object fun field hMem => ?_
      obtain ⟨entry, hEntry, hField⟩ := Traversal.exists_left hFields hMem
      exact ih entry hEntry (field_eq_some.mp hField).2

/-- A value is read back from its JSON value, as long as its objects are ordered. -/
theorem ofJson_json {value : Value} (hOrdered : value.ordered = true) {result : Json.Value}
    (h : value.json = some result) : ofJson result = some value := by
  induction value generalizing result with
  | null | bool _ | string _ =>
      obtain rfl := Option.some.inj h
      rfl
  | number _ =>
      obtain ⟨integer, hInteger, rfl⟩ := Option.map_eq_some_iff.mp h
      rw [ofJson, Number.ofInt_of_toInt hInteger, Option.map_some]
  | array items ih =>
      obtain ⟨values, rfl, hValues⟩ := json_array.mp h
      have hBack := Traversal.forall₂_back hValues fun item hMem value hValue =>
        ih item hMem (ordered_array.mp hOrdered item hMem) hValue
      rw [ofJson, ofJsonItems_eq_mapM, hBack, Option.map_some]
  | object entries ih =>
      obtain ⟨fields, rfl, hFields⟩ := json_object.mp h
      obtain ⟨hSorted, hMembers⟩ := ordered_object.mp hOrdered
      have hBack := Traversal.forall₂_back hFields fun entry hMem result hField =>
        have ⟨hName, hValue⟩ := field_eq_some.mp hField
        field_eq_some.mpr ⟨hName.symm, ih entry hMem (hMembers entry hMem) hValue⟩
      rw [ofJson, ofJsonFields_eq_mapM, hBack, Option.map_some,
        hSorted.insertAll_nil_eq (List.Perm.refl _)]

/-- The compact text, in UTF-8. There is none for a value that holds a float. -/
def toText (value : Value) : Option Bytes :=
  value.json.map fun json => Utf8.encode (String.ofList json.write)

/-- `serde_json::from_slice::<Value>` on a text without floats and without
integers beyond 64 bits. -/
def ofText (text : Bytes) : Option Value := do
  let text ← Utf8.decode text
  let json ← Json.Value.parse text.toList
  ofJson json

theorem ofText_write {value : Value} (hOrdered : value.ordered = true) {result : Json.Value}
    (h : value.json = some result) :
    ofText (Utf8.encode (String.ofList result.write)) = some value := by
  have hParse := Json.Value.parse_write (json_plain h) (List.forall_mem_nil _)
    (List.forall_mem_nil _)
  rw [List.nil_append, List.append_nil] at hParse
  simp only [ofText, Utf8.decode_encode, Option.bind_eq_bind, Option.bind_some,
    String.toList_ofList, hParse, ofJson_json hOrdered h]

/-- A value is read back from its compact text: no two ordered values share one. -/
theorem ofText_toText {value : Value} (hOrdered : value.ordered = true) {text : Bytes}
    (h : value.toText = some text) : ofText text = some value := by
  obtain ⟨result, hResult, rfl⟩ := Option.map_eq_some_iff.mp h
  exact ofText_write hOrdered hResult

end SerdeJson.Value
