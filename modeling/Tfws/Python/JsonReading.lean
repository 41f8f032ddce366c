import Tfws.Python.Json

/-! The objects that `json.loads` makes of JSON values. -/
namespace Tfws.Python.Object

open Fallible

variable {α : Type}

/-- `entries[key] = value`: a key keeps its first place, and the last value counts. -/
def setItem (key : Key) (value : α) : List (Key × α) → List (Key × α)
  | [] => [(key, value)]
  | (here, old) :: rest =>
      if here.equal key then (here, value) :: rest else (here, old) :: setItem key value rest

/-- The dictionary of a list of pairs, each of which replaces one with an equal
key. -/
def setItems (start pairs : List (Key × α)) : List (Key × α) :=
  pairs.foldl (fun entries pair => setItem pair.1 pair.2 entries) start

/-- One entry, if it has a value. A value that cannot be read leaves the whole
dictionary without one. -/
def present (entry : Key × Option Object) : Option (Key × Object) :=
  entry.2.map fun value => (entry.1, value)

mutual
/-- The object of a JSON value; `float` reads the text of a number with a
fraction or an exponent. Nothing is made of half a surrogate pair, which no
text holds: Python goes on with it, and `canonicalize` refuses it. -/
def ofJson (float : String → UInt64) : Json.Value → Option Object
  | .null => some .none
  | .bool value => some (.bool value)
  | .int value => some (.int value)
  | .decimal text => some (.float (float text))
  | .string text => some (.str text)
  | .unpaired => Option.none
  | .array items => (ofJsonItems float items).map .list
  | .object fields => ((setItems [] (ofJsonFields float fields)).mapM present).map .dict

def ofJsonItems (float : String → UInt64) : List Json.Value → Option (List Object)
  | [] => some []
  | item :: rest => do
      let item ← ofJson float item
      let rest ← ofJsonItems float rest
      some (item :: rest)

def ofJsonFields (float : String → UInt64) :
    List (String × Json.Value) → List (Key × Option Object)
  | [] => []
  | (name, value) :: rest => (.str name, ofJson float value) :: ofJsonFields float rest
end

theorem ofJsonItems_eq_mapM (float : String → UInt64) (items : List Json.Value) :
    ofJsonItems float items = items.mapM (ofJson float) := by
  induction items with
  | nil => rfl
  | cons item rest ih => rw [ofJsonItems, ih, List.mapM_cons]; rfl

/-- One field of an object as an entry, under a text. -/
def ofJsonField (float : String → UInt64) (field : String × Json.Value) : Key × Option Object :=
  (.str field.1, ofJson float field.2)

theorem ofJsonFields_eq_map (float : String → UInt64) (fields : List (String × Json.Value)) :
    ofJsonFields float fields = fields.map (ofJsonField float) := by
  induction fields with
  | nil => rfl
  | cons field rest ih => rw [ofJsonFields, ih, List.map_cons, ofJsonField]

/-- A key that is not there yet is entered behind the others, so that entries come in
the order of the text. -/
theorem setItem_fresh {key : Key} (value : α) {entries : List (Key × α)}
    (h : ∀ entry ∈ entries, entry.1.equal key = false) :
    setItem key value entries = entries ++ [(key, value)] := by
  induction entries with
  | nil => rfl
  | cons entry rest ih =>
      obtain ⟨hEntry, hRest⟩ := List.forall_mem_cons.mp h
      rw [setItem, hEntry, ih hRest]
      rfl

theorem mem_setItem {key : Key} {value : α} {entries : List (Key × α)} {entry : Key × α}
    (h : entry ∈ setItem key value entries) :
    entry.1 = key ∨ ∃ old ∈ entries, old.1 = entry.1 := by
  induction entries with
  | nil =>
      obtain rfl := List.mem_singleton.mp h
      exact Or.inl rfl
  | cons first rest ih =>
      rw [setItem] at h
      split_ifs at h
      · obtain rfl | hMem := List.mem_cons.mp h
        · exact Or.inr ⟨first, List.mem_cons_self .., rfl⟩
        · exact Or.inr ⟨entry, List.mem_cons_of_mem _ hMem, rfl⟩
      · obtain rfl | hMem := List.mem_cons.mp h
        · exact Or.inr ⟨_, List.mem_cons_self .., rfl⟩
        · obtain hKey | ⟨old, hOld, hSame⟩ := ih hMem
          · exact Or.inl hKey
          · exact Or.inr ⟨old, List.mem_cons_of_mem _ hOld, hSame⟩

/-- No two keys are equal, as Python compares them. Every dictionary has this of
itself. -/
def DistinctKeys (entries : List (Key × α)) : Prop :=
  entries.Pairwise fun first second => first.1.equal second.1 = false

/-- An assignment keeps the keys different, whether or not the key was there. -/
theorem DistinctKeys.setItem {entries : List (Key × α)} (h : DistinctKeys entries) (key : Key)
    (value : α) : DistinctKeys (setItem key value entries) := by
  induction entries with
  | nil => exact List.pairwise_singleton ..
  | cons first rest ih =>
      obtain ⟨hFirst, hRest⟩ := List.pairwise_cons.mp h
      rw [Object.setItem]
      split_ifs with hEqual
      · exact List.pairwise_cons.mpr ⟨hFirst, hRest⟩
      · refine List.pairwise_cons.mpr ⟨fun entry hMem => ?_, ih hRest⟩
        obtain hKey | ⟨old, hOld, hSame⟩ := mem_setItem hMem
        · rw [hKey]
          exact Bool.eq_false_iff.mpr hEqual
        · rw [← hSame]
          exact hFirst old hOld

/-- A dictionary has different keys however it was filled, repeated names included. -/
theorem DistinctKeys.setItems {start : List (Key × α)} (h : DistinctKeys start)
    (pairs : List (Key × α)) : DistinctKeys (setItems start pairs) := by
  induction pairs generalizing start with
  | nil => exact h
  | cons pair rest ih => exact ih (h.setItem pair.1 pair.2)

theorem DistinctKeys.present {entries : List (Key × Option Object)}
    {results : List (Key × Object)} (h : DistinctKeys entries)
    (hPresent : entries.mapM present = some results) : DistinctKeys results := by
  apply Traversal.pairwise_right (Traversal.mapM_eq_some.mp hPresent) h
  intro first second result other hFirst hSecond hDistinct
  obtain ⟨_, -, rfl⟩ := Option.map_eq_some_iff.mp hFirst
  obtain ⟨_, -, rfl⟩ := Option.map_eq_some_iff.mp hSecond
  exact hDistinct

/-- A dictionary that was read has different keys, whatever the text repeated: of
equal names the last one counts. -/
theorem distinctKeys_ofJson {float : String → UInt64} {value : Json.Value}
    {entries : List (Key × Object)} (h : ofJson float value = some (.dict entries)) :
    DistinctKeys entries := by
  cases value with
  | object fields =>
      rw [ofJson, Option.map_eq_some_iff] at h
      obtain ⟨read, hRead, hSame⟩ := h
      obtain rfl := Object.dict.inj hSame
      exact (DistinctKeys.setItems List.Pairwise.nil _).present hRead
  | array items =>
      rw [ofJson, Option.map_eq_some_iff] at h
      obtain ⟨_, -, hSame⟩ := h
      cases hSame
  | null | bool _ | int _ | decimal _ | string _ | unpaired => cases h

/-- Pairs with different keys are entered one behind the other, in the order of the
text. -/
theorem setItems_distinct {start pairs : List (Key × α)}
    (h : (start ++ pairs).Pairwise fun first second => first.1.equal second.1 = false) :
    setItems start pairs = start ++ pairs := by
  induction pairs generalizing start with
  | nil => rw [List.append_nil]; rfl
  | cons pair rest ih =>
      have hFresh : ∀ entry ∈ start, entry.1.equal pair.1 = false := fun entry hMem =>
        (List.pairwise_append.mp h).2.2 entry hMem pair (List.mem_cons_self ..)
      have hStep : setItems start (pair :: rest) = setItems (start ++ [pair]) rest := by
        rw [← setItem_fresh pair.2 hFresh]
        rfl
      rw [hStep, ih (by simpa using h), List.append_assoc, List.singleton_append]

/-- The names of a map are different keys, and stay in the order of the text. -/
theorem setItems_ofJsonFields (float : String → UInt64) {fields : List (String × Json.Value)}
    (h : SortedMap.Sorted fields) :
    setItems [] (ofJsonFields float fields) = fields.map (ofJsonField float) := by
  rw [ofJsonFields_eq_map, setItems_distinct, List.nil_append]
  rw [List.nil_append, List.pairwise_map]
  refine h.imp fun {first second} hLt => ?_
  simpa [ofJsonField, Key.equal, Key.identity] using ne_of_lt hLt

/-- The object is read from the value, stands for it and passes `_validate`. -/
structure ReadsAs (float : String → UInt64) (value : Json.Value) (object : Object) : Prop where
  read : ofJson float value = some object
  json : object.json = some value
  valid : ∀ path, object.validate path = .ok ()

/-- The same for a field and an entry, whose key is the name as a text. -/
structure ReadsField (float : String → UInt64) (field : String × Json.Value)
    (entry : Key × Object) : Prop where
  name : entry.1 = .str field.1
  value : ReadsAs float field.2 entry.2

theorem ReadsField.present_eq {float : String → UInt64} {field : String × Json.Value}
    {entry : Key × Object} (h : ReadsField float field entry) :
    present (ofJsonField float field) = some entry := by
  rw [present, ofJsonField, h.value.read, Option.map_some, ← h.name]

theorem validateItems_of_forall {items : List Object}
    (h : ∀ item ∈ items, ∀ path, item.validate path = .ok ()) (path : String) (index : Nat) :
    validateItems path index items = .ok () := by
  induction items generalizing index with
  | nil => rfl
  | cons item rest ih =>
      obtain ⟨hItem, hRest⟩ := List.forall_mem_cons.mp h
      exact then_eq_ok.mpr ⟨hItem _, ih hRest _⟩

theorem validateEntries_of_forall {entries : List (Key × Object)}
    (h : ∀ entry ∈ entries, (∃ name, entry.1 = .str name) ∧
      ∀ path, entry.2.validate path = .ok ()) (path : String) :
    validateEntries path entries = .ok () := by
  induction entries with
  | nil => rfl
  | cons entry rest ih =>
      obtain ⟨⟨⟨name, hName⟩, hValue⟩, hRest⟩ := List.forall_mem_cons.mp h
      obtain ⟨key, value⟩ := entry
      obtain rfl : key = .str name := hName
      exact then_eq_ok.mpr ⟨hValue _, ih hRest⟩

/-- The entries read from the fields of a map make up a dictionary that stands for
it. -/
theorem readsAs_dict {float : String → UInt64} {fields : List (String × Json.Value)}
    {entries : List (Key × Object)} (hSorted : SortedMap.Sorted fields)
    (h : List.Forall₂ (ReadsField float) fields entries) :
    ReadsAs float (.object fields) (.dict entries) where
  read := by
    have hPresent : (fields.map (ofJsonField float)).mapM present = some entries :=
      Traversal.mapM_eq_some.mpr (List.forall₂_map_left_iff.mpr
        (h.imp fun _ _ hField => hField.present_eq))
    rw [ofJson, setItems_ofJsonFields float hSorted, hPresent, Option.map_some]
  json := by
    refine json_dict.mpr ⟨fields, ?_, (h.imp fun _ _ hField =>
      jsonEntry_eq_some.mpr ⟨hField.name, hField.value.json⟩).flip⟩
    rw [hSorted.insertAll_nil_eq (List.Perm.refl _)]
  valid path := by
    rw [validate]
    refine validateEntries_of_forall (fun entry hMem => ?_) path
    obtain ⟨field, -, hField⟩ := Traversal.exists_left h hMem
    exact ⟨⟨field.1, hField.name⟩, hField.value.valid⟩

theorem exists_readsFields {float : String → UInt64} {fields : List (String × Json.Value)}
    (h : ∀ field ∈ fields, ∃ object, ReadsAs float field.2 object) :
    ∃ entries, List.Forall₂ (ReadsField float) fields entries :=
  Traversal.exists_forall₂ fun field hMem =>
    (h field hMem).elim fun object hObject => ⟨(.str field.1, object), rfl, hObject⟩

/-- Data of the profile is read as an object that stands for it. -/
theorem exists_readsAs (float : String → UInt64) {value : Json.Value} (hNormal : value.Normal)
    (hProfile : InProfile value) : ∃ object, ReadsAs float value object := by
  induction value with
  | null => exact ⟨.none, rfl, rfl, fun _ => rfl⟩
  | bool value => exact ⟨.bool value, rfl, rfl, fun _ => rfl⟩
  | int value =>
      cases hProfile with
      | int safe => exact ⟨.int value, rfl, rfl, fun _ => failIf_of_not (not_not.mpr safe) _⟩
  | string text => exact ⟨.str text, rfl, rfl, fun _ => rfl⟩
  | decimal _ | unpaired => cases hProfile
  | array items ih =>
      cases hNormal with
      | array normal =>
          cases hProfile with
          | array profile =>
              obtain ⟨objects, hObjects⟩ := Traversal.exists_forall₂ fun item hMem =>
                ih item hMem (normal item hMem) (profile item hMem)
              have hRead := Traversal.mapM_eq_some.mpr (hObjects.imp fun _ _ h => h.read)
              refine ⟨.list objects, ?_, ?_, fun path => ?_⟩
              · rw [ofJson, ofJsonItems_eq_mapM, hRead, Option.map_some]
              · exact json_list.mpr ⟨items, rfl, (hObjects.imp fun _ _ h => h.json).flip⟩
              · rw [validate]
                refine validateItems_of_forall (fun object hMem => ?_) path 0
                obtain ⟨_, -, hObject⟩ := Traversal.exists_left hObjects hMem
                exact hObject.valid
  | object fields ih =>
      cases hNormal with
      | object sorted normal =>
          cases hProfile with
          | object profile =>
              obtain ⟨entries, hEntries⟩ := exists_readsFields fun field hMem =>
                ih field hMem (normal field hMem) (profile field hMem)
              exact ⟨.dict entries, readsAs_dict sorted hEntries⟩

end Tfws.Python.Object
