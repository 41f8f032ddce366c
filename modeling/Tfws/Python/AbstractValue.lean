import Tfws.Core.CborStructure
import Tfws.Python.CanonicalDecoding

/-! Python objects as abstract JSON values, and back: the dictionary of an
object lists its keys in the order in which they are encoded. -/
namespace Tfws.Python

open SerdeJson Fallible Cbor

namespace Object

section Induction

variable {motive : Object → Prop} (none : motive .none) (bool : ∀ value, motive (.bool value))
  (int : ∀ value, motive (.int value)) (float : ∀ bits, motive (.float bits))
  (str : ∀ text, motive (.str text)) (bytes : ∀ octets, motive (.bytes octets))
  (list : ∀ items, (∀ item ∈ items, motive item) → motive (.list items))
  (dict : ∀ entries, (∀ entry ∈ entries, motive entry.2) → motive (.dict entries))
  (tag : ∀ number value, motive value → motive (.tag number value))

include none bool int float str bytes list dict tag
set_option linter.unusedSectionVars false

mutual
private theorem induct_object : ∀ object : Object, motive object
  | .none => none
  | .bool value => bool value
  | .int value => int value
  | .float bits => float bits
  | .str text => str text
  | .bytes octets => bytes octets
  | .list items => list items (induct_list items)
  | .dict entries => dict entries (induct_dict entries)
  | .tag number value => tag number value (induct_object value)

private theorem induct_list : ∀ items : List Object, ∀ item ∈ items, motive item
  | [] => fun _ hMem => nomatch hMem
  | first :: rest => List.forall_mem_cons.mpr ⟨induct_object first, induct_list rest⟩

private theorem induct_dict :
    ∀ entries : List (Key × Object), ∀ entry ∈ entries, motive entry.2
  | [] => fun _ hMem => nomatch hMem
  | (_, value) :: rest => List.forall_mem_cons.mpr ⟨induct_object value, induct_dict rest⟩
end

/-- Induction over nested objects: every list member and every dictionary value
satisfies the claim. -/
@[induction_eliminator]
theorem induct (object : Object) : motive object :=
  induct_object none bool int float str bytes list dict tag object

end Induction

mutual
/-- The abstract value of an object, for the objects that JSON can write. -/
def toValue : Object → Option Value
  | .none => some .null
  | .bool value => some (.bool value)
  | .int value => (Number.ofInt value).map Value.number
  | .float bits => some (.number (.float bits))
  | .str text => some (.string text)
  | .list items => (toMembers items).map Value.array
  | .dict entries => (toFields entries).map fun fields => .object (SortedMap.insertAll [] fields)
  | .bytes _ | .tag _ _ => Option.none

def toMembers : List Object → Option (List Value)
  | [] => some []
  | item :: rest => do
      let value ← item.toValue
      let values ← toMembers rest
      some (value :: values)

def toFields : List (Key × Object) → Option (List (String × Value))
  | [] => some []
  | (key, item) :: rest =>
      match key with
      | .str text => do
          let value ← item.toValue
          let fields ← toFields rest
          some ((text, value) :: fields)
      | _ => Option.none
end

/-- The Python number for a number of the other implementation; integers of either
sign are one type there. -/
def ofNumber : Number → Object
  | .posInt value => .int value.toNat
  | .negInt value => .int value.1.toInt
  | .float bits => .float bits

/-- Entries by the bytewise order of their encoded keys, which is how the decoder
finds them. -/
def sortEntries (entries : List (Key × Object)) : List (Key × Object) :=
  entries.mergeSort fun left right => (bytewise left.1.item.encode right.1.item.encode).isLE

mutual
/-- The object of a value as the CBOR decoder builds it, with dictionaries in the
order of the octets. -/
def ofValue : Value → Object
  | .null => .none
  | .bool value => .bool value
  | .number number => ofNumber number
  | .string text => .str text
  | .array items => .list (ofMembers items)
  | .object entries => .dict (sortEntries (ofFields entries))

def ofMembers : List Value → List Object
  | [] => []
  | value :: rest => ofValue value :: ofMembers rest

def ofFields : List (String × Value) → List (Key × Object)
  | [] => []
  | (key, value) :: rest => (.str key, ofValue value) :: ofFields rest
end

/-- One field of an object as a dictionary entry, under a text. -/
def ofField (field : String × Value) : Key × Object := (.str field.1, ofValue field.2)

theorem ofMembers_eq_map (items : List Value) : ofMembers items = items.map ofValue := by
  induction items with
  | nil => rfl
  | cons value rest ih => rw [ofMembers, ih, List.map_cons]

theorem ofFields_eq_map (entries : List (String × Value)) :
    ofFields entries = entries.map ofField := by
  induction entries with
  | nil => rfl
  | cons entry rest ih => rw [ofFields, ih, List.map_cons, ofField]

theorem ofValue_array (items : List Value) : ofValue (.array items) = .list (items.map ofValue) := by
  rw [ofValue, ofMembers_eq_map]

theorem ofValue_object (entries : List (String × Value)) :
    ofValue (.object entries) = .dict ((sortFields entries).map ofField) := by
  have hMap : (sortFields entries).map ofField = sortEntries (entries.map ofField) :=
    List.map_mergeSort fun _ _ _ _ => rfl
  rw [ofValue, ofFields_eq_map, hMap]

/-- The entries of the dictionary that an object becomes, in the order of their
encodings. -/
def ofEntries (entries : List (String × Value)) : List (Key × Object) :=
  (sortFields entries).map ofField

theorem ofValue_object_eq (entries : List (String × Value)) :
    ofValue (.object entries) = .dict (ofEntries entries) :=
  ofValue_object entries

theorem get_cons {key : Key} {entry : Key × Object} {rest : List (Key × Object)} :
    get key (entry :: rest) = if entry.1.equal key = true then some entry.2 else get key rest := by
  rw [get, get, List.find?_cons]
  cases entry.1.equal key <;> rfl

theorem mem_of_get {name : String} {value : Object} {entries : List (Key × Object)}
    (h : get (.str name) entries = some value) : (.str name, value) ∈ entries := by
  obtain ⟨entry, hFind, rfl⟩ := Option.map_eq_some_iff.mp h
  have hKey := List.find?_some hFind
  rw [Key.equal_str_iff] at hKey
  rw [← hKey]
  exact List.mem_of_find?_eq_some hFind

/-- `get` of a text key is the lookup of the field, as long as no name stands
twice. -/
theorem get_ofEntries {entries : List (String × Value)} (h : SortedMap.Sorted entries)
    (name : String) :
    get (.str name) (ofEntries entries) = (SortedMap.lookup name entries).map ofValue := by
  have hPredicate : (fun entry : Key × Object => entry.1.equal (.str name)) ∘ ofField =
      fun field : String × Value => decide (field.1 = name) := by
    funext field
    simp [ofField, Key.equal, Key.identity]
  rw [get, ofEntries, List.find?_map, hPredicate, ← h.lookup_perm (sortFields_perm entries),
    SortedMap.lookup, Option.map_map, Option.map_map]
  rfl

theorem contains_ofEntries {entries : List (String × Value)} {name : String} :
    contains (.str name) (ofEntries entries) = true ↔ ∃ value, (name, value) ∈ entries := by
  simp [contains, ofEntries, ofField, Key.equal_str_iff, (sortFields_perm entries).mem_iff]

theorem item_ofNumber (number : Number) : (ofNumber number).item = number.item := by
  cases number <;> rw [ofNumber, Object.item, Number.item]

/-- An object has the encoding of its value, so that the two implementations have one
wire format. -/
theorem item_ofValue (value : Value) : (ofValue value).item = value.item := by
  induction value with
  | null => rw [ofValue, Object.item, Value.item]
  | bool value => rw [ofValue, Object.item, Value.item]
  | number number => rw [ofValue, item_ofNumber, Value.item]
  | string text => rw [ofValue, Object.item, Value.item]
  | array items ih =>
      rw [ofValue_array, item_list, Value.item_array, List.map_map]
      exact congrArg Item.array (List.map_congr_left ih)
  | object entries ih =>
      rw [ofValue_object, item_dict, item_object_eq, List.map_map]
      refine congrArg Item.map (List.map_congr_left fun entry hMem => ?_)
      have hItem := ih entry ((sortFields_perm entries).mem_iff.mp hMem)
      rw [Function.comp_apply, ofField, fieldItem, Value.fieldItem, hItem, Key.item]

theorem toMembers_map {items : List Value}
    (h : ∀ item ∈ items, (ofValue item).toValue = some item) :
    toMembers (items.map ofValue) = some items := by
  induction items with
  | nil => rfl
  | cons item rest ih =>
      obtain ⟨hItem, hRest⟩ := List.forall_mem_cons.mp h
      simp [toMembers, hItem, ih hRest]

theorem toFields_map {fields : List (String × Value)}
    (h : ∀ field ∈ fields, (ofValue field.2).toValue = some field.2) :
    toFields (fields.map ofField) = some fields := by
  induction fields with
  | nil => rfl
  | cons field rest ih =>
      obtain ⟨hField, hRest⟩ := List.forall_mem_cons.mp h
      simp [toFields, ofField, hField, ih hRest]

/-- Nothing is lost in the object of a value: the comparison of the decoders speaks of
values because of this. -/
theorem toValue_ofValue {value : Value} (h : value.ordered = true) :
    (ofValue value).toValue = some value := by
  induction value with
  | null => rw [ofValue, toValue]
  | bool value => rw [ofValue, toValue]
  | number number =>
      cases number with
      | posInt value =>
          have hNumber : Number.ofInt value.toNat = some (.posInt value) :=
            Number.ofInt_of_toInt rfl
          rw [ofValue, ofNumber, toValue, hNumber, Option.map_some]
      | negInt value =>
          have hNumber : Number.ofInt value.1.toInt = some (.negInt value) :=
            Number.ofInt_of_toInt rfl
          rw [ofValue, ofNumber, toValue, hNumber, Option.map_some]
      | float bits => rw [ofValue, ofNumber, toValue]
  | string text => rw [ofValue, toValue]
  | array items ih =>
      have hItems := toMembers_map fun item hMem =>
        ih item hMem (Value.ordered_array.mp h item hMem)
      rw [ofValue_array, toValue, hItems, Option.map_some]
  | object entries ih =>
      obtain ⟨hSorted, hOrdered⟩ := Value.ordered_object.mp h
      have hFields := toFields_map fun field (hMem : field ∈ sortFields entries) =>
        have hField := (sortFields_perm entries).mem_iff.mp hMem
        ih field hField (hOrdered field hField)
      rw [ofValue_object, toValue, hFields, Option.map_some,
        hSorted.insertAll_nil_eq (sortFields_perm entries)]

end Object

end Tfws.Python
