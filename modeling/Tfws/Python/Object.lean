import Tfws.Cbor.Item

/-! The Python values that the reference implementation handles, its
exceptions, and dictionaries in insertion order. -/
namespace Tfws.Python

open Cbor

/-- A dictionary key. Only these types ever become keys, for the decoder refuses the
others. -/
inductive Key where
  | str (text : String)
  | int (value : Int)
  | bool (value : Bool)
  | bytes (octets : Bytes)
  deriving DecidableEq

/-- Booleans are integers: `True == 1` and `False == 0`. Keys are the same entry
exactly if their identities are the same. -/
def Key.identity : Key → Key
  | .bool value => .int (if value then 1 else 0)
  | key => key

/-- `==` between keys, by which a truth value equals the number that it stands for. -/
def Key.equal (first second : Key) : Bool := first.identity = second.identity

theorem Key.equal_str (first second : String) :
    (Key.str first).equal (.str second) = decide (first = second) := by
  simp [equal, identity]

/-- Only the text itself equals a text, so that a name finds no other key. -/
theorem Key.equal_str_iff {key : Key} {name : String} :
    key.equal (.str name) = true ↔ key = .str name := by
  cases key <;> simp [equal, identity]

/-- A Python object, with `_CborTag` among them. Dictionaries are lists of entries in
the order in which they were filled. -/
inductive Object where
  | none
  | bool (value : Bool)
  | int (value : Int)
  | float (bits : UInt64)
  | str (text : String)
  | bytes (octets : Bytes)
  | list (items : List Object)
  | dict (entries : List (Key × Object))
  | tag (number : Nat) (value : Object)

/-- The exceptions that the package raises, and those of the language that its
operations can raise. -/
inductive Exception where
  | interoperability (message code : String)
  | validation (message : String)
  | policy (message : String)
  | typeError (message : String)
  | valueError (message : String)
  | attributeError (message : String)
  | keyError (message : String)
  | overflowError (message : String)
  | crypto (message : String)
  deriving DecidableEq, Repr

/-- What a Python function does: it returns, or it raises. What it prints or changes
is part of the value. -/
abbrev Result := Except Exception

/-- The key as a value, as iterating over a dictionary gives it. -/
def Key.object : Key → Object
  | .str text => .str text
  | .int value => .int value
  | .bool value => .bool value
  | .bytes octets => .bytes octets

/-- The data item of a key. -/
def Key.item : Key → Item
  | .str text => .text text
  | .int value => .int value
  | .bool value => .bool value
  | .bytes octets => .bytes octets

namespace Object

/-- `isinstance(key, (str, int, bytes))`; a boolean is an `int`. Other values become
no keys. -/
def key? : Object → Option Key
  | .str text => some (.str text)
  | .int value => some (.int value)
  | .bool value => some (.bool value)
  | .bytes octets => some (.bytes octets)
  | _ => Option.none

@[simp] theorem key?_eq_some {object : Object} {key : Key} :
    object.key? = some key ↔ object = key.object := by
  cases object <;> cases key <;> simp [key?, Key.object]

/-- `entries.get(key)`, the value of the first entry whose key equals `key`. In a
dictionary that was filled there is only one. -/
def get (key : Key) (entries : List (Key × Object)) : Option Object :=
  (entries.find? fun entry => entry.1.equal key).map Prod.snd

/-- `key in entries`, with Python's equality of keys. -/
def contains (key : Key) (entries : List (Key × Object)) : Bool :=
  entries.any fun entry => entry.1.equal key

mutual
/-- The data item of an object; a dictionary keeps its order, which the encoding may
not allow. -/
def item : Object → Item
  | .none => .null
  | .bool value => .bool value
  | .int value => .int value
  | .float bits => .float bits
  | .str text => .text text
  | .bytes octets => .bytes octets
  | .list items => .array (itemMembers items)
  | .dict entries => .map (itemFields entries)
  | .tag number value => .tag number value.item

def itemMembers : List Object → List Item
  | [] => []
  | value :: rest => value.item :: itemMembers rest

def itemFields : List (Key × Object) → List (Item × Item)
  | [] => []
  | (key, value) :: rest => (key.item, value.item) :: itemFields rest
end

/-- One entry of a dictionary as a map entry, key and value each as an item. -/
def fieldItem (entry : Key × Object) : Item × Item := (entry.1.item, entry.2.item)

@[simp] theorem item_key (key : Key) : key.object.item = key.item := by
  cases key <;> rw [Key.object, item, Key.item]

theorem itemMembers_eq_map (items : List Object) : itemMembers items = items.map item := by
  induction items with
  | nil => rfl
  | cons value rest ih => rw [itemMembers, ih, List.map_cons]

theorem itemFields_eq_map (entries : List (Key × Object)) :
    itemFields entries = entries.map fieldItem := by
  induction entries with
  | nil => rfl
  | cons entry rest ih => rw [itemFields, ih, List.map_cons, fieldItem]

theorem item_list (items : List Object) : (Object.list items).item = .array (items.map item) := by
  rw [item, itemMembers_eq_map]

theorem item_dict (entries : List (Key × Object)) :
    (Object.dict entries).item = .map (entries.map fieldItem) := by
  rw [item, itemFields_eq_map]

end Object

end Tfws.Python
