import Tfws.Cbor.KeyOrder
import Tfws.Data.SortedMap
import Mathlib.Data.String.Basic

/-! JSON values as `serde_json` holds them: machine integers kept apart from
floats, objects as ordered maps. -/
namespace SerdeJson

open Cbor

/-- `serde_json::Number` without arbitrary precision. A negative integer is
never stored as a positive one, nor the other way round. -/
inductive Number where
  | posInt (value : UInt64)
  | negInt (value : { z : Int64 // z < 0 })
  | float (bits : UInt64)
  deriving DecidableEq

namespace Number

/-- `Number::as_u64`: a negative number has none, and neither has a float, whatever
its value. -/
def asU64 : Number → Option UInt64
  | posInt value => some value
  | _ => none

/-- `Number::as_i64`: a positive number has one as far as the range goes. -/
def asI64 : Number → Option Int64
  | posInt value => if value ≤ 9223372036854775807 then some value.toInt64 else none
  | negInt value => some value.1
  | float _ => none

/-- `Number::from(u64)`, which is never negative and never a float. -/
def ofU64 (value : UInt64) : Number := posInt value

/-- `Number::from(i64)`. A number that is not negative is held as an unsigned one, so
that no number is held in two ways. -/
def ofI64 (value : Int64) : Number :=
  if h : value < 0 then negInt ⟨value, h⟩ else posInt value.toUInt64

/-- The integer held, if the number is one. Floats hold none here, integral values
included. -/
def toInt : Number → Option Int
  | posInt value => some value.toNat
  | negInt value => some value.1.toInt
  | float _ => none

/-- The number that holds an integer of 64 bits, in the one form that serde has for
it. -/
def ofInt (integer : Int) : Option Number :=
  if 0 ≤ integer then
    if integer < 18446744073709551616 then some (posInt (.ofNat integer.toNat)) else none
  else if -9223372036854775808 ≤ integer then some (ofI64 (.ofInt integer)) else none

/-- An integer is held in one way only, so that numbers may be compared as
integers. -/
theorem ofInt_of_toInt {number : Number} {integer : Int} (h : number.toInt = some integer) :
    ofInt integer = some number := by
  cases number with
  | posInt value =>
      obtain rfl := Option.some.inj h
      have hLt := value.toNat_lt
      rw [ofInt, if_pos (by omega), if_pos (by omega)]
      simp
  | negInt value =>
      obtain ⟨value, hNegative⟩ := value
      obtain rfl := Option.some.inj h
      have hSign : value.toInt < 0 := by simpa using Int64.lt_iff_toInt_lt.mp hNegative
      have hLower : -9223372036854775808 ≤ value.toInt := value.le_toInt
      rw [ofInt, if_neg (not_le.mpr hSign), if_pos hLower, Int64.ofInt_toInt, ofI64,
        dif_pos hNegative]
  | float bits => cases h

/-- Every integer whose magnitude is below `2 ^ 63` is held by some number. -/
theorem exists_toInt {integer : Int} (h : integer.natAbs < 9223372036854775808) :
    ∃ number : Number, number.toInt = some integer := by
  rcases lt_or_ge integer 0 with hNegative | hSign
  · have hBack : (Int64.ofInt integer).toInt = integer :=
      Int64.toInt_ofInt_of_le (by omega) (by omega)
    have hLt : Int64.ofInt integer < 0 := by
      rw [Int64.lt_iff_toInt_lt, hBack]
      exact hNegative
    exact ⟨.negInt ⟨_, hLt⟩, congrArg some hBack⟩
  · have hFits : integer.toNat < 18446744073709551616 := by omega
    refine ⟨.posInt (.ofNat integer.toNat), ?_⟩
    rw [toInt, UInt64.toNat_ofNat_of_lt' hFits, Int.toNat_of_nonneg hSign]

def item : Number → Item
  | posInt value => .int value.toNat
  | negInt value => .int value.1.toInt
  | float bits => .float bits

end Number

/-- `serde_json::Value`. Objects are lists of entries here; that they are ordered is
asked for separately. -/
inductive Value where
  | null
  | bool (value : Bool)
  | number (value : Number)
  | string (text : String)
  | array (items : List Value)
  | object (entries : List (String × Value))

namespace Value

section Induction

variable {motive : Value → Prop} (null : motive .null) (bool : ∀ value, motive (.bool value))
  (number : ∀ value, motive (.number value)) (string : ∀ text, motive (.string text))
  (array : ∀ items, (∀ item ∈ items, motive item) → motive (.array items))
  (object : ∀ entries, (∀ entry ∈ entries, motive entry.2) → motive (.object entries))

include null bool number string array object
set_option linter.unusedSectionVars false

mutual
private theorem induct_value : ∀ value : Value, motive value
  | .null => null
  | .bool value => bool value
  | .number value => number value
  | .string text => string text
  | .array items => array items (induct_members items)
  | .object entries => object entries (induct_fields entries)

private theorem induct_members : ∀ items : List Value, ∀ item ∈ items, motive item
  | [] => fun _ hMem => nomatch hMem
  | first :: rest => List.forall_mem_cons.mpr ⟨induct_value first, induct_members rest⟩

private theorem induct_fields :
    ∀ entries : List (String × Value), ∀ entry ∈ entries, motive entry.2
  | [] => fun _ hMem => nomatch hMem
  | (_, value) :: rest => List.forall_mem_cons.mpr ⟨induct_value value, induct_fields rest⟩
end

/-- Induction over nested values: every array member and every field of an object
satisfies the claim. -/
@[induction_eliminator]
theorem induct (value : Value) : motive value :=
  induct_value null bool number string array object value

end Induction

mutual
/-- Objects are maps in ascending key order at every level, as a `BTreeMap`
keeps them. -/
def ordered : Value → Bool
  | .array items => orderedItems items
  | .object entries => decide (SortedMap.Sorted entries) && orderedEntries entries
  | _ => true

def orderedItems : List Value → Bool
  | [] => true
  | item :: rest => item.ordered && orderedItems rest

def orderedEntries : List (String × Value) → Bool
  | [] => true
  | (_, value) :: rest => value.ordered && orderedEntries rest
end

theorem orderedItems_iff {items : List Value} :
    orderedItems items = true ↔ ∀ item ∈ items, item.ordered = true := by
  induction items with
  | nil => simp [orderedItems]
  | cons item rest ih => simp [orderedItems, ih]

theorem orderedEntries_iff {entries : List (String × Value)} :
    orderedEntries entries = true ↔ ∀ entry ∈ entries, entry.2.ordered = true := by
  induction entries with
  | nil => simp [orderedEntries]
  | cons entry rest ih => simp [orderedEntries, ih]

@[simp] theorem ordered_array {items : List Value} :
    (Value.array items).ordered = true ↔ ∀ item ∈ items, item.ordered = true := by
  rw [ordered, orderedItems_iff]

@[simp] theorem ordered_object {entries : List (String × Value)} :
    (Value.object entries).ordered = true ↔
      SortedMap.Sorted entries ∧ ∀ entry ∈ entries, entry.2.ordered = true := by
  rw [ordered, Bool.and_eq_true, decide_eq_true_eq, orderedEntries_iff]

mutual
/-- The data item a value stands for: objects become maps from text keys,
listed in the bytewise order of the encoded keys. -/
def item : Value → Item
  | .null => .null
  | .bool value => .bool value
  | .number value => value.item
  | .string text => .text text
  | .array items => .array (itemMembers items)
  | .object entries => .map (Item.sortEntries (itemFields entries))

def itemMembers : List Value → List Item
  | [] => []
  | value :: rest => value.item :: itemMembers rest

def itemFields : List (String × Value) → List (Item × Item)
  | [] => []
  | (key, value) :: rest => (.text key, value.item) :: itemFields rest
end

/-- One field of an object as a map entry, under a text. -/
def fieldItem (field : String × Value) : Item × Item := (.text field.1, field.2.item)

theorem itemMembers_eq_map (items : List Value) : itemMembers items = items.map item := by
  induction items with
  | nil => rfl
  | cons value rest ih => rw [itemMembers, ih, List.map_cons]

theorem itemFields_eq_map (entries : List (String × Value)) :
    itemFields entries = entries.map fieldItem := by
  induction entries with
  | nil => rfl
  | cons entry rest ih => rw [itemFields, ih, List.map_cons, fieldItem]

theorem item_array (items : List Value) : (Value.array items).item = .array (items.map item) := by
  rw [item, itemMembers_eq_map]

theorem item_object (entries : List (String × Value)) :
    (Value.object entries).item = .map (Item.sortEntries (entries.map fieldItem)) := by
  rw [item, itemFields_eq_map]

end Value

/-- A value whose objects are ordered maps, as all values are that the program can
hold. -/
structure OrderedValue where
  value : Value
  ordered : value.ordered = true

namespace OrderedValue

/-- An ordered value has no other content than the value. -/
@[ext] theorem ext {first second : OrderedValue} (h : first.value = second.value) :
    first = second := by
  cases first
  cases second
  congr

/-- A tree read as a value, when its objects are in key order. -/
def ofValue (value : Value) : Option OrderedValue :=
  if h : value.ordered = true then some ⟨value, h⟩ else none

/-- An ordered value is taken as it is. -/
@[simp] theorem ofValue_value (ordered : OrderedValue) : ofValue ordered.value = some ordered :=
  dif_pos ordered.ordered

end OrderedValue

end SerdeJson
