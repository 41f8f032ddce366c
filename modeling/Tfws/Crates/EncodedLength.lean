import Tfws.Crates.SerdeJson
import Mathlib.Algebra.BigOperators.Group.List.Basic
import Mathlib.Algebra.Order.BigOperators.Group.List
import Mathlib.Algebra.Order.Monoid.Canonical.Defs

/-! The number of octets in which a value is encoded, computed without sorting
any map. -/
namespace SerdeJson

open Cbor

/-- The length of a preferred head: the initial octet and those of the argument. -/
def headLength (argument : Nat) : Nat := 1 + (preferred argument).width

theorem length_head (major argument : Nat) : (head major argument).length = headLength argument := by
  simp [head, Form.head, headLength, Nat.add_comm]

theorem headLength_le (argument : Nat) : headLength argument ≤ 9 := by
  have hWidth : (preferred argument).width ≤ 8 := by cases preferred argument <;> decide
  unfold headLength
  omega

/-- The length of an encoded text, counted in octets and not in characters. -/
def textLength (text : String) : Nat :=
  headLength (Utf8.encode text).length + (Utf8.encode text).length

/-- The length of an encoded integer. A negative one is encoded by its distance from
minus one. -/
def intLength (value : Int) : Nat :=
  headLength (if 0 ≤ value then value.toNat else (-1 - value).toNat)

def Number.encodedLength : Number → Nat
  | .posInt value => intLength value.toNat
  | .negInt value => intLength value.1.toInt
  | .float _ => 9

namespace Value

mutual
/-- The length of an encoded value, as the sum of the lengths of its parts. -/
def encodedLength : Value → Nat
  | .null | .bool _ => 1
  | .number value => value.encodedLength
  | .string text => textLength text
  | .array items => headLength items.length + itemsLength items
  | .object entries => headLength entries.length + fieldsLength entries

def itemsLength : List Value → Nat
  | [] => 0
  | item :: rest => item.encodedLength + itemsLength rest

def fieldsLength : List (String × Value) → Nat
  | [] => 0
  | (key, value) :: rest => textLength key + value.encodedLength + fieldsLength rest
end

theorem itemsLength_eq_sum (items : List Value) :
    itemsLength items = (items.map encodedLength).sum := by
  induction items with
  | nil => rfl
  | cons item rest ih => rw [itemsLength, ih, List.map_cons, List.sum_cons]

theorem fieldsLength_eq_sum (entries : List (String × Value)) :
    fieldsLength entries =
      (entries.map fun entry => textLength entry.1 + entry.2.encodedLength).sum := by
  induction entries with
  | nil => rfl
  | cons entry rest ih => rw [fieldsLength, ih, List.map_cons, List.sum_cons]

theorem length_encode_text (text : String) : (Item.text text).encode.length = textLength text := by
  rw [Item.encode, List.length_append, length_head, textLength]

theorem length_encode_int (value : Int) : (Item.int value).encode.length = intLength value := by
  rw [Item.encode, intLength]
  split_ifs <;> rw [length_head]

theorem length_encode_number (number : Number) :
    number.item.encode.length = number.encodedLength := by
  cases number with
  | posInt value => exact length_encode_int _
  | negInt value => exact length_encode_int _
  | float bits => rfl

/-- Sorting the entries of a map does not change how long it is, and so the length is
found without sorting. -/
theorem length_encode_item (value : Value) : value.item.encode.length = value.encodedLength := by
  induction value with
  | null =>
      simp only [item, encodedLength]
      rfl
  | bool value =>
      simp only [item, encodedLength]
      cases value <;> rfl
  | number value =>
      simp only [item, encodedLength]
      exact length_encode_number value
  | string text =>
      simp only [item, encodedLength]
      exact length_encode_text text
  | array items ih =>
      rw [item_array, Item.encode, List.length_append, length_head, List.length_map,
        Item.encodeItems_eq_flatMap, List.length_flatMap, List.map_map, encodedLength,
        itemsLength_eq_sum]
      exact congrArg (fun lengths => headLength items.length + List.sum lengths)
        (List.map_congr_left ih)
  | object entries ih =>
      have hPerm := Item.sortEntries_perm (entries.map fieldItem)
      rw [item_object, Item.encode, List.length_append, length_head, hPerm.length_eq,
        List.length_map, Item.encodeEntries_eq_flatMap, List.length_flatMap,
        (hPerm.map _).sum_eq, List.map_map, encodedLength, fieldsLength_eq_sum]
      refine congrArg (fun lengths => headLength entries.length + List.sum lengths)
        (List.map_congr_left fun entry hMem => ?_)
      simp [fieldItem, length_encode_text, ih entry hMem]

/-- A field is no longer than the object it is in, its name included. -/
theorem encodedLength_field_le {entries : List (String × Value)} {entry : String × Value}
    (h : entry ∈ entries) :
    textLength entry.1 + entry.2.encodedLength ≤ (Value.object entries).encodedLength := by
  rw [encodedLength, fieldsLength_eq_sum]
  have hLengths : textLength entry.1 + entry.2.encodedLength ∈
      entries.map fun entry => textLength entry.1 + entry.2.encodedLength := List.mem_map_of_mem h
  exact (List.le_sum_of_mem hLengths).trans (Nat.le_add_left _ _)

/-- An object of short fields is short: at most the head, and the bound for each of
them. -/
theorem encodedLength_object_le {entries : List (String × Value)} {bound : Nat}
    (h : ∀ entry ∈ entries, textLength entry.1 + entry.2.encodedLength ≤ bound) :
    (Value.object entries).encodedLength ≤ 9 + entries.length * bound := by
  rw [encodedLength, fieldsLength_eq_sum]
  apply Nat.add_le_add (headLength_le _)
  have hSum := List.sum_le_card_nsmul _ bound (List.forall_mem_map.mpr h)
  rwa [List.length_map, Nat.nsmul_eq_mul] at hSum

end Value

end SerdeJson
