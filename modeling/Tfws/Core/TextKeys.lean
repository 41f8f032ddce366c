import Tfws.Core.CborEncoding

/-! The order in which the codec writes and expects map keys. It compares
lengths first, as the older canonical order does; on text keys this is the
order of the core deterministic encoding requirements. -/
namespace Tfws

open Cbor

/-- A text that fits in a text string: its length can be written in a head. -/
@[ext] structure TextKey where
  text : String
  short : (Utf8.encode text).length < 18446744073709551616

namespace TextKey

variable {first second : TextKey}

/-- The key as it stands in the document, with its head in front. -/
def encoded (key : TextKey) : Bytes := (Item.text key.text).encode

/-- `compare_encoded_keys` on two encoded keys: length first, then the octets. -/
def order (first second : TextKey) : Ordering :=
  compareEncodedKeys first.encoded second.encoded

/-- Different keys have different encodings, so that an order of encodings is one of
keys. -/
theorem encoded_injective (h : first.encoded = second.encoded) : first = second :=
  TextKey.ext (Item.encode_text_injective first.short second.short h)

/-- On text keys the codec's order is the bytewise one, although it compares lengths
first: a longer text has the larger head. -/
theorem order_eq_bytewise (first second : TextKey) :
    first.order second = bytewise first.encoded second.encoded :=
  compareEncodedKeys_text first.short second.short

instance : Std.TransCmp order where
  eq_swap := lengthFirst_swap _ _
  isLE_trans {a b c} hFirst hSecond := by
    have hTrans : (lengthFirst a.encoded c.encoded).isLE := Std.TransCmp.isLE_trans hFirst hSecond
    exact hTrans

instance : Std.LawfulEqCmp order where
  compare_self {key} := by
    have hSelf : lengthFirst key.encoded key.encoded = .eq := Std.ReflCmp.compare_self
    exact hSelf
  eq_of_compare {first second} h := by
    have hEq : lengthFirst first.encoded second.encoded = .eq := h
    exact encoded_injective (Std.LawfulEqCmp.eq_of_compare hEq)

/-- The order confuses no two keys, at whatever head width. -/
theorem order_eq_iff : first.order second = .eq ↔ first = second :=
  Std.LawfulEqCmp.compare_eq_iff_eq

/-- Ascending keys do not repeat, so that the comparison with the previous key
excludes duplicates as well. -/
theorem nodup_of_ascending {keys : List TextKey} (h : Sorting.Ascending order id keys) :
    keys.Nodup := by
  apply h.distinct.imp
  intro first second hNe hEq
  exact hNe (order_eq_iff.mpr hEq)

end TextKey

open TextKey

variable {α : Type*}

/-- Fields ascend in the codec's order exactly if their encoded keys ascend bytewise,
so that one order may be read for the other. -/
theorem ascending_order_iff {sorted : List (TextKey × α)} :
    Sorting.Ascending order Prod.fst sorted ↔
      Sorting.Ascending bytewise (fun field => field.1.encoded) sorted := by
  unfold Sorting.Ascending
  simp only [order_eq_bytewise]

/-- The codec's order of text keys is the bytewise order of their encodings. It
is a strict total order, it confuses no two keys, sorting by it gives the one
bytewise ascending arrangement of the fields, and keys that increase from each
to the next are all different. -/
theorem compareEncodedKeys_deterministic_order (crates : Crates) :
    (∀ key : TextKey, encodedTextKey crates key.text = .ok key.encoded) ∧
    (∀ first second : TextKey, compareEncodedKeys first.encoded second.encoded =
      bytewise first.encoded second.encoded) ∧
    IsStrictTotalOrder TextKey (fun first second =>
      compareEncodedKeys first.encoded second.encoded = .lt) ∧
    (∀ first second : TextKey,
      compareEncodedKeys first.encoded second.encoded = .eq ↔ first = second) ∧
    (∀ fields sorted : List (TextKey × α), (fields.map Prod.fst).Nodup → sorted.Perm fields →
      ((sorted.Pairwise fun left right =>
          bytewise left.1.encoded right.1.encoded = .lt) ↔
        sorted = fields.mergeSort fun left right =>
          (compareEncodedKeys left.1.encoded right.1.encoded).isLE)) ∧
    (∀ keys : List TextKey, (keys.IsChain fun first second =>
      compareEncodedKeys first.encoded second.encoded = .lt) → keys.Nodup) := by
  have hTotal : IsStrictTotalOrder TextKey fun first second => order first second = .lt :=
    Sorting.isStrictTotalOrder
  refine ⟨?total_encoding, order_eq_bytewise, hTotal, fun _ _ => order_eq_iff, ?sorting, ?chain⟩
  case total_encoding =>
    intro key
    exact encodedTextKey_eq key.short
  case sorting =>
    intro fields sorted hNodup hPerm
    have hDistinct : Sorting.Distinct order Prod.fst fields :=
      (List.pairwise_map.mp hNodup).imp fun hNe hEq => hNe (order_eq_iff.mp hEq)
    exact ascending_order_iff.symm.trans (Sorting.ascending_iff_eq_sortBy hDistinct hPerm)
  case chain =>
    intro keys hChain
    exact nodup_of_ascending (Sorting.ascending_of_isChain hChain)

end Tfws
