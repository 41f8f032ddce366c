import Tfws.Cbor.Item
import Tfws.Data.Sorting

/-! The two published orders of encoded map keys. The core deterministic order
compares octets; the older canonical order compares lengths first. They
disagree in general and agree on text keys. -/
namespace Cbor

/-- The order of the core deterministic encoding requirements: octet by octet. -/
def bytewise (first second : Bytes) : Ordering := compare first second

/-- The length-first order: the shorter key sorts earlier, and keys of one length
octet by octet. -/
def lengthFirst (first second : Bytes) : Ordering :=
  (compare first.length second.length).then (compare first second)

instance : Std.TransCmp bytewise := inferInstanceAs (Std.TransCmp (compare : Bytes → _))

instance : Std.LawfulEqCmp bytewise := inferInstanceAs (Std.LawfulEqCmp (compare : Bytes → _))

instance : Std.TransCmp lengthFirst where
  eq_swap {first second} := by
    unfold lengthFirst
    rw [Ordering.swap_then, ← Std.OrientedCmp.eq_swap, ← Std.OrientedCmp.eq_swap]
  isLE_trans {first second third} h h' := by
    unfold lengthFirst at *
    simp only [Ordering.isLE_then_iff_and, Nat.isLE_compare, Nat.compare_eq_lt] at *
    refine ⟨h.1.trans h'.1, ?_⟩
    rcases h.2 with hLt | hLe
    · exact Or.inl (hLt.trans_le h'.1)
    · rcases h'.2 with hLt | hLe'
      · exact Or.inl (h.1.trans_lt hLt)
      · exact Or.inr (Std.TransCmp.isLE_trans hLe hLe')

instance : Std.LawfulEqCmp lengthFirst where
  compare_self {octets} := by simp [lengthFirst]
  eq_of_compare {first second} h := by
    unfold lengthFirst at h
    exact Std.LawfulEqCmp.eq_of_compare (Ordering.then_eq_eq.mp h).2

/-- The length-first comparison turns round with its arguments, as an order has to. -/
theorem lengthFirst_swap (first second : Bytes) :
    lengthFirst first second = (lengthFirst second first).swap :=
  Std.OrientedCmp.eq_swap

/-- The bytewise comparison turns round with its arguments, as an order has to. -/
theorem bytewise_swap (first second : Bytes) :
    bytewise first second = (bytewise second first).swap :=
  Std.OrientedCmp.eq_swap

theorem compare_cons_lt {a b : UInt8} (h : a.toNat < b.toNat) (first second : Bytes) :
    compare (a :: first) (b :: second) = .lt := by
  have hHead : compare a b = .lt := Std.compare_eq_lt.mpr (UInt8.lt_iff_toNat_lt.mpr h)
  simp [hHead]

/-- Fixed-width numbers in network order compare like the numbers, whatever stands
behind them. -/
theorem compare_bigEndian_lt {width n m : Nat} (h : n < m) (hm : m < 256 ^ width)
    (first second : Bytes) :
    compare (bigEndian width n ++ first) (bigEndian width m ++ second) = .lt := by
  induction width generalizing n m with
  | zero => simp at hm; omega
  | succ width ih =>
      have hPos : 0 < 256 ^ width := Nat.pow_pos (by decide)
      have hTop : m / 256 ^ width < 256 := Nat.div_lt_of_lt_mul (by rwa [pow_succ] at hm)
      have hLe : n / 256 ^ width ≤ m / 256 ^ width := Nat.div_le_div_right h.le
      rw [bigEndian, bigEndian, List.cons_append, List.cons_append]
      rcases hLe.lt_or_eq with hLt | hEq
      · refine compare_cons_lt ?_ _ _
        rwa [UInt8.toNat_ofNat_of_lt' (hLt.trans hTop), UInt8.toNat_ofNat_of_lt' hTop]
      · -- The leading octets agree, so the remainders decide.
        have hLow : n % 256 ^ width < m % 256 ^ width := by
          have hn := Nat.div_add_mod n (256 ^ width)
          have hm' := Nat.div_add_mod m (256 ^ width)
          rw [hEq] at hn
          omega
        have hRest := ih hLow (Nat.mod_lt m hPos)
        rw [bigEndian_mod, bigEndian_mod] at hRest
        rw [hEq]
        simpa using hRest

/-- A preferred head with a smaller argument sorts earlier, whatever follows. This
also holds across widths, since a wider form has the larger initial octet. -/
theorem compare_head_lt {major n m : Nat} (hMajor : major < 8) (h : n < m)
    (hm : m < 18446744073709551616) (first second : Bytes) :
    compare (head major n ++ first) (head major m ++ second) = .lt := by
  have hFits := fits_preferred (h.trans hm)
  have hFits' := fits_preferred hm
  have hInitial {argument : Nat} {form : Form} (hFits : form.Fits argument) :
      (UInt8.ofNat (32 * major + form.additional argument)).toNat =
        32 * major + form.additional argument := by
    have := hFits.additional_lt
    rw [UInt8.toNat_ofNat']
    omega
  rw [head, head, Form.head, Form.head, List.cons_append, List.cons_append]
  by_cases hForm : preferred n = preferred m
  · rw [hForm] at hFits ⊢
    cases hCase : preferred m with
    | inline =>
        rw [hCase] at hFits hFits'
        refine compare_cons_lt ?_ _ _
        rw [hInitial hFits, hInitial hFits']
        simpa [Form.additional] using h
    | one | two | four | eight =>
        rw [hCase] at hFits'
        have hRest := compare_bigEndian_lt h hFits' first second
        simpa [Form.additional] using hRest
  · refine compare_cons_lt ?_ _ _
    rw [hInitial hFits, hInitial hFits']
    unfold preferred at hForm ⊢
    split_ifs at hForm ⊢ <;> simp only [Form.additional] <;> first | omega | exact absurd rfl hForm

/-- A larger argument never has a shorter head, which is why both orders agree on
texts. -/
theorem length_head_mono (major : Nat) {n m : Nat} (h : n ≤ m) :
    (head major n).length ≤ (head major m).length := by
  have hWidth : (preferred n).width ≤ (preferred m).width := by
    unfold preferred
    split_ifs <;> simp only [Form.width] <;> omega
  simpa [head, Form.head] using hWidth

/-- On text keys the length-first comparison is the bytewise one: a longer text has a
head that sorts later, and equal lengths have equal heads. With keys of other kinds
the two come apart. -/
theorem lengthFirst_encode_text {first second : String}
    (hFirst : (Utf8.encode first).length < 18446744073709551616)
    (hSecond : (Utf8.encode second).length < 18446744073709551616) :
    lengthFirst (Item.text first).encode (Item.text second).encode =
      bytewise (Item.text first).encode (Item.text second).encode := by
  have hShorter {a b : String} (hLt : (Utf8.encode a).length < (Utf8.encode b).length)
      (hb : (Utf8.encode b).length < 18446744073709551616) :
      lengthFirst (Item.text a).encode (Item.text b).encode = .lt ∧
        bytewise (Item.text a).encode (Item.text b).encode = .lt := by
    have hHeads := length_head_mono 3 hLt.le
    have hTotal : (Item.text a).encode.length < (Item.text b).encode.length := by
      simp only [Item.encode, List.length_append]
      omega
    constructor
    · rw [lengthFirst, Nat.compare_eq_lt.mpr hTotal]
      rfl
    · exact compare_head_lt (by decide) hLt hb _ _
  rcases lt_trichotomy (Utf8.encode first).length (Utf8.encode second).length with hLt | hEq | hGt
  · obtain ⟨hLeft, hRight⟩ := hShorter hLt hSecond
    rw [hLeft, hRight]
  · have hTotal : (Item.text first).encode.length = (Item.text second).encode.length := by
      simp only [Item.encode, List.length_append, hEq]
    rw [lengthFirst, Nat.compare_eq_eq.mpr hTotal]
    rfl
  · obtain ⟨hLeft, hRight⟩ := hShorter hGt hFirst
    rw [lengthFirst_swap, bytewise_swap, hLeft, hRight]

namespace Item

/-- In every map, the encoded keys strictly ascend in the given order. -/
inductive Ordered (order : Bytes → Bytes → Ordering) : Item → Prop where
  | int {value : Int} : Ordered order (.int value)
  | bytes {octets : Bytes} : Ordered order (.bytes octets)
  | text {value : String} : Ordered order (.text value)
  | array {items : List Item} (members : ∀ item ∈ items, Ordered order item) :
      Ordered order (.array items)
  | map {entries : List (Item × Item)}
      (ascending : entries.Pairwise fun first second =>
        order first.1.encode second.1.encode = .lt)
      (keys : ∀ entry ∈ entries, Ordered order entry.1)
      (values : ∀ entry ∈ entries, Ordered order entry.2) : Ordered order (.map entries)
  | tag {number : Nat} {item : Item} (content : Ordered order item) :
      Ordered order (.tag number item)
  | bool {value : Bool} : Ordered order (.bool value)
  | null : Ordered order .null

/-- The core deterministic encoding requirements of RFC 8949, section 4.2.1:
preferred heads and definite lengths (`encode`), keys in bytewise order. -/
def DeterministicEncoding (item : Item) (octets : Bytes) : Prop :=
  item.Encodable ∧ item.Ordered bytewise ∧ octets = item.encode

/-- Sort map entries into the bytewise order of their encoded keys. -/
def sortEntries (entries : List (Item × Item)) : List (Item × Item) :=
  entries.mergeSort fun first second => (bytewise first.1.encode second.1.encode).isLE

/-- Sorting the entries neither adds one nor loses one, whatever the order. -/
theorem sortEntries_perm (entries : List (Item × Item)) : (sortEntries entries).Perm entries :=
  List.mergeSort_perm _ _

end Item

end Cbor
