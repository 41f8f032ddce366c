import Mathlib.Data.Set.Defs
import Tfws.Cbor.Head

/-! Data items of RFC 8949 and the encoding that uses preferred heads and
definite lengths throughout. Every item is recovered from its encoding,
whatever octets come behind it. -/
namespace Cbor

/-- None of the texts is a proper prefix of another one. A reader then knows where a
text ends. -/
def PrefixFree (texts : Set Bytes) : Prop :=
  ∀ first ∈ texts, ∀ second ∈ texts, first <+: second → first = second

/-- Fewer texts are the harder to confuse: the property is inherited by every
subset. -/
theorem PrefixFree.mono {texts others : Set Bytes} (h : PrefixFree others)
    (hSubset : ∀ text ∈ texts, text ∈ others) : PrefixFree texts :=
  fun first hFirst second hSecond => h first (hSubset first hFirst) second (hSubset second hSecond)

/-- The data items that the readers and writers here know. Indefinite lengths and
other simple values have no counterpart, for none of the encoders writes them. -/
inductive Item where
  | int (value : Int)
  | bytes (octets : Bytes)
  | text (value : String)
  | array (items : List Item)
  | map (entries : List (Item × Item))
  | tag (number : Nat) (item : Item)
  | bool (value : Bool)
  | null
  | float (bits : UInt64)

namespace Item

section Induction

variable {motive : Item → Prop}
  (int : ∀ value, motive (.int value)) (bytes : ∀ octets, motive (.bytes octets))
  (text : ∀ value, motive (.text value))
  (array : ∀ items, (∀ item ∈ items, motive item) → motive (.array items))
  (map : ∀ entries, (∀ entry ∈ entries, motive entry.1 ∧ motive entry.2) →
    motive (.map entries))
  (tag : ∀ number item, motive item → motive (.tag number item))
  (bool : ∀ value, motive (.bool value)) (null : motive .null)
  (float : ∀ bits, motive (.float bits))

include int bytes text array map tag bool null float
set_option linter.unusedSectionVars false

mutual
private theorem induct_item : ∀ item : Item, motive item
  | .int value => int value
  | .bytes octets => bytes octets
  | .text value => text value
  | .array items => array items (induct_items items)
  | .map entries => map entries (induct_entries entries)
  | .tag number item => tag number item (induct_item item)
  | .bool value => bool value
  | .null => null
  | .float bits => float bits

private theorem induct_items : ∀ items : List Item, ∀ item ∈ items, motive item
  | [] => fun _ hMem => nomatch hMem
  | first :: rest => List.forall_mem_cons.mpr ⟨induct_item first, induct_items rest⟩

private theorem induct_entries :
    ∀ entries : List (Item × Item), ∀ entry ∈ entries, motive entry.1 ∧ motive entry.2
  | [] => fun _ hMem => nomatch hMem
  | (key, value) :: rest =>
      List.forall_mem_cons.mpr ⟨⟨induct_item key, induct_item value⟩, induct_entries rest⟩
end

/-- Induction over nested items: the members of an array and both sides of every map
entry satisfy the claim. -/
@[induction_eliminator]
theorem induct (item : Item) : motive item :=
  induct_item int bytes text array map tag bool null float item

end Induction

mutual
/-- Preferred heads and definite lengths. Map entries are written in the order
in which they are listed. -/
def encode : Item → Bytes
  | .int value =>
      if 0 ≤ value then head 0 value.toNat else head 1 (-1 - value).toNat
  | .bytes octets => head 2 octets.length ++ octets
  | .text value => head 3 (Utf8.encode value).length ++ Utf8.encode value
  | .array items => head 4 items.length ++ encodeItems items
  | .map entries => head 5 entries.length ++ encodeEntries entries
  | .tag number item => head 6 number ++ item.encode
  | .bool value => head 7 (if value then 21 else 20)
  | .null => head 7 22
  | .float bits => Form.eight.head 7 bits.toNat

def encodeItems : List Item → Bytes
  | [] => []
  | item :: rest => item.encode ++ encodeItems rest

def encodeEntries : List (Item × Item) → Bytes
  | [] => []
  | (key, value) :: rest => key.encode ++ value.encode ++ encodeEntries rest
end

theorem encode_bytes (octets : Bytes) :
    (Item.bytes octets).encode = head 2 octets.length ++ octets := by
  rw [encode]

theorem encode_map (entries : List (Item × Item)) :
    (Item.map entries).encode = head 5 entries.length ++ encodeEntries entries := by
  rw [encode]

theorem encodeItems_eq_flatMap (items : List Item) : encodeItems items = items.flatMap encode := by
  induction items with
  | nil => rfl
  | cons item rest ih => rw [encodeItems, ih, List.flatMap_cons]

theorem encodeEntries_eq_flatMap (entries : List (Item × Item)) :
    encodeEntries entries = entries.flatMap fun entry => entry.1.encode ++ entry.2.encode := by
  induction entries with
  | nil => rfl
  | cons entry rest ih => rw [encodeEntries, ih, List.flatMap_cons]

/-- Every argument has a head, and no float occurs: the preferred form of a
float is not described here. -/
inductive Encodable : Item → Prop where
  | int {value : Int} (lower : -18446744073709551616 ≤ value)
      (upper : value < 18446744073709551616) : Encodable (.int value)
  | bytes {octets : Bytes} (short : octets.length < 18446744073709551616) :
      Encodable (.bytes octets)
  | text {value : String} (short : (Utf8.encode value).length < 18446744073709551616) :
      Encodable (.text value)
  | array {items : List Item} (short : items.length < 18446744073709551616)
      (members : ∀ item ∈ items, Encodable item) : Encodable (.array items)
  | map {entries : List (Item × Item)} (short : entries.length < 18446744073709551616)
      (keys : ∀ entry ∈ entries, Encodable entry.1)
      (values : ∀ entry ∈ entries, Encodable entry.2) : Encodable (.map entries)
  | tag {number : Nat} {item : Item} (short : number < 18446744073709551616)
      (content : Encodable item) : Encodable (.tag number item)
  | bool {value : Bool} : Encodable (.bool value)
  | null : Encodable .null

/-- The major type of an item's head. Its argument is defined beside it. -/
def majorType : Item → Nat
  | .int value => if 0 ≤ value then 0 else 1
  | .bytes _ => 2
  | .text _ => 3
  | .array _ => 4
  | .map _ => 5
  | .tag _ _ => 6
  | .bool _ | .null | .float _ => 7

/-- The number in the head: a count, a length, a tag, or the item itself where it has
no content. -/
def argument : Item → Nat
  | .int value => if 0 ≤ value then value.toNat else (-1 - value).toNat
  | .bytes octets => octets.length
  | .text value => (Utf8.encode value).length
  | .array items => items.length
  | .map entries => entries.length
  | .tag number _ => number
  | .bool value => if value then 21 else 20
  | .null => 22
  | .float bits => bits.toNat

/-- What follows the head of an item. It is empty for the items that their head says
all about. -/
def content : Item → Bytes
  | .bytes octets => octets
  | .text value => Utf8.encode value
  | .array items => encodeItems items
  | .map entries => encodeEntries entries
  | .tag _ item => item.encode
  | _ => []

theorem majorType_lt (item : Item) : item.majorType < 8 := by
  cases item <;> simp only [majorType] <;> first | omega | (split_ifs <;> omega)

/-- An encoding is the preferred head and the content, which the proofs below take
apart in this way. -/
theorem Encodable.encode_eq {item : Item} (h : item.Encodable) :
    item.encode = head item.majorType item.argument ++ item.content := by
  cases h <;> simp only [encode, majorType, argument, content, List.append_nil]
  split_ifs <;> rfl

theorem Encodable.argument_lt {item : Item} (h : item.Encodable) :
    item.argument < 18446744073709551616 := by
  cases h <;> simp only [argument] <;> first | assumption | (split_ifs <;> omega) | omega

/-- No item is written as nothing, so that reading one always takes octets away. -/
theorem Encodable.encode_ne_nil {item : Item} (h : item.Encodable) : item.encode ≠ [] := by
  rw [h.encode_eq]
  simp [head_ne_nil]

/-- Equal encodings have equal heads and equal contents, whatever stands behind
them. -/
theorem Encodable.head_content_inj {first second : Item} (hFirst : first.Encodable)
    (hSecond : second.Encodable) {rest rest' : Bytes}
    (h : first.encode ++ rest = second.encode ++ rest') :
    first.majorType = second.majorType ∧ first.argument = second.argument ∧
      first.content ++ rest = second.content ++ rest' := by
  rw [hFirst.encode_eq, hSecond.encode_eq, List.append_assoc, List.append_assoc] at h
  exact head_append_inj first.majorType_lt second.majorType_lt hFirst.argument_lt
    hSecond.argument_lt h

/-- Sequences of self-delimiting blocks of one known length are told apart. The length
comes from the head, since nothing marks the end of the last block. -/
theorem flatMap_append_inj {α : Type*} (code : α → Bytes) {first second : List α}
    {rest rest' : Bytes}
    (hCode : ∀ a ∈ first, ∀ b ∈ second, ∀ tail tail',
      code a ++ tail = code b ++ tail' → a = b ∧ tail = tail')
    (hLength : first.length = second.length)
    (h : first.flatMap code ++ rest = second.flatMap code ++ rest') :
    first = second ∧ rest = rest' := by
  induction first generalizing second with
  | nil =>
      obtain rfl := List.length_eq_zero_iff.mp hLength.symm
      exact ⟨rfl, by simpa using h⟩
  | cons a first ih =>
      cases second with
      | nil => cases hLength
      | cons b second =>
          rw [List.flatMap_cons, List.flatMap_cons, List.append_assoc, List.append_assoc] at h
          obtain ⟨rfl, hTail⟩ := hCode a (List.mem_cons_self ..) b (List.mem_cons_self ..) _ _ h
          obtain ⟨rfl, rfl⟩ := ih
            (fun x hx y hy => hCode x (List.mem_cons_of_mem _ hx) y (List.mem_cons_of_mem _ hy))
            (Nat.succ.inj hLength) hTail
          exact ⟨rfl, rfl⟩

theorem eq_bytes_of_majorType {item : Item} (h : item.majorType = 2) :
    ∃ octets, item = .bytes octets := by
  cases item <;> grind [majorType]

theorem eq_text_of_majorType {item : Item} (h : item.majorType = 3) :
    ∃ value, item = .text value := by
  cases item <;> grind [majorType]

theorem eq_array_of_majorType {item : Item} (h : item.majorType = 4) :
    ∃ items, item = .array items := by
  cases item <;> grind [majorType]

theorem eq_map_of_majorType {item : Item} (h : item.majorType = 5) :
    ∃ entries, item = .map entries := by
  cases item <;> grind [majorType]

theorem eq_tag_of_majorType {item : Item} (h : item.majorType = 6) :
    ∃ number content, item = .tag number content := by
  cases item <;> grind [majorType]

theorem Encodable.of_array {items : List Item} (h : Encodable (.array items)) :
    ∀ item ∈ items, Encodable item := by
  cases h
  assumption

theorem Encodable.of_map {entries : List (Item × Item)} (h : Encodable (.map entries)) :
    ∀ entry ∈ entries, Encodable entry.1 ∧ Encodable entry.2 := by
  cases h with
  | map _ keys values => exact fun entry hMem => ⟨keys entry hMem, values entry hMem⟩

theorem Encodable.of_tag {number : Nat} {item : Item} (h : Encodable (.tag number item)) :
    Encodable item := by
  cases h
  assumption

/-- Items without content are the same as soon as their heads are. -/
theorem Encodable.eq_of_simple {first second : Item} (hFirst : first.Encodable)
    (hSecond : second.Encodable) (hMajor : first.majorType = second.majorType)
    (hSimple : first.majorType ≤ 1 ∨ first.majorType = 7)
    (hArgument : first.argument = second.argument) : first = second := by
  cases hFirst <;> cases hSecond <;> simp only [majorType, argument] at hMajor hSimple hArgument <;>
    first
    | rfl
    | omega
    | (exfalso; split_ifs at * <;> omega)
    | (congr 1; split_ifs at * <;> first | omega | simp_all)

/-- Unique readability: an encoding determines its item and where it ends. No
separator is needed between items. -/
theorem Encodable.encode_append_inj {first second : Item} (hFirst : first.Encodable)
    (hSecond : second.Encodable) {rest rest' : Bytes}
    (h : first.encode ++ rest = second.encode ++ rest') : first = second ∧ rest = rest' := by
  induction first generalizing second rest rest' with
  | int value =>
      obtain ⟨hMajor, hArgument, hContent⟩ := hFirst.head_content_inj hSecond h
      obtain rfl := hFirst.eq_of_simple hSecond hMajor
        (Or.inl (by simp only [majorType]; split_ifs <;> omega)) hArgument
      exact ⟨rfl, hContent⟩
  | bytes octets =>
      obtain ⟨hMajor, hArgument, hContent⟩ := hFirst.head_content_inj hSecond h
      obtain ⟨octets', rfl⟩ := eq_bytes_of_majorType hMajor.symm
      obtain ⟨rfl, rfl⟩ := List.append_inj hContent hArgument
      exact ⟨rfl, rfl⟩
  | text value =>
      obtain ⟨hMajor, hArgument, hContent⟩ := hFirst.head_content_inj hSecond h
      obtain ⟨value', rfl⟩ := eq_text_of_majorType hMajor.symm
      obtain ⟨hOctets, rfl⟩ := List.append_inj hContent hArgument
      exact ⟨congrArg Item.text (Utf8.encode_injective hOctets), rfl⟩
  | array items ih =>
      obtain ⟨hMajor, hArgument, hContent⟩ := hFirst.head_content_inj hSecond h
      obtain ⟨items', rfl⟩ := eq_array_of_majorType hMajor.symm
      simp only [content, encodeItems_eq_flatMap] at hContent
      obtain ⟨rfl, rfl⟩ := flatMap_append_inj encode
        (fun a ha b hb _ _ hCode => ih a ha (hFirst.of_array a ha) (hSecond.of_array b hb) hCode)
        hArgument hContent
      exact ⟨rfl, rfl⟩
  | map entries ih =>
      obtain ⟨hMajor, hArgument, hContent⟩ := hFirst.head_content_inj hSecond h
      obtain ⟨entries', rfl⟩ := eq_map_of_majorType hMajor.symm
      simp only [content, encodeEntries_eq_flatMap] at hContent
      obtain ⟨rfl, rfl⟩ := flatMap_append_inj
        (fun entry : Item × Item => entry.1.encode ++ entry.2.encode)
        (fun a ha b hb tail tail' hCode => by
          rw [List.append_assoc, List.append_assoc] at hCode
          obtain ⟨hKey, hRest⟩ := (ih a ha).1 (hFirst.of_map a ha).1 (hSecond.of_map b hb).1 hCode
          obtain ⟨hValue, hTail⟩ := (ih a ha).2 (hFirst.of_map a ha).2 (hSecond.of_map b hb).2 hRest
          exact ⟨Prod.ext hKey hValue, hTail⟩)
        hArgument hContent
      exact ⟨rfl, rfl⟩
  | tag number item ih =>
      obtain ⟨hMajor, hArgument, hContent⟩ := hFirst.head_content_inj hSecond h
      obtain ⟨number', item', rfl⟩ := eq_tag_of_majorType hMajor.symm
      obtain ⟨rfl, rfl⟩ := ih hFirst.of_tag hSecond.of_tag hContent
      exact ⟨congrArg (Item.tag · item) hArgument, rfl⟩
  | bool value =>
      obtain ⟨hMajor, hArgument, hContent⟩ := hFirst.head_content_inj hSecond h
      obtain rfl := hFirst.eq_of_simple hSecond hMajor (Or.inr rfl) hArgument
      exact ⟨rfl, hContent⟩
  | null =>
      obtain ⟨hMajor, hArgument, hContent⟩ := hFirst.head_content_inj hSecond h
      obtain rfl := hFirst.eq_of_simple hSecond hMajor (Or.inr rfl) hArgument
      exact ⟨rfl, hContent⟩
  | float bits => cases hFirst

/-- Different items have different encodings. It follows from prefix freeness, with
nothing behind either. -/
theorem Encodable.encode_inj {first second : Item} (hFirst : first.Encodable)
    (hSecond : second.Encodable) (h : first.encode = second.encode) : first = second := by
  have hAppend : first.encode ++ [] = second.encode ++ [] := by rw [h]
  exact (hFirst.encode_append_inj hSecond hAppend).1

/-- The encodings of items are prefix-free: an item ends where its heads say, so that
no encoding goes on to become another. -/
theorem prefixFree_encode :
    PrefixFree { text | ∃ item : Item, item.Encodable ∧ text = item.encode } := by
  intro first hFirst second hSecond hPrefix
  obtain ⟨item, hItem, rfl⟩ := hFirst
  obtain ⟨other, hOther, rfl⟩ := hSecond
  obtain ⟨rest, hRest⟩ := hPrefix
  rw [← List.append_nil other.encode] at hRest
  obtain ⟨hSame, -⟩ := hItem.encode_append_inj hOther hRest
  rw [hSame]

end Item

end Cbor
