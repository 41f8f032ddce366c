import Mathlib.Data.List.Sort
import Tfws.Data.Utf16
import Tfws.Json.Value

/-! The JSON Canonicalization Scheme of RFC 8785, for values whose numbers are
integers that a double holds exactly. -/
namespace Json

/-- The text behind a backslash: a letter where the scheme has one, and otherwise four
hexadecimal digits. -/
def quoteControl : Nat → List Char
  | 0x08 => ['b']
  | 0x09 => ['t']
  | 0x0A => ['n']
  | 0x0C => ['f']
  | 0x0D => ['r']
  | code =>
      ['u', hexDigit (code / 4096), hexDigit (code / 256 % 16), hexDigit (code / 16 % 16),
        hexDigit (code % 16)]

/-- Control characters are escaped, and so are the quotation mark and the
backslash; all others stand as they are. -/
def quoteChar (c : Char) : List Char :=
  if c.toNat < 0x20 then '\\' :: quoteControl c.toNat
  else if c = '"' ∨ c = '\\' then ['\\', c]
  else [c]

/-- A string between its quotation marks, with the escapes that RFC 8785 demands. -/
def quote (text : String) : List Char := '"' :: (text.toList.flatMap quoteChar ++ ['"'])

/-- Texts with commas between them, and none behind the last. -/
def separated : List (List Char) → List Char
  | [] => []
  | [text] => text
  | text :: next :: rest => text ++ ',' :: separated (next :: rest)

/-- The name of the first field does not come after that of the second, by code
units. -/
def unitsLe {α : Type} (first second : String × α) : Prop :=
  Utf16.encode first.1.toList ≤ Utf16.encode second.1.toList

instance {α : Type} : DecidableRel (unitsLe (α := α)) :=
  fun _ _ => inferInstanceAs (Decidable (_ ≤ _))

instance {α : Type} : Std.Total (unitsLe (α := α)) where
  total _ _ := le_total _ _

instance {α : Type} : IsTrans (String × α) unitsLe where
  trans _ _ _ hFirst hSecond := hFirst.trans hSecond

/-- Fields in the order of the code units of their names. -/
def inUnitOrder {α : Type} (fields : List (String × α)) : List (String × α) :=
  fields.insertionSort unitsLe

/-- A field whose value has been written: its name, a colon and the value, without any
blank. -/
def canonicalField (field : String × List Char) : List Char := quote field.1 ++ ':' :: field.2

namespace Value

mutual
/-- The canonical text of a value. Fields are brought into the order of their names'
code units; nothing else is rearranged. -/
def canonical : Value → List Char
  | .null => ['n', 'u', 'l', 'l']
  | .bool true => ['t', 'r', 'u', 'e']
  | .bool false => ['f', 'a', 'l', 's', 'e']
  | .int value => writeInt value
  | .decimal text => text.toList
  | .string text => quote text
  | .unpaired => []
  | .array items => '[' :: (separated (canonicalItems items) ++ [']'])
  | .object fields =>
      '{' :: (separated ((inUnitOrder (canonicalFields fields)).map canonicalField) ++ ['}'])

def canonicalItems : List Value → List (List Char)
  | [] => []
  | item :: rest => item.canonical :: canonicalItems rest

def canonicalFields : List (String × Value) → List (String × List Char)
  | [] => []
  | (name, value) :: rest => (name, value.canonical) :: canonicalFields rest
end

/-- No object, at any level, has two names that cross: in UTF-16 its names come
in the order of their code points. -/
inductive Uncrossed : Value → Prop where
  | null : Uncrossed .null
  | bool {value : Bool} : Uncrossed (.bool value)
  | int {value : Int} : Uncrossed (.int value)
  | decimal {text : String} : Uncrossed (.decimal text)
  | string {text : String} : Uncrossed (.string text)
  | unpaired : Uncrossed .unpaired
  | array {items : List Value} (members : ∀ item ∈ items, Uncrossed item) :
      Uncrossed (.array items)
  | object {fields : List (String × Value)}
      (names : ∀ first ∈ fields, ∀ second ∈ fields,
        Utf16.crossed first.1.toList second.1.toList = false)
      (members : ∀ field ∈ fields, Uncrossed field.2) : Uncrossed (.object fields)

end Value

theorem quoteChar_eq_escape (c : Char) : quoteChar c = escape c := by
  have hControls : ∀ code < 0x20, quoteChar (Char.ofNat code) = escape (Char.ofNat code) := by
    decide
  by_cases hControl : c.toNat < 0x20
  · have hChar := hControls c.toNat hControl
    rwa [Char.ofNat_toNat] at hChar
  · have hOther {d : Char} (h : d.toNat < 0x20) : c ≠ d := by
      intro hSame
      exact hControl (hSame ▸ h)
    rw [quoteChar, escape, if_neg hControl]
    by_cases hQuote : c = '"'
    · rw [if_pos (Or.inl hQuote), if_pos hQuote, hQuote]
    · by_cases hBackslash : c = '\\'
      · rw [if_pos (Or.inr hBackslash), if_neg hQuote, if_pos hBackslash, hBackslash]
      · rw [if_neg (not_or.mpr ⟨hQuote, hBackslash⟩), if_neg hQuote, if_neg hBackslash,
          if_neg (hOther (by decide)), if_neg (hOther (by decide)), if_neg (hOther (by decide)),
          if_neg (by omega), if_neg (by omega), if_neg hControl]

/-- The scheme quotes strings as the compact writer does, so that only the order of
names can differ. -/
theorem quote_eq_writeString (text : String) : quote text = writeString text := by
  rw [quote, writeString, funext quoteChar_eq_escape]

namespace Value

mutual
/-- The value with all its fields in the order of RFC 8785, at every level. Its
compact text is the canonical text of the value. -/
def reordered : Value → Value
  | .array items => .array (reorderedItems items)
  | .object fields => .object (inUnitOrder (reorderedFields fields))
  | value => value

def reorderedItems : List Value → List Value
  | [] => []
  | item :: rest => item.reordered :: reorderedItems rest

def reorderedFields : List (String × Value) → List (String × Value)
  | [] => []
  | (name, value) :: rest => (name, value.reordered) :: reorderedFields rest
end

/-- The field with another value, under the same name. -/
def onField {α β : Type} (image : α → β) (field : String × α) : String × β :=
  (field.1, image field.2)

theorem canonicalItems_eq_map (items : List Value) :
    canonicalItems items = items.map canonical := by
  induction items with
  | nil => rfl
  | cons item rest ih => rw [canonicalItems, ih, List.map_cons]

theorem canonicalFields_eq_map (fields : List (String × Value)) :
    canonicalFields fields = fields.map (onField canonical) := by
  induction fields with
  | nil => rfl
  | cons field rest ih => rw [canonicalFields, ih, List.map_cons, onField]

theorem reorderedItems_eq_map (items : List Value) :
    reorderedItems items = items.map reordered := by
  induction items with
  | nil => rfl
  | cons item rest ih => rw [reorderedItems, ih, List.map_cons]

theorem reorderedFields_eq_map (fields : List (String × Value)) :
    reorderedFields fields = fields.map (onField reordered) := by
  induction fields with
  | nil => rfl
  | cons field rest ih => rw [reorderedFields, ih, List.map_cons, onField]

theorem map_inUnitOrder {α β : Type} (image : α → β) (fields : List (String × α)) :
    (inUnitOrder fields).map (onField image) = inUnitOrder (fields.map (onField image)) :=
  List.map_insertionSort _ _ _ _ fun _ _ _ _ => Iff.rfl

theorem separated_writeItems (text : List Char) (rest : List Value) :
    separated (text :: rest.map write) ++ [']'] = text ++ writeItems rest := by
  induction rest generalizing text with
  | nil => rw [List.map_nil, separated, writeItems]
  | cons item rest ih =>
      rw [List.map_cons, separated, List.append_assoc, List.cons_append, ih, writeItems]

theorem write_array (items : List Value) :
    (Value.array items).write = '[' :: (separated (items.map write) ++ [']']) := by
  cases items with
  | nil => rw [write, List.map_nil, separated, List.nil_append]
  | cons item rest => rw [write, List.map_cons, separated_writeItems]

/-- A field in the compact text: its name, a colon and the value. -/
def writeField (field : String × Value) : List Char :=
  writeString field.1 ++ ':' :: write field.2

theorem separated_writeFields (text : List Char) (rest : List (String × Value)) :
    separated (text :: rest.map writeField) ++ ['}'] = text ++ writeFields rest := by
  induction rest generalizing text with
  | nil => rw [List.map_nil, separated, writeFields]
  | cons field rest ih =>
      rw [List.map_cons, separated, List.append_assoc, List.cons_append, ih, writeField,
        writeFields, List.append_assoc, List.cons_append]

theorem write_object (fields : List (String × Value)) :
    (Value.object fields).write = '{' :: (separated (fields.map writeField) ++ ['}']) := by
  cases fields with
  | nil => rw [write, List.map_nil, separated, List.nil_append]
  | cons field rest =>
      rw [write, List.map_cons, separated_writeFields, writeField, List.append_assoc,
        List.cons_append]

theorem canonicalField_onField {image : Value → Value} {field : String × Value}
    (h : field.2.canonical = (image field.2).write) :
    canonicalField (onField canonical field) = writeField (onField image field) := by
  rw [canonicalField, onField, writeField, onField, quote_eq_writeString, h]

/-- The canonical text is the compact text of the value with its fields reordered. -/
theorem canonical_eq_write (value : Value) : value.canonical = value.reordered.write := by
  induction value with
  | null | int _ | decimal _ | unpaired => rw [canonical, reordered, write] <;> simp
  | bool value => cases value <;> rw [canonical, reordered, write] <;> simp
  | string text => rw [canonical, reordered, write, quote_eq_writeString] <;> simp
  | array items ih =>
      rw [canonical, reordered, write_array, canonicalItems_eq_map, reorderedItems_eq_map,
        List.map_map]
      rw [List.map_congr_left ih]
      rfl
  | object fields ih =>
      rw [canonical, reordered, write_object, canonicalFields_eq_map, reorderedFields_eq_map,
        ← map_inUnitOrder, ← map_inUnitOrder, List.map_map, List.map_map]
      congr 3
      apply List.map_congr_left
      intro field hField
      have hMember : field ∈ fields := (List.mem_insertionSort _).mp hField
      exact canonicalField_onField (ih field hMember)

/-- Of two names in ascending order, the units ascend as well exactly when the names
do not cross. -/
theorem unitsLe_iff {α : Type} {first second : String × α} (h : first.1 < second.1) :
    unitsLe first second ↔ Utf16.crossed first.1.toList second.1.toList = false := by
  have hLt : first.1.toList < second.1.toList := String.lt_iff_toList_lt.mp h
  have hBefore := Utf16.encode_lt_encode_iff first.1.toList second.1.toList
  have hAfter := Utf16.encode_lt_encode_iff second.1.toList first.1.toList
  rw [Utf16.crossed_comm] at hAfter
  constructor
  · intro hUnits
    by_contra hCrossed
    rw [if_pos (Bool.not_eq_false _ ▸ hCrossed)] at hAfter
    exact absurd (hAfter.mpr hLt) (not_lt.mpr hUnits)
  · intro hCrossed
    rw [hCrossed, if_neg Bool.false_ne_true] at hBefore
    exact (hBefore.mpr hLt).le

/-- Fields that already ascend by their units are left as they are, and no others. -/
theorem inUnitOrder_eq_self {α : Type} {fields : List (String × α)} :
    inUnitOrder fields = fields ↔ fields.Pairwise unitsLe := by
  constructor
  · intro h
    rw [← h]
    exact List.pairwise_insertionSort _ _
  · intro h
    exact h.insertionSort_eq

theorem pairwise_unitsLe_iff {α : Type} {fields : List (String × α)}
    (hSorted : SortedMap.Sorted fields) :
    fields.Pairwise unitsLe ↔ ∀ first ∈ fields, ∀ second ∈ fields,
      Utf16.crossed first.1.toList second.1.toList = false := by
  constructor
  · intro h
    have hUncrossed : fields.Pairwise fun first second =>
        Utf16.crossed first.1.toList second.1.toList = false :=
      (h.and hSorted).imp fun hBoth => (unitsLe_iff hBoth.2).mp hBoth.1
    have hFlipped : fields.Pairwise fun first second =>
        Utf16.crossed second.1.toList first.1.toList = false :=
      hUncrossed.imp fun hPair => (Utf16.crossed_comm _ _).trans hPair
    intro first hFirst second hSecond
    exact List.Pairwise.forall_of_forall_of_flip (fun field _ => Utf16.crossed_self field.1.toList)
      hUncrossed hFlipped hFirst hSecond
  · intro h
    apply List.Pairwise.imp_of_mem _ hSorted
    intro first second hFirst hSecond hLt
    exact (unitsLe_iff hLt).mpr (h first hFirst second hSecond)

theorem map_eq_self {α : Type} {image : α → α} {items : List α} :
    items.map image = items ↔ ∀ item ∈ items, image item = item := by
  have h := List.map_inj_left (l := items) (f := image) (g := id)
  rwa [List.map_id] at h

/-- A value with ascending fields is left as it is if and only if no names cross, at
any depth. -/
theorem reordered_eq_self {value : Value} (h : value.Normal) :
    value.reordered = value ↔ value.Uncrossed := by
  induction h with
  | null | bool | int | decimal | string =>
      constructor
      · intro _
        constructor
      · intro _
        rw [reordered] <;> simp
  | @array items _ ih =>
      rw [reordered, reorderedItems_eq_map, Value.array.injEq]
      constructor
      · intro hItems
        apply Uncrossed.array
        intro item hItem
        have hSame := map_eq_self.mp hItems
        exact (ih item hItem).mp (hSame item hItem)
      · intro hUncrossed
        cases hUncrossed with
        | array hMembers =>
            apply map_eq_self.mpr
            intro item hItem
            exact (ih item hItem).mpr (hMembers item hItem)
  | @object fields hSorted _ ih =>
      rw [reordered, reorderedFields_eq_map, Value.object.injEq]
      constructor
      · intro hFields
        have hUnits : fields.Pairwise unitsLe := by
          rw [← hFields]
          exact List.pairwise_insertionSort _ _
        have hSame : (fields.map (onField reordered)).Pairwise unitsLe := List.pairwise_map.mpr hUnits
        rw [inUnitOrder_eq_self.mpr hSame] at hFields
        apply Uncrossed.object ((pairwise_unitsLe_iff hSorted).mp hUnits)
        intro field hField
        have hMember := map_eq_self.mp hFields field hField
        exact (ih field hField).mp (congrArg Prod.snd hMember)
      · intro hUncrossed
        cases hUncrossed with
        | object hNames hMembers =>
            have hFields : fields.map (onField reordered) = fields := by
              apply map_eq_self.mpr
              intro field hField
              exact Prod.ext rfl ((ih field hField).mpr (hMembers field hField))
            rw [hFields]
            exact inUnitOrder_eq_self.mpr ((pairwise_unitsLe_iff hSorted).mpr hNames)

theorem Plain.reordered {value : Value} (h : value.Plain) : value.reordered.Plain := by
  induction h with
  | null | bool | int | string =>
      rw [Value.reordered] <;> first | constructor | simp
  | array _ ih =>
      rw [Value.reordered, reorderedItems_eq_map]
      exact .array (List.forall_mem_map.mpr ih)
  | object _ ih =>
      rw [Value.reordered, reorderedFields_eq_map]
      apply Plain.object
      intro field hField
      obtain ⟨source, hSource, rfl⟩ := List.mem_map.mp ((List.mem_insertionSort _).mp hField)
      exact ih source hSource

/-- The canonical text is the compact text if and only if no names cross. So a writer
that sorts by code points writes the canonical text of exactly these values. -/
theorem canonical_eq_write_iff {value : Value} (hNormal : value.Normal) (hPlain : value.Plain) :
    value.canonical = value.write ↔ value.Uncrossed := by
  rw [canonical_eq_write, ← reordered_eq_self hNormal]
  constructor
  · exact write_injective hPlain.reordered hPlain
  · intro h
    rw [h]

end Value

end Json
