import Mathlib.Data.String.Basic
import Tfws.Data.SortedMap
import Tfws.Json.Text

/-! JSON values, their compact text and a reader for any text. What the writer
has written is read back as the same value. -/
namespace Json

/-- A value as it stands in a text: numbers with a fraction or an exponent keep
their text, an object keeps its fields in order, with all repetitions, and
`unpaired` is a string with half a surrogate pair, or an object with such a
name. -/
inductive Value where
  | null
  | bool (value : Bool)
  | int (value : Int)
  | decimal (text : String)
  | string (text : String)
  | unpaired
  | array (items : List Value)
  | object (fields : List (String × Value))

namespace Value

section Induction

variable {motive : Value → Prop} (null : motive .null) (bool : ∀ value, motive (.bool value))
  (int : ∀ value, motive (.int value)) (decimal : ∀ text, motive (.decimal text))
  (string : ∀ text, motive (.string text)) (unpaired : motive .unpaired)
  (array : ∀ items, (∀ item ∈ items, motive item) → motive (.array items))
  (object : ∀ fields, (∀ field ∈ fields, motive field.2) → motive (.object fields))

include null bool int decimal string unpaired array object
set_option linter.unusedSectionVars false

mutual
private theorem induct_jsonValue : ∀ value : Value, motive value
  | .null => null
  | .bool value => bool value
  | .int value => int value
  | .decimal text => decimal text
  | .string text => string text
  | .unpaired => unpaired
  | .array items => array items (induct_jsonItems items)
  | .object fields => object fields (induct_jsonFields fields)

private theorem induct_jsonItems : ∀ items : List Value, ∀ item ∈ items, motive item
  | [] => fun _ hMem => nomatch hMem
  | first :: rest => List.forall_mem_cons.mpr ⟨induct_jsonValue first, induct_jsonItems rest⟩

private theorem induct_jsonFields :
    ∀ fields : List (String × Value), ∀ field ∈ fields, motive field.2
  | [] => fun _ hMem => nomatch hMem
  | (_, value) :: rest => List.forall_mem_cons.mpr ⟨induct_jsonValue value, induct_jsonFields rest⟩
end

/-- Induction over nested values: every member of an array and every field of an
object satisfies the claim. -/
@[induction_eliminator]
theorem induct (value : Value) : motive value :=
  induct_jsonValue null bool int decimal string unpaired array object value

end Induction

mutual
/-- The text without white space, fields in the order in which they are listed. -/
def write : Value → List Char
  | .null => ['n', 'u', 'l', 'l']
  | .bool true => ['t', 'r', 'u', 'e']
  | .bool false => ['f', 'a', 'l', 's', 'e']
  | .int value => writeInt value
  | .decimal text => text.toList
  | .string text => writeString text
  | .unpaired => []
  | .array [] => ['[', ']']
  | .array (item :: rest) => '[' :: (write item ++ writeItems rest)
  | .object [] => ['{', '}']
  | .object ((name, value) :: rest) =>
      '{' :: (writeString name ++ ':' :: (write value ++ writeFields rest))

/-- The further members of an array, each behind a comma, and its end. -/
def writeItems : List Value → List Char
  | [] => [']']
  | item :: rest => ',' :: (write item ++ writeItems rest)

/-- The further fields of an object, each behind a comma, and its end. -/
def writeFields : List (String × Value) → List Char
  | [] => ['}']
  | (name, value) :: rest =>
      ',' :: (writeString name ++ ':' :: (write value ++ writeFields rest))
end

/-- A string that was read, or the mark for one with half a surrogate pair. -/
def ofString : Option String → Value
  | some text => .string text
  | none => .unpaired

/-- A number that was read, as an integer or by its text. -/
def ofNumber : Number → Value
  | .int value => .int value
  | .decimal text => .decimal text

/-- An object, if all its names are texts. A name with an unpaired surrogate is
none. -/
def ofFields (fields : List (Option String × Value)) : Value :=
  match fields.mapM fun field => field.1.map fun name => (name, field.2) with
  | some fields => .object fields
  | none => .unpaired

/-- The names of values, and of the numbers that are none. -/
def literals : List (List Char × Value) :=
  [(['n', 'u', 'l', 'l'], .null), (['t', 'r', 'u', 'e'], .bool true),
    (['f', 'a', 'l', 's', 'e'], .bool false), (['N', 'a', 'N'], .decimal "NaN"),
    (['I', 'n', 'f', 'i', 'n', 'i', 't', 'y'], .decimal "Infinity"),
    (['-', 'I', 'n', 'f', 'i', 'n', 'i', 't', 'y'], .decimal "-Infinity")]

/-- What follows a given text, if it comes first, as for the names of values. -/
def keyword : List Char → List Char → Option (List Char)
  | [], input => some input
  | c :: rest, input => (token c input).bind (keyword rest)

/-- One of the names of values, the first that the text begins with. -/
def scanLiteral (input : List Char) : Option (Value × List Char) :=
  literals.findSome? fun entry => (keyword entry.1 input).map fun rest => (entry.2, rest)

/-- A value that is no string, array or object: a name, or a number. -/
def scanScalar (input : List Char) : Option (Value × List Char) :=
  match scanLiteral input with
  | some scanned => some scanned
  | none => (scanNumber input).map fun scanned => (ofNumber scanned.1, scanned.2)

mutual
/-- A value that comes first, and what follows it. Every level of nesting and
every member uses up some of the fuel. -/
def parseValue : Nat → List Char → Option (Value × List Char)
  | 0, _ => none
  | fuel + 1, input =>
      match token '"' input, token '[' input, token '{' input with
      | some rest, _, _ => (scanString rest).map fun scanned => (ofString scanned.1, scanned.2)
      | none, some rest, _ =>
          match token ']' (skipSpaces rest) with
          | some rest => some (.array [], rest)
          | none => (parseItems fuel (skipSpaces rest)).map fun parsed => (.array parsed.1, parsed.2)
      | none, none, some rest =>
          match token '}' (skipSpaces rest) with
          | some rest => some (.object [], rest)
          | none => (parseFields fuel (skipSpaces rest)).map fun parsed => (ofFields parsed.1, parsed.2)
      | none, none, none => scanScalar input

/-- The members of an array up to its end, of which there is at least one. -/
def parseItems : Nat → List Char → Option (List Value × List Char)
  | 0, _ => none
  | fuel + 1, input => do
      let (item, rest) ← parseValue fuel input
      match token ',' (skipSpaces rest) with
      | some rest => do
          let (items, rest) ← parseItems fuel (skipSpaces rest)
          some (item :: items, rest)
      | none => do
          let rest ← token ']' (skipSpaces rest)
          some ([item], rest)

/-- The fields of an object up to its end, of which there is at least one. -/
def parseFields : Nat → List Char → Option (List (Option String × Value) × List Char)
  | 0, _ => none
  | fuel + 1, input => do
      let (name, rest) ← scanString (← token '"' input)
      let rest ← token ':' (skipSpaces rest)
      let (value, rest) ← parseValue fuel (skipSpaces rest)
      match token ',' (skipSpaces rest) with
      | some rest => do
          let (fields, rest) ← parseFields fuel (skipSpaces rest)
          some ((name, value) :: fields, rest)
      | none => do
          let rest ← token '}' (skipSpaces rest)
          some ([(name, value)], rest)
end

/-- A text that is one value between white space. A nested value is two levels
deeper and at least one character further on. -/
def parse (input : List Char) : Option Value := do
  let (value, rest) ← parseValue (2 * input.length + 1) (skipSpaces input)
  if skipSpaces rest = [] then some value else none

/-- Nothing in the value is a decimal or an unpaired surrogate. -/
inductive Plain : Value → Prop where
  | null : Plain .null
  | bool {value : Bool} : Plain (.bool value)
  | int {value : Int} : Plain (.int value)
  | string {text : String} : Plain (.string text)
  | array {items : List Value} (members : ∀ item ∈ items, Plain item) : Plain (.array items)
  | object {fields : List (String × Value)} (members : ∀ field ∈ fields, Plain field.2) :
      Plain (.object fields)

/-- Objects are maps in the order of their names at every level, as a reader leaves
them that sorts the fields and lets the last of repeated ones count; no surrogate
is unpaired. -/
inductive Normal : Value → Prop where
  | null : Normal .null
  | bool {value : Bool} : Normal (.bool value)
  | int {value : Int} : Normal (.int value)
  | decimal {text : String} : Normal (.decimal text)
  | string {text : String} : Normal (.string text)
  | array {items : List Value} (members : ∀ item ∈ items, Normal item) : Normal (.array items)
  | object {fields : List (String × Value)} (sorted : SortedMap.Sorted fields)
      (members : ∀ field ∈ fields, Normal field.2) : Normal (.object fields)

/-- The characters that a written value starts with. None of them is white space. -/
def Starts (c : Char) : Prop := c.isDigit = true ∨ c ∈ ['n', 't', 'f', '"', '[', '{', '-']

theorem Starts.not_space {c : Char} (h : Starts c) : isSpace c = false := by
  rw [isSpace]
  simp only [Bool.or_eq_false_iff, decide_eq_false_iff_not]
  refine ⟨⟨⟨?_, ?_⟩, ?_⟩, ?_⟩ <;> intro hSame <;> subst hSame <;> revert h <;> unfold Starts <;>
    decide

theorem Starts.ne_close {c : Char} (h : Starts c) : c ≠ ']' := by
  intro hSame
  subst hSame
  revert h
  unfold Starts
  decide

theorem writeInt_eq_cons (value : Int) :
    ∃ c rest, writeInt value = c :: rest ∧ Starts c := by
  unfold writeInt
  split_ifs
  · exact ⟨'-', _, rfl, Or.inr (by decide)⟩
  · obtain ⟨first, rest, hDigits⟩ := List.exists_cons_of_ne_nil
      (show Nat.toDigits 10 value.natAbs ≠ [] from Nat.toDigits_ne_nil)
    exact ⟨first, rest, hDigits, Or.inl (Nat.isDigit_of_mem_toDigits (by decide) (by decide)
      (hDigits ▸ List.mem_cons_self))⟩

/-- A written value is not empty and starts with no white space. -/
theorem Plain.write_eq_cons {value : Value} (h : Plain value) :
    ∃ c rest, write value = c :: rest ∧ Starts c := by
  cases h with
  | null => exact ⟨'n', _, by rw [write], Or.inr (by decide)⟩
  | bool =>
      rename_i value
      cases value with
      | false => exact ⟨'f', _, by rw [write], Or.inr (by decide)⟩
      | true => exact ⟨'t', _, by rw [write], Or.inr (by decide)⟩
  | int =>
      rw [write]
      exact writeInt_eq_cons _
  | string =>
      rw [write]
      exact ⟨'"', _, rfl, Or.inr (by decide)⟩
  | array =>
      rename_i items _
      cases items with
      | nil => exact ⟨'[', _, by rw [write], Or.inr (by decide)⟩
      | cons item rest => exact ⟨'[', _, by rw [write], Or.inr (by decide)⟩
  | object =>
      rename_i fields _
      cases fields with
      | nil => exact ⟨'{', _, by rw [write], Or.inr (by decide)⟩
      | cons field rest => exact ⟨'{', _, by rw [write], Or.inr (by decide)⟩

/-- The value is read back from its text, which must end where it does. -/
def ReadsBack (value : Value) : Prop :=
  ∀ fuel rest, (write value).length ≤ fuel → EndsNumber rest →
    parseValue fuel (write value ++ rest) = some (value, rest)

theorem endsNumber_cons {c : Char} (h : c ∈ [',', ']', '}', ':', '\n']) (rest : List Char) :
    EndsNumber (c :: rest) := by
  have hEnds : ∀ c ∈ [',', ']', '}', ':', '\n'],
      c.isDigit = false ∧ c ≠ '.' ∧ c ≠ 'e' ∧ c ≠ 'E' := by simp
  intro first hFirst
  obtain rfl := Option.some.inj hFirst
  exact hEnds c h

theorem keyword_of_ne {c first : Char} {rest input : List Char} (h : first ≠ c) :
    keyword (c :: rest) (first :: input) = none := by
  rw [keyword, token_cons_ne h, Option.bind_none]

/-- A scalar is read back as soon as its scanner reads it back. -/
theorem readsBack_scalar {value : Value} {first : Char} {rest : List Char}
    (hWrite : write value = first :: rest)
    (hFirst : first ≠ '"' ∧ first ≠ '[' ∧ first ≠ '{')
    (hScan : ∀ more, EndsNumber more → scanScalar (write value ++ more) = some (value, more)) :
    ReadsBack value := by
  intro fuel more hFuel hEnds
  obtain ⟨fuel, rfl⟩ : ∃ n, fuel = n + 1 := ⟨fuel - 1, by rw [hWrite] at hFuel; simp at hFuel; omega⟩
  obtain ⟨hQuote, hArray, hObject⟩ := hFirst
  have hInput : write value ++ more = first :: (rest ++ more) := by rw [hWrite, List.cons_append]
  rw [← hScan more hEnds, hInput, parseValue, token_cons_ne hQuote, token_cons_ne hArray,
    token_cons_ne hObject]

/-- There is no white space in front of a written value to skip. -/
theorem Plain.skipSpaces_write {value : Value} (h : Plain value) (rest : List Char) :
    skipSpaces (write value ++ rest) = write value ++ rest := by
  obtain ⟨c, others, hWrite, hStarts⟩ := h.write_eq_cons
  rw [hWrite, List.cons_append, skipSpaces_cons hStarts.not_space]

/-- Members are read back up to the end of their array. The fuel needed is the length
of the text. -/
theorem parseItems_write {rest : List Value} :
    ∀ {item : Value}, ReadsBack item → (∀ other ∈ rest, Plain other ∧ ReadsBack other) →
      ∀ fuel more, (write item ++ writeItems rest).length ≤ fuel →
        parseItems fuel (write item ++ (writeItems rest ++ more)) = some (item :: rest, more) := by
  induction rest with
  | nil =>
      intro item hItem _ fuel more hFuel
      rw [writeItems, List.length_append, List.length_singleton] at hFuel
      obtain ⟨fuel, rfl⟩ : ∃ n, fuel = n + 1 := ⟨fuel - 1, by omega⟩
      rw [writeItems, List.singleton_append, parseItems,
        hItem fuel _ (by omega) (endsNumber_cons (by decide) more)]
      rfl
  | cons next others ih =>
      intro item hItem hRest fuel more hFuel
      obtain ⟨⟨hPlain, hNext⟩, hOthers⟩ := List.forall_mem_cons.mp hRest
      simp only [writeItems, List.length_append, List.length_cons] at hFuel
      obtain ⟨fuel, rfl⟩ : ∃ n, fuel = n + 1 := ⟨fuel - 1, by omega⟩
      have hItems := ih hNext hOthers fuel more (by rw [List.length_append]; omega)
      rw [writeItems, List.cons_append, List.append_assoc, parseItems,
        hItem fuel _ (by omega) (endsNumber_cons (by decide) _)]
      simp only [Option.bind_eq_bind, Option.bind_some,
        skipSpaces_cons (show isSpace ',' = false from rfl), token_cons_self,
        hPlain.skipSpaces_write, hItems]

theorem scanString_write (name : String) (rest : List Char) :
    ∃ input, writeString name ++ rest = '"' :: input ∧ scanString input = some (some name, rest) :=
  scanString_writeString name rest

/-- Fields are read back up to the end of their object. The fuel needed is the length
of the text. -/
theorem parseFields_write {rest : List (String × Value)} :
    ∀ {name : String} {value : Value}, Plain value → ReadsBack value →
      (∀ field ∈ rest, Plain field.2 ∧ ReadsBack field.2) →
      ∀ fuel more, (writeString name ++ ':' :: (write value ++ writeFields rest)).length ≤ fuel →
        parseFields fuel (writeString name ++ ':' :: (write value ++ (writeFields rest ++ more))) =
          some (((name, value) :: rest).map fun field => (some field.1, field.2), more) := by
  induction rest with
  | nil =>
      intro name value hPlain hValue _ fuel more hFuel
      simp only [writeFields, List.length_append, List.length_cons, List.length_nil] at hFuel
      obtain ⟨fuel, rfl⟩ : ∃ n, fuel = n + 1 := ⟨fuel - 1, by omega⟩
      obtain ⟨input, hInput, hName⟩ :=
        scanString_write name (':' :: (write value ++ (writeFields [] ++ more)))
      rw [hInput, parseFields]
      simp only [token_cons_self, Option.bind_eq_bind, Option.bind_some, hName,
        skipSpaces_cons (show isSpace ':' = false from rfl), hPlain.skipSpaces_write]
      rw [writeFields, List.singleton_append,
        hValue fuel _ (by omega) (endsNumber_cons (by decide) more)]
      rfl
  | cons field others ih =>
      intro name value hPlain hValue hRest fuel more hFuel
      obtain ⟨next, nextValue⟩ := field
      obtain ⟨⟨hNextPlain, hNext⟩, hOthers⟩ := List.forall_mem_cons.mp hRest
      simp only [writeFields, List.length_append, List.length_cons] at hFuel
      obtain ⟨fuel, rfl⟩ : ∃ n, fuel = n + 1 := ⟨fuel - 1, by omega⟩
      have hFields : parseFields fuel (writeString next ++ ':' ::
          (write nextValue ++ (writeFields others ++ more))) = some _ :=
        ih hNextPlain hNext hOthers fuel more
          (by simp only [List.length_append, List.length_cons]; omega)
      obtain ⟨input, hInput, hName⟩ := scanString_write name (':' :: (write value ++
        (writeFields ((next, nextValue) :: others) ++ more)))
      have hNextName : skipSpaces (writeString next ++ ':' :: (write nextValue ++
          (writeFields others ++ more))) = writeString next ++ ':' :: (write nextValue ++
            (writeFields others ++ more)) :=
        skipSpaces_cons rfl _
      rw [hInput, parseFields]
      simp only [token_cons_self, Option.bind_eq_bind, Option.bind_some, hName,
        skipSpaces_cons (show isSpace ':' = false from rfl), hPlain.skipSpaces_write]
      rw [writeFields, List.cons_append, hValue fuel _ (by omega) (endsNumber_cons (by decide) _)]
      simp only [Option.bind_some, skipSpaces_cons (show isSpace ',' = false from rfl),
        token_cons_self, List.append_assoc, List.cons_append, hNextName, hFields]
      rfl

theorem ofFields_some (fields : List (String × Value)) :
    ofFields (fields.map fun field => (some field.1, field.2)) = .object fields := by
  have hFields : (fields.map fun field => (some field.1, field.2)).mapM
      (fun field : Option String × Value => field.1.map fun name => (name, field.2)) =
        some fields := by
    induction fields with
    | nil => rfl
    | cons field rest ih => rw [List.map_cons, List.mapM_cons, ih]; rfl
  rw [ofFields, hFields]

theorem ne_of_isDigit {c other : Char} (h : c.isDigit = true) (hOther : other.isDigit = false) :
    c ≠ other := by
  intro hSame
  rw [hSame, hOther] at h
  cases h

/-- No number starts like the name of a value, so that the order of the two attempts
does not matter. -/
theorem scanLiteral_digit {c : Char} (h : c.isDigit = true) (rest : List Char) :
    scanLiteral (c :: rest) = none := by
  have hName : ∀ first name, first.isDigit = false → keyword (first :: name) (c :: rest) = none :=
    fun _ _ hFirst => keyword_of_ne (ne_of_isDigit h hFirst)
  simp [scanLiteral, literals, hName]

theorem scanLiteral_minus {c : Char} (h : c.isDigit = true) (rest : List Char) :
    scanLiteral ('-' :: c :: rest) = none := by
  have hName : ∀ first name, '-' ≠ first → keyword (first :: name) ('-' :: c :: rest) = none :=
    fun _ _ hFirst => keyword_of_ne hFirst
  have hInfinity : ∀ name, keyword ('-' :: 'I' :: name) ('-' :: c :: rest) = none := by
    intro name
    rw [keyword, token_cons_self, Option.bind_some, keyword_of_ne (ne_of_isDigit h rfl)]
  simp [scanLiteral, literals, hName, hInfinity]

theorem scanLiteral_writeInt (value : Int) (rest : List Char) :
    scanLiteral (writeInt value ++ rest) = none := by
  obtain ⟨first, others, hDigits⟩ := List.exists_cons_of_ne_nil
    (show Nat.toDigits 10 value.natAbs ≠ [] from Nat.toDigits_ne_nil)
  have hDigit : first.isDigit = true := Nat.isDigit_of_mem_toDigits (by decide) (by decide)
    (hDigits ▸ List.mem_cons_self)
  unfold writeInt
  split_ifs
  · rw [hDigits]
    exact scanLiteral_minus hDigit _
  · rw [hDigits]
    exact scanLiteral_digit hDigit _

theorem readsBack_int (value : Int) : ReadsBack (.int value) := by
  obtain ⟨first, rest, hWrite, hStarts⟩ := writeInt_eq_cons value
  have hFirst : first ≠ '"' ∧ first ≠ '[' ∧ first ≠ '{' := by
    unfold writeInt at hWrite
    split_ifs at hWrite
    · obtain rfl := (List.cons.inj hWrite).1
      decide
    · have hDigit : first.isDigit = true := Nat.isDigit_of_mem_toDigits (by decide) (by decide)
        (hWrite ▸ List.mem_cons_self)
      exact ⟨ne_of_isDigit hDigit rfl, ne_of_isDigit hDigit rfl, ne_of_isDigit hDigit rfl⟩
  refine readsBack_scalar (by rw [write, hWrite]) hFirst fun more hEnds => ?_
  rw [write, scanScalar, scanLiteral_writeInt, scanNumber_writeInt value hEnds]
  rfl

theorem readsBack_string (text : String) : ReadsBack (.string text) := by
  intro fuel more hFuel _
  rw [write, writeString, List.length_cons] at hFuel
  obtain ⟨fuel, rfl⟩ : ∃ n, fuel = n + 1 := ⟨fuel - 1, by omega⟩
  obtain ⟨input, hInput, hText⟩ := scanString_write text more
  rw [write, hInput, parseValue, token_cons_self]
  simp only [hText]
  rfl

/-- An array is read back when its members are, by induction on them. -/
theorem readsBack_array {items : List Value} (h : ∀ item ∈ items, Plain item ∧ ReadsBack item) :
    ReadsBack (.array items) := by
  intro fuel more hFuel _
  cases items with
  | nil =>
      rw [write, List.length_cons] at hFuel
      obtain ⟨fuel, rfl⟩ : ∃ n, fuel = n + 1 := ⟨fuel - 1, by omega⟩
      rw [write]
      rfl
  | cons item rest =>
      obtain ⟨⟨hPlain, hItem⟩, hRest⟩ := List.forall_mem_cons.mp h
      rw [write, List.length_cons] at hFuel
      obtain ⟨fuel, rfl⟩ : ∃ n, fuel = n + 1 := ⟨fuel - 1, by omega⟩
      have hItems := parseItems_write hItem hRest fuel more (by omega)
      obtain ⟨c, others, hWrite, hStarts⟩ := hPlain.write_eq_cons
      have hClose : token ']' (write item ++ (writeItems rest ++ more)) = none := by
        rw [hWrite, List.cons_append, token_cons_ne hStarts.ne_close]
      rw [write, List.cons_append, List.append_assoc, parseValue, token_cons_ne (by decide),
        token_cons_self]
      simp only [hPlain.skipSpaces_write, hClose, hItems, Option.map_some]

/-- An object is read back when the values of its fields are. -/
theorem readsBack_object {fields : List (String × Value)}
    (h : ∀ field ∈ fields, Plain field.2 ∧ ReadsBack field.2) : ReadsBack (.object fields) := by
  intro fuel more hFuel _
  cases fields with
  | nil =>
      rw [write, List.length_cons] at hFuel
      obtain ⟨fuel, rfl⟩ : ∃ n, fuel = n + 1 := ⟨fuel - 1, by omega⟩
      rw [write]
      rfl
  | cons field rest =>
      obtain ⟨name, value⟩ := field
      obtain ⟨hFirst, hRest⟩ := List.forall_mem_cons.mp h
      have hPlain : Plain value := hFirst.1
      have hValue : ReadsBack value := hFirst.2
      rw [write, List.length_cons] at hFuel
      obtain ⟨fuel, rfl⟩ : ∃ n, fuel = n + 1 := ⟨fuel - 1, by omega⟩
      have hFields : parseFields fuel (writeString name ++ ':' ::
          (write value ++ (writeFields rest ++ more))) = some _ :=
        parseFields_write hPlain hValue hRest fuel more (by omega)
      have hSpaces (input : List Char) :
          skipSpaces (writeString name ++ input) = writeString name ++ input :=
        skipSpaces_cons rfl _
      have hClose (input : List Char) : token '}' (writeString name ++ input) = none :=
        token_cons_ne (by decide) _
      rw [write, List.cons_append, parseValue, token_cons_ne (by decide), token_cons_ne (by decide),
        token_cons_self]
      simp only [List.append_assoc, List.cons_append, hSpaces, hClose, hFields, Option.map_some,
        ofFields_some]

/-- Whatever stands behind the text of a value, unless it makes a number go on, the
value is read back and the rest is left. -/
theorem parseValue_write {value : Value} (h : Plain value) : ReadsBack value := by
  induction h with
  | null => exact readsBack_scalar (by rw [write]) (by decide) fun more _ => by rw [write]; rfl
  | bool =>
      rename_i value
      cases value with
      | false => exact readsBack_scalar (by rw [write]) (by decide) fun more _ => by rw [write]; rfl
      | true => exact readsBack_scalar (by rw [write]) (by decide) fun more _ => by rw [write]; rfl
  | int => exact readsBack_int _
  | string => exact readsBack_string _
  | array members ih => exact readsBack_array fun item hMem => ⟨members item hMem, ih item hMem⟩
  | object members ih => exact readsBack_object fun field hMem => ⟨members field hMem, ih field hMem⟩

theorem skipSpaces_append {spaces : List Char} (h : ∀ c ∈ spaces, isSpace c = true)
    (rest : List Char) : skipSpaces (spaces ++ rest) = skipSpaces rest :=
  List.dropWhile_append_of_pos h

theorem endsNumber_spaces {spaces : List Char} (h : ∀ c ∈ spaces, isSpace c = true) :
    EndsNumber spaces := by
  intro c hFirst
  have hSpace := h c (List.mem_of_mem_head? hFirst)
  simp only [isSpace, Bool.or_eq_true, decide_eq_true_eq] at hSpace
  obtain ((rfl | rfl) | rfl) | rfl := hSpace <;> decide

/-- A value is read back from its text between white space: a file that ends in a line
end is one value all the same. -/
theorem parse_write {value : Value} (h : Plain value) {before after : List Char}
    (hBefore : ∀ c ∈ before, isSpace c = true) (hAfter : ∀ c ∈ after, isSpace c = true) :
    parse (before ++ (write value ++ after)) = some value := by
  have hParsed := parseValue_write h (2 * (before ++ (write value ++ after)).length + 1) after
    (by simp only [List.length_append]; omega) (endsNumber_spaces hAfter)
  have hEnd : skipSpaces after = [] := List.dropWhile_eq_nil_iff.mpr hAfter
  rw [parse, skipSpaces_append hBefore, h.skipSpaces_write, hParsed]
  simp only [Option.bind_eq_bind, Option.bind_some, hEnd, if_true]

/-- Plain values with the same text are the same, for the text is read back. -/
theorem write_injective {first second : Value} (hFirst : Plain first) (hSecond : Plain second)
    (h : write first = write second) : first = second := by
  have hNone : ∀ c ∈ ([] : List Char), isSpace c = true := List.forall_mem_nil _
  have hBoth := parse_write hFirst hNone hNone
  rw [h, parse_write hSecond hNone hNone] at hBoth
  exact (Option.some.inj hBoth).symm

end Value

end Json
