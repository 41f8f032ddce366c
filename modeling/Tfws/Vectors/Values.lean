import Tfws.Cbor.KeyOrder
import Tfws.Data.Fallible

/-! The Python values that `generate_issue7_cbor_cose_vectors.py` handles. They
have the shape of data items: a `dict` is a map in insertion order, a `Tag` a
tag. Where a type is not checked first, the operation at hand decides. -/
namespace Tfws.Vectors

open Fallible Cbor

/-- What the script raises: a `VectorError` with its category, or an exception
of the language, whose text is left out. -/
inductive Failure where
  | vectorError (category message : String)
  | typeError
  | valueError
  | attributeError
  | indexError
  | keyError (name : String)
  | assertionError
  deriving DecidableEq, Repr

/-- What a function of the script returns or raises. -/
abbrev Result := Except Failure

/-- The entries of a `dict`, in insertion order. -/
abbrev Dict := List (Item × Item)

/-- The number of an integer; `True` is 1 and `False` is 0. -/
def integer? : Item → Option Int
  | .bool value => some (if value then 1 else 0)
  | .int value => some value
  | _ => none

/-- The text, where a value is one. -/
def text? : Item → Option String
  | .text text => some text
  | _ => none

/-- The octets, where a value is `bytes`. -/
def octets? : Item → Option Bytes
  | .bytes octets => some octets
  | _ => none

/-- The bits of a float, by which floats are told apart. -/
def bits? : Item → Option UInt64
  | .float bits => some bits
  | _ => none

mutual
/-- `==`. The order of a dictionary does not count. Floats, which have no
encoding, are told apart by their bits. -/
def equal : Item → Item → Bool
  | .null, other => match other with
      | .null => true
      | _ => false
  | .bool value, other => integer? other = some (if value then 1 else 0)
  | .int value, other => integer? other = some value
  | .float bits, other => bits? other = some bits
  | .text text, other => text? other = some text
  | .bytes octets, other => octets? other = some octets
  | .array items, other => match other with
      | .array others => equalItems items others
      | _ => false
  | .map entries, other => match other with
      | .map others => entries.length = others.length && equalEntries entries others
      | _ => false
  | .tag number value, other => match other with
      | .tag number' value' => number = number' && equal value value'
      | _ => false

def equalItems : List Item → List Item → Bool
  | [], others => others.isEmpty
  | item :: rest, others => match others with
      | [] => false
      | other :: others => equal item other && equalItems rest others

/-- Every entry of the first dictionary stands in the second one. -/
def equalEntries : Dict → Dict → Bool
  | [], _ => true
  | (key, value) :: rest, others =>
      (match others.find? fun entry => equal key entry.1 with
        | some entry => equal value entry.2
        | none => false) && equalEntries rest others
end

/-- Lists and dictionaries have no hash, nor has a tag around one. -/
def hashable : Item → Bool
  | .array _ | .map _ => false
  | .tag _ value => hashable value
  | _ => true

/-- `key in entries`, which raises for a key that has no hash. -/
def contains (key : Item) (entries : Dict) : Result Bool := do
  failIf (hashable key = false) .typeError
  .ok (entries.any fun entry => equal entry.1 key)

/-- `entries[name]` of a dictionary, if the name is there. -/
def lookup (name : Item) (entries : Dict) : Option Item :=
  (entries.find? fun entry => equal entry.1 name).map Prod.snd

/-- `value[name]`: a missing name is a `KeyError`, and a value that is no dictionary a
`TypeError`. -/
def subscript (value : Item) (name : String) : Result Item :=
  match value with
  | .map entries =>
      match lookup (.text name) entries with
      | some item => .ok item
      | none => .error (.keyError name)
  | _ => .error .typeError

/-- `len(value)`, which only containers, texts and octets have. -/
def length : Item → Result Nat
  | .array items => .ok items.length
  | .map entries => .ok entries.length
  | .text text => .ok text.toList.length
  | .bytes octets => .ok octets.length
  | _ => .error .typeError

/-- What a loop over the value goes through. -/
def iterate : Item → Result (List Item)
  | .array items => .ok items
  | .map entries => .ok (entries.map Prod.fst)
  | .text text => .ok (text.toList.map fun c => .text (String.singleton c))
  | .bytes octets => .ok (octets.map fun octet => .int octet.toNat)
  | _ => .error .typeError

/-- `value.encode("utf-8")`, a method of texts alone. -/
def encodeText : Item → Result Bytes
  | .text text => .ok (Utf8.encode text)
  | _ => .error .attributeError

/-- The value of a list of texts. -/
def texts (names : List String) : Item := .array (names.map Item.text)

/-- In every dictionary the keys have hashes and no two of them are equal. -/
inductive WellFormed : Item → Prop where
  | null : WellFormed .null
  | bool {value : Bool} : WellFormed (.bool value)
  | int {value : Int} : WellFormed (.int value)
  | float {bits : UInt64} : WellFormed (.float bits)
  | text {text : String} : WellFormed (.text text)
  | bytes {octets : Bytes} : WellFormed (.bytes octets)
  | array {items : List Item} (members : ∀ item ∈ items, WellFormed item) :
      WellFormed (.array items)
  | map {entries : Dict} (hashed : ∀ entry ∈ entries, hashable entry.1 = true)
      (distinct : entries.Pairwise fun first second => equal first.1 second.1 = false)
      (values : ∀ entry ∈ entries, WellFormed entry.2) : WellFormed (.map entries)
  | tag {number : Nat} {value : Item} (content : WellFormed value) :
      WellFormed (.tag number value)

variable {first second : Item} {key : Item} {entries : Dict} {name : String}

/-- What counts as an integer in a comparison: the integer itself, or the truth value
that equals it. -/
@[simp] theorem integer?_eq_some {value : Int} : integer? key = some value ↔
    key = .int value ∨ (key = .bool true ∧ value = 1) ∨ (key = .bool false ∧ value = 0) := by
  cases key <;> simp [integer?, eq_comm]
  rename_i flag
  cases flag <;> simp [eq_comm]

@[simp] theorem text?_eq_some {text : String} : text? key = some text ↔ key = .text text := by
  cases key <;> simp [text?]

/-- Only a text equals a text, so a name finds no other key. -/
@[simp] theorem equal_text : equal key (.text name) = true ↔ key = .text name := by
  cases key <;> simp [equal, integer?, text?, octets?, bits?, eq_comm]

@[simp] theorem equal_bytes {octets : Bytes} :
    equal key (.bytes octets) = true ↔ key = .bytes octets := by
  cases key <;> simp [equal, integer?, text?, octets?, bits?, eq_comm]

/-- On what has a hash, equality is symmetric; the order of the arguments in the
source does not matter there. -/
theorem equal_comm (hFirst : hashable first = true) :
    equal first second = equal second first := by
  induction first generalizing second with
  | array _ | map _ => cases hFirst
  | tag number value ih =>
      cases second with
      | tag number' value' => simp [equal, ih hFirst, eq_comm]
      | null | bool _ | int _ | float _ | text _ | bytes _ | array _ | map _ => rfl
  | null => cases second <;> rfl
  | bool value =>
      cases second <;> simp [equal, integer?, text?, octets?, bits?, eq_comm]
  | int value =>
      cases second <;> simp [equal, integer?, text?, octets?, bits?, eq_comm]
  | float bits => cases second <;> simp [equal, integer?, text?, octets?, bits?, eq_comm]
  | text value => cases second <;> simp [equal, integer?, text?, octets?, bits?, eq_comm]
  | bytes octets => cases second <;> simp [equal, integer?, text?, octets?, bits?, eq_comm]

/-- What has a hash equals itself. -/
theorem equal_self (h : hashable key = true) : equal key key = true := by
  induction key with
  | array _ | map _ => cases h
  | tag number value ih => simpa [equal] using ih h
  | null => rfl
  | bool value | int value | float bits | text value | bytes octets =>
      simp [equal, integer?, text?, octets?, bits?]

/-- What a lookup finds stands behind a key equal to the given one. -/
theorem lookup_eq_some {item : Item} (h : lookup key entries = some item) :
    ∃ entry ∈ entries, equal entry.1 key = true ∧ entry.2 = item := by
  obtain ⟨entry, hFind, rfl⟩ := Option.map_eq_some_iff.mp h
  have hKey := List.find?_some hFind
  exact ⟨entry, List.mem_of_find?_eq_some hFind, hKey, rfl⟩

/-- The entry of a name is the one listed under it, since a name equals no other
key. -/
theorem lookup_text {item : Item} (h : lookup (.text name) entries = some item) :
    (Item.text name, item) ∈ entries := by
  obtain ⟨⟨found, value⟩, hMem, hKey, rfl⟩ := lookup_eq_some h
  obtain rfl := equal_text.mp hKey
  exact hMem

/-- A subscript by a name succeeds exactly on a dictionary that has the name. -/
theorem subscript_eq_ok {value item : Item} : subscript value name = .ok item ↔
    ∃ entries, value = .map entries ∧ lookup (.text name) entries = some item := by
  cases value with
  | map entries =>
      simp only [subscript, Item.map.injEq, exists_eq_left']
      cases lookup (.text name) entries <;> simp
  | null | bool _ | int _ | float _ | text _ | bytes _ | array _ | tag _ _ => simp [subscript]

/-- What the test for membership returns, and when it does. -/
theorem contains_eq_ok {found : Bool} : contains key entries = .ok found ↔
    hashable key = true ∧ (entries.any fun entry => equal entry.1 key) = found := by
  rw [contains, then_eq_ok, failIf_eq_ok, Bool.not_eq_false, Except.ok.injEq]

end Tfws.Vectors
