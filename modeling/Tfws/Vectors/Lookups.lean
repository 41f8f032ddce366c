import Tfws.Vectors.RoundTrip

/-! Lookups by name in the dictionaries of the generator, and comparisons with
the constants of the script; neither minds the order of a dictionary. -/
namespace Tfws.Vectors

open Fallible Cbor Sorting

variable {value : Item} {entries : Dict} {name : String}

@[simp] theorem equal_of_text : equal (.text name) value = true ↔ value = .text name := by
  rw [equal, decide_eq_true_eq, text?_eq_some]

theorem equalItems_texts {names : List String} {items : List Item} :
    equalItems (names.map Item.text) items = true ↔ items = names.map Item.text := by
  induction names generalizing items with
  | nil => simp [equalItems]
  | cons name names ih =>
      cases items with
      | nil => simp [equalItems]
      | cons item items => simp [equalItems, ih]

theorem equalItems_to_texts {names : List String} {items : List Item} :
    equalItems items (names.map Item.text) = true ↔ items = names.map Item.text := by
  induction names generalizing items with
  | nil => cases items <;> simp [equalItems]
  | cons name names ih =>
      cases items with
      | nil => simp [equalItems]
      | cons item items => simp [equalItems, ih]

@[simp] theorem equal_of_texts {names : List String} :
    equal (texts names) value = true ↔ value = texts names := by
  cases value with
  | array items => simp [texts, equal, equalItems_texts]
  | null | bool _ | int _ | float _ | text _ | bytes _ | map _ | tag _ _ => simp [texts, equal]

@[simp] theorem equal_texts {names : List String} :
    equal value (texts names) = true ↔ value = texts names := by
  cases value with
  | array items => simp [texts, equal, equalItems_to_texts]
  | null | bool _ | int _ | float _ | text _ | bytes _ | map _ | tag _ _ =>
      simp [texts, equal, integer?, text?, octets?, bits?]

/-- The constants of the script below the level of dictionaries: texts, and lists of
texts. -/
inductive Constant : Item → Prop where
  | text (name : String) : Constant (.text name)
  | texts (names : List String) : Constant (texts names)

/-- A value equals a constant exactly if it is the constant: nothing in it equals
anything else. -/
theorem Constant.equal_iff {constant : Item} (h : Constant constant) :
    equal constant value = true ↔ value = constant := by
  cases h with
  | text name => exact equal_of_text
  | texts names => exact equal_of_texts

theorem Constant.sorted {constant : Item} (h : Constant constant) : sorted constant = constant := by
  cases h with
  | text name => rw [Vectors.sorted]
  | texts names =>
      rw [Vectors.texts, Vectors.sorted, sortedMembers_eq_map, List.map_map]
      congr 1

/-- A dictionary of constants under names, as the script writes them down. -/
def constants (fields : List (String × Item)) : Item :=
  .map (fields.map fun field => (.text field.1, field.2))

theorem find_of_text : entries.find? (fun entry => equal (.text name) entry.1) =
    entries.find? fun entry => equal entry.1 (.text name) := by
  congr 1
  funext entry
  rw [Bool.eq_iff_iff, equal_of_text, equal_text]

theorem equalEntries_constants {fields : List (String × Item)}
    (hFields : ∀ field ∈ fields, Constant field.2) :
    equalEntries (fields.map fun field => (.text field.1, field.2)) entries = true ↔
      ∀ field ∈ fields, lookup (.text field.1) entries = some field.2 := by
  induction fields with
  | nil => simp [equalEntries]
  | cons field fields ih =>
      obtain ⟨hField, hFields⟩ := List.forall_mem_cons.mp hFields
      rw [List.map_cons, equalEntries, Bool.and_eq_true, ih hFields, List.forall_mem_cons,
        find_of_text, lookup]
      cases entries.find? fun entry => equal entry.1 (.text field.1) with
      | none => simp
      | some found => simp [hField.equal_iff]

/-- A value equals a dictionary of constants when it has as many entries and holds
each of them. -/
theorem equal_constants {fields : List (String × Item)}
    (hFields : ∀ field ∈ fields, Constant field.2) :
    equal (constants fields) value = true ↔ ∃ entries, value = .map entries ∧
      entries.length = fields.length ∧
      ∀ field ∈ fields, lookup (.text field.1) entries = some field.2 := by
  rw [constants]
  cases value with
  | map entries =>
      rw [equal, Bool.and_eq_true, decide_eq_true_eq, equalEntries_constants hFields,
        List.length_map]
      simp [eq_comm]
  | null | bool _ | int _ | float _ | text _ | bytes _ | array _ | tag _ _ => simp [equal]

theorem WellFormed.lookup (h : WellFormed (.map entries))
    (hFound : lookup (.text name) entries = some value) : WellFormed value :=
  h.values _ (lookup_text hFound)

/-- Among distinct keys, the entry found under a name is the one listed there. -/
theorem lookup_eq_some_iff (h : entries.Pairwise KeysDiffer) :
    lookup (.text name) entries = some value ↔ (Item.text name, value) ∈ entries := by
  constructor
  · exact lookup_text
  · intro hMem
    have hFind : entries.find? (fun entry => equal (.text name) entry.1) =
        some (.text name, value) := by
      apply find_key hMem rfl
      intro other hOther hNe
      exact (h.forall hMem hOther (Ne.symm hNe)).1
    rw [lookup, ← find_of_text, hFind, Option.map_some]

/-- Sorting a dictionary does not move what is found under a name. -/
theorem lookup_sortedDict (h : WellFormed (.map entries)) :
    lookup (.text name) (sortedDict entries) = (lookup (.text name) entries).map sorted := by
  apply Option.ext
  intro value
  rw [lookup_eq_some_iff (sortedDict_distinct h), (sortedDict_perm h).mem_iff,
    Option.map_eq_some_iff]
  simp only [lookup_eq_some_iff h.distinct, List.mem_map, Prod.mk.injEq, Prod.exists]
  constructor
  · intro hMem
    obtain ⟨key, source, hIn, rfl, rfl⟩ := hMem
    exact ⟨source, hIn, rfl⟩
  · intro hMem
    obtain ⟨source, hIn, rfl⟩ := hMem
    exact ⟨_, source, hIn, rfl, rfl⟩

theorem length_sortedDict (h : WellFormed (.map entries)) :
    (sortedDict entries).length = entries.length := by
  rw [(sortedDict_perm h).length_eq, List.length_map]

/-- Sorting keeps equality with a dictionary of constants, since Python compares
dictionaries without regard to order. -/
theorem equal_constants_sorted {fields : List (String × Item)}
    (hFields : ∀ field ∈ fields, Constant field.2) (hValue : WellFormed value)
    (h : equal (constants fields) value = true) : equal (constants fields) (sorted value) = true := by
  obtain ⟨entries, rfl, hLength, hLookups⟩ := (equal_constants hFields).mp h
  rw [sorted_map]
  apply (equal_constants hFields).mpr
  refine ⟨_, rfl, by rw [length_sortedDict hValue, hLength], fun field hMem => ?_⟩
  rw [lookup_sortedDict hValue, hLookups field hMem, Option.map_some, (hFields field hMem).sorted]

end Tfws.Vectors
