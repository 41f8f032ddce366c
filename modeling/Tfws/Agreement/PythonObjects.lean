import Tfws.Agreement.Demands

/-! The built-in operations of Python on the objects that stand for the values
of `tfws-core`. -/
namespace Tfws

open SerdeJson Fallible
open Python (Object Key Runtime)

variable {limits : CborLimits} {depth : Nat} {runtime : Runtime}

/-- In a document's dictionary, a name finds the object of the value that it has in
the document. -/
theorem getItem_ofEntries {entries : List (String × Value)} (h : SortedMap.Sorted entries)
    {name : String} {object : Object} :
    Object.getItem name (Object.ofEntries entries) = .ok object ↔
      ∃ value, SortedMap.lookup name entries = some value ∧ Object.ofValue value = object := by
  rw [Object.getItem, Object.get_ofEntries h]
  cases SortedMap.lookup name entries <;> simp

/-- The dictionary has exactly the keys if the document has exactly the fields, none
missing and none besides. -/
theorem hasKeys_ofEntries {entries : List (String × Value)} (h : SortedMap.Sorted entries)
    {names : List String} :
    Object.hasKeys names (Object.ofEntries entries) = true ↔
      (∀ entry ∈ entries, entry.1 ∈ names) ∧
        ∀ name ∈ names, ∃ value, SortedMap.lookup name entries = some value := by
  have hPresent {name : String} : Object.contains (.str name) (Object.ofEntries entries) = true ↔
      ∃ value, SortedMap.lookup name entries = some value := by
    rw [Object.contains_ofEntries]
    exact exists_congr fun value => ⟨h.lookup_of_mem, SortedMap.mem_of_lookup⟩
  rw [Object.hasKeys, Bool.and_eq_true, List.all_eq_true, List.all_eq_true]
  refine and_congr ?_ (forall₂_congr fun name _ => hPresent)
  rw [Object.ofEntries, List.forall_mem_map]
  simp [Object.ofField, (sortFields_perm entries).mem_iff]

theorem ofValue_eq_list {value : Value} {objects : List Object}
    (h : Object.ofValue value = .list objects) :
    ∃ items, value = .array items ∧ items.map Object.ofValue = objects := by
  cases value with
  | array items =>
      rw [Object.ofValue_array, Object.list.injEq] at h
      exact ⟨items, rfl, h⟩
  | number number => cases number <;> simp [Object.ofValue, Object.ofNumber] at h
  | _ => simp [Object.ofValue] at h

theorem ofValue_eq_dict {value : Value} {entries : List (Key × Object)}
    (h : Object.ofValue value = .dict entries) : ∃ root, value = .object root := by
  cases value with
  | object root => exact ⟨root, rfl⟩
  | number number => cases number <;> simp [Object.ofValue, Object.ofNumber] at h
  | _ => simp [Object.ofValue] at h

/-- A list of texts is one in the document, and nothing else passes for it. -/
theorem textList?_ofValue {value : Value} {texts : List String} :
    (Object.ofValue value).textList? = some texts ↔ value = stringsValue texts := by
  cases value with
  | array items =>
      rw [Object.ofValue_array, Object.textList?, texts_ofValue, stringsValue, Value.array.injEq]
  | number number =>
      cases number <;> simp [Object.ofValue, Object.ofNumber, Object.textList?, stringsValue]
  | _ => simp [Object.ofValue, Object.textList?, stringsValue]

theorem textOr_ofValue {error : Python.Exception} {value : Value} {text : String} :
    Python.textOr error (Object.ofValue value) = .ok text ↔ value = .string text := by
  cases value with
  | number number => cases number <;> simp [Object.ofValue, Object.ofNumber, Python.textOr]
  | _ => simp [Object.ofValue, Python.textOr]

/-- The hexadecimal check passes exactly for a text that the other implementation's
check passes. -/
theorem isLowerHex_ofValue {value : Value} {length : Nat} :
    Python.isLowerHex (Object.ofValue value) length = true ↔
      ∃ text, value = .string text ∧ isLowerHex text length = true := by
  cases value with
  | string text =>
      rw [Object.ofValue, isLowerHex_str]
      simp
  | number number => cases number <;> simp [Object.ofValue, Object.ofNumber, Python.isLowerHex]
  | _ => simp [Object.ofValue, Python.isLowerHex]

theorem isNonemptyText_ofValue {value : Value} :
    Python.isNonemptyText (Object.ofValue value) = true ↔
      ∃ text, value = .string text ∧ text ≠ "" := by
  cases value with
  | number number =>
      cases number <;> simp [Object.ofValue, Object.ofNumber, Python.isNonemptyText, Object.text?]
  | _ => simp [Object.ofValue, Python.isNonemptyText, Object.text?]

/-- Nothing but the text itself equals a text, which is what a comparison with a name
comes to. -/
theorem equal_string_iff {text : String} {value : Value} :
    (Object.ofValue (.string text)).equal (Object.ofValue value) = true ↔
      value = .string text := by
  cases value with
  | string other =>
      rw [equal_strings]
      simp [eq_comm]
  | number number =>
      cases number <;> simp [Object.ofValue, Object.ofNumber, Object.equal, Object.key?,
        Key.equal, Key.identity]
  | _ => simp [Object.ofValue, Object.equal, Object.key?, Key.equal, Key.identity]

theorem distinct_sublist (items : List Object) : (Object.distinct items).Sublist items := by
  induction items with
  | nil => exact List.Sublist.slnil
  | cons item rest ih => exact ((List.filter_sublist).trans ih).cons_cons item

theorem length_distinct_iff {items : List Object} :
    items.length = (Object.distinct items).length ↔ Object.distinct items = items :=
  ⟨fun h => (distinct_sublist items).eq_of_length h.symm, fun h => by rw [h]⟩

/-- A list is its own set exactly if no two of its members are equal for Python, truth
values and integers included. -/
theorem distinct_eq_iff {items : List Object} :
    Object.distinct items = items ↔
      items.Pairwise fun first second => first.equal second = false := by
  induction items with
  | nil => simp [Object.distinct]
  | cons item rest ih =>
      rw [Object.distinct, List.cons.injEq, List.pairwise_cons]
      constructor
      · rintro ⟨_, hFilter⟩
        have hAll : Object.distinct rest = rest := by
          refine (distinct_sublist rest).eq_of_length (le_antisymm (distinct_sublist rest).length_le ?_)
          calc
            rest.length = ((Object.distinct rest).filter fun other => !item.equal other).length := by
              rw [hFilter]
            _ ≤ (Object.distinct rest).length := List.length_filter_le ..
        rw [hAll, List.filter_eq_self] at hFilter
        exact ⟨fun other hMem => by simpa using hFilter other hMem, ih.mp hAll⟩
      · rintro ⟨hFresh, hRest⟩
        refine ⟨rfl, ?_⟩
        rw [ih.mpr hRest, List.filter_eq_self]
        exact fun other hMem => by simpa using hFresh other hMem

/-- A set can be made of a list exactly if all its members can be hashed. -/
theorem setOf_eq_ok {items set : List Object} :
    Object.setOf items = .ok set ↔ (∀ item ∈ items, item.hashable) ∧ Object.distinct items = set := by
  rw [Object.setOf]
  split_ifs with h
  · simpa [List.all_eq_true] using fun _ => List.all_eq_true.mp h
  · simpa [List.all_eq_true] using fun hAll => absurd (List.all_eq_true.mpr hAll) h

end Tfws
