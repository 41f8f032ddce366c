import Tfws.Vectors.Corpus
import Tfws.Vectors.SignVerify

/-! The mutations of a manifest that the negative vectors are made from. -/
namespace Tfws.Vectors

open Fallible Cbor Sorting

variable {manifest renamed first second entries : Dict} {key value digest : Item}
  {name field : String}

/-- An entry after an assignment is an old one, or holds the assigned value behind the
given key or behind an equal one that was there before: Python keeps the first key. -/
theorem mem_setItem {entry : Item × Item} (h : entry ∈ setItem key value entries) :
    entry ∈ entries ∨ (entry.2 = value ∧
      (entry.1 = key ∨ ∃ other ∈ entries, entry.1 = other.1)) := by
  induction entries with
  | nil =>
      obtain rfl := List.mem_singleton.mp h
      exact Or.inr ⟨rfl, Or.inl rfl⟩
  | cons other rest ih =>
      obtain ⟨here, old⟩ := other
      rw [setItem] at h
      split_ifs at h with hKey
      · obtain rfl | hRest := List.mem_cons.mp h
        · exact Or.inr ⟨rfl, Or.inr ⟨_, List.mem_cons_self, rfl⟩⟩
        · exact Or.inl (List.mem_cons_of_mem _ hRest)
      · obtain rfl | hRest := List.mem_cons.mp h
        · exact Or.inl List.mem_cons_self
        · obtain hOld | ⟨hValue, hSame | ⟨source, hSource, hName⟩⟩ := ih hRest
          · exact Or.inl (List.mem_cons_of_mem _ hOld)
          · exact Or.inr ⟨hValue, Or.inl hSame⟩
          · exact Or.inr ⟨hValue, Or.inr ⟨source, List.mem_cons_of_mem _ hSource, hName⟩⟩

/-- Keys that differ as Python compares them still do after an assignment. -/
theorem setItem_distinct
    (h : entries.Pairwise fun first second => equal first.1 second.1 = false) :
    (setItem key value entries).Pairwise fun first second => equal first.1 second.1 = false := by
  induction entries with
  | nil => exact List.pairwise_singleton _ _
  | cons other rest ih =>
      obtain ⟨here, old⟩ := other
      obtain ⟨hHere, hRest⟩ := List.pairwise_cons.mp h
      rw [setItem]
      split_ifs with hKey
      · exact List.pairwise_cons.mpr ⟨hHere, hRest⟩
      · apply List.pairwise_cons.mpr ⟨fun entry hMem => ?_, ih hRest⟩
        obtain hOld | ⟨-, hSame | ⟨source, hSource, hName⟩⟩ := mem_setItem hMem
        · exact hHere entry hOld
        · rw [hSame]
          exact Bool.not_eq_true _ ▸ hKey
        · rw [hName]
          exact hHere source hSource

/-- An assignment of a hashable key keeps a dictionary one that Python can build. -/
theorem WellFormed.setItem (h : WellFormed (.map entries)) (hKey : hashable key = true)
    (hValue : WellFormed value) : WellFormed (.map (setItem key value entries)) := by
  cases h with
  | map hHashed hDistinct hValues =>
      apply WellFormed.map
      case hashed =>
        intro entry hMem
        obtain hOld | ⟨-, hSame | ⟨source, hSource, hName⟩⟩ := mem_setItem hMem
        · exact hHashed entry hOld
        · rwa [hSame]
        · rw [hName]
          exact hHashed source hSource
      case distinct => exact setItem_distinct hDistinct
      case values =>
        intro entry hMem
        obtain hOld | ⟨hNew, -⟩ := mem_setItem hMem
        · exact hValues entry hOld
        · rwa [hNew]

theorem lookup_cons_self : lookup (.text name) ((.text name, value) :: entries) = some value := by
  have hHere : equal (.text name) (.text name) = true := equal_text.mpr rfl
  rw [lookup, List.find?_cons_of_pos (by exact hHere), Option.map_some]

theorem lookup_cons_of_ne {entry : Item × Item} (h : entry.1 ≠ .text name) :
    lookup (.text name) (entry :: entries) = lookup (.text name) entries := by
  have hHere : ¬equal entry.1 (.text name) = true := mt equal_text.mp h
  rw [lookup, List.find?_cons_of_neg (by exact hHere), lookup]

/-- What is found under a name after an assignment: the value under the assigned name,
and what was there before under every other one. -/
theorem lookup_setItem : lookup (.text name) (setItem (.text field) value entries) =
    if field = name then some value else lookup (.text name) entries := by
  induction entries with
  | nil =>
      rw [setItem]
      split_ifs with hName
      · rw [hName, lookup_cons_self]
      · exact lookup_cons_of_ne fun hEq => hName (Item.text.inj hEq)
  | cons other rest ih =>
      obtain ⟨here, old⟩ := other
      rw [setItem]
      split_ifs with hHere hName hName
      · obtain rfl := equal_text.mp hHere
        rw [hName, lookup_cons_self]
      · obtain rfl := equal_text.mp hHere
        have hNe : Item.text field ≠ .text name := fun hEq => hName (Item.text.inj hEq)
        rw [lookup_cons_of_ne hNe, lookup_cons_of_ne hNe]
      · subst hName
        rw [lookup_cons_of_ne (mt equal_text.mpr hHere), ih, if_pos rfl]
      · rw [if_neg hName] at ih
        by_cases hSame : here = .text name
        · rw [hSame, lookup_cons_self, lookup_cons_self]
        · rw [lookup_cons_of_ne hSame, lookup_cons_of_ne hSame, ih]

/-- The assigned name has the assigned value. -/
theorem lookup_setItem_self : lookup (.text name) (setItem (.text name) value entries) =
    some value := by
  rw [lookup_setItem, if_pos rfl]

/-- The other names keep what they had; every property that a mutation leaves alone
follows from this. -/
theorem lookup_setItem_of_ne (h : field ≠ name) :
    lookup (.text name) (setItem (.text field) value entries) = lookup (.text name) entries := by
  rw [lookup_setItem, if_neg h]

/-- The operator with the name that the negative vector gives it. -/
def renamedOperator (operator : Dict) : Item :=
  .map (setItem (.text "name") (.text "Example Organizatioo") operator)

/-- The renaming succeeds when the operator is a dictionary, and it changes nothing
else. -/
theorem renameOperator_eq_ok : renameOperator manifest = .ok renamed ↔
    ∃ operator, lookup (.text "operator") manifest = some (.map operator) ∧
      renamed = setItem (.text "operator") (renamedOperator operator) manifest := by
  simp only [renameOperator, bind_eq_ok, subscript_map]
  constructor
  · intro h
    obtain ⟨operator, hOperator, hRenamed⟩ := h
    cases operator with
    | map operator => exact ⟨operator, hOperator, (Except.ok.inj hRenamed).symm⟩
    | null | bool _ | int _ | float _ | text _ | bytes _ | array _ | tag _ _ => cases hRenamed
  · intro h
    obtain ⟨operator, hOperator, rfl⟩ := h
    exact ⟨_, hOperator, rfl⟩

/-- `validate_manifest` does not look at the operator, so a manifest with the frame it
checks keeps it. -/
theorem Framed.setOperator (h : Framed manifest first second) :
    Framed (setItem (.text "operator") value manifest) first second := by
  have hOther {name : String} (hName : "operator" ≠ name) :
      lookup (.text name) (setItem (.text "operator") value manifest) =
        lookup (.text name) manifest :=
    lookup_setItem_of_ne hName
  constructor
  · rw [hOther (by decide)]
    exact h.version
  · rw [hOther (by decide)]
    exact h.environment
  · rw [hOther (by decide)]
    exact h.policy
  · rw [hOther (by decide)]
    exact h.keys
  · exact h.firstName
  · exact h.secondName

/-- The renamed manifest is a value that Python can build. -/
theorem WellFormed.rename (hManifest : WellFormed (.map manifest))
    (h : renameOperator manifest = .ok renamed) : WellFormed (.map renamed) := by
  obtain ⟨operator, hOperator, rfl⟩ := renameOperator_eq_ok.mp h
  apply hManifest.setItem rfl
  exact (hManifest.lookup hOperator).setItem rfl .text

/-- The renamed manifest passes `validate_manifest` with the same descriptors. -/
theorem Admitted.rename (hAdmitted : Admitted manifest first second)
    (h : renameOperator manifest = .ok renamed) : Admitted renamed first second := by
  obtain ⟨operator, -, rfl⟩ := renameOperator_eq_ok.mp h
  exact ⟨hAdmitted.framed.setOperator, hAdmitted.first, hAdmitted.second⟩

/-- A manifest with another first descriptor, the second one as it was. -/
def withFirst (manifest first second : Dict) : Dict :=
  setItem (.text "keys") (.array [.map first, .map second]) manifest

/-- The mutation of the first descriptor, on a manifest that has two: it never fails
there. -/
theorem setFirstKey_eq (h : Admitted manifest first second) (name : String) (value : Item) :
    setFirstKey manifest name value =
      .ok (withFirst manifest (setItem (.text name) value first) second) := by
  rw [setFirstKey, subscript_map.mpr h.framed.keys]
  rfl

theorem wellFormed_withFirst (hManifest : WellFormed (.map manifest))
    (hFirst : WellFormed (.map first)) (hSecond : WellFormed (.map second)) :
    WellFormed (.map (withFirst manifest first second)) := by
  apply hManifest.setItem rfl
  apply WellFormed.array
  exact List.forall_mem_cons.mpr ⟨hFirst, List.forall_mem_singleton.mpr hSecond⟩

/-- Another first descriptor for the same algorithm keeps the frame; what it names is
not looked at here. -/
theorem Framed.withFirst {other : Dict} (h : Framed manifest first second)
    (hOther : lookup (.text "algorithm") other = some (.text "ed25519")) :
    Framed (withFirst manifest other second) other second := by
  have hField {name : String} (hName : "keys" ≠ name) :
      lookup (.text name) (Vectors.withFirst manifest other second) =
        lookup (.text name) manifest :=
    lookup_setItem_of_ne hName
  constructor
  · rw [hField (by decide)]
    exact h.version
  · rw [hField (by decide)]
    exact h.environment
  · rw [hField (by decide)]
    exact h.policy
  · exact lookup_setItem_self
  · exact hOther
  · exact h.secondName

end Tfws.Vectors
