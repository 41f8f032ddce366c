import Mathlib.Data.List.Sort

/-! Association lists kept in strictly ascending key order, with the insertion,
removal and lookup of an ordered map. Two of them are equal as soon as they
have the same entries, whatever order the entries arrived in. -/
namespace SortedMap

variable {κ α : Type*} [LinearOrder κ]

/-- Keys strictly ascend, so no key occurs twice, and a map has one list. -/
def Sorted (entries : List (κ × α)) : Prop :=
  entries.Pairwise fun first second => first.1 < second.1

instance (entries : List (κ × α)) : Decidable (Sorted entries) :=
  inferInstanceAs (Decidable (entries.Pairwise _))

/-- Put `value` at `key`, replacing what was there, and keep the order. -/
def insert (key : κ) (value : α) : List (κ × α) → List (κ × α)
  | [] => [(key, value)]
  | (here, old) :: rest =>
      if key < here then (key, value) :: (here, old) :: rest
      else if key = here then (key, value) :: rest
      else (here, old) :: insert key value rest

/-- The map without a key. Where the key has no entry, nothing changes. -/
def erase (key : κ) (entries : List (κ × α)) : List (κ × α) :=
  entries.filter fun entry => entry.1 ≠ key

/-- The value that stands under a key, which in a list with repetitions is that of the
first entry. -/
def lookup (key : κ) (entries : List (κ × α)) : Option α :=
  (entries.find? fun entry => entry.1 = key).map Prod.snd

/-- Insert the entries of a list one after the other, so that a later one wins. -/
def insertAll (start entries : List (κ × α)) : List (κ × α) :=
  entries.foldl (fun map entry => insert entry.1 entry.2 map) start

theorem mem_insert {key : κ} {value : α} {entries : List (κ × α)} {entry : κ × α}
    (h : entry ∈ insert key value entries) : entry = (key, value) ∨ entry ∈ entries := by
  induction entries with
  | nil => simpa [insert] using h
  | cons head rest ih =>
      obtain ⟨here, old⟩ := head
      simp only [insert] at h
      split_ifs at h with hLt hEq
      · simpa using h
      · rcases List.mem_cons.mp h with rfl | hRest
        · exact Or.inl rfl
        · exact Or.inr (List.mem_cons_of_mem _ hRest)
      · rcases List.mem_cons.mp h with rfl | hRest
        · exact Or.inr (List.mem_cons_self ..)
        · exact (ih hRest).imp id (List.mem_cons_of_mem _)

theorem mem_insertAll {start entries : List (κ × α)} {entry : κ × α}
    (h : entry ∈ insertAll start entries) : entry ∈ start ∨ entry ∈ entries := by
  induction entries generalizing start with
  | nil => exact Or.inl h
  | cons head rest ih =>
      rcases ih h with hStart | hRest
      · rcases mem_insert hStart with rfl | hStart
        · exact Or.inr (List.mem_cons_self ..)
        · exact Or.inl hStart
      · exact Or.inr (List.mem_cons_of_mem _ hRest)

theorem length_insert_le (key : κ) (value : α) (entries : List (κ × α)) :
    (insert key value entries).length ≤ entries.length + 1 := by
  induction entries with
  | nil => simp [insert]
  | cons head rest ih =>
      simp only [insert]
      split_ifs <;> simp [ih]

/-- Insertion keeps the order, also where the key was there before and its value is
replaced. -/
theorem Sorted.insert {entries : List (κ × α)} (h : Sorted entries) (key : κ) (value : α) :
    Sorted (insert key value entries) := by
  induction entries with
  | nil => simp [SortedMap.insert, Sorted]
  | cons head rest ih =>
      obtain ⟨here, old⟩ := head
      obtain ⟨hHead, hRest⟩ := List.pairwise_cons.mp h
      simp only [SortedMap.insert]
      split_ifs with hLt hEq
      · refine List.pairwise_cons.mpr ⟨fun entry hMem => ?_, h⟩
        rcases List.mem_cons.mp hMem with rfl | hMem
        · exact hLt
        · exact hLt.trans (hHead entry hMem)
      · subst hEq
        exact List.pairwise_cons.mpr ⟨hHead, hRest⟩
      · refine List.pairwise_cons.mpr ⟨fun entry hMem => ?_, ih hRest⟩
        rcases mem_insert hMem with rfl | hMem
        · exact lt_of_le_of_ne (not_lt.mp hLt) (Ne.symm hEq)
        · exact hHead entry hMem

/-- So does the insertion of any list of entries, repetitions among them included. -/
theorem Sorted.insertAll {start : List (κ × α)} (h : Sorted start) (entries : List (κ × α)) :
    Sorted (insertAll start entries) := by
  induction entries generalizing start with
  | nil => exact h
  | cons entry rest ih => exact ih (h.insert entry.1 entry.2)

theorem Sorted.erase {entries : List (κ × α)} (h : Sorted entries) (key : κ) :
    Sorted (erase key entries) :=
  List.Pairwise.filter _ h

/-- A fresh key only adds its own entry: nothing that was there is lost. -/
theorem insert_perm {key : κ} (value : α) {entries : List (κ × α)}
    (h : ∀ entry ∈ entries, entry.1 ≠ key) :
    (insert key value entries).Perm ((key, value) :: entries) := by
  induction entries with
  | nil => exact List.Perm.refl _
  | cons head rest ih =>
      obtain ⟨here, old⟩ := head
      simp only [insert]
      split_ifs with hLt hEq
      · exact List.Perm.refl _
      · exact absurd hEq.symm (h _ (List.mem_cons_self ..))
      · have hRest := ih fun entry hMem => h entry (List.mem_cons_of_mem _ hMem)
        exact (hRest.cons _).trans (List.Perm.swap ..)

/-- Inserting pairwise distinct fresh keys adds exactly the given entries, in an order
of their own. -/
theorem insertAll_perm {start entries : List (κ × α)}
    (hDistinct : entries.Pairwise fun first second => first.1 ≠ second.1)
    (hFresh : ∀ entry ∈ entries, ∀ old ∈ start, old.1 ≠ entry.1) :
    (insertAll start entries).Perm (entries ++ start) := by
  induction entries generalizing start with
  | nil => exact List.Perm.refl _
  | cons head rest ih =>
      obtain ⟨hHead, hRest⟩ := List.pairwise_cons.mp hDistinct
      have hStart := insert_perm head.2 (hFresh head (List.mem_cons_self ..))
      have hTail : ∀ entry ∈ rest, ∀ old ∈ insert head.1 head.2 start, old.1 ≠ entry.1 := by
        intro entry hEntry old hOld
        rcases mem_insert hOld with rfl | hOld
        · exact hHead entry hEntry
        · exact hFresh entry (List.mem_cons_of_mem _ hEntry) old hOld
      calc
        (insertAll (insert head.1 head.2 start) rest).Perm
            (rest ++ insert head.1 head.2 start) := ih hRest hTail
        _ |>.Perm (rest ++ head :: start) := hStart.append_left rest
        _ |>.Perm (head :: rest ++ start) := List.perm_middle

/-- Two sorted maps with the same entries are the same list. -/
theorem Sorted.eq_of_perm {first second : List (κ × α)} (hFirst : Sorted first)
    (hSecond : Sorted second) (h : first.Perm second) : first = second :=
  h.eq_of_pairwise (fun _ _ _ _ hLt hGt => absurd (hLt.trans hGt) (lt_irrefl _)) hFirst hSecond

/-- An ordered map is rebuilt from any ordering of its own entries, which is why the
order on the wire cannot matter. -/
theorem Sorted.insertAll_nil_eq {entries shuffled : List (κ × α)} (h : Sorted entries)
    (hPerm : shuffled.Perm entries) : SortedMap.insertAll [] shuffled = entries := by
  have hDistinct : shuffled.Pairwise fun first second => first.1 ≠ second.1 :=
    (hPerm.pairwise_iff fun hNe => Ne.symm hNe).mpr (h.imp fun hLt => ne_of_lt hLt)
  have hFresh : ∀ entry ∈ shuffled, ∀ old ∈ ([] : List (κ × α)), old.1 ≠ entry.1 := by simp
  have hAll := insertAll_perm hDistinct hFresh
  have hEmpty : Sorted ([] : List (κ × α)) := List.Pairwise.nil
  refine (hEmpty.insertAll shuffled).eq_of_perm h ?_
  simpa using hAll.trans (by simpa using hPerm)

@[simp] theorem lookup_nil (key : κ) : lookup key ([] : List (κ × α)) = none := rfl

theorem lookup_cons (key : κ) (entry : κ × α) (rest : List (κ × α)) :
    lookup key (entry :: rest) = if entry.1 = key then some entry.2 else lookup key rest := by
  unfold lookup
  by_cases h : entry.1 = key <;> simp [h]

theorem lookup_insert (key other : κ) (value : α) (entries : List (κ × α)) :
    lookup key (insert other value entries) =
      if other = key then some value else lookup key entries := by
  induction entries with
  | nil => simp [insert, lookup_cons]
  | cons head rest ih =>
      obtain ⟨here, old⟩ := head
      simp only [insert]
      by_cases hLt : other < here
      · simp only [if_pos hLt, lookup_cons]
      by_cases hEq : other = here
      · subst hEq
        simp only [lt_irrefl, ↓reduceIte, lookup_cons]
        split_ifs <;> rfl
      · simp only [if_neg hLt, if_neg hEq, lookup_cons, ih]
        by_cases hKey : other = key
        · subst hKey
          simp [Ne.symm hEq]
        · simp [hKey]

theorem lookup_erase (key other : κ) (entries : List (κ × α)) :
    lookup key (erase other entries) = if other = key then none else lookup key entries := by
  induction entries with
  | nil => simp [erase]
  | cons head rest ih =>
      unfold erase at ih ⊢
      by_cases hHead : head.1 = other
      · rw [List.filter_cons_of_neg (by simpa using hHead), ih, lookup_cons, hHead]
        split_ifs <;> rfl
      · rw [List.filter_cons_of_pos (by simpa using hHead), lookup_cons, ih, lookup_cons]
        by_cases hKey : other = key
        · subst hKey
          simp [hHead]
        · simp [hKey]

theorem mem_of_lookup {key : κ} {value : α} {entries : List (κ × α)}
    (h : lookup key entries = some value) : (key, value) ∈ entries := by
  unfold lookup at h
  obtain ⟨entry, hFind, rfl⟩ := Option.map_eq_some_iff.mp h
  have hKey : entry.1 = key := by simpa using List.find?_some hFind
  subst hKey
  exact List.mem_of_find?_eq_some hFind

/-- In a sorted map every entry is the one that its key finds. -/
theorem Sorted.lookup_of_mem {entries : List (κ × α)} (h : Sorted entries) {key : κ} {value : α}
    (hMem : (key, value) ∈ entries) : lookup key entries = some value := by
  induction entries with
  | nil => cases hMem
  | cons head rest ih =>
      obtain ⟨hHead, hRest⟩ := List.pairwise_cons.mp h
      rw [lookup_cons]
      rcases List.mem_cons.mp hMem with rfl | hMem
      · simp
      · rw [if_neg (ne_of_lt (hHead _ hMem)), ih hRest hMem]

/-- A lookup does not depend on the order in which the entries are listed, as long as
no key is listed twice. -/
theorem Sorted.lookup_perm {entries shuffled : List (κ × α)} (h : Sorted entries)
    (hPerm : shuffled.Perm entries) (key : κ) : lookup key shuffled = lookup key entries := by
  cases hLookup : lookup key shuffled with
  | some value => exact (h.lookup_of_mem (hPerm.mem_iff.mp (mem_of_lookup hLookup))).symm
  | none =>
      refine (Option.eq_none_iff_forall_not_mem.mpr fun value hValue => ?_).symm
      have hMem : (key, value) ∈ shuffled := hPerm.mem_iff.mpr (mem_of_lookup hValue)
      rw [lookup, Option.map_eq_none_iff, List.find?_eq_none] at hLookup
      simpa using hLookup _ hMem

/-- Ordered maps are determined by their lookups, and so have no other observable
content. -/
theorem Sorted.ext_lookup {first second : List (κ × α)} (hFirst : Sorted first)
    (hSecond : Sorted second) (h : ∀ key, lookup key first = lookup key second) :
    first = second := by
  have hNodup {entries : List (κ × α)} (hSorted : Sorted entries) : entries.Nodup :=
    hSorted.imp fun hLt hEq => absurd (congrArg Prod.fst hEq) (ne_of_lt hLt)
  refine hFirst.eq_of_perm hSecond
    ((List.perm_ext_iff_of_nodup (hNodup hFirst) (hNodup hSecond)).mpr fun entry => ?_)
  constructor
  · intro hMem
    exact mem_of_lookup ((h entry.1).symm.trans (hFirst.lookup_of_mem hMem))
  · intro hMem
    exact mem_of_lookup ((h entry.1).trans (hSecond.lookup_of_mem hMem))

/-- The map of the fields that are present. A record lists its fields in declaration
order; an absent one has no value. -/
def present (fields : List (κ × Option α)) : List (κ × α) :=
  insertAll [] (fields.filterMap fun field => field.2.map (Prod.mk field.1))

theorem sorted_present (fields : List (κ × Option α)) : Sorted (present fields) :=
  Sorted.insertAll (List.Pairwise.nil) _

theorem length_insertAll_le (start entries : List (κ × α)) :
    (insertAll start entries).length ≤ start.length + entries.length := by
  induction entries generalizing start with
  | nil => exact Nat.le_refl _
  | cons entry rest ih =>
      have hRest := ih (insert entry.1 entry.2 start)
      have hFirst := length_insert_le entry.1 entry.2 start
      rw [insertAll, List.foldl_cons, List.length_cons]
      rw [insertAll] at hRest
      omega

/-- No more entries than fields: those without a value leave none. -/
theorem length_present_le (fields : List (κ × Option α)) :
    (present fields).length ≤ fields.length := by
  have hEntries := length_insertAll_le []
    (fields.filterMap fun field => field.2.map (Prod.mk field.1))
  rw [List.length_nil, Nat.zero_add] at hEntries
  exact hEntries.trans (List.length_filterMap_le _ _)

/-- The entries of a record are its fields with a value, each under its own name. -/
theorem mem_present {fields : List (κ × Option α)}
    (hNames : (fields.map Prod.fst).Nodup) {key : κ} {value : α} :
    (key, value) ∈ present fields ↔ (key, some value) ∈ fields := by
  have hDistinct : (fields.filterMap fun field => field.2.map (Prod.mk field.1)).Pairwise
      fun first second => first.1 ≠ second.1 := by
    rw [List.pairwise_filterMap]
    refine (List.pairwise_map.mp hNames).imp fun hNe entry hEntry other hOther => ?_
    obtain ⟨_, _, rfl⟩ := Option.map_eq_some_iff.mp hEntry
    obtain ⟨_, _, rfl⟩ := Option.map_eq_some_iff.mp hOther
    exact hNe
  rw [present, (insertAll_perm hDistinct (by simp)).mem_iff]
  simp [Option.map_eq_some_iff]

/-- A field is found under its name exactly as the record has it, or not at all where
it is absent. -/
theorem lookup_present {fields : List (κ × Option α)}
    (hNames : (fields.map Prod.fst).Nodup) {field : κ × Option α}
    (hMem : field ∈ fields) : lookup field.1 (present fields) = field.2 := by
  obtain ⟨key, value⟩ := field
  cases value with
  | some value => exact (sorted_present fields).lookup_of_mem ((mem_present hNames).mpr hMem)
  | none =>
      refine Option.eq_none_iff_forall_not_mem.mpr fun value hValue => ?_
      have hOther := (mem_present hNames).mp (mem_of_lookup hValue)
      have hEqual := List.inj_on_of_nodup_map hNames hMem hOther rfl
      cases congrArg Prod.snd hEqual

/-- A sorted map with no other keys than those of a record, and its fields, is the map
of the record. -/
theorem Sorted.eq_present {entries : List (κ × α)} {fields : List (κ × Option α)}
    (hSorted : Sorted entries)
    (hNames : (fields.map Prod.fst).Nodup)
    (hKnown : ∀ entry ∈ entries, entry.1 ∈ fields.map Prod.fst)
    (hFields : ∀ field ∈ fields, lookup field.1 entries = field.2) :
    entries = present fields := by
  refine hSorted.ext_lookup (sorted_present fields) fun key => ?_
  by_cases hKey : key ∈ fields.map Prod.fst
  · obtain ⟨field, hMem, rfl⟩ := List.mem_map.mp hKey
    rw [hFields field hMem, lookup_present hNames hMem]
  · have hAbsent {map : List (κ × α)} (hMap : ∀ entry ∈ map, entry.1 ∈ fields.map Prod.fst) :
        lookup key map = none :=
      Option.eq_none_iff_forall_not_mem.mpr fun value hValue =>
        hKey (hMap _ (mem_of_lookup hValue))
    rw [hAbsent hKnown, hAbsent fun entry hMem =>
      List.mem_map.mpr ⟨_, (mem_present hNames).mp hMem, rfl⟩]

/-- The same as an equivalence: a map is that of a record by its keys and its lookups
alone. -/
theorem Sorted.eq_present_iff {entries : List (κ × α)} {fields : List (κ × Option α)}
    (hSorted : Sorted entries) (hNames : (fields.map Prod.fst).Nodup) :
    entries = present fields ↔ (∀ entry ∈ entries, entry.1 ∈ fields.map Prod.fst) ∧
      ∀ field ∈ fields, lookup field.1 entries = field.2 := by
  refine ⟨?_, fun h => hSorted.eq_present hNames h.1 h.2⟩
  rintro rfl
  refine ⟨fun entry hMem => ?_, fun field hMem => lookup_present hNames hMem⟩
  exact List.mem_map.mpr ⟨_, (mem_present hNames).mp hMem, rfl⟩

end SortedMap
