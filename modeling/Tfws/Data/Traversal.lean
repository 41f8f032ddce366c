import Mathlib.Data.List.Forall2
import Mathlib.Data.List.Perm.Basic
import Mathlib.Data.Set.Function

/-! Lists read member by member. -/
namespace Traversal

universe u v

variable {α : Type u} {β : Type v} {read : α → Option β} {items : List α} {results : List β}

theorem cons_eq_some {item : α} {rest : List α} :
    (do let first ← read item; let others ← rest.mapM read; some (first :: others)) =
      some results ↔ ∃ first others, read item = some first ∧ rest.mapM read = some others ∧
        results = first :: others := by
  simp only [Option.bind_eq_bind, Option.bind_eq_some_iff, Option.some.injEq]
  constructor
  · intro ⟨first, hFirst, others, hOthers, hSame⟩
    exact ⟨first, others, hFirst, hOthers, hSame.symm⟩
  · intro ⟨first, others, hFirst, hOthers, hSame⟩
    exact ⟨first, hFirst, others, hOthers, hSame.symm⟩

/-- A list is read when all its members are, and the results stand in the order of the
members. -/
theorem mapM_eq_some : items.mapM read = some results ↔
    List.Forall₂ (fun item result => read item = some result) items results := by
  induction items generalizing results with
  | nil =>
      rw [List.mapM_nil, Option.pure_def, Option.some.injEq, List.forall₂_nil_left_iff, eq_comm]
  | cons item rest ih =>
      rw [List.mapM_cons, List.forall₂_cons_left_iff]
      refine cons_eq_some.trans ?_
      simp only [ih, ← and_assoc]

variable {related : α → β → Prop}

/-- Members that each have a counterpart are matched by a list of them, member by
member. -/
theorem exists_forall₂ (h : ∀ item ∈ items, ∃ result, related item result) :
    ∃ results, List.Forall₂ related items results := by
  induction items with
  | nil => exact ⟨[], .nil⟩
  | cons item rest ih =>
      obtain ⟨⟨first, hFirst⟩, hRest⟩ := List.forall_mem_cons.mp h
      obtain ⟨others, hOthers⟩ := ih hRest
      exact ⟨first :: others, .cons hFirst hOthers⟩

theorem exists_right (h : List.Forall₂ related items results) {item : α} (hMem : item ∈ items) :
    ∃ result ∈ results, related item result := by
  induction h with
  | nil => cases hMem
  | cons hFirst _ ih =>
      obtain rfl | hMem := List.mem_cons.mp hMem
      · exact ⟨_, List.mem_cons_self .., hFirst⟩
      · obtain ⟨result, hResult, hRelated⟩ := ih hMem
        exact ⟨result, List.mem_cons_of_mem _ hResult, hRelated⟩

theorem exists_left (h : List.Forall₂ related items results) {result : β}
    (hMem : result ∈ results) : ∃ item ∈ items, related item result :=
  exists_right h.flip hMem

/-- Counterparts stand at the same place, which also makes the two lists equally
long. -/
theorem exists_getElem? (h : List.Forall₂ related items results) {place : Nat} {item : α}
    (hItem : items[place]? = some item) :
    ∃ result, results[place]? = some result ∧ related item result := by
  induction h generalizing place with
  | nil => cases hItem
  | cons hFirst _ ih =>
      cases place with
      | zero =>
          obtain rfl := Option.some.inj hItem
          exact ⟨_, rfl, hFirst⟩
      | succ place => exact ih hItem

theorem imp_mem {implied : α → β → Prop} (h : List.Forall₂ related items results)
    (hImplied : ∀ item ∈ items, ∀ result, related item result → implied item result) :
    List.Forall₂ implied items results := by
  induction h with
  | nil => exact .nil
  | cons hFirst _ ih =>
      obtain ⟨hItem, hItems⟩ := List.forall_mem_cons.mp hImplied
      exact .cons (hItem _ hFirst) (ih hItems)

/-- Counterparts are in the same order, when the relation between members carries over
to that between counterparts. -/
theorem pairwise_right {before : α → α → Prop} {after : β → β → Prop}
    (h : List.Forall₂ related items results) (hItems : items.Pairwise before)
    (hOrder : ∀ {first second : α} {result other : β}, related first result →
      related second other → before first second → after result other) :
    results.Pairwise after := by
  induction h with
  | nil => exact List.Pairwise.nil
  | cons hFirst hRest ih =>
      obtain ⟨hBefore, hOthers⟩ := List.pairwise_cons.mp hItems
      refine List.pairwise_cons.mpr ⟨?_, ih hOthers⟩
      intro other hOther
      obtain ⟨second, hSecond, hRelated⟩ := exists_left hRest hOther
      exact hOrder hFirst hRelated (hBefore second hSecond)

theorem exists_getLast? (h : List.Forall₂ related items results) {item : α}
    (hItem : items.getLast? = some item) :
    ∃ result, results.getLast? = some result ∧ related item result := by
  rw [List.getLast?_eq_getElem?] at hItem
  rw [List.getLast?_eq_getElem?, ← h.length_eq]
  exact exists_getElem? h hItem

/-- A list whose members can all be read can be read. -/
theorem exists_mapM (h : ∀ item ∈ items, ∃ result, read item = some result) :
    ∃ results, items.mapM read = some results :=
  (exists_forall₂ h).imp fun _ => mapM_eq_some.mpr

/-- Members in another order are read as the results in another order; no reading
depends on the place of a member. -/
theorem mapM_perm {others : List α} (h : items.mapM read = some results)
    (hPerm : others.Perm items) :
    ∃ shuffled, others.mapM read = some shuffled ∧ shuffled.Perm results := by
  obtain ⟨shuffled, hShuffled, hResults⟩ :=
    List.perm_comp_forall₂ hPerm (mapM_eq_some.mp h)
  exact ⟨shuffled, mapM_eq_some.mpr hShuffled, hResults⟩

/-- Results of a reading that can be undone, member by member, are read back as the
list they came from. -/
theorem forall₂_back {back : β → Option α}
    (h : List.Forall₂ (fun item result => read item = some result) items results)
    (hBack : ∀ item ∈ items, ∀ result, read item = some result → back result = some item) :
    results.mapM back = some items := by
  induction h with
  | nil => rfl
  | cons hFirst hRest ih =>
      obtain ⟨hItem, hItems⟩ := List.forall_mem_cons.mp hBack
      rw [List.mapM_cons, hItem _ hFirst, ih hItems]
      rfl

/-- Lists with the same images, under a map that is injective on their members, are
the same. The map need not be injective elsewhere, as a hash is not. -/
theorem eq_of_map {image : α → β} {members : Set α} (hInjective : Set.InjOn image members)
    {first second : List α} (hFirst : ∀ item ∈ first, item ∈ members)
    (hSecond : ∀ item ∈ second, item ∈ members) (h : first.map image = second.map image) :
    first = second := by
  induction first generalizing second with
  | nil => exact (List.map_eq_nil_iff.mp h.symm).symm
  | cons item rest ih =>
      cases second with
      | nil => cases h
      | cons other others =>
          obtain ⟨hHead, hTail⟩ := List.cons.inj h
          obtain ⟨hItem, hRest⟩ := List.forall_mem_cons.mp hFirst
          obtain ⟨hOther, hOthers⟩ := List.forall_mem_cons.mp hSecond
          rw [hInjective hItem hOther hHead, ih hRest hOthers hTail]

end Traversal
