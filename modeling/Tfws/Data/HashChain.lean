import Mathlib.Data.List.Induction
import Mathlib.Data.List.Nodup
import Mathlib.Tactic.Common

/-! Hash chains: lists of which every entry names its position and holds the
hash of the one before. The hash of the last entry determines all of them. -/

/-- Entries of a chain: their hash, the positions that they name, and the hashes
that they hold, none for a first entry. -/
structure HashChain (α η : Type*) where
  hash : α → η
  position : α → Nat → Prop
  link : α → Option η → Prop
  position_unique : ∀ {entry first second}, position entry first → position entry second →
    first = second
  link_unique : ∀ {entry first second}, link entry first → link entry second → first = second

namespace HashChain

variable {α η : Type*} (chain : HashChain α η) {index : Nat} {previous : Option η}
  {entries front back : List α} {entry : α}

/-- The entries continue a chain of `index` entries, the last of which has the
hash `previous`. -/
def LinkedFrom (index : Nat) (previous : Option η) : List α → Prop
  | [] => True
  | entry :: rest => chain.position entry index ∧ chain.link entry previous ∧
      LinkedFrom (index + 1) (some (chain.hash entry)) rest

/-- A whole chain: positions count from zero, and the first entry has no one before it
to name. -/
def Linked (entries : List α) : Prop := chain.LinkedFrom 0 none entries

/-- The hash that the next entry has to hold: that of the last one, or the one in
front of them all. -/
def tip (previous : Option η) (entries : List α) : Option η :=
  match entries.getLast? with
  | some entry => some (chain.hash entry)
  | none => previous

variable {chain}

@[simp] theorem tip_nil : chain.tip previous [] = previous := rfl

@[simp] theorem tip_concat : chain.tip previous (front ++ [entry]) = some (chain.hash entry) := by
  rw [tip, List.getLast?_append_of_ne_nil _ (List.cons_ne_nil _ _), List.getLast?_singleton]

theorem tip_cons : chain.tip previous (entry :: back) = chain.tip (some (chain.hash entry)) back := by
  cases back with
  | nil => rfl
  | cons next rest => rw [tip, tip, List.getLast?_cons_cons]; rfl

/-- A chain falls into any front and the rest, which goes on at the position and the
hash where the front ends. -/
theorem linkedFrom_append : chain.LinkedFrom index previous (front ++ back) ↔
    chain.LinkedFrom index previous front ∧
      chain.LinkedFrom (index + front.length) (chain.tip previous front) back := by
  induction front generalizing index previous with
  | nil => simp [LinkedFrom]
  | cons entry rest ih =>
      rw [List.cons_append, LinkedFrom, ih, LinkedFrom, tip_cons, List.length_cons,
        Nat.add_right_comm, Nat.add_assoc, and_assoc, and_assoc]

/-- A chain grows by an entry that names its place and holds the last hash, and in no
other way. -/
theorem linked_concat : chain.Linked (front ++ [entry]) ↔ chain.Linked front ∧
    chain.position entry front.length ∧ chain.link entry (chain.tip none front) := by
  rw [Linked, linkedFrom_append, LinkedFrom, LinkedFrom, Nat.zero_add, Linked]
  simp

/-- Every front of a chain is a chain: the removal of last entries leaves no trace in
what remains. -/
theorem Linked.take (h : chain.Linked entries) (count : Nat) : chain.Linked (entries.take count) := by
  rw [Linked, ← List.take_append_drop count entries, linkedFrom_append] at h
  exact h.1

theorem tip_take {place : Nat} (h : entries[place]? = some entry) :
    chain.tip previous (entries.take (place + 1)) = some (chain.hash entry) := by
  rw [List.take_add_one, h, Option.toList_some, tip_concat]

theorem tip_of_getLast? (h : entries.getLast? = some entry) :
    chain.tip previous entries = some (chain.hash entry) := by
  rw [tip, h]

/-- An entry stands where it says it does, counted from the index of the first. -/
theorem LinkedFrom.position_of_getElem? (h : chain.LinkedFrom index previous entries)
    {place : Nat} (hEntry : entries[place]? = some entry) :
    chain.position entry (index + place) := by
  induction entries generalizing index previous place with
  | nil => cases hEntry
  | cons first rest ih =>
      obtain ⟨hFirst, -, hRest⟩ := h
      cases place with
      | zero =>
          obtain rfl := Option.some.inj hEntry
          exact hFirst
      | succ place =>
          rw [← Nat.succ_add_eq_add_succ]
          exact ih hRest hEntry

/-- No entry occurs twice in a chain, for the two would name the same position. -/
theorem Linked.nodup (h : chain.Linked entries) : entries.Nodup := by
  rw [List.nodup_iff_injective_getElem]
  intro first second hSame
  have hFirst := h.position_of_getElem? (List.getElem?_eq_getElem first.isLt)
  have hSecond := h.position_of_getElem? (List.getElem?_eq_getElem second.isLt)
  rw [show entries[first.1] = entries[second.1] from hSame] at hFirst
  have hPlaces := chain.position_unique hFirst hSecond
  exact Fin.ext (Nat.add_left_cancel hPlaces)

/-- Chains with the same last hash are the same, if no two of their entries
collide: entry by entry from the last one back. -/
theorem Linked.eq_of_tip (hFront : chain.Linked front) (hBack : chain.Linked back)
    (hInjective : ∀ first ∈ front, ∀ second ∈ back,
      chain.hash first = chain.hash second → first = second)
    (hTip : chain.tip none front = chain.tip none back) : front = back := by
  induction front using List.reverseRecOn generalizing back with
  | nil =>
      cases back using List.reverseRecOn with
      | nil => rfl
      | append_singleton others last => simp at hTip
  | append_singleton before entry ih =>
      cases back using List.reverseRecOn with
      | nil => simp at hTip
      | append_singleton others last =>
          have hHash : chain.hash entry = chain.hash last := by simpa using hTip
          obtain rfl := hInjective entry (by simp) last (by simp) hHash
          obtain ⟨hBefore, -, hLink⟩ := linked_concat.mp hFront
          obtain ⟨hOthers, -, hOtherLink⟩ := linked_concat.mp hBack
          have hSame := ih hBefore hOthers
            (fun first hFirst second hSecond => hInjective first (List.mem_append_left _ hFirst)
              second (List.mem_append_left _ hSecond))
            (chain.link_unique hLink hOtherLink)
          rw [hSame]

end HashChain
