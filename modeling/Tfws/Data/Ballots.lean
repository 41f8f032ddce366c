import Mathlib.Data.Finset.Card
import Mathlib.Data.Finset.Sort
import Mathlib.Data.Set.Card

/-! Counting distinct voters over a list of ballots. Only the set of the ballots
that count matters: neither their order nor how often one is repeated. -/
namespace Ballots

universe u v

variable {α : Type u} {β : Type v} [DecidableEq β] {counts : α → Prop} [DecidablePred counts]
  {voter : α → β} {ballots others : List α}

/-- The voters of the ballots that count. A voter who cast several of them is one
voter, and a ballot that does not count adds nobody. -/
def voters (counts : α → Prop) [DecidablePred counts] (voter : α → β) (ballots : List α) :
    Finset β :=
  ((ballots.filter fun ballot => counts ballot).map voter).toFinset

/-- A voter is counted exactly if one of the ballots that count is theirs. -/
theorem mem_voters {name : β} :
    name ∈ voters counts voter ballots ↔ ∃ ballot ∈ ballots, counts ballot ∧ voter ballot = name := by
  simp only [voters, List.mem_toFinset, List.mem_map, List.mem_filter, decide_eq_true_eq, and_assoc]

/-- The voters in the order of their names, which is what a report prints: it depends
on the set alone. -/
def sorted {γ : Type v} [LinearOrder γ] (names : Finset γ) : List γ := names.sort (· ≤ ·)

@[simp] theorem voters_nil : voters counts voter [] = ∅ := rfl

theorem voters_cons_of_counts {ballot : α} (h : counts ballot) :
    voters counts voter (ballot :: ballots) =
      insert (voter ballot) (voters counts voter ballots) := by
  simp [voters, h]

theorem voters_cons_of_not {ballot : α} (h : ¬counts ballot) :
    voters counts voter (ballot :: ballots) = voters counts voter ballots := by
  simp [voters, h]

/-- Only which of the counting ballots are there decides: reordering, repeating, and
adding ballots that do not count change nothing. -/
theorem voters_congr (hSame : ∀ ballot, counts ballot → (ballot ∈ ballots ↔ ballot ∈ others)) :
    voters counts voter ballots = voters counts voter others := by
  apply Finset.ext
  intro name
  rw [mem_voters, mem_voters]
  apply exists_congr
  intro ballot
  apply and_congr_left
  intro h
  exact hSame ballot h.1

/-- More ballots never lose a voter, so that a quorum once met stays met. -/
theorem voters_subset (hMore : ballots ⊆ others) :
    voters counts voter ballots ⊆ voters counts voter others := by
  intro name hName
  obtain ⟨ballot, hMember, hVoter⟩ := mem_voters.mp hName
  exact mem_voters.mpr ⟨ballot, hMore hMember, hVoter⟩

/-- Counting a set with the same members as the voters. This brings a count over a set
of names, possibly stated without a list, back to the computed one. -/
theorem ncard_eq {names : Set β} (h : ∀ name, name ∈ voters counts voter ballots ↔ name ∈ names) :
    names.ncard = (voters counts voter ballots).card := by
  have hCoe : (voters counts voter ballots : Set β) = names := Set.ext h
  rw [← hCoe, Set.ncard_coe_finset]

/-- Two sets of voters among those allowed overlap in what is left over: two quorums
that together exceed the number allowed have a voter in common. -/
theorem card_add_card_le {allowed left right : Finset β} (hLeft : left ⊆ allowed)
    (hRight : right ⊆ allowed) : left.card + right.card ≤ allowed.card + (left ∩ right).card := by
  rw [← Finset.card_union_add_card_inter]
  exact Nat.add_le_add_right (Finset.card_le_card (Finset.union_subset hLeft hRight)) _

end Ballots
