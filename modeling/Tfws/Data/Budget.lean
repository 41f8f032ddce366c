import Tfws.Data.Fallible

/-! Two runs of one computation under different budgets. The second run repeats
the first one, result or error, unless the first was stopped by its budget. -/
namespace Fallible

universe u v

variable {ε : Type u} {α β : Type v} {stops : ε → Prop}

/-- The runs end alike, or the first one is stopped. Nothing is said of the second run
then. -/
def SameUnless (stops : ε → Prop) (first second : Except ε α) : Prop :=
  second = first ∨ ∃ error, first = .error error ∧ stops error

namespace SameUnless

theorem refl (computation : Except ε α) : SameUnless stops computation computation := .inl rfl

/-- A run that its budget stopped says nothing about the other one. -/
theorem stopped {error : ε} (h : stops error) (second : Except ε α) :
    SameUnless stops (.error error) second := .inr ⟨error, rfl, h⟩

/-- How the relation is used: a run that was not stopped is repeated to the letter,
its error included. -/
theorem eq_of_not_stopped {first second : Except ε α} (h : SameUnless stops first second)
    (hNot : ∀ error, first = .error error → ¬stops error) : second = first := by
  rcases h with hSame | ⟨error, hFirst, hStops⟩
  · exact hSame
  · exact absurd hStops (hNot error hFirst)

/-- Sequencing: the rest runs twice only after the same value, so that its two runs
need comparing for that value alone. -/
theorem bind {first second : Except ε α} {next next' : α → Except ε β}
    (h : SameUnless stops first second)
    (hNext : ∀ value, first = .ok value → second = .ok value →
      SameUnless stops (next value) (next' value)) :
    SameUnless stops (first >>= next) (second >>= next') := by
  rcases h with rfl | ⟨error, rfl, hStops⟩
  · cases second with
    | error error => exact refl _
    | ok value => exact hNext value rfl rfl
  · exact stopped hStops _

/-- Sequencing after a step that has no budget, and so is one and the same in both
runs. -/
theorem step {first : Except ε α} {next next' : α → Except ε β}
    (hNext : ∀ value, first = .ok value → SameUnless stops (next value) (next' value)) :
    SameUnless stops (first >>= next) (first >>= next') :=
  (refl first).bind fun value hFirst _ => hNext value hFirst

/-- A check of the budget: what the larger budget refuses, the smaller one does. The
converse would be false and is not needed. -/
theorem check {bad bad' : Prop} [Decidable bad] [Decidable bad'] {error : ε}
    (hStops : stops error) (hLarger : bad' → bad) :
    SameUnless stops (failIf bad error) (failIf bad' error) := by
  by_cases h : bad
  · rw [failIf_of h]
    exact stopped hStops _
  · rw [failIf_of_not h, failIf_of_not (mt hLarger h)]
    exact refl _

/-- A translation of errors that keeps the stopping ones stopping keeps the
relation. -/
theorem mapError {δ : Type u} {stops' : δ → Prop} {first second : Except ε α} {f : ε → δ}
    (h : SameUnless stops first second) (hStops : ∀ error, stops error → stops' (f error)) :
    SameUnless stops' (first.mapError f) (second.mapError f) := by
  rcases h with rfl | ⟨error, rfl, hError⟩
  · exact refl _
  · exact stopped (hStops error hError) _

end SameUnless

end Fallible
