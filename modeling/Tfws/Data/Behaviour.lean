import Mathlib.Order.Monotone.Basic

/-! Behaviours of a transition system: infinite sequences of states in which
every step is one of the system or leaves the state as it is. -/

/-- States, those that a run may start in, and the steps it may take. Nothing says
that there is a step from every state. -/
structure TransitionSystem (State : Type*) where
  init : State → Prop
  next : State → State → Prop

namespace TransitionSystem

variable {State : Type*} {system : TransitionSystem State} {states : ℕ → State}

/-- The formula `Init ∧ □[Next]_vars` of a sequence of states. -/
structure Behaviour (system : TransitionSystem State) (states : ℕ → State) : Prop where
  init : system.init (states 0)
  next : ∀ time, system.next (states time) (states (time + 1)) ∨ states (time + 1) = states time

/-- What no step of the system ends. Stuttering keeps it in any case, and so it is
enough to look at steps. -/
def Stable (system : TransitionSystem State) (property : State → Prop) : Prop :=
  ∀ state after, property state → system.next state after → property after

/-- A stable property holds from when it first does, at every later time of the
behaviour. -/
theorem Behaviour.stays (h : system.Behaviour states) {property : State → Prop}
    (hStable : system.Stable property) {time later : ℕ} (hTime : time ≤ later)
    (hNow : property (states time)) : property (states later) := by
  induction hTime with
  | refl => exact hNow
  | @step later _ ih =>
      rcases h.next later with hStep | hSame
      · exact hStable _ _ ih hStep
      · rwa [hSame]

/-- The invariant rule: what holds in the initial states and is stable holds at every
time of every behaviour. -/
theorem Behaviour.always (h : system.Behaviour states) {invariant : State → Prop}
    (hInit : ∀ state, system.init state → invariant state) (hStable : system.Stable invariant)
    (time : ℕ) : invariant (states time) :=
  h.stays hStable (Nat.zero_le time) (hInit _ h.init)

/-- What no step lowers never falls, from any time to any later one. -/
theorem Behaviour.monotone {α : Type*} [Preorder α] (h : system.Behaviour states)
    {measure : State → α} (hStep : ∀ state after, system.next state after →
      measure state ≤ measure after) : Monotone fun time => measure (states time) := by
  apply monotone_nat_of_le_succ
  intro time
  rcases h.next time with hNext | hSame
  · exact hStep _ _ hNext
  · rw [hSame]

end TransitionSystem
