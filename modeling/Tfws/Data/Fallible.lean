import Mathlib.Tactic.SplitIfs

/-! Computations in `Except`. Inversion rules say that a sequence succeeds
exactly when its steps do; outcome rules carry a postcondition for results and
one for errors through a sequence. -/
namespace Fallible

universe u v

variable {ε : Type u} {α β : Type v}

/-- Stop with `error` when `bad` holds. This is the guard clause with an early return
in which the sources write their checks. -/
def failIf (bad : Prop) [Decidable bad] (error : ε) : Except ε Unit :=
  if bad then .error error else .ok ()

/-- A check is passed exactly when what it refuses does not hold. -/
@[simp] theorem failIf_eq_ok {bad : Prop} [Decidable bad] {error : ε} {result : Unit} :
    failIf bad error = .ok result ↔ ¬bad := by
  unfold failIf
  split_ifs with h <;> simp [h]

/-- A check stops only with its own error, and only where what it refuses holds. -/
@[simp] theorem failIf_eq_error {bad : Prop} [Decidable bad] {error raised : ε} :
    failIf bad error = .error raised ↔ bad ∧ error = raised := by
  unfold failIf
  split_ifs with h <;> simp [h]

theorem failIf_of_not {bad : Prop} [Decidable bad] (h : ¬bad) (error : ε) :
    failIf bad error = .ok () :=
  if_neg h

theorem failIf_of {bad : Prop} [Decidable bad] (h : bad) (error : ε) :
    failIf bad error = .error error :=
  if_pos h

@[simp] theorem failIf_ne_self {γ : Type*} [DecidableEq γ] (value : γ) (error : ε) :
    failIf (value ≠ value) error = .ok () :=
  failIf_of_not (fun hNe => hNe rfl) error

/-- A sequence succeeds exactly if its first step does and the rest succeeds on its
value. -/
theorem bind_eq_ok {first : Except ε α} {next : α → Except ε β} {result : β} :
    (first >>= next) = .ok result ↔ ∃ value, first = .ok value ∧ next value = .ok result := by
  cases first with
  | error e => simp [bind, Except.bind]
  | ok value => simp [bind, Except.bind]

theorem then_eq_ok {β : Type} {first : Except ε Unit} {next : Unit → Except ε β} {result : β} :
    (first >>= next) = .ok result ↔ first = .ok () ∧ next () = .ok result := by
  cases first with
  | error e => simp [bind, Except.bind]
  | ok value => simp [bind, Except.bind]

/-- A sequence fails in its first step or, after a value, in the rest. -/
theorem bind_eq_error {first : Except ε α} {next : α → Except ε β} {error : ε} :
    (first >>= next) = .error error ↔
      first = .error error ∨ ∃ value, first = .ok value ∧ next value = .error error := by
  cases first with
  | error e => simp [bind, Except.bind]
  | ok value => simp [bind, Except.bind]

@[simp] theorem ok_bind (value : α) (next : α → Except ε β) :
    ((Except.ok value : Except ε α) >>= next) = next value := rfl

@[simp] theorem error_bind (error : ε) (next : α → Except ε β) :
    ((Except.error error : Except ε α) >>= next) = .error error := rfl

@[simp] theorem pure_eq_ok (value : α) : (pure value : Except ε α) = .ok value := rfl

@[simp] theorem throw_eq_error (error : ε) : (throw error : Except ε α) = .error error := rfl

theorem mapError_eq_ok {δ : Type u} {first : Except ε α} {f : ε → δ} {value : α} :
    first.mapError f = .ok value ↔ first = .ok value := by
  cases first <;> simp [Except.mapError]

@[simp] theorem mapError_ok {δ : Type u} (f : ε → δ) (value : α) :
    (Except.ok value : Except ε α).mapError f = .ok value := rfl

/-- Every result satisfies `returns` and every error satisfies `raises`: a triple with
a postcondition for each way to end. -/
def Outcome (computation : Except ε α) (returns : α → Prop) (raises : ε → Prop) : Prop :=
  match computation with
  | .ok value => returns value
  | .error error => raises error

namespace Outcome

variable {returns : α → Prop} {raises : ε → Prop}

@[simp] theorem ok {value : α} :
    Outcome (.ok value : Except ε α) returns raises ↔ returns value := Iff.rfl

@[simp] theorem error {raised : ε} :
    Outcome (.error raised : Except ε α) returns raises ↔ raises raised := Iff.rfl

theorem of_ok {computation : Except ε α} {value : α} (h : Outcome computation returns raises)
    (hOk : computation = .ok value) : returns value := by
  rwa [hOk] at h

theorem of_error {computation : Except ε α} {raised : ε} (h : Outcome computation returns raises)
    (hError : computation = .error raised) : raises raised := by
  rwa [hError] at h

theorem mono {computation : Except ε α} {weaker : α → Prop}
    (h : Outcome computation returns raises) (hWeaker : ∀ value, returns value → weaker value) :
    Outcome computation weaker raises := by
  cases computation with
  | error raised => exact h
  | ok value => exact hWeaker value h

/-- Sequencing: the second step may rely on what the first one returns, and both must
raise only what the whole may raise. -/
theorem bind {first : Except ε α} {next : α → Except ε β} {lastly : β → Prop}
    (hFirst : Outcome first returns raises)
    (hNext : ∀ value, returns value → Outcome (next value) lastly raises) :
    Outcome (first >>= next) lastly raises := by
  cases first with
  | error raised => exact hFirst
  | ok value => exact hNext value hFirst

/-- A check, and what the rest may rely on once it has passed. The error need be
allowed only where the check fails. -/
theorem check {bad : Prop} [Decidable bad] {raised : ε} {β : Type} {next : Unit → Except ε β}
    {lastly : β → Prop} (hRaised : bad → raises raised)
    (hNext : ¬bad → Outcome (next ()) lastly raises) :
    Outcome (failIf bad raised >>= next) lastly raises := by
  unfold failIf
  split_ifs with h
  · exact hRaised h
  · exact hNext h

/-- A check with nothing after it: having passed is all that is known of the end. -/
theorem lastCheck {bad : Prop} [Decidable bad] {raised : ε} (hRaised : bad → raises raised) :
    Outcome (failIf bad raised) (fun _ => ¬bad) raises := by
  unfold failIf
  split_ifs with h
  · exact hRaised h
  · exact h

/-- Where every error will do, nothing need be known of a step, and nothing is known
of its value. -/
theorem any (hRaises : ∀ raised, raises raised) (computation : Except ε α) :
    Outcome computation (fun _ => True) raises := by
  cases computation with
  | error raised => exact hRaises raised
  | ok value => trivial

/-- Nothing is known of a foreign result, but its error has been translated: every
translation must be allowed, for no cause is excluded. -/
theorem mapError {δ : Type u} {foreign : Except δ α} {f : δ → ε} (h : ∀ cause, raises (f cause)) :
    Outcome (foreign.mapError f) (fun _ => True) raises := by
  cases foreign with
  | error cause => exact h cause
  | ok value => trivial

end Outcome

end Fallible
