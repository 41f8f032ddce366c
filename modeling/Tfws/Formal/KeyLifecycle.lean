import Mathlib.Data.Finset.Basic
import Mathlib.Data.Finset.Lattice.Lemmas
import Tfws.Data.Behaviour

/-! The model `KeyLifecycle` of `formal/`, for any bound on the epochs. -/
namespace Tfws.KeyLifecycle

/-- The variables of the specification. Epochs are numbers, and the sets of them are
finite. -/
structure State where
  epoch : ℕ
  active : Finset ℕ
  revoked : Finset ℕ
  deriving DecidableEq

def Init (state : State) : Prop :=
  state.epoch = 1 ∧ state.active = {1} ∧ state.revoked = ∅

/-- A rotation starts the next epoch and makes it the active one, up to the bound. -/
def Rotate (maxEpoch : ℕ) (state after : State) : Prop :=
  state.epoch < maxEpoch ∧ after.epoch = state.epoch + 1 ∧ after.active = {state.epoch + 1} ∧
    after.revoked = state.revoked

/-- A revocation moves whatever is active among the revoked. The epoch stays, and only
a rotation makes another one active. -/
def Revoke (state after : State) : Prop :=
  state.active ≠ ∅ ∧ after.revoked = state.revoked ∪ state.active ∧ after.active = ∅ ∧
    after.epoch = state.epoch

def Next (maxEpoch : ℕ) (state after : State) : Prop :=
  Rotate maxEpoch state after ∨ Revoke state after

/-- The specification: its initial states and its steps. Stuttering is part of what a
behaviour is. -/
def Spec (maxEpoch : ℕ) : TransitionSystem State where
  init := Init
  next := Next maxEpoch

/-- What is revoked is not active: the invariant that the specification states. -/
def NoRevokedActive (state : State) : Prop := state.active ∩ state.revoked = ∅

/-- Nothing but the current epoch is active, and it need not be, after a
revocation. -/
def OnlyCurrentActive (state : State) : Prop := state.active = ∅ ∨ state.active = {state.epoch}

/-- What the steps keep: no epoch that was ever revoked lies in the future. -/
structure Sound (state : State) : Prop where
  disjoint : NoRevokedActive state
  active : OnlyCurrentActive state
  revoked : ∀ epoch ∈ state.revoked, epoch ≤ state.epoch

variable {maxEpoch : ℕ} {state after : State}

theorem Sound.active_eq (h : Sound state) {epoch : ℕ} (hActive : epoch ∈ state.active) :
    epoch = state.epoch := by
  rcases h.active with hNone | hCurrent
  · rw [hNone] at hActive
    exact absurd hActive (Finset.notMem_empty epoch)
  · rw [hCurrent] at hActive
    exact Finset.mem_singleton.mp hActive

/-- The invariant holds in the beginning, where nothing is revoked. -/
theorem Sound.of_init (h : Init state) : Sound state := by
  obtain ⟨hEpoch, hActive, hRevoked⟩ := h
  constructor
  · rw [NoRevokedActive, hRevoked, Finset.inter_empty]
  · exact Or.inr (by rw [hActive, hEpoch])
  · rw [hRevoked]
    exact fun epoch hMem => absurd hMem (Finset.notMem_empty epoch)

/-- A rotation keeps the invariant: the new epoch is larger than any that was
revoked. -/
theorem Sound.rotate (h : Sound state) (hRotate : Rotate maxEpoch state after) : Sound after := by
  obtain ⟨-, hEpoch, hActive, hRevoked⟩ := hRotate
  constructor
  · -- the epoch that becomes active is later than every revoked one
    rw [NoRevokedActive, hActive, hRevoked, Finset.singleton_inter_of_notMem]
    intro hMem
    have hPast := h.revoked _ hMem
    omega
  · exact Or.inr (by rw [hActive, hEpoch])
  · intro epoch hMem
    rw [hRevoked] at hMem
    have hPast := h.revoked epoch hMem
    omega

/-- A revocation keeps the invariant, for nothing is active after it, and what is
revoked was the current epoch. -/
theorem Sound.revoke (h : Sound state) (hRevoke : Revoke state after) : Sound after := by
  obtain ⟨-, hRevoked, hActive, hEpoch⟩ := hRevoke
  constructor
  · rw [NoRevokedActive, hActive, Finset.empty_inter]
  · exact Or.inl hActive
  · intro epoch hMem
    rw [hRevoked, Finset.mem_union] at hMem
    rw [hEpoch]
    rcases hMem with hOld | hNew
    · exact h.revoked epoch hOld
    · exact (h.active_eq hNew).le

/-- Every step keeps the invariant. `NoRevokedActive` alone is not stable: a rotation
has to find its new epoch not yet revoked. -/
theorem stable_sound : (Spec maxEpoch).Stable Sound := by
  intro state after h hNext
  rcases hNext with hRotate | hRevoke
  · exact h.rotate hRotate
  · exact h.revoke hRevoke

/-- No step lowers the epoch: a rotation raises it, and everything else leaves it. -/
theorem epoch_le_of_next (h : Next maxEpoch state after) : state.epoch ≤ after.epoch := by
  rcases h with hRotate | hRevoke
  · rw [hRotate.2.1]
    exact Nat.le_succ _
  · exact hRevoke.2.2.2.ge

/-- The epoch is no later one, and not active. Its own bound on the epoch is what
makes it stable. -/
def Retired (epoch : ℕ) (state : State) : Prop := epoch ≤ state.epoch ∧ epoch ∉ state.active

/-- What has stopped being active does not become active again, since rotations only
bring in later epochs. -/
theorem stable_retired (epoch : ℕ) : (Spec maxEpoch).Stable (Retired epoch) := by
  intro state after h hNext
  refine ⟨h.1.trans (epoch_le_of_next hNext), ?_⟩
  rcases hNext with hRotate | hRevoke
  · rw [hRotate.2.2.1, Finset.mem_singleton]
    have hPast := h.1
    omega
  · rw [hRevoke.2.2.1]
    exact Finset.notMem_empty epoch

/-- In every run no revoked epoch is active, and nothing but the current one is; the
epoch never falls, and one that has stopped being active stays so. The bound on epochs
plays no part. -/
theorem lifecycle_safe (maxEpoch : ℕ) (states : ℕ → State)
    (h : (Spec maxEpoch).Behaviour states) :
    (∀ time, NoRevokedActive (states time) ∧ OnlyCurrentActive (states time)) ∧
    (Monotone fun time => (states time).epoch) ∧
    ∀ earlier time later, earlier ≤ time → time ≤ later →
      ∀ epoch ∈ (states earlier).active, epoch ∉ (states time).active →
        epoch ∉ (states later).active := by
  have hSound := h.always (fun _ => Sound.of_init) stable_sound
  have hMonotone : Monotone fun time => (states time).epoch :=
    h.monotone fun _ _ => epoch_le_of_next
  refine ⟨fun time => ⟨(hSound time).disjoint, (hSound time).active⟩, hMonotone, ?_⟩
  intro earlier time later hEarlier hLater epoch hActive hInactive
  have hPast : epoch ≤ (states time).epoch := by
    rw [(hSound earlier).active_eq hActive]
    exact hMonotone hEarlier
  exact (h.stays (stable_retired epoch) hLater ⟨hPast, hInactive⟩).2

/-- One rotation, then a revocation, and nothing after it. Every step but two is a
stutter. -/
def rotatedAndRevoked : ℕ → State
  | 0 => ⟨1, {1}, ∅⟩
  | 1 => ⟨2, {2}, ∅⟩
  | _ => ⟨2, ∅, {2}⟩

/-- A run that rotates and revokes: the second epoch never becomes active again. -/
theorem lifecycle_safe_sample :
    2 ∈ (rotatedAndRevoked 1).active ∧ ∀ later, 2 ≤ later → 2 ∉ (rotatedAndRevoked later).active := by
  have hRun : (Spec 2).Behaviour rotatedAndRevoked := by
    refine ⟨⟨rfl, rfl, rfl⟩, fun time => ?_⟩
    match time with
    | 0 => exact Or.inl (Or.inl ⟨by decide, rfl, rfl, rfl⟩)
    | 1 => exact Or.inl (Or.inr ⟨by decide, by decide, rfl, rfl⟩)
    | _ + 2 => exact Or.inr rfl
  obtain ⟨-, -, hRetired⟩ := lifecycle_safe 2 rotatedAndRevoked hRun
  exact ⟨by decide, fun later hLater =>
    hRetired 1 2 later (by decide) hLater 2 (by decide) (by decide)⟩

end Tfws.KeyLifecycle
