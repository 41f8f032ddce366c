import Mathlib.Data.String.Basic
import Tfws.Data.Ballots
import Tfws.Python.RuntimeModel

/-! Guardian recovery of `tfws3/recovery.py`. -/
namespace Tfws.Python

open Fallible Ballots

/-- `GuardianApproval`, whose signatures have been verified by somebody else: two
truth values say how that went. -/
structure GuardianApproval where
  guardianId : String
  ed25519Valid : Bool
  mlDsa65Valid : Bool
  deriving DecidableEq

/-- `RecoveryRequest`, with its times as texts, which are parsed when it is
evaluated. -/
structure RecoveryRequest where
  subject : String
  oldEpoch : Int
  newEpoch : Int
  reason : String
  createdAt : String
  executeAfter : String

/-- The result of `evaluate_recovery`. It is returned before its time too, and then
does not authorize. -/
structure Recovery where
  authorized : Bool
  timeLockSatisfied : Bool
  approvals : List String
  threshold : Int
  deriving DecidableEq

/-- The approval is one of an allowed guardian, with both signatures valid. Others
change nothing. -/
def GuardianApproval.Counts (allowedGuardians : Finset String) (approval : GuardianApproval) :
    Prop :=
  approval.guardianId ∈ allowedGuardians ∧ approval.ed25519Valid = true ∧
    approval.mlDsa65Valid = true

instance (allowedGuardians : Finset String) :
    DecidablePred (GuardianApproval.Counts allowedGuardians) :=
  fun _ => inferInstanceAs (Decidable (_ ∧ _))

/-- The set `approved`: guardians that are allowed and have signed with both
algorithms. A guardian is in it once, however many approvals there are. -/
def approved (allowedGuardians : Finset String) (approvals : List GuardianApproval) :
    Finset String :=
  voters (GuardianApproval.Counts allowedGuardians) GuardianApproval.guardianId approvals

/-- The instant of `now` in UTC, or what the clock reads without one. -/
def nowInstant (clock : Int) : Option Datetime → Option Int
  | none => some clock
  | some now => now.utc

/-- `evaluate_recovery`; `clock` is the time that `datetime.now` reads. Only the time
lock leads to a refusal that is no error. -/
def evaluateRecovery (runtime : Runtime) (clock : Int) (request : RecoveryRequest)
    (approvals : List GuardianApproval) (allowedGuardians : Finset String) (threshold : Int)
    (now : Option Datetime) : Result Recovery := do
  failIf (request.newEpoch ≤ request.oldEpoch) (.validation "recovery must increase key epoch")
  failIf (stripIsEmpty request.reason = true) (.validation "recovery reason is required")
  let created ← parseRfc3339 runtime (.str request.createdAt)
  let executeAfter ← parseRfc3339 runtime (.str request.executeAfter)
  failIf (executeAfter ≤ created) (.validation "recovery time lock must be positive")
  match nowInstant clock now with
  | none => .error (.overflowError "date value out of range")
  | some now => do
      let approved := approved allowedGuardians approvals
      failIf (threshold < 1 ∨ threshold > allowedGuardians.card)
        (.policy "invalid guardian threshold")
      failIf (approved.card < threshold)
        (.policy ("guardian threshold not met: " ++ toString approved.card ++ "/" ++
          toString threshold))
      .ok { authorized := executeAfter ≤ now, timeLockSatisfied := executeAfter ≤ now,
            approvals := sorted approved, threshold := threshold }

/-- The guardians with one approval that carries both valid signatures. Two approvals
with one signature each do not make one. -/
def ApprovingGuardians (allowedGuardians : Finset String) (approvals : List GuardianApproval) :
    Set String :=
  { guardian | guardian ∈ allowedGuardians ∧ ∃ approval ∈ approvals,
      approval.guardianId = guardian ∧ approval.ed25519Valid = true ∧
        approval.mlDsa65Valid = true }

/-- The conditions of an authorized recovery, at the instant `now`, in the terms of
the request. -/
structure RecoveryConditions (runtime : Runtime) (request : RecoveryRequest)
    (approvals : List GuardianApproval) (allowedGuardians : Finset String) (threshold now : Int) :
    Prop where
  epoch : request.oldEpoch < request.newEpoch
  reason : stripIsEmpty request.reason = false
  timeLock : ∃ created executeAfter,
    parseRfc3339 runtime (.str request.createdAt) = .ok created ∧
      parseRfc3339 runtime (.str request.executeAfter) = .ok executeAfter ∧
      created < executeAfter ∧ executeAfter ≤ now
  policy : 1 ≤ threshold ∧ threshold ≤ allowedGuardians.card
  approvals : threshold ≤ (ApprovingGuardians allowedGuardians approvals).ncard

/-- The evaluation returns, and authorizes; a result that does not is no error. -/
def Authorizes (result : Result Recovery) : Prop :=
  ∃ recovery, result = .ok recovery ∧ recovery.authorized = true

section Guardians

variable {runtime : Runtime} {clock : Int} {request : RecoveryRequest}
  {approvals others : List GuardianApproval} {allowedGuardians : Finset String}
  {threshold : Int} {now : Option Datetime}

/-- The set that is computed holds exactly the guardians who approve. -/
theorem mem_approved (guardian : String) :
    guardian ∈ approved allowedGuardians approvals ↔
      guardian ∈ ApprovingGuardians allowedGuardians approvals := by
  rw [approved, mem_voters]
  constructor
  · intro h
    obtain ⟨approval, hMember, ⟨hAllowed, hBoth⟩, rfl⟩ := h
    exact ⟨hAllowed, approval, hMember, rfl, hBoth⟩
  · intro h
    obtain ⟨hAllowed, approval, hMember, rfl, hBoth⟩ := h
    exact ⟨approval, hMember, ⟨hAllowed, hBoth⟩, rfl⟩

/-- Their number is the one that the threshold is compared with: several approvals of
one guardian count once. -/
theorem ncard_approvingGuardians :
    (ApprovingGuardians allowedGuardians approvals).ncard =
      (approved allowedGuardians approvals).card :=
  ncard_eq mem_approved

/-- An evaluation authorizes exactly under the conditions, at the instant of `now`, if
that is an instant in UTC at all. -/
theorem authorizes_iff :
    Authorizes
        (evaluateRecovery runtime clock request approvals allowedGuardians threshold now) ↔
      ∃ instant, nowInstant clock now = some instant ∧
        RecoveryConditions runtime request approvals allowedGuardians threshold instant := by
  cases hNow : nowInstant clock now with
  | none =>
      simp [Authorizes, evaluateRecovery, hNow, bind_eq_ok]
  | some instant =>
      simp only [Authorizes, evaluateRecovery, hNow, bind_eq_ok, failIf_eq_ok, exists_const,
        not_le, not_or, not_lt, Bool.not_eq_true, Except.ok.injEq, Option.some.injEq,
        exists_eq_left']
      constructor
      · intro h
        obtain ⟨recovery, ⟨hEpoch, hReason, created, hCreated, executeAfter, hExecute, hLock,
          hPolicy, hEnough, rfl⟩, hAuthorized⟩ := h
        exact ⟨hEpoch, hReason, ⟨created, executeAfter, hCreated, hExecute, hLock,
          of_decide_eq_true hAuthorized⟩, hPolicy, by rwa [ncard_approvingGuardians]⟩
      · intro h
        obtain ⟨created, executeAfter, hCreated, hExecute, hLock, hDue⟩ := h.timeLock
        have hEnough := h.approvals
        rw [ncard_approvingGuardians] at hEnough
        exact ⟨_, ⟨h.epoch, h.reason, created, hCreated, executeAfter, hExecute, hLock, h.policy,
          hEnough, rfl⟩, decide_eq_true hDue⟩

/-- Time, a smaller threshold and more approvals never take an authorization away. The
other conditions do not depend on them. -/
theorem RecoveryConditions.mono {instant later smaller : Int}
    (h : RecoveryConditions runtime request approvals allowedGuardians threshold instant)
    (hLater : instant ≤ later) (hPositive : 1 ≤ smaller) (hSmaller : smaller ≤ threshold)
    (hMore : approvals ⊆ others) :
    RecoveryConditions runtime request others allowedGuardians smaller later where
  epoch := h.epoch
  reason := h.reason
  timeLock := by
    obtain ⟨created, executeAfter, hCreated, hExecute, hLock, hDue⟩ := h.timeLock
    exact ⟨created, executeAfter, hCreated, hExecute, hLock, hDue.trans hLater⟩
  policy := ⟨hPositive, hSmaller.trans h.policy.2⟩
  approvals := by
    have hEnough := h.approvals
    rw [ncard_approvingGuardians] at hEnough ⊢
    have hCard : (approved allowedGuardians approvals).card ≤
        (approved allowedGuardians others).card :=
      Finset.card_le_card (voters_subset hMore)
    omega

end Guardians

/-- When a recovery is authorized; that it stays so at every later time, for every
smaller threshold and with any further approvals in any order. -/
theorem evaluateRecovery_authorized (runtime : Runtime) (clock : Int)
    (request : RecoveryRequest) (approvals : List GuardianApproval)
    (allowedGuardians : Finset String) (threshold : Int) (now : Option Datetime) :
    (Authorizes
        (evaluateRecovery runtime clock request approvals allowedGuardians threshold now) ↔
      ∃ instant, nowInstant clock now = some instant ∧
        RecoveryConditions runtime request approvals allowedGuardians threshold instant) ∧
    (∀ (laterClock : Int) (later : Option Datetime) (smaller : Int)
        (others : List GuardianApproval),
      (∀ instant laterInstant, nowInstant clock now = some instant →
        nowInstant laterClock later = some laterInstant → instant ≤ laterInstant) →
      (nowInstant laterClock later).isSome = true →
      1 ≤ smaller → smaller ≤ threshold → approvals ⊆ others →
      Authorizes
        (evaluateRecovery runtime clock request approvals allowedGuardians threshold now) →
      Authorizes
        (evaluateRecovery runtime laterClock request others allowedGuardians smaller later)) ∧
    ∀ others : List GuardianApproval,
      (∀ approval : GuardianApproval, approval.Counts allowedGuardians →
        (approval ∈ approvals ↔ approval ∈ others)) →
      evaluateRecovery runtime clock request others allowedGuardians threshold now =
        evaluateRecovery runtime clock request approvals allowedGuardians threshold now := by
  refine ⟨authorizes_iff, ?_, ?_⟩
  · intro laterClock later smaller others hLater hSome hPositive hSmaller hMore h
    obtain ⟨instant, hInstant, hConditions⟩ := authorizes_iff.mp h
    obtain ⟨laterInstant, hLaterInstant⟩ := Option.isSome_iff_exists.mp hSome
    apply authorizes_iff.mpr
    exact ⟨laterInstant, hLaterInstant, hConditions.mono
      (hLater instant laterInstant hInstant hLaterInstant) hPositive hSmaller hMore⟩
  · intro others hSame
    have hApproved : approved allowedGuardians others = approved allowedGuardians approvals :=
      (voters_congr hSame).symm
    simp only [evaluateRecovery, hApproved]

end Tfws.Python
