import Mathlib.Data.Finset.Sort
import Mathlib.Data.String.Basic
import Tfws.Data.Ballots
import Tfws.Python.Models

/-! Witness quorums of `tfws3/transparency.py`. -/
namespace Tfws.Python

open Fallible Ballots

/-- `Checkpoint`. Nothing ties its root to a log; that is for an auditor to
compare. -/
structure Checkpoint where
  logId : String
  treeSize : Int
  rootHash : String
  timestamp : String
  deriving DecidableEq

/-- `Checkpoint.validate`, which looks at the form alone and not at any log. -/
def Checkpoint.validate (checkpoint : Checkpoint) : Result Unit := do
  failIf (checkpoint.logId = "" ∨ checkpoint.treeSize < 0)
    (.validation "invalid checkpoint identity or size")
  failIf (isLowerHex (.str checkpoint.rootHash) 64 = false)
    (.validation "invalid checkpoint root hash")

/-- What `validate` lets through, condition by condition. The timestamp is not among
them. -/
structure Checkpoint.WellFormed (checkpoint : Checkpoint) : Prop where
  logId : checkpoint.logId ≠ ""
  treeSize : 0 ≤ checkpoint.treeSize
  rootHash : isLowerHex (.str checkpoint.rootHash) 64 = true

/-- `WitnessStatement`, whose signature has been verified by somebody else: a truth
value says how that went. -/
structure WitnessStatement where
  witnessId : String
  checkpoint : Checkpoint
  validSignature : Bool
  deriving DecidableEq

/-- The result of `verify_witness_quorum`, with the witnesses in order. It is returned
only if the quorum is met. -/
structure Quorum where
  valid : Bool
  witnesses : List String
  quorum : Int
  deriving DecidableEq

/-- The candidate names the same log, size and root. The time may be another. -/
def Checkpoint.agrees (candidate checkpoint : Checkpoint) : Bool :=
  candidate.logId = checkpoint.logId && candidate.treeSize = checkpoint.treeSize &&
    candidate.rootHash = checkpoint.rootHash

/-- The loop over the statements; it returns `accepted` and `conflicts`, as far as it
has come. -/
def collectStatements (checkpoint : Checkpoint) (allowedWitnesses : Finset String)
    (accepted : Finset String) (conflicts : List String) :
    List WitnessStatement → Result (Finset String × List String)
  | [] => .ok (accepted, conflicts)
  | statement :: rest =>
      if statement.witnessId ∉ allowedWitnesses ∨ statement.validSignature = false then
        collectStatements checkpoint allowedWitnesses accepted conflicts rest
      else do
        statement.checkpoint.validate
        if statement.checkpoint.agrees checkpoint = false then
          collectStatements checkpoint allowedWitnesses accepted
            (conflicts ++ [statement.witnessId]) rest
        else
          collectStatements checkpoint allowedWitnesses (insert statement.witnessId accepted)
            conflicts rest

/-- The text of a sorted list of strings; `repr` quotes one of them. -/
def sortedTexts (repr : String → String) (texts : List String) : String :=
  "[" ++ ", ".intercalate (((texts.mergeSort (· ≤ ·))).map repr) ++ "]"

/-- `verify_witness_quorum`. A statement that conflicts stops it even if there is a
quorum without it. -/
def verifyWitnessQuorum (repr : String → String) (checkpoint : Checkpoint)
    (statements : List WitnessStatement) (minimum : Int) (allowedWitnesses : Finset String) :
    Result Quorum := do
  checkpoint.validate
  failIf (minimum < 1 ∨ minimum > allowedWitnesses.card) (.policy "invalid witness quorum policy")
  let (accepted, conflicts) ← collectStatements checkpoint allowedWitnesses ∅ [] statements
  failIf (conflicts ≠ [])
    (.policy ("split-view evidence from witnesses: " ++ sortedTexts repr conflicts))
  failIf (accepted.card < minimum)
    (.policy ("witness quorum not met: " ++ toString accepted.card ++ "/" ++ toString minimum))
  .ok { valid := true, witnesses := accepted.sort (· ≤ ·), quorum := minimum }

/-- `detect_incompatible_checkpoints`, which knows two of one log and size but with
different roots. -/
def detectIncompatibleCheckpoints (left right : Checkpoint) : Result Bool := do
  left.validate
  right.validate
  .ok (left.logId = right.logId && left.treeSize = right.treeSize &&
    left.rootHash ≠ right.rootHash)

/-- The statement is one of an allowed witness, and its signature is valid. -/
def WitnessStatement.Counts (allowedWitnesses : Finset String) (statement : WitnessStatement) :
    Prop :=
  statement.witnessId ∈ allowedWitnesses ∧ statement.validSignature = true

instance (allowedWitnesses : Finset String) (statement : WitnessStatement) :
    Decidable (statement.Counts allowedWitnesses) :=
  inferInstanceAs (Decidable (_ ∧ _))

/-- The allowed witnesses that validly signed the checkpoint's log, size and root, as
a set and not by a loop. -/
def Supporters (checkpoint : Checkpoint) (allowedWitnesses : Finset String)
    (statements : List WitnessStatement) : Set String :=
  { witness | witness ∈ allowedWitnesses ∧ ∃ statement ∈ statements,
      statement.witnessId = witness ∧ statement.validSignature = true ∧
        statement.checkpoint.agrees checkpoint = true }

/-- The two checkpoints are of one log at one size, and so should have one root. -/
def Checkpoint.SameTree (left right : Checkpoint) : Prop :=
  left.logId = right.logId ∧ left.treeSize = right.treeSize

/-- The verification ends with the split-view error, whichever witnesses it names.
Other errors do not count. -/
def RaisesSplitView (result : Result Quorum) : Prop :=
  ∃ witnesses, result = .error (.policy ("split-view evidence from witnesses: " ++ witnesses))

/-- Every statement that counts is about the checkpoint. Only then does a verification
reach its quorum. -/
def Unanimous (checkpoint : Checkpoint) (allowedWitnesses : Finset String)
    (statements : List WitnessStatement) : Prop :=
  ∀ statement ∈ statements, statement.Counts allowedWitnesses →
    statement.checkpoint.agrees checkpoint = true

section Quorum

variable {checkpoint : Checkpoint} {allowedWitnesses : Finset String}

/-- Two checkpoints agree in log, size and root; their times may differ, and need not
be looked at. -/
theorem Checkpoint.agrees_iff {candidate : Checkpoint} :
    candidate.agrees checkpoint = true ↔ candidate.logId = checkpoint.logId ∧
      candidate.treeSize = checkpoint.treeSize ∧ candidate.rootHash = checkpoint.rootHash := by
  simp [agrees, and_assoc]

/-- The statement counts and agrees with the checkpoint, so that its witness is in the
quorum. -/
def WitnessStatement.Supports (checkpoint : Checkpoint) (allowedWitnesses : Finset String)
    (statement : WitnessStatement) : Prop :=
  statement.Counts allowedWitnesses ∧ statement.checkpoint.agrees checkpoint = true

instance (checkpoint : Checkpoint) (allowedWitnesses : Finset String) :
    DecidablePred (WitnessStatement.Supports checkpoint allowedWitnesses) :=
  fun _ => inferInstanceAs (Decidable (_ ∧ _))

/-- The witnesses whose statements support the checkpoint, each of them once, as the
loop collects them. -/
def supporters (checkpoint : Checkpoint) (allowedWitnesses : Finset String)
    (statements : List WitnessStatement) : Finset String :=
  voters (WitnessStatement.Supports checkpoint allowedWitnesses) WitnessStatement.witnessId
    statements

/-- The statements that count and differ from the checkpoint, in the order in which
they were given. -/
def dissenting (checkpoint : Checkpoint) (allowedWitnesses : Finset String)
    (statements : List WitnessStatement) : List WitnessStatement :=
  statements.filter fun statement =>
    statement.Counts allowedWitnesses ∧ statement.checkpoint.agrees checkpoint = false

/-- The computed set holds exactly the supporters, however often one of them is
listed. -/
theorem mem_supporters {statements : List WitnessStatement} (witness : String) :
    witness ∈ supporters checkpoint allowedWitnesses statements ↔
      witness ∈ Supporters checkpoint allowedWitnesses statements := by
  rw [supporters, mem_voters]
  constructor
  · intro h
    obtain ⟨statement, hMember, ⟨hCounts, hAgrees⟩, rfl⟩ := h
    exact ⟨hCounts.1, statement, hMember, rfl, hCounts.2, hAgrees⟩
  · intro h
    obtain ⟨hAllowed, statement, hMember, rfl, hValid, hAgrees⟩ := h
    exact ⟨statement, hMember, ⟨⟨hAllowed, hValid⟩, hAgrees⟩, rfl⟩

theorem ncard_supporters {statements : List WitnessStatement} :
    (Supporters checkpoint allowedWitnesses statements).ncard =
      (supporters checkpoint allowedWitnesses statements).card :=
  ncard_eq mem_supporters

/-- Nobody dissents exactly if the statements that count are unanimous, so that one
test decides. -/
theorem dissenting_eq_nil {statements : List WitnessStatement} :
    dissenting checkpoint allowedWitnesses statements = [] ↔
      Unanimous checkpoint allowedWitnesses statements := by
  simp only [dissenting, List.filter_eq_nil_iff, decide_eq_true_eq, not_and, Bool.not_eq_false,
    Unanimous]

/-- The loop ends when all the checkpoints it looks at are well formed; it has added
the witnesses that support the checkpoint to `accepted`, and listed the others. -/
theorem collectStatements_eq_ok {statements : List WitnessStatement} :
    ∀ {accepted accepted' : Finset String} {conflicts conflicts' : List String},
      collectStatements checkpoint allowedWitnesses accepted conflicts statements =
          .ok (accepted', conflicts') ↔
        (∀ statement ∈ statements, statement.Counts allowedWitnesses →
          statement.checkpoint.validate = .ok ()) ∧
        accepted' = accepted ∪ supporters checkpoint allowedWitnesses statements ∧
        conflicts' = conflicts ++ (dissenting checkpoint allowedWitnesses statements).map
          WitnessStatement.witnessId := by
  induction statements with
  | nil =>
      intro accepted accepted' conflicts conflicts'
      rw [collectStatements, Except.ok.injEq, Prod.mk.injEq, @eq_comm _ accepted,
        @eq_comm _ conflicts]
      simp [supporters, dissenting]
  | cons statement rest ih =>
      intro accepted accepted' conflicts conflicts'
      rw [collectStatements, List.forall_mem_cons]
      by_cases hCounts : statement.Counts allowedWitnesses
      · rw [if_neg (by simpa [WitnessStatement.Counts] using hCounts), then_eq_ok, and_assoc]
        apply and_congr (forall_prop_of_true hCounts).symm
        by_cases hAgrees : statement.checkpoint.agrees checkpoint = true
        · have hSupports : statement.Supports checkpoint allowedWitnesses := ⟨hCounts, hAgrees⟩
          rw [if_neg (by simp [hAgrees]), ih]
          simp [supporters, voters_cons_of_counts hSupports, dissenting, hAgrees]
        · have hNot : ¬statement.Supports checkpoint allowedWitnesses := fun h => hAgrees h.2
          rw [if_pos (by simpa using hAgrees), ih]
          simp [supporters, voters_cons_of_not hNot, dissenting, hCounts, hAgrees]
      · rw [if_pos (by simpa [WitnessStatement.Counts, imp_iff_not_or] using hCounts), ih]
        have hNot : ¬statement.Supports checkpoint allowedWitnesses := fun h => hCounts h.1
        simp [supporters, voters_cons_of_not hNot, dissenting, hCounts]

theorem Checkpoint.validate_eq_ok : checkpoint.validate = .ok () ↔ checkpoint.WellFormed := by
  rw [validate, then_eq_ok, failIf_eq_ok, failIf_eq_ok, not_or, not_lt, Bool.not_eq_false]
  constructor
  · intro h
    exact ⟨h.1.1, h.1.2, h.2⟩
  · intro h
    exact ⟨⟨h.logId, h.treeSize⟩, h.rootHash⟩

theorem Checkpoint.validate_eq_error {raised : Exception}
    (h : checkpoint.validate = .error raised) : ∃ text, raised = .validation text := by
  rw [validate, bind_eq_error, failIf_eq_error] at h
  rcases h with ⟨-, rfl⟩ | ⟨-, -, h⟩
  · exact ⟨_, rfl⟩
  · exact ⟨_, (failIf_eq_error.mp h).2.symm⟩

/-- What the verification asks for, and what it returns, in one equivalence. The other
results are read off it. -/
theorem verifyWitnessQuorum_eq_ok {repr : String → String} {statements : List WitnessStatement}
    {minimum : Int} {quorum : Quorum} :
    verifyWitnessQuorum repr checkpoint statements minimum allowedWitnesses = .ok quorum ↔
      checkpoint.WellFormed ∧ (1 ≤ minimum ∧ minimum ≤ allowedWitnesses.card) ∧
      (∀ statement ∈ statements, statement.Counts allowedWitnesses →
        statement.checkpoint.WellFormed ∧ statement.checkpoint.agrees checkpoint = true) ∧
      minimum ≤ (supporters checkpoint allowedWitnesses statements).card ∧
      quorum = { valid := true, quorum := minimum,
                 witnesses := (supporters checkpoint allowedWitnesses statements).sort (· ≤ ·) } := by
  have hBoth : (∀ statement ∈ statements, statement.Counts allowedWitnesses →
      statement.checkpoint.WellFormed ∧ statement.checkpoint.agrees checkpoint = true) ↔
      (∀ statement ∈ statements, statement.Counts allowedWitnesses →
        statement.checkpoint.validate = .ok ()) ∧
      Unanimous checkpoint allowedWitnesses statements := by
    simp only [Checkpoint.validate_eq_ok, Unanimous, imp_and, forall_and]
  rw [hBoth, verifyWitnessQuorum, then_eq_ok, Checkpoint.validate_eq_ok, then_eq_ok, failIf_eq_ok,
    not_or, not_lt, not_lt]
  simp only [bind_eq_ok, Prod.exists, collectStatements_eq_ok, exists_const, failIf_eq_ok,
    not_ne_iff, not_lt, Except.ok.injEq, List.nil_append, Finset.empty_union]
  constructor
  · intro h
    obtain ⟨hCheckpoint, hMinimum, accepted, conflicts, ⟨hValid, rfl, rfl⟩, hConflicts, hEnough,
      hQuorum⟩ := h
    exact ⟨hCheckpoint, hMinimum, ⟨hValid, dissenting_eq_nil.mp (List.map_eq_nil_iff.mp hConflicts)⟩,
      hEnough, hQuorum.symm⟩
  · intro h
    obtain ⟨hCheckpoint, hMinimum, ⟨hValid, hUnanimous⟩, hEnough, hQuorum⟩ := h
    exact ⟨hCheckpoint, hMinimum, _, _, ⟨hValid, rfl, rfl⟩,
      List.map_eq_nil_iff.mpr (dissenting_eq_nil.mpr hUnanimous), hEnough, hQuorum.symm⟩

/-- An accepted quorum: the statements that count all agree, and as many allowed
witnesses as the policy asks for support the checkpoint. -/
theorem verifyWitnessQuorum_ok {repr : String → String} {statements : List WitnessStatement}
    {minimum : Int} {quorum : Quorum}
    (h : verifyWitnessQuorum repr checkpoint statements minimum allowedWitnesses = .ok quorum) :
    Unanimous checkpoint allowedWitnesses statements ∧
      ∃ accepted : Finset String, minimum ≤ accepted.card ∧ accepted ⊆ allowedWitnesses ∧
        ∀ witness ∈ accepted, witness ∈ Supporters checkpoint allowedWitnesses statements := by
  obtain ⟨-, -, hCounted, hEnough, -⟩ := verifyWitnessQuorum_eq_ok.mp h
  have hSupport : ∀ witness ∈ supporters checkpoint allowedWitnesses statements,
      witness ∈ Supporters checkpoint allowedWitnesses statements :=
    fun witness => (mem_supporters witness).mp
  exact ⟨fun statement hMember hCounts => (hCounted statement hMember hCounts).2, _, hEnough,
    fun witness hMember => (hSupport witness hMember).1, hSupport⟩

/-- A valid statement of an allowed witness for another checkpoint stops the
verification, whatever else is in the list. -/
theorem verifyWitnessQuorum_of_conflict {repr : String → String}
    {statements : List WitnessStatement} {minimum : Int} {statement : WitnessStatement}
    (hMember : statement ∈ statements) (hCounts : statement.Counts allowedWitnesses)
    (hDiffers : statement.checkpoint.agrees checkpoint = false) :
    ∃ error,
      verifyWitnessQuorum repr checkpoint statements minimum allowedWitnesses = .error error := by
  cases h : verifyWitnessQuorum repr checkpoint statements minimum allowedWitnesses with
  | error raised => exact ⟨raised, rfl⟩
  | ok quorum =>
      have hAgrees := (verifyWitnessQuorum_ok h).1 statement hMember hCounts
      exact absurd (hDiffers.symm.trans hAgrees) (by simp)

theorem detectIncompatibleCheckpoints_eq_true {left right : Checkpoint} :
    detectIncompatibleCheckpoints left right = .ok true ↔
      left.WellFormed ∧ right.WellFormed ∧ left.SameTree right ∧
        left.rootHash ≠ right.rootHash := by
  rw [detectIncompatibleCheckpoints, then_eq_ok, then_eq_ok, Checkpoint.validate_eq_ok,
    Checkpoint.validate_eq_ok, Except.ok.injEq]
  simp [Checkpoint.SameTree, and_assoc]

theorem Checkpoint.sameTree_of_agrees {candidate : Checkpoint}
    (h : candidate.agrees checkpoint = true) : checkpoint.SameTree candidate :=
  ⟨(agrees_iff.mp h).1.symm, (agrees_iff.mp h).2.1.symm⟩

/-- About one log and size, a statement that differs names another root, and so is
evidence of a split view. -/
theorem incompatible_of_not_unanimous {statements : List WitnessStatement}
    (hSame : ∀ statement ∈ statements, statement.Counts allowedWitnesses →
      checkpoint.SameTree statement.checkpoint)
    (hDissent : ¬Unanimous checkpoint allowedWitnesses statements) :
    ∃ statement ∈ statements, statement.Counts allowedWitnesses ∧
      checkpoint.SameTree statement.checkpoint ∧
      checkpoint.rootHash ≠ statement.checkpoint.rootHash := by
  simp only [Unanimous, not_forall] at hDissent
  obtain ⟨statement, hMember, hCounts, hDiffers⟩ := hDissent
  have hTree := hSame statement hMember hCounts
  refine ⟨statement, hMember, hCounts, hTree, fun hRoot => hDiffers ?_⟩
  exact Checkpoint.agrees_iff.mpr ⟨hTree.1.symm, hTree.2.symm, hRoot.symm⟩

/-- What agrees with a checkpoint differs from every one it is incompatible with. -/
theorem Checkpoint.not_agrees_of_rootHash_ne {candidate other : Checkpoint}
    (hAgrees : candidate.agrees checkpoint = true)
    (hRoots : checkpoint.rootHash ≠ other.rootHash) : candidate.agrees other = false := by
  rw [← Bool.not_eq_true]
  intro hOther
  exact hRoots ((agrees_iff.mp hAgrees).2.2.symm.trans (agrees_iff.mp hOther).2.2)

theorem notMetText_ne (accepted minimum witnesses : String) :
    "witness quorum not met: " ++ accepted ++ "/" ++ minimum ≠
      "split-view evidence from witnesses: " ++ witnesses := by
  intro h
  have hFirst := congrArg (fun text => text.toList.head?) h
  simp at hFirst

/-- Over well-formed checkpoints the split-view error means exactly that some
statement that counts differs from the checkpoint in any of the three fields. -/
theorem raisesSplitView_iff {repr : String → String} {statements : List WitnessStatement}
    {minimum : Int} (hMinimum : 1 ≤ minimum ∧ minimum ≤ allowedWitnesses.card)
    (hStatements : ∀ statement ∈ statements, statement.checkpoint.WellFormed) :
    RaisesSplitView
        (verifyWitnessQuorum repr checkpoint statements minimum allowedWitnesses) ↔
      checkpoint.WellFormed ∧ ¬Unanimous checkpoint allowedWitnesses statements := by
  have hRange : ¬(minimum < 1 ∨ minimum > allowedWitnesses.card) := by omega
  have hCollected : collectStatements checkpoint allowedWitnesses ∅ [] statements =
      .ok (∅ ∪ supporters checkpoint allowedWitnesses statements,
        [] ++ (dissenting checkpoint allowedWitnesses statements).map
          WitnessStatement.witnessId) := by
    apply collectStatements_eq_ok.mpr
    exact ⟨fun statement hMember _ =>
      Checkpoint.validate_eq_ok.mpr (hStatements statement hMember), rfl, rfl⟩
  rw [verifyWitnessQuorum, failIf_of_not hRange, hCollected, ← Checkpoint.validate_eq_ok]
  cases hCheckpoint : checkpoint.validate with
  | error raised =>
      obtain ⟨text, rfl⟩ := Checkpoint.validate_eq_error hCheckpoint
      simp [RaisesSplitView]
  | ok checked =>
      by_cases hUnanimous : Unanimous checkpoint allowedWitnesses statements
      · rw [dissenting_eq_nil.mpr hUnanimous]
        apply iff_of_false
        · intro h
          obtain ⟨witnesses, h⟩ := h
          simp only [ok_bind, List.nil_append, List.map_nil, failIf_ne_self] at h
          rcases bind_eq_error.mp h with h | ⟨-, -, h⟩
          · have hTexts := (Exception.policy.injEq _ _).mp (failIf_eq_error.mp h).2
            exact notMetText_ne _ _ _ hTexts
          · cases h
        · exact fun h => h.2 hUnanimous
      · rw [← dissenting_eq_nil] at hUnanimous
        simp only [ok_bind, List.nil_append]
        rw [failIf_of (mt List.map_eq_nil_iff.mp hUnanimous)]
        exact iff_of_true ⟨_, rfl⟩ ⟨trivial, mt dissenting_eq_nil.mpr hUnanimous⟩

end Quorum

/-- When a quorum is returned, what is in it, and that only the set of the statements
that count matters: not their order, not how often one is repeated, and not what else
is in the list. -/
theorem verifyWitnessQuorum_exact (repr : String → String) (checkpoint : Checkpoint)
    (statements : List WitnessStatement) (minimum : Int) (allowedWitnesses : Finset String) :
    ((∃ quorum,
        verifyWitnessQuorum repr checkpoint statements minimum allowedWitnesses = .ok quorum) ↔
      checkpoint.WellFormed ∧ 1 ≤ minimum ∧ minimum ≤ allowedWitnesses.card ∧
      (∀ statement ∈ statements, statement.Counts allowedWitnesses →
        statement.checkpoint.WellFormed ∧
        statement.checkpoint.logId = checkpoint.logId ∧
        statement.checkpoint.treeSize = checkpoint.treeSize ∧
        statement.checkpoint.rootHash = checkpoint.rootHash) ∧
      minimum ≤ (Supporters checkpoint allowedWitnesses statements).ncard) ∧
    (∀ quorum,
      verifyWitnessQuorum repr checkpoint statements minimum allowedWitnesses = .ok quorum →
      quorum.valid = true ∧ quorum.quorum = minimum ∧ quorum.witnesses.Pairwise (· < ·) ∧
      ∀ witness, witness ∈ quorum.witnesses ↔
        witness ∈ Supporters checkpoint allowedWitnesses statements) ∧
    ∀ others : List WitnessStatement,
      (∀ statement : WitnessStatement, statement.Counts allowedWitnesses →
        (statement ∈ statements ↔ statement ∈ others)) →
      ∀ quorum,
        verifyWitnessQuorum repr checkpoint statements minimum allowedWitnesses = .ok quorum ↔
        verifyWitnessQuorum repr checkpoint others minimum allowedWitnesses = .ok quorum := by
  refine ⟨?_, ?_, ?_⟩
  · simp only [verifyWitnessQuorum_eq_ok, Checkpoint.agrees_iff, ncard_supporters, and_assoc,
      exists_and_left, exists_eq, and_true]
  · intro quorum h
    obtain ⟨-, -, -, -, rfl⟩ := verifyWitnessQuorum_eq_ok.mp h
    refine ⟨rfl, rfl, ?_, ?_⟩
    · exact (Finset.sortedLT_sort (supporters _ _ _)).pairwise
    · intro witness
      rw [Finset.mem_sort, mem_supporters]
  · intro others hSame quorum
    have hCounted : (∀ statement ∈ statements, statement.Counts allowedWitnesses →
          statement.checkpoint.WellFormed ∧ statement.checkpoint.agrees checkpoint = true) ↔
        ∀ statement ∈ others, statement.Counts allowedWitnesses →
          statement.checkpoint.WellFormed ∧ statement.checkpoint.agrees checkpoint = true := by
      apply forall_congr'
      intro statement
      rw [imp.swap, @imp.swap (statement ∈ others)]
      apply imp_congr_right
      intro hCounts
      rw [hSame statement hCounts]
    have hSupporters : supporters checkpoint allowedWitnesses statements =
        supporters checkpoint allowedWitnesses others :=
      voters_congr fun statement hSupports => hSame statement hSupports.1
    rw [verifyWitnessQuorum_eq_ok, verifyWitnessQuorum_eq_ok, hCounted,
      hSupporters]

/-- The checkpoint of one log at one size, with a root hash of one repeated digit. -/
def Checkpoint.sample (digit : Char) : Checkpoint where
  logId := "log"
  treeSize := 2
  rootHash := String.ofList (List.replicate 64 digit)
  timestamp := "2026-01-01T00:00:00Z"

/-- A valid statement of a witness about the root of one digit repeated. -/
def WitnessStatement.sample (digit : Char) (witness : String) : WitnessStatement where
  witnessId := witness
  checkpoint := Checkpoint.sample digit
  validSignature := true

/-- The statement of the first witness about the log one entry later, which is
honest. -/
def WitnessStatement.later : WitnessStatement where
  witnessId := "u"
  checkpoint := { Checkpoint.sample 'b' with treeSize := 3 }
  validSignature := true

theorem Checkpoint.sample_wellFormed : (Checkpoint.sample 'a').WellFormed :=
  validate_eq_ok.mp (by decide)

theorem WitnessStatement.later_wellFormed : later.checkpoint.WellFormed :=
  Checkpoint.validate_eq_ok.mp (by decide)

theorem later_counts : WitnessStatement.later.Counts {"u", "v"} := by decide

theorem not_sameTree_later : ¬(Checkpoint.sample 'a').SameTree WitnessStatement.later.checkpoint :=
  fun h => absurd h.2 (by decide)

/-- The split-view error means what `detect_incompatible_checkpoints` decides
exactly when the checkpoint is malformed, or every statement that counts is
about its log and size, or one of them names another root there. A statement
about another log or another size is reported as split-view evidence too. -/
theorem raisesSplitView_iff_incompatible (repr : String → String) (checkpoint : Checkpoint)
    (statements : List WitnessStatement) (minimum : Int) (allowedWitnesses : Finset String)
    (hMinimum : 1 ≤ minimum ∧ minimum ≤ allowedWitnesses.card)
    (hStatements : ∀ statement ∈ statements, statement.checkpoint.WellFormed) :
    (RaisesSplitView
        (verifyWitnessQuorum repr checkpoint statements minimum allowedWitnesses) ↔
      ∃ statement ∈ statements, statement.Counts allowedWitnesses ∧
        detectIncompatibleCheckpoints checkpoint statement.checkpoint = .ok true) ↔
    (¬checkpoint.WellFormed ∨
      (∀ statement ∈ statements, statement.Counts allowedWitnesses →
        checkpoint.SameTree statement.checkpoint) ∨
      ∃ statement ∈ statements, statement.Counts allowedWitnesses ∧
        checkpoint.SameTree statement.checkpoint ∧
        checkpoint.rootHash ≠ statement.checkpoint.rootHash) := by
  rw [raisesSplitView_iff hMinimum hStatements]
  by_cases hCheckpoint : checkpoint.WellFormed
  · have hDetected : (∃ statement ∈ statements, statement.Counts allowedWitnesses ∧
          detectIncompatibleCheckpoints checkpoint statement.checkpoint = .ok true) ↔
        ∃ statement ∈ statements, statement.Counts allowedWitnesses ∧
          checkpoint.SameTree statement.checkpoint ∧
          checkpoint.rootHash ≠ statement.checkpoint.rootHash := by
      apply exists_congr
      intro statement
      apply and_congr_right
      intro hMember
      rw [detectIncompatibleCheckpoints_eq_true, and_iff_right hCheckpoint,
        and_iff_right (hStatements statement hMember)]
    rw [hDetected, and_iff_right hCheckpoint]
    constructor
    · intro h
      by_cases hUnanimous : Unanimous checkpoint allowedWitnesses statements
      · exact .inr (.inl fun statement hMember hCounts =>
          Checkpoint.sameTree_of_agrees (hUnanimous statement hMember hCounts))
      · exact .inr (.inr (h.mp hUnanimous))
    · intro h
      constructor
      · intro hDissent
        rcases h with h | hSame | hDiffers
        · exact absurd hCheckpoint h
        · exact incompatible_of_not_unanimous hSame hDissent
        · exact hDiffers
      · intro hDiffers hUnanimous
        obtain ⟨statement, hMember, hCounts, -, hRoot⟩ := hDiffers
        exact hRoot (Checkpoint.agrees_iff.mp (hUnanimous statement hMember hCounts)).2.2.symm
  · apply iff_of_true
    · simp [detectIncompatibleCheckpoints_eq_true, hCheckpoint]
    · exact .inl hCheckpoint

/-- One honest statement about the next size counts as split-view evidence, though the
two checkpoints are compatible. -/
theorem raisesSplitView_later :
    ¬∀ (repr : String → String) (checkpoint : Checkpoint) (statements : List WitnessStatement)
        (minimum : Int) (allowedWitnesses : Finset String),
      (1 ≤ minimum ∧ minimum ≤ allowedWitnesses.card) →
      (∀ statement ∈ statements, statement.checkpoint.WellFormed) →
      (RaisesSplitView
          (verifyWitnessQuorum repr checkpoint statements minimum allowedWitnesses) ↔
        ∃ statement ∈ statements, statement.Counts allowedWitnesses ∧
          detectIncompatibleCheckpoints checkpoint statement.checkpoint = .ok true) := by
  intro h
  have hStatements : ∀ statement ∈ [WitnessStatement.later], statement.checkpoint.WellFormed :=
    List.forall_mem_singleton.mpr WitnessStatement.later_wellFormed
  have hRaised : RaisesSplitView
      (verifyWitnessQuorum id (.sample 'a') [WitnessStatement.later] 1 {"u", "v"}) := by
    rw [raisesSplitView_iff (by decide) hStatements]
    refine ⟨Checkpoint.sample_wellFormed, fun hUnanimous => not_sameTree_later ?_⟩
    exact Checkpoint.sameTree_of_agrees (hUnanimous _ (List.mem_singleton_self _) later_counts)
  have hFound := (h id (.sample 'a') [.later] 1 {"u", "v"} (by decide) hStatements).mp hRaised
  obtain ⟨statement, hMember, -, hDetected⟩ := hFound
  rw [List.mem_singleton] at hMember
  subst hMember
  exact not_sameTree_later (detectIncompatibleCheckpoints_eq_true.mp hDetected).2.2.1

theorem raisesSplitView_iff_incompatible_sample :
    (RaisesSplitView (verifyWitnessQuorum id (.sample 'a') [.sample 'b' "u"] 1 {"u", "v"}) ↔
      ∃ statement ∈ [WitnessStatement.sample 'b' "u"], statement.Counts {"u", "v"} ∧
        detectIncompatibleCheckpoints (.sample 'a') statement.checkpoint = .ok true) ↔
    (¬(Checkpoint.sample 'a').WellFormed ∨
      (∀ statement ∈ [WitnessStatement.sample 'b' "u"], statement.Counts {"u", "v"} →
        (Checkpoint.sample 'a').SameTree statement.checkpoint) ∨
      ∃ statement ∈ [WitnessStatement.sample 'b' "u"], statement.Counts {"u", "v"} ∧
        (Checkpoint.sample 'a').SameTree statement.checkpoint ∧
        (Checkpoint.sample 'a').rootHash ≠ statement.checkpoint.rootHash) :=
  raisesSplitView_iff_incompatible id (.sample 'a') [.sample 'b' "u"] 1 {"u", "v"} (by decide)
    (List.forall_mem_singleton.mpr (Checkpoint.validate_eq_ok.mp (by decide)))

/-- Two incompatible checkpoints that both reach a majority quorum share a
witness that signed each of them, and whoever pools the statements behind the
two quorums accepts neither. -/
theorem witnessQuorums_intersect (repr : String → String) (allowedWitnesses : Finset String)
    (minimum : Int) (hMajority : (allowedWitnesses.card : Int) < 2 * minimum)
    (left right : Checkpoint)
    (hIncompatible : detectIncompatibleCheckpoints left right = .ok true)
    (leftStatements rightStatements : List WitnessStatement) (leftQuorum rightQuorum : Quorum)
    (hLeft : verifyWitnessQuorum repr left leftStatements minimum allowedWitnesses =
      .ok leftQuorum)
    (hRight : verifyWitnessQuorum repr right rightStatements minimum allowedWitnesses =
      .ok rightQuorum) :
    (∃ witness, witness ∈ Supporters left allowedWitnesses leftStatements ∧
      witness ∈ Supporters right allowedWitnesses rightStatements) ∧
    ∀ pooled : List WitnessStatement, leftStatements ⊆ pooled → rightStatements ⊆ pooled →
      (∃ error, verifyWitnessQuorum repr left pooled minimum allowedWitnesses = .error error) ∧
      ∃ error, verifyWitnessQuorum repr right pooled minimum allowedWitnesses = .error error := by
  obtain ⟨-, -, -, hRoots⟩ := detectIncompatibleCheckpoints_eq_true.mp hIncompatible
  obtain ⟨-, leftAccepted, hLeftMinimum, hLeftAllowed, hLeftSupport⟩ :=
    verifyWitnessQuorum_ok hLeft
  obtain ⟨-, rightAccepted, hRightMinimum, hRightAllowed, hRightSupport⟩ :=
    verifyWitnessQuorum_ok hRight
  obtain ⟨witness, hBoth⟩ := Finset.inter_nonempty_of_card_lt_card_add_card hLeftAllowed
    hRightAllowed (by omega)
  obtain ⟨hInLeft, hInRight⟩ := Finset.mem_inter.mp hBoth
  have hLeftWitness := hLeftSupport witness hInLeft
  have hRightWitness := hRightSupport witness hInRight
  refine ⟨⟨witness, hLeftWitness, hRightWitness⟩, ?_⟩
  intro pooled hLeftPooled hRightPooled
  obtain ⟨hAllowed, forLeft, hForLeft, rfl, hLeftValid, hLeftAgrees⟩ := hLeftWitness
  obtain ⟨-, forRight, hForRight, hSame, hRightValid, hRightAgrees⟩ := hRightWitness
  have hRightCounts : forRight.Counts allowedWitnesses := ⟨hSame ▸ hAllowed, hRightValid⟩
  constructor
  · exact verifyWitnessQuorum_of_conflict (hRightPooled hForRight) hRightCounts
      (Checkpoint.not_agrees_of_rootHash_ne hRightAgrees hRoots.symm)
  · exact verifyWitnessQuorum_of_conflict (hLeftPooled hForLeft) ⟨hAllowed, hLeftValid⟩
      (Checkpoint.not_agrees_of_rootHash_ne hLeftAgrees hRoots)

/-- Two of three witnesses for each of two roots: the second witness signed both. -/
theorem witnessQuorums_intersect_sample :
    (∃ witness,
      witness ∈ Supporters (.sample 'a') {"u", "v", "w"} [.sample 'a' "u", .sample 'a' "v"] ∧
      witness ∈ Supporters (.sample 'b') {"u", "v", "w"} [.sample 'b' "v", .sample 'b' "w"]) ∧
    ∃ error, verifyWitnessQuorum id (.sample 'a')
      [.sample 'b' "w", .sample 'b' "v", .sample 'a' "v", .sample 'a' "u"] 2 {"u", "v", "w"} =
        .error error := by
  have accepts : ∀ result : Result Quorum, result.isOk = true → ∃ quorum, result = .ok quorum := by
    intro result h
    cases result with
    | error raised => cases h
    | ok quorum => exact ⟨quorum, rfl⟩
  obtain ⟨leftQuorum, hLeft⟩ := accepts (verifyWitnessQuorum id (.sample 'a')
    [.sample 'a' "u", .sample 'a' "v"] 2 {"u", "v", "w"}) (by decide)
  obtain ⟨rightQuorum, hRight⟩ := accepts (verifyWitnessQuorum id (.sample 'b')
    [.sample 'b' "v", .sample 'b' "w"] 2 {"u", "v", "w"}) (by decide +kernel)
  obtain ⟨hWitness, hPooled⟩ := witnessQuorums_intersect id {"u", "v", "w"} 2 (by decide)
    (.sample 'a') (.sample 'b') (by decide) _ _ leftQuorum rightQuorum hLeft hRight
  exact ⟨hWitness, (hPooled _ (by decide) (by decide)).1⟩

end Tfws.Python
