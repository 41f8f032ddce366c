import Tfws.Python.EventRuns
import Tfws.Python.MerkleRoot
import Tfws.Python.Transparency

/-! `event-append` and `event-verify` of `tfws3/cli.py`: what a history of appends
leaves behind, and what two auditors of a log may conclude from the checkpoints
that its witnesses have signed. -/
namespace Tfws.Python

open Fallible Ballots

/-- The arguments of `event-append`, with the identifier and the time that the
call draws. -/
structure AppendArguments where
  eventId : String
  occurredAt : String
  type : String
  subject : String
  payload : String

/-- `json.loads(args.payload)`. A payload with half a surrogate pair is given up
here, and not when the event is written. -/
def loadsPayload (runtime : EventRuntime) (payload : String) : Result Object :=
  match Json.Value.parse payload.toList with
  | none => .error (.valueError "Expecting value")
  | some value =>
      match Object.ofJson runtime.float value with
      | some object => .ok object
      | none => .error (.valueError "surrogates not allowed")

/-- The event that a command asks for, once its payload has been read. -/
def AppendArguments.draft (arguments : AppendArguments) (payload : Object) : EventDraft where
  eventId := arguments.eventId
  occurredAt := arguments.occurredAt
  eventType := .str arguments.type
  subject := .str arguments.subject
  payload := payload
  privateDetails := []

/-- The event that is printed, and the file that is left, or the exception that ends
the command. -/
def eventAppend (runtime : EventRuntime) (file : Option Bytes) (arguments : AppendArguments) :
    Result (Object × Bytes) := do
  let payload ← loadsPayload runtime arguments.payload
  appendEvent runtime file (arguments.draft payload)

/-- What `event-verify` prints of a log that it accepts. Of others it prints
nothing. -/
structure LogReport where
  valid : Bool
  events : Nat
  merkleRoot : String
  deriving DecidableEq

/-- `event-verify`, on the octets of a file that exists; it raises an error where
there is none. -/
def eventVerify (runtime : EventRuntime) (file : Bytes) : Result LogReport := do
  let events ← readEvents runtime file
  verifyChain runtime events
  let root ← merkleRoot runtime events
  .ok { valid := true, events := events.length, merkleRoot := root }

/-- Appends one after the other: the file that they leave, and the events that
those print which do not end with an error. Such a command has written nothing. -/
def appendAll (runtime : EventRuntime) (file : Option Bytes) :
    List AppendArguments → Option Bytes × List Object
  | [] => (file, [])
  | arguments :: rest =>
      match eventAppend runtime file arguments with
      | .error _ => appendAll runtime file rest
      | .ok (event, after) =>
          ((appendAll runtime (some after) rest).1, event :: (appendAll runtime (some after) rest).2)

section Histories

variable {runtime : EventRuntime} {file : Option Bytes} {objects : List Object}

/-- A log that an append can continue: it is accepted, and its last line is
complete. -/
structure KeepsLog (runtime : EventRuntime) (file : Option Bytes) (objects : List Object) :
    Prop where
  holds : HoldsLog runtime file objects
  closed : EndsInSpaces (file.getD [])

/-- No file is such a log, and an empty one, so that a history may begin with it. -/
theorem keepsLog_none : KeepsLog runtime none [] := ⟨⟨rfl, rfl⟩, endsInSpaces_nil⟩

/-- What one append does to such a log: it leaves another, with one event more. -/
theorem KeepsLog.append (h : KeepsLog runtime file objects) {arguments : AppendArguments}
    {event : Object} {after : Bytes}
    (hAppend : eventAppend runtime file arguments = .ok (event, after)) :
    ∃ last, SameValue last event ∧ KeepsLog runtime (some after) (objects ++ [last]) ∧
      file.getD [] <+: after := by
  obtain ⟨payload, -, hAppend⟩ := bind_eq_ok.mp hAppend
  obtain ⟨line, hPrepare, rfl⟩ := appendEvent_eq_ok.mp hAppend
  obtain ⟨⟨last, hReads, hSame, hChain⟩, hKept⟩ :=
    appendEvent_extends h.holds.reads hPrepare h.closed
  exact ⟨last, hSame, ⟨⟨hReads, hChain⟩, endsInSpaces_appendLine hPrepare⟩, hKept⟩

/-- What a history of appends does to it: the events that were printed stand behind
those before, in order. Commands that failed left no trace. -/
theorem KeepsLog.appendAll (h : KeepsLog runtime file objects) (calls : List AppendArguments) :
    ∃ added, List.Forall₂ SameValue added (appendAll runtime file calls).2 ∧
      KeepsLog runtime (appendAll runtime file calls).1 (objects ++ added) ∧
      file.getD [] <+: (appendAll runtime file calls).1.getD [] := by
  induction calls generalizing file objects with
  | nil =>
      refine ⟨[], .nil, ?_, List.prefix_rfl⟩
      rw [List.append_nil]
      exact h
  | cons arguments rest ih =>
      rw [Python.appendAll]
      split
      · exact ih h
      · rename_i event after hAppend
        obtain ⟨last, hSame, hNext, hKept⟩ := h.append hAppend
        obtain ⟨added, hAdded, hFinal, hRest⟩ := ih hNext
        refine ⟨last :: added, .cons hSame hAdded, ?_, hKept.trans hRest⟩
        rw [List.append_cons]
        exact hFinal

/-- An accepted log has a Merkle root, since every event of it has a canonical
text. -/
theorem HoldsLog.root (h : HoldsLog runtime file objects) :
    ∃ root, merkleRoot runtime objects = .ok root := by
  obtain ⟨events, values, rfl, hValues, -⟩ := h.events
  exact ⟨_, merkleRoot_of_stands hValues⟩

/-- A report is printed exactly of an accepted log, with its number of events and its
root. -/
theorem eventVerify_eq_ok {octets : Bytes} {report : LogReport} :
    eventVerify runtime octets = .ok report ↔ ∃ objects, HoldsLog runtime (some octets) objects ∧
      report.valid = true ∧ report.events = objects.length ∧
        merkleRoot runtime objects = .ok report.merkleRoot := by
  simp only [eventVerify, bind_eq_ok, Except.ok.injEq]
  constructor
  · intro h
    obtain ⟨objects, hReads, _, hChain, root, hRoot, rfl⟩ := h
    exact ⟨objects, ⟨hReads, hChain⟩, rfl, rfl, hRoot⟩
  · intro h
    obtain ⟨objects, hHolds, hValid, hEvents, hRoot⟩ := h
    refine ⟨objects, hHolds.reads, (), hHolds.accepted, report.merkleRoot, hRoot, ?_⟩
    rw [← hValid, ← hEvents]

/-- A command whose arguments make up a draft does with the log what `append_event`
does with that draft. -/
theorem eventAppend_of_prepared {arguments : AppendArguments} {payload : Object}
    {draft : EventDraft} {event : Object} {line : Bytes}
    (hLoads : loadsPayload runtime arguments.payload = .ok payload)
    (hDraft : arguments.draft payload = draft)
    (hPrepare : prepareEvent runtime file draft = .ok (event, line)) :
    eventAppend runtime file arguments = .ok (event, appendLine file line) := by
  subst hDraft
  exact bind_eq_ok.mpr ⟨payload, hLoads, appendEvent_eq_ok.mpr ⟨line, hPrepare, rfl⟩⟩

/-- A history whose first command succeeds goes on with the file that it left. -/
theorem appendAll_cons {arguments : AppendArguments} {event : Object} {after : Bytes}
    (h : eventAppend runtime file arguments = .ok (event, after)) (rest : List AppendArguments) :
    appendAll runtime file (arguments :: rest) =
      ((appendAll runtime (some after) rest).1,
        event :: (appendAll runtime (some after) rest).2) := by
  rw [appendAll, h]

/-- `event-verify` on what a history of appends has left of a kept log. -/
theorem KeepsLog.verified {octets : Bytes} {added printed : List Object}
    (h : KeepsLog runtime (some octets) (objects ++ added))
    (hAdded : List.Forall₂ SameValue added printed) :
    readEvents runtime octets = .ok (objects ++ added) ∧
      ∃ root, eventVerify runtime octets =
        .ok { valid := true, events := objects.length + printed.length, merkleRoot := root } := by
  obtain ⟨root, hRoot⟩ := h.holds.root
  refine ⟨h.holds.reads, root, ?_⟩
  rw [eventVerify_eq_ok]
  refine ⟨objects ++ added, h.holds, rfl, ?_, hRoot⟩
  rw [List.length_append, hAdded.length_eq]

/-- A history leaves no file only where there was none and it printed nothing. -/
theorem appendAll_eq_none (calls : List AppendArguments) :
    (appendAll runtime file calls).1 = none ↔
      file = none ∧ (appendAll runtime file calls).2 = [] := by
  induction calls generalizing file with
  | nil => exact (and_iff_left rfl).symm
  | cons arguments rest ih =>
      rw [appendAll]
      split
      · exact ih
      · rename_i event after hAppend
        rw [ih]
        constructor
        · intro h
          cases h.1
        · intro h
          cases h.2

/-- A history of appends to a log that an append can continue leaves a file as
soon as there was one or an event was printed. That file begins with all octets
of the one before; its events are those before and, behind them and in order, one
for each that was printed, and `event-verify` reports their number. The theorem
does not say that any append succeeds. -/
theorem eventVerify_appendAll (runtime : EventRuntime) (file : Option Bytes)
    (objects : List Object) (h : KeepsLog runtime file objects) (calls : List AppendArguments) :
    ((appendAll runtime file calls).1 = none ↔
      file = none ∧ (appendAll runtime file calls).2 = []) ∧
    ∃ added, List.Forall₂ SameValue added (appendAll runtime file calls).2 ∧
      ∀ octets, (appendAll runtime file calls).1 = some octets →
        file.getD [] <+: octets ∧ readEvents runtime octets = .ok (objects ++ added) ∧
          ∃ root, eventVerify runtime octets =
            .ok { valid := true,
                  events := objects.length + (appendAll runtime file calls).2.length,
                  merkleRoot := root } := by
  obtain ⟨added, hAdded, hFinal, hKept⟩ := h.appendAll calls
  refine ⟨appendAll_eq_none calls, added, hAdded, fun octets hOctets => ?_⟩
  rw [hOctets] at hFinal hKept
  exact ⟨hKept, hFinal.verified hAdded⟩

end Histories

/-- The call that registers a publisher, as its arguments are typed. -/
def AppendArguments.registered : AppendArguments where
  eventId := EventDraft.registered.eventId
  occurredAt := EventDraft.registered.occurredAt
  type := "publisher_registered"
  subject := "https://example.com"
  payload := "\x7b\"v\":1\x7d"

/-- The call that rotates its key, as its arguments are typed. -/
def AppendArguments.rotated : AppendArguments where
  eventId := EventDraft.rotated.eventId
  occurredAt := EventDraft.rotated.occurredAt
  type := "key_rotated"
  subject := "https://example.com"
  payload := "\x7b\"epoch\":2\x7d"

/-- A payload of one integer under one name, written without spaces, is read as a
dictionary. -/
theorem loadsPayload_single {payload name : String} {number : Int}
    (hText : payload.toList = (Json.Value.object [(name, .int number)]).write) :
    loadsPayload .sample payload = .ok (.dict [(.str name, .int number)]) := by
  have hPlain : (Json.Value.object [(name, .int number)]).Plain := by
    apply Json.Value.Plain.object
    · intro entry hEntry
      rw [List.mem_singleton] at hEntry
      rw [hEntry]
      exact .int
  have hParse := Json.Value.parse_write hPlain (List.forall_mem_nil _) (List.forall_mem_nil _)
  rw [List.nil_append, List.append_nil] at hParse
  rw [loadsPayload, hText, hParse]
  rfl

theorem loadsPayload_registered : loadsPayload .sample AppendArguments.registered.payload =
    .ok EventDraft.registered.payload :=
  loadsPayload_single (by decide)

theorem loadsPayload_rotated : loadsPayload .sample AppendArguments.rotated.payload =
    .ok EventDraft.rotated.payload :=
  loadsPayload_single (by decide)

/-- Two events, appended one after the other to no file: the log that they leave holds
both. -/
theorem eventVerify_appendAll_sample : ∃ octets root,
    (appendAll .sample none [.registered, .rotated]).1 = some octets ∧
      eventVerify .sample octets = .ok { valid := true, events := 2, merkleRoot := root } := by
  have hRegistered := eventAppend_of_prepared loadsPayload_registered rfl prepareEvent_registered
  rw [appendLine_none] at hRegistered
  obtain ⟨-, event, line, -, -, hPrepare⟩ := prepareEvent_rotated
  have hRotated := eventAppend_of_prepared loadsPayload_rotated rfl hPrepare
  obtain ⟨-, added, -, hLeft⟩ :=
    eventVerify_appendAll .sample none [] keepsLog_none [.registered, .rotated]
  rw [appendAll_cons hRegistered, appendAll_cons hRotated] at hLeft ⊢
  obtain ⟨-, -, root, hReport⟩ := hLeft _ rfl
  exact ⟨_, root, rfl, hReport⟩

section Auditors

variable {runtime : EventRuntime} {allowedWitnesses : Finset String} {left right : Bytes}

/-- The two files hold the same events, one by one; their octets may differ. -/
def SameLog (runtime : EventRuntime) (left right : Bytes) : Prop :=
  ∃ leftObjects rightObjects, readEvents runtime left = .ok leftObjects ∧
    readEvents runtime right = .ok rightObjects ∧ List.Forall₂ SameValue leftObjects rightObjects

/-- What is hashed for the root of a file. The digest need be injective on these
messages only. -/
def auditedMessages (runtime : EventRuntime) (file : Bytes) : Set Bytes :=
  {message | ∃ objects, readEvents runtime file = .ok objects ∧
    message ∈ merkleMessages runtime objects}

/-- Accepted logs with one root hold the same events, as long as digests do not
collide. -/
theorem sameLog_of_root (hLength : ∀ message, (runtime.sha256 message).length = 32)
    (hInjective : Set.InjOn runtime.sha256
      (auditedMessages runtime left ∪ auditedMessages runtime right))
    {leftObjects rightObjects : List Object} {root : String}
    (hLeft : HoldsLog runtime (some left) leftObjects)
    (hRight : HoldsLog runtime (some right) rightObjects)
    (hLeftRoot : merkleRoot runtime leftObjects = .ok root)
    (hRightRoot : merkleRoot runtime rightObjects = .ok root) : SameLog runtime left right := by
  have hLeftMessages {message : Bytes} (hMessage : message ∈ merkleMessages runtime leftObjects) :
      message ∈ auditedMessages runtime left ∪ auditedMessages runtime right :=
    Or.inl ⟨leftObjects, hLeft.reads, hMessage⟩
  have hRightMessages {message : Bytes} (hMessage : message ∈ merkleMessages runtime rightObjects) :
      message ∈ auditedMessages runtime left ∪ auditedMessages runtime right :=
    Or.inr ⟨rightObjects, hRight.reads, hMessage⟩
  have hReads := hLeft.reads
  have hOtherReads := hRight.reads
  obtain ⟨events, -, rfl, -, -⟩ := hLeft.events
  obtain ⟨others, -, rfl, -, -⟩ := hRight.events
  obtain ⟨values, hValues, hMessages, rfl⟩ := merkleRoot_eq_ok hLeftRoot
  obtain ⟨otherValues, hOthers, hOtherMessages, hTop⟩ := merkleRoot_eq_ok hRightRoot
  rw [hMessages] at hLeftMessages
  rw [hOtherMessages] at hRightMessages
  have hTexts := texts_eq_of_merkleTop hInjective hLength (fun _ => hLeftMessages)
    (fun _ => hRightMessages) (texts_braced hValues) (texts_braced hOthers)
    (Or.inr ⟨texts_nodup hValues hLeft.accepted, texts_nodup hOthers hRight.accepted⟩)
    (hexdigest_injective hTop)
  have hSame := Traversal.eq_of_map jsonText_injOn (plain_of_stands hValues)
    (plain_of_stands hOthers) hTexts
  have hEvents := sameValues_of_stands hValues (hSame ▸ hOthers)
  refine ⟨_, _, hReads, hOtherReads, ?_⟩
  rw [List.forall₂_map_left_iff, List.forall₂_map_right_iff]
  exact hEvents

/-- The witnesses behind a quorum, who are allowed and have signed the checkpoint. -/
theorem supporters_of_quorum {repr : String → String} {checkpoint : Checkpoint}
    {statements : List WitnessStatement} {minimum : Int} {quorum : Quorum}
    (h : verifyWitnessQuorum repr checkpoint statements minimum allowedWitnesses = .ok quorum) :
    minimum ≤ (supporters checkpoint allowedWitnesses statements).card ∧
      supporters checkpoint allowedWitnesses statements ⊆ allowedWitnesses := by
  obtain ⟨-, -, -, hEnough, -⟩ := verifyWitnessQuorum_eq_ok.mp h
  refine ⟨hEnough, fun witness hWitness => ?_⟩
  exact ((mem_supporters witness).mp hWitness).1

/-- Two auditors whose logs have the roots of two checkpoints of one tree, each
with a quorum, hold the same events. Or else the checkpoints are incompatible,
and there are at least twice the quorum less all witnesses that signed both. -/
theorem auditors_agree (runtime : EventRuntime)
    (hLength : ∀ message, (runtime.sha256 message).length = 32) (leftFile rightFile : Bytes)
    (hInjective : Set.InjOn runtime.sha256
      (auditedMessages runtime leftFile ∪ auditedMessages runtime rightFile))
    (repr : String → String) (allowedWitnesses : Finset String) (minimum : Int)
    (left right : Checkpoint) (leftStatements rightStatements : List WitnessStatement)
    (leftQuorum rightQuorum : Quorum) (leftReport rightReport : LogReport)
    (hLeft : verifyWitnessQuorum repr left leftStatements minimum allowedWitnesses =
      .ok leftQuorum)
    (hRight : verifyWitnessQuorum repr right rightStatements minimum allowedWitnesses =
      .ok rightQuorum)
    (hTree : left.SameTree right) (hLeftReport : eventVerify runtime leftFile = .ok leftReport)
    (hRightReport : eventVerify runtime rightFile = .ok rightReport)
    (hLeftRoot : leftReport.merkleRoot = left.rootHash)
    (hRightRoot : rightReport.merkleRoot = right.rootHash) :
    SameLog runtime leftFile rightFile ∨
    (detectIncompatibleCheckpoints left right = .ok true ∧
      ∃ equivocators : Finset String, equivocators ⊆ allowedWitnesses ∧
        2 * minimum ≤ allowedWitnesses.card + equivocators.card ∧
        ∀ witness ∈ equivocators, witness ∈ Supporters left allowedWitnesses leftStatements ∧
          witness ∈ Supporters right allowedWitnesses rightStatements) := by
  obtain ⟨leftObjects, hLeftHolds, -, -, hLeftMerkle⟩ := eventVerify_eq_ok.mp hLeftReport
  obtain ⟨rightObjects, hRightHolds, -, -, hRightMerkle⟩ := eventVerify_eq_ok.mp hRightReport
  rw [hLeftRoot] at hLeftMerkle
  rw [hRightRoot] at hRightMerkle
  by_cases hRoots : left.rootHash = right.rootHash
  · left
    rw [← hRoots] at hRightMerkle
    exact sameLog_of_root hLength hInjective hLeftHolds hRightHolds hLeftMerkle hRightMerkle
  · right
    obtain ⟨hLeftFormed, -⟩ := verifyWitnessQuorum_eq_ok.mp hLeft
    obtain ⟨hRightFormed, -⟩ := verifyWitnessQuorum_eq_ok.mp hRight
    obtain ⟨hLeftEnough, hLeftAllowed⟩ := supporters_of_quorum hLeft
    obtain ⟨hRightEnough, hRightAllowed⟩ := supporters_of_quorum hRight
    have hOverlap := card_add_card_le hLeftAllowed hRightAllowed
    refine ⟨detectIncompatibleCheckpoints_eq_true.mpr ⟨hLeftFormed, hRightFormed, hTree, hRoots⟩,
      supporters left allowedWitnesses leftStatements ∩
        supporters right allowedWitnesses rightStatements,
      Finset.inter_subset_left.trans hLeftAllowed, ?_, ?_⟩
    · omega
    · intro witness hWitness
      obtain ⟨hInLeft, hInRight⟩ := Finset.mem_inter.mp hWitness
      exact ⟨(mem_supporters witness).mp hInLeft, (mem_supporters witness).mp hInRight⟩

end Auditors

/-- The publisher's other history, which opens with another event at the same
place. -/
def Event.forked : Event := EventDraft.rotated.asEvent (.ofTable [emptyRow]) 0 none

def forkedHash : String := "e10e52cf7de70bbc0d4dab138644f47da9c25ecf14cc8bb459118c205c29293e"

/-- A runtime with the digests of the two first events, which differ. -/
def EventRuntime.forked : EventRuntime :=
  .ofTable [(Event.registered.text, registeredHash), (Event.forked.text, forkedHash)]

theorem EventRuntime.length_forked (message : Bytes) :
    (EventRuntime.forked.sha256 message).length = 32 := by
  refine length_ofTable ?_
  simp only [List.forall_mem_cons]
  exact ⟨by decide, by decide, List.forall_mem_nil _⟩

theorem Event.forked_stands (runtime : EventRuntime) :
    ∃ value, forked.Stands value ∧ (eventChain runtime).position value 0 ∧
      (eventChain runtime).link value none := by
  obtain ⟨value, hStands⟩ :=
    EventDraft.rotated_stands (.ofTable [emptyRow]) 0 (Or.inl rfl) none
  exact ⟨value, hStands, EventDraft.linked_asEvent hStands runtime⟩

/-- The two events are distinguished by their identifiers, so that the histories are
not the same. -/
theorem not_sameValue_forked : ¬SameValue Event.registered.object Event.forked.object := by
  intro h
  obtain ⟨value, hRegistered, hForked⟩ := h
  obtain ⟨item, hItem, hJson⟩ := Event.getField_json hRegistered "event_id"
  obtain ⟨other, hOther, hOtherJson⟩ := Event.getField_json hForked "event_id"
  obtain rfl : .str EventDraft.registered.eventId = item := Except.ok.inj hItem
  obtain rfl : .str EventDraft.rotated.eventId = other := Except.ok.inj hOther
  have hSame := Option.some.inj (hJson.trans hOtherJson.symm)
  exact absurd (Json.Value.string.inj hSame) (by decide)

theorem Event.registered_text_ne_forked : registered.text ≠ forked.text := by
  obtain ⟨first, hFirst, -⟩ := Event.registered_stands .sample
  obtain ⟨second, hSecond, -⟩ := Event.forked_stands .sample
  intro hSame
  rw [hFirst.text_eq, hSecond.text_eq] at hSame
  obtain rfl := jsonText_injective hFirst.inProfile.plain hSecond.inProfile.plain hSame
  exact not_sameValue_forked ⟨first, hFirst.json, hSecond.json⟩

theorem EventRuntime.forked_registered :
    EventRuntime.forked.sha256 Event.registered.text = octetsOf registeredHash :=
  ofTable_self

theorem EventRuntime.forked_forked :
    EventRuntime.forked.sha256 Event.forked.text = octetsOf forkedHash :=
  (ofTable_of_ne Event.registered_text_ne_forked).trans ofTable_self

/-- A file that holds one event, with the value of `original`: its root is the
digest of that event, and nothing else is hashed for it. -/
structure AuditedAs (runtime : EventRuntime) (file : Bytes) (original : Event)
    (digits : String) : Prop where
  reads : ∃ event : Event, SameValue event.object original.object ∧
    readEvents runtime file = .ok ([event].map Event.object)
  report : eventVerify runtime file = .ok { valid := true, events := 1, merkleRoot := digits }
  messages : auditedMessages runtime file = {original.text}

section FirstEvent

variable {runtime : EventRuntime} {original : Event} {digits : String}

theorem auditedAs_of_reads {file : Bytes} {event : Event} {value : Json.Value}
    (hReads : readEvents runtime file = .ok ([event].map Event.object))
    (hEvent : event.Stands value) (hOriginal : original.Stands value)
    (hPosition : (eventChain runtime).position value 0)
    (hLink : (eventChain runtime).link value none)
    (hDigest : runtime.sha256 original.text = octetsOf digits)
    (hDigits : hexdigest (octetsOf digits) = digits) :
    AuditedAs runtime file original digits := by
  have hValues : List.Forall₂ Event.Stands [event] [value] := .cons hEvent .nil
  have hChain : verifyChain runtime ([event].map Event.object) = .ok () :=
    verifyChain_eq_ok.mpr ⟨_, hValues, hPosition, hLink, trivial⟩
  have hRoot : merkleRoot runtime ([event].map Event.object) = .ok digits := by
    rw [merkleRoot_of_stands hValues, List.map_singleton, List.map_singleton,
      ← hOriginal.text_eq, hDigest]
    exact congrArg Except.ok hDigits
  have hMessages : merkleMessages runtime ([event].map Event.object) = [jsonText value] := by
    rw [merkleMessages, texts_eq hValues, hashedMessages, if_neg (by simp)]
    rfl
  refine ⟨⟨event, ⟨value, hEvent.json, hOriginal.json⟩, hReads⟩,
    eventVerify_eq_ok.mpr ⟨_, ⟨hReads, hChain⟩, rfl, rfl, hRoot⟩, ?_⟩
  ext message
  simp only [auditedMessages, hReads, Except.ok.injEq, exists_eq_left', Set.mem_ofPred_eq,
    hMessages, hOriginal.text_eq, List.mem_singleton, Set.mem_singleton_iff]

/-- The canonical text of a first event is such a file, with and without a line
end. -/
theorem auditedAs_text {value : Json.Value} (hOriginal : original.Stands value)
    (hPosition : (eventChain runtime).position value 0)
    (hLink : (eventChain runtime).link value none)
    (hDigest : runtime.sha256 original.text = octetsOf digits)
    (hDigits : hexdigest (octetsOf digits) = digits) :
    AuditedAs runtime original.text original digits ∧
      AuditedAs runtime (original.text ++ [0x0A]) original digits := by
  obtain ⟨fields, rfl, -⟩ := Object.json_dict.mp hOriginal.json
  have hNormal := Object.json_normal hOriginal.json
  obtain ⟨event, hReads, hEvent⟩ := @readEvents_line runtime _ hNormal hOriginal.inProfile
  obtain ⟨closed, hClosedReads, hClosed⟩ :=
    @readEvents_closed runtime [] [] _ rfl endsInSpaces_nil hNormal hOriginal.inProfile
  rw [← hOriginal.text_eq] at hReads hClosedReads
  rw [List.nil_append] at hClosedReads
  exact ⟨auditedAs_of_reads hReads hEvent hOriginal hPosition hLink hDigest hDigits,
    auditedAs_of_reads hClosedReads hClosed hOriginal hPosition hLink hDigest hDigits⟩

/-- Files of two first events that are not the same value are different logs. -/
theorem AuditedAs.not_sameLog {left right : Bytes} {other : Event} {otherDigits : String}
    (hLeft : AuditedAs runtime left original digits)
    (hRight : AuditedAs runtime right other otherDigits)
    (h : ¬SameValue original.object other.object) : ¬SameLog runtime left right := by
  intro hSame
  obtain ⟨leftObjects, rightObjects, hLeftReads, hRightReads, hValues⟩ := hSame
  obtain ⟨first, ⟨value, hFirst, hOriginal⟩, hFirstReads⟩ := hLeft.reads
  obtain ⟨second, ⟨otherValue, hSecond, hOther⟩, hSecondReads⟩ := hRight.reads
  obtain rfl := Except.ok.inj (hFirstReads.symm.trans hLeftReads)
  obtain rfl := Except.ok.inj (hSecondReads.symm.trans hRightReads)
  obtain ⟨⟨both, hBoth, hBothOther⟩, -⟩ := List.forall₂_cons.mp hValues
  obtain rfl := Option.some.inj (hFirst.symm.trans hBoth)
  obtain rfl := Option.some.inj (hSecond.symm.trans hBothOther)
  exact h ⟨_, hOriginal, hOther⟩

end FirstEvent

theorem audited_registered : AuditedAs .forked Event.registered.text .registered registeredHash ∧
    AuditedAs .forked (Event.registered.text ++ [0x0A]) .registered registeredHash := by
  obtain ⟨value, hStands, hPosition, hLink⟩ := Event.registered_stands .forked
  exact auditedAs_text hStands hPosition hLink EventRuntime.forked_registered (by decide)

theorem audited_forked : AuditedAs .forked Event.forked.text .forked forkedHash := by
  obtain ⟨value, hStands, hPosition, hLink⟩ := Event.forked_stands .forked
  exact (auditedAs_text hStands hPosition hLink EventRuntime.forked_forked (by decide +kernel)).1

/-- A checkpoint of a log of one event, with any root. -/
def Checkpoint.single (rootHash : String) : Checkpoint where
  logId := "log"
  treeSize := 1
  rootHash := rootHash
  timestamp := "2026-07-21T00:00:02Z"

/-- The statement of a witness on the tree of one event, validly signed. -/
def WitnessStatement.single (rootHash witness : String) : WitnessStatement where
  witnessId := witness
  checkpoint := .single rootHash
  validSignature := true

/-- The quorum of two witnesses behind such a checkpoint, for whatever witnesses are
allowed. -/
theorem verifyWitnessQuorum_single {rootHash first second : String}
    {allowedWitnesses : Finset String} (hFormed : (Checkpoint.single rootHash).WellFormed)
    (hEnough : 2 ≤ (supporters (.single rootHash) allowedWitnesses
      [.single rootHash first, .single rootHash second]).card)
    (hMinimum : (2 : Int) ≤ allowedWitnesses.card) :
    ∃ quorum, verifyWitnessQuorum id (.single rootHash)
      [.single rootHash first, .single rootHash second] 2 allowedWitnesses = .ok quorum := by
  have hAgrees : (Checkpoint.single rootHash).agrees (.single rootHash) = true :=
    Checkpoint.agrees_iff.mpr ⟨rfl, rfl, rfl⟩
  refine ⟨_, verifyWitnessQuorum_eq_ok.mpr
    ⟨hFormed, ⟨by decide, hMinimum⟩, ?_, by exact_mod_cast hEnough, rfl⟩⟩
  simp only [List.forall_mem_cons]
  exact ⟨fun _ => ⟨hFormed, hAgrees⟩, fun _ => ⟨hFormed, hAgrees⟩, List.forall_mem_nil _⟩

/-- Two auditors with one log, one of whose files has a line end more; and two
auditors with the two histories, both of which `v` has signed. -/
theorem auditors_agree_sample :
    SameLog .forked Event.registered.text (Event.registered.text ++ [0x0A]) ∧
    detectIncompatibleCheckpoints (.single registeredHash) (.single forkedHash) = .ok true ∧
      ∃ equivocators : Finset String, equivocators ⊆ {"u", "v", "w"} ∧
        1 ≤ equivocators.card ∧ ∀ witness ∈ equivocators,
          witness ∈ Supporters (.single registeredHash) {"u", "v", "w"}
            [.single registeredHash "u", .single registeredHash "v"] ∧
          witness ∈ Supporters (.single forkedHash) {"u", "v", "w"}
            [.single forkedHash "v", .single forkedHash "w"] := by
  have hRegisteredFormed : (Checkpoint.single registeredHash).WellFormed :=
    Checkpoint.validate_eq_ok.mp (by decide +kernel)
  have hForkedFormed : (Checkpoint.single forkedHash).WellFormed :=
    Checkpoint.validate_eq_ok.mp (by decide +kernel)
  obtain ⟨quorum, hQuorum⟩ := @verifyWitnessQuorum_single registeredHash "u" "v"
    {"u", "v", "w"} hRegisteredFormed (by decide) (by decide)
  obtain ⟨forkedQuorum, hForkedQuorum⟩ := @verifyWitnessQuorum_single forkedHash "v" "w"
    {"u", "v", "w"} hForkedFormed (by decide) (by decide)
  obtain ⟨hText, hClosed⟩ := audited_registered
  have hForked := audited_forked
  constructor
  · have hInjective : Set.InjOn EventRuntime.forked.sha256
        (auditedMessages .forked Event.registered.text ∪
          auditedMessages .forked (Event.registered.text ++ [0x0A])) := by
      rw [hText.messages, hClosed.messages, Set.union_self]
      exact Set.injOn_singleton _ _
    obtain hSame | ⟨hIncompatible, -⟩ := auditors_agree .forked EventRuntime.length_forked _ _
      hInjective id {"u", "v", "w"} 2 _ _ _ _ quorum quorum _ _ hQuorum hQuorum ⟨rfl, rfl⟩
      hText.report hClosed.report rfl rfl
    · exact hSame
    · exact absurd rfl (detectIncompatibleCheckpoints_eq_true.mp hIncompatible).2.2.2
  · have hDigests : octetsOf registeredHash ≠ octetsOf forkedHash := by decide +kernel
    have hInjective : Set.InjOn EventRuntime.forked.sha256
        (auditedMessages .forked Event.registered.text ∪
          auditedMessages .forked Event.forked.text) := by
      rw [hText.messages, hForked.messages, Set.singleton_union, Set.injOn_pair,
        EventRuntime.forked_registered, EventRuntime.forked_forked]
      exact fun hSame => absurd hSame hDigests
    obtain hSame | ⟨hIncompatible, equivocators, hAllowed, hCount, hBoth⟩ :=
      auditors_agree .forked EventRuntime.length_forked _ _ hInjective id {"u", "v", "w"} 2 _ _ _ _
        quorum forkedQuorum _ _ hQuorum hForkedQuorum ⟨rfl, rfl⟩ hText.report hForked.report rfl rfl
    · exact absurd hSame (hText.not_sameLog hForked not_sameValue_forked)
    · have hThree : ({"u", "v", "w"} : Finset String).card = 3 := by decide
      rw [hThree] at hCount
      exact ⟨hIncompatible, equivocators, hAllowed, by omega, hBoth⟩

end Tfws.Python
