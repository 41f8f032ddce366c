import Mathlib.Logic.Relation
import Tfws.Python.EventAppend

/-! Any number of `append_event` calls on one file, in any order of their two
steps: each reads and checks the file, and later writes its line at the end. -/
namespace Tfws.Python

open Fallible

section Accepted

variable {runtime : EventRuntime} {objects : List Object}

theorem readLines_loaded {number : Nat} {lines : List (List Char)}
    (h : readLines runtime number lines = .ok objects) :
    ∀ object ∈ objects, ∃ value, Object.ofJson runtime.float value = some object := by
  induction lines generalizing number objects with
  | nil =>
      obtain rfl := Except.ok.inj h
      exact List.forall_mem_nil _
  | cons line rest ih =>
      rw [readLines] at h
      split_ifs at h
      · exact ih h
      · obtain ⟨first, hFirst, h⟩ := bind_eq_ok.mp h
        obtain ⟨others, hOthers, h⟩ := bind_eq_ok.mp h
        obtain rfl := Except.ok.inj h
        refine List.forall_mem_cons.mpr ⟨?_, ih hOthers⟩
        rw [loadsLine] at hFirst
        split at hFirst
        · cases hFirst
        · rename_i value _
          split at hFirst
          · rename_i event hEvent
            obtain rfl := Except.ok.inj hFirst
            exact ⟨value, hEvent⟩
          · cases hFirst

/-- What the loop lets through are dictionaries, since nothing else has a `get`. -/
theorem verifyFrom_dict {index : Nat} {previous : Option String}
    (h : verifyFrom runtime index previous objects = .ok ()) :
    ∀ object ∈ objects, ∃ entries, object = .dict entries := by
  induction objects generalizing index previous with
  | nil => exact List.forall_mem_nil _
  | cons object rest ih =>
      obtain ⟨hash, hOne, hRest⟩ := verifyFrom_cons_eq.mp h
      refine List.forall_mem_cons.mpr ⟨?_, ih hRest⟩
      obtain ⟨_, hField, -⟩ := bind_eq_ok.mp hOne
      cases object with
      | dict entries => exact ⟨entries, rfl⟩
      | none | bool _ | int _ | float _ | str _ | bytes _ | list _ | tag _ _ => cases hField

/-- The file is absent or holds the events, which are accepted. This is what every
call checks before it writes. -/
structure HoldsLog (runtime : EventRuntime) (file : Option Bytes) (objects : List Object) :
    Prop where
  reads : eventsOf runtime file = .ok objects
  accepted : verifyChain runtime objects = .ok ()

/-- Accepted objects are events, and none of them occurs twice, since each names its
place. -/
theorem HoldsLog.events {file : Option Bytes} (h : HoldsLog runtime file objects) :
    ∃ (events : List Event) (values : List Json.Value), objects = events.map Event.object ∧
      List.Forall₂ Event.Stands events values ∧ (eventChain runtime).Linked values := by
  have hEvent (object) (hMem : object ∈ objects) : ∃ event : Event, object = event.object := by
    obtain ⟨entries, rfl⟩ := verifyFrom_dict h.accepted object hMem
    have hReads := h.reads
    rw [eventsOf_eq_readEvents] at hReads
    obtain ⟨_, -, hLines⟩ := readEvents_eq_ok hReads
    obtain ⟨_, hLoaded⟩ := readLines_loaded hLines _ hMem
    exact ⟨⟨entries, Object.distinctKeys_ofJson hLoaded⟩, rfl⟩
  obtain ⟨events, hEvents⟩ := Traversal.exists_forall₂ hEvent
  have hObjects : objects = events.map Event.object := by
    have hSame := List.forall₂_map_right_iff.mpr hEvents
    rwa [List.forall₂_eq_eq_eq] at hSame
  obtain ⟨values, hValues, hLinked⟩ := verifyChain_eq_ok.mp (hObjects ▸ h.accepted)
  exact ⟨events, values, hObjects, hValues, hLinked⟩

/-- No two places of an accepted log hold the same value, so that an event has a place
of its own. -/
theorem HoldsLog.place_unique {file : Option Bytes} (h : HoldsLog runtime file objects)
    {first second : Nat} {held other event : Object} (hFirst : objects[first]? = some held)
    (hSecond : objects[second]? = some other) (hHeld : SameValue held event)
    (hOther : SameValue other event) : first = second := by
  obtain ⟨events, values, rfl, hValues, hLinked⟩ := h.events
  have hPlace {place : Nat} {object : Object}
      (hObject : (events.map Event.object)[place]? = some object)
      (hSame : SameValue object event) :
      ∃ value, event.json = some value ∧ (eventChain runtime).position value place := by
    rw [List.getElem?_map, Option.map_eq_some_iff] at hObject
    obtain ⟨listed, hListed, rfl⟩ := hObject
    obtain ⟨value, hValue, hStands⟩ := Traversal.exists_getElem? hValues hListed
    obtain ⟨shared, hShared, hEvent⟩ := hSame
    obtain rfl := Option.some.inj (hStands.json.symm.trans hShared)
    exact ⟨value, hEvent, Nat.zero_add place ▸ hLinked.position_of_getElem? hValue⟩
  obtain ⟨value, hValue, hPosition⟩ := hPlace hFirst hHeld
  obtain ⟨_, hSame, hOtherPosition⟩ := hPlace hSecond hOther
  obtain rfl := Option.some.inj (hValue.symm.trans hSame)
  exact (eventChain runtime).position_unique hPosition hOtherPosition

end Accepted

/-- How far a call has come: before it has read the file, with the file that it
has read and the line that it will write, after it has returned, or stopped by
an exception. -/
inductive CallState where
  | waiting
  | prepared (snapshot : Option Bytes) (event : Object) (line : Bytes)
  | returned (event : Object)
  | raised (exception : Exception)

/-- The file, and the calls on it, of which there may be any number. -/
structure LogState (ι : Type) where
  file : Option Bytes
  calls : ι → CallState

/-- What a call does next: it reads and checks, or it writes. Between the two, others
may do the same. -/
inductive LogAction (ι : Type) where
  | read (call : ι)
  | write (call : ι)

section Runs

variable {ι : Type} [DecidableEq ι] (runtime : EventRuntime) (drafts : ι → EventDraft)

/-- A call once it has read the file: prepared with its event and line, or ended by an
exception. -/
def afterReading (file : Option Bytes) (draft : EventDraft) : CallState :=
  match prepareEvent runtime file draft with
  | .ok (event, line) => .prepared file event line
  | .error exception => .raised exception

/-- The state once a call has read the file, which stays as it is. -/
def LogState.reading (state : LogState ι) (call : ι) : LogState ι where
  file := state.file
  calls := Function.update state.calls call (afterReading runtime state.file (drafts call))

/-- The state once a call has written its line, which goes to the end of
whatever the file holds by then. -/
def LogState.writing (state : LogState ι) (call : ι) (event : Object) (line : Bytes) :
    LogState ι where
  file := some (appendLine state.file line)
  calls := Function.update state.calls call (.returned event)

/-- One atomic step of one call. Nothing keeps another call from acting between the
two steps. -/
def LogState.step (state : LogState ι) : LogAction ι → Option (LogState ι)
  | .read call =>
      match state.calls call with
      | .waiting => some (state.reading runtime drafts call)
      | _ => none
  | .write call =>
      match state.calls call with
      | .prepared _ event line => some (state.writing call event line)
      | _ => none

/-- A step in any order, of any of the calls. Nothing keeps two calls from reading the
same file. -/
def LogState.Steps (state next : LogState ι) : Prop :=
  ∃ action, state.step runtime drafts action = some next

/-- A writing call finds the file as it has read it. Nothing in the source sees to
that. -/
def LogState.Undisturbed (state : LogState ι) : LogAction ι → Prop
  | .read _ => True
  | .write call => ∀ snapshot event line, state.calls call = .prepared snapshot event line →
      state.file = snapshot

/-- A step that no other call has come between: a write finds the file as its call
read it. -/
def LogState.SerialSteps (state next : LogState ι) : Prop :=
  ∃ action, state.Undisturbed action ∧ state.step runtime drafts action = some next

/-- The file is a log that is accepted and holds the event of every call that
has returned at one place and no other. -/
def LogState.Sound (state : LogState ι) : Prop :=
  ∃ objects, HoldsLog runtime state.file objects ∧
    ∀ call event, state.calls call = .returned event →
      ∃! place : Nat, ∃ held, objects[place]? = some held ∧ SameValue held event

variable {runtime drafts}

section Calls

variable {state : LogState ι} {call other : ι} {event : Object} {line : Bytes}

@[simp] theorem LogState.reading_self : (state.reading runtime drafts call).calls call =
    afterReading runtime state.file (drafts call) :=
  Function.update_self ..

@[simp] theorem LogState.reading_of_ne (h : other ≠ call) :
    (state.reading runtime drafts call).calls other = state.calls other :=
  Function.update_of_ne h ..

@[simp] theorem LogState.writing_self :
    (state.writing call event line).calls call = .returned event :=
  Function.update_self ..

@[simp] theorem LogState.writing_of_ne (h : other ≠ call) :
    (state.writing call event line).calls other = state.calls other :=
  Function.update_of_ne h ..

theorem LogState.step_read (h : state.calls call = .waiting) :
    state.step runtime drafts (.read call) = some (state.reading runtime drafts call) := by
  simp only [step, h]

theorem LogState.step_write {snapshot : Option Bytes}
    (h : state.calls call = .prepared snapshot event line) :
    state.step runtime drafts (.write call) = some (state.writing call event line) := by
  simp only [step, h]

theorem afterReading_of_ok {file : Option Bytes} {draft : EventDraft}
    (h : prepareEvent runtime file draft = .ok (event, line)) :
    afterReading runtime file draft = .prepared file event line := by
  simp only [afterReading, h]

end Calls

/-- What a step can do: a call that waits reads, or a call that has prepared its line
writes it. -/
theorem LogState.step_cases {state next : LogState ι} {action : LogAction ι}
    (h : state.step runtime drafts action = some next) :
    (∃ call, action = .read call ∧ state.calls call = .waiting ∧
      next = state.reading runtime drafts call) ∨
    (∃ call snapshot event line, action = .write call ∧
      state.calls call = .prepared snapshot event line ∧ next = state.writing call event line) := by
  cases action with
  | read call =>
      rw [step] at h
      split at h
      · exact Or.inl ⟨call, rfl, ‹_›, (Option.some.inj h).symm⟩
      · cases h
  | write call =>
      rw [step] at h
      split at h
      · exact Or.inr ⟨call, _, _, _, rfl, ‹_›, (Option.some.inj h).symm⟩
      · cases h

/-- What serial runs keep: an accepted log that ends in a complete line, calls
that will write what they have prepared, and the events of those that have
returned. -/
structure LogState.Invariant (runtime : EventRuntime) (drafts : ι → EventDraft)
    (state : LogState ι) (objects : List Object) : Prop where
  holds : HoldsLog runtime state.file objects
  closed : EndsInSpaces (state.file.getD [])
  prepared : ∀ call snapshot event line, state.calls call = .prepared snapshot event line →
    prepareEvent runtime snapshot (drafts call) = .ok (event, line)
  returned : ∀ call event, state.calls call = .returned event →
    ∃ held ∈ objects, SameValue held event

theorem afterReading_eq_prepared {file snapshot : Option Bytes} {draft : EventDraft}
    {event : Object} {line : Bytes}
    (h : afterReading runtime file draft = .prepared snapshot event line) :
    prepareEvent runtime snapshot draft = .ok (event, line) := by
  rw [afterReading] at h
  split at h
  · cases h
    assumption
  · cases h

theorem afterReading_ne_returned {file : Option Bytes} {draft : EventDraft} {event : Object} :
    afterReading runtime file draft ≠ .returned event := by
  rw [afterReading]
  split <;> exact CallState.noConfusion

/-- Reading changes nothing but the state of the call, which now remembers what the
file was. -/
theorem LogState.Invariant.read {state : LogState ι} {objects : List Object} {call : ι}
    (h : state.Invariant runtime drafts objects) :
    (state.reading runtime drafts call).Invariant runtime drafts objects where
  holds := h.holds
  closed := h.closed
  prepared other snapshot event line hOther := by
    by_cases hCall : other = call
    · subst hCall
      rw [reading_self] at hOther
      exact afterReading_eq_prepared hOther
    · rw [reading_of_ne hCall] at hOther
      exact h.prepared other snapshot event line hOther
  returned other event hOther := by
    by_cases hCall : other = call
    · subst hCall
      rw [reading_self] at hOther
      exact absurd hOther afterReading_ne_returned
    · rw [reading_of_ne hCall] at hOther
      exact h.returned other event hOther

/-- Writing behind what was read extends the log by the event of the call. -/
theorem LogState.Invariant.write {state : LogState ι} {objects : List Object} {call : ι}
    {event : Object} {line : Bytes} (h : state.Invariant runtime drafts objects)
    (hPrepared : state.calls call = .prepared state.file event line) :
    ∃ last, (state.writing call event line).Invariant runtime drafts (objects ++ [last]) := by
  have hPrepare := h.prepared call state.file event line hPrepared
  obtain ⟨⟨last, hReads, hSame, hChain⟩, -⟩ :=
    appendEvent_extends h.holds.reads hPrepare h.closed
  refine ⟨last, ⟨hReads, hChain⟩, endsInSpaces_appendLine hPrepare, ?_, ?_⟩
  · intro other snapshot written text hOther
    by_cases hCall : other = call
    · subst hCall
      rw [writing_self] at hOther
      cases hOther
    · rw [writing_of_ne hCall] at hOther
      exact h.prepared other snapshot written text hOther
  · intro other returned hOther
    by_cases hCall : other = call
    · subst hCall
      rw [writing_self] at hOther
      cases hOther
      exact ⟨last, List.mem_append_right _ (List.mem_singleton_self _), hSame⟩
    · rw [writing_of_ne hCall] at hOther
      obtain ⟨held, hMem, hHeld⟩ := h.returned other returned hOther
      exact ⟨held, List.mem_append_left _ hMem, hHeld⟩

/-- A step of a call between whose two steps nobody else writes keeps the
invariant. -/
theorem LogState.Invariant.step {state next : LogState ι} {objects : List Object}
    (h : state.Invariant runtime drafts objects) (hStep : state.SerialSteps runtime drafts next) :
    ∃ objects, next.Invariant runtime drafts objects := by
  obtain ⟨action, hUndisturbed, hStep⟩ := hStep
  obtain ⟨call, -, -, rfl⟩ | ⟨call, snapshot, event, line, rfl, hPrepared, rfl⟩ := step_cases hStep
  · exact ⟨objects, h.read⟩
  · obtain rfl := hUndisturbed snapshot event line hPrepared
    obtain ⟨last, hNext⟩ := h.write hPrepared
    exact ⟨_, hNext⟩

omit [DecidableEq ι] in
/-- What the invariant says of a state, without its bookkeeping about calls under
way. -/
theorem LogState.Invariant.sound {state : LogState ι} {objects : List Object}
    (h : state.Invariant runtime drafts objects) : state.Sound runtime := by
  refine ⟨objects, h.holds, fun call event hCall => ?_⟩
  obtain ⟨held, hMem, hHeld⟩ := h.returned call event hCall
  obtain ⟨place, hPlace⟩ := List.getElem?_of_mem hMem
  refine ⟨place, ⟨held, hPlace, hHeld⟩, fun other hOther => ?_⟩
  obtain ⟨object, hObject, hSame⟩ := hOther
  exact h.holds.place_unique hObject hPlace hSame hHeld

/-- Calls whose two steps no other write comes between keep the log: it is accepted in
every state that they reach from a log that ends in a complete line, and every call
that has returned finds its event there, at a place of its own. -/
theorem LogState.serialSteps_sound (runtime : EventRuntime) (drafts : ι → EventDraft)
    (initial state : LogState ι) (objects : List Object)
    (hWaiting : ∀ call, initial.calls call = .waiting)
    (hLog : HoldsLog runtime initial.file objects)
    (hClosed : EndsInSpaces (initial.file.getD []))
    (hRun : Relation.ReflTransGen (SerialSteps runtime drafts) initial state) :
    state.Sound runtime := by
  have hInitial : initial.Invariant runtime drafts objects := by
    refine ⟨hLog, hClosed, ?_, ?_⟩
    · intro call snapshot event line hCall
      cases (hWaiting call).symm.trans hCall
    · intro call event hCall
      cases (hWaiting call).symm.trans hCall
  have hReached : ∃ objects, state.Invariant runtime drafts objects := by
    induction hRun with
    | refl => exact ⟨objects, hInitial⟩
    | tail _ hStep ih =>
        obtain ⟨_, hState⟩ := ih
        exact hState.step hStep
  obtain ⟨_, hState⟩ := hReached
  exact hState.sound

end Runs

/-- The calls that register a publisher and rotate its key, for the runs below. -/
def twoDrafts : Bool → EventDraft
  | false => .registered
  | true => .rotated

def LogState.twoCalls : LogState Bool where
  file := none
  calls _ := .waiting

theorem twoDrafts_stands (call : Bool) :
    ∃ value, ((twoDrafts call).asEvent .sample 0 none).Stands value := by
  cases call with
  | false => exact EventDraft.registered_stands .sample none
  | true => exact EventDraft.rotated_stands .sample 0 (Or.inl rfl) none

/-- What each of them writes into an absent file: an event that names the first
place. -/
theorem prepareEvent_twoDrafts (call : Bool) :
    ∃ fields, ((twoDrafts call).asEvent .sample 0 none).Stands (.object fields) ∧
      prepareEvent .sample none (twoDrafts call) =
        .ok ((twoDrafts call).event .sample 0 none, jsonText (.object fields) ++ [0x0A]) := by
  obtain ⟨value, hStands⟩ := twoDrafts_stands call
  obtain ⟨fields, rfl, -⟩ := Object.json_dict.mp hStands.json
  exact ⟨_, hStands, @prepareEvent_of_stands .sample none _ [] none _ rfl rfl rfl hStands⟩

/-- The one call registers the publisher; when it has returned, the other one reads
the file that it left, and writes behind it. -/
theorem LogState.serialSteps_sound_sample : ∃ state : LogState Bool,
    (∀ call, ∃ event, state.calls call = .returned event) ∧ LogState.Sound .sample state := by
  obtain ⟨events, event, line, -, -, hPrepare⟩ := prepareEvent_rotated
  let one := twoCalls.reading .sample twoDrafts false
  let two := one.writing false (EventDraft.registered.event .sample 0 none) registeredFile
  let three := two.reading .sample twoDrafts true
  have hFile : two.file = some registeredFile := congrArg some (appendLine_none registeredFile)
  have hOne : one.calls false = .prepared none _ _ :=
    reading_self.trans (afterReading_of_ok prepareEvent_registered)
  have hThree : three.calls true = .prepared (some registeredFile) event line := by
    rw [show three.calls true = _ from reading_self, hFile]
    exact afterReading_of_ok hPrepare
  have hUndisturbed {state : LogState Bool} {call : Bool} {snapshot : Option Bytes}
      {event : Object} {line : Bytes} (hPrepared : state.calls call = .prepared snapshot event line)
      (hSame : state.file = snapshot) : state.Undisturbed (.write call) := by
    intro other written text hOther
    cases hPrepared.symm.trans hOther
    exact hSame
  have hRun : Relation.ReflTransGen (SerialSteps .sample twoDrafts) twoCalls
      (three.writing true event line) :=
    (((Relation.ReflTransGen.single ⟨.read false, trivial, step_read rfl⟩).tail
      ⟨.write false, hUndisturbed hOne rfl, step_write hOne⟩).tail
      ⟨.read true, trivial, step_read rfl⟩).tail
      ⟨.write true, hUndisturbed hThree hFile, step_write hThree⟩
  refine ⟨_, ?_, serialSteps_sound .sample twoDrafts twoCalls _ [] (fun _ => rfl) ⟨rfl, rfl⟩
    endsInSpaces_nil hRun⟩
  intro call
  cases call with
  | false =>
      refine ⟨EventDraft.registered.event .sample 0 none, ?_⟩
      rw [writing_of_ne Bool.false_ne_true, reading_of_ne Bool.false_ne_true, writing_self]
  | true => exact ⟨event, writing_self⟩

/-- Both calls read the absent file before either writes: the second event names the
place of the first, and the log is not accepted any more. -/
theorem LogState.steps_unsound : ∃ state,
    Relation.ReflTransGen (Steps .sample twoDrafts) twoCalls state ∧
      (∀ call, ∃ event, state.calls call = .returned event) ∧
      ¬LogState.Sound .sample state := by
  obtain ⟨first, hFirst, hFirstPrepare⟩ := prepareEvent_twoDrafts false
  obtain ⟨second, hSecond, hSecondPrepare⟩ := prepareEvent_twoDrafts true
  let one := twoCalls.reading .sample twoDrafts false
  let two := one.reading .sample twoDrafts true
  let three := two.writing false ((twoDrafts false).event .sample 0 none)
    (jsonText (.object first) ++ [0x0A])
  let four := three.writing true ((twoDrafts true).event .sample 0 none)
    (jsonText (.object second) ++ [0x0A])
  have hTrueWaits : one.calls true = .waiting := reading_of_ne (by decide)
  have hFalsePrepared : two.calls false = .prepared none _ _ :=
    (reading_of_ne (by decide)).trans (reading_self.trans (afterReading_of_ok hFirstPrepare))
  have hTruePrepared : three.calls true = .prepared none _ _ :=
    (writing_of_ne (by decide)).trans (reading_self.trans (afterReading_of_ok hSecondPrepare))
  have hRun : Relation.ReflTransGen (Steps .sample twoDrafts) twoCalls four :=
    ((Relation.ReflTransGen.single ⟨_, step_read rfl⟩).tail ⟨_, step_read hTrueWaits⟩).tail
      ⟨_, step_write hFalsePrepared⟩ |>.tail ⟨_, step_write hTruePrepared⟩
  refine ⟨four, hRun, fun call => ?_, ?_⟩
  · cases call with
    | false => exact ⟨_, (writing_of_ne (by decide)).trans writing_self⟩
    | true => exact ⟨_, writing_self⟩
  · intro ⟨objects, hLog, _⟩
    obtain ⟨last, hLast, hLastStands⟩ := @readEvents_closed .sample [] [] first rfl endsInSpaces_nil
      (Object.json_normal hFirst.json) hFirst.inProfile
    have hClosed : EndsInSpaces (appendLine none (jsonText (.object first) ++ [0x0A])) :=
      endsInSpaces_appendLine hFirstPrepare
    obtain ⟨next, hNext, hNextStands⟩ :=
      readEvents_closed hLast hClosed (Object.json_normal hSecond.json) hSecond.inProfile
    obtain rfl := Except.ok.inj (hNext.symm.trans hLog.reads)
    obtain ⟨-, _, -, hRest⟩ := verifyFrom_append.mp hLog.accepted
    obtain ⟨hPlace, -⟩ := (verifyFrom_cons hNextStands).mp hRest
    have hOther := (EventDraft.linked_asEvent hSecond .sample).1
    cases (eventChain .sample).position_unique hOther hPlace

end Tfws.Python
