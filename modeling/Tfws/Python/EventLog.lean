import Tfws.Python.JsonReading
import Tfws.Python.Models

/-! The event log of `tfws3/eventlog.py`: a file of JSON lines, each of which
holds the hash of the one before. -/
namespace Tfws.Python

open Fallible

/-- What the event log uses of the standard library: SHA-256, the value of a decimal
number, and `==` between a float and an integer. Nothing is assumed of them; a result
that needs more says so. -/
structure EventRuntime where
  sha256 : Bytes → Bytes
  float : String → UInt64
  floatEqual : UInt64 → Int → Bool

/-- `octets.hex()`, two lower-case digits for each octet. -/
def hexdigest (octets : Bytes) : String :=
  String.ofList (octets.flatMap fun octet =>
    [Json.hexDigit (octet.toNat / 16), Json.hexDigit (octet.toNat % 16)])

def hexOctets : List Char → Option Bytes
  | [] => some []
  | [_] => none
  | high :: low :: rest => do
      let high ← Json.hexValue high
      let low ← Json.hexValue low
      let rest ← hexOctets rest
      some (UInt8.ofNat (16 * high + low) :: rest)

/-- `bytes.fromhex(text)`, on a text without white space. Capital digits are read as
well. -/
def fromHex (text : String) : Result Bytes :=
  match hexOctets text.toList with
  | some octets => .ok octets
  | none => .error (.valueError "non-hexadecimal number found in fromhex() arg")

theorem hexOctets_flatMap (octets : Bytes) :
    hexOctets (octets.flatMap fun octet =>
      [Json.hexDigit (octet.toNat / 16), Json.hexDigit (octet.toNat % 16)]) = some octets := by
  induction octets with
  | nil => rfl
  | cons octet rest ih =>
      have hLt := octet.toNat_lt
      have hHigh := Json.hexValue_hexDigit (octet.toNat / 16) (by omega)
      have hLow := Json.hexValue_hexDigit (octet.toNat % 16) (by omega)
      have hSum : 16 * (octet.toNat / 16) + octet.toNat % 16 = octet.toNat := by omega
      simp only [List.flatMap_cons, List.cons_append, List.nil_append, hexOctets, hHigh, hLow, ih,
        Option.bind_eq_bind, Option.bind_some, hSum, UInt8.ofNat_toNat]

/-- Digits are read back as the octets they were written for, which is how the leaves
of a tree are made. -/
@[simp] theorem fromHex_hexdigest (octets : Bytes) : fromHex (hexdigest octets) = .ok octets := by
  rw [fromHex, hexdigest, String.toList_ofList, hexOctets_flatMap]

theorem hexdigest_injective {first second : Bytes} (h : hexdigest first = hexdigest second) :
    first = second := by
  have hSame := congrArg fromHex h
  rw [fromHex_hexdigest, fromHex_hexdigest] at hSame
  exact Except.ok.inj hSame

/-- `hash_event`: the digest of the canonical text, so that the spelling of an event
does not matter. -/
def hashEvent (runtime : EventRuntime) (event : Object) : Result String := do
  let text ← canonicalize event
  .ok (hexdigest (runtime.sha256 text))

/-- `details_commitment`: the private details are hashed as they are, and only the
digest goes into the log. -/
def detailsCommitment (runtime : EventRuntime) (details : Bytes) : String :=
  hexdigest (runtime.sha256 details)

/-- The newlines of text mode: a carriage return ends a line, and a line feed
right behind it belongs to it. -/
def translateNewlines (afterReturn : Bool) : List Char → List Char
  | [] => []
  | c :: rest =>
      if c = '\n' ∧ afterReturn = true then translateNewlines false rest
      else if c = '\r' then '\n' :: translateNewlines true rest
      else c :: translateNewlines false rest

/-- The lines of a file, without their ends, which `strip` and `loads` skip. -/
def fileLines (text : List Char) : List (List Char) := (translateNewlines false text).splitOn '\n'

/-- `json.loads(line)`, whose error names the line. What Python's parser lets in is in
`Json.Value.parse`. -/
def loadsLine (runtime : EventRuntime) (number : Nat) (line : List Char) : Result Object :=
  match Json.Value.parse line with
  | none => .error (.validation ("invalid event JSON at line " ++ toString number))
  | some value =>
      match Object.ofJson runtime.float value with
      | some event => .ok event
      | none => .error (.valueError "surrogates not allowed")

/-- The loop of `read_events`, which skips blank lines but counts them. -/
def readLines (runtime : EventRuntime) (number : Nat) : List (List Char) → Result (List Object)
  | [] => .ok []
  | line :: rest =>
      if line.all isSpace then readLines runtime (number + 1) rest
      else do
        let event ← loadsLine runtime number line
        let events ← readLines runtime (number + 1) rest
        .ok (event :: events)

/-- `read_events`, on the octets of the file. It fails at the first line that is no
JSON, and does not look at what the others say. -/
def readEvents (runtime : EventRuntime) (file : Bytes) : Result (List Object) :=
  match Utf8.decode file with
  | some text => readLines runtime 1 (fileLines text.toList)
  | none => .error (.valueError "'utf-8' codec can't decode byte")

/-- `read_events(path) if path.exists() else []`, which is how an append reads: a
missing file holds no events. -/
def eventsOf (runtime : EventRuntime) : Option Bytes → Result (List Object)
  | none => .ok []
  | some file => readEvents runtime file

/-- `value == integer`, which a truth value or a float may pass as well. Positions and
epochs are compared so. -/
def equalsInteger (runtime : EventRuntime) (integer : Int) : Object → Bool
  | .int value => value = integer
  | .bool value => (if value then 1 else 0) = integer
  | .float bits => runtime.floatEqual bits integer
  | _ => false

/-- A text, or `None`, as `previous_event_hash` holds it. -/
def optionalText : Option String → Object
  | none => .none
  | some text => .str text

/-- `event.get(name)`, which only a dictionary has. A missing field reads as
`None`. -/
def getField (name : String) : Object → Result Object
  | .dict entries => .ok ((Object.get (.str name) entries).getD .none)
  | _ => .error (.attributeError "object has no attribute 'get'")

/-- The loop of `verify_chain`, at `index` and behind the hash `previous`. The event
is hashed only after both of its claims have passed. -/
def verifyFrom (runtime : EventRuntime) (index : Nat) (previous : Option String) :
    List Object → Result Unit
  | [] => .ok ()
  | event :: rest => do
      let sequence ← getField "sequence" event
      failIf (equalsInteger runtime index sequence = false)
        (.validation ("invalid event sequence at " ++ toString index))
      let link ← getField "previous_event_hash" event
      failIf (link.equal (optionalText previous) = false)
        (.validation ("broken event chain at " ++ toString index))
      let hash ← hashEvent runtime event
      verifyFrom runtime (index + 1) (some hash) rest

/-- `verify_chain`, on all the events of a log from its first on. -/
def verifyChain (runtime : EventRuntime) (events : List Object) : Result Unit :=
  verifyFrom runtime 0 none events

/-- The arguments of `append_event`, with the identifier and the time that the
call draws. -/
structure EventDraft where
  eventId : String
  occurredAt : String
  eventType : Object
  subject : Object
  payload : Object
  privateDetails : Bytes

/-- The fields of the event that a draft becomes, at its place and behind the hash of
the last event. -/
def EventDraft.entries (runtime : EventRuntime) (draft : EventDraft) (sequence : Nat)
    (previous : Option String) : List (Key × Object) :=
  [(.str "event_id", .str draft.eventId),
    (.str "sequence", .int sequence),
    (.str "event_type", draft.eventType),
    (.str "subject", draft.subject),
    (.str "occurred_at", .str draft.occurredAt),
    (.str "previous_event_hash", optionalText previous),
    (.str "details_commitment", .str (detailsCommitment runtime draft.privateDetails)),
    (.str "payload", draft.payload)]

/-- The dictionary `event`, without its hash: an event names the one before and not
itself. -/
def EventDraft.event (runtime : EventRuntime) (draft : EventDraft) (sequence : Nat)
    (previous : Option String) : Object :=
  .dict (draft.entries runtime sequence previous)

/-- `hash_event(events[-1]) if events else None`, which the new event has to hold. The
chain has been verified before. -/
def lastHash (runtime : EventRuntime) (events : List Object) : Result (Option String) :=
  match events.getLast? with
  | none => .ok none
  | some event => (hashEvent runtime event).map some

/-- The event and its line, from what the call reads. Nothing has been written at this
point; another call may write before this one does. -/
def prepareEvent (runtime : EventRuntime) (file : Option Bytes) (draft : EventDraft) :
    Result (Object × Bytes) := do
  let events ← eventsOf runtime file
  verifyChain runtime events
  let previous ← lastHash runtime events
  let event := draft.event runtime events.length previous
  let text ← canonicalize event
  .ok (event, text ++ [0x0A])

/-- What the file holds once a line has been written behind it. The octets that are
there stay, whatever they are. -/
def appendLine (file : Option Bytes) (line : Bytes) : Bytes := file.getD [] ++ line

theorem appendLine_none (line : Bytes) : appendLine none line = line := List.nil_append line

/-- `append_event`: the event that it returns, and the file it leaves, when nobody
else writes meanwhile. -/
def appendEvent (runtime : EventRuntime) (file : Option Bytes) (draft : EventDraft) :
    Result (Object × Bytes) := do
  let (event, line) ← prepareEvent runtime file draft
  .ok (event, appendLine file line)

end Tfws.Python
