import Tfws.Data.HashChain
import Tfws.Python.EventLog

/-! What `verify_chain` accepts: events whose JSON values form a hash chain. -/
namespace Tfws.Python

open Fallible

/-- A member of an object; a missing one counts as null, as `get` reads it. -/
def member (name : String) : Json.Value → Json.Value
  | .object fields => (SortedMap.lookup name fields).getD .null
  | _ => .null

/-- The number is the integer, with `true` for 1 and `false` for 0, as Python
compares. -/
def HoldsInteger (integer : Int) : Json.Value → Prop
  | .int value => value = integer
  | .bool value => (if value then 1 else 0) = integer
  | _ => False

/-- A value holds one integer at most, although an integer may be held in several
ways. -/
theorem HoldsInteger.unique {first second : Int} {value : Json.Value}
    (hFirst : HoldsInteger first value) (hSecond : HoldsInteger second value) :
    first = second := by
  cases value with
  | int _ => exact Eq.trans (Eq.symm hFirst) hSecond
  | bool _ => exact Eq.trans (Eq.symm hFirst) hSecond
  | null | decimal _ | string _ | unpaired | array _ | object _ => exact hFirst.elim

/-- A text, or null, as an event names the hash before it. Only the first event names
none. -/
def optionalJson : Option String → Json.Value
  | none => .null
  | some text => .string text

theorem optionalJson_injective {first second : Option String}
    (h : optionalJson first = optionalJson second) : first = second := by
  cases first <;> cases second <;> cases h <;> rfl

/-- Events as JSON values: each holds its place in `sequence` and the hash of
the one before in `previous_event_hash`. -/
def eventChain (runtime : EventRuntime) : HashChain Json.Value String where
  hash value := hexdigest (runtime.sha256 (jsonText value))
  position value index := HoldsInteger index (member "sequence" value)
  link value previous := member "previous_event_hash" value = optionalJson previous
  position_unique hFirst hSecond := Int.ofNat_inj.mp (hFirst.unique hSecond)
  link_unique hFirst hSecond := optionalJson_injective (hFirst.symm.trans hSecond)

/-- An event is a dictionary, no two keys of which are equal. Every dictionary that
was parsed is one. -/
structure Event where
  entries : List (Key × Object)
  distinct : Object.DistinctKeys entries

namespace Event

variable {runtime : EventRuntime} {event : Event} {value : Json.Value}

/-- The dictionary of an event, as the functions of the log take it. -/
def object (event : Event) : Object := .dict event.entries

/-- The value is that of the event, and its canonical text is that of the value. What
is hashed depends on the value alone. -/
structure Stands (event : Event) (value : Json.Value) : Prop where
  json : event.object.json = some value
  text : canonicalize event.object = .ok (jsonText value)

/-- An event with a canonical text stands for a JSON value, which the chain is
about. -/
theorem exists_stands {octets : Bytes} (h : canonicalize event.object = .ok octets) :
    ∃ value, event.Stands value := by
  obtain ⟨value, hValue, -, rfl⟩ := canonicalize_eq_ok h
  exact ⟨value, hValue, h⟩

theorem Stands.inProfile (h : event.Stands value) : Object.InProfile value := by
  obtain ⟨other, hOther, hProfile, -⟩ := canonicalize_eq_ok h.text
  exact Option.some.inj (hOther.symm.trans h.json) ▸ hProfile

/-- The text of an event opens with a brace, which no other line may go on with. -/
theorem Stands.text_eq_cons (h : event.Stands value) : ∃ rest, jsonText value = 0x7B :: rest := by
  obtain ⟨fields, rfl, -⟩ := Object.json_dict.mp h.json
  exact jsonText_object_eq _

/-- The hash of an event is that of its value in the chain, so that `hash_event` may
be replaced by it. -/
theorem Stands.hashEvent_eq (h : event.Stands value) :
    hashEvent runtime event.object = .ok ((eventChain runtime).hash value) := by
  rw [hashEvent, h.text]
  rfl

section Fields

variable {entries : List (Key × Object)} {fields : List (String × Json.Value)}

/-- A lookup in the fields of a dictionary is one in its entries, as long as the names
are texts. -/
theorem lookup_fields
    (h : List.Forall₂ (fun entry field => Object.jsonEntry entry = some field) entries fields)
    (name : String) :
    SortedMap.lookup name fields = (Object.get (.str name) entries).bind Object.json := by
  unfold Object.get
  induction h with
  | nil => rfl
  | @cons entry field entries fields hField _ ih =>
      obtain ⟨hName, hJson⟩ := Object.jsonEntry_eq_some.mp hField
      rw [SortedMap.lookup_cons, List.find?_cons, ih]
      by_cases hSame : field.1 = name
      · have hEqual : entry.1.equal (.str name) = true :=
          Key.equal_str_iff.mpr (by rw [hName, hSame])
        simp [hSame, hEqual, hJson]
      · have hEqual : entry.1.equal (.str name) = false := by
          rw [Bool.eq_false_iff]
          exact fun h => hSame (Key.str.inj (hName.symm.trans (Key.equal_str_iff.mp h)))
        simp [hSame, hEqual]

/-- Different keys become different names, since only texts become names. -/
theorem distinct_fields
    (h : List.Forall₂ (fun entry field => Object.jsonEntry entry = some field) entries fields)
    (hDistinct : entries.Pairwise fun first second => first.1.equal second.1 = false) :
    fields.Pairwise fun first second => first.1 ≠ second.1 := by
  induction h with
  | nil => exact List.Pairwise.nil
  | @cons entry field entries fields hField hRest ih =>
      obtain ⟨hFirst, hOthers⟩ := List.pairwise_cons.mp hDistinct
      refine List.pairwise_cons.mpr ⟨fun other hMem hSame => ?_, ih hOthers⟩
      obtain ⟨second, hSecond, hOther⟩ := Traversal.exists_left hRest hMem
      have hName := (Object.jsonEntry_eq_some.mp hField).1
      have hOtherName := (Object.jsonEntry_eq_some.mp hOther).1
      have hNot := hFirst second hSecond
      rw [hName, hOtherName, hSame, Key.equal_str_iff.mpr rfl] at hNot
      cases hNot

end Fields

/-- `get` finds the member of the value, or null where there is none. This ties the
two checks of the loop to the value. -/
theorem getField_json (h : event.object.json = some value) (name : String) :
    ∃ item, getField name event.object = .ok item ∧ item.json = some (member name value) := by
  obtain ⟨fields, rfl, hFields⟩ := Object.json_dict.mp h
  have hPerm : (SortedMap.insertAll [] fields).Perm (fields ++ []) :=
    SortedMap.insertAll_perm (distinct_fields hFields event.distinct) (by simp)
  rw [List.append_nil] at hPerm
  have hSorted : SortedMap.Sorted (SortedMap.insertAll [] fields) :=
    SortedMap.Sorted.insertAll List.Pairwise.nil fields
  have hLookup := lookup_fields hFields name
  rw [hSorted.lookup_perm hPerm.symm] at hLookup
  refine ⟨_, rfl, ?_⟩
  rw [member, hLookup]
  cases hGet : Object.get (.str name) event.entries with
  | none => rfl
  | some item =>
      obtain ⟨entry, hFind, rfl⟩ := Option.map_eq_some_iff.mp hGet
      obtain ⟨field, -, hField⟩ :=
        Traversal.exists_right hFields (List.mem_of_find?_eq_some hFind)
      have hJson := (Object.jsonEntry_eq_some.mp hField).2
      rw [Option.bind_some, Option.getD_some, hJson, Option.getD_some]

end Event

section Verify

variable {runtime : EventRuntime} {index : Nat} {previous : Option String}

/-- The comparison with a position is made on the value, and allows whatever Python
takes to equal the number. -/
theorem equalsInteger_iff {integer : Int} {item : Object} {value : Json.Value}
    (h : item.json = some value) :
    equalsInteger runtime integer item = true ↔ HoldsInteger integer value := by
  cases item with
  | none | bool _ | int _ | str _ =>
      obtain rfl := Option.some.inj h
      simp [equalsInteger, HoldsInteger]
  | float _ | bytes _ | tag _ _ => cases h
  | list _ =>
      obtain ⟨_, rfl, -⟩ := Object.json_list.mp h
      simp [equalsInteger, HoldsInteger]
  | dict _ =>
      obtain ⟨_, rfl, -⟩ := Object.json_dict.mp h
      simp [equalsInteger, HoldsInteger]

/-- The comparison with the hash before is made on the value, where a text equals
nothing but itself. -/
theorem equal_optionalText_iff {item : Object} {value : Json.Value} (h : item.json = some value) :
    item.equal (optionalText previous) = true ↔ value = optionalJson previous := by
  cases item with
  | none | bool _ | int _ | str _ =>
      obtain rfl := Option.some.inj h
      cases previous <;>
        simp [Object.equal, Object.key?, Key.equal, Key.identity, optionalText, optionalJson]
  | float _ | bytes _ | tag _ _ => cases h
  | list _ =>
      obtain ⟨_, rfl, -⟩ := Object.json_list.mp h
      cases previous <;> simp [Object.equal, Object.key?, optionalText, optionalJson]
  | dict _ =>
      obtain ⟨_, rfl, -⟩ := Object.json_dict.mp h
      cases previous <;> simp [Object.equal, Object.key?, optionalText, optionalJson]

/-- One round of the loop on an event with a canonical text: its place, its link, and
the rest behind its hash. -/
theorem verifyFrom_cons {event : Event} {value : Json.Value} (h : event.Stands value)
    {rest : List Object} :
    verifyFrom runtime index previous (event.object :: rest) = .ok () ↔
      (eventChain runtime).position value index ∧ (eventChain runtime).link value previous ∧
        verifyFrom runtime (index + 1) (some ((eventChain runtime).hash value)) rest = .ok () := by
  obtain ⟨sequence, hSequence, hSequenceJson⟩ := Event.getField_json h.json "sequence"
  obtain ⟨link, hLink, hLinkJson⟩ := Event.getField_json h.json "previous_event_hash"
  simp only [verifyFrom, hSequence, hLink, h.hashEvent_eq, ok_bind, then_eq_ok, failIf_eq_ok,
    Bool.not_eq_false, equalsInteger_iff hSequenceJson, equal_optionalText_iff hLinkJson]
  rfl

/-- The loop accepts events exactly when they have canonical texts and their values
continue the chain. -/
theorem verifyFrom_eq_ok {events : List Event} :
    verifyFrom runtime index previous (events.map Event.object) = .ok () ↔
      ∃ values, List.Forall₂ Event.Stands events values ∧
        (eventChain runtime).LinkedFrom index previous values := by
  induction events generalizing index previous with
  | nil =>
      constructor
      · intro _
        exact ⟨[], .nil, trivial⟩
      · intro _
        rfl
  | cons event rest ih =>
      rw [List.map_cons]
      constructor
      · intro h
        obtain ⟨_, _, h'⟩ := bind_eq_ok.mp h
        obtain ⟨_, h'⟩ := then_eq_ok.mp h'
        obtain ⟨_, _, h'⟩ := bind_eq_ok.mp h'
        obtain ⟨_, h'⟩ := then_eq_ok.mp h'
        obtain ⟨_, hHash, _⟩ := bind_eq_ok.mp h'
        obtain ⟨_, hText, _⟩ := bind_eq_ok.mp hHash
        obtain ⟨value, hStands⟩ := Event.exists_stands hText
        obtain ⟨hPosition, hLink, hRest⟩ := (verifyFrom_cons hStands).mp h
        obtain ⟨values, hValues, hLinked⟩ := ih.mp hRest
        exact ⟨value :: values, .cons hStands hValues, hPosition, hLink, hLinked⟩
      · intro ⟨values, hValues, hLinked⟩
        cases hValues with
        | cons hStands hRest =>
            obtain ⟨hPosition, hLink, hLinked⟩ := hLinked
            exact (verifyFrom_cons hStands).mpr ⟨hPosition, hLink, ih.mpr ⟨_, hRest, hLinked⟩⟩

/-- The check accepts events exactly when they stand for a whole chain. The other
results about logs go through this one. -/
theorem verifyChain_eq_ok {events : List Event} :
    verifyChain runtime (events.map Event.object) = .ok () ↔
      ∃ values, List.Forall₂ Event.Stands events values ∧ (eventChain runtime).Linked values :=
  verifyFrom_eq_ok

end Verify

namespace EventDraft

variable {runtime : EventRuntime} {draft : EventDraft} {sequence : Nat} {previous : Option String}

theorem names_distinct : (([.str "event_id", .str "sequence", .str "event_type", .str "subject",
      .str "occurred_at", .str "previous_event_hash", .str "details_commitment",
      .str "payload"] : List Key)).Pairwise fun first second => first.equal second = false := by
  decide

/-- The dictionary that an append writes, as an event. -/
def asEvent (runtime : EventRuntime) (draft : EventDraft) (sequence : Nat)
    (previous : Option String) : Event where
  entries := draft.entries runtime sequence previous
  distinct := List.Pairwise.of_map Prod.fst (fun _ _ h => h) names_distinct

/-- The new event names its place, and holds the hash that it was given. -/
theorem linked_asEvent {value : Json.Value}
    (h : (draft.asEvent runtime sequence previous).Stands value) (other : EventRuntime) :
    (eventChain other).position value sequence ∧ (eventChain other).link value previous := by
  obtain ⟨item, hItem, hPlace⟩ := Event.getField_json h.json "sequence"
  obtain ⟨link, hLink, hHash⟩ := Event.getField_json h.json "previous_event_hash"
  obtain rfl : .int sequence = item := Except.ok.inj hItem
  obtain rfl : optionalText previous = link := Except.ok.inj hLink
  constructor
  · have hSame : equalsInteger runtime sequence (.int sequence) = true := decide_eq_true rfl
    exact (equalsInteger_iff hPlace).mp hSame
  · refine (equal_optionalText_iff hHash).mp ?_
    cases previous <;> simp [optionalText, Object.equal, Object.key?, Key.equal]

end EventDraft

/-- The octets that hexadecimal digits write, or none where they are no digits. -/
def octetsOf (digits : String) : Bytes := (hexOctets digits.toList).getD []

def EventDraft.registered : EventDraft where
  eventId := "5d6c8f0a-3b1e-4f5c-9a7d-2e8b1c4f6a90"
  occurredAt := "2026-07-21T00:00:00Z"
  eventType := .str "publisher_registered"
  subject := .str "https://example.com"
  payload := .dict [(.str "v", .int 1)]
  privateDetails := []

def EventDraft.rotated : EventDraft where
  eventId := "c2a47e1b-90d3-4b86-8f12-7d5e3a6b9c08"
  occurredAt := "2026-07-21T00:00:01Z"
  eventType := .str "key_rotated"
  subject := .str "https://example.com"
  payload := .dict [(.str "epoch", .int 2)]
  privateDetails := []

/-- A runtime whose SHA-256 is given by a list of messages and digests. -/
def EventRuntime.ofTable (table : List (Bytes × String)) : EventRuntime where
  sha256 message := ((table.find? fun row => row.1 = message).map fun row => octetsOf row.2).getD
    (List.replicate 32 0)
  float _ := 0
  floatEqual _ _ := false

/-- The digest of the empty octet string, which hides no details. The sample events
commit to nothing else. -/
def emptyRow : Bytes × String :=
  ([], "e3b0c44298fc1c149afbf4c8996fb92427ae41e4649b934ca495991b7852b855")

/-- The first event of the log, which registers a publisher. -/
def Event.registered : Event := EventDraft.registered.asEvent (.ofTable [emptyRow]) 0 none

def registeredHash : String := "90c77bdb177bdf04ddf04ff6840293a504e631b03aa46414279f4887b0a13dac"

/-- The second event, which holds the hash of the first. -/
def Event.rotated : Event :=
  EventDraft.rotated.asEvent (.ofTable [emptyRow]) 1 (some registeredHash)

/-- The canonical text of an event, which is what is hashed, or nothing if it has
none. -/
def Event.text (event : Event) : Bytes := (canonicalize event.object).toOption.getD []

def rotatedHash : String := "c0c206c95d41de19ee1477134a141076c69f97794c518f568044c6e29f271b91"

def EventRuntime.sample : EventRuntime :=
  .ofTable [emptyRow, (Event.registered.text, registeredHash), (Event.rotated.text, rotatedHash)]

theorem Event.Stands.text_eq {event : Event} {value : Json.Value} (h : event.Stands value) :
    event.text = jsonText value := by
  rw [Event.text, h.text]
  rfl

theorem EventDraft.registered_stands (runtime : EventRuntime) (previous : Option String) :
    ∃ value, (registered.asEvent runtime 0 previous).Stands value := by
  have hValid : (registered.event runtime 0 previous).validate "$" = .ok () := by
    cases previous <;> rfl
  obtain ⟨value, hJson, hText⟩ := canonicalize_of_validate hValid
  exact ⟨value, hJson, hText⟩

theorem EventDraft.rotated_stands (runtime : EventRuntime) (sequence : Nat)
    (hSequence : sequence = 0 ∨ sequence = 1) (previous : Option String) :
    ∃ value, (rotated.asEvent runtime sequence previous).Stands value := by
  have hValid : (rotated.event runtime sequence previous).validate "$" = .ok () := by
    obtain rfl | rfl := hSequence <;> cases previous <;> rfl
  obtain ⟨value, hJson, hText⟩ := canonicalize_of_validate hValid
  exact ⟨value, hJson, hText⟩

section Sample

variable {runtime : EventRuntime}

theorem Event.registered_stands (runtime : EventRuntime) :
    ∃ value, registered.Stands value ∧ (eventChain runtime).position value 0 ∧
      (eventChain runtime).link value none := by
  obtain ⟨value, hStands⟩ := EventDraft.registered_stands (.ofTable [emptyRow]) none
  exact ⟨value, hStands, EventDraft.linked_asEvent hStands runtime⟩

theorem Event.rotated_stands (runtime : EventRuntime) :
    ∃ value, rotated.Stands value ∧ (eventChain runtime).position value 1 ∧
      (eventChain runtime).link value (some registeredHash) := by
  obtain ⟨value, hStands⟩ :=
    EventDraft.rotated_stands (.ofTable [emptyRow]) 1 (Or.inr rfl) (some registeredHash)
  exact ⟨value, hStands, EventDraft.linked_asEvent hStands runtime⟩

/-- The hash of an event whose digest the runtime knows, written in digits. -/
theorem Event.Stands.hash_eq {event : Event} {value : Json.Value} {digits : String}
    (h : event.Stands value) (hDigest : runtime.sha256 event.text = octetsOf digits) :
    (eventChain runtime).hash value = hexdigest (octetsOf digits) := by
  rw [← hDigest, h.text_eq]
  rfl

/-- Every runtime with the digest of the first event accepts the two events; that of
the second is not looked at. -/
theorem verifyChain_events (h : runtime.sha256 Event.registered.text = octetsOf registeredHash) :
    verifyChain runtime ([Event.registered, Event.rotated].map Event.object) = .ok () := by
  obtain ⟨first, hFirst, hPosition, hLink⟩ := Event.registered_stands runtime
  obtain ⟨second, hSecond, hNextPosition, hNextLink⟩ := Event.rotated_stands runtime
  have hHash : (eventChain runtime).hash first = registeredHash :=
    (hFirst.hash_eq h).trans (by decide +kernel)
  refine verifyChain_eq_ok.mpr ⟨[first, second], .cons hFirst (.cons hSecond .nil), ?_⟩
  exact ⟨hPosition, hLink, hNextPosition, hHash.symm ▸ hNextLink, trivial⟩

end Sample

end Tfws.Python
