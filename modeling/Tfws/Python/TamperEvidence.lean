import Mathlib.Logic.Equiv.Basic
import Tfws.Python.EventChain

/-! Tamper evidence: the last hash of an accepted log determines the log. -/
namespace Tfws.Python

open Fallible

/-- The events are the same JSON value; their dictionaries may differ in order. -/
def Event.SameValue (first second : Event) : Prop := Python.SameValue first.object second.object

theorem sameValues_of_stands {first second : List Event} {values : List Json.Value}
    (hFirst : List.Forall₂ Event.Stands first values)
    (hSecond : List.Forall₂ Event.Stands second values) :
    List.Forall₂ Event.SameValue first second := by
  induction hFirst generalizing second with
  | nil =>
      cases hSecond
      exact .nil
  | cons hEvent _ ih =>
      cases hSecond with
      | cons hOther hRest => exact .cons ⟨_, hEvent.json, hOther.json⟩ (ih hRest)

/-- Values of the profile do not collide under an injective digest, since their texts
differ. -/
theorem eventChain_hash_injective {runtime : EventRuntime}
    (hInjective : Function.Injective runtime.sha256) {first second : Json.Value}
    (hFirst : Object.InProfile first) (hSecond : Object.InProfile second)
    (h : (eventChain runtime).hash first = (eventChain runtime).hash second) : first = second :=
  jsonText_injective hFirst.plain hSecond.plain (hInjective (hexdigest_injective h))

/-- If the last event of an accepted log has the hash of an event of another one, then
the log is what the other one holds up to that event. Whoever keeps one hash can tell
every change before it. -/
theorem verifyChain_tamperEvident (runtime : EventRuntime)
    (hInjective : Function.Injective runtime.sha256) (log other : List Event)
    (hLog : verifyChain runtime (log.map Event.object) = .ok ())
    (hOther : verifyChain runtime (other.map Event.object) = .ok ())
    (last event : Event) (hLast : log.getLast? = some last) (place : Nat)
    (hEvent : other[place]? = some event)
    (hHash : hashEvent runtime last.object = hashEvent runtime event.object) :
    List.Forall₂ Event.SameValue log (other.take (place + 1)) := by
  obtain ⟨values, hValues, hLinked⟩ := verifyChain_eq_ok.mp hLog
  obtain ⟨others, hOthers, hOtherLinked⟩ := verifyChain_eq_ok.mp hOther
  obtain ⟨lastValue, hLastValue, hLastStands⟩ := Traversal.exists_getLast? hValues hLast
  obtain ⟨value, hValue, hStands⟩ := Traversal.exists_getElem? hOthers hEvent
  have hTip : (eventChain runtime).tip none values =
      (eventChain runtime).tip none (others.take (place + 1)) := by
    rw [HashChain.tip_of_getLast? hLastValue, HashChain.tip_take hValue]
    rw [hLastStands.hashEvent_eq, hStands.hashEvent_eq] at hHash
    exact congrArg some (Except.ok.inj hHash)
  have hProfile {events : List Event} {values : List Json.Value}
      (h : List.Forall₂ Event.Stands events values) (value) (hMem : value ∈ values) :
      Object.InProfile value :=
    have ⟨_, _, hStands⟩ := Traversal.exists_left h hMem
    hStands.inProfile
  have hSame := hLinked.eq_of_tip (hOtherLinked.take (place + 1))
    (fun first hFirst second hSecond => eventChain_hash_injective hInjective
      (hProfile hValues first hFirst) (hProfile hOthers second (List.mem_of_mem_take hSecond)))
    hTip
  exact sameValues_of_stands hValues (hSame ▸ List.forall₂_take _ hOthers)

/-- The two events have different texts, neither of which is a digest, so that the
swaps below do not meet. -/
theorem Event.registered_text_ne :
    registered.text ≠ rotated.text ∧ registered.text ≠ octetsOf rotatedHash := by
  obtain ⟨first, hFirst, hPosition, -⟩ := Event.registered_stands .sample
  obtain ⟨second, hSecond, hNextPosition, -⟩ := Event.rotated_stands .sample
  rw [hFirst.text_eq, hSecond.text_eq]
  constructor
  · intro hSame
    have hValues := jsonText_injective hFirst.inProfile.plain hSecond.inProfile.plain hSame
    have hPlaces := (eventChain .sample).position_unique hPosition (hValues ▸ hNextPosition)
    cases hPlaces
  · intro hSame
    obtain ⟨rest, hText⟩ := hFirst.text_eq_cons
    have hDigest : (octetsOf rotatedHash).head? = some 0xC0 := by decide
    rw [← hSame, hText] at hDigest
    cases hDigest

/-- A runtime with the digests of the two events, and without collisions: it only
exchanges octets for octets. -/
def EventRuntime.injective : EventRuntime where
  sha256 message := Equiv.swap Event.registered.text (octetsOf registeredHash)
    (Equiv.swap Event.rotated.text (octetsOf rotatedHash) message)
  float _ := 0
  floatEqual _ _ := false

theorem EventRuntime.injective_sha256 : Function.Injective EventRuntime.injective.sha256 :=
  (Equiv.injective _).comp (Equiv.injective _)

theorem EventRuntime.injective_registered :
    EventRuntime.injective.sha256 Event.registered.text = octetsOf registeredHash := by
  obtain ⟨hText, hDigest⟩ := Event.registered_text_ne
  rw [injective]
  simp only [Equiv.swap_apply_of_ne_of_ne hText hDigest, Equiv.swap_apply_left]

theorem EventRuntime.injective_rotated :
    EventRuntime.injective.sha256 Event.rotated.text = octetsOf rotatedHash := by
  obtain ⟨-, hDigest⟩ := Event.registered_text_ne
  have hDigests : octetsOf rotatedHash ≠ octetsOf registeredHash := by decide
  rw [injective]
  simp only [Equiv.swap_apply_left, Equiv.swap_apply_of_ne_of_ne hDigest.symm hDigests]

def EventDraft.recovered : EventDraft where
  eventId := "0f9b6d52-7c3e-4a18-b2d4-6e1f8a5c7093"
  occurredAt := "2026-07-21T00:00:02Z"
  eventType := .str "key_recovered"
  subject := .str "https://example.com"
  payload := .dict [(.str "epoch", .int 3)]
  privateDetails := []

/-- A third event, behind the two of the log, for the sample below. -/
def Event.recovered : Event :=
  EventDraft.recovered.asEvent (.ofTable [emptyRow]) 2 (some rotatedHash)

/-- Every runtime with the digests of the first two events accepts all three. -/
theorem verifyChain_recovered {runtime : EventRuntime}
    (hFirst : runtime.sha256 Event.registered.text = octetsOf registeredHash)
    (hSecond : runtime.sha256 Event.rotated.text = octetsOf rotatedHash) :
    verifyChain runtime
      ([Event.registered, Event.rotated, Event.recovered].map Event.object) = .ok () := by
  obtain ⟨first, hRegistered, hPosition, hLink⟩ := Event.registered_stands runtime
  obtain ⟨second, hRotated, hNextPosition, hNextLink⟩ := Event.rotated_stands runtime
  have hValid : (EventDraft.recovered.event (.ofTable [emptyRow]) 2 (some rotatedHash)).validate
      "$" = .ok () := rfl
  obtain ⟨third, hJson, hText⟩ := canonicalize_of_validate hValid
  have hRecovered : Event.recovered.Stands third := ⟨hJson, hText⟩
  obtain ⟨hLastPosition, hLastLink⟩ := EventDraft.linked_asEvent hRecovered runtime
  have hHash : (eventChain runtime).hash first = registeredHash :=
    (hRegistered.hash_eq hFirst).trans (by decide)
  have hNextHash : (eventChain runtime).hash second = rotatedHash :=
    (hRotated.hash_eq hSecond).trans (by decide +kernel)
  refine verifyChain_eq_ok.mpr
    ⟨[first, second, third], .cons hRegistered (.cons hRotated (.cons hRecovered .nil)), ?_⟩
  exact ⟨hPosition, hLink, hNextPosition, hHash.symm ▸ hNextLink, hLastPosition,
    hNextHash.symm ▸ hLastLink, trivial⟩

/-- A log of two events, and the log of three events that it became. -/
theorem verifyChain_tamperEvident_sample :
    List.Forall₂ Event.SameValue [Event.registered, Event.rotated]
      ([Event.registered, Event.rotated, Event.recovered].take 2) := by
  exact verifyChain_tamperEvident .injective EventRuntime.injective_sha256
    [Event.registered, Event.rotated] [Event.registered, Event.rotated, Event.recovered]
    (verifyChain_events EventRuntime.injective_registered)
    (verifyChain_recovered EventRuntime.injective_registered EventRuntime.injective_rotated)
    Event.rotated Event.rotated rfl 1 rfl rfl

end Tfws.Python
