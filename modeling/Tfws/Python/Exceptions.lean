import Tfws.Python.CanonicalDecoding
import Tfws.Python.Crypto

/-! Which exceptions leave the decoder of `tfws3/canonical.py` and the policy of
`tfws3/models.py`: the policy lets one through when a timestamp has no instant
in UTC. -/
namespace Tfws.Python

open Fallible Cbor

/-- Every result or an exception of interoperability: the callers catch nothing else,
and so end with anything else. -/
abbrev FailsClosed {α : Type} (result : Result α) : Prop :=
  Outcome result (fun _ => True) Exception.Interoperability

/-- `decode_manifest_cbor` turns the exception into one of interoperability.
Exceptions of the cryptography and of arithmetic are not among them. -/
abbrev Exception.Caught (exception : Exception) : Prop := caught exception = true

/-- Sorting is the one thing in the messages that can fail: the members of a
set need not be comparable. -/
def Runtime.SortsOrTypeError (runtime : Runtime) : Prop :=
  ∀ items, Outcome (runtime.sortedText items) (fun _ => True)
    fun exception => ∃ message, exception = .typeError message

theorem failIf_outcome {bad : Prop} [Decidable bad] {exception : Exception}
    {returns : Unit → Prop} {raises : Exception → Prop} (hRaises : raises exception)
    (hReturns : returns ()) : Outcome (failIf bad exception) returns raises :=
  (Outcome.lastCheck fun _ => hRaises).mono fun _ _ => hReturns

/-- The structural stage fails closed, whatever its flags, so that only the policy can
let an exception out. -/
theorem decodeCborDocument_failsClosed (flags : Flags) (data : Bytes) :
    FailsClosed (decodeCborDocument flags data) := by
  refine Outcome.check (fun _ => trivial) fun _ => ?_
  refine (decodeItem_outcome data).bind fun _ _ => ?_
  exact Outcome.check (fun _ => trivial) fun _ => trivial

mutual
/-- Whatever the second pass objects to is an unsupported type, under a message with
the path. -/
theorem validateManifestCborValue_raises (path : String) :
    ∀ object : Object, Outcome (validateManifestCborValue path object) (fun _ => True)
      fun exception => ∃ message, exception = unsupported message
  | .str _ => by rw [validateManifestCborValue]; trivial
  | .bool _ => by rw [validateManifestCborValue]; trivial
  | .int value => by
      rw [validateManifestCborValue]
      exact failIf_outcome ⟨_, rfl⟩ trivial
  | .list items => by
      rw [validateManifestCborValue]
      exact validateManifestCborItems_raises path 0 items
  | .dict entries => by
      rw [validateManifestCborValue]
      exact validateManifestCborEntries_raises path entries
  | .none => by unfold validateManifestCborValue; exact ⟨_, rfl⟩
  | .float _ => by unfold validateManifestCborValue; exact ⟨_, rfl⟩
  | .bytes _ => by unfold validateManifestCborValue; exact ⟨_, rfl⟩
  | .tag _ _ => by unfold validateManifestCborValue; exact ⟨_, rfl⟩

theorem validateManifestCborItems_raises (path : String) (index : Nat) :
    ∀ items : List Object, Outcome (validateManifestCborItems path index items) (fun _ => True)
      fun exception => ∃ message, exception = unsupported message
  | [] => by rw [validateManifestCborItems]; trivial
  | item :: rest => by
      rw [validateManifestCborItems]
      exact (validateManifestCborValue_raises _ item).bind fun _ _ =>
        validateManifestCborItems_raises path (index + 1) rest

theorem validateManifestCborEntries_raises (path : String) :
    ∀ entries : List (Key × Object), Outcome (validateManifestCborEntries path entries)
      (fun _ => True) fun exception => ∃ message, exception = unsupported message
  | [] => by rw [validateManifestCborEntries]; trivial
  | (.str text, item) :: rest => by
      rw [validateManifestCborEntries]
      exact (validateManifestCborValue_raises _ item).bind fun _ _ =>
        validateManifestCborEntries_raises path rest
  | (.int _, _) :: _ => by unfold validateManifestCborEntries; exact ⟨_, rfl⟩
  | (.bool _, _) :: _ => by unfold validateManifestCborEntries; exact ⟨_, rfl⟩
  | (.bytes _, _) :: _ => by unfold validateManifestCborEntries; exact ⟨_, rfl⟩
end

theorem validateManifestCborValue_failsClosed (path : String) (object : Object) :
    FailsClosed (validateManifestCborValue path object) := by
  cases hResult : validateManifestCborValue path object with
  | ok _ => trivial
  | error exception =>
      obtain ⟨message, rfl⟩ := (validateManifestCborValue_raises path object).of_error hResult
      trivial

section Policy

variable {runtime : Runtime} {data : List (Key × Object)}

/-- Every result or an exception that `decode_manifest_cbor` catches: what each check
of the policy is shown to raise at most. -/
abbrev Catches {α : Type} (result : Result α) : Prop :=
  Outcome result (fun _ => True) Exception.Caught

theorem getItem_outcome (name : String) (entries : List (Key × Object)) :
    Outcome (Object.getItem name entries)
      (fun object => Object.get (.str name) entries = some object) Exception.Caught := by
  unfold Object.getItem
  split
  case h_1 object hGet => exact hGet
  case h_2 => rfl

theorem textOr_outcome {error : Exception} (hError : error.Caught) (object : Object) :
    Outcome (textOr error object) (fun text => object = .str text) Exception.Caught := by
  cases object with
  | str text => rfl
  | none | bool _ | int _ | float _ | bytes _ | list _ | dict _ | tag _ _ => exact hError

theorem setOf_catches (items : List Object) : Catches (Object.setOf items) := by
  unfold Object.setOf
  split
  case isTrue => trivial
  case isFalse => rfl

theorem tuple_catches (object : Object) : Catches object.tuple := by
  cases object with
  | list _ | str _ | bytes _ | dict _ => trivial
  | none | bool _ | int _ | float _ | tag _ _ => rfl

theorem raiseIf_catches (hSorted : runtime.SortsOrTypeError) (bad : Prop) [Decidable bad]
    (items : List Object) (error : String → Exception) (hError : ∀ text, (error text).Caught) :
    Catches (raiseIf bad do .ok (error (← runtime.sortedText items))) := by
  unfold raiseIf
  split
  case isTrue =>
    have hText := hSorted items
    cases hCase : runtime.sortedText items with
    | ok text => exact hError text
    | error exception =>
        obtain ⟨message, rfl⟩ := hText.of_error hCase
        rfl
  case isFalse => trivial

theorem urlparse_catches (object : Object) : Catches (urlparse runtime object) := by
  cases object with
  | str text => exact Outcome.mapError fun _ => rfl
  | none | bool _ | int _ | float _ | bytes _ | list _ | dict _ | tag _ _ =>
      exact Outcome.check (fun _ => rfl) fun _ => trivial

/-- The members of a descriptor that later code reads without a check, because the
policy has looked at them. -/
structure BoundDescriptor (descriptor : List (Key × Object)) : Prop where
  algorithm : ∃ algorithm, Object.get (.str "algorithm") descriptor = some (.str algorithm)
  keyId : ∃ keyId, Object.get (.str "key_id") descriptor = some (.str keyId)
  publicKeySha256 : ∃ digest, Object.get (.str "public_key_sha256") descriptor = some digest

theorem validateKeyDescriptor_outcome (seenAlgorithms : List String)
    (seenIds : List (String × String)) (index : String) (descriptor : List (Key × Object)) :
    Outcome (validateKeyDescriptor seenAlgorithms seenIds index descriptor)
      (fun _ => BoundDescriptor descriptor) Exception.Caught := by
  refine Outcome.check (fun _ => rfl) fun _ => ?_
  refine (getItem_outcome _ _).bind fun object hAlgorithm => ?_
  refine (textOr_outcome rfl object).bind fun algorithm hAlgorithmText => ?_
  refine Outcome.check (fun _ => rfl) fun _ => ?_
  refine (getItem_outcome _ _).bind fun object' hKeyId => ?_
  refine (textOr_outcome rfl object').bind fun keyId hKeyIdText => ?_
  refine Outcome.check (fun _ => rfl) fun _ => ?_
  refine Outcome.check (fun _ => rfl) fun _ => ?_
  refine (getItem_outcome _ _).bind fun _ _ => ?_
  refine Outcome.check (fun _ => rfl) fun _ => ?_
  refine (getItem_outcome _ _).bind fun digest hDigest => ?_
  refine Outcome.check (fun _ => rfl) fun _ => ?_
  refine (getItem_outcome _ _).bind fun _ _ => ?_
  refine (getItem_outcome _ _).bind fun _ _ => ?_
  refine Outcome.check (fun _ => rfl) fun _ => ?_
  exact ⟨⟨algorithm, hAlgorithmText ▸ hAlgorithm⟩, ⟨keyId, hKeyIdText ▸ hKeyId⟩, digest, hDigest⟩

/-- Every key is a dictionary with the members that later code reads, whatever else it
holds. -/
def BoundKeys (keys : List Object) : Prop :=
  ∀ key ∈ keys, ∃ descriptor, key = .dict descriptor ∧ BoundDescriptor descriptor

/-- The loop over the keys raises what is caught, and what passes it is bound. -/
theorem validateKeyList_outcome (keys : List Object) :
    ∀ (seenAlgorithms : List String) (seenIds : List (String × String)) (index : Nat),
      Outcome (validateKeyList seenAlgorithms seenIds index keys) (fun _ => BoundKeys keys)
        Exception.Caught := by
  induction keys with
  | nil =>
      intro seenAlgorithms seenIds index
      exact List.forall_mem_nil _
  | cons key rest ih =>
      intro seenAlgorithms seenIds index
      cases key with
      | dict descriptor =>
          refine (validateKeyDescriptor_outcome _ _ _ descriptor).bind fun _ hDescriptor => ?_
          refine (ih _ _ _).mono fun _ hRest => ?_
          exact List.forall_mem_cons.mpr ⟨⟨descriptor, rfl, hDescriptor⟩, hRest⟩
      | none | bool _ | int _ | float _ | str _ | bytes _ | list _ | tag _ _ => rfl

/-- What passes the check of the keys has bound keys, or none in development; it
raises nothing that is not caught. -/
theorem validateKeyDescriptors_outcome (allowUnboundDevelopment : Bool) :
    Outcome (validateKeyDescriptors allowUnboundDevelopment data)
      (fun _ => ∃ keys, Object.get (.str "keys") data = some (.list keys) ∧ BoundKeys keys)
      Exception.Caught := by
  unfold validateKeyDescriptors
  split
  case h_1 keys hKeys =>
    split
    case isTrue hNone =>
      obtain ⟨rfl, -, -⟩ := hNone
      exact ⟨[], hKeys, List.forall_mem_nil _⟩
    case isFalse =>
      refine Outcome.check (fun _ => rfl) fun _ => ?_
      refine (validateKeyList_outcome keys _ _ _).bind fun _ hBound => ?_
      exact failIf_outcome rfl ⟨keys, hKeys, hBound⟩
  case h_2 => rfl

theorem validatePolicy_catches (object : Object) : Catches (validatePolicy object) := by
  cases object with
  | dict policy =>
      refine Outcome.check (fun _ => rfl) fun _ => ?_
      refine (tuple_catches _).bind fun _ _ => ?_
      exact failIf_outcome rfl trivial
  | none | bool _ | int _ | float _ | str _ | bytes _ | list _ | tag _ _ => rfl

theorem validateCapabilities_catches (hSorted : runtime.SortsOrTypeError) (object : Object) :
    Catches (validateCapabilities runtime object) := by
  cases object with
  | dict capabilities =>
      refine Outcome.check (fun _ => rfl) fun _ => ?_
      split
      case h_1 =>
        refine (setOf_catches _).bind fun _ _ => Outcome.check (fun _ => rfl) fun _ => ?_
        refine (setOf_catches _).bind fun _ _ => Outcome.check (fun _ => rfl) fun _ => ?_
        refine Outcome.check (fun _ => rfl) fun _ => ?_
        exact raiseIf_catches hSorted _ _ _ fun _ => rfl
      case h_2 => rfl
  | none | bool _ | int _ | float _ | str _ | bytes _ | list _ | tag _ _ => rfl

theorem validateOperator_catches (object : Object) : Catches (validateOperator object) := by
  cases object with
  | dict operator =>
      refine Outcome.check (fun _ => rfl) fun _ => ?_
      exact failIf_outcome rfl trivial
  | none | bool _ | int _ | float _ | str _ | bytes _ | list _ | tag _ _ => rfl

theorem validateArtifact_catches (index : String) (artifact : List (Key × Object)) :
    Catches (validateArtifact index artifact) := by
  refine Outcome.check (fun _ => rfl) fun _ => ?_
  refine (getItem_outcome _ _).bind fun _ _ => Outcome.check (fun _ => rfl) fun _ => ?_
  refine (getItem_outcome _ _).bind fun _ _ => Outcome.check (fun _ => rfl) fun _ => ?_
  refine (getItem_outcome _ _).bind fun _ _ => ?_
  exact failIf_outcome rfl trivial

theorem validateArtifacts_catches (artifacts : List Object) (index : Nat) :
    Catches (validateArtifacts index artifacts) := by
  induction artifacts generalizing index with
  | nil => trivial
  | cons artifact rest ih =>
      cases artifact with
      | dict artifact => exact (validateArtifact_catches _ artifact).bind fun _ _ => ih (index + 1)
      | none | bool _ | int _ | float _ | str _ | bytes _ | list _ | tag _ _ => rfl

/-- The timestamp is readable and has a time zone, and `instant` is its instant
in UTC, or none is in the range of dates. -/
def Names (runtime : Runtime) (timestamp : Object) (instant : Option Int) : Prop :=
  ∃ text parsed, timestamp = .str text ∧
    runtime.fromisoformat (replaceZ text) = .ok parsed ∧ parsed.tzinfo = true ∧
    parsed.utc = instant

/-- The first timestamp to be converted that has no instant in UTC: `updated_at`,
or behind it `expires_at`. -/
def TimesOverflow (runtime : Runtime) (data : List (Key × Object)) : Prop :=
  ∃ updated, Object.get (.str "updated_at") data = some updated ∧
    (Names runtime updated none ∨ ∃ instant expires, Names runtime updated (some instant) ∧
      Object.get (.str "expires_at") data = some expires ∧ Names runtime expires none)

/-- The exception of a conversion out of the range of dates, which no caller
expects. -/
def outOfRange : Exception := .overflowError "date value out of range"

/-- A timestamp is read as its instant, is refused, or has no instant and raises
another exception. -/
theorem parseRfc3339_outcome (timestamp : Object) :
    Outcome (parseRfc3339 runtime timestamp) (fun instant => Names runtime timestamp (some instant))
      fun exception => exception.Caught ∨
        (exception = outOfRange ∧ Names runtime timestamp none) := by
  cases timestamp with
  | str text =>
      cases hParsed : runtime.fromisoformat (replaceZ text) with
      | error message =>
          rw [parseRfc3339, hParsed]
          exact Or.inl rfl
      | ok parsed =>
          rw [parseRfc3339, hParsed, mapError_ok, ok_bind]
          refine Outcome.check (fun _ => Or.inl rfl) fun hZone => ?_
          have hNames : ∀ instant, parsed.utc = instant → Names runtime (.str text) instant :=
            fun _ hUtc => ⟨text, parsed, rfl, hParsed, by simpa using hZone, hUtc⟩
          cases hUtc : parsed.utc with
          | none => exact Or.inr ⟨rfl, hNames none hUtc⟩
          | some instant => exact hNames (some instant) hUtc
  | none | bool _ | int _ | float _ | bytes _ | list _ | dict _ | tag _ _ => exact Or.inl rfl

theorem parseRfc3339_of_names {timestamp : Object} {instant : Int}
    (h : Names runtime timestamp (some instant)) : parseRfc3339 runtime timestamp = .ok instant := by
  obtain ⟨text, parsed, rfl, hParsed, hZone, hUtc⟩ := h
  simp [parseRfc3339, hParsed, hZone, hUtc, failIf_of_not]

theorem parseRfc3339_of_names_none {timestamp : Object} (h : Names runtime timestamp none) :
    parseRfc3339 runtime timestamp = .error outOfRange := by
  obtain ⟨text, parsed, rfl, hParsed, hZone, hUtc⟩ := h
  simp [parseRfc3339, hParsed, hZone, hUtc, failIf_of_not, outOfRange]

/-- Checking the times raises what is caught, or goes out of range, and then a time
overflows. -/
theorem validateTimes_outcome :
    Outcome (validateTimes runtime data) (fun _ => True) fun exception =>
      exception.Caught ∨ (exception = outOfRange ∧ TimesOverflow runtime data) := by
  unfold validateTimes Object.getItem
  cases hUpdated : Object.get (.str "updated_at") data with
  | none => exact Or.inl rfl
  | some updated =>
      rw [ok_bind]
      have hFirst := @parseRfc3339_outcome runtime updated
      cases hParsed : parseRfc3339 runtime updated with
      | error exception =>
          obtain hCaught | ⟨hRange, hNames⟩ := hFirst.of_error hParsed
          · exact Or.inl hCaught
          · exact Or.inr ⟨hRange, updated, hUpdated, Or.inl hNames⟩
      | ok instant =>
          have hInstant := hFirst.of_ok hParsed
          rw [ok_bind]
          cases hExpires : Object.get (.str "expires_at") data with
          | none => trivial
          | some expires =>
              have hSecond := @parseRfc3339_outcome runtime expires
              cases hParsed' : parseRfc3339 runtime expires with
              | error exception =>
                  rw [validateExpiry, hParsed']
                  obtain hCaught | ⟨hRange, hNames⟩ := hSecond.of_error hParsed'
                  · exact Or.inl hCaught
                  · exact Or.inr ⟨hRange, updated, hUpdated,
                      Or.inr ⟨instant, expires, hInstant, hExpires, hNames⟩⟩
              | ok _ =>
                  rw [validateExpiry, hParsed']
                  exact failIf_outcome (Or.inl rfl) trivial

/-- Where a time overflows, the exception of the conversion is raised, and nothing
after it is looked at. -/
theorem validateTimes_of_overflow (h : TimesOverflow runtime data) :
    validateTimes runtime data = .error outOfRange := by
  obtain ⟨updated, hUpdated, hNone | ⟨instant, expires, hInstant, hExpires, hNone⟩⟩ := h
  · simp [validateTimes, Object.getItem, hUpdated, parseRfc3339_of_names_none hNone]
  · simp [validateTimes, Object.getItem, hUpdated, parseRfc3339_of_names hInstant, hExpires,
      validateExpiry, parseRfc3339_of_names_none hNone]

end Policy

end Tfws.Python
