import Tfws.Core.CborStructure
import Tfws.Core.Cose
import Tfws.Data.Budget

/-! Raising a limit changes nothing but failures for that limit. -/
namespace Tfws

open SerdeJson Fallible

/-- No limit is larger than its counterpart, and some may be the same. -/
structure CborLimits.AtMost (limits larger : CborLimits) : Prop where
  maxManifestBytes : limits.maxManifestBytes ≤ larger.maxManifestBytes
  maxDepth : limits.maxDepth ≤ larger.maxDepth
  maxMapPairs : limits.maxMapPairs ≤ larger.maxMapPairs
  maxArrayItems : limits.maxArrayItems ≤ larger.maxArrayItems
  maxStringBytes : limits.maxStringBytes ≤ larger.maxStringBytes

/-- No limit is larger than its counterpart, those of the codec included. -/
structure CoseLimits.AtMost (limits larger : CoseLimits) : Prop where
  maxEnvelopeBytes : limits.maxEnvelopeBytes ≤ larger.maxEnvelopeBytes
  cbor : limits.cbor.AtMost larger.cbor

theorem CborLimits.AtMost.refl (limits : CborLimits) : limits.AtMost limits :=
  ⟨UInt64.le_refl _, UInt64.le_refl _, UInt64.le_refl _, UInt64.le_refl _, UInt64.le_refl _⟩

/-- What is within smaller limits is within larger ones, at every depth. -/
theorem Admissible.mono {limits larger : CborLimits} (hLimits : limits.AtMost larger) {depth : Nat}
    {value : Value} (h : Admissible limits depth value) : Admissible larger depth value := by
  have hDepth := UInt64.le_iff_toNat_le.mp hLimits.maxDepth
  have hString := UInt64.le_iff_toNat_le.mp hLimits.maxStringBytes
  induction h with
  | bool shallow => exact .bool (shallow.trans hDepth)
  | number shallow integer isInteger safe =>
      exact .number (shallow.trans hDepth) integer isInteger safe
  | string shallow short => exact .string (shallow.trans hDepth) (short.trans hString)
  | array shallow short _ ih =>
      exact .array (shallow.trans hDepth)
        (short.trans (UInt64.le_iff_toNat_le.mp hLimits.maxArrayItems)) ih
  | object shallow short keys _ ih =>
      exact .object (shallow.trans hDepth)
        (short.trans (UInt64.le_iff_toNat_le.mp hLimits.maxMapPairs))
        (fun entry hMem => (keys entry hMem).trans hString) ih

/-- The error says that a limit was exceeded. It is the one outcome that larger limits
may change. -/
abbrev CborCodecError.Limit (error : CborCodecError) : Prop := error.category = "resource_limit"

/-- An error for a limit, of the envelope or of its payload, told by its category. -/
abbrev CoseEnvelopeError.Limit (error : CoseEnvelopeError) : Prop :=
  error.category = "resource_limit"

section Decoding

variable {crates : Crates} {limits larger : CborLimits}
  {decodeItem decodeItem' : Bytes → CborResult (Value × Bytes)}

/-- A length that the larger limit refuses, the smaller one has refused. All checks of
limits are of this form. -/
theorem checkLimit {limit limit' : UInt64} (h : limit ≤ limit') (length : Nat) (name : String) :
    SameUnless CborCodecError.Limit (failIf (limit.toNat < length) (.resourceLimit name))
      (failIf (limit'.toNat < length) (.resourceLimit name)) :=
  SameUnless.check rfl fun hExceeds => (UInt64.le_iff_toNat_le.mp h).trans_lt hExceeds

theorem decodeItems_sameUnless
    (hItem : ∀ input, SameUnless CborCodecError.Limit (decodeItem input) (decodeItem' input))
    (count : Nat) (input : Bytes) :
    SameUnless CborCodecError.Limit (decodeItems decodeItem count input)
      (decodeItems decodeItem' count input) := by
  induction count generalizing input with
  | zero => exact .refl _
  | succ count ih =>
      apply (hItem input).bind
      intro item _ _
      apply (ih item.2).bind
      intro items _ _
      exact .refl _

theorem decodeArray_sameUnless (hLimits : limits.AtMost larger)
    (hItem : ∀ input, SameUnless CborCodecError.Limit (decodeItem input) (decodeItem' input))
    (input : Bytes) :
    SameUnless CborCodecError.Limit (decodeArray crates limits decodeItem input)
      (decodeArray crates larger decodeItem' input) := by
  apply SameUnless.step
  intro head _
  obtain ⟨length, rest⟩ := head
  cases length with
  | none => exact .refl _
  | some length =>
      apply SameUnless.bind
      · exact SameUnless.check rfl fun hExceeds =>
          UInt64.lt_of_le_of_lt hLimits.maxArrayItems hExceeds
      · intro _ _ _
        apply (decodeItems_sameUnless hItem length.toNat rest).bind
        intro items _ _
        exact .refl _

theorem decodeKey_sameUnless (hLimits : limits.AtMost larger) (input : Bytes) :
    SameUnless CborCodecError.Limit (decodeKey crates limits input)
      (decodeKey crates larger input) := by
  apply SameUnless.step
  intro keyType _
  apply SameUnless.step
  intro _ _
  apply SameUnless.step
  intro _ _
  apply SameUnless.step
  intro key _
  apply (checkLimit hLimits.maxStringBytes _ _).bind
  intro _ _ _
  exact .refl _

/-- The entries of a map, by induction on their number. What has been read so far is
the same in both runs. -/
theorem decodeEntries_sameUnless (hLimits : limits.AtMost larger)
    (hItem : ∀ input, SameUnless CborCodecError.Limit (decodeItem input) (decodeItem' input))
    (count : Nat) (entries : List (String × Value)) (seen : List String)
    (previous : Option Bytes) (input : Bytes) :
    SameUnless CborCodecError.Limit
      (decodeEntries crates limits decodeItem count entries seen previous input)
      (decodeEntries crates larger decodeItem' count entries seen previous input) := by
  induction count generalizing entries seen previous input with
  | zero => exact .refl _
  | succ count ih =>
      apply (decodeKey_sameUnless hLimits input).bind
      intro key _ _
      apply SameUnless.step
      intro _ _
      apply SameUnless.step
      intro _ _
      apply (hItem key.2.2).bind
      intro value _ _
      exact ih _ _ _ _

theorem decodeMap_sameUnless (hLimits : limits.AtMost larger)
    (hItem : ∀ input, SameUnless CborCodecError.Limit (decodeItem input) (decodeItem' input))
    (input : Bytes) :
    SameUnless CborCodecError.Limit (decodeMap crates limits decodeItem input)
      (decodeMap crates larger decodeItem' input) := by
  apply SameUnless.step
  intro head _
  obtain ⟨length, rest⟩ := head
  cases length with
  | none => exact .refl _
  | some length =>
      apply SameUnless.bind
      · exact SameUnless.check rfl fun hExceeds =>
          UInt64.lt_of_le_of_lt hLimits.maxMapPairs hExceeds
      · intro _ _ _
        apply (decodeEntries_sameUnless hLimits hItem length.toNat [] [] none rest).bind
        intro entries _ _
        exact .refl _

theorem decodeScalar_sameUnless (hLimits : limits.AtMost larger) (type : Minicbor.DataType)
    (input : Bytes) :
    SameUnless CborCodecError.Limit (decodeScalar crates limits type input)
      (decodeScalar crates larger type input) := by
  cases type with
  | string =>
      apply SameUnless.step
      intro text _
      apply (checkLimit hLimits.maxStringBytes _ _).bind
      intro _ _ _
      exact .refl _
  | _ => exact .refl _

/-- By induction on the levels that the smaller limit leaves: below it, the two runs
are at the same depth. -/
theorem decodeValue_sameUnless (hLimits : limits.AtMost larger) (depth : Nat) (input : Bytes) :
    SameUnless CborCodecError.Limit (decodeValue crates limits depth input)
      (decodeValue crates larger depth input) := by
  have hDepth : limits.maxDepth.toNat ≤ larger.maxDepth.toNat :=
    UInt64.le_iff_toNat_le.mp hLimits.maxDepth
  induction hLevels : limits.maxDepth.toNat + 1 - depth generalizing depth input with
  | zero =>
      rw [decodeValue, if_pos (by omega)]
      exact SameUnless.stopped (show CborCodecError.Limit _ from rfl) _
  | succ levels ih =>
      have hItem := fun input => ih (depth + 1) input (by omega)
      rw [decodeValue_of_shallow (by omega), decodeValue_of_shallow (by omega)]
      apply SameUnless.step
      intro type _
      cases type with
      | array => exact decodeArray_sameUnless hLimits hItem input
      | map => exact decodeMap_sameUnless hLimits hItem input
      | _ => exact decodeScalar_sameUnless hLimits _ input

theorem decodeStructure_sameUnless (hLimits : limits.AtMost larger) (input : Bytes) :
    SameUnless CborCodecError.Limit (decodeStructure crates input limits)
      (decodeStructure crates input larger) := by
  apply (checkLimit hLimits.maxManifestBytes _ _).bind
  intro _ _ _
  apply SameUnless.step
  intro _ _
  apply (decodeValue_sameUnless hLimits 0 input).bind
  intro decoded hDecoded hDecoded'
  obtain ⟨value, rest⟩ := decoded
  -- What has been decoded can be encoded again under either limits.
  simp only [encodeValueToVec_of_decodeValue hDecoded, encodeValueToVec_of_decodeValue hDecoded']
  exact .refl _

/-- The decoder under two limits: it repeats its outcome or was stopped by the smaller
one. -/
theorem decodeManifestCbor_sameUnless (hLimits : limits.AtMost larger) (input : Bytes) :
    SameUnless CborCodecError.Limit (decodeManifestCbor crates input limits)
      (decodeManifestCbor crates input larger) := by
  apply (decodeStructure_sameUnless hLimits input).bind
  intro value _ _
  exact .refl _

end Decoding

section Envelopes

variable {crates : Crates} {limits larger : CoseLimits}

theorem guardLength_sameUnless {α : Type} {maximum maximum' : UInt64} (h : maximum ≤ maximum')
    (length : Nat) (name : String) (result : CoseResult α) :
    SameUnless CoseEnvelopeError.Limit
      (failIf (maximum.toNat < length) (.resourceLimit name) >>= fun _ => result)
      (failIf (maximum'.toNat < length) (.resourceLimit name) >>= fun _ => result) := by
  apply SameUnless.bind
  · exact SameUnless.check rfl fun hExceeds => (UInt64.le_iff_toNat_le.mp h).trans_lt hExceeds
  · intro _ _ _
    exact .refl _

theorem readBytes_sameUnless {maximum maximum' : UInt64} (h : maximum ≤ maximum') (name : String)
    (input : Bytes) :
    SameUnless CoseEnvelopeError.Limit (readBytes crates maximum name input)
      (readBytes crates maximum' name input) := by
  apply SameUnless.step
  intro type _
  apply SameUnless.step
  intro _ _
  apply SameUnless.step
  intro _ _
  apply SameUnless.step
  intro read _
  exact guardLength_sameUnless h _ name _

theorem readText_sameUnless {maximum maximum' : UInt64} (h : maximum ≤ maximum') (name : String)
    (input : Bytes) :
    SameUnless CoseEnvelopeError.Limit (readText crates maximum name input)
      (readText crates maximum' name input) := by
  apply SameUnless.step
  intro type _
  apply SameUnless.step
  intro _ _
  apply SameUnless.step
  intro _ _
  apply SameUnless.step
  intro read _
  exact guardLength_sameUnless h _ name _

theorem validateFixedShapeLimits_sameUnless (hLimits : limits.AtMost larger) :
    SameUnless CoseEnvelopeError.Limit (validateFixedShapeLimits limits)
      (validateFixedShapeLimits larger) := by
  apply SameUnless.bind
  · exact SameUnless.check rfl fun h => UInt64.lt_of_le_of_lt hLimits.cbor.maxDepth h
  intro _ _ _
  apply SameUnless.bind
  · exact SameUnless.check rfl fun h => UInt64.lt_of_le_of_lt hLimits.cbor.maxArrayItems h
  intro _ _ _
  exact SameUnless.check rfl fun h => UInt64.lt_of_le_of_lt hLimits.cbor.maxMapPairs h

theorem validateBodyProtected_sameUnless (hLimits : limits.AtMost larger) (input : Bytes) :
    SameUnless CoseEnvelopeError.Limit (validateBodyProtected crates limits input)
      (validateBodyProtected crates larger input) := by
  have hText := @readText_sameUnless crates _ _ hLimits.cbor.maxStringBytes
  apply SameUnless.step
  intro map _
  apply SameUnless.step
  intro _ _
  apply SameUnless.step
  intro label _
  apply SameUnless.step
  intro _ _
  apply (hText "content type" label.2).bind
  intro contentType _ _
  apply SameUnless.step
  intro _ _
  apply SameUnless.step
  intro secondLabel _
  apply SameUnless.step
  intro _ _
  apply (hText "typ" secondLabel.2).bind
  intro type _ _
  exact .refl _

theorem validateSignatureProtected_sameUnless (hLimits : limits.AtMost larger)
    (algorithm : CoseAlgorithm) (input : Bytes) :
    SameUnless CoseEnvelopeError.Limit
      (validateSignatureProtected crates limits algorithm input)
      (validateSignatureProtected crates larger algorithm input) := by
  apply SameUnless.step
  intro map _
  apply SameUnless.step
  intro _ _
  apply SameUnless.step
  intro label _
  apply SameUnless.step
  intro _ _
  apply SameUnless.step
  intro value _
  apply SameUnless.step
  intro _ _
  apply SameUnless.step
  intro secondLabel _
  apply SameUnless.step
  intro _ _
  apply (readBytes_sameUnless hLimits.cbor.maxStringBytes _ _).bind
  intro kid _ _
  exact .refl _

theorem parseSignature_sameUnless (hLimits : limits.AtMost larger) (algorithm : CoseAlgorithm)
    (input : Bytes) :
    SameUnless CoseEnvelopeError.Limit (parseSignature crates limits algorithm input)
      (parseSignature crates larger algorithm input) := by
  have hBytes := @readBytes_sameUnless crates _ _ hLimits.cbor.maxStringBytes
  apply SameUnless.step
  intro rest _
  apply (hBytes _ rest).bind
  intro header _ _
  apply (validateSignatureProtected_sameUnless hLimits algorithm header.1).bind
  intro kid _ _
  apply SameUnless.step
  intro rest _
  apply (hBytes _ rest).bind
  intro signature _ _
  exact .refl _

theorem parseSignatures_sameUnless (hLimits : limits.AtMost larger)
    (algorithms : List CoseAlgorithm) (input : Bytes) :
    SameUnless CoseEnvelopeError.Limit (parseSignatures crates limits algorithms input)
      (parseSignatures crates larger algorithms input) := by
  induction algorithms generalizing input with
  | nil => exact .refl _
  | cons algorithm algorithms ih =>
      apply (parseSignature_sameUnless hLimits algorithm input).bind
      intro signature _ _
      apply (ih signature.2).bind
      intro signatures _ _
      exact .refl _

/-- The parser under two limits. It compares with the deterministic encoding, which
has none. -/
theorem parseEnvelope_sameUnless (hLimits : limits.AtMost larger) (input : Bytes) :
    SameUnless CoseEnvelopeError.Limit (parseEnvelope crates input limits)
      (parseEnvelope crates input larger) := by
  apply (validateFixedShapeLimits_sameUnless hLimits).bind
  intro _ _ _
  apply SameUnless.bind
  · exact SameUnless.check rfl fun hExceeds =>
      (UInt64.le_iff_toNat_le.mp hLimits.maxEnvelopeBytes).trans_lt hExceeds
  intro _ _ _
  apply SameUnless.step
  intro _ _
  apply SameUnless.step
  intro _ _
  apply SameUnless.step
  intro rest _
  apply (readBytes_sameUnless hLimits.cbor.maxStringBytes _ rest).bind
  intro body _ _
  apply (validateBodyProtected_sameUnless hLimits body.1).bind
  intro _ _ _
  apply SameUnless.step
  intro rest _
  apply (readBytes_sameUnless hLimits.cbor.maxManifestBytes _ rest).bind
  intro payload _ _
  apply SameUnless.step
  intro rest _
  apply (parseSignatures_sameUnless hLimits requiredSignatures rest).bind
  intro signatures _ _
  exact .refl _

/-- The verifier under two limits, with one verifier for the signatures: step by step
the same, unless a limit stops the first run. -/
theorem verifyManifestCoseWithLimits_sameUnless (hLimits : limits.AtMost larger)
    (envelope : Bytes) (verifier : CoseVerifier) :
    SameUnless CoseEnvelopeError.Limit
      (verifyManifestCoseWithLimits crates envelope verifier limits)
      (verifyManifestCoseWithLimits crates envelope verifier larger) := by
  apply (parseEnvelope_sameUnless hLimits envelope).bind
  intro parsed _ _
  apply SameUnless.bind
  · apply (decodeManifestCbor_sameUnless hLimits.cbor parsed.payload).mapError
    intro error hLimit
    exact hLimit
  · intro manifest _ _
    exact .refl _

end Envelopes

/-- Under larger limits both functions repeat every outcome that is not an exceeded
limit, errors included. Nothing is said of a run that was stopped: with more room it
may do anything. -/
theorem larger_limits_repeat (crates : Crates) (input : Bytes) (verifier : CoseVerifier) :
    (∀ limits larger : CborLimits, limits.AtMost larger →
      (∀ error, decodeManifestCbor crates input limits = .error error →
        error.category ≠ "resource_limit") →
      decodeManifestCbor crates input larger = decodeManifestCbor crates input limits) ∧
    ∀ limits larger : CoseLimits, limits.AtMost larger →
      (∀ error, verifyManifestCoseWithLimits crates input verifier limits = .error error →
        error.category ≠ "resource_limit") →
      verifyManifestCoseWithLimits crates input verifier larger =
        verifyManifestCoseWithLimits crates input verifier limits := by
  constructor
  · intro limits larger hLimits
    exact (decodeManifestCbor_sameUnless hLimits input).eq_of_not_stopped
  · intro limits larger hLimits
    exact (verifyManifestCoseWithLimits_sameUnless hLimits input verifier).eq_of_not_stopped

end Tfws
