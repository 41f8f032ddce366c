import Tfws.Core.CborDecoding

/-! The structural half of the manifest decoder accepts exactly the
deterministic encodings within the limits. -/
namespace Tfws

open SerdeJson Fallible Cbor

variable {crates : Crates} {limits : CborLimits}

/-- `octets` is the deterministic encoding of `value`, and both are within the limits.
This is the grammar that the decoder is compared with. -/
structure Encodes (limits : CborLimits) (value : OrderedValue) (octets : Bytes) : Prop where
  short : octets.length ≤ limits.maxManifestBytes.toNat
  admissible : Admissible limits 0 value.value
  deterministic : Item.DeterministicEncoding value.value.item octets

theorem encodes_iff {value : OrderedValue} {octets : Bytes} :
    Encodes limits value octets ↔ octets.length ≤ limits.maxManifestBytes.toNat ∧
      Admissible limits 0 value.value ∧ octets = value.value.item.encode := by
  constructor
  · intro h
    exact ⟨h.short, h.admissible, h.deterministic.2.2⟩
  · rintro ⟨hShort, hAdmissible, hOctets⟩
    obtain ⟨hEncodable, hOrdered⟩ := hAdmissible.deterministic value.ordered
    exact ⟨hShort, hAdmissible, hEncodable, hOrdered, hOctets⟩

/-- What encodes a value is read as that value, with nothing left over: the decoder is
complete. -/
theorem Encodes.decodeValue_eq {value : OrderedValue} {octets : Bytes}
    (h : Encodes limits value octets) :
    decodeValue crates limits 0 octets = .ok (value.value, []) := by
  obtain ⟨_, hAdmissible, rfl⟩ := encodes_iff.mp h
  simpa using decodeValue_encode hAdmissible value.ordered []

/-- Octets encode one value at most, and the decoder finds it; two encodings of one
document cannot differ in meaning. -/
theorem Encodes.value_unique (crates : Crates) {first second : OrderedValue} {octets : Bytes}
    (hFirst : Encodes limits first octets) (hSecond : Encodes limits second octets) :
    first = second := by
  have hBoth : decodeValue crates limits 0 octets = .ok (first.value, []) := hFirst.decodeValue_eq
  rw [hSecond.decodeValue_eq] at hBoth
  exact OrderedValue.ext (congrArg Prod.fst (Except.ok.inj hBoth)).symm

/-- The comparison with the deterministic encoding is never cut short: what the
decoder returns can always be encoded. -/
theorem encodeValueToVec_of_decodeValue {input rest : Bytes} {value : Value}
    (h : decodeValue crates limits 0 input = .ok (value, rest)) :
    encodeValueToVec crates limits value = .ok value.item.encode :=
  encodeValueToVec_eq_ok.mpr ⟨((decodeValue_outcome input).of_ok h).1, rfl⟩

/-- The structural half ends with the value that the input encodes, or with a
structural error. -/
theorem decodeStructure_outcome (input : Bytes) :
    Outcome (decodeStructure crates input limits)
      (fun value => ∃ ordered : OrderedValue, ordered.value = value ∧ Encodes limits ordered input)
      CborCodecError.Structural := by
  refine Outcome.check (fun _ => trivial) fun hShort => Outcome.check (fun _ => trivial) fun _ => ?_
  refine (decodeValue_outcome input).bind fun ⟨value, rest⟩ ⟨hAdmissible, hOrdered⟩ => ?_
  refine Outcome.check (fun _ => trivial) fun _ => ?_
  have hEncode : encodeValueToVec crates limits value = .ok value.item.encode :=
    encodeValueToVec_eq_ok.mpr ⟨hAdmissible, rfl⟩
  rw [hEncode, ok_bind]
  refine Outcome.check (fun _ => trivial) fun hEqual => ?_
  have hInput := (not_not.mp hEqual).symm
  exact ⟨⟨value, hOrdered⟩, rfl, encodes_iff.mpr ⟨not_lt.mp hShort, hAdmissible, hInput⟩⟩

theorem Encodes.decodeStructure_eq {value : OrderedValue} {octets : Bytes}
    (h : Encodes limits value octets) :
    decodeStructure crates octets limits = .ok value.value := by
  obtain ⟨hShort, hAdmissible, hOctets⟩ := encodes_iff.mp h
  have hNonempty : ¬octets.isEmpty := by
    rw [List.isEmpty_iff, hOctets]
    exact (hAdmissible.deterministic value.ordered).1.encode_ne_nil
  have hEncode : encodeValueToVec crates limits value.value = .ok octets :=
    encodeValueToVec_eq_ok.mpr ⟨hAdmissible, hOctets⟩
  rw [decodeStructure, failIf_of_not (not_lt.mpr hShort), ok_bind, failIf_of_not hNonempty,
    ok_bind, h.decodeValue_eq]
  simp [hEncode, failIf]

/-- The structural half accepts exactly the encodings of ordered values within the
limits, and returns the value. -/
theorem decodeStructure_eq_ok {input : Bytes} {value : Value} :
    decodeStructure crates input limits = .ok value ↔
      ∃ ordered : OrderedValue, ordered.value = value ∧ Encodes limits ordered input := by
  constructor
  · exact (decodeStructure_outcome input).of_ok
  · rintro ⟨ordered, rfl, h⟩
    exact h.decodeStructure_eq

/-- Past the structure, the decoder is the typed layer on the value encoded; the
octets play no part any more. -/
theorem Encodes.decodeManifestCbor_eq {value : OrderedValue} {octets : Bytes}
    (h : Encodes limits value octets) :
    decodeManifestCbor crates octets limits = manifestOfValue crates value.value := by
  rw [decodeManifestCbor, h.decodeStructure_eq, ok_bind]

/-- The decoder accepted the octets as CBOR: what it says is about the manifest. -/
def PastStructure : CborResult Manifest → Prop
  | .ok _ => True
  | .error error => ¬error.Structural

/-- The typed layer fails with no structural error, so that an error tells which half
refused. -/
theorem manifestOfValue_pastStructure (value : Value) :
    PastStructure (manifestOfValue crates value) := by
  have h : Outcome (manifestOfValue crates value) (fun _ => True)
      (fun error => ¬error.Structural) := by
    refine (Outcome.mapError fun _ => id).bind fun manifest _ => ?_
    refine Outcome.check (fun _ => id) fun _ => ?_
    exact (Outcome.mapError fun _ => id).bind fun _ _ => trivial
  cases hResult : manifestOfValue crates value with
  | ok manifest => trivial
  | error error => exact h.of_error hResult

/-- Parser and grammar agree: the decoder gets past the structure of its input exactly
when the input is the deterministic encoding of an admissible value. That value is
unique and is what the typed layer receives. Everything else is a structural error,
and the internal re-encoding never fails. -/
theorem decodeManifestCbor_pastStructure (crates : Crates) (limits : CborLimits) (input : Bytes) :
    (PastStructure (decodeManifestCbor crates input limits) ↔
      ∃ value, Encodes limits value input) ∧
    (∀ value, Encodes limits value input →
      decodeManifestCbor crates input limits = manifestOfValue crates value.value ∧
      ∀ other, Encodes limits other input → other = value) ∧
    ((¬∃ value, Encodes limits value input) → ∃ error,
      decodeManifestCbor crates input limits = .error error ∧ error.Structural) ∧
    ∀ value rest, decodeValue crates limits 0 input = .ok (value, rest) →
      encodeValueToVec crates limits value = .ok value.item.encode := by
  have hRejected : (¬∃ value, Encodes limits value input) → ∃ error,
      decodeManifestCbor crates input limits = .error error ∧ error.Structural := by
    intro hNone
    cases hResult : decodeStructure crates input limits with
    | ok value =>
        obtain ⟨ordered, _, hEncodes⟩ := decodeStructure_eq_ok.mp hResult
        exact absurd ⟨ordered, hEncodes⟩ hNone
    | error error =>
        refine ⟨error, ?_, (decodeStructure_outcome input).of_error hResult⟩
        rw [decodeManifestCbor, hResult, error_bind]
  refine ⟨⟨fun hPast => ?_, ?_⟩, fun value hValue => ⟨hValue.decodeManifestCbor_eq, ?_⟩,
    hRejected, fun value rest => encodeValueToVec_of_decodeValue⟩
  · by_contra hNone
    obtain ⟨error, hError, hStructural⟩ := hRejected hNone
    rw [hError] at hPast
    exact hPast hStructural
  · rintro ⟨value, hValue⟩
    rw [hValue.decodeManifestCbor_eq]
    exact manifestOfValue_pastStructure value.value
  · exact fun other hOther => hOther.value_unique crates hValue

end Tfws
