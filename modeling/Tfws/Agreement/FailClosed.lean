import Tfws.Agreement.Envelope
import Tfws.Cli.ConformanceFixture
import Tfws.Python.DecoderExceptions

/-! When the decoders of the reference implementation fail closed. -/
namespace Tfws

open Python Fallible Cbor

/-- Only a timestamp that has no instant in UTC lets another exception than one of
interoperability out of the decoders. The condition is about the document that the
octets hold, before any policy is applied to it. -/
theorem decoders_failClosed_iff (sha256 : Bytes → Bytes) (runtime : Runtime)
    (hSorted : runtime.SortsOrTypeError) (octets : Bytes) :
    (FailsClosed (Python.decodeManifestCbor runtime octets) ∧
      FailsClosed (verifyManifestCoseConformance sha256 runtime octets)) ↔
    ¬ManifestOverflows runtime octets ∧ ¬EnvelopeOverflows runtime octets := by
  rw [failsClosed_iff_not (decodeManifestCbor_outcome hSorted octets)
      decodeManifestCbor_of_overflows,
    failsClosed_iff_not (verifyManifestCoseConformance_outcome hSorted octets)
      verifyManifestCoseConformance_of_overflows]

theorem Python.Runtime.sortsOrTypeError_model : Runtime.model.SortsOrTypeError := by
  intro items
  unfold Runtime.model sortedNames
  dsimp only
  split
  case h_1 => trivial
  case h_2 => exact ⟨_, rfl⟩

/-- Nothing that is read as UTC is out of range, and the model of the runtime reads
nothing else. -/
theorem Python.Names.ne_none_model {timestamp : Object} (h : Names .model timestamp none) :
    False := by
  obtain ⟨text, parsed, -, hParsed, -, hUtc⟩ := h
  have hRead : parseDatetime (replaceZ text) = .ok parsed := hParsed
  unfold parseDatetime at hRead
  dsimp only at hRead
  split at hRead
  case h_1 instant _ =>
    obtain rfl := Except.ok.inj hRead
    cases hUtc
  case h_2 => cases hRead

theorem Python.not_manifestOverflows_model (octets : Bytes) : ¬ManifestOverflows .model octets := by
  intro ⟨_, _, _, _, updated, _, hOverflow⟩
  obtain hUpdated | ⟨_, _, _, _, hExpires⟩ := hOverflow
  · exact hUpdated.ne_none_model
  · exact hExpires.ne_none_model

theorem Python.not_envelopeOverflows_model (octets : Bytes) : ¬EnvelopeOverflows .model octets := by
  intro ⟨_, _, _, _, _, payload, _, _, _, _, _, _, _, hOverflow⟩
  exact not_manifestOverflows_model payload hOverflow

/-- The decoder of manifests fails closed on the test vector, and the verifier of
envelopes on the one that the fixture signs over it. -/
theorem decoders_failClosed_sample :
    FailsClosed (Python.decodeManifestCbor .model Manifest.sample.document.item.encode) ∧
      FailsClosed (verifyManifestCoseConformance Cli.sha256 .model
        (fixtureEnvelope (fun _ => false) Manifest.sample.document.item.encode)) := by
  have hClosed (octets : Bytes) :=
    (decoders_failClosed_iff Cli.sha256 .model Runtime.sortsOrTypeError_model octets).mpr
      ⟨not_manifestOverflows_model octets, not_envelopeOverflows_model octets⟩
  exact ⟨(hClosed _).1, (hClosed _).2⟩

/-- The first day of the first year, fourteen hours east of Greenwich, has not
begun in UTC. -/
def easternTimestamp : String := "0001-01-01T00:00:00+14:00"

/-- The model of the standard library that reads this timestamp, too, as one of
an instant. -/
def Python.Runtime.eastern (instant : Option Int) : Runtime where
  urlparse := Runtime.model.urlparse
  fromisoformat text :=
    if text = easternTimestamp then .ok { tzinfo := true, utc := instant } else parseDatetime text
  sortedText := sortedNames

/-- The test vector, last updated at that time, which has no instant in the range of
dates in UTC. -/
def Manifest.eastern : Manifest := { Manifest.sample with updatedAt := easternTimestamp }

theorem Manifest.encodes_eastern :
    Encodes pythonLimits Manifest.eastern.orderedDocument
      Manifest.eastern.document.item.encode := by
  have hText : SmallEntry ("updated_at", .string easternTimestamp) :=
    ⟨by decide, validateValueProfile_eq_ok.mp (by decide)⟩
  exact encodes_of_smallEntries (smallEntries_updated hText) CborLimits.small_atMost_python

theorem Manifest.lawful_eastern : Manifest.eastern.Lawful .model := lawful_updated _

/-- Were the timestamp one of an instant, nothing would be wrong with it: the
exception has no other cause. -/
theorem Draft.pythonDemands_eastern {draft : Draft} (h : draft.Types .eastern) :
    draft.PythonDemands (.eastern (some 0)) := by
  have hUpdated : parseRfc3339 (.eastern (some 0)) (.str easternTimestamp) = .ok 0 := by
    decide
  have hExpires : parseRfc3339 (.eastern (some 0)) (.str "2027-07-21T00:00:00Z") =
      .ok 63978163200 := by
    decide +kernel
  constructor
  · rw [h.subject]
    exact ⟨_, rfl, by decide +kernel⟩
  · rw [h.operatorName]
    intro name hName
    obtain rfl := SerdeJson.Value.string.inj hName
    decide +kernel
  · rw [h.keys]
    decide +kernel
  · rw [h.artifacts]
    exact fun artifact hMem => absurd hMem List.not_mem_nil
  · rw [h.updatedAt, h.expiresAt]
    refine ⟨_, hUpdated, ?_⟩
    intro expires hMember
    obtain rfl := Option.some.inj hMember
    exact ⟨_, hExpires, by decide⟩

/-- The steps of a decoder that has returned: the octets, the value and the policy,
one after the other. -/
theorem Python.decodeManifestCbor_steps {runtime : Runtime} {octets : Bytes}
    {entries : List (Key × Object)} (h : Python.decodeManifestCbor runtime octets = .ok entries) :
    decodeCborDocument Flags.manifest octets = .ok (.dict entries) ∧
      validateManifestCborValue "$" (.dict entries) = .ok () ∧
      checksBeforeTimes runtime true true entries = .ok () := by
  obtain ⟨object, hDocument, h⟩ := bind_eq_ok.mp h
  cases object with
  | dict entries' =>
      obtain ⟨hValue, h⟩ := then_eq_ok.mp h
      obtain ⟨hPolicy, hSame⟩ := then_eq_ok.mp h
      obtain rfl := Except.ok.inj hSame
      rw [mapError_eq_ok, validateManifest_eq] at hPolicy
      exact ⟨hDocument, hValue, (then_eq_ok.mp hPolicy).1⟩
  | none | bool _ | int _ | float _ | str _ | bytes _ | list _ | tag _ _ => cases h

/-- The first hours of the year 1, east of Greenwich, are in no year of UTC. -/
theorem Manifest.overflows_eastern :
    ManifestOverflows (.eastern none) Manifest.eastern.document.item.encode := by
  have hAgree : ManifestDecodersAgree .model pythonLimits (.eastern (some 0))
      Manifest.eastern.document.item.encode :=
    manifestDecodersAgree_of_lawful Manifest.lawful_eastern Manifest.encodes_eastern
      Manifest.encodes_eastern fun _ => Draft.pythonDemands_eastern
  obtain ⟨entries, hEntries, -⟩ :=
    hAgree.python _ (Manifest.lawful_eastern.decode_document Manifest.encodes_eastern)
  obtain ⟨hDocument, hValue, hChecks⟩ := Python.decodeManifestCbor_steps hEntries
  -- the checks before the timestamps do not read any
  refine ⟨entries, hDocument, hValue, hChecks, .str easternTimestamp, ?_, Or.inl ?_⟩
  · obtain ⟨value, root, hRead, hRoot, -, hSame⟩ := Python.decodeManifestCbor_eq_ok.mp hEntries
    obtain rfl := Manifest.encodes_eastern.value_unique Crates.model hRead
    obtain rfl : entries = Object.ofEntries (SortedMap.present Manifest.eastern.record) :=
      Object.dict.inj (hSame.trans (Object.ofValue_object_eq _))
    have hLookup : SortedMap.lookup "updated_at" (SortedMap.present Manifest.eastern.record) =
        some (.string easternTimestamp) :=
      Manifest.eastern.lookup_document _ _ (by simp [Manifest.record, Manifest.eastern, stringField])
    rw [Object.get_ofEntries (SortedMap.sorted_present _), hLookup]
    rfl
  · have hText : replaceZ easternTimestamp = easternTimestamp := by decide
    exact ⟨easternTimestamp, ⟨true, none⟩, rfl, by simp [hText, Runtime.eastern], rfl, rfl⟩

/-- The policy lets the exception of the conversion through, and so do both decoders,
for they catch none but their own. -/
theorem decoders_escape_eastern :
    ¬(FailsClosed (Python.decodeManifestCbor (.eastern none)
        Manifest.eastern.document.item.encode) ∧
      FailsClosed (verifyManifestCoseConformance Cli.sha256 (.eastern none)
        Manifest.eastern.document.item.encode)) := by
  intro ⟨hClosed, _⟩
  exact hClosed.of_error (decodeManifestCbor_of_overflows Manifest.overflows_eastern)

end Tfws
