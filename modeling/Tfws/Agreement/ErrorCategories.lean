import Tfws.Agreement.FailClosed
import Tfws.Agreement.PythonDefects
import Tfws.Agreement.RustDefects
import Tfws.Core.CratesModel
import Tfws.Python.DecoderExceptions
import Tfws.Python.RuntimeModel

/-! When both manifest decoders reject their input, the survey of the input tells
whether they report the same category. -/
namespace Tfws

open SerdeJson Fallible Cbor
open Python (Object Flags)

/-- What the structural stage of the Rust decoder fails with. Once everything is read,
only the heads can still be wrong. -/
theorem decodeStructure_raises {crates : Crates} (hStrict : crates.decoder.Strict) (data : Bytes) :
    Outcome (decodeStructure crates data pythonLimits) (fun _ => True) fun error =>
      error.category = (((surveyDocument pythonSurveyLimits data).1.findSome? rustReport).getD
        .nonDeterministic).code := by
  have hFollows := decodeValue_follows hStrict 0 data
  unfold decodeStructure
  by_cases hLong : pythonSurveyLimits.document < data.length
  · rw [failIf_of (by rwa [pythonLimits_maxManifestBytes]), surveyDocument, if_pos hLong]
    exact rfl
  rw [failIf_of_not (by rwa [pythonLimits_maxManifestBytes]), ok_bind]
  by_cases hEmpty : data.isEmpty = true
  · obtain rfl := List.isEmpty_iff.mp hEmpty
    have hReport : (surveyItem pythonSurveyLimits 0 []).defects.findSome? rustReport =
        some .malformed := by
      rw [surveyItem.eq_def]
      rfl
    rw [failIf_of hEmpty, findSome?_surveyDocument hLong hReport]
    exact rfl
  rw [failIf_of_not hEmpty, ok_bind]
  cases hValue : decodeValue crates pythonLimits 0 data with
  | error error =>
      obtain ⟨report, hReport, hCategory⟩ := hFollows.of_error hValue
      rw [findSome?_surveyDocument hLong hReport]
      exact hCategory
  | ok read =>
      obtain ⟨value, rest⟩ := read
      obtain ⟨hSilent, found, hRead, -⟩ := hFollows.of_ok hValue
      rw [surveyDocument_of_read hLong hRead, ok_bind]
      dsimp only
      by_cases hRest : rest = []
      · rw [failIf_of_not (not_not.mpr hRest), ok_bind, encodeValueToVec_of_decodeValue hValue,
          ok_bind, if_pos hRest, hSilent]
        exact Outcome.check (fun _ => rfl) fun _ => trivial
      · rw [failIf_of hRest, if_neg hRest, List.findSome?_append, hSilent]
        exact rfl

/-- What the Python decoder fails with, and what it has read otherwise. -/
theorem decodeCborDocument_raises (data : Bytes) :
    Outcome (Python.decodeCborDocument Flags.manifest data)
      (fun object => ∃ found, (surveyDocument pythonSurveyLimits data).2 = some found ∧
        Described object found (surveyDocument pythonSurveyLimits data).1)
      fun exception => ∃ report,
        (surveyDocument pythonSurveyLimits data).1.findSome? pythonReport = some report ∧
          ∃ message, exception = .interoperability message report.code := by
  have hFollows := decodeItem_follows 0 data
  unfold Python.decodeCborDocument
  by_cases hLong : pythonSurveyLimits.document < data.length
  · rw [failIf_of (show Python.maxCborBytes < data.length from hLong), surveyDocument, if_pos hLong]
    exact ⟨.resource, rfl, _, rfl⟩
  rw [failIf_of_not (show ¬Python.maxCborBytes < data.length from hLong), ok_bind]
  cases hValue : Python.decodeItem Flags.manifest 0 data with
  | error exception =>
      obtain ⟨report, hReport, hCategory⟩ := hFollows.of_error hValue
      exact ⟨report, findSome?_surveyDocument hLong hReport, hCategory⟩
  | ok read =>
      obtain ⟨object, rest⟩ := read
      obtain ⟨hSilent, found, hRead, hDescribed⟩ := hFollows.of_ok hValue
      rw [surveyDocument_of_read hLong hRead, ok_bind]
      dsimp only
      by_cases hRest : rest = []
      · rw [failIf_of_not (not_not.mpr hRest), ok_bind, if_pos hRest]
        exact ⟨found, rfl, hDescribed⟩
      · rw [failIf_of hRest, if_neg hRest, List.findSome?_append, hSilent]
        exact ⟨.malformed, rfl, _, rfl⟩

/-- An error that is not structural is one of the policy. -/
theorem CborCodecError.category_of_policy {error : CborCodecError} (h : ¬error.Structural) :
    error.category = "manifest_policy_invalid" := by
  cases error with
  | schemaViolation _ | manifestPolicy _ => rfl
  | _ => exact absurd trivial h

theorem Described.dict_iff {object : Object} {found : Shape} {defects : List Defect}
    (h : Described object found defects) : (∃ entries, object = .dict entries) ↔ found = .map := by
  have hShape := h.shape
  cases object with
  | none | float _ | bytes _ | tag _ _ => cases hShape
  | _ => cases hShape; simp

section Rejected

variable {crates : Crates} {runtime : Python.Runtime} {data : Bytes} {object : Object}

theorem decodeManifestValue_eq_ok_iff
    (hDocument : Python.decodeCborDocument Flags.manifest data = .ok object) :
    Python.decodeManifestValue data = .ok object ↔ Plain object := by
  rw [Python.decodeManifestValue, hDocument, ok_bind, then_eq_ok, validateManifestCborValue_eq_ok]
  simp

/-- The structural stages fail together: what Python does not read as a manifest
value, the other decoder refuses. -/
theorem exists_structure_error (crates : Crates)
    (hPython : ∀ object, Python.decodeManifestValue data ≠ .ok object) :
    ∃ error, decodeStructure crates data pythonLimits = .error error := by
  cases hStructure : decodeStructure crates data pythonLimits with
  | error error => exact ⟨error, rfl⟩
  | ok value =>
      obtain ⟨object, hObject, -⟩ := (decodeStructure_agrees crates data).1 value hStructure
      exact absurd hObject (hPython object)

/-- An error of the structural stage is the error of the decoder. -/
theorem decodeManifestCbor_of_structure {error raised : CborCodecError}
    (hStructure : decodeStructure crates data pythonLimits = .error error)
    (h : decodeManifestCbor crates data pythonLimits = .error raised) : raised = error := by
  rw [decodeManifestCbor, hStructure, error_bind] at h
  exact (Except.error.inj h).symm

theorem decodeManifestCbor_of_not_dict (hDict : ∀ entries, object ≠ .dict entries)
    {exception : Python.Exception}
    (hDocument : Python.decodeCborDocument Flags.manifest data = .ok object)
    (h : Python.decodeManifestCbor runtime data = .error exception) :
    (∃ message, exception = .interoperability message "manifest_policy_invalid") ∧
      ¬Python.ManifestOverflows runtime data := by
  constructor
  · rw [Python.decodeManifestCbor, hDocument, ok_bind] at h
    cases object with
    | dict entries => exact absurd rfl (hDict entries)
    | _ => exact ⟨_, (Except.error.inj h).symm⟩
  · intro hOverflow
    obtain ⟨entries, hOther, -⟩ := hOverflow
    rw [hDocument] at hOther
    exact hDict entries (Except.ok.inj hOther)

section Dict

variable {entries : List (Python.Key × Object)} {exception : Python.Exception}
  (hDocument : Python.decodeCborDocument Flags.manifest data = .ok (.dict entries))
  (h : Python.decodeManifestCbor runtime data = .error exception)

include hDocument h

/-- Some key is no text, which Python reports once everything has been read. -/
theorem decodeManifestCbor_of_not_plain (hPlain : ¬Plain (.dict entries)) :
    (∃ message, exception = .interoperability message Category.unsupported.code) ∧
      ¬Python.ManifestOverflows runtime data := by
  cases hValue : Python.validateManifestCborValue "$" (.dict entries) with
  | ok _ => exact absurd (validateManifestCborValue_eq_ok.mp hValue) hPlain
  | error raised =>
      constructor
      · obtain ⟨message, hMessage⟩ :=
          (Python.validateManifestCborValue_raises "$" (.dict entries)).of_error hValue
        rw [Python.decodeManifestCbor, hDocument, ok_bind] at h
        simp only [hValue, error_bind, Except.error.injEq] at h
        exact ⟨message, h.symm.trans hMessage⟩
      · intro hOverflow
        obtain ⟨others, hOther, hPassed, -⟩ := hOverflow
        rw [hDocument] at hOther
        cases hOther
        rw [hValue] at hPassed
        cases hPassed

/-- The policy rejects a well-formed document, unless a timestamp overflows; then the
exception is not one of interoperability. -/
theorem decodeManifestCbor_of_plain (hSorted : runtime.SortsOrTypeError)
    (hPlain : Plain (.dict entries)) :
    (∃ message, exception = .interoperability message "manifest_policy_invalid") ↔
      ¬Python.ManifestOverflows runtime data := by
  have hValue : Python.validateManifestCborValue "$" (.dict entries) = .ok () :=
    validateManifestCborValue_eq_ok.mpr hPlain
  have hError := h
  rw [Python.decodeManifestCbor, hDocument, ok_bind] at hError
  simp only [hValue, ok_bind] at hError
  cases hPolicy : Python.validateManifest runtime true true entries with
  | ok _ =>
      rw [hPolicy] at hError
      cases hError
  | error raised =>
      rw [hPolicy, Except.mapError, error_bind] at hError
      have hRaised := Except.error.inj hError
      obtain hCaught | ⟨rfl, hChecks, hOverflow⟩ :=
        (Python.validateManifest_outcome hSorted).of_error hPolicy
      · rw [if_pos hCaught] at hRaised
        refine iff_of_true ⟨_, hRaised.symm⟩ fun hOverflow => ?_
        rw [Python.decodeManifestCbor_of_overflows hOverflow, ← hRaised] at h
        cases h
      · refine iff_of_false ?_ (not_not.mpr ⟨entries, hDocument, hValue, hChecks, hOverflow⟩)
        intro hMessage
        obtain ⟨message, rfl⟩ := hMessage
        cases hRaised

end Dict

/-- The octets cannot be read by the Python decoder, and the survey tells what either
reports. -/
theorem categories_of_undecoded (hStrict : crates.decoder.Strict) {raised : Python.Exception}
    (hDocument : Python.decodeCborDocument Flags.manifest data = .error raised)
    {error : CborCodecError} {exception : Python.Exception}
    (hRust : decodeManifestCbor crates data pythonLimits = .error error)
    (hPython : Python.decodeManifestCbor runtime data = .error exception) :
    (∃ message, exception = .interoperability message error.category) ↔
      ReportedAlike (surveyDocument pythonSurveyLimits data).2
        (surveyDocument pythonSurveyLimits data).1 := by
  have hNone : ∀ object, Python.decodeManifestValue data ≠ .ok object := fun object hObject => by
    rw [Python.decodeManifestValue, hDocument] at hObject
    cases hObject
  obtain ⟨first, hStructure⟩ := exists_structure_error crates hNone
  obtain rfl := decodeManifestCbor_of_structure hStructure hRust
  obtain ⟨report, hReport, message, rfl⟩ := (decodeCborDocument_raises data).of_error hDocument
  rw [Python.decodeManifestCbor, hDocument, error_bind] at hPython
  cases hPython
  rw [(decodeStructure_raises hStrict data).of_error hStructure, reportedAlike_iff hReport]
  constructor
  · intro h
    obtain ⟨other, hSame⟩ := h
    obtain ⟨-, hCode⟩ := Python.Exception.interoperability.inj hSame
    exact (Category.code_injective hCode).symm
  · intro h
    exact ⟨message, by rw [h]⟩

/-- Everything can be read, but some key is no text: one decoder refuses the key and
the other the map, under one category. -/
theorem categories_of_keyType (hStrict : crates.decoder.Strict) {found : Shape}
    (hDocument : Python.decodeCborDocument Flags.manifest data = .ok object)
    (hRoot : (surveyDocument pythonSurveyLimits data).2 = some found)
    (hDescribed : Described object found (surveyDocument pythonSurveyLimits data).1)
    (hDefects : (surveyDocument pythonSurveyLimits data).1 ≠ [])
    {error : CborCodecError} {exception : Python.Exception}
    (hRust : decodeManifestCbor crates data pythonLimits = .error error)
    (hPython : Python.decodeManifestCbor runtime data = .error exception) :
    (∃ message, exception = .interoperability message error.category) ↔
      ¬Python.ManifestOverflows runtime data ∧
        ReportedAlike (surveyDocument pythonSurveyLimits data).2
          (surveyDocument pythonSurveyLimits data).1 := by
  have hPlain : ¬Plain object := mt hDescribed.plain.mp hDefects
  have hNone : ∀ other, Python.decodeManifestValue data ≠ .ok other := fun other hOther => by
    have hSame : other = object := by
      rw [Python.decodeManifestValue, hDocument, ok_bind] at hOther
      exact (Except.ok.inj (then_eq_ok.mp hOther).2).symm
    rw [hSame] at hOther
    exact hPlain ((decodeManifestValue_eq_ok_iff hDocument).mp hOther)
  obtain ⟨first, hStructure⟩ := exists_structure_error crates hNone
  obtain rfl := decodeManifestCbor_of_structure hStructure hRust
  have hCategory := (decodeStructure_raises hStrict data).of_error hStructure
  have hKeys := hDescribed.keys
  have hMap := hDescribed.dict_iff
  rw [hRoot]
  cases hList : (surveyDocument pythonSurveyLimits data).1 with
  | nil => exact absurd hList hDefects
  | cons defect later =>
      rw [hList] at hCategory hKeys
      obtain ⟨rfl, hLater⟩ := List.forall_mem_cons.mp hKeys
      have hSilent : later.findSome? pythonReport = none := by
        rw [List.findSome?_eq_none_iff]
        intro other hOther
        rw [hLater other hOther]
        rfl
      have hUnsupported : error.category = Category.unsupported.code := hCategory
      have hAlike : ReportedAlike (some found) (.keyType :: later) ↔ found = .map := by
        simp [ReportedAlike, hSilent]
      rw [hAlike, ← hMap, hUnsupported]
      by_cases hDict : ∃ entries, object = .dict entries
      · obtain ⟨entries, rfl⟩ := hDict
        obtain ⟨hMessage, hNoOverflow⟩ := decodeManifestCbor_of_not_plain hDocument hPython hPlain
        exact iff_of_true hMessage ⟨hNoOverflow, entries, rfl⟩
      · obtain ⟨⟨message, rfl⟩, -⟩ :=
          decodeManifestCbor_of_not_dict (not_exists.mp hDict) hDocument hPython
        refine iff_of_false ?_ fun h => hDict h.2
        intro h
        obtain ⟨other, hSame⟩ := h
        obtain ⟨-, hCode⟩ := Python.Exception.interoperability.inj hSame
        exact absurd hCode (by decide)

/-- Nothing is wrong with the octets, but they are no manifest; both report the
policy. -/
theorem categories_of_clean (hSorted : runtime.SortsOrTypeError) (hPlain : Plain object)
    (hDocument : Python.decodeCborDocument Flags.manifest data = .ok object)
    {error : CborCodecError} {exception : Python.Exception}
    (hRust : decodeManifestCbor crates data pythonLimits = .error error)
    (hPython : Python.decodeManifestCbor runtime data = .error exception) :
    (∃ message, exception = .interoperability message error.category) ↔
      ¬Python.ManifestOverflows runtime data := by
  obtain ⟨value, hStructure, -⟩ := (decodeStructure_agrees crates data).2 object
    ((decodeManifestValue_eq_ok_iff hDocument).mpr hPlain)
  have hPast : PastStructure (manifestOfValue crates value) := manifestOfValue_pastStructure value
  rw [decodeManifestCbor, hStructure, ok_bind] at hRust
  rw [hRust] at hPast
  rw [CborCodecError.category_of_policy hPast]
  by_cases hDict : ∃ entries, object = .dict entries
  · obtain ⟨entries, rfl⟩ := hDict
    exact decodeManifestCbor_of_plain hDocument hPython hSorted hPlain
  · obtain ⟨hMessage, hNoOverflow⟩ :=
      decodeManifestCbor_of_not_dict (not_exists.mp hDict) hDocument hPython
    exact iff_of_true hMessage hNoOverflow

end Rejected

/-- Both decoders reject the octets, and report the same category, exactly if no
timestamp overflows and the defects are reported alike. -/
theorem decodeManifestCbor_same_category (crates : Crates) (runtime : Python.Runtime)
    (hStrict : crates.decoder.Strict) (hSorted : runtime.SortsOrTypeError) (data : Bytes)
    {error : CborCodecError} {exception : Python.Exception}
    (hRust : decodeManifestCbor crates data pythonLimits = .error error)
    (hPython : Python.decodeManifestCbor runtime data = .error exception) :
    (∃ message, exception = .interoperability message error.category) ↔
      ¬Python.ManifestOverflows runtime data ∧
        ReportedAlike (surveyDocument pythonSurveyLimits data).2
          (surveyDocument pythonSurveyLimits data).1 := by
  cases hDocument : Python.decodeCborDocument Flags.manifest data with
  | error raised =>
      have hNoOverflow : ¬Python.ManifestOverflows runtime data := fun hOverflow => by
        obtain ⟨entries, hOther, -⟩ := hOverflow
        rw [hDocument] at hOther
        cases hOther
      rw [categories_of_undecoded hStrict hDocument hRust hPython]
      exact (and_iff_right hNoOverflow).symm
  | ok object =>
      obtain ⟨found, hRoot, hDescribed⟩ := (decodeCborDocument_raises data).of_ok hDocument
      by_cases hDefects : (surveyDocument pythonSurveyLimits data).1 = []
      · have hPlain : Plain object := hDescribed.plain.mpr hDefects
        have hAlike : ReportedAlike (surveyDocument pythonSurveyLimits data).2
            (surveyDocument pythonSurveyLimits data).1 := by
          rw [hDefects]
          trivial
        rw [categories_of_clean hSorted hPlain hDocument hRust hPython]
        exact (and_iff_left hAlike).symm
      · exact categories_of_keyType hStrict hDocument hRoot hDescribed hDefects hRust hPython

/-- The external crates, with a decoder that looks at the first octets alone before it
reads. -/
def Crates.strictModel : Crates := { Crates.model with decoder := Minicbor.Decoder.strictModel }

/-- A map with the key 1: the one decoder refuses the key, the other the map, under
one category. -/
theorem decodeManifestCbor_same_category_key :
    (∃ message, Python.unsupported "non-text manifest map key at $" =
        .interoperability message
          (CborCodecError.unsupportedCborType "map key must be a text string").category) ↔
      ¬Python.ManifestOverflows .model [0xA1, 0x01, 0x02] ∧
        ReportedAlike (surveyDocument pythonSurveyLimits [0xA1, 0x01, 0x02]).2
          (surveyDocument pythonSurveyLimits [0xA1, 0x01, 0x02]).1 := by
  apply decodeManifestCbor_same_category .strictModel .model Minicbor.Decoder.strict_strictModel
    Python.Runtime.sortsOrTypeError_model
  · have hKey : decodeValue .strictModel pythonLimits 0 [0xA1, 0x01, 0x02] =
        .error (.unsupportedCborType "map key must be a text string") := by
      rw [decodeValue_of_shallow (by decide)]
      rfl
    rw [decodeManifestCbor, decodeStructure, hKey]
    rfl
  · have hOne : Python.decodeItem Flags.manifest 1 [0x01, 0x02] = .ok (.int 1, [0x02]) := by
      rw [decodeItem_of_shallow (by decide)]
      rfl
    have hTwo : Python.decodeItem Flags.manifest 1 [0x02] = .ok (.int 2, []) := by
      rw [decodeItem_of_shallow (by decide)]
      rfl
    have hItem : Python.decodeItem Flags.manifest 0 [0xA1, 0x01, 0x02] =
        .ok (.dict [(.int 1, .int 2)], []) := by
      rw [decodeItem_of_shallow (by decide)]
      change Python.decodePairs (Python.decodeItem Flags.manifest 1) 1 [] none [0x01, 0x02] >>= _ =
        _
      rw [Python.decodePairs, hOne, ok_bind]
      change Python.decodeItem Flags.manifest 1 [0x02] >>= _ >>= _ = _
      rw [hTwo]
      rfl
    rw [Python.decodeManifestCbor, Python.decodeCborDocument, hItem]
    rfl

/-- A head that is not preferred, with an octet too many behind it: the Rust decoder
reports the octet and the Python decoder the head. -/
theorem decodeManifestCbor_category_differs :
    decodeManifestCbor .strictModel [0x18, 0x00, 0x00] pythonLimits = .error .trailingData ∧
    Python.decodeManifestCbor .model [0x18, 0x00, 0x00] =
      .error (Python.nonDeterministic "non-preferred CBOR encoding for integer") ∧
    ¬∃ message, Python.nonDeterministic "non-preferred CBOR encoding for integer" =
      .interoperability message CborCodecError.trailingData.category := by
  refine ⟨?_, ?_, ?_⟩
  · have hValue : decodeValue .strictModel pythonLimits 0 [0x18, 0x00, 0x00] =
        .ok (.number (Number.ofU64 0), [0x00]) := by
      rw [decodeValue_of_shallow (by decide)]
      rfl
    rw [decodeManifestCbor, decodeStructure, hValue]
    rfl
  · have hItem : Python.decodeItem Flags.manifest 0 [0x18, 0x00, 0x00] =
        .error (Python.nonDeterministic "non-preferred CBOR encoding for integer") := by
      rw [decodeItem_of_shallow (by decide)]
      rfl
    rw [Python.decodeManifestCbor, Python.decodeCborDocument, hItem]
    rfl
  · intro h
    obtain ⟨message, hSame⟩ := h
    obtain ⟨-, hCode⟩ := Python.Exception.interoperability.inj hSame
    exact absurd hCode (by decide)

end Tfws
