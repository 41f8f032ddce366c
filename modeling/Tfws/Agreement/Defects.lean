import Tfws.Agreement.Structure
import Tfws.Cbor.Survey

/-! Which defects of its input each manifest decoder reports, and as what. The
decoders look at the same things in another order: what one of them passes over
for the moment, the other may report at once. -/
namespace Tfws

open Cbor

/-- The categories that a defect is reported under. Everything about the contents of a
well-formed document is under another one. -/
inductive Category where
  | malformed
  | nonDeterministic
  | unsupported
  | resource
  deriving DecidableEq

/-- The name of a category, as both implementations report it in their errors. -/
def Category.code : Category → String
  | malformed => "malformed_cbor"
  | nonDeterministic => "non_deterministic_cbor"
  | unsupported => "unsupported_cbor_type"
  | resource => "resource_limit"

/-- Different categories have different names. -/
theorem Category.code_injective {first second : Category} (h : first.code = second.code) :
    first = second := by
  cases first <;> cases second <;> first | rfl | exact absurd h (by decide)

/-- What `decode_value` reports. Whether the heads are preferred is seen by
comparing with the encoder's output in the end; a key is read whatever its
depth is. -/
def rustReport : Defect → Option Category
  | .tooLong | .tooDeep | .overLimit => some .resource
  | .endOfInput | .truncated | .invalidText | .overlong | .trailing => some .malformed
  | .indefinite | .keyOrder => some .nonDeterministic
  | .reserved | .indefiniteScalar | .wideTruncated | .outOfRange | .opaqueHead | .opaqueItem
  | .simple | .keyType | .keyContainer => some .unsupported
  | .deepKey | .nonPreferred => none

/-- What `_CborDecoder` reports. It reads a byte string or a tag up to the point
where it is not allowed, and keys of any type but containers. -/
def pythonReport : Defect → Option Category
  | .tooLong | .tooDeep | .deepKey | .overlong | .overLimit => some .resource
  | .endOfInput | .truncated | .wideTruncated | .invalidText | .reserved | .trailing =>
      some .malformed
  | .indefinite | .indefiniteScalar | .nonPreferred | .keyOrder => some .nonDeterministic
  | .outOfRange | .opaqueItem | .simple | .keyContainer => some .unsupported
  | .opaqueHead | .keyType => none

/-- The limits of the reference implementation, which nobody can set. The other one is
given the same for a comparison. -/
def pythonSurveyLimits : SurveyLimits where
  document := Python.maxCborBytes
  depth := Python.maxCborDepth
  items := Python.maxCborCollectionItems
  text := Python.maxCborStringBytes
  integer := Python.maxSafeInteger

/-- The decoders report the same category. What matters is the first defect, and
where one of the decoders passes over it, the first one that this decoder
reports. `root` is the document, if it can be read. -/
def ReportedAlike (root : Option Shape) : List Defect → Prop
  | .nonPreferred :: later => ∀ report ∈ later.findSome? rustReport, report = .nonDeterministic
  | .deepKey :: later => later.findSome? rustReport = some .resource
  | .opaqueHead :: later => later.findSome? pythonReport = some .unsupported
  | .keyType :: later =>
      later.findSome? pythonReport = some .unsupported ∨
        later.findSome? pythonReport = none ∧ root = some .map
  | .reserved :: _ | .indefiniteScalar :: _ | .wideTruncated :: _ | .overlong :: _ => False
  | _ => True

/-- When the Python decoder reports a defect, the Rust decoder reports the same
category, its final comparison included, exactly if the defects are of the kinds
reported alike. -/
theorem reportedAlike_iff {root : Option Shape} {defects : List Defect} {report : Category}
    (h : defects.findSome? pythonReport = some report) :
    ReportedAlike root defects ↔
      (defects.findSome? rustReport).getD .nonDeterministic = report := by
  cases defects with
  | nil => cases h
  | cons first later =>
      cases first with
      | nonPreferred =>
          cases h
          cases hLater : later.findSome? rustReport <;>
            simp [ReportedAlike, List.findSome?_cons, rustReport, hLater]
      | deepKey =>
          cases h
          cases hLater : later.findSome? rustReport <;>
            simp [ReportedAlike, List.findSome?_cons, rustReport, hLater]
      | opaqueHead | keyType =>
          have hLater : later.findSome? pythonReport = some report := h
          simp [ReportedAlike, List.findSome?_cons, rustReport, hLater, eq_comm]
      | _ =>
          cases h
          simp [ReportedAlike, List.findSome?_cons, rustReport]

instance (root : Option Shape) (defects : List Defect) :
    Decidable (ReportedAlike root defects) := by
  unfold ReportedAlike
  split <;> infer_instance

end Tfws
