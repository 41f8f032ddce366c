import Tfws.Cli.FormatPolicy
import Tfws.Cli.Program

/-! The functions that `tfws-wasm` exports, and the runs of `tfws-cli` on the
same input. -/
namespace Tfws.Wasm

open Fallible SerdeJson Cbor

/-- `validate_manifest`, where `from_str` is `serde_json::from_str::<Manifest>`. The
reason for a refusal is not returned. -/
def validateManifest (crates : Crates) (fromStr : String → Except String Manifest)
    (json : String) : Bool :=
  match fromStr json with
  | .ok manifest => (manifest.validate crates).isOk
  | .error _ => false

/-- `category_message` of this crate, whose text for limits is not the one of the
CLI. -/
def categoryMessage (category : String) : String :=
  match category with
  | "malformed_cbor" => "input is not well-formed CBOR"
  | "non_deterministic_cbor" => "input is not deterministic CBOR"
  | "unsupported_cbor_type" => "input uses an unsupported CBOR type"
  | "resource_limit" => "input exceeds a CBOR resource limit"
  | "manifest_policy_invalid" => "manifest violates the TFWS profile"
  | _ => "input was rejected"

def validDocument : Json.Value := .object [("format", .string "cbor"), ("valid", .bool true)]

def errorDocument (code : String) : Json.Value :=
  .object [("error",
      .object [("code", .string code), ("message", .string (categoryMessage code))]),
    ("format", .string "cbor"), ("valid", .bool false)]

/-- `validate_manifest_cbor`, which answers with a document in either case and never
fails. -/
def validateManifestCbor (crates : Crates) (input : Bytes) : String :=
  match decodeManifestCbor crates input .default with
  | .ok _ => String.ofList validDocument.write
  | .error error => String.ofList (errorDocument error.category).write

variable {crates : Crates} {json : Cli.FromSlice} {read : String → Option Bytes}
  {args : List String} {config : Cli.Config} {input : Bytes}

/-- What the decoder can report, as categories. Each has its message in the table of
the CLI. -/
def cborCategories : List String :=
  ["malformed_cbor", "non_deterministic_cbor", "unsupported_cbor_type", "resource_limit",
    "manifest_policy_invalid"]

theorem category_mem (error : CborCodecError) : error.category ∈ cborCategories := by
  cases error <;> simp [CborCodecError.category, cborCategories]

/-- A document that was written is read back, so that a caller in another language
sees the same values. -/
theorem parse_document {document : Json.Value} (h : document.Plain) :
    Json.Value.parse (String.ofList document.write).toList = some document := by
  rw [String.toList_ofList]
  simpa using @Json.Value.parse_write _ h [] [] (by simp) (by simp)

theorem plain_validDocument : validDocument.Plain := by
  apply Json.Value.Plain.object
  simp only [List.forall_mem_cons]
  exact ⟨.string, .bool, List.forall_mem_nil _⟩

theorem plain_errorDocument (code : String) : (errorDocument code).Plain := by
  apply Json.Value.Plain.object
  simp only [List.forall_mem_cons]
  refine ⟨.object ?_, .string, .bool, List.forall_mem_nil _⟩
  simp only [List.forall_mem_cons]
  exact ⟨.string, .string, List.forall_mem_nil _⟩

/-- What a run prints for machines is read back as its report, whichever stream it is
on. -/
theorem printed_json (report : Cli.Report) (exitCode : Nat) :
    Json.Value.parse ((report.run .json exitCode).stdout ++
      (report.run .json exitCode).stderr).toList = some report.document := by
  have hPrinted : (report.run .json exitCode).stdout ++ (report.run .json exitCode).stderr =
      report.line .json ++ "\n" := by
    cases report with
    | valid inputFormat => exact String.append_empty
    | invalid error => exact String.empty_append
  rw [hPrinted, report.parse_line]

/-- A run on a file that can be read ends with the verdict on its octets. -/
theorem main_of_read (hArgs : Cli.parseArgs args = .ok config)
    (hRead : read config.path = some input) :
    Cli.main crates json read args =
      match Cli.validateBytes crates json config.inputFormat input with
      | .ok _ => (Cli.Report.valid config.inputFormat).run config.outputFormat 0
      | .error error => (Cli.Report.invalid error).run config.outputFormat 1 := by
  rw [Cli.main, hArgs]
  simp only [hRead]
  cases Cli.validateBytes crates json config.inputFormat input <;> rfl

/-- The messages differ for limits only, and the exported function always has one. -/
theorem messages_agree : ∀ category ∈ cborCategories,
    categoryMessage category ≠ "input was rejected" ∧
      (categoryMessage category = Cli.categoryMessage category ↔ category ≠ "resource_limit") := by
  decide

/-- Where the CLI reads a file as CBOR for machines, the exported function gives
the same verdict on its octets under the same category, and both results can be
read back. -/
theorem validateManifestCbor_main (crates : Crates) (json : Cli.FromSlice)
    (read : String → Option Bytes) (args : List String) (path : String) (input : Bytes)
    (hArgs : Cli.parseArgs args = .ok { inputFormat := .cbor, outputFormat := .json, path })
    (hRead : read path = some input) :
    (∃ m, decodeManifestCbor crates input .default = .ok m ∧
      (Cli.main crates json read args).exitCode = 0 ∧
      Json.Value.parse (validateManifestCbor crates input).toList = some validDocument ∧
      Json.Value.parse ((Cli.main crates json read args).stdout ++
        (Cli.main crates json read args).stderr).toList = some (Cli.successDocument .cbor)) ∨
    ∃ category ∈ cborCategories, (Cli.main crates json read args).exitCode = 1 ∧
      Json.Value.parse (validateManifestCbor crates input).toList =
        some (errorDocument category) ∧
      Json.Value.parse ((Cli.main crates json read args).stdout ++
        (Cli.main crates json read args).stderr).toList =
          some (Cli.errorDocument (Cli.reportOf category)) ∧
      categoryMessage category ≠ "input was rejected" ∧
      (categoryMessage category = Cli.categoryMessage category ↔ category ≠ "resource_limit") := by
  rw [main_of_read hArgs hRead, validateManifestCbor, Cli.validateBytes]
  cases hDecode : decodeManifestCbor crates input .default with
  | ok m =>
      exact Or.inl ⟨m, rfl, rfl, parse_document plain_validDocument, printed_json (.valid .cbor) 0⟩
  | error error =>
      have hMem := category_mem error
      exact Or.inr ⟨error.category, hMem, rfl, parse_document (plain_errorDocument _),
        printed_json (.invalid (Cli.reportOf error.category)) 1, messages_agree _ hMem⟩

def cborArgs : List String :=
  ["validate", "--input-format", "cbor", "--output-format", "json", "manifest.cbor"]

theorem validateManifestCbor_main_sample :
    Json.Value.parse (validateManifestCbor .model Manifest.sample.document.item.encode).toList = some validDocument := by
  have hDecode : decodeManifestCbor .model Manifest.sample.document.item.encode .default = .ok .sample :=
    Manifest.lawful_sample.decode_document Manifest.encodes_sample
  have hArgs : Cli.parseArgs cborArgs =
      .ok { inputFormat := .cbor, outputFormat := .json, path := "manifest.cbor" } := by decide
  obtain ⟨m, -, -, hParsed, -⟩ | ⟨category, -, hExit, -⟩ := validateManifestCbor_main .model
    Cli.FromSlice.model (fun _ => some Manifest.sample.document.item.encode) cborArgs "manifest.cbor" Manifest.sample.document.item.encode hArgs rfl
  · exact hParsed
  · have hRun := @main_of_read .model Cli.FromSlice.model (fun _ => some Manifest.sample.document.item.encode) cborArgs _
      Manifest.sample.document.item.encode hArgs rfl
    rw [Cli.validateBytes, hDecode] at hRun
    rw [hRun] at hExit
    cases hExit

/-- The exported check of a text agrees with the CLI on a file with that text, as the
reader of `serde_json` does. A text without a verdict of the reader has none here. -/
theorem validateManifest_main {fromStr : String → Except String Manifest} {text : String}
    (hSame : fromStr text = json.fromSlice (Utf8.encode text))
    (hArgs : Cli.parseArgs args = .ok config) (hFormat : config.inputFormat = .json)
    (hRead : read config.path = some (Utf8.encode text)) :
    validateManifest crates fromStr text = true ↔
      (Cli.main crates json read args).exitCode = 0 := by
  rw [main_of_read hArgs hRead, hFormat, validateManifest, Cli.validateBytes, hSame]
  cases json.fromSlice (Utf8.encode text) with
  | error cause => exact iff_of_false Bool.false_ne_true Nat.one_ne_zero
  | ok m =>
      rw [mapError_ok, ok_bind]
      dsimp only
      cases m.validate crates with
      | error cause => exact iff_of_false Bool.false_ne_true Nat.one_ne_zero
      | ok => exact iff_of_true rfl rfl

end Tfws.Wasm
