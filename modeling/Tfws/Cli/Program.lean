import Tfws.Cli.Arguments
import Tfws.Core.CoseErrors
import Tfws.Json.Printable

/-! `main` of `tfws-cli`: what a run prints and how it ends. -/
namespace Tfws.Cli

open Fallible SerdeJson Cbor

/-- The end of a run: the exit code, and what is on the two streams. -/
structure Run where
  exitCode : Nat
  stdout : String := ""
  stderr : String := ""
  deriving DecidableEq, Repr

/-- The document that says that a file is valid, for machines. Its names are in
order. -/
def successDocument (inputFormat : InputFormat) : Json.Value :=
  .object [("input_format", .string inputFormat.name), ("valid", .bool true)]

/-- The document that says what is wrong, for machines, with the code and the
message. -/
def errorDocument (error : CliError) : Json.Value :=
  .object [("error", .object [("code", .string error.code), ("message", .string error.message)]),
    ("valid", .bool false)]

def formatSuccess (config : Config) : String :=
  match config.outputFormat with
  | .human => "valid"
  | .json => String.ofList (successDocument config.inputFormat).write

def formatError (error : CliError) : OutputFormat → String
  | .human => "error[" ++ error.code ++ "]: " ++ error.message
  | .json => String.ofList (errorDocument error).write

/-- A run on arguments that are Unicode strings, as `Vec<String>` holds them; on any
other argument `env::args` panics before `main` sees it. `read` is the file system:
the octets of a file, or nothing where it cannot be read. -/
def main (crates : Crates) (json : FromSlice) (read : String → Option Bytes)
    (args : List String) : Run :=
  let errorOutputFormat := outputFormatHint args
  match parseArgs args with
  | .error error => { exitCode := 2, stderr := formatError error errorOutputFormat ++ "\n" }
  | .ok config =>
      match read config.path with
      | none =>
          let error := { code := "input_read_failed", message := "unable to read input" }
          { exitCode := 1, stderr := formatError error config.outputFormat ++ "\n" }
      | some bytes =>
          match validateBytes crates json config.inputFormat bytes with
          | .error error =>
              { exitCode := 1, stderr := formatError error config.outputFormat ++ "\n" }
          | .ok _ => { exitCode := 0, stdout := formatSuccess config ++ "\n" }

variable {crates : Crates} {json : FromSlice} {inputFormat : InputFormat} {bytes : Bytes}
  {error : CliError} {config : Config} {args : List String}

/-- What is wrong with an argument list. No diagnostic quotes an argument, so that
none of them can break a line. -/
def argumentErrors : List CliError :=
  [usage, "input format must be provided exactly once", "input format value is required",
    "output format must be provided at most once", "output format value is required",
    "output format must be exactly human or json", "unknown command-line option",
    "exactly one input path is required", "explicit --input-format json|cbor|cose is required",
    "input path is required"].map invalidArguments ++
  [{ code := "unsupported_input_format",
     message := "input format must be exactly json, cbor, or cose" }]

/-- The categories of the errors of `tfws-core`, each of which can reach a user. -/
def reportedCategories : List String :=
  structuralCategories ++ ["unsupported_cbor_type", "manifest_policy_invalid",
    "hybrid_baseline_incomplete", "key_binding_mismatch"]

/-- The diagnostic for a category, which leaves out the message of the error. -/
def reportOf (category : String) : CliError :=
  { code := category, message := categoryMessage category }

/-- What is wrong with a file, or with reading it. Together with the errors of
arguments, this is the whole list. -/
def inputErrors : List CliError :=
  [{ code := "input_read_failed", message := "unable to read input" },
    { code := "invalid_json", message := "input is not valid manifest JSON" }] ++
  reportedCategories.map reportOf

theorem inputFormat_raises (value : String) :
    Outcome (InputFormat.parse value) (fun _ => True) (· ∈ argumentErrors) := by
  unfold InputFormat.parse
  split
  · trivial
  · trivial
  · trivial
  · exact List.mem_append_right _ (List.mem_singleton.mpr rfl)

theorem outputFormat_raises (value : String) :
    Outcome (OutputFormat.parse value) (fun _ => True) (· ∈ argumentErrors) := by
  unfold OutputFormat.parse
  split
  · trivial
  · trivial
  · exact List.mem_append_left _ (List.mem_map_of_mem (by decide))

/-- Whatever is wrong with the arguments is on the list of what can be. -/
theorem parseLoop_raises (state : ParseState) (args : List String) :
    Outcome (parseLoop state args) (fun _ => True) (· ∈ argumentErrors) := by
  have hListed {message : String} (h : invalidArguments message ∈ argumentErrors) :
      Outcome (.error (invalidArguments message) : Except CliError ParseState) (fun _ => True)
        (· ∈ argumentErrors) := h
  fun_induction parseLoop state args with
  | case1 => trivial
  | case2 => exact hListed (by decide)
  | case3 => exact hListed (by decide)
  | case4 state hSeen value args ih => exact (inputFormat_raises value).bind fun format _ => ih format
  | case5 => exact hListed (by decide)
  | case6 => exact hListed (by decide)
  | case7 state hSeen value args hOption ih =>
      exact (outputFormat_raises value).bind fun format _ => ih format
  | case8 => exact hListed (by decide)
  | case9 => exact hListed (by decide)
  | case10 state argument args hFirst hSecond hDash hPath ih => exact ih

theorem parseArgs_raises (args : List String) :
    Outcome (parseArgs args) (fun _ => True) (· ∈ argumentErrors) := by
  unfold parseArgs
  split
  · apply (parseLoop_raises _ _).bind
    intro state _
    unfold ParseState.config
    cases state.inputFormat with
    | none =>
        change invalidArguments _ ∈ argumentErrors
        decide
    | some format =>
        cases state.path with
        | none =>
            change invalidArguments _ ∈ argumentErrors
            decide
        | some path => trivial
  · change invalidArguments _ ∈ argumentErrors
    decide

theorem category_mem (error : CborCodecError) : error.category ∈ reportedCategories := by
  cases error <;> simp [CborCodecError.category, reportedCategories, structuralCategories]

theorem coseCategory_mem (error : CoseEnvelopeError) : error.category ∈ reportedCategories := by
  cases error with
  | manifestCbor cause => exact category_mem cause
  | _ => simp [CoseEnvelopeError.category, reportedCategories, structuralCategories]

/-- Whatever is wrong with a file is on the list of what can be, for all three
formats. -/
theorem validateBytes_raises (inputFormat : InputFormat) (bytes : Bytes) :
    Outcome (validateBytes crates json inputFormat bytes) (fun _ => True) (· ∈ inputErrors) := by
  have hReport {category : String} (h : category ∈ reportedCategories) :
      reportOf category ∈ inputErrors := List.mem_append_right _ (List.mem_map_of_mem h)
  cases inputFormat with
  | json =>
      apply (Outcome.mapError fun _ => (by decide)).bind
      intro manifest _
      apply (Outcome.mapError fun _ => @hReport "manifest_policy_invalid" (by decide)).bind
      intro _ _
      trivial
  | cbor => exact Outcome.mapError fun cause => hReport (category_mem cause)
  | cose => exact Outcome.mapError fun cause => hReport (coseCategory_mem cause)

/-- What a run has to say: that the file is valid, or one error. -/
inductive Report where
  | valid (inputFormat : InputFormat)
  | invalid (error : CliError)

def Report.document : Report → Json.Value
  | valid inputFormat => successDocument inputFormat
  | invalid error => errorDocument error

/-- The line that says it, without its end, in the format that was asked for. -/
def Report.line (outputFormat : OutputFormat) : Report → String
  | valid inputFormat => formatSuccess { inputFormat, outputFormat, path := "" }
  | invalid error => formatError error outputFormat

/-- The end of a run with such a report: one line on one of the streams, and nothing
on the other. -/
def Report.run (outputFormat : OutputFormat) (exitCode : Nat) : Report → Run
  | valid inputFormat => { exitCode, stdout := (valid inputFormat).line outputFormat ++ "\n" }
  | invalid error => { exitCode, stderr := (invalid error).line outputFormat ++ "\n" }

theorem Report.plain (report : Report) : report.document.Plain := by
  cases report with
  | valid inputFormat =>
      apply Json.Value.Plain.object
      simp only [List.forall_mem_cons]
      exact ⟨.string, .bool, List.forall_mem_nil _⟩
  | invalid error =>
      apply Json.Value.Plain.object
      simp only [List.forall_mem_cons]
      refine ⟨.object ?_, .bool, List.forall_mem_nil _⟩
      simp only [List.forall_mem_cons]
      exact ⟨.string, .string, List.forall_mem_nil _⟩

theorem Report.line_json (report : Report) :
    (report.line .json).toList = report.document.write := by
  cases report <;> exact String.toList_ofList

/-- The line of the machine-readable format is read back, up to and including its
end. -/
theorem Report.parse_line (report : Report) :
    Json.Value.parse (report.line .json ++ "\n").toList = some report.document := by
  have hEnd : ("\n" : String).toList = ['\n'] := rfl
  rw [String.toList_append, report.line_json, hEnd]
  exact Json.Value.parse_write report.plain (List.forall_mem_nil _)
    (List.forall_mem_singleton.mpr rfl)

theorem no_break {text : String} (letters : List Char) (h : text = String.ofList letters)
    (hLetters : '\n' ∉ letters) : '\n' ∉ text.toList := by
  rwa [h, String.toList_ofList]

/-- No code and no message of a diagnostic breaks the line, so that a reader may go by
lines. -/
theorem diagnostics_one_line : ∀ error ∈ argumentErrors ++ inputErrors,
    '\n' ∉ error.code.toList ∧ '\n' ∉ error.message.toList := by
  simp only [argumentErrors, inputErrors, reportedCategories, structuralCategories,
    List.forall_mem_append, List.forall_mem_map, List.forall_mem_cons]
  repeat' apply And.intro
  all_goals first | exact List.forall_mem_nil _ | exact no_break _ rfl (by decide)

theorem Report.one_line {report : Report} (outputFormat : OutputFormat)
    (h : ∀ error, report = .invalid error → error ∈ argumentErrors ++ inputErrors) :
    '\n' ∉ (report.line outputFormat).toList := by
  cases outputFormat with
  | json =>
      rw [report.line_json]
      exact report.plain.printable.not_mem (by decide)
  | human =>
      cases report with
      | valid inputFormat =>
          change '\n' ∉ ("valid" : String).toList
          decide
      | invalid error =>
          obtain ⟨hCode, hMessage⟩ := diagnostics_one_line error (h error rfl)
          have hLine : (Report.invalid error).line .human =
              "error[" ++ error.code ++ "]: " ++ error.message := rfl
          have hOpen : '\n' ∉ ("error[" : String).toList := by decide
          have hClose : '\n' ∉ ("]: " : String).toList := by decide
          rw [hLine]
          simp only [String.toList_append, List.mem_append, hOpen, hClose, hCode, hMessage, or_self,
            not_false_eq_true]

/-- What a run reports, and its exit code, for every way in which it can end. -/
inductive Reported (crates : Crates) (json : FromSlice) (read : String → Option Bytes)
    (args : List String) : Report → Nat → Prop where
  | valid (config : Config) (bytes : Bytes) (manifest : Manifest)
      (hArgs : parseArgs args = .ok config) (hRead : read config.path = some bytes)
      (hValid : validateBytes crates json config.inputFormat bytes = .ok manifest) :
      Reported crates json read args (.valid config.inputFormat) 0
  | unread (config : Config) (hArgs : parseArgs args = .ok config)
      (hRead : read config.path = none) :
      Reported crates json read args
        (.invalid { code := "input_read_failed", message := "unable to read input" }) 1
  | rejected (config : Config) (bytes : Bytes) (error : CliError)
      (hArgs : parseArgs args = .ok config) (hRead : read config.path = some bytes)
      (hRejected : validateBytes crates json config.inputFormat bytes = .error error)
      (hListed : error ∈ inputErrors) :
      Reported crates json read args (.invalid error) 1
  | arguments (error : CliError) (hArgs : parseArgs args = .error error)
      (hListed : error ∈ argumentErrors) :
      Reported crates json read args (.invalid error) 2

/-- Where the arguments are accepted, both ways to find the output format agree. -/
theorem outputFormatHint_of_parseArgs (h : parseArgs args = .ok config) :
    outputFormatHint args = config.outputFormat := by
  obtain ⟨groups, hGroups, hSpelled⟩ := parseArgs_eq_ok.mp h
  rw [hGroups]
  exact hSpelled.hint

/-- Every run has one report and prints its line. The cases are those of `main`, in
its order. -/
theorem main_reported (crates : Crates) (json : FromSlice) (read : String → Option Bytes)
    (args : List String) : ∃ report exitCode, Reported crates json read args report exitCode ∧
      main crates json read args = report.run (outputFormatHint args) exitCode := by
  rw [main]
  cases hArgs : parseArgs args with
  | error error =>
      exact ⟨_, 2, .arguments error hArgs ((parseArgs_raises args).of_error hArgs), rfl⟩
  | ok config =>
      rw [outputFormatHint_of_parseArgs hArgs]
      cases hRead : read config.path with
      | none => exact ⟨_, 1, .unread config hArgs hRead, by simp only [hRead]; rfl⟩
      | some bytes =>
          cases hResult : validateBytes crates json config.inputFormat bytes with
          | error error =>
              exact ⟨_, 1, .rejected config bytes error hArgs hRead hResult
                ((validateBytes_raises _ bytes).of_error hResult), by simp only [hRead, hResult]; rfl⟩
          | ok manifest =>
              exact ⟨_, 0, .valid config bytes manifest hArgs hRead hResult, by
                simp only [hRead, hResult]; rfl⟩

/-- Every run prints one line, on one of the two streams and in the format that
the arguments ask for. It is one of a fixed list of diagnostics if it does not
say that the file is valid, and in the machine-readable format it is read back
as what it says. -/
theorem main_prints (crates : Crates) (json : FromSlice) (read : String → Option Bytes)
    (args : List String) : ∃ report exitCode, Reported crates json read args report exitCode ∧
      main crates json read args = report.run (outputFormatHint args) exitCode ∧
      '\n' ∉ (report.line (outputFormatHint args)).toList ∧
      Json.Value.parse (report.line .json ++ "\n").toList = some report.document := by
  obtain ⟨report, exitCode, hReported, hRun⟩ := main_reported crates json read args
  refine ⟨report, exitCode, hReported, hRun, Report.one_line _ ?_, report.parse_line⟩
  intro error hError
  cases hReported with
  | valid _ _ _ _ _ _ => cases hError
  | unread _ _ _ =>
      obtain rfl := Report.invalid.inj hError
      decide
  | rejected _ _ _ _ _ _ hListed =>
      obtain rfl := Report.invalid.inj hError
      exact List.mem_append_right _ hListed
  | arguments _ _ hListed =>
      obtain rfl := Report.invalid.inj hError
      exact List.mem_append_left _ hListed

/-- Of the categories that can be reported, the table of messages lacks one. -/
theorem categoryMessage_fallback {category : String} (h : category ∈ reportedCategories) :
    categoryMessage category = "input was rejected" ↔ category = "hybrid_baseline_incomplete" := by
  revert category
  decide

theorem mapError_eq_error {α : Type} {δ ε : Type} {first : Except δ α} {f : δ → ε} {raised : ε} :
    first.mapError f = .error raised ↔ ∃ cause, first = .error cause ∧ f cause = raised := by
  cases first <;> simp [Except.mapError]

theorem validateBytes_json_message (bytes : Bytes) :
    Outcome (validateBytes crates json .json bytes) (fun _ => True)
      (fun error => error.message ≠ "input was rejected") := by
  apply (Outcome.mapError fun _ => (by decide)).bind
  intro manifest _
  apply (Outcome.mapError fun _ => (by decide)).bind
  intro _ _
  trivial

/-- The message for categories that the table does not have is the one for an envelope
around a manifest without keys. No other input brings it up. -/
theorem validateBytes_fallback (crates : Crates) (json : FromSlice) (inputFormat : InputFormat)
    (bytes : Bytes) :
    (∃ error, validateBytes crates json inputFormat bytes = .error error ∧
      error.message = "input was rejected") ↔
    inputFormat = .cose ∧ ∃ content : EnvelopeContent, content.Within .default ∧
      bytes = content.octets ∧ ∃ manifest,
        decodeManifestCbor crates content.payload .default = .ok manifest ∧ manifest.keys = [] := by
  constructor
  · intro h
    obtain ⟨error, hError, hMessage⟩ := h
    cases inputFormat with
    | json => exact absurd hMessage ((validateBytes_json_message bytes).of_error hError)
    | cbor =>
        obtain ⟨cause, -, rfl⟩ := mapError_eq_error.mp hError
        exact absurd ((categoryMessage_fallback (category_mem cause)).mp hMessage) cause.category_ne
    | cose =>
        obtain ⟨cause, hRefused, rfl⟩ := mapError_eq_error.mp hError
        have hCategory := (categoryMessage_fallback (coseCategory_mem cause)).mp hMessage
        rw [category_incomplete.mp hCategory] at hRefused
        exact ⟨rfl, incomplete_iff.mp hRefused⟩
  · intro h
    obtain ⟨rfl, hContent⟩ := h
    have hRefused : verifyManifestCose crates bytes conformanceFixtureVerifier =
        .error .hybridBaselineIncomplete := incomplete_iff.mpr hContent
    rw [validateBytes, hRefused]
    exact ⟨_, rfl, rfl⟩

end Tfws.Cli
