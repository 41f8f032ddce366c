import Tfws.Cli.Validation
import Mathlib.Data.List.Induction

/-! The command line of `tfws-cli`: the loop over the arguments, and the second
scanner that chooses the format of error messages. -/
namespace Tfws.Cli

open Fallible

inductive OutputFormat where
  | human
  | json
  deriving DecidableEq, Repr

def InputFormat.parse (value : String) : Except CliError InputFormat :=
  match value with
  | "json" => .ok .json
  | "cbor" => .ok .cbor
  | "cose" => .ok .cose
  | _ => .error { code := "unsupported_input_format",
                  message := "input format must be exactly json, cbor, or cose" }

def InputFormat.name : InputFormat → String
  | json => "json"
  | cbor => "cbor"
  | cose => "cose"

def OutputFormat.parse (value : String) : Except CliError OutputFormat :=
  match value with
  | "human" => .ok .human
  | "json" => .ok .json
  | _ => .error { code := "invalid_arguments",
                  message := "output format must be exactly human or json" }

def usage : String :=
  "usage: tfws-cli validate --input-format <json|cbor|cose> [--output-format <human|json>] <path>"

structure Config where
  inputFormat : InputFormat
  outputFormat : OutputFormat
  path : String
  deriving DecidableEq, Repr

/-- The variables of the loop, as they are before it, with one for each kind of
argument. -/
structure ParseState where
  inputFormat : Option InputFormat := none
  outputFormat : OutputFormat := .human
  outputSeen : Bool := false
  path : Option String := none
  deriving DecidableEq, Repr

def invalidArguments (message : String) : CliError :=
  { code := "invalid_arguments", message }

/-- `value.starts_with('-')`, which is what tells an option from a path. A single dash
counts as an option. -/
def startsWithDash (value : String) : Bool := value.toList.head? = some '-'

/-- The loop of `parse_args`, which stops at the first argument that it objects to. -/
def parseLoop (state : ParseState) : List String → Except CliError ParseState
  | [] => .ok state
  | argument :: args =>
      if argument = "--input-format" then
        if state.inputFormat.isSome then
          .error (invalidArguments "input format must be provided exactly once")
        else match args with
          | [] => .error (invalidArguments "input format value is required")
          | value :: args => do
              let inputFormat ← InputFormat.parse value
              parseLoop { state with inputFormat := some inputFormat } args
      else if argument = "--output-format" then
        if state.outputSeen then
          .error (invalidArguments "output format must be provided at most once")
        else match args with
          | [] => .error (invalidArguments "output format value is required")
          | value :: args => do
              let outputFormat ← OutputFormat.parse value
              parseLoop { state with outputFormat, outputSeen := true } args
      else if startsWithDash argument then
        .error (invalidArguments "unknown command-line option")
      else if state.path.isSome then
        .error (invalidArguments "exactly one input path is required")
      else parseLoop { state with path := some argument } args

/-- What `parse_args` makes of the variables when the arguments are used up: a format
and a path have to be there by then. -/
def ParseState.config (state : ParseState) : Except CliError Config := do
  let inputFormat ← match state.inputFormat with
    | some inputFormat => .ok inputFormat
    | none => .error (invalidArguments "explicit --input-format json|cbor|cose is required")
  let path ← match state.path with
    | some path => .ok path
    | none => .error (invalidArguments "input path is required")
  .ok { inputFormat, outputFormat := state.outputFormat, path }

/-- `parse_args`, whose first argument is the word `validate`. The other arguments may
come in any order. -/
def parseArgs : List String → Except CliError Config
  | "validate" :: args => do
      let state ← parseLoop {} args
      state.config
  | _ => .error (invalidArguments usage)

/-- `args.windows(2)`: every argument with the one behind it, wherever the two
stand. -/
def windows (args : List String) : List (String × String) := args.zip args.tail

/-- The second scanner, which needs no valid arguments: some option for machines
anywhere is enough. -/
def outputFormatHint (args : List String) : OutputFormat :=
  ((windows args).findSome? fun pair =>
    if pair.1 = "--output-format" ∧ pair.2 = "json" then some OutputFormat.json else none).getD
      .human

def OutputFormat.name : OutputFormat → String
  | human => "human"
  | json => "json"

/-- A path that cannot be mistaken for an option, and so can stand anywhere. -/
structure InputPath where
  text : String
  plain : startsWithDash text = false

/-- The arguments that belong together: an option with its value, or a path. -/
inductive ArgumentGroup where
  | input (format : InputFormat)
  | output (format : OutputFormat)
  | path (file : InputPath)

namespace ArgumentGroup

def arguments : ArgumentGroup → List String
  | input format => ["--input-format", format.name]
  | output format => ["--output-format", format.name]
  | path file => [file.text]

def input? : ArgumentGroup → Option InputFormat
  | input format => some format
  | _ => none

def output? : ArgumentGroup → Option OutputFormat
  | output format => some format
  | _ => none

def path? : ArgumentGroup → Option InputPath
  | path file => some file
  | _ => none

end ArgumentGroup

open ArgumentGroup

variable {state final : ParseState} {group : ArgumentGroup} {groups : List ArgumentGroup}
  {args : List String} {config : Config}

theorem InputFormat.parse_eq_ok {value : String} {format : InputFormat} :
    InputFormat.parse value = .ok format ↔ value = format.name := by
  constructor
  · intro h
    unfold InputFormat.parse at h
    split at h <;> cases h <;> rfl
  · intro h
    rw [h]
    cases format <;> rfl

theorem OutputFormat.parse_eq_ok {value : String} {format : OutputFormat} :
    OutputFormat.parse value = .ok format ↔ value = format.name := by
  constructor
  · intro h
    unfold OutputFormat.parse at h
    split at h <;> cases h <;> rfl
  · intro h
    rw [h]
    cases format <;> rfl

/-- The loop on one group: a second one of its kind is refused. -/
def ParseState.add (state : ParseState) : ArgumentGroup → Except CliError ParseState
  | .input format => do
      failIf (state.inputFormat.isSome = true)
        (invalidArguments "input format must be provided exactly once")
      .ok { state with inputFormat := some format }
  | .output format => do
      failIf (state.outputSeen = true)
        (invalidArguments "output format must be provided at most once")
      .ok { state with outputFormat := format, outputSeen := true }
  | .path file => do
      failIf (state.path.isSome = true) (invalidArguments "exactly one input path is required")
      .ok { state with path := some file.text }

theorem InputPath.ne_option (file : InputPath) {option : String}
    (h : startsWithDash option = true) : file.text ≠ option := by
  intro hSame
  have hPlain := file.plain
  rw [hSame, h] at hPlain
  cases hPlain

theorem parseLoop_path (state : ParseState) (file : InputPath) (args : List String) :
    parseLoop state (file.text :: args) =
      if state.path.isSome = true then
        .error (invalidArguments "exactly one input path is required")
      else parseLoop { state with path := some file.text } args := by
  have hPlain : ¬startsWithDash file.text = true := by
    rw [file.plain]
    decide
  have hInput : file.text ≠ "--input-format" := file.ne_option (by decide)
  have hOutput : file.text ≠ "--output-format" := file.ne_option (by decide)
  rw [parseLoop.eq_def]
  simp only [if_neg hInput, if_neg hOutput, if_neg hPlain]

/-- The loop reads a group as one step, whatever follows it. A group is an option with
its value, or a path. -/
theorem parseLoop_group (state : ParseState) (group : ArgumentGroup) (args : List String) :
    parseLoop state (group.arguments ++ args) =
      (do let next ← state.add group; parseLoop next args) := by
  cases group with
  | input format =>
      rw [arguments, List.cons_append, List.cons_append, List.nil_append, parseLoop, if_pos rfl,
        InputFormat.parse_eq_ok.mpr rfl, ParseState.add]
      by_cases hSeen : state.inputFormat.isSome = true
      · rw [if_pos hSeen, failIf_of hSeen]
        rfl
      · rw [if_neg hSeen, failIf_of_not hSeen]
        rfl
  | output format =>
      rw [arguments, List.cons_append, List.cons_append, List.nil_append, parseLoop,
        if_neg (by decide), if_pos rfl, OutputFormat.parse_eq_ok.mpr rfl, ParseState.add]
      by_cases hSeen : state.outputSeen = true
      · rw [if_pos hSeen, failIf_of hSeen]
        rfl
      · rw [if_neg hSeen, failIf_of_not hSeen]
        rfl
  | path file =>
      rw [arguments, List.cons_append, List.nil_append, parseLoop_path, ParseState.add]
      by_cases hSeen : state.path.isSome = true
      · rw [if_pos hSeen, failIf_of hSeen]
        rfl
      · rw [if_neg hSeen, failIf_of_not hSeen]
        rfl

/-- So it reads a list of groups, one after the other, and stops at the first that
cannot be added. -/
theorem parseLoop_groups (state : ParseState) (groups : List ArgumentGroup) :
    parseLoop state (groups.flatMap arguments) = groups.foldlM ParseState.add state := by
  induction groups generalizing state with
  | nil => rfl
  | cons group rest ih =>
      rw [List.flatMap_cons, parseLoop_group, List.foldlM_cons]
      simp only [ih]

/-- Every accepted list of arguments falls into groups, by induction on the
arguments. -/
theorem exists_groups (h : parseLoop state args = .ok final) :
    ∃ groups : List ArgumentGroup, args = groups.flatMap arguments := by
  induction state, args using parseLoop.induct with
  | case1 state => exact ⟨[], rfl⟩
  | case2 state args hSeen =>
      rw [parseLoop.eq_def] at h
      simp [hSeen] at h
  | case3 state hSeen =>
      rw [parseLoop.eq_def] at h
      simp [hSeen] at h
  | case4 state hSeen value args ih =>
      rw [parseLoop, if_pos rfl, if_neg hSeen, bind_eq_ok] at h
      obtain ⟨format, hFormat, hRest⟩ := h
      obtain ⟨groups, hGroups⟩ := ih format hRest
      rw [InputFormat.parse_eq_ok.mp hFormat, hGroups]
      exact ⟨.input format :: groups, rfl⟩
  | case5 state args hSeen hOption =>
      rw [parseLoop.eq_def] at h
      simp [hSeen] at h
  | case6 state hSeen hOption =>
      rw [parseLoop.eq_def] at h
      simp [hSeen] at h
  | case7 state hSeen value args hOption ih =>
      rw [parseLoop, if_neg hOption, if_pos rfl, if_neg hSeen, bind_eq_ok] at h
      obtain ⟨format, hFormat, hRest⟩ := h
      obtain ⟨groups, hGroups⟩ := ih format hRest
      rw [OutputFormat.parse_eq_ok.mp hFormat, hGroups]
      exact ⟨.output format :: groups, rfl⟩
  | case8 state value args hInput hOutput hDash =>
      rw [parseLoop.eq_def] at h
      simp [hInput, hOutput, hDash] at h
  | case9 state value args hInput hOutput hDash hSeen =>
      rw [parseLoop.eq_def] at h
      simp [hInput, hOutput, hDash, hSeen] at h
  | case10 state value args hInput hOutput hDash hSeen ih =>
      have hPath := parseLoop_path state ⟨value, Bool.not_eq_true _ ▸ hDash⟩ args
      rw [hPath, if_neg hSeen] at h
      obtain ⟨groups, hGroups⟩ := ih h
      rw [hGroups]
      exact ⟨.path ⟨value, Bool.not_eq_true _ ▸ hDash⟩ :: groups, rfl⟩

/-- The loop has read these groups, in this order: what is invariant in it. -/
structure Collected (groups : List ArgumentGroup) (state : ParseState) : Prop where
  inputs : groups.filterMap input? = state.inputFormat.toList
  outputs : groups.filterMap output? = if state.outputSeen then [state.outputFormat] else []
  human : state.outputSeen = false → state.outputFormat = .human
  paths : (groups.filterMap path?).map InputPath.text = state.path.toList

theorem collected_nil : Collected [] state ↔ state = {} := by
  constructor
  · intro h
    have hInputs : state.inputFormat = none := Option.toList_eq_nil_iff.mp h.inputs.symm
    have hPaths : state.path = none := Option.toList_eq_nil_iff.mp h.paths.symm
    have hSeen : state.outputSeen = false := by
      by_contra hSeen
      have hOutputs := h.outputs
      rw [if_pos (Bool.not_eq_false _ ▸ hSeen)] at hOutputs
      cases hOutputs
    have hHuman := h.human hSeen
    cases state
    simp_all
  · intro h
    rw [h]
    exact ⟨rfl, rfl, fun _ => rfl, rfl⟩

theorem concat_eq_toList {α : Type} {members : List α} {last : α} {option : Option α} :
    members ++ [last] = option.toList ↔ members = [] ∧ option = some last := by
  cases option with
  | none => simp
  | some value =>
      cases members with
      | nil => simp [eq_comm]
      | cons first rest => simp

theorem add_input_eq_ok {format : InputFormat} : state.add (.input format) = .ok final ↔
    state.inputFormat = none ∧ { state with inputFormat := some format } = final := by
  rw [ParseState.add, then_eq_ok, failIf_eq_ok, Option.not_isSome_iff_eq_none, Except.ok.injEq]

theorem add_output_eq_ok {format : OutputFormat} : state.add (.output format) = .ok final ↔
    state.outputSeen = false ∧
      { state with outputFormat := format, outputSeen := true } = final := by
  rw [ParseState.add, then_eq_ok, failIf_eq_ok, Bool.not_eq_true, Except.ok.injEq]

theorem add_path_eq_ok {file : InputPath} : state.add (.path file) = .ok final ↔
    state.path = none ∧ { state with path := some file.text } = final := by
  rw [ParseState.add, then_eq_ok, failIf_eq_ok, Option.not_isSome_iff_eq_none, Except.ok.injEq]

theorem collected_concat_input {format : InputFormat} :
    Collected (groups ++ [.input format]) final ↔
      ∃ state, Collected groups state ∧ state.add (.input format) = .ok final := by
  simp only [add_input_eq_ok]
  constructor
  · intro h
    have hInputs : groups.filterMap input? ++ [format] = final.inputFormat.toList := by
      simpa [List.filterMap_cons, input?] using h.inputs
    obtain ⟨hNone, hFormat⟩ := concat_eq_toList.mp hInputs
    refine ⟨{ final with inputFormat := none }, ⟨hNone, ?_, h.human, ?_⟩, rfl, ?_⟩
    · simpa [List.filterMap_cons, output?] using h.outputs
    · simpa [List.filterMap_cons, path?] using h.paths
    · rw [← hFormat]
  · intro h
    obtain ⟨state, hState, hNone, rfl⟩ := h
    refine ⟨?_, ?_, hState.human, ?_⟩
    · simp [input?, hState.inputs, hNone]
    · simpa [List.filterMap_cons, output?] using hState.outputs
    · simpa [List.filterMap_cons, path?] using hState.paths

theorem collected_concat_output {format : OutputFormat} :
    Collected (groups ++ [.output format]) final ↔
      ∃ state, Collected groups state ∧ state.add (.output format) = .ok final := by
  simp only [add_output_eq_ok]
  constructor
  · intro h
    have hOutputs : groups.filterMap output? ++ [format] =
        if final.outputSeen then [final.outputFormat] else [] := by
      simpa [List.filterMap_cons, output?] using h.outputs
    have hSeen : final.outputSeen = true := by
      by_contra hSeen
      rw [if_neg hSeen] at hOutputs
      simp at hOutputs
    rw [if_pos hSeen] at hOutputs
    have hLast : groups.filterMap output? ++ [format] = (some final.outputFormat).toList :=
      hOutputs
    obtain ⟨hNone, hFormat⟩ := concat_eq_toList.mp hLast
    refine ⟨{ final with outputFormat := .human, outputSeen := false },
      ⟨?_, hNone, fun _ => rfl, ?_⟩, rfl, ?_⟩
    · simpa [List.filterMap_cons, input?] using h.inputs
    · simpa [List.filterMap_cons, path?] using h.paths
    · rw [← Option.some.inj hFormat, ← hSeen]
  · intro h
    obtain ⟨state, hState, hSeen, rfl⟩ := h
    have hOutputs := hState.outputs
    rw [hSeen] at hOutputs
    refine ⟨?_, ?_, Bool.noConfusion, ?_⟩
    · simpa [List.filterMap_cons, input?] using hState.inputs
    · simpa [List.filterMap_cons, output?] using hOutputs
    · simpa [List.filterMap_cons, path?] using hState.paths

theorem collected_concat_path {file : InputPath} :
    Collected (groups ++ [.path file]) final ↔
      ∃ state, Collected groups state ∧ state.add (.path file) = .ok final := by
  simp only [add_path_eq_ok]
  constructor
  · intro h
    have hPaths : (groups.filterMap path?).map InputPath.text ++ [file.text] =
        final.path.toList := by
      simpa [List.filterMap_cons, path?] using h.paths
    obtain ⟨hNone, hFile⟩ := concat_eq_toList.mp hPaths
    refine ⟨{ final with path := none }, ⟨?_, ?_, h.human, hNone⟩, rfl, ?_⟩
    · simpa [List.filterMap_cons, input?] using h.inputs
    · simpa [List.filterMap_cons, output?] using h.outputs
    · rw [← hFile]
  · intro h
    obtain ⟨state, hState, hNone, rfl⟩ := h
    refine ⟨?_, ?_, hState.human, ?_⟩
    · simpa [List.filterMap_cons, input?] using hState.inputs
    · simpa [List.filterMap_cons, output?] using hState.outputs
    · simp [path?, hState.paths, hNone]

/-- One turn of the loop reads one more group, and fails where its kind has been read
before. -/
theorem collected_concat : Collected (groups ++ [group]) final ↔
    ∃ state, Collected groups state ∧ state.add group = .ok final := by
  cases group with
  | input format => exact collected_concat_input
  | output format => exact collected_concat_output
  | path file => exact collected_concat_path

/-- The loop ends well exactly with the variables that the groups leave. By induction
on the groups from the last one. -/
theorem foldlM_add_eq_ok :
    groups.foldlM ParseState.add {} = .ok state ↔ Collected groups state := by
  induction groups using List.reverseRec generalizing state with
  | nil =>
      rw [collected_nil, List.foldlM_nil, eq_comm]
      exact ⟨Except.ok.inj, congrArg Except.ok⟩
  | append_singleton groups group ih =>
      rw [List.foldlM_append, bind_eq_ok, collected_concat]
      simp only [ih, List.foldlM_cons, List.foldlM_nil, bind_pure]

/-- The variables make a configuration exactly if the input format and the path are
there. -/
theorem config_eq_ok : state.config = .ok config ↔
    state.inputFormat = some config.inputFormat ∧ state.outputFormat = config.outputFormat ∧
      state.path = some config.path := by
  obtain ⟨inputFormat, outputFormat, outputSeen, path⟩ := state
  obtain ⟨input, output, file⟩ := config
  cases inputFormat <;> cases path <;> simp [ParseState.config]

/-- The groups spell the configuration: one input format, one path, and at most
one output format, in any order. -/
def Config.Spelled (config : Config) (groups : List ArgumentGroup) : Prop :=
  ∃ (file : InputPath) (output : Option OutputFormat), config.path = file.text ∧
    config.outputFormat = output.getD .human ∧
    groups.Perm (.input config.inputFormat :: .path file :: output.toList.map .output)

/-- Groups are a rearrangement of their members of each kind, which is why their order
does not matter. -/
theorem perm_kinds (groups : List ArgumentGroup) :
    groups.Perm ((groups.filterMap input?).map .input ++
      ((groups.filterMap path?).map .path ++ (groups.filterMap output?).map .output)) := by
  induction groups with
  | nil => exact .nil
  | cons group rest ih =>
      cases group with
      | input format => exact ih.cons _
      | path file => exact (ih.cons _).trans List.perm_middle.symm
      | output format =>
          refine (ih.cons _).trans ?_
          rw [← List.append_assoc, ← List.append_assoc]
          exact List.perm_middle.symm

/-- What spells a configuration, by kinds: one input format, one path and at most one
output format. -/
theorem spelled_iff : config.Spelled groups ↔
    groups.filterMap input? = [config.inputFormat] ∧
      ∃ (file : InputPath) (output : Option OutputFormat), config.path = file.text ∧
        config.outputFormat = output.getD .human ∧ groups.filterMap path? = [file] ∧
        groups.filterMap output? = output.toList := by
  constructor
  · intro h
    obtain ⟨file, output, hPath, hOutput, hPerm⟩ := h
    have hInputs := hPerm.filterMap input?
    have hPaths := hPerm.filterMap path?
    have hOutputs := hPerm.filterMap output?
    cases output with
    | none =>
        exact ⟨List.perm_singleton.mp hInputs, file, none, hPath, hOutput,
          List.perm_singleton.mp hPaths, List.perm_nil.mp hOutputs⟩
    | some format =>
        exact ⟨List.perm_singleton.mp hInputs, file, some format, hPath, hOutput,
          List.perm_singleton.mp hPaths, List.perm_singleton.mp hOutputs⟩
  · intro h
    obtain ⟨hInputs, file, output, hPath, hOutput, hPaths, hOutputs⟩ := h
    refine ⟨file, output, hPath, hOutput, ?_⟩
    have hPerm := perm_kinds groups
    rwa [hInputs, hPaths, hOutputs] at hPerm

/-- Groups that spell a configuration leave it in the variables of the loop. -/
theorem exists_collected_iff :
    (∃ state, Collected groups state ∧ state.config = .ok config) ↔ config.Spelled groups := by
  rw [spelled_iff]
  simp only [config_eq_ok]
  constructor
  · intro h
    obtain ⟨state, hState, hInput, hOutput, hPath⟩ := h
    have hInputs := hState.inputs
    have hPaths := hState.paths
    rw [hInput] at hInputs
    rw [hPath, Option.toList_some, List.map_eq_singleton_iff] at hPaths
    obtain ⟨file, hFile, hText⟩ := hPaths
    refine ⟨hInputs, file, if state.outputSeen then some state.outputFormat else none, hText.symm,
      ?_, hFile, ?_⟩
    · rw [← hOutput]
      by_cases hSeen : state.outputSeen = true
      · rw [if_pos hSeen]
        rfl
      · rw [if_neg hSeen]
        exact hState.human (Bool.not_eq_true _ ▸ hSeen)
    · rw [hState.outputs]
      split_ifs <;> rfl
  · intro h
    obtain ⟨hInputs, file, output, hPath, hOutput, hPaths, hOutputs⟩ := h
    refine ⟨⟨some config.inputFormat, config.outputFormat, output.isSome, some config.path⟩,
      ⟨hInputs, ?_, ?_, ?_⟩, rfl, rfl, rfl⟩
    · rw [hOutputs, hOutput]
      cases output <;> rfl
    · intro hNone
      have hAbsent : output = none := Option.isNone_iff_eq_none.mp (Option.isSome_eq_false_iff.mp hNone)
      rw [hOutput, hAbsent]
      rfl
    · rw [hPaths, hPath]
      rfl

theorem parseArgs_groups :
    parseArgs ("validate" :: groups.flatMap arguments) = .ok config ↔ config.Spelled groups := by
  rw [parseArgs, bind_eq_ok, parseLoop_groups]
  simp only [foldlM_add_eq_ok, exists_collected_iff]

/-- The accepted arguments are the word and groups that spell the configuration, each
of them once at most. -/
theorem parseArgs_eq_ok : parseArgs args = .ok config ↔
    ∃ groups : List ArgumentGroup, args = "validate" :: groups.flatMap arguments ∧
      config.Spelled groups := by
  constructor
  · intro h
    unfold parseArgs at h
    split at h
    · rename_i args
      obtain ⟨state, hLoop, hConfig⟩ := bind_eq_ok.mp h
      obtain ⟨groups, hGroups⟩ := exists_groups hLoop
      refine ⟨groups, by rw [hGroups], parseArgs_groups.mp ?_⟩
      rw [← hGroups, parseArgs, bind_eq_ok]
      exact ⟨state, hLoop, hConfig⟩
    · cases h
  · intro h
    obtain ⟨groups, hGroups, hSpelled⟩ := h
    rw [hGroups]
    exact parseArgs_groups.mpr hSpelled

/-- The order of the groups does not matter: what spells a configuration does so in
every order. -/
theorem Config.Spelled.of_perm {shuffled : List ArgumentGroup} (h : config.Spelled groups)
    (hPerm : groups.Perm shuffled) : config.Spelled shuffled := by
  obtain ⟨file, output, hPath, hOutput, hGroups⟩ := h
  exact ⟨file, output, hPath, hOutput, hPerm.symm.trans hGroups⟩

/-- The pair of adjacent arguments that the scanner looks for, before the arguments
are parsed. -/
def jsonPair : String × String := ("--output-format", "json")

theorem outputFormatHint_eq :
    outputFormatHint args = if jsonPair ∈ windows args then .json else .human := by
  unfold outputFormatHint
  induction windows args with
  | nil => rfl
  | cons pair rest ih =>
      have hPair : (pair.1 = "--output-format" ∧ pair.2 = "json") ↔ jsonPair = pair := by
        constructor
        · intro h
          exact Prod.ext h.1.symm h.2.symm
        · intro h
          rw [← h]
          exact ⟨rfl, rfl⟩
      rw [List.findSome?_cons]
      by_cases hSame : jsonPair = pair
      · rw [if_pos (hPair.mpr hSame), if_pos (hSame ▸ List.mem_cons_self)]
        rfl
      · rw [if_neg (fun h => hSame (hPair.mp h))]
        simpa [List.mem_cons, hSame] using ih

theorem windows_cons_cons (first second : String) (rest : List String) :
    windows (first :: second :: rest) = (first, second) :: windows (second :: rest) := rfl

/-- Behind an argument that is not the option, the pair is found exactly when one of
the groups is that option with that value. A value of another option, or a path,
cannot take its place. -/
theorem jsonPair_mem_windows {previous : String} (h : previous ≠ "--output-format") :
    jsonPair ∈ windows (previous :: groups.flatMap arguments) ↔
      OutputFormat.json ∈ groups.filterMap output? := by
  induction groups generalizing previous with
  | nil => simp [windows]
  | cons group rest ih =>
      have hFirst {first : String} : jsonPair ≠ (previous, first) :=
        fun hSame => h (Prod.ext_iff.mp hSame).1.symm
      cases group with
      | input format =>
          have hName : format.name ≠ "--output-format" := by cases format <;> decide
          have hOption : jsonPair ≠ ("--input-format", format.name) := by cases format <;> decide
          simp only [List.flatMap_cons, arguments, List.cons_append, List.nil_append,
            windows_cons_cons, List.mem_cons, hFirst, hOption, false_or, ih hName]
          simp [List.filterMap_cons, output?]
      | output format =>
          have hName : format.name ≠ "--output-format" := by cases format <;> decide
          have hOption : jsonPair = ("--output-format", format.name) ↔ OutputFormat.json = format := by
            cases format <;> decide
          simp only [List.flatMap_cons, arguments, List.cons_append, List.nil_append,
            windows_cons_cons, List.mem_cons, hFirst, hOption, false_or, ih hName]
          simp [output?]
      | path file =>
          have hPlain : file.text ≠ "--output-format" := file.ne_option (by decide)
          simp only [List.flatMap_cons, arguments, List.cons_append, List.nil_append,
            windows_cons_cons, List.mem_cons, hFirst, false_or, ih hPlain]
          simp [List.filterMap_cons, output?]

/-- On accepted arguments the second scanner finds the output format of the
configuration. -/
theorem Config.Spelled.hint (h : config.Spelled groups) :
    outputFormatHint ("validate" :: groups.flatMap arguments) = config.outputFormat := by
  obtain ⟨-, file, output, -, hOutput, -, hOutputs⟩ := spelled_iff.mp h
  have hValidate : "validate" ≠ "--output-format" := by decide
  rw [outputFormatHint_eq, hOutput]
  simp only [jsonPair_mem_windows hValidate, hOutputs]
  cases output with
  | none => rfl
  | some format => cases format <;> rfl

/-- `parse_args` accepts the word `validate` followed by groups that spell a
configuration, in any order, and returns that configuration; the format of
error messages is then the one of the configuration. -/
theorem parseArgs_grammar :
    (∀ args config, parseArgs args = .ok config ↔
      ∃ groups : List ArgumentGroup, args = "validate" :: groups.flatMap arguments ∧
        config.Spelled groups) ∧
    (∀ (groups shuffled : List ArgumentGroup) (config : Config), groups.Perm shuffled →
      (parseArgs ("validate" :: groups.flatMap arguments) = .ok config ↔
        parseArgs ("validate" :: shuffled.flatMap arguments) = .ok config)) ∧
    (∀ args config, parseArgs args = .ok config →
      outputFormatHint args = config.outputFormat) := by
  refine ⟨?grammar, ?order, ?hint⟩
  case grammar =>
    intro args config
    exact parseArgs_eq_ok
  case order =>
    intro groups shuffled config hPerm
    rw [parseArgs_groups, parseArgs_groups]
    exact ⟨fun h => h.of_perm hPerm, fun h => h.of_perm hPerm.symm⟩
  case hint =>
    intro args config h
    obtain ⟨groups, hGroups, hSpelled⟩ := parseArgs_eq_ok.mp h
    rw [hGroups]
    exact hSpelled.hint

end Tfws.Cli
