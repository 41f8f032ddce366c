import Tfws.Core.Cose
import Tfws.Data.Redaction
import Tfws.Data.Utf8Lossy
import Tfws.Data.Whitespace

/-! What the OpenSSL bridge reports of a failed run: the diagnostic of the tool
on one line, without the paths it was called with, and cut at a bound. -/
namespace Tfws.Provider

open Redaction Whitespace

/-- An `OsStr` of a Unix system: any octets, which need not be a text. -/
abbrev Path := Bytes

/-- `Path::to_string_lossy`, which never fails and need not give the path back. -/
def toStringLossy (path : Path) : String := Utf8.fromUtf8Lossy path

/-- `Path::is_absolute`, on a system whose paths begin with a slash. The empty path is
not. -/
def isAbsolute (path : Path) : Bool := path.head? = some 0x2F

/-- `external_command_path` of a build that is not for Windows, where it changes
nothing. -/
def externalCommandPath (path : Path) : Path := path

/-- `str::split_whitespace`: the words of a text, whatever blanks are between them. -/
def splitWhitespace (text : String) : List String :=
  (split isWhitespace text.toList).map String.ofList

/-- `str::replace` by a pattern that is not empty, from left to right and without
going back. -/
def replace (text pattern replacement : String) : String :=
  String.ofList (replaceAll pattern.toList replacement.toList text.toList)

def maxOpensslDiagnosticChars : Nat := 1024

/-- What stands in place of a path that was found, in the diagnostic that is
returned. -/
def pathMarker : String := "<path>"

/-- Replaces one spelling of a path, unless it is empty. There are several spellings
of each. -/
def redactCandidate (diagnostic : String) (candidate : Path) : String :=
  let candidate := toStringLossy candidate
  if candidate.isEmpty then diagnostic else replace diagnostic candidate pathMarker

/-- Replaces a path in both of the spellings that the tool may have been given. -/
def redactPath (diagnostic : String) (path : Path) : String :=
  [path, externalCommandPath path].foldl redactCandidate diagnostic

/-- `sanitize_openssl_diagnostic`. The whitespace goes first, the paths second, and
the length is bounded last. -/
def sanitizeOpensslDiagnostic (bytes : Bytes) (redactedPaths : List Path) : String :=
  let diagnostic := String.intercalate " " (splitWhitespace (Utf8.fromUtf8Lossy bytes))
  let diagnostic := redactedPaths.foldl redactPath diagnostic
  let characters := diagnostic.toList
  let bounded := String.ofList (characters.take maxOpensslDiagnosticChars)
  match characters.drop maxOpensslDiagnosticChars with
  | [] => bounded
  | _ :: _ => bounded.push '…'

/-- `process::Output`, with the exit code where there is one. A run that a signal
ended has none. -/
structure Output where
  code : Option Int
  stdout : Bytes
  stderr : Bytes

/-- `ExitStatus::success`: a process that a signal ended has no code and did not
succeed. -/
def Output.success (output : Output) : Bool := output.code = some 0

/-- The error for a failed run, which is all that a caller gets to see of the tool's
output. -/
def opensslOperationError (operation : String) (output : Output) (redactedPaths : List Path) :
    CoseCryptoError :=
  let status := match output.code with
    | some code => s!"exit code {code}"
    | none => "terminated without an exit code"
  let diagnosticSource := if output.stderr.isEmpty then output.stdout else output.stderr
  let diagnostic := sanitizeOpensslDiagnostic diagnosticSource redactedPaths
  if diagnostic.isEmpty then .operationFailed s!"OpenSSL {operation} failed ({status})"
  else .operationFailed s!"OpenSSL {operation} failed ({status}): {diagnostic}"

/-- A text up to the lengths of its runs of whitespace. -/
def collapsed (text : List Char) : List Char := collapse isWhitespace ' ' text

/-- The text that is searched for, where octets that are no text have been
replaced. -/
def pathText (path : Path) : List Char := (toStringLossy path).toList

/-- The paths are absolute, and no text of one contains the marker. -/
def Redactable (paths : List Path) : Prop :=
  ∀ path ∈ paths, isAbsolute path = true ∧ ¬pathMarker.toList <:+: pathText path

/-- No path is left in the diagnostic, not even with other runs of whitespace. -/
def Redacts (bytes : Bytes) (paths : List Path) : Prop :=
  ∀ path ∈ paths, ¬collapsed (pathText path) <:+:
    collapsed (sanitizeOpensslDiagnostic bytes paths).toList

/-- A text without the ellipsis it may end with, where it was cut. -/
def bare (text : List Char) : List Char :=
  if text.getLast? = some '…' then text.dropLast else text

/-- The diagnostic on one line, as it is before the paths are replaced. -/
def oneLine (bytes : Bytes) : List Char :=
  normalize isWhitespace ' ' (Utf8.fromUtf8Lossy bytes).toList

/-- The texts of the paths in the order they are searched for, the latest first:
each path twice, as it is and as the tool was given it. -/
def turns (paths : List Path) : List (List Char) :=
  (paths.flatMap fun path => [pathText path, pathText path]).reverse

/-- The length of a beginning of the message once its paths are replaced. -/
def shownLength (paths : List Path) (before : List Char) : Nat :=
  (paths.foldl redactPath (String.ofList before)).length

/-- At a place of the one-line message that no replaced path covers, the word
stands, up to an ending that the marker of a path behind it completes, and within
the bound; or it ends in an ellipsis and the message is cut right in front of it. -/
def Uncovered (bytes : Bytes) (paths : List Path) (word : List Char) : Prop :=
  ∃ before rest, oneLine bytes = before ++ rest ∧
    Reached pathMarker.toList (turns paths) before rest ∧
    (Stands pathMarker.toList (turns paths) rest word ∧
        shownLength paths before + word.length ≤ maxOpensslDiagnosticChars ∨
      ∃ stem, word = stem ++ ['…'] ∧ Stands pathMarker.toList (turns paths) rest stem ∧
        rest ≠ stem ∧ shownLength paths before + stem.length = maxOpensslDiagnosticChars)

/-- No path ends in a beginning of the marker, so that replacing one never completes
another. -/
def Unmarked (paths : List Path) : Prop :=
  ∀ path ∈ paths, ∀ ending, ending ≠ [] → ending <+: pathMarker.toList →
    ¬ending <:+ pathText path

/-- With its runs of whitespace collapsed, a path contains one of the paths, or
is too long to be left in a diagnostic. -/
def Recognised (paths : List Path) : Prop :=
  ∀ path ∈ paths, (∃ other ∈ paths, pathText other <:+: bare (collapsed (pathText path))) ∨
    maxOpensslDiagnosticChars < (bare (collapsed (pathText path))).length

/-- The diagnostic is cut, and an ellipsis stands for what is left out. -/
def boundedText (text : List Char) : List Char :=
  text.take maxOpensslDiagnosticChars ++
    if (text.drop maxOpensslDiagnosticChars).isEmpty then [] else ['…']

/-- A bounded text has room for the ellipsis and no more. -/
theorem length_boundedText (text : List Char) : (boundedText text).length ≤ 1025 := by
  have hTake := List.length_take_le maxOpensslDiagnosticChars text
  rw [maxOpensslDiagnosticChars] at hTake
  rw [boundedText, List.length_append, maxOpensslDiagnosticChars]
  split_ifs
  · simp only [List.length_nil]
    omega
  · simp only [List.length_singleton]
    omega

/-- A text within the bound is left as it is, and has no ellipsis put behind it. -/
theorem boundedText_of_short {text : List Char} (h : text.length ≤ maxOpensslDiagnosticChars) :
    boundedText text = text := by
  have hDrop : (text.drop maxOpensslDiagnosticChars).isEmpty = true := by
    rw [List.isEmpty_iff, List.drop_eq_nil_iff]
    exact h
  rw [boundedText, if_pos hDrop, List.append_nil, List.take_of_length_le h]

/-- A longer one is cut, and says so: the ellipsis is one character over the bound. -/
theorem boundedText_of_long {text : List Char} (h : maxOpensslDiagnosticChars < text.length) :
    boundedText text = text.take maxOpensslDiagnosticChars ++ ['…'] := by
  have hDrop : (text.drop maxOpensslDiagnosticChars).isEmpty = false := by
    rw [List.isEmpty_eq_false_iff, ne_eq, List.drop_eq_nil_iff]
    omega
  rw [boundedText, hDrop, if_neg Bool.false_ne_true]

theorem pathText_head {path : Path} (h : isAbsolute path = true) :
    ∃ rest, pathText path = '/' :: rest := by
  have hHead : path.head? = some 0x2F := of_decide_eq_true h
  cases path with
  | nil => cases hHead
  | cons first rest =>
      rw [List.head?_cons, Option.some.injEq] at hHead
      have hEncoded : first :: rest = String.utf8EncodeChar '/' ++ rest := by
        rw [hHead]
        rfl
      refine ⟨Utf8.lossyFrom 0 rest, ?_⟩
      rw [pathText, toStringLossy, Utf8.fromUtf8Lossy, String.toList_ofList, hEncoded,
        Utf8.lossyFrom_encodeChar]

/-- On an absolute path the two spellings are one, which is replaced twice. -/
theorem toList_redactPath {path : Path} (h : isAbsolute path = true) (diagnostic : String) :
    (redactPath diagnostic path).toList =
      redacted pathMarker.toList [pathText path, pathText path] diagnostic.toList := by
  obtain ⟨rest, hText⟩ := pathText_head h
  have hSome : ¬(toStringLossy path).isEmpty = true := by
    rw [String.isEmpty_iff, ← String.toList_inj]
    intro hNil
    rw [pathText, hNil] at hText
    cases hText
  have hOnce (text : String) :
      (redactCandidate text path).toList =
        replaceAll (pathText path) pathMarker.toList text.toList := by
    rw [redactCandidate]
    simp only [if_neg hSome]
    rw [replace, String.toList_ofList, pathText]
  rw [redactPath, externalCommandPath, List.foldl_cons, List.foldl_cons, List.foldl_nil, hOnce, hOnce]
  rfl

/-- The replacements, one path after the other, are those of the needles in their
turns. -/
theorem toList_foldl_redactPath {paths : List Path} (h : Redactable paths) (diagnostic : String) :
    (paths.foldl redactPath diagnostic).toList =
      redacted pathMarker.toList (turns paths) diagnostic.toList := by
  induction paths generalizing diagnostic with
  | nil => rfl
  | cons path rest ih =>
      obtain ⟨hPath, hRest⟩ := List.forall_mem_cons.mp h
      have hTurns : turns (path :: rest) = turns rest ++ [pathText path, pathText path] := by
        rw [turns, List.flatMap_cons, List.reverse_append]
        rfl
      rw [List.foldl_cons, ih hRest, toList_redactPath hPath.1, hTurns, redacted_append]

/-- The text is cut at its blanks and joined with single spaces. -/
theorem toList_oneLine (bytes : Bytes) :
    (String.intercalate " " (splitWhitespace (Utf8.fromUtf8Lossy bytes))).toList = oneLine bytes := by
  rw [String.toList_intercalate, splitWhitespace, List.map_map, oneLine, Whitespace.normalize]
  simp [Function.comp_def]

theorem toList_bounded (bytes : Bytes) (paths : List Path) :
    (sanitizeOpensslDiagnostic bytes paths).toList =
      boundedText (paths.foldl redactPath
        (String.intercalate " " (splitWhitespace (Utf8.fromUtf8Lossy bytes)))).toList := by
  rw [sanitizeOpensslDiagnostic, boundedText]
  split
  case h_1 hDrop => simp [hDrop]
  case h_2 first rest hDrop => simp [hDrop]

/-- The diagnostic as lists of characters: the message on one line, the paths replaced
in turn, and the bound. -/
theorem toList_sanitizeOpensslDiagnostic {paths : List Path} (h : Redactable paths) (bytes : Bytes) :
    (sanitizeOpensslDiagnostic bytes paths).toList =
      boundedText (redacted pathMarker.toList (turns paths) (oneLine bytes)) := by
  rw [toList_bounded, toList_foldl_redactPath h, toList_oneLine]

/-- However long the output of the tool is, the diagnostic is bounded. -/
theorem length_sanitizeOpensslDiagnostic (bytes : Bytes) (paths : List Path) :
    (sanitizeOpensslDiagnostic bytes paths).length ≤ 1025 := by
  rw [← String.length_toList, toList_bounded]
  exact length_boundedText _

theorem isWhitespace_space : isWhitespace ' ' = true := by decide

theorem marker_plain : ∀ letter ∈ pathMarker.toList, isWhitespace letter = false := by
  have hAll : (pathMarker.toList.all fun letter => !isWhitespace letter) = true := by decide
  simpa only [List.all_eq_true, Bool.not_eq_true'] using hAll

theorem marker_ne_nil : pathMarker.toList ≠ [] := by decide

theorem slash_not_mem_marker : '/' ∉ pathMarker.toList := by decide

/-- An absolute path begins with a slash, which the marker lacks. -/
theorem guarded_pathText {paths : List Path} (h : Redactable paths) {path : Path}
    (hMem : path ∈ paths) : Guarded '/' pathMarker.toList (pathText path) := by
  obtain ⟨hAbsolute, hFree⟩ := h path hMem
  obtain ⟨rest, hText⟩ := pathText_head hAbsolute
  exact ⟨by rw [hText]; rfl, hFree⟩

theorem allGuarded_turns {paths : List Path} (h : Redactable paths) :
    AllGuarded '/' pathMarker.toList (turns paths) := by
  intro needle hNeedle
  obtain ⟨path, hMem, hText⟩ := List.mem_flatMap.mp (List.mem_reverse.mp hNeedle)
  have hSame : needle = pathText path := by simpa using hText
  rw [hSame]
  exact guarded_pathText h hMem

theorem mem_turns {paths : List Path} {path : Path} (h : path ∈ paths) :
    pathText path ∈ turns paths :=
  List.mem_reverse.mpr (List.mem_flatMap.mpr ⟨path, h, List.mem_cons_self⟩)

theorem guarded_collapsed {text : List Char} (h : Guarded '/' pathMarker.toList text) :
    Guarded '/' pathMarker.toList (collapsed text) := by
  constructor
  · cases text with
    | nil => exact absurd rfl h.ne_nil
    | cons first rest =>
        have hFirst : first = '/' := Option.some.inj h.starts
        rw [hFirst, collapsed, collapse_cons (by decide)]
        rfl
  · intro hIn
    exact h.free (infix_of_infix_collapse isWhitespace_space marker_plain false hIn)

theorem bare_or (text : List Char) : bare text = text ∨ text = bare text ++ ['…'] := by
  rw [bare]
  split_ifs with hLast
  · exact Or.inr (List.dropLast_append_getLast? '…' hLast).symm
  · exact Or.inl rfl

theorem bare_append_ellipsis (text : List Char) : bare (text ++ ['…']) = text := by
  rw [bare, List.getLast?_concat, if_pos rfl, List.dropLast_concat]

theorem bare_starts (text : List Char) : bare text <+: text := by
  rcases bare_or text with hSame | hLonger
  · rw [hSame]
  · exact ⟨['…'], hLonger.symm⟩

theorem guarded_bare {text : List Char} (h : Guarded '/' pathMarker.toList text) :
    Guarded '/' pathMarker.toList (bare text) := by
  refine ⟨?_, fun hIn => h.free (hIn.trans (bare_starts text).isInfix)⟩
  rcases bare_or text with hSame | hLonger
  · rw [hSame]
    exact h.starts
  · have hStarts := h.starts
    cases hBare : bare text with
    | nil =>
        rw [hLonger, hBare] at hStarts
        exact absurd (Option.some.inj hStarts) (by decide)
    | cons first rest =>
        rw [hLonger, hBare] at hStarts
        exact hStarts

/-- What ends in front of an ellipsis is left in the text that was cut. A path may
itself end in one. -/
theorem bare_infix_of_boundedText {text word : List Char} (h : word <:+: boundedText text) :
    bare word <:+: text.take maxOpensslDiagnosticChars := by
  have hBare := (bare_starts word).isInfix
  rw [boundedText] at h
  split_ifs at h with hShort
  · rw [List.append_nil] at h
    exact hBare.trans h
  · rcases List.infix_concat_iff.mp h with hEnd | hIn
    · rcases List.suffix_concat_iff.mp hEnd with hNil | ⟨front, hWord, hFront⟩
      · rw [hNil]
        exact List.nil_infix
      · rw [hWord, bare_append_ellipsis]
        exact hFront.isInfix
    · exact hBare.trans hIn

/-- Replacing paths leaves no run of whitespace, for the marker has none. -/
theorem tidy_replaceAll {needle text : List Char} (hNeedle : needle ≠ [])
    (h : Tidy isWhitespace ' ' text) :
    Tidy isWhitespace ' ' (replaceAll needle pathMarker.toList text) := by
  constructor
  · apply isChain_replaceAll hNeedle (by decide) _ _ h.apart
    · intro letter hMem other hBlank
      rw [marker_plain letter hMem] at hBlank
      cases hBlank
    · intro letter hMem other _
      exact marker_plain letter hMem
  · intro letter hMem hBlank
    rcases mem_replaceAll hNeedle hMem with hMarker | hText
    · rw [marker_plain letter hMarker] at hBlank
      cases hBlank
    · exact h.spaces letter hText hBlank

theorem tidy_boundedText {text : List Char} (h : Tidy isWhitespace ' ' text) :
    Tidy isWhitespace ' ' (boundedText text) := by
  have hTake := h.of_part (List.take_prefix maxOpensslDiagnosticChars text).isInfix
  rw [boundedText]
  split_ifs
  · rw [List.append_nil]
    exact hTake
  · exact hTake.append_letter (by decide)

/-- The diagnostic has no runs of whitespace left, so that collapsing it changes
nothing. -/
theorem collapsed_sanitizeOpensslDiagnostic {paths : List Path} (h : Redactable paths)
    (bytes : Bytes) :
    collapsed (sanitizeOpensslDiagnostic bytes paths).toList =
      boundedText (redacted pathMarker.toList (turns paths) (oneLine bytes)) := by
  rw [toList_sanitizeOpensslDiagnostic h, collapsed]
  apply Tidy.collapse_eq
  apply tidy_boundedText
  apply redacted_induction _ (tidy_normalize _)
  intro needle hTurn text hText
  exact tidy_replaceAll (allGuarded_turns h needle hTurn).ne_nil hText

/-- The length of what is shown in front of a place, which says where the bound
falls. -/
theorem length_redacted {paths : List Path} (h : Redactable paths) (before : List Char) :
    (redacted pathMarker.toList (turns paths) before).length = shownLength paths before := by
  rw [shownLength, ← String.length_toList, toList_foldl_redactPath h, String.toList_ofList]

/-- The word stands in the text, which goes on behind it; so it stands in front of the
cut if it ends there. -/
theorem infix_take {text first word second : List Char}
    (hText : text = first ++ (word ++ second))
    (hLength : first.length + word.length ≤ maxOpensslDiagnosticChars) :
    word <:+: text.take maxOpensslDiagnosticChars := by
  have hFront : first ++ word <+: text := ⟨second, by rw [hText, List.append_assoc]⟩
  have hTake : first ++ word <+: text.take maxOpensslDiagnosticChars := by
    apply List.prefix_of_prefix_length_le hFront (List.take_prefix _ _)
    rw [List.length_take, List.length_append]
    have hWhole := hFront.length_le
    rw [List.length_append] at hWhole
    omega
  exact (List.suffix_append first word).isInfix.trans hTake.isInfix

/-- A word of the bounded text lies within the bound, or it ends in an ellipsis and
the text is cut right in front of that. -/
theorem infix_boundedText_iff {text word : List Char} (hWord : word ≠ []) :
    word <:+: boundedText text ↔
      (∃ first second, text = first ++ (word ++ second) ∧
        first.length + word.length ≤ maxOpensslDiagnosticChars) ∨
      ∃ stem first second, word = stem ++ ['…'] ∧ text = first ++ (stem ++ second) ∧
        second ≠ [] ∧ first.length + stem.length = maxOpensslDiagnosticChars := by
  have hInside {part : List Char} (hPart : part <+: text) (hIn : word <:+: part)
      (hLength : part.length ≤ maxOpensslDiagnosticChars) :
      ∃ first second, text = first ++ (word ++ second) ∧
        first.length + word.length ≤ maxOpensslDiagnosticChars := by
    obtain ⟨behind, rfl⟩ := hPart
    obtain ⟨first, second, rfl⟩ := hIn
    rw [List.length_append, List.length_append] at hLength
    refine ⟨first, second ++ behind, ?_, by omega⟩
    rw [List.append_assoc, List.append_assoc]
  constructor
  · intro hIn
    rcases le_or_gt text.length maxOpensslDiagnosticChars with hShort | hLong
    · rw [boundedText_of_short hShort] at hIn
      exact Or.inl (hInside List.prefix_rfl hIn hShort)
    · have hTake : (text.take maxOpensslDiagnosticChars).length = maxOpensslDiagnosticChars := by
        rw [List.length_take]
        omega
      rw [boundedText_of_long hLong] at hIn
      rcases List.infix_concat_iff.mp hIn with hEnd | hIn
      · rcases List.suffix_concat_iff.mp hEnd with hNil | ⟨stem, hStem, first, hFirst⟩
        · exact absurd hNil hWord
        · refine Or.inr ⟨stem, first, text.drop maxOpensslDiagnosticChars, hStem, ?_, ?_, ?_⟩
          · rw [← List.append_assoc, hFirst, List.take_append_drop]
          · rw [ne_eq, List.drop_eq_nil_iff]
            omega
          · rw [← List.length_append, hFirst, hTake]
      · exact Or.inl (hInside (List.take_prefix _ _) hIn hTake.le)
  · intro hEither
    have hStarts : text.take maxOpensslDiagnosticChars <:+: boundedText text :=
      (List.prefix_append _ _).isInfix
    rcases hEither with ⟨first, second, hText, hLength⟩ | ⟨stem, first, second, hStem, hText, hMore,
      hLength⟩
    · exact (infix_take hText hLength).trans hStarts
    · have hLong : maxOpensslDiagnosticChars < text.length := by
        have hPos := List.length_pos_iff.mpr hMore
        rw [hText, List.length_append, List.length_append]
        omega
      have hTake : text.take maxOpensslDiagnosticChars = first ++ stem := by
        rw [hText, ← List.append_assoc, List.take_left']
        rw [List.length_append, hLength]
      rw [boundedText_of_long hLong, hTake, hStem, List.append_assoc]
      exact (List.suffix_append _ _).isInfix

/-- What stands at a place that no replaced path covers, once the paths are
replaced. -/
theorem redacted_at_place {paths : List Path} (h : Redactable paths) {before rest word : List Char}
    (hReached : Reached pathMarker.toList (turns paths) before rest)
    (hWord : Guarded '/' pathMarker.toList word)
    (hStands : Stands pathMarker.toList (turns paths) rest word) :
    ∃ first second, redacted pathMarker.toList (turns paths) (before ++ rest) =
        first ++ (word ++ second) ∧ first.length = shownLength paths before ∧
      (second = [] ↔ rest = word) := by
  have hTurns := allGuarded_turns h
  rw [stands_iff slash_not_mem_marker hTurns hWord] at hStands
  have hEnd := redacted_eq_word_iff slash_not_mem_marker marker_ne_nil hTurns hWord hStands
  obtain ⟨second, hSecond⟩ := hStands
  refine ⟨_, second, ?_, length_redacted h before, ?_⟩
  · rw [redacted_of_reached slash_not_mem_marker marker_ne_nil hTurns hReached, hSecond]
  · rw [← hEnd, ← hSecond, List.append_right_eq_self]

/-- The place of the message that a word of the replaced message goes back to. -/
theorem exists_place {paths : List Path} (h : Redactable paths)
    {message first word second : List Char} (hWord : Guarded '/' pathMarker.toList word)
    (hText : redacted pathMarker.toList (turns paths) message = first ++ (word ++ second)) :
    ∃ before rest, message = before ++ rest ∧
      Reached pathMarker.toList (turns paths) before rest ∧
      Stands pathMarker.toList (turns paths) rest word ∧
      first.length = shownLength paths before ∧ (second = [] ↔ rest = word) := by
  have hTurns := allGuarded_turns h
  obtain ⟨before, rest, hSplit, hReached, hFirst, hSecond⟩ :=
    exists_reached slash_not_mem_marker marker_ne_nil hTurns hWord hText
  have hStands : word <+: redacted pathMarker.toList (turns paths) rest := ⟨second, hSecond⟩
  refine ⟨before, rest, hSplit, hReached, ?_, ?_, ?_⟩
  · rwa [stands_iff slash_not_mem_marker hTurns hWord]
  · rw [hFirst, length_redacted h]
  · rw [← redacted_eq_word_iff slash_not_mem_marker marker_ne_nil hTurns hWord hStands, ← hSecond,
      List.append_right_eq_self]

/-- What is left in front of an ellipsis begins with a slash too. -/
theorem guarded_stem {stem : List Char} (h : Guarded '/' pathMarker.toList (stem ++ ['…'])) :
    Guarded '/' pathMarker.toList stem := by
  have hBare := guarded_bare h
  rwa [bare_append_ellipsis] at hBare

/-- A path is left in the diagnostic exactly if it stands uncovered in the message.
The left side is about what is printed, the right one about what the tool wrote. -/
theorem infix_diagnostic_iff {paths : List Path} (h : Redactable paths) (bytes : Bytes)
    {word : List Char} (hWord : Guarded '/' pathMarker.toList word) :
    word <:+: boundedText (redacted pathMarker.toList (turns paths) (oneLine bytes)) ↔
      Uncovered bytes paths word := by
  rw [infix_boundedText_iff hWord.ne_nil]
  constructor
  · intro hEither
    rcases hEither with ⟨first, second, hText, hLength⟩ | ⟨stem, first, second, rfl, hText, hMore,
      hLength⟩
    · obtain ⟨before, rest, hSplit, hReached, hStands, hFirst, -⟩ := exists_place h hWord hText
      rw [hFirst] at hLength
      exact ⟨before, rest, hSplit, hReached, Or.inl ⟨hStands, hLength⟩⟩
    · obtain ⟨before, rest, hSplit, hReached, hStands, hFirst, hEnd⟩ :=
        exists_place h (guarded_stem hWord) hText
      rw [hFirst] at hLength
      exact ⟨before, rest, hSplit, hReached,
        Or.inr ⟨stem, rfl, hStands, mt hEnd.mpr hMore, hLength⟩⟩
  · intro hUncovered
    obtain ⟨before, rest, hSplit, hReached, hEither⟩ := hUncovered
    rw [hSplit]
    rcases hEither with ⟨hStands, hLength⟩ | ⟨stem, rfl, hStands, hMore, hLength⟩
    · obtain ⟨first, second, hText, hFirst, -⟩ := redacted_at_place h hReached hWord hStands
      rw [← hFirst] at hLength
      exact Or.inl ⟨first, second, hText, hLength⟩
    · obtain ⟨first, second, hText, hFirst, hEnd⟩ :=
        redacted_at_place h hReached (guarded_stem hWord) hStands
      rw [← hFirst] at hLength
      exact Or.inr ⟨stem, first, second, rfl, hText, mt hEnd.mp hMore, hLength⟩

/-- No path is left exactly if none stands uncovered: the diagnostic is judged by the
message, and not by another redaction. -/
theorem redacts_iff {paths : List Path} (h : Redactable paths) (bytes : Bytes) :
    Redacts bytes paths ↔ ∀ path ∈ paths, ¬Uncovered bytes paths (collapsed (pathText path)) := by
  apply forall₂_congr
  intro path hMem
  rw [collapsed_sanitizeOpensslDiagnostic h,
    infix_diagnostic_iff h bytes (guarded_collapsed (guarded_pathText h hMem))]

/-- A path that ends in no beginning of the marker is left nowhere as it is, for
nothing completes it. -/
theorem Unmarked.not_infix {paths : List Path} (h : Redactable paths) (hUnmarked : Unmarked paths)
    {path : Path} (hMem : path ∈ paths) (text : List Char) :
    ¬pathText path <:+: redacted pathMarker.toList (turns paths) text := by
  intro hIn
  obtain ⟨first, second, hText⟩ := hIn
  have hGuarded := guarded_pathText h hMem
  rw [List.append_assoc] at hText
  obtain ⟨before, rest, -, -, -, hRest⟩ := exists_reached slash_not_mem_marker marker_ne_nil
    (allGuarded_turns h) hGuarded hText.symm
  apply not_stands_of_mem (mem_turns hMem) hGuarded.ne_nil (hUnmarked path hMem)
  rw [stands_iff slash_not_mem_marker (allGuarded_turns h) hGuarded, ← hRest]
  exact List.prefix_append _ _

/-- Paths that are all found as they are searched for are redacted from every
message. -/
theorem redacts_of_recognised {paths : List Path} (h : Redactable paths) (hUnmarked : Unmarked paths)
    (hRecognised : Recognised paths) (bytes : Bytes) : Redacts bytes paths := by
  intro path hMem hIn
  rw [collapsed_sanitizeOpensslDiagnostic h] at hIn
  have hBare := bare_infix_of_boundedText hIn
  rcases hRecognised path hMem with ⟨other, hOther, hPart⟩ | hLong
  · exact hUnmarked.not_infix h hOther _
      (hPart.trans (hBare.trans (List.take_prefix _ _).isInfix))
  · have hLength := hBare.length_le.trans (List.length_take_le _ _)
    omega

/-- The text between padding, so long that it is cut right behind the word. -/
def padded (word : List Char) : List Char :=
  List.replicate (maxOpensslDiagnosticChars - word.length) '<' ++ word ++ ['<']

theorem padding_plain (count : Nat) :
    ∀ letter ∈ List.replicate count '<', isWhitespace letter = false := by
  intro letter hMem
  rw [List.eq_of_mem_replicate hMem]
  decide

theorem oneLine_padded {word : List Char} (hTidy : Tidy isWhitespace ' ' word)
    (hGuarded : Guarded '/' pathMarker.toList word) :
    oneLine (Utf8.encode (String.ofList (padded word ++ ['<']))) = padded word ++ ['<'] := by
  have hPadded : Tidy isWhitespace ' ' (padded word) := by
    rw [padded, List.append_assoc]
    exact (hTidy.append_letter (by decide)).append_left (padding_plain _)
  have hBegun : Begun isWhitespace (padded word) := by
    intro letter hLetter
    rw [padded, List.append_assoc, List.head?_append] at hLetter
    cases hHead : (List.replicate (maxOpensslDiagnosticChars - word.length) '<').head? with
    | some first =>
        rw [hHead] at hLetter
        rw [← Option.some.inj hLetter]
        exact padding_plain _ first (List.mem_of_mem_head? hHead)
    | none =>
        rw [hHead, Option.none_or, List.head?_append, hGuarded.starts] at hLetter
        rw [← Option.some.inj hLetter]
        decide
  rw [oneLine, Utf8.fromUtf8Lossy_encode, String.toList_ofList,
    normalize_append_letter isWhitespace_space hBegun (by decide), hPadded.collapse_eq]

/-- A path that ends in no beginning of the marker is in the padded text only if it is
in the word. -/
theorem infix_of_infix_padded {word text : List Char} (hGuarded : Guarded '/' pathMarker.toList text)
    (hEnd : ¬['<'] <:+ text) (h : text <:+: padded word ++ ['<']) : text <:+: word := by
  have hFirst (others : List Char) (hOthers : ∀ letter ∈ others, letter = '<')
      (hIn : '/' ∈ others) : False := absurd (hOthers _ hIn) (by decide)
  have hPadding : ∀ letter ∈ List.replicate (maxOpensslDiagnosticChars - word.length) '<',
      letter = '<' := fun _ hMem => List.eq_of_mem_replicate hMem
  have hStarts := List.mem_of_mem_head? hGuarded.starts
  have hTail : ∀ letter ∈ ['<', '<'], letter = '<' := by simp
  have hAfter (hIn : text <:+: word ++ ['<', '<']) : text <:+: word := by
    rcases List.infix_append_iff.mp hIn with hWord | hRest | ⟨front, back, rfl, hFront, hBack⟩
    · exact hWord
    · exact (hFirst _ hTail (hRest.subset hStarts)).elim
    · rcases List.eq_nil_or_concat back with rfl | ⟨others, last, rfl⟩
      · rw [List.append_nil]
        exact hFront.isInfix
      · have hLast : last = '<' := hTail last (hBack.subset (by simp))
        rw [hLast, List.concat_eq_append, ← List.append_assoc] at hEnd
        exact absurd (List.suffix_append _ _) hEnd
  rw [padded, List.append_assoc, List.append_assoc] at h
  rcases List.infix_append_iff.mp h with hLeft | hRight | ⟨front, back, hText, hFront, hBack⟩
  · exact (hFirst _ hPadding (hLeft.subset hStarts)).elim
  · exact hAfter hRight
  · cases front with
    | nil =>
        rw [List.nil_append] at hText
        exact hAfter (hText ▸ hBack.isInfix)
    | cons first others =>
        have hSlash := hGuarded.starts
        rw [hText] at hSlash
        exact (hFirst _ hPadding (hFront.subset (List.mem_of_mem_head? hSlash))).elim

theorem length_padded {word : List Char} (h : word.length ≤ maxOpensslDiagnosticChars) :
    (padded word).length = maxOpensslDiagnosticChars + 1 := by
  rw [padded, List.length_append, List.length_append, List.length_replicate, List.length_singleton]
  omega

theorem boundedText_padded {word : List Char} (h : word.length ≤ maxOpensslDiagnosticChars) :
    boundedText (padded word ++ ['<']) =
      List.replicate (maxOpensslDiagnosticChars - word.length) '<' ++ word ++ ['…'] := by
  have hLength := length_padded h
  rw [boundedText_of_long (by rw [List.length_append, hLength, List.length_singleton]; omega),
    padded, List.append_assoc, List.take_left' ?_]
  rw [List.length_append, List.length_replicate]
  omega

/-- The padded text of a path that is not found keeps the path, so that a list that is
always redacted has none. -/
theorem recognised_of_redacts {paths : List Path} (h : Redactable paths) (hUnmarked : Unmarked paths)
    (hRedacts : ∀ bytes, Redacts bytes paths) : Recognised paths := by
  intro path hMem
  by_contra hNot
  rw [not_or, not_lt] at hNot
  obtain ⟨hNone, hShort⟩ := hNot
  obtain ⟨word, hWord⟩ : ∃ word, bare (collapsed (pathText path)) = word := ⟨_, rfl⟩
  have hCollapsed := guarded_collapsed (guarded_pathText h hMem)
  have hGuarded := guarded_bare hCollapsed
  have hTidy := (tidy_collapseFrom isWhitespace ' ' false (pathText path)).1
  have hBare := hTidy.of_part (bare_starts (collapsed (pathText path))).isInfix
  have hEither := bare_or (collapsed (pathText path))
  rw [hWord] at hNone hShort hGuarded hBare hEither
  have hMiss : ∀ needle ∈ turns paths, ¬needle <:+: padded word ++ ['<'] := by
    intro needle hTurn hIn
    obtain ⟨other, hOther, hText⟩ := List.mem_flatMap.mp (List.mem_reverse.mp hTurn)
    have hSame : needle = pathText other := by simpa using hText
    rw [hSame] at hIn
    have hEnd := hUnmarked other hOther ['<'] (by decide) (by decide)
    exact hNone ⟨other, hOther, infix_of_infix_padded (guarded_pathText h hOther) hEnd hIn⟩
  apply hRedacts (Utf8.encode (String.ofList (padded word ++ ['<']))) path hMem
  rw [collapsed_sanitizeOpensslDiagnostic h, oneLine_padded hBare hGuarded, redacted_of_absent hMiss,
    boundedText_padded hShort, List.append_assoc]
  apply List.IsInfix.trans _ (List.suffix_append _ _).isInfix
  rcases hEither with hSame | hLonger
  · rw [← hSame]
    exact (List.prefix_append _ _).isInfix
  · rw [hLonger]

/-- The diagnostic is always bounded, and no path is left in it exactly if none,
with its runs of whitespace collapsed, stands uncovered in the message. A list whose
paths end in no beginning of the marker is safe for every message exactly if each
path, collapsed, contains one of the list or is too long. -/
theorem sanitizeOpensslDiagnostic_redacts {paths : List Path} (h : Redactable paths) :
    (∀ bytes, (sanitizeOpensslDiagnostic bytes paths).length ≤ 1025 ∧
      (Redacts bytes paths ↔
        ∀ path ∈ paths, ¬Uncovered bytes paths (collapsed (pathText path)))) ∧
      (Unmarked paths → ((∀ bytes, Redacts bytes paths) ↔ Recognised paths)) := by
  refine ⟨fun bytes => ⟨length_sanitizeOpensslDiagnostic bytes paths, redacts_iff h bytes⟩, ?_⟩
  intro hUnmarked
  constructor
  · intro hRedacts
    exact recognised_of_redacts h hUnmarked hRedacts
  · intro hRecognised bytes
    exact redacts_of_recognised h hUnmarked hRecognised bytes

theorem pathText_encode (text : String) : pathText (Utf8.encode text) = text.toList := by
  rw [pathText, toStringLossy, Utf8.fromUtf8Lossy_encode]

/-- A path with single spaces is redacted from every message, as the theorem says of a
path in which every space is one that the message keeps. -/
theorem sanitizeOpensslDiagnostic_redacts_single_space :
    Redactable [Utf8.encode "/my keys/a.pem"] ∧
      ∀ bytes, Redacts bytes [Utf8.encode "/my keys/a.pem"] := by
  have hRedactable : Redactable [Utf8.encode "/my keys/a.pem"] := by
    intro path hMem
    rw [List.mem_singleton.mp hMem, pathText_encode]
    decide
  have hEndings : ∀ ending ∈ pathMarker.toList.inits, ending ≠ [] →
      ¬ending <:+ "/my keys/a.pem".toList := by decide
  have hUnmarked : Unmarked [Utf8.encode "/my keys/a.pem"] := by
    intro path hMem ending hNe hMarker
    rw [List.mem_singleton.mp hMem, pathText_encode]
    exact hEndings ending ((List.mem_inits _ _).mpr hMarker) hNe
  have hRecognised : Recognised [Utf8.encode "/my keys/a.pem"] := by
    intro path hMem
    rw [List.mem_singleton.mp hMem]
    refine Or.inl ⟨_, List.mem_cons_self, ?_⟩
    rw [pathText_encode]
    decide
  exact ⟨hRedactable,
    ((sanitizeOpensslDiagnostic_redacts hRedactable).2 hUnmarked).mpr hRecognised⟩

/-- A path is searched for with both of its spaces, when the message has one left. -/
theorem sanitizeOpensslDiagnostic_keeps_path :
    ¬∀ bytes paths, Redactable paths →
      (sanitizeOpensslDiagnostic bytes paths).length ≤ 1025 ∧ Redacts bytes paths := by
  intro hAll
  have hRedactable : Redactable [Utf8.encode "/a  b"] := by
    intro path hMem
    rw [List.mem_singleton.mp hMem, pathText_encode]
    decide
  obtain ⟨-, hRedacts⟩ := hAll (Utf8.encode "open /a  b failed") [Utf8.encode "/a  b"] hRedactable
  have hLine : oneLine (Utf8.encode "open /a  b failed") = "open /a b failed".toList := by
    rw [oneLine, Utf8.fromUtf8Lossy_encode]
    decide
  apply hRedacts (Utf8.encode "/a  b") List.mem_cons_self
  rw [collapsed_sanitizeOpensslDiagnostic hRedactable, hLine, redacted_of_absent]
  · rw [pathText_encode]
    decide
  · intro needle hTurn
    have hSame : needle = pathText (Utf8.encode "/a  b") := by simpa [turns] using hTurn
    rw [hSame, pathText_encode]
    decide

end Tfws.Provider
