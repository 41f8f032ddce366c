import Tfws.Cbor.KeyOrder
import Tfws.Data.Fallible

/-! What is wrong with octets that are read as one CBOR item. A survey reads on
where a reader may, and lists the defects in the order they are met. A reader
follows the survey when it fails with the first defect that it objects to, and
reads the item when it objects to none. -/
namespace Cbor

open Fallible

/-- What can be wrong with octets that are to be one item. The list is the same for
every reader; which defects a reader objects to, and in what words, differs. -/
inductive Defect where
  /-- The document is longer than its limit. -/
  | tooLong
  /-- An item is nested too deeply. -/
  | tooDeep
  /-- A map key is nested too deeply. -/
  | deepKey
  /-- The octets end where an item should begin. -/
  | endOfInput
  /-- The octets end in an argument or in a string. -/
  | truncated
  /-- The octets end in the argument of a negative integer that would be below
  every signed integer of 64 bits. -/
  | wideTruncated
  /-- A text is no UTF-8. -/
  | invalidText
  /-- The additional information is reserved. -/
  | reserved
  /-- A string, an array or a map is of indefinite length. -/
  | indefinite
  /-- An indefinite length where no length can be. -/
  | indefiniteScalar
  /-- A head is not in its preferred form. -/
  | nonPreferred
  | outOfRange
  /-- A byte string or a tag begins. -/
  | opaqueHead
  /-- A byte string is complete, or a tag has its number. -/
  | opaqueItem
  /-- A simple value that is no boolean, or a floating-point number. -/
  | simple
  /-- A string is announced as longer than its limit and cannot be read. -/
  | overlong
  /-- A text, an array or a map is larger than its limit. -/
  | overLimit
  /-- A map key that is no text begins. -/
  | keyType
  /-- An array or a map was read as a map key. -/
  | keyContainer
  /-- Map keys are equal or out of order. -/
  | keyOrder
  | trailing
  deriving DecidableEq

/-- What is kept of an item that was read: enough to tell what a policy would say of
it. -/
inductive Shape where
  | text (text : String)
  | number (value : Int)
  | flag (value : Bool)
  | array
  | map
  deriving DecidableEq

namespace Shape

/-- An item with members of its own, which the limits on depth and on counts are
about. -/
def isContainer : Shape → Bool
  | array | map => true
  | _ => false

/-- What a key is equal by; a flag counts as a number. -/
def identity : Shape → Shape
  | flag value => number (if value then 1 else 0)
  | shape => shape

end Shape

/-- The defects in order, and what was read and follows if reading can go on. -/
structure Survey (α : Type) where
  defects : List Defect
  read : Option (α × Bytes)

namespace Survey

variable {α β : Type}

/-- Nothing can be read past the defect, so that it is the last one noted. -/
def stop (defect : Defect) : Survey α := ⟨[defect], none⟩

/-- An item has been read, with nothing wrong about it. -/
def done (value : α) (rest : Bytes) : Survey α := ⟨[], some (value, rest)⟩

/-- The defect is put first, and reading goes on as it would have. -/
def noting (defect : Defect) (survey : Survey α) : Survey α :=
  ⟨defect :: survey.defects, survey.read⟩

/-- The defect is put first where the condition holds, and the survey goes on. -/
def notingIf (condition : Prop) [Decidable condition] (defect : Defect) (survey : Survey α) :
    Survey α :=
  if condition then survey.noting defect else survey

/-- One survey after the other. The defects of the first come first, and a second one
starts only where the first has read something. -/
def bind (survey : Survey α) (next : α → Bytes → Survey β) : Survey β :=
  match survey.read with
  | none => ⟨survey.defects, none⟩
  | some (value, rest) => ⟨survey.defects ++ (next value rest).defects, (next value rest).read⟩

section Follows

variable {ε γ : Type} {α' β' : Type} {reports : Defect → Option γ} {carries : ε → γ → Prop}
  {post : α → β → List Defect → Prop}

/-- The reader fails with what is reported of the first defect that it objects
to, and reads what the survey reads when it objects to none. -/
def Follows (reports : Defect → Option γ) (carries : ε → γ → Prop) (result : Except ε (α × Bytes))
    (survey : Survey β) (post : α → β → List Defect → Prop) : Prop :=
  match result with
  | .ok (value, rest) => survey.defects.findSome? reports = none ∧
      ∃ found, survey.read = some (found, rest) ∧ post value found survey.defects
  | .error error => ∃ report, survey.defects.findSome? reports = some report ∧ carries error report

namespace Follows

/-- How the relation is used on success: the reader objects to nothing in the survey,
which has read as much. -/
theorem of_ok {result : Except ε (α × Bytes)} {survey : Survey β} {value : α} {rest : Bytes}
    (h : Follows reports carries result survey post) (hOk : result = .ok (value, rest)) :
    survey.defects.findSome? reports = none ∧
      ∃ found, survey.read = some (found, rest) ∧ post value found survey.defects := by
  rwa [hOk] at h

/-- How the relation is used on failure: the error is for the first defect that the
reader objects to. -/
theorem of_error {result : Except ε (α × Bytes)} {survey : Survey β} {error : ε}
    (h : Follows reports carries result survey post) (hError : result = .error error) :
    ∃ report, survey.defects.findSome? reports = some report ∧ carries error report := by
  rwa [hError] at h

theorem mono {result : Except ε (α × Bytes)} {survey : Survey β}
    {weaker : α → β → List Defect → Prop} (h : Follows reports carries result survey post)
    (hWeaker : ∀ value found defects, post value found defects → weaker value found defects) :
    Follows reports carries result survey weaker := by
  cases result with
  | error error => exact h
  | ok read =>
      obtain ⟨hSilent, found, hRead, hPost⟩ := h
      exact ⟨hSilent, found, hRead, hWeaker _ _ _ hPost⟩

theorem stop {defect : Defect} {report : γ} {error : ε} (hReports : reports defect = some report)
    (hCarries : carries error report) : Follows reports carries (.error error) (stop defect) post :=
  ⟨report, by simp [Survey.stop, hReports], hCarries⟩

theorem done {value : α} {found : β} {rest : Bytes} (h : post value found []) :
    Follows reports carries (.ok (value, rest)) (done found rest) post :=
  ⟨rfl, found, rfl, h⟩

/-- The reader passes over the defect, which then stands in the list without
consequence. -/
theorem noting {defect : Defect} {result : Except ε (α × Bytes)} {survey : Survey β}
    (hSilent : reports defect = none)
    (h : Follows reports carries result survey fun value found defects =>
      post value found (defect :: defects)) :
    Follows reports carries result (survey.noting defect) post := by
  cases result with
  | error error =>
      obtain ⟨report, hReport, hCarries⟩ := h
      exact ⟨report, by simpa [Survey.noting, hSilent] using hReport, hCarries⟩
  | ok read =>
      obtain ⟨hNone, found, hRead, hPost⟩ := h
      exact ⟨by simpa [Survey.noting, hSilent] using hNone, found, hRead, hPost⟩

/-- The reader stops at the defect, whatever follows it; the survey may read on. -/
theorem stopped {defect : Defect} {report : γ} {error : ε} {survey : Survey β}
    (hReports : reports defect = some report) (hCarries : carries error report) :
    Follows reports carries (.error error) (survey.noting defect) post :=
  ⟨report, by simp [Survey.noting, hReports], hCarries⟩

/-- The rule for sequences: whatever the first part passed over is known when the
second begins. -/
theorem bind {first : Except ε (α' × Bytes)} {survey : Survey β'}
    {between : α' → β' → List Defect → Prop} {next : α' × Bytes → Except ε (α × Bytes)}
    {surveyNext : β' → Bytes → Survey β} (hFirst : Follows reports carries first survey between)
    (hNext : ∀ value found rest defects, between value found defects →
      Follows reports carries (next (value, rest)) (surveyNext found rest) fun value found later =>
        post value found (defects ++ later)) :
    Follows reports carries (first >>= next) (survey.bind surveyNext) post := by
  cases first with
  | error error =>
      obtain ⟨report, hReport, hCarries⟩ := hFirst
      rw [Survey.bind]
      cases survey.read with
      | none => exact ⟨report, hReport, hCarries⟩
      | some read => exact ⟨report, by simp [hReport], hCarries⟩
  | ok read =>
      obtain ⟨value, rest⟩ := read
      obtain ⟨hSilent, found, hRead, hBetween⟩ := hFirst
      have hLater := hNext value found rest survey.defects hBetween
      rw [ok_bind, Survey.bind, hRead]
      cases hResult : next (value, rest) with
      | error error =>
          obtain ⟨report, hReport, hCarries⟩ := hLater.of_error hResult
          exact ⟨report, by simpa [hSilent] using hReport, hCarries⟩
      | ok final =>
          obtain ⟨hNone, last, hLast, hPost⟩ := hLater.of_ok hResult
          exact ⟨by simpa [hSilent] using hNone, last, hLast, hPost⟩

/-- What is read is wrapped up; nothing more is read, and nothing more can go
wrong. -/
theorem map {first : Except ε (α' × Bytes)} {survey : Survey β} {wrap : α' → α}
    {between : α' → β → List Defect → Prop} (hFirst : Follows reports carries first survey between)
    (h : ∀ value found defects, between value found defects → post (wrap value) found defects) :
    Follows reports carries (first >>= fun read => .ok (wrap read.1, read.2)) survey post := by
  cases first with
  | error error => exact hFirst
  | ok read =>
      obtain ⟨hSilent, found, hRead, hBetween⟩ := hFirst
      exact ⟨hSilent, found, hRead, h _ _ _ hBetween⟩

/-- The reader checks for the defect where the survey does. The two conditions need
only be equivalent. -/
theorem check {bad found : Prop} [Decidable bad] [Decidable found] {defect : Defect} {report : γ}
    {error : ε} {next : Unit → Except ε (α × Bytes)} {survey : Survey β} (hSame : bad ↔ found)
    (hReports : reports defect = some report) (hCarries : carries error report)
    (hNext : ¬bad → Follows reports carries (next ()) survey post) :
    Follows reports carries (failIf bad error >>= next)
      (if found then Survey.stop defect else survey) post := by
  by_cases h : bad
  · rw [failIf_of h, if_pos (hSame.mp h)]
    exact stop hReports hCarries
  · rw [failIf_of_not h, if_neg (mt hSame.mpr h)]
    exact hNext h

end Follows

end Follows

end Survey

open Survey

/-- The limits that a survey compares lengths, depths, counts and integers with. -/
structure SurveyLimits where
  document : Nat
  depth : Nat
  items : Nat
  text : Nat
  integer : Nat

variable (limits : SurveyLimits)

/-- What is wrong with a head that cannot be read: it breaks off, or its additional
information is reserved or indefinite. -/
def headDefect (initial : UInt8) (rest : Bytes) : Defect :=
  let major := initial.toNat / 32
  let additional := initial.toNat % 32
  if additional < 28 then
    if major = 1 ∧ additional = 27 ∧ ∃ octet ∈ rest.head?, 0x80 ≤ octet then .wideTruncated
    else .truncated
  else if additional < 31 then .reserved
  else if 2 ≤ major ∧ major ≤ 5 then .indefinite
  else .indefiniteScalar

theorem readHead_of_reserved {initial : UInt8} (h : 28 ≤ initial.toNat % 32) (rest : Bytes) :
    readHead (initial :: rest) = none := by
  have hForm : Form.ofAdditional (initial.toNat % 32) = none := by
    unfold Form.ofAdditional
    rw [if_neg (by omega)]
    split <;> first | rfl | omega
  rw [readHead, hForm]
  rfl

/-- Read a head and go on with its argument. That a form is not preferred is noted on
the way. -/
def surveyArgument {α : Type} (initial : UInt8) (rest : Bytes) (body : Nat → Bytes → Survey α) :
    Survey α :=
  match readHead (initial :: rest) with
  | none => stop (headDefect initial rest)
  | some (_, form, argument, rest) =>
      (body argument rest).notingIf (form ≠ preferred argument) .nonPreferred

theorem surveyArgument_of_none {α : Type} {initial : UInt8} {rest : Bytes}
    (h : readHead (initial :: rest) = none) (body : Nat → Bytes → Survey α) :
    surveyArgument initial rest body = stop (headDefect initial rest) := by
  rw [surveyArgument, h]

theorem surveyArgument_of_some {α : Type} {initial : UInt8} {rest tail : Bytes}
    {major argument : Nat} {form : Form}
    (h : readHead (initial :: rest) = some (major, form, argument, tail))
    (body : Nat → Bytes → Survey α) :
    surveyArgument initial rest body =
      (body argument tail).notingIf (form ≠ preferred argument) .nonPreferred := by
  rw [surveyArgument, h]

/-- An integer, whose magnitude is compared with the limit once it has been read. -/
def surveyInteger (value : Int) (rest : Bytes) : Survey Shape :=
  if limits.integer < value.natAbs then stop .outOfRange else done (.number value) rest

/-- A text of so many octets. Its length is told apart from what else may be wrong
with it, since readers compare it with the limit at different times. -/
def surveyText (length : Nat) (input : Bytes) : Survey Shape :=
  if input.length < length then stop (if limits.text < length then .overlong else .truncated)
  else
    match Utf8.decode (input.take length) with
    | none => stop (if limits.text < length then .overlong else .invalidText)
    | some text =>
        if limits.text < length then stop .overLimit else done (.text text) (input.drop length)

/-- A string of so many octets, which no manifest has: what is wrong is its length,
its missing end, or that it is there at all. -/
def surveyBytes (length : Nat) (input : Bytes) : Survey Shape :=
  if limits.text < length then stop .overlong
  else if input.length < length then stop .truncated
  else stop .opaqueItem

/-- So many items, one after the other, of which only the defects are kept. -/
def surveyMembers (surveyItem : Bytes → Survey Shape) : Nat → Bytes → Survey Unit
  | 0, input => done () input
  | count + 1, input =>
      (surveyItem input).bind fun _ rest => surveyMembers surveyItem count rest

/-- The pairs of a map, with the keys seen so far and the encoding of the last one. -/
def surveyPairs (surveyKey surveyItem : Bytes → Survey Shape) :
    Nat → List Shape → Option Bytes → Bytes → Survey Unit
  | 0, _, _, input => done () input
  | count + 1, seen, previous, input =>
      (surveyKey input).bind fun key rest =>
        let encoding := input.take (input.length - rest.length)
        if key.isContainer then stop .keyContainer
        else if (∃ last ∈ previous, lengthFirst last encoding ≠ .lt) ∨
            ∃ other ∈ seen, other.identity = key.identity then stop .keyOrder
        else
          (surveyItem rest).bind fun _ rest =>
            surveyPairs surveyKey surveyItem count (key :: seen) (some encoding) rest

/-- An array of so many items, whose number is compared with the limit first. -/
def surveyArray (surveyItem : Bytes → Survey Shape) (count : Nat) (input : Bytes) : Survey Shape :=
  if limits.items < count then stop .overLimit
  else (surveyMembers surveyItem count input).bind fun _ rest => done .array rest

/-- A map of so many pairs, whose number is compared with the limit first. -/
def surveyMap (surveyKey surveyItem : Bytes → Survey Shape) (count : Nat) (input : Bytes) :
    Survey Shape :=
  if limits.items < count then stop .overLimit
  else (surveyPairs surveyKey surveyItem count [] none input).bind fun _ rest => done .map rest

/-- The items of the last major type, which are told by their initial octet alone. -/
def surveySimple (initial : UInt8) (rest : Bytes) : Survey Shape :=
  if initial = 0xF4 then done (.flag false) rest
  else if initial = 0xF5 then done (.flag true) rest
  else stop .simple

/-- A text with its head, as it occurs as a key. -/
def surveyTextHead (initial : UInt8) (rest : Bytes) : Survey Shape :=
  surveyArgument initial rest (surveyText limits)

/-- A map key. A text is read whatever its depth is; of a negative integer
without any octet of its argument not even the type is known. -/
def surveyKey (deep : Bool) (surveyItem : Bytes → Survey Shape) (input : Bytes) : Survey Shape :=
  Survey.notingIf (deep = true) .deepKey <|
    match input with
    | [] => stop .endOfInput
    | initial :: rest =>
        if initial.toNat / 32 = 3 then surveyTextHead limits initial rest
        else if WideNegative initial ∧ rest = [] then stop .truncated
        else (surveyItem input).noting .keyType

/-- The branches on the major type; `surveyItem` surveys one level deeper. -/
def surveyMajor (deep : Bool) (surveyItem : Bytes → Survey Shape) (initial : UInt8)
    (rest : Bytes) : Survey Shape :=
  match initial.toNat / 32 with
  | 0 => surveyArgument initial rest fun argument rest => surveyInteger limits argument rest
  | 1 => surveyArgument initial rest fun argument rest => surveyInteger limits (-1 - argument) rest
  | 2 => (surveyArgument initial rest (surveyBytes limits)).notingIf (initial ≠ 0x5F) .opaqueHead
  | 3 => surveyTextHead limits initial rest
  | 4 => surveyArgument initial rest (surveyArray limits surveyItem)
  | 5 =>
      surveyArgument initial rest
        (surveyMap limits (surveyKey limits deep surveyItem) surveyItem)
  | 6 => (surveyArgument initial rest fun _ _ => stop .opaqueItem).noting .opaqueHead
  | _ => surveySimple initial rest

/-- One item at a depth. The depth is compared with its limit before anything is
read. -/
def surveyItem (depth : Nat) (input : Bytes) : Survey Shape :=
  if limits.depth < depth then stop .tooDeep
  else
    match input with
    | [] => stop .endOfInput
    | initial :: rest =>
        surveyMajor limits (limits.depth ≤ depth) (surveyItem (depth + 1)) initial rest
termination_by limits.depth + 1 - depth

/-- A whole document: its defects, and what it is if it can be read. -/
def surveyDocument (input : Bytes) : List Defect × Option Shape :=
  if limits.document < input.length then ([.tooLong], none)
  else
    let survey := surveyItem limits 0 input
    match survey.read with
    | none => (survey.defects, none)
    | some (shape, rest) =>
        (if rest = [] then survey.defects else survey.defects ++ [.trailing], some shape)

section Document

variable {limits : SurveyLimits} {input : Bytes} (hShort : ¬limits.document < input.length)

include hShort

/-- What is first reported of the item is first reported of the document, for octets
behind the item are met last. -/
theorem findSome?_surveyDocument {γ : Type} {reports : Defect → Option γ} {report : γ}
    (h : (surveyItem limits 0 input).defects.findSome? reports = some report) :
    (surveyDocument limits input).1.findSome? reports = some report := by
  rw [surveyDocument, if_neg hShort]
  dsimp only
  cases (surveyItem limits 0 input).read with
  | none => exact h
  | some read =>
      dsimp only
      split_ifs
      · exact h
      · rw [List.findSome?_append, h]
        rfl

theorem surveyDocument_of_read {shape : Shape} {rest : Bytes}
    (h : (surveyItem limits 0 input).read = some (shape, rest)) :
    surveyDocument limits input =
      (if rest = [] then (surveyItem limits 0 input).defects
        else (surveyItem limits 0 input).defects ++ [.trailing], some shape) := by
  rw [surveyDocument, if_neg hShort]
  simp only [h]

end Document

end Cbor
