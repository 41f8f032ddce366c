import Tfws.Agreement.Defects

/-! The Python decoder follows the survey of its input, and what it reads is
plain when nothing at all is wrong with it. -/
namespace Tfws

open Fallible Cbor Cbor.Survey
open Python (Object Key Flags)

variable {α β : Type} {post : α → β → List Defect → Prop}

/-- A reader of the reference implementation next to a survey of the same octets. -/
abbrev PythonFollows (result : Python.Result (α × Bytes)) (survey : Survey β)
    (post : α → β → List Defect → Prop) : Prop :=
  Follows pythonReport
    (fun exception category => ∃ message, exception = .interoperability message category.code)
    result survey post

theorem pythonReport_headDefect_of_truncated {initial : UInt8} (h : initial.toNat % 32 < 28)
    (rest : Bytes) : pythonReport (headDefect initial rest) = some .malformed := by
  unfold headDefect
  dsimp only
  rw [if_pos h]
  split_ifs <;> rfl

theorem pythonReport_headDefect_of_reserved {initial : UInt8} (h : 28 ≤ initial.toNat % 32)
    (rest : Bytes) :
    pythonReport (headDefect initial rest) =
      some (if initial.toNat % 32 = 31 then .nonDeterministic else .malformed) := by
  have hLt := initial.toNat_lt
  unfold headDefect
  dsimp only
  rw [if_neg (by omega)]
  by_cases hOpen : initial.toNat % 32 = 31
  · rw [if_neg (by omega), if_pos hOpen]
    split_ifs <;> rfl
  · rw [if_pos (by omega), if_neg hOpen]
    rfl

/-- Additional information that announces no argument is an error on both sides. -/
theorem reservedArgument_follows {initial : UInt8} {rest : Bytes}
    {body : Nat × Bytes → Python.Result (α × Bytes)} {surveyBody : Nat → Bytes → Survey β}
    (kind : String) (hReserved : 28 ≤ initial.toNat % 32)
    (hWidth : Python.argumentWidth (initial.toNat % 32) = none) :
    PythonFollows (Python.argument (initial.toNat % 32) kind rest >>= body)
      (surveyArgument initial rest surveyBody) post := by
  have hReport := pythonReport_headDefect_of_reserved hReserved rest
  rw [Python.argument, if_neg (by omega), hWidth,
    surveyArgument_of_none (readHead_of_reserved hReserved rest)]
  by_cases hOpen : initial.toNat % 32 = 31
  · rw [if_pos hOpen] at hReport
    rw [failIf_of hOpen]
    exact Follows.stop hReport ⟨_, rfl⟩
  · rw [if_neg hOpen] at hReport
    rw [failIf_of_not hOpen]
    exact Follows.stop hReport ⟨_, rfl⟩

/-- An argument that follows the initial octet may break off, and must not fit into
fewer octets. -/
theorem wideArgument_follows {initial : UInt8} {rest : Bytes} {form : Form}
    {body : Nat × Bytes → Python.Result (α × Bytes)} {surveyBody : Nat → Bytes → Survey β}
    (kind : String) (hWide : ¬initial.toNat % 32 < 24)
    (hWidth : Python.argumentWidth (initial.toNat % 32) = some form.width)
    (hForm : form ≠ .inline) (hAdditional : ∀ n, form.additional n = initial.toNat % 32)
    (hBody : ∀ argument tail,
      PythonFollows (body (argument, tail)) (surveyBody argument tail) post) :
    PythonFollows (Python.argument (initial.toNat % 32) kind rest >>= body)
      (surveyArgument initial rest surveyBody) post := by
  have hOf : Form.ofAdditional (initial.toNat % 32) = some form := by
    rw [← hAdditional 0]
    cases form with
    | inline => exact absurd rfl hForm
    | one | two | four | eight => rfl
  rw [Python.argument, if_neg hWide, hWidth]
  by_cases hShort : rest.length < form.width
  · have hNone : readHead (initial :: rest) = none := by
      simp [readHead, hOf, not_le.mpr hShort]
    have hRead : initial.toNat % 32 < 28 := by
      rw [← hAdditional 0]
      cases form <;> simp [Form.additional]
    have hTake : Python.take form.width rest = .error (Python.malformed "truncated CBOR input") := by
      rw [Python.take, failIf_of hShort, error_bind]
    rw [surveyArgument_of_none hNone]
    simp only [hTake, error_bind]
    exact Follows.stop (pythonReport_headDefect_of_truncated hRead rest) ⟨_, rfl⟩
  · have hHead : readHead (initial :: rest) = some (initial.toNat / 32, form,
        ofBigEndian (rest.take form.width), rest.drop form.width) := by
      simp [readHead, hOf, not_lt.mp hShort, hForm]
    have hLt := ofBigEndian_lt (rest.take form.width)
    rw [List.length_take_of_le (not_lt.mp hShort)] at hLt
    have hTake : Python.take form.width rest =
        .ok (rest.take form.width, rest.drop form.width) := by
      rw [Python.take, failIf_of_not hShort, ok_bind]
    rw [surveyArgument_of_some hHead]
    simp only [hTake, ok_bind]
    by_cases hMinimum : ofBigEndian (rest.take form.width) < Python.argumentMinimum form.width
    · have hOther : form ≠ preferred (ofBigEndian (rest.take form.width)) := fun h => by
        have hLarge := ((Python.preferred_eq_iff hForm).mp h.symm).2
        omega
      rw [failIf_of hMinimum, Survey.notingIf, if_pos hOther]
      exact Follows.stopped rfl ⟨_, rfl⟩
    · have hSame : preferred (ofBigEndian (rest.take form.width)) = form :=
        (Python.preferred_eq_iff hForm).mpr ⟨Or.inr hLt, not_lt.mp hMinimum⟩
      rw [failIf_of_not hMinimum, Survey.notingIf, if_neg (not_not.mpr hSame.symm)]
      exact hBody _ _

/-- The argument is read where the survey reads one, and must be preferred. The cases
are those of the additional information: the argument itself, nothing that announces
one, and the four widths. -/
theorem argument_follows {initial : UInt8} {rest : Bytes}
    {body : Nat × Bytes → Python.Result (α × Bytes)} {surveyBody : Nat → Bytes → Survey β}
    (kind : String)
    (hBody : ∀ argument tail,
      PythonFollows (body (argument, tail)) (surveyBody argument tail) post) :
    PythonFollows (Python.argument (initial.toNat % 32) kind rest >>= body)
      (surveyArgument initial rest surveyBody) post := by
  by_cases hInline : initial.toNat % 32 < 24
  · have hHead : readHead (initial :: rest) =
        some (initial.toNat / 32, .inline, initial.toNat % 32, rest) := by
      simp [readHead, Form.ofAdditional, hInline, Form.width]
    have hPreferred : preferred (initial.toNat % 32) = .inline := if_pos hInline
    rw [Python.argument, if_pos hInline, surveyArgument_of_some hHead, hPreferred, Survey.notingIf,
      if_neg (not_not.mpr rfl)]
    exact hBody _ rest
  · cases hWidth : Python.argumentWidth (initial.toNat % 32) with
    | none =>
        have hReserved : 28 ≤ initial.toNat % 32 := by
          by_contra hSmall
          obtain h | h | h | h : initial.toNat % 32 = 24 ∨ initial.toNat % 32 = 25 ∨
              initial.toNat % 32 = 26 ∨ initial.toNat % 32 = 27 := by omega
          all_goals
            rw [h] at hWidth
            cases hWidth
        exact reservedArgument_follows kind hReserved hWidth
    | some width =>
        obtain ⟨form, hForm, rfl, hAdditional⟩ := Python.argumentWidth_eq_some.mp hWidth
        exact wideArgument_follows kind hInline hWidth hForm hAdditional hBody

/-- What a survey keeps of an object, which is enough to tell its keys apart. -/
def Python.Object.shape? : Object → Option Shape
  | .str text => some (.text text)
  | .int value => some (.number value)
  | .bool value => some (.flag value)
  | .list _ => some .array
  | .dict _ => some .map
  | .none | .float _ | .bytes _ | .tag _ _ => Option.none

/-- The object is what the survey found, and the second pass lets it through
exactly if nothing was found wrong. Only the types of keys are left to it. -/
structure Described (object : Object) (found : Shape) (defects : List Defect) : Prop where
  shape : object.shape? = some found
  keys : ∀ defect ∈ defects, defect = .keyType
  plain : Plain object ↔ defects = []

theorem Described.clean {object : Object} {found : Shape} (hShape : object.shape? = some found)
    (hPlain : Plain object) : Described object found [] :=
  ⟨hShape, List.forall_mem_nil _, iff_of_true hPlain rfl⟩

theorem decodeInteger_follows {initial : UInt8} (rest : Bytes) {major : Nat} {sign : Nat → Int}
    (hSign : ∀ argument : Nat, (if major = 0 then (argument : Int) else -1 - argument) =
      sign argument) :
    PythonFollows (Python.decodeInteger major (initial.toNat % 32) rest)
      (surveyArgument initial rest fun argument tail =>
        surveyInteger pythonSurveyLimits (sign argument) tail) Described := by
  unfold Python.decodeInteger
  apply argument_follows
  intro argument tail
  rw [← hSign argument]
  unfold surveyInteger
  apply Follows.check Iff.rfl
  · rfl
  · exact ⟨_, rfl⟩
  intro hSafe
  exact Follows.done (.clean rfl (.int (not_lt.mp hSafe)))

/-- A text is read as the survey reads it; the reader compares its length before
anything else. -/
theorem decodeText_follows {initial : UInt8} (rest : Bytes) :
    PythonFollows (Python.decodeString Flags.manifest 3 (initial.toNat % 32) rest)
      (surveyTextHead pythonSurveyLimits initial rest) fun object found defects =>
        Described object found defects ∧ ∃ text, object = .str text := by
  unfold Python.decodeString surveyTextHead
  apply argument_follows
  intro length tail
  unfold surveyText
  dsimp only
  by_cases hLong : Python.maxCborStringBytes < length
  · have hLimit : pythonSurveyLimits.text < length := hLong
    rw [failIf_of hLong, error_bind]
    simp only [if_pos hLimit]
    by_cases hShort : tail.length < length
    · rw [if_pos hShort]
      exact Follows.stop rfl ⟨_, rfl⟩
    · rw [if_neg hShort]
      cases Utf8.decode (tail.take length) <;> exact Follows.stop rfl ⟨_, rfl⟩
  · have hLimit : ¬pythonSurveyLimits.text < length := hLong
    rw [failIf_of_not hLong, ok_bind]
    simp only [if_neg hLimit]
    by_cases hShort : tail.length < length
    · rw [Python.take, failIf_of hShort, if_pos hShort]
      exact Follows.stop rfl ⟨_, rfl⟩
    · rw [Python.take, failIf_of_not hShort, if_neg hShort]
      simp only [ok_bind, Nat.reduceEqDiff, ↓reduceIte]
      cases Utf8.decode (tail.take length) with
      | none => exact Follows.stop rfl ⟨_, rfl⟩
      | some text => exact Follows.done ⟨.clean rfl .str, text, rfl⟩

theorem decodeBytes_follows {initial : UInt8} (rest : Bytes)
    {post : Object → Shape → List Defect → Prop} :
    PythonFollows (Python.decodeString Flags.manifest 2 (initial.toNat % 32) rest)
      (surveyArgument initial rest (surveyBytes pythonSurveyLimits)) post := by
  unfold Python.decodeString
  apply argument_follows
  intro length tail
  unfold surveyBytes
  dsimp only
  apply Follows.check Iff.rfl
  · rfl
  · exact ⟨_, rfl⟩
  intro _
  by_cases hShort : tail.length < length
  · rw [Python.take, failIf_of hShort, if_pos hShort]
    exact Follows.stop rfl ⟨_, rfl⟩
  · rw [Python.take, failIf_of_not hShort, if_neg hShort]
    exact Follows.stop rfl ⟨_, rfl⟩

theorem decodeTag_follows {initial : UInt8} (rest : Bytes)
    (decodeItem : Bytes → Python.Result (Object × Bytes))
    {post : Object → Shape → List Defect → Prop} :
    PythonFollows (Python.decodeTag Flags.manifest decodeItem (initial.toNat % 32) rest)
      (surveyArgument initial rest fun _ _ => Survey.stop .opaqueItem) post := by
  unfold Python.decodeTag
  apply argument_follows
  intro _ tail
  exact Follows.stop rfl ⟨_, rfl⟩

theorem decodeSimple_follows {initial : UInt8} (hMajor : initial.toNat / 32 = 7) (rest : Bytes) :
    PythonFollows (Python.decodeSimple Flags.manifest (initial.toNat % 32) rest)
      (surveySimple initial rest) Described := by
  have hFalse : initial = 0xF4 ↔ initial.toNat % 32 = 20 := by
    rw [← UInt8.toNat_inj]
    simp only [UInt8.reduceToNat]
    omega
  have hTrue : initial = 0xF5 ↔ initial.toNat % 32 = 21 := by
    rw [← UInt8.toNat_inj]
    simp only [UInt8.reduceToNat]
    omega
  unfold Python.decodeSimple surveySimple
  by_cases hClear : initial.toNat % 32 = 20
  · rw [if_pos hClear, if_pos (hFalse.mpr hClear)]
    exact Follows.done (.clean rfl .bool)
  · rw [if_neg hClear, if_neg (mt hFalse.mp hClear)]
    by_cases hSet : initial.toNat % 32 = 21
    · rw [if_pos hSet, if_pos (hTrue.mpr hSet)]
      exact Follows.done (.clean rfl .bool)
    · rw [if_neg hSet, if_neg (mt hTrue.mp hSet), if_neg (by simp [Flags.manifest])]
      exact Follows.stop rfl ⟨_, rfl⟩

/-- A key that was read: it is no text exactly if that was noted. -/
structure KeyDescribed (object : Object) (found : Shape) (defects : List Defect) : Prop where
  shape : object.shape? = some found
  keys : ∀ defect ∈ defects, defect = .keyType
  text : (∃ text, object = .str text) ↔ defects = []

/-- Two keys are equal for Python exactly if their shapes have one identity. -/
theorem Python.Key.equal_iff {key other : Key} {found : Shape}
    (h : key.object.shape? = some found) :
    other.equal key = true ↔
      ∃ shape, other.object.shape? = some shape ∧ shape.identity = found.identity := by
  cases key with
  | bytes octets => cases h
  | str _ | int _ | bool _ =>
      cases h
      cases other <;>
        simp [Key.equal, Key.identity, Key.object, Object.shape?, Shape.identity]

theorem Python.Object.key?_of_shape {object : Object} {found : Shape}
    (h : object.shape? = some found) :
    if found.isContainer then object.key? = Option.none else ∃ key : Key, object = key.object := by
  cases object with
  | str text => cases h; exact ⟨.str text, rfl⟩
  | int value => cases h; exact ⟨.int value, rfl⟩
  | bool value => cases h; exact ⟨.bool value, rfl⟩
  | list _ | dict _ => cases h; rfl
  | none | float _ | bytes _ | tag _ _ => cases h

/-- The shapes seen are those of the keys in the dictionary. -/
def Seen (seen : List Shape) (result : List (Key × Object)) : Prop :=
  ∀ shape, shape ∈ seen ↔ ∃ entry ∈ result, entry.1.object.shape? = some shape

/-- A key is in the dictionary exactly if its shape is among those seen. -/
theorem Seen.contains_iff {seen : List Shape} {result : List (Key × Object)} {key : Key}
    {found : Shape} (h : Seen seen result) (hKey : key.object.shape? = some found) :
    Object.contains key result = true ↔ ∃ other ∈ seen, other.identity = found.identity := by
  rw [Object.contains, List.any_eq_true]
  constructor
  · intro hMem
    obtain ⟨entry, hEntry, hEqual⟩ := hMem
    obtain ⟨shape, hShape, hIdentity⟩ := (Key.equal_iff hKey).mp hEqual
    exact ⟨shape, (h shape).mpr ⟨entry, hEntry, hShape⟩, hIdentity⟩
  · intro hMem
    obtain ⟨shape, hShape, hIdentity⟩ := hMem
    obtain ⟨entry, hEntry, hFound⟩ := (h shape).mp hShape
    exact ⟨entry, hEntry, (Key.equal_iff hKey).mpr ⟨shape, hFound, hIdentity⟩⟩

theorem Seen.cons {seen : List Shape} {result : List (Key × Object)} {key : Key} {found : Shape}
    (h : Seen seen result) (hKey : key.object.shape? = some found) (value : Object) :
    Seen (found :: seen) (result ++ [(key, value)]) := by
  intro shape
  rw [List.mem_cons, h shape]
  simp [or_and_right, exists_or, hKey, or_comm, eq_comm]

section Containers

variable {decodeItem : Bytes → Python.Result (Object × Bytes)} {surveyItem : Bytes → Survey Shape}
  (hItem : ∀ input, PythonFollows (decodeItem input) (surveyItem input) Described)

include hItem

/-- The members of an array are read as the survey reads them, by induction on their
number. -/
theorem decodeMembers_follows (count : Nat) (input : Bytes) :
    PythonFollows (Python.decodeMembers decodeItem count input)
      (surveyMembers surveyItem count input) fun items _ defects =>
        (∀ defect ∈ defects, defect = .keyType) ∧
          ((∀ item ∈ items, Plain item) ↔ defects = []) := by
  induction count generalizing input with
  | zero => exact Follows.done (by simp)
  | succ count ih =>
      apply (hItem input).bind
      intro item _ rest defects hFirst
      apply (ih rest).map
      intro items _ later hRest
      refine ⟨List.forall_mem_append.mpr ⟨hFirst.keys, hRest.1⟩, ?_⟩
      rw [List.forall_mem_cons, List.append_eq_nil_iff, hFirst.plain, hRest.2]

theorem decodeArray_follows_python {initial : UInt8} (rest : Bytes) :
    PythonFollows (Python.decodeArray decodeItem (initial.toNat % 32) rest)
      (surveyArgument initial rest (surveyArray pythonSurveyLimits surveyItem)) Described := by
  unfold Python.decodeArray
  apply argument_follows
  intro count tail
  unfold surveyArray
  apply Follows.check Iff.rfl
  · rfl
  · exact ⟨_, rfl⟩
  intro _
  apply (decodeMembers_follows hItem count tail).bind
  intro items _ rest defects hItems
  apply Follows.done
  rw [List.append_nil]
  refine ⟨rfl, hItems.1, Iff.trans ?_ hItems.2⟩
  exact ⟨fun h => by cases h; assumption, .list⟩

/-- The pairs of a map are read as the survey reads them. The invariant relates the
dictionary so far to the shapes seen. -/
theorem decodePairs_follows {surveyKey : Bytes → Survey Shape}
    (hKey : ∀ input, PythonFollows (decodeItem input) (surveyKey input) KeyDescribed)
    (count : Nat) {seen : List Shape} {result : List (Key × Object)} (hSeen : Seen seen result)
    (previous : Option Bytes) (input : Bytes) :
    PythonFollows (Python.decodePairs decodeItem count result previous input)
      (surveyPairs surveyKey surveyItem count seen previous input) fun entries _ defects =>
        ∃ added, entries = result ++ added ∧ (∀ defect ∈ defects, defect = .keyType) ∧
          ((∀ entry ∈ added, (∃ text, entry.1 = .str text) ∧ Plain entry.2) ↔ defects = []) := by
  induction count generalizing seen result previous input with
  | zero => exact Follows.done ⟨[], by simp, by simp, by simp⟩
  | succ count ih =>
      apply (hKey input).bind
      intro object found rest defects hRead
      have hKind := Object.key?_of_shape hRead.shape
      dsimp only
      by_cases hContainer : found.isContainer = true
      · rw [if_pos hContainer] at hKind ⊢
        rw [hKind]
        exact Follows.stop rfl ⟨_, rfl⟩
      · rw [if_neg hContainer] at hKind ⊢
        obtain ⟨key, rfl⟩ := hKind
        rw [Object.key?_eq_some.mpr rfl]
        have hDuplicate := hSeen.contains_iff hRead.shape
        dsimp only
        by_cases hOrder : ∃ last ∈ previous,
            lengthFirst last (input.take (input.length - rest.length)) ≠ .lt
        · rw [failIf_of hOrder, if_pos (Or.inl hOrder)]
          exact Follows.stop rfl ⟨_, rfl⟩
        · rw [failIf_of_not hOrder, ok_bind]
          apply Follows.check (hDuplicate.trans (or_iff_right hOrder).symm)
          · rfl
          · exact ⟨_, rfl⟩
          intro _
          apply (hItem rest).bind
          intro value _ rest later hValue
          apply (ih (hSeen.cons hRead.shape value) _ rest).mono
          intro entries _ last hEntries
          obtain ⟨added, hAdded, hKeys, hPlain⟩ := hEntries
          have hText : (∃ text, key = .str text) ↔ defects = [] := by
            rw [← hRead.text]
            cases key <;> simp [Key.object]
          refine ⟨(key, value) :: added, by simp [hAdded], ?_, ?_⟩
          · exact List.forall_mem_append.mpr ⟨hRead.keys, List.forall_mem_append.mpr
              ⟨hValue.keys, hKeys⟩⟩
          · rw [List.forall_mem_cons, hText, hValue.plain, hPlain, List.append_eq_nil_iff,
              List.append_eq_nil_iff, and_assoc]

theorem decodeMap_follows_python {surveyKey : Bytes → Survey Shape}
    (hKey : ∀ input, PythonFollows (decodeItem input) (surveyKey input) KeyDescribed)
    {initial : UInt8} (rest : Bytes) :
    PythonFollows (Python.decodeMap decodeItem (initial.toNat % 32) rest)
      (surveyArgument initial rest (surveyMap pythonSurveyLimits surveyKey surveyItem))
      Described := by
  unfold Python.decodeMap
  apply argument_follows
  intro count tail
  unfold surveyMap
  apply Follows.check Iff.rfl
  · rfl
  · exact ⟨_, rfl⟩
  intro _
  have hEmpty : Seen [] [] := fun _ => by simp
  apply (decodePairs_follows hItem hKey count hEmpty none tail).bind
  intro entries _ rest defects hEntries
  obtain ⟨added, rfl, hKeys, hPlain⟩ := hEntries
  apply Follows.done
  rw [List.append_nil]
  refine ⟨rfl, hKeys, Iff.trans ?_ hPlain⟩
  constructor
  · intro h entry hMem
    cases h with
    | dict keys values => exact ⟨keys entry hMem, values entry hMem⟩
  · intro h
    exact .dict (fun entry hMem => (h entry hMem).1) fun entry hMem => (h entry hMem).2

end Containers

/-- What begins with an octet of another major type is read as no text. -/
theorem decodeItem_ne_str {depth : Nat} {initial : UInt8} (hMajor : initial.toNat / 32 ≠ 3)
    {rest tail : Bytes} {object : Object}
    (h : Python.decodeItem Flags.manifest depth (initial :: rest) = .ok (object, tail))
    (text : String) : object ≠ .str text := by
  intro hText
  subst hText
  obtain ⟨hCanonical, hInput⟩ := (Python.decodeItem_outcome (initial :: rest)).of_ok h
  cases hCanonical with
  | str _ hShort =>
      have hFits := fits_preferred
        (hShort.trans_lt (by decide : Python.maxCborStringBytes < 18446744073709551616))
      simp only [Object.item, Item.encode, head, Form.head, List.cons_append, List.append_assoc,
        List.cons.injEq] at hInput
      apply hMajor
      rw [hInput.1]
      exact initial_div (by decide) (hFits.additional_lt.trans (by decide))

theorem argument_nil {additional : Nat} (hLow : 24 ≤ additional) (hHigh : additional < 28)
    (kind : String) :
    Python.argument additional kind [] = .error (Python.malformed "truncated CBOR input") := by
  obtain rfl | rfl | rfl | rfl : additional = 24 ∨ additional = 25 ∨ additional = 26 ∨
      additional = 27 := by omega
  all_goals simp [Python.argument, Python.argumentWidth, Python.take, failIf]

theorem decodeItem_of_shallow {depth : Nat} (h : depth ≤ Python.maxCborDepth) (initial : UInt8)
    (rest : Bytes) :
    Python.decodeItem Flags.manifest depth (initial :: rest) =
      Python.decodeMajor Flags.manifest (Python.decodeItem Flags.manifest (depth + 1))
        (initial.toNat / 32) (initial.toNat % 32) rest := by
  rw [Python.decodeItem.eq_def, if_neg (not_lt.mpr h)]

section Key

variable {depth : Nat} {surveyed : Bytes → Survey Shape}
  (hItem : ∀ input, PythonFollows (Python.decodeItem Flags.manifest depth input) (surveyed input)
    Described)

include hItem

/-- A key that is no text is read as an item and kept, for this reader sorts keys out
at the end. -/
theorem decodeItem_follows_keyType {initial : UInt8} (hMajor : initial.toNat / 32 ≠ 3)
    (rest : Bytes) :
    PythonFollows (Python.decodeItem Flags.manifest depth (initial :: rest))
      ((surveyed (initial :: rest)).noting .keyType) KeyDescribed := by
  apply Follows.noting rfl
  have hFollows := hItem (initial :: rest)
  cases hRead : Python.decodeItem Flags.manifest depth (initial :: rest) with
  | error exception => exact hFollows.of_error hRead
  | ok read =>
      obtain ⟨object, tail⟩ := read
      obtain ⟨hSilent, found, hFound, hDescribed⟩ := hFollows.of_ok hRead
      have hKeys : ∀ defect ∈ Defect.keyType :: (surveyed (initial :: rest)).defects,
          defect = .keyType := List.forall_mem_cons.mpr ⟨rfl, hDescribed.keys⟩
      refine ⟨hSilent, found, hFound, hDescribed.shape, hKeys, iff_of_false ?_ (by simp)⟩
      intro hText
      obtain ⟨text, hText⟩ := hText
      exact decodeItem_ne_str hMajor hRead text hText

/-- A key is read as the survey reads it, at a depth where items may stand. -/
theorem decodeKey_follows (hShallow : depth ≤ Python.maxCborDepth) (input : Bytes) :
    PythonFollows (Python.decodeItem Flags.manifest depth input)
      (surveyKey pythonSurveyLimits false surveyed input) KeyDescribed := by
  unfold surveyKey Survey.notingIf
  rw [if_neg (by decide)]
  cases input with
  | nil =>
      rw [Python.decodeItem.eq_def, if_neg (not_lt.mpr hShallow)]
      exact Follows.stop rfl ⟨_, rfl⟩
  | cons initial rest =>
      dsimp only
      by_cases hMajor : initial.toNat / 32 = 3
      · rw [if_pos hMajor, decodeItem_of_shallow hShallow, hMajor]
        apply (decodeText_follows rest).mono
        intro object found defects hText
        obtain ⟨hDescribed, text, rfl⟩ := hText
        exact ⟨hDescribed.shape, hDescribed.keys,
          iff_of_true ⟨text, rfl⟩ (hDescribed.plain.mp .str)⟩
      · rw [if_neg hMajor]
        split_ifs with hShort
        · obtain ⟨⟨hOne, hWide, hKnown⟩, rfl⟩ := hShort
          rw [decodeItem_of_shallow hShallow, hOne, Python.decodeMajor, Python.decodeInteger,
            argument_nil hWide hKnown]
          exact Follows.stop rfl ⟨_, rfl⟩
        · exact decodeItem_follows_keyType hItem hMajor rest

end Key

/-- Below the deepest items there are no keys either: decoder and survey stop at the
depth. -/
theorem decodeKey_follows_deep {depth : Nat} (hDeep : Python.maxCborDepth < depth)
    (surveyed : Bytes → Survey Shape) (input : Bytes) :
    PythonFollows (Python.decodeItem Flags.manifest depth input)
      (surveyKey pythonSurveyLimits true surveyed input) KeyDescribed := by
  unfold surveyKey Survey.notingIf
  rw [if_pos rfl, Python.decodeItem.eq_def, if_pos hDeep]
  exact Follows.stopped rfl ⟨_, rfl⟩

theorem decodeMajor_follows_python {depth : Nat}
    (hItem : ∀ input, PythonFollows (Python.decodeItem Flags.manifest (depth + 1) input)
      (surveyItem pythonSurveyLimits (depth + 1) input) Described) (initial : UInt8)
    (rest : Bytes) :
    PythonFollows
      (Python.decodeMajor Flags.manifest (Python.decodeItem Flags.manifest (depth + 1))
        (initial.toNat / 32) (initial.toNat % 32) rest)
      (surveyMajor pythonSurveyLimits (pythonSurveyLimits.depth ≤ depth)
        (surveyItem pythonSurveyLimits (depth + 1)) initial rest) Described := by
  have hLt := initial.toNat_lt
  have hLimit : pythonSurveyLimits.depth = Python.maxCborDepth := rfl
  obtain hMajor | hMajor | hMajor | hMajor | hMajor | hMajor | hMajor | hMajor :
      initial.toNat / 32 = 0 ∨ initial.toNat / 32 = 1 ∨ initial.toNat / 32 = 2 ∨
      initial.toNat / 32 = 3 ∨ initial.toNat / 32 = 4 ∨ initial.toNat / 32 = 5 ∨
      initial.toNat / 32 = 6 ∨ initial.toNat / 32 = 7 := by omega
  all_goals simp only [surveyMajor, Python.decodeMajor, hMajor]
  · exact decodeInteger_follows rest fun _ => rfl
  · exact decodeInteger_follows rest fun _ => rfl
  · unfold Survey.notingIf
    split_ifs
    · exact Follows.noting rfl (decodeBytes_follows rest)
    · exact decodeBytes_follows rest
  · exact (decodeText_follows rest).mono fun _ _ _ h => h.1
  · exact decodeArray_follows_python hItem rest
  · refine decodeMap_follows_python hItem (fun input => ?_) rest
    by_cases hDeep : pythonSurveyLimits.depth ≤ depth
    · rw [decide_eq_true hDeep]
      exact decodeKey_follows_deep (by omega) _ input
    · rw [decide_eq_false hDeep]
      exact decodeKey_follows hItem (by omega) input
  · exact Follows.noting rfl (decodeTag_follows rest _)
  · exact decodeSimple_follows hMajor rest

/-- The decoder follows the survey at every depth, by induction on the levels that are
left. -/
theorem decodeItem_follows (depth : Nat) (input : Bytes) :
    PythonFollows (Python.decodeItem Flags.manifest depth input)
      (surveyItem pythonSurveyLimits depth input) Described := by
  have hLimit : pythonSurveyLimits.depth = Python.maxCborDepth := rfl
  induction hFuel : Python.maxCborDepth + 1 - depth generalizing depth input with
  | zero =>
      rw [Python.decodeItem.eq_def, if_pos (by omega), surveyItem.eq_def, if_pos (by omega)]
      exact Follows.stop rfl ⟨_, rfl⟩
  | succ fuel ih =>
      rw [surveyItem.eq_def, if_neg (by omega)]
      cases input with
      | nil =>
          rw [Python.decodeItem.eq_def, if_neg (by omega)]
          exact Follows.stop rfl ⟨_, rfl⟩
      | cons initial rest =>
          rw [decodeItem_of_shallow (by omega)]
          exact decodeMajor_follows_python (fun input => ih _ input (by omega)) initial rest

end Tfws
