import Tfws.Agreement.Defects
import Tfws.Core.CborDecoding
import Tfws.Crates.MinicborErrors

/-! The Rust decoder follows the survey of its input: it fails with the category
of the first defect that it reports. -/
namespace Tfws

open SerdeJson Fallible Cbor Cbor.Survey
open Minicbor (DataType)

variable {α β : Type} {crates : Crates} {post : α → β → Prop}

/-- A reader of the codec next to a survey of the same octets. -/
abbrev RustFollows (result : CborResult (α × Bytes)) (survey : Survey β) (post : α → β → Prop) :
    Prop :=
  Follows rustReport (fun error category => error.category = category.code) result survey
    fun value found _ => post value found

theorem RustFollows.notingIf {result : CborResult (α × Bytes)} {survey : Survey β}
    {condition : Prop} [Decidable condition] {defect : Defect} (hSilent : rustReport defect = none)
    (h : RustFollows result survey post) :
    RustFollows result (survey.notingIf condition defect) post := by
  unfold Survey.notingIf
  split_ifs
  · exact Follows.noting hSilent h
  · exact h

/-- An argument in any form is read, and whether its form was preferred is left to the
final comparison. -/
theorem RustFollows.argument {result : CborResult (α × Bytes)} {initial : UInt8} {rest : Bytes}
    {body : Nat → Bytes → Survey β}
    (hNone : readHead (initial :: rest) = none →
      RustFollows result (Survey.stop (headDefect initial rest)) post)
    (hSome : ∀ form argument tail,
      readHead (initial :: rest) = some (initial.toNat / 32, form, argument, tail) →
        RustFollows result (body argument tail) post) :
    RustFollows result (surveyArgument initial rest body) post := by
  cases hHead : readHead (initial :: rest) with
  | none =>
      rw [surveyArgument_of_none hHead]
      exact hNone hHead
  | some head =>
      obtain ⟨major, form, argument, tail⟩ := head
      have hMajor : initial.toNat / 32 = major := by
        simp only [readHead, Option.bind_eq_bind, Option.bind_eq_some_iff,
          Option.ite_none_right_eq_some, Option.some.injEq, Prod.mk.injEq] at hHead
        obtain ⟨_, _, _, hMajor, _⟩ := hHead
        exact hMajor
      rw [surveyArgument_of_some hHead]
      exact RustFollows.notingIf rfl (hSome form argument tail (hMajor ▸ hHead))

theorem rustReport_headDefect_of_reserved {initial : UInt8} (h : 28 ≤ initial.toNat % 32)
    (rest : Bytes) :
    rustReport (headDefect initial rest) =
      some (if initial.toNat % 32 = 31 ∧ 2 ≤ initial.toNat / 32 ∧ initial.toNat / 32 ≤ 5
        then .nonDeterministic else .unsupported) := by
  have hLt := initial.toNat_lt
  unfold headDefect
  dsimp only
  rw [if_neg (by omega)]
  by_cases hOpen : initial.toNat % 32 = 31
  · rw [if_neg (by omega)]
    by_cases hCounted : 2 ≤ initial.toNat / 32 ∧ initial.toNat / 32 ≤ 5
    · rw [if_pos hCounted, if_pos ⟨hOpen, hCounted⟩]
      rfl
    · rw [if_neg hCounted, if_neg (by tauto)]
      rfl
  · rw [if_pos (by omega), if_neg (by tauto)]
    rfl

theorem headDefect_of_truncated {initial : UInt8} (h : initial.toNat % 32 < 28) {rest : Bytes}
    (hNarrow : initial.toNat / 32 = 1 → initial.toNat % 32 = 27 →
      ∀ octet ∈ rest.head?, octet < 0x80) :
    headDefect initial rest = .truncated := by
  unfold headDefect
  dsimp only
  rw [if_pos h, if_neg]
  intro hWide
  obtain ⟨hMajor, hEight, octet, hOctet, hLarge⟩ := hWide
  exact absurd (hNarrow hMajor hEight octet hOctet) (UInt8.not_lt.mpr hLarge)

/-- A foreign operation that fails on octets cut off in a head is reported as
malformed, which is what the survey says. -/
theorem follows_truncated {initial : UInt8} {rest : Bytes} {next : α → CborResult (β × Bytes)}
    {found : Type} {foreign : Except String α} {post : β → found → Prop}
    (hDefect : headDefect initial rest = .truncated) (hError : ∃ cause, foreign = .error cause) :
    RustFollows (foreign.mapError .malformedCbor >>= next)
      (Survey.stop (headDefect initial rest)) post := by
  obtain ⟨cause, rfl⟩ := hError
  rw [hDefect]
  exact Follows.stop rfl rfl

section Strict

variable (hStrict : crates.decoder.Strict)

/-- An integer is read where the survey reads one, within the safe range. -/
theorem follows_integer (value : Int) {decoded : Value} (tail : Bytes) :
    RustFollows (do
        failIf (maxSafeInteger < value.natAbs) .integerOutOfRange
        .ok (decoded, tail))
      (surveyInteger pythonSurveyLimits value tail) fun _ _ => True := by
  exact Follows.check Iff.rfl rfl rfl fun _ => Follows.done trivial

include hStrict

/-- An unsigned integer of any announced type: what the decoder says of it is the
first defect of the survey. -/
theorem decodeUnsigned_follows {initial : UInt8} (hMajor : initial.toNat / 32 = 0)
    (hRead : initial.toNat % 32 < 28) {type : DataType}
    (hType : type ∈ [DataType.u8, .u16, .u32, .u64]) (rest : Bytes) :
    RustFollows (decodeScalar crates pythonLimits type (initial :: rest))
      (surveyArgument initial rest fun argument tail =>
        surveyInteger pythonSurveyLimits argument tail) fun _ _ => True := by
  have hSame : decodeScalar crates pythonLimits type (initial :: rest) =
      decodeScalar crates pythonLimits .u64 (initial :: rest) := by
    simp only [List.mem_cons, List.not_mem_nil, or_false] at hType
    obtain rfl | rfl | rfl | rfl := hType <;> rfl
  rw [hSame]
  apply RustFollows.argument
  · intro hNone
    have hDefect : headDefect initial rest = .truncated :=
      headDefect_of_truncated hRead fun hOne => by omega
    exact follows_truncated hDefect (hStrict.u64_error _ hNone)
  · intro form argument tail hHead
    obtain ⟨-, hFits, hInput⟩ := readHead_eq_some hHead
    have hNat : (UInt64.ofNat argument).toNat = argument := UInt64.toNat_ofNat_of_lt' hFits.lt
    have hU64 := crates.decoder.u64_head form (.ofNat argument) tail (by rwa [hNat])
    rw [hNat] at hU64
    rw [hInput, hMajor, decodeScalar, hU64, mapError_ok, ok_bind]
    dsimp only
    rw [hNat]
    exact follows_integer (argument : Int) tail

/-- A negative integer that some signed type holds. A wider one is announced as
another type. -/
theorem decodeNegative_follows {initial : UInt8} (hMajor : initial.toNat / 32 = 1)
    (hRead : initial.toNat % 32 < 28) {type : DataType}
    (hType : type ∈ [DataType.i8, .i16, .i32, .i64]) {rest : Bytes}
    (hDatatype : crates.decoder.datatype (initial :: rest) = .ok type)
    (hNarrow : initial.toNat % 32 = 27 → ∀ octet ∈ rest.head?, octet < 0x80) :
    RustFollows (decodeScalar crates pythonLimits type (initial :: rest))
      (surveyArgument initial rest fun argument tail =>
        surveyInteger pythonSurveyLimits (-1 - argument) tail) fun _ _ => True := by
  simp only [List.mem_cons, List.not_mem_nil, or_false] at hType
  have hSame : decodeScalar crates pythonLimits type (initial :: rest) =
      decodeScalar crates pythonLimits .i64 (initial :: rest) := by
    obtain rfl | rfl | rfl | rfl := hType <;> rfl
  rw [hSame]
  apply RustFollows.argument
  · intro hNone
    have hDefect : headDefect initial rest = .truncated :=
      headDefect_of_truncated hRead fun _ => hNarrow
    exact follows_truncated hDefect (hStrict.i64_error _ hNone)
  · intro form argument tail hHead
    obtain ⟨-, hFits, hInput⟩ := readHead_eq_some hHead
    rw [hMajor] at hInput
    -- The type is that of a signed integer, so the argument is not too large for one.
    have hBound : argument < 9223372036854775808 := by
      by_contra hWide
      rw [hInput, crates.decoder.datatype_negative_wide _ _ _ hFits (not_lt.mp hWide)] at hDatatype
      cases hDatatype
      simp at hType
    have hBack : (Int64.ofInt (-1 - (argument : Int))).toInt = -1 - argument :=
      Int64.toInt_ofInt_of_le (by omega) (by omega)
    rw [hInput, decodeScalar, crates.decoder.i64_head_negative _ _ _ hFits hBound, mapError_ok,
      ok_bind]
    dsimp only
    rw [hBack]
    exact follows_integer _ tail

/-- A text of limited length, as both `decode_value` and `decode_map` read it. -/
def limitedText (crates : Crates) (label : String) (input : Bytes) :
    CborResult (String × Bytes) := do
  let (text, rest) ← (crates.decoder.str input).mapError .malformedCbor
  failIf (pythonLimits.maxStringBytes.toNat < (Utf8.encode text).length) (.resourceLimit label)
  .ok (text, rest)

/-- The text of a key and what follows it, with the checks of `decode_map` before
it. -/
def keyText (crates : Crates) (input : Bytes) : CborResult (String × Bytes) := do
  let keyType ← (crates.decoder.datatype input).mapError .malformedCbor
  failIf (keyType = .stringIndef) (.indefiniteLength "map key")
  failIf (keyType ≠ .string) (.unsupportedCborType "map key must be a text string")
  limitedText crates "map key bytes" input

omit hStrict in
/-- A key is a text within the limit, together with the octets that it took. -/
theorem decodeKey_eq (input : Bytes) :
    decodeKey crates pythonLimits input = (keyText crates input >>= fun read =>
      .ok (read.1, input.take (input.length - read.2.length), read.2)) := by
  simp only [decodeKey, keyText, limitedText, bind_assoc, ok_bind]

omit hStrict in
theorem decodeScalar_string (input : Bytes) :
    decodeScalar crates pythonLimits .string input =
      (limitedText crates "text string bytes" input >>= fun read =>
        .ok (.string read.1, read.2)) := by
  simp only [decodeScalar, limitedText, bind_assoc, ok_bind]

/-- A text with its limit, which is compared only once the text has been read. -/
theorem limitedText_follows {initial : UInt8} (hMajor : initial.toNat / 32 = 3)
    (hRead : initial.toNat % 32 < 28) (label : String) (rest : Bytes) :
    RustFollows (limitedText crates label (initial :: rest))
      (surveyTextHead pythonSurveyLimits initial rest) fun text found => found = .text text := by
  apply RustFollows.argument
  · intro hNone
    have hDefect : headDefect initial rest = .truncated :=
      headDefect_of_truncated hRead fun hOne => by omega
    exact follows_truncated hDefect (hStrict.str_error _ hNone)
  · intro form length tail hHead
    obtain ⟨-, hFits, hInput⟩ := readHead_eq_some hHead
    rw [hInput, hMajor]
    unfold surveyText
    by_cases hShort : tail.length < length
    · obtain ⟨cause, hCause⟩ := hStrict.str_short form length tail hFits hShort
      rw [if_pos hShort, limitedText, hCause]
      exact Follows.stop (by split_ifs <;> rfl) rfl
    · rw [if_neg hShort]
      cases hText : Utf8.decode (tail.take length) with
      | none =>
          obtain ⟨cause, hCause⟩ :=
            hStrict.str_invalid form length tail hFits (not_lt.mp hShort) hText
          rw [limitedText, hCause]
          exact Follows.stop (by split_ifs <;> rfl) rfl
      | some text =>
          have hOctets : tail.take length = Utf8.encode text := Utf8.decode_eq_some.mp hText
          have hLength : (Utf8.encode text).length = length := by
            rw [← hOctets]
            exact List.length_take_of_le (not_lt.mp hShort)
          have hStr := crates.decoder.str_head form text (tail.drop length) (by rwa [hLength])
          rw [hLength, ← hOctets, List.append_assoc, List.take_append_drop] at hStr
          have hLimit : pythonLimits.maxStringBytes.toNat < (Utf8.encode text).length ↔
              pythonSurveyLimits.text < length := by
            rw [hLength, pythonLimits_maxStringBytes]
            exact Iff.rfl
          rw [limitedText, hStr, mapError_ok, ok_bind]
          exact Follows.check hLimit rfl rfl fun _ => Follows.done rfl

/-- An item that begins with the octet is no text, and the type already says so. -/
theorem datatype_of_not_text {initial : UInt8} {rest : Bytes} (hMajor : initial.toNat / 32 ≠ 3)
    (hKnown : ¬(WideNegative initial ∧ rest = [])) :
    ∃ type, crates.decoder.datatype (initial :: rest) = .ok type ∧ type ≠ .string ∧
      type ≠ .stringIndef := by
  by_cases hNegative : WideNegative initial
  · cases rest with
    | nil => exact absurd ⟨hNegative, rfl⟩ hKnown
    | cons next rest =>
        refine ⟨_, hStrict.datatype_negative initial next rest hNegative, ?_⟩
        obtain ⟨hMem, -⟩ | ⟨hInt, -⟩ := DataType.ofNegative_cases hNegative next
        · simp only [List.mem_cons, List.not_mem_nil, or_false] at hMem
          obtain hEq | hEq | hEq | hEq := hMem <;> rw [hEq] <;> exact ⟨by simp, by simp⟩
        · rw [hInt]
          exact ⟨by simp, by simp⟩
  · exact ⟨_, hStrict.datatype_initial initial rest hNegative, DataType.ofInitial_ne_string hMajor⟩

/-- A key is read where the survey reads one as a text, and refused where it reads
anything else. -/
theorem keyText_follows (deep : Bool) (surveyItem : Bytes → Survey Shape) (input : Bytes) :
    RustFollows (keyText crates input) (surveyKey pythonSurveyLimits deep surveyItem input)
      fun key found => found = .text key := by
  unfold surveyKey
  apply RustFollows.notingIf rfl
  cases input with
  | nil =>
      obtain ⟨cause, hCause⟩ := hStrict.datatype_nil
      rw [keyText, hCause]
      exact Follows.stop rfl rfl
  | cons initial rest =>
      dsimp only
      by_cases hMajor : initial.toNat / 32 = 3
      · have hPlain : ¬WideNegative initial := fun h => by
          have hOne := h.1
          omega
        have hType : DataType.ofInitial initial =
            DataType.counted .string .stringIndef initial := by
          simp only [DataType.ofInitial, hMajor]
        rw [if_pos hMajor, keyText, hStrict.datatype_initial initial rest hPlain, hType,
          mapError_ok, ok_bind, DataType.counted]
        by_cases hRead : initial.toNat % 32 < 28
        · rw [if_pos hRead, failIf_of_not (by simp), ok_bind, failIf_of_not (by simp), ok_bind]
          exact limitedText_follows hStrict hMajor hRead _ rest
        · have hReserved : 28 ≤ initial.toNat % 32 := not_lt.mp hRead
          have hReport := rustReport_headDefect_of_reserved hReserved rest
          rw [if_neg hRead, surveyTextHead,
            surveyArgument_of_none (readHead_of_reserved hReserved rest)]
          by_cases hOpen : initial.toNat % 32 = 31
          · rw [if_pos ⟨hOpen, by omega, by omega⟩] at hReport
            rw [if_pos hOpen, failIf_of rfl]
            exact Follows.stop hReport rfl
          · rw [if_neg (by tauto)] at hReport
            rw [if_neg hOpen, failIf_of_not (by simp), ok_bind, failIf_of (by simp)]
            exact Follows.stop hReport rfl
      · rw [if_neg hMajor]
        by_cases hShort : WideNegative initial ∧ rest = []
        · obtain ⟨hNegative, rfl⟩ := hShort
          obtain ⟨cause, hCause⟩ := hStrict.datatype_negative_nil initial hNegative
          rw [if_pos ⟨hNegative, rfl⟩, keyText, hCause]
          exact Follows.stop rfl rfl
        · obtain ⟨type, hType, hText, hOpen⟩ := datatype_of_not_text hStrict hMajor hShort
          rw [if_neg hShort, keyText, hType, mapError_ok, ok_bind, failIf_of_not hOpen, ok_bind,
            failIf_of hText]
          exact Follows.stopped rfl rfl

section Containers

variable {decodeItem : Bytes → CborResult (Value × Bytes)} {surveyItem : Bytes → Survey Shape}
  (hItem : ∀ input, RustFollows (decodeItem input) (surveyItem input) fun _ _ => True)

include hItem

omit hStrict in
/-- The members of an array, by induction on their number. The first defect of a
member is that of the array. -/
theorem decodeItems_follows (count : Nat) (input : Bytes) :
    RustFollows (decodeItems decodeItem count input) (surveyMembers surveyItem count input)
      fun _ _ => True := by
  induction count generalizing input with
  | zero => exact Follows.done trivial
  | succ count ih =>
      apply (hItem input).bind
      intro item _ rest _ _
      exact (ih rest).map fun _ _ _ _ => trivial

theorem decodeArray_follows {initial : UInt8} (hMajor : initial.toNat / 32 = 4)
    (hRead : initial.toNat % 32 < 28) (rest : Bytes) :
    RustFollows (decodeArray crates pythonLimits decodeItem (initial :: rest))
      (surveyArgument initial rest (surveyArray pythonSurveyLimits surveyItem))
      fun _ _ => True := by
  apply RustFollows.argument
  · intro hNone
    have hDefect : headDefect initial rest = .truncated :=
      headDefect_of_truncated hRead fun hOne => by omega
    have hDefinite : (initial :: rest).head? ≠ some 0x9F := fun h => by
      obtain rfl := Option.some.inj h
      exact absurd hRead (by decide)
    exact follows_truncated hDefect (hStrict.array_error _ hNone hDefinite)
  · intro form count tail hHead
    obtain ⟨-, hFits, hInput⟩ := readHead_eq_some hHead
    have hNat : (UInt64.ofNat count).toNat = count := UInt64.toNat_ofNat_of_lt' hFits.lt
    have hArray := crates.decoder.array_head form (.ofNat count) tail (by rwa [hNat])
    have hLimit : pythonLimits.maxArrayItems < UInt64.ofNat count ↔
        pythonSurveyLimits.items < count := by
      rw [UInt64.lt_iff_toNat_lt, hNat, pythonLimits_maxArrayItems]
      exact Iff.rfl
    rw [hNat] at hArray
    rw [hInput, hMajor, decodeArray, hArray, mapError_ok, ok_bind]
    apply Follows.check hLimit
    · rfl
    · rfl
    intro _
    rw [hNat]
    apply (decodeItems_follows hItem count tail).bind
    intro items _ rest _ _
    exact Follows.done trivial

omit hStrict in
/-- The keys seen so far are those of the survey: only texts get past the key. -/
theorem decodeEntries_follows {surveyKey : Bytes → Survey Shape}
    (hKey : ∀ input, RustFollows (keyText crates input) (surveyKey input)
      fun key found => found = .text key)
    (count : Nat) (entries : List (String × Value)) (seen : List String) (previous : Option Bytes)
    (input : Bytes) :
    RustFollows (decodeEntries crates pythonLimits decodeItem count entries seen previous input)
      (surveyPairs surveyKey surveyItem count (seen.map Shape.text) previous input)
      fun _ _ => True := by
  induction count generalizing entries seen previous input with
  | zero => exact Follows.done trivial
  | succ count ih =>
      rw [decodeEntries, decodeKey_eq, bind_assoc]
      apply (hKey input).bind
      intro key found rest _ hFound
      subst hFound
      have hDuplicate : (∃ other ∈ seen.map Shape.text,
          other.identity = (Shape.text key).identity) ↔ key ∈ seen := by
        simp [Shape.identity]
      rw [ok_bind, if_neg (by simp [Shape.isContainer])]
      dsimp only
      by_cases hSeen : key ∈ seen
      · rw [failIf_of hSeen, if_pos (Or.inr (hDuplicate.mpr hSeen))]
        exact Follows.stop rfl rfl
      · rw [failIf_of_not hSeen, ok_bind]
        apply Follows.check (by rw [hDuplicate, or_iff_left hSeen]; exact Iff.rfl)
        · rfl
        · rfl
        intro _
        apply (hItem rest).bind
        intro value _ rest _ _
        exact ih _ (key :: seen) _ rest

theorem decodeMap_follows {surveyKey : Bytes → Survey Shape}
    (hKey : ∀ input, RustFollows (keyText crates input) (surveyKey input)
      fun key found => found = .text key)
    {initial : UInt8} (hMajor : initial.toNat / 32 = 5) (hRead : initial.toNat % 32 < 28)
    (rest : Bytes) :
    RustFollows (decodeMap crates pythonLimits decodeItem (initial :: rest))
      (surveyArgument initial rest (surveyMap pythonSurveyLimits surveyKey surveyItem))
      fun _ _ => True := by
  apply RustFollows.argument
  · intro hNone
    have hDefect : headDefect initial rest = .truncated :=
      headDefect_of_truncated hRead fun hOne => by omega
    have hDefinite : (initial :: rest).head? ≠ some 0xBF := fun h => by
      obtain rfl := Option.some.inj h
      exact absurd hRead (by decide)
    exact follows_truncated hDefect (hStrict.map_error _ hNone hDefinite)
  · intro form count tail hHead
    obtain ⟨-, hFits, hInput⟩ := readHead_eq_some hHead
    have hNat : (UInt64.ofNat count).toNat = count := UInt64.toNat_ofNat_of_lt' hFits.lt
    have hMap := crates.decoder.map_head form (.ofNat count) tail (by rwa [hNat])
    have hLimit : pythonLimits.maxMapPairs < UInt64.ofNat count ↔
        pythonSurveyLimits.items < count := by
      rw [UInt64.lt_iff_toNat_lt, hNat, pythonLimits_maxMapPairs]
      exact Iff.rfl
    rw [hNat] at hMap
    rw [hInput, hMajor, decodeMap, hMap, mapError_ok, ok_bind]
    apply Follows.check hLimit
    · rfl
    · rfl
    intro _
    rw [hNat]
    apply (decodeEntries_follows hItem hKey count [] [] none tail).bind
    intro entries _ rest _ _
    exact Follows.done trivial

end Containers

/-- A reserved head, or an indefinite length, which have errors of their own. -/
theorem decodeValue_reserved_follows {depth : Nat} (hDepth : depth ≤ pythonLimits.maxDepth.toNat)
    {initial : UInt8} (hMajor : initial.toNat / 32 < 7) (hReserved : 28 ≤ initial.toNat % 32)
    (rest : Bytes) (body : Nat → Bytes → Survey Shape) :
    RustFollows (decodeValue crates pythonLimits depth (initial :: rest))
      (surveyArgument initial rest body) fun _ _ => True := by
  have hPlain : ¬WideNegative initial := fun h => by
    have hHigh := h.2.2
    omega
  have hType := hStrict.datatype_initial initial rest hPlain
  have hReport := rustReport_headDefect_of_reserved hReserved rest
  rw [surveyArgument_of_none (readHead_of_reserved hReserved rest),
    decodeValue_of_shallow hDepth, hType, mapError_ok, ok_bind]
  by_cases hOpen : initial.toNat % 32 = 31 ∧ 2 ≤ initial.toNat / 32 ∧ initial.toNat / 32 ≤ 5
  · rw [if_pos hOpen] at hReport
    obtain h | h | h | h : initial.toNat / 32 = 2 ∨ initial.toNat / 32 = 3 ∨
        initial.toNat / 32 = 4 ∨ initial.toNat / 32 = 5 := by omega
    all_goals
      simp only [DataType.ofInitial, h, DataType.counted, hOpen.1]
      exact Follows.stop hReport rfl
  · rw [if_neg hOpen] at hReport
    rw [DataType.ofInitial_reserved hMajor hReserved hOpen]
    exact Follows.stop hReport rfl

omit hStrict in
theorem decodeValue_of_scalar {depth : Nat} (hDepth : depth ≤ pythonLimits.maxDepth.toNat)
    {type : DataType} {input : Bytes} (hType : crates.decoder.datatype input = .ok type)
    (hArray : type ≠ .array) (hMap : type ≠ .map) :
    decodeValue crates pythonLimits depth input = decodeScalar crates pythonLimits type input := by
  rw [decodeValue_of_shallow hDepth, hType, mapError_ok, ok_bind]
  cases type with
  | array => exact absurd rfl hArray
  | map => exact absurd rfl hMap
  | _ => rfl

section Item

variable {depth : Nat} (hDepth : depth ≤ pythonLimits.maxDepth.toNat) {initial : UInt8}

include hDepth

/-- An item of the first major type, at a depth that is allowed. -/
theorem decodeValue_unsigned_follows (hMajor : initial.toNat / 32 = 0)
    (hRead : initial.toNat % 32 < 28) (rest : Bytes) :
    RustFollows (decodeValue crates pythonLimits depth (initial :: rest))
      (surveyArgument initial rest fun argument tail =>
        surveyInteger pythonSurveyLimits argument tail) fun _ _ => True := by
  have hPlain : ¬WideNegative initial := fun h => by
    have hOne := h.1
    omega
  have hType := hStrict.datatype_initial initial rest hPlain
  have hMem := DataType.ofInitial_unsigned hMajor hRead
  have hScalar : DataType.ofInitial initial ≠ .array ∧ DataType.ofInitial initial ≠ .map := by
    constructor <;> intro h <;> rw [h] at hMem <;> simp at hMem
  rw [decodeValue_of_scalar hDepth hType hScalar.1 hScalar.2]
  exact decodeUnsigned_follows hStrict hMajor hRead hMem rest

omit hStrict in
/-- An argument that announces itself as too large for any signed integer stops both
readers, be it that it breaks off or that it is out of range. -/
theorem wideNegative_follows {next : UInt8} (hMajor : initial.toNat / 32 = 1)
    (hRead : initial.toNat % 32 < 28) (hEight : initial.toNat % 32 = 27) (hLarge : 0x80 ≤ next)
    {rest : Bytes} (hType : crates.decoder.datatype (initial :: next :: rest) = .ok .int) :
    RustFollows (decodeValue crates pythonLimits depth (initial :: next :: rest))
      (surveyArgument initial (next :: rest) fun argument tail =>
        surveyInteger pythonSurveyLimits (-1 - argument) tail) fun _ _ => True := by
  rw [decodeValue_of_scalar hDepth hType (by simp) (by simp)]
  apply RustFollows.argument
  · intro _
    have hDefect : headDefect initial (next :: rest) = .wideTruncated := by
      unfold headDefect
      dsimp only
      rw [if_pos hRead, if_pos ⟨hMajor, hEight, next, rfl, hLarge⟩]
    rw [hDefect]
    exact Follows.stop rfl rfl
  · intro form argument tail hHead
    obtain ⟨-, hFits, hInput⟩ := readHead_eq_some hHead
    rw [hMajor] at hInput
    -- No type of a signed integer was announced, so the argument is too large for one.
    have hWide : 9223372036854775808 ≤ argument := by
      by_contra hBound
      obtain ⟨type, hMem, hSigned⟩ :=
        crates.decoder.datatype_negative form argument tail hFits (not_le.mp hBound)
      rw [← hInput, hType] at hSigned
      cases hSigned
      simp at hMem
    have hFar : pythonSurveyLimits.integer < (-1 - (argument : Int)).natAbs := by
      have hLimit : pythonSurveyLimits.integer = 9007199254740991 := rfl
      omega
    rw [surveyInteger, if_pos hFar]
    exact Follows.stop rfl rfl

/-- An item of the second major type, whose width decides which operation reads it. -/
theorem decodeValue_negative_follows (hMajor : initial.toNat / 32 = 1)
    (hRead : initial.toNat % 32 < 28) (rest : Bytes) :
    RustFollows (decodeValue crates pythonLimits depth (initial :: rest))
      (surveyArgument initial rest fun argument tail =>
        surveyInteger pythonSurveyLimits (-1 - argument) tail) fun _ _ => True := by
  have hScalar {type : DataType} (hMem : type ∈ [DataType.i8, .i16, .i32, .i64])
      (hType : crates.decoder.datatype (initial :: rest) = .ok type)
      (hNarrow : initial.toNat % 32 = 27 → ∀ octet ∈ rest.head?, octet < 0x80) :
      RustFollows (decodeValue crates pythonLimits depth (initial :: rest))
        (surveyArgument initial rest fun argument tail =>
          surveyInteger pythonSurveyLimits (-1 - argument) tail) fun _ _ => True := by
    rw [decodeValue_of_scalar hDepth hType (fun h => by simp [h] at hMem)
      (fun h => by simp [h] at hMem)]
    exact decodeNegative_follows hStrict hMajor hRead hMem hType hNarrow
  by_cases hNegative : WideNegative initial
  · cases rest with
    | nil =>
        obtain ⟨cause, hCause⟩ := hStrict.datatype_negative_nil initial hNegative
        have hNone : readHead [initial] = none := by
          obtain ⟨-, hLow, hHigh⟩ := hNegative
          obtain h | h | h | h : initial.toNat % 32 = 24 ∨ initial.toNat % 32 = 25 ∨
              initial.toNat % 32 = 26 ∨ initial.toNat % 32 = 27 := by omega
          all_goals simp [readHead, h, Form.ofAdditional, Form.width]
        have hDefect : headDefect initial [] = .truncated :=
          headDefect_of_truncated hRead fun _ _ octet hOctet => by cases hOctet
        rw [surveyArgument_of_none hNone, hDefect, decodeValue_of_shallow hDepth, hCause]
        exact Follows.stop rfl rfl
    | cons next rest =>
        have hType := hStrict.datatype_negative initial next rest hNegative
        obtain ⟨hMem, hNarrow⟩ | ⟨hInt, hEight, hLarge⟩ := DataType.ofNegative_cases hNegative next
        · exact hScalar hMem hType fun hEight octet hOctet => by
            cases hOctet
            exact hNarrow hEight
        · exact wideNegative_follows hDepth hMajor hRead hEight hLarge (hType.trans (congrArg _ hInt))
  · have hInline : initial.toNat % 32 < 24 := by
      by_contra hLarge
      exact hNegative ⟨hMajor, not_lt.mp hLarge, hRead⟩
    have hType := hStrict.datatype_initial initial rest hNegative
    rw [DataType.ofInitial_negative hMajor hInline] at hType
    exact hScalar (by simp) hType fun hEight => by omega

/-- A string of octets or a tag, which is refused by its type alone. -/
theorem decodeValue_opaque_follows (hMajor : initial.toNat / 32 = 2 ∨ initial.toNat / 32 = 6)
    (hDefinite : initial ≠ 0x5F) (rest : Bytes) (survey : Survey Shape) :
    RustFollows (decodeValue crates pythonLimits depth (initial :: rest))
      (survey.noting .opaqueHead) fun _ _ => True := by
  have hPlain : ¬WideNegative initial := fun h => by
    have hOne := h.1
    omega
  have hBytes : ¬(initial.toNat / 32 = 2 ∧ initial.toNat % 32 = 31) := fun h =>
    hDefinite (UInt8.toNat_inj.mp (by simp; omega))
  have hKind : DataType.ofInitial initial = .bytes ∨ DataType.ofInitial initial = .tag ∨
      DataType.ofInitial initial = .unknown initial := by
    obtain h | h := hMajor
    all_goals
      simp only [DataType.ofInitial, DataType.counted, h]
      split_ifs <;> first | omega | simp
  have hType := hStrict.datatype_initial initial rest hPlain
  rw [decodeValue_of_shallow hDepth, hType, mapError_ok, ok_bind]
  obtain h | h | h := hKind <;> rw [h] <;> exact Follows.stopped rfl rfl

/-- An item of the last major type, told by its initial octet. -/
theorem decodeValue_simple_follows (hMajor : initial.toNat / 32 = 7) (rest : Bytes) :
    RustFollows (decodeValue crates pythonLimits depth (initial :: rest))
      (surveySimple initial rest) fun _ _ => True := by
  unfold surveySimple
  have hBool (value : Bool) (h : initial :: rest = (Item.bool value).encode ++ rest) :
      decodeValue crates pythonLimits depth (initial :: rest) = .ok (.bool value, rest) := by
    rw [h, decodeValue_of_scalar hDepth (crates.decoder.datatype_bool value rest) (by simp)
      (by simp), decodeScalar, crates.decoder.bool_encode]
    rfl
  by_cases hFalse : initial = 0xF4
  · rw [if_pos hFalse, hBool false (by rw [hFalse]; rfl)]
    exact Follows.done trivial
  · rw [if_neg hFalse]
    by_cases hTrue : initial = 0xF5
    · rw [if_pos hTrue, hBool true (by rw [hTrue]; rfl)]
      exact Follows.done trivial
    · have hPlain : ¬WideNegative initial := fun h => by
        have hOne := h.1
        omega
      have hNoFlag : initial.toNat % 32 ≠ 20 ∧ initial.toNat % 32 ≠ 21 := by
        constructor
        · exact fun h => hFalse (UInt8.toNat_inj.mp (by simp; omega))
        · exact fun h => hTrue (UInt8.toNat_inj.mp (by simp; omega))
      rw [if_neg hTrue, decodeValue_of_shallow hDepth, hStrict.datatype_initial initial rest hPlain,
        mapError_ok, ok_bind]
      simp only [DataType.ofInitial, hMajor]
      split_ifs <;> first
        | omega
        | exact Follows.stop rfl rfl

/-- An item of any major type, given that items one level further down are read so. -/
theorem decodeMajor_follows (deep : Bool)
    (hItem : ∀ input, RustFollows (decodeValue crates pythonLimits (depth + 1) input)
      (surveyItem pythonSurveyLimits (depth + 1) input) fun _ _ => True) (rest : Bytes) :
    RustFollows (decodeValue crates pythonLimits depth (initial :: rest))
      (surveyMajor pythonSurveyLimits deep (surveyItem pythonSurveyLimits (depth + 1)) initial rest)
      fun _ _ => True := by
  have hLt := initial.toNat_lt
  have hReserved {body : Nat → Bytes → Survey Shape} (hMajor : initial.toNat / 32 < 7)
      (h : ¬initial.toNat % 32 < 28) :
      RustFollows (decodeValue crates pythonLimits depth (initial :: rest))
        (surveyArgument initial rest body) fun _ _ => True :=
    decodeValue_reserved_follows hStrict hDepth hMajor (not_lt.mp h) rest body
  have hPlain (h : initial.toNat / 32 ≠ 1) : ¬WideNegative initial := fun hWide => h hWide.1
  obtain hMajor | hMajor | hMajor | hMajor | hMajor | hMajor | hMajor | hMajor :
      initial.toNat / 32 = 0 ∨ initial.toNat / 32 = 1 ∨ initial.toNat / 32 = 2 ∨
      initial.toNat / 32 = 3 ∨ initial.toNat / 32 = 4 ∨ initial.toNat / 32 = 5 ∨
      initial.toNat / 32 = 6 ∨ initial.toNat / 32 = 7 := by omega
  all_goals simp only [surveyMajor, hMajor]
  · by_cases hRead : initial.toNat % 32 < 28
    · exact decodeValue_unsigned_follows hStrict hDepth hMajor hRead rest
    · exact hReserved (by omega) hRead
  · by_cases hRead : initial.toNat % 32 < 28
    · exact decodeValue_negative_follows hStrict hDepth hMajor hRead rest
    · exact hReserved (by omega) hRead
  · unfold Survey.notingIf
    by_cases hOpen : initial = 0x5F
    · rw [if_neg (not_not.mpr hOpen)]
      exact hReserved (by omega) (by rw [hOpen]; decide)
    · rw [if_pos hOpen]
      exact decodeValue_opaque_follows hStrict hDepth (Or.inl hMajor) hOpen rest _
  · by_cases hRead : initial.toNat % 32 < 28
    · have hType := hStrict.datatype_initial initial rest (hPlain (by omega))
      simp only [DataType.ofInitial, hMajor, DataType.counted, if_pos hRead] at hType
      rw [decodeValue_of_scalar hDepth hType (by simp) (by simp), decodeScalar_string]
      exact (limitedText_follows hStrict hMajor hRead _ rest).map fun _ _ _ _ => trivial
    · exact hReserved (by omega) hRead
  · by_cases hRead : initial.toNat % 32 < 28
    · have hType := hStrict.datatype_initial initial rest (hPlain (by omega))
      simp only [DataType.ofInitial, hMajor, DataType.counted, if_pos hRead] at hType
      rw [decodeValue_of_shallow hDepth, hType, mapError_ok, ok_bind]
      exact decodeArray_follows hStrict hItem hMajor hRead rest
    · exact hReserved (by omega) hRead
  · by_cases hRead : initial.toNat % 32 < 28
    · have hType := hStrict.datatype_initial initial rest (hPlain (by omega))
      simp only [DataType.ofInitial, hMajor, DataType.counted, if_pos hRead] at hType
      rw [decodeValue_of_shallow hDepth, hType, mapError_ok, ok_bind]
      exact decodeMap_follows hStrict hItem (keyText_follows hStrict deep _) hMajor hRead rest
    · exact hReserved (by omega) hRead
  · have hOpen : initial ≠ 0x5F := fun h => by
      rw [h] at hMajor
      exact absurd hMajor (by decide)
    exact decodeValue_opaque_follows hStrict hDepth (Or.inr hMajor) hOpen rest _
  · exact decodeValue_simple_follows hStrict hDepth hMajor rest

end Item

/-- The decoder follows the survey at every depth, by induction on the levels that are
left. -/
theorem decodeValue_follows (depth : Nat) (input : Bytes) :
    RustFollows (decodeValue crates pythonLimits depth input)
      (surveyItem pythonSurveyLimits depth input) fun _ _ => True := by
  have hSame : pythonSurveyLimits.depth = pythonLimits.maxDepth.toNat := pythonLimits_maxDepth.symm
  induction hFuel : pythonLimits.maxDepth.toNat + 1 - depth generalizing depth input with
  | zero =>
      rw [decodeValue, if_pos (by omega), surveyItem.eq_def, if_pos (by omega)]
      exact Follows.stop rfl rfl
  | succ fuel ih =>
      have hDepth : depth ≤ pythonLimits.maxDepth.toNat := by omega
      rw [surveyItem.eq_def, if_neg (by omega)]
      cases input with
      | nil =>
          obtain ⟨cause, hCause⟩ := hStrict.datatype_nil
          rw [decodeValue_of_shallow hDepth, hCause]
          exact Follows.stop rfl rfl
      | cons initial rest =>
          exact decodeMajor_follows hStrict hDepth _ (fun input => ih _ input (by omega)) rest

end Strict

end Tfws
