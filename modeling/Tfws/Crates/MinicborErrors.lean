import Tfws.Crates.MinicborModel

/-! The decoder of `minicbor` on octets that are not well formed. An item's type
is told by its first octets alone, before its argument is read; the operation
that reads the argument then fails. -/
namespace Minicbor

open Cbor

/-- A type that has a length, by the additional information: definite, indefinite, or
reserved. -/
def DataType.counted (definite indefinite : DataType) (initial : UInt8) : DataType :=
  if initial.toNat % 32 < 28 then definite
  else if initial.toNat % 32 = 31 then indefinite
  else .unknown initial

/-- The type that an initial octet announces. The width of a negative integer
also depends on the octet that follows. -/
def DataType.ofInitial (initial : UInt8) : DataType :=
  let additional := initial.toNat % 32
  match initial.toNat / 32 with
  | 0 =>
      if additional ≤ 24 then .u8
      else if additional = 25 then .u16
      else if additional = 26 then .u32
      else if additional = 27 then .u64
      else .unknown initial
  | 1 => if additional < 24 then .i8 else .unknown initial
  | 2 => counted .bytes .bytesIndef initial
  | 3 => counted .string .stringIndef initial
  | 4 => counted .array .arrayIndef initial
  | 5 => counted .map .mapIndef initial
  | 6 => if additional < 28 then .tag else .unknown initial
  | _ =>
      if additional < 20 ∨ additional = 24 then .simple
      else if additional < 22 then .bool
      else if additional = 22 then .null
      else if additional = 23 then .undefined
      else if additional = 25 then .f16
      else if additional = 26 then .f32
      else if additional = 27 then .f64
      else if additional = 31 then .break
      else .unknown initial

/-- The signed type that holds a negative integer whose argument begins with
`next`, if there is one. -/
def DataType.ofNegative (initial next : UInt8) : DataType :=
  if initial.toNat % 32 = 24 then if next < 0x80 then .i8 else .i16
  else if initial.toNat % 32 = 25 then if next < 0x80 then .i16 else .i32
  else if initial.toNat % 32 = 26 then if next < 0x80 then .i32 else .i64
  else if next < 0x80 then .i64 else .int

namespace DataType

variable {initial : UInt8}

theorem ofInitial_unsigned (hMajor : initial.toNat / 32 = 0) (h : initial.toNat % 32 < 28) :
    ofInitial initial ∈ [u8, u16, u32, u64] := by
  simp only [ofInitial, hMajor]
  split_ifs <;> first | omega | simp

theorem ofInitial_negative (hMajor : initial.toNat / 32 = 1) (h : initial.toNat % 32 < 24) :
    ofInitial initial = i8 := by
  simp only [ofInitial, hMajor, if_pos h]

/-- An initial octet with reserved additional information announces no type. -/
theorem ofInitial_reserved (hMajor : initial.toNat / 32 < 7) (h : 28 ≤ initial.toNat % 32)
    (hOpen : ¬(initial.toNat % 32 = 31 ∧ 2 ≤ initial.toNat / 32 ∧ initial.toNat / 32 ≤ 5)) :
    ofInitial initial = unknown initial := by
  obtain h | h | h | h | h | h | h : initial.toNat / 32 = 0 ∨ initial.toNat / 32 = 1 ∨
      initial.toNat / 32 = 2 ∨ initial.toNat / 32 = 3 ∨ initial.toNat / 32 = 4 ∨
      initial.toNat / 32 = 5 ∨ initial.toNat / 32 = 6 := by omega
  all_goals
    simp only [ofInitial, counted, h]
    split_ifs <;> first | rfl | omega

theorem ofInitial_ne_string (hMajor : initial.toNat / 32 ≠ 3) :
    ofInitial initial ≠ string ∧ ofInitial initial ≠ stringIndef := by
  unfold ofInitial counted
  dsimp only
  split <;> first
    | exact absurd ‹_› hMajor
    | split_ifs <;> exact ⟨by simp, by simp⟩

/-- The type is too wide for a signed integer exactly if the argument of eight octets
begins with a large one. The second octet decides, whether or not the others are
there. -/
theorem ofNegative_cases (h : WideNegative initial) (next : UInt8) :
    (ofNegative initial next ∈ [i8, i16, i32, i64] ∧ (initial.toNat % 32 = 27 → next < 0x80)) ∨
      (ofNegative initial next = int ∧ initial.toNat % 32 = 27 ∧ 0x80 ≤ next) := by
  obtain ⟨-, hLow, hHigh⟩ := h
  unfold ofNegative
  by_cases hNext : next < 0x80
  · left
    refine ⟨?_, fun _ => hNext⟩
    split_ifs <;> simp
  · simp only [if_neg hNext, UInt8.not_lt.mp hNext]
    by_cases hEight : initial.toNat % 32 = 27
    · right
      simp [hEight]
    · left
      refine ⟨?_, fun h => absurd h hEight⟩
      split_ifs <;> first | omega | simp

end DataType

/-- What is documented of a decoder where the input ends too early or a head is
reserved. Counts of indefinite length are read as such. -/
structure Decoder.Strict (decoder : Decoder) : Prop where
  datatype_nil : ∃ cause, decoder.datatype [] = .error cause
  datatype_initial : ∀ initial rest, ¬WideNegative initial →
    decoder.datatype (initial :: rest) = .ok (DataType.ofInitial initial)
  datatype_negative_nil : ∀ initial, WideNegative initial →
    ∃ cause, decoder.datatype [initial] = .error cause
  datatype_negative : ∀ initial next rest, WideNegative initial →
    decoder.datatype (initial :: next :: rest) = .ok (DataType.ofNegative initial next)
  u64_error : ∀ input, readHead input = none → ∃ cause, decoder.u64 input = .error cause
  i64_error : ∀ input, readHead input = none → ∃ cause, decoder.i64 input = .error cause
  str_error : ∀ input, readHead input = none → ∃ cause, decoder.str input = .error cause
  array_error : ∀ input, readHead input = none → input.head? ≠ some 0x9F →
    ∃ cause, decoder.array input = .error cause
  map_error : ∀ input, readHead input = none → input.head? ≠ some 0xBF →
    ∃ cause, decoder.map input = .error cause
  str_short : ∀ (form : Form) (n : Nat) (rest : Bytes), form.Fits n → rest.length < n →
    ∃ cause, decoder.str (form.head 3 n ++ rest) = .error cause
  str_invalid : ∀ (form : Form) (n : Nat) (rest : Bytes), form.Fits n → n ≤ rest.length →
    Utf8.decode (rest.take n) = none → ∃ cause, decoder.str (form.head 3 n ++ rest) = .error cause

namespace Model

/-- The type as the initial octet tells it, and the next one where needed. -/
def strictDatatype : Bytes → Except String DataType
  | [] => .error endOfInput
  | initial :: rest =>
      if WideNegative initial then
        match rest with
        | [] => .error endOfInput
        | next :: _ => .ok (DataType.ofNegative initial next)
      else .ok (DataType.ofInitial initial)

theorem strictDatatype_initial {initial : UInt8} (h : ¬WideNegative initial) (rest : Bytes) :
    strictDatatype (initial :: rest) = .ok (DataType.ofInitial initial) := by
  rw [strictDatatype.eq_def]
  exact if_neg h

theorem strictDatatype_next {initial : UInt8} (h : WideNegative initial) (next : UInt8)
    (rest : Bytes) :
    strictDatatype (initial :: next :: rest) = .ok (DataType.ofNegative initial next) := by
  rw [strictDatatype.eq_def]
  exact if_pos h

/-- The type of an item whose head is complete is told by its initial octet, negative
integers apart. -/
theorem strictDatatype_head {major n : Nat} {form : Form} (hMajor : major < 8) (hOther : major ≠ 1)
    (hFits : form.Fits n) (rest : Bytes) : ∃ initial : UInt8, initial.toNat / 32 = major ∧
      initial.toNat % 32 < 28 ∧
      strictDatatype (form.head major n ++ rest) = .ok (DataType.ofInitial initial) := by
  have hAdditional := hFits.additional_lt
  have hDiv := initial_div hMajor (hAdditional.trans (by decide))
  have hMod := initial_mod major (hAdditional.trans (by decide))
  refine ⟨_, hDiv, by rwa [hMod], ?_⟩
  rw [Form.head, List.cons_append]
  exact strictDatatype_initial (fun hWide => hOther (hDiv.symm.trans hWide.1)) _

theorem strictDatatype_counted {major n : Nat} {form : Form} {definite : DataType}
    (indefinite : DataType) (hMajor : 2 ≤ major ∧ major ≤ 5)
    (hTable : ∀ initial : UInt8, initial.toNat / 32 = major →
      DataType.ofInitial initial = DataType.counted definite indefinite initial)
    (hFits : form.Fits n) (rest : Bytes) :
    strictDatatype (form.head major n ++ rest) = .ok definite := by
  obtain ⟨initial, hInitial, hRead, hType⟩ :=
    strictDatatype_head (by omega : major < 8) (by omega) hFits rest
  rw [hType, hTable initial hInitial, DataType.counted, if_pos hRead]

/-- The first octet of an argument that has octets of its own is its most significant
one. -/
theorem bigEndian_cons {n : Nat} {form : Form} (hForm : form ≠ .inline) (hFits : form.Fits n) :
    ∃ next tail, bigEndian form.width n = next :: tail ∧
      (form = .eight → next.toNat = n / 72057594037927936) := by
  cases form with
  | inline => exact absurd rfl hForm
  | one | two | four => exact ⟨_, _, rfl, by simp⟩
  | eight =>
      refine ⟨_, _, rfl, fun _ => ?_⟩
      have hLt : n < 18446744073709551616 := hFits
      rw [UInt8.toNat_ofNat_of_lt']
      · rfl
      · exact Nat.div_lt_of_lt_mul hLt

/-- A negative integer is announced as wide exactly if no signed integer holds it, in
any of the five forms. -/
theorem strictDatatype_negative {n : Nat} {form : Form} (hFits : form.Fits n) (rest : Bytes) :
    if n < 9223372036854775808 then ∃ type ∈ [DataType.i8, .i16, .i32, .i64],
      strictDatatype (form.head 1 n ++ rest) = .ok type
    else strictDatatype (form.head 1 n ++ rest) = .ok .int := by
  have hAdditional := hFits.additional_lt
  have hDiv := initial_div (by decide : 1 < 8) (hAdditional.trans (by decide))
  have hMod := initial_mod 1 (hAdditional.trans (by decide))
  rw [Form.head, List.cons_append]
  by_cases hInline : form = .inline
  · subst hInline
    have hSmall : n < 24 := hFits
    have hPlain : ¬WideNegative (UInt8.ofNat (32 * 1 + Form.inline.additional n)) := fun h => by
      have hLow := h.2.1
      rw [hMod] at hLow
      exact absurd hLow (not_le.mpr hSmall)
    rw [if_pos (by omega), strictDatatype_initial hPlain,
      DataType.ofInitial_negative hDiv (by rwa [hMod])]
    exact ⟨.i8, by simp, rfl⟩
  · obtain ⟨next, tail, hOctets, hNext⟩ := bigEndian_cons hInline hFits
    have hLow : 24 ≤ form.additional n := by
      cases form with
      | inline => exact absurd rfl hInline
      | one | two | four | eight => simp [Form.additional]
    have hWide : WideNegative (UInt8.ofNat (32 * 1 + form.additional n)) :=
      ⟨hDiv, by rwa [hMod], by rwa [hMod]⟩
    rw [hOctets, List.cons_append, strictDatatype_next hWide]
    have hSize : (0x80 : UInt8).toNat = 128 := rfl
    have hEight : form.additional n = 27 ↔ form = .eight := by
      cases form with
      | inline => exact absurd rfl hInline
      | one | two | four | eight => simp [Form.additional]
    obtain ⟨hMem, hNarrow⟩ | ⟨hInt, hLong, hLarge⟩ := DataType.ofNegative_cases hWide next
    · rw [if_pos]
      · exact ⟨_, hMem, rfl⟩
      · by_contra hFar
        have hForm : form = .eight := by
          cases form <;> simp only [Form.Fits, Form.width] at hFits <;> first | rfl | omega
        rw [hMod, hEight, UInt8.lt_iff_toNat_lt, hSize, hNext hForm] at hNarrow
        have hSmall := hNarrow hForm
        omega
    · rw [hMod, hEight] at hLong
      rw [UInt8.le_iff_toNat_le, hSize, hNext hLong] at hLarge
      rw [if_neg (by omega), hInt]

/-- Where no head can be read, the model of the decoder is at the end of its input. -/
theorem argument_of_none {input : Bytes} (h : readHead input = none) (major : Nat) :
    argument major input = .error endOfInput := by
  rw [argument, h]

theorem count_of_none {major : Nat} {initial : UInt8} {input : Bytes} (h : readHead input = none)
    (hDefinite : input.head? ≠ some initial) :
    ∃ cause, count major initial input = .error cause := by
  cases input with
  | nil => exact ⟨_, rfl⟩
  | cons first rest =>
      have hOther : first ≠ initial := fun hSame => hDefinite (congrArg some hSame)
      rw [count, if_neg hOther, argument_of_none h]
      exact ⟨_, rfl⟩

end Model

/-- The decoder over `readHead`, with the types told by the octets alone. -/
def Decoder.strictModel : Decoder :=
  { Decoder.model with
    datatype := Model.strictDatatype
    datatype_unsigned := fun form n rest hFits => by
      obtain ⟨initial, hMajor, hRead, hType⟩ :=
        Model.strictDatatype_head (by decide : 0 < 8) (by decide) hFits rest
      exact ⟨_, DataType.ofInitial_unsigned hMajor hRead, hType⟩
    datatype_negative := fun form n rest hFits hBound => by
      have hType := Model.strictDatatype_negative hFits rest
      rwa [if_pos hBound] at hType
    datatype_negative_wide := fun form n rest hFits hWide => by
      have hType := Model.strictDatatype_negative hFits rest
      rwa [if_neg (not_lt.mpr hWide)] at hType
    datatype_bytes := fun form n rest hFits =>
      Model.strictDatatype_counted .bytesIndef (by decide)
        (fun initial h => by simp only [DataType.ofInitial, h]) hFits rest
    datatype_string := fun form n rest hFits =>
      Model.strictDatatype_counted .stringIndef (by decide)
        (fun initial h => by simp only [DataType.ofInitial, h]) hFits rest
    datatype_array := fun form n rest hFits =>
      Model.strictDatatype_counted .arrayIndef (by decide)
        (fun initial h => by simp only [DataType.ofInitial, h]) hFits rest
    datatype_map := fun form n rest hFits =>
      Model.strictDatatype_counted .mapIndef (by decide)
        (fun initial h => by simp only [DataType.ofInitial, h]) hFits rest
    datatype_bool := fun value rest => by cases value <;> rfl }

/-- The stricter assumptions about the decoder can hold: here is a decoder that meets
them. -/
theorem Decoder.strict_strictModel : Decoder.strictModel.Strict where
  datatype_nil := ⟨_, rfl⟩
  datatype_initial initial rest h := Model.strictDatatype_initial h rest
  datatype_negative_nil initial h := ⟨Model.endOfInput, by
    change Model.strictDatatype [initial] = _
    rw [Model.strictDatatype.eq_def]
    exact if_pos h⟩
  datatype_negative initial next rest h := Model.strictDatatype_next h next rest
  u64_error input h := ⟨Model.endOfInput, by
    change Model.u64 input = _
    rw [Model.u64, Model.argument_of_none h]
    rfl⟩
  i64_error input h := ⟨Model.endOfInput, by
    change Model.i64 input = _
    rw [Model.i64, h]⟩
  str_error input h := ⟨Model.endOfInput, by
    change Model.str input = _
    rw [Model.str, Model.argument_of_none h]
    rfl⟩
  array_error input h hDefinite := Model.count_of_none h hDefinite
  map_error input h hDefinite := Model.count_of_none h hDefinite
  str_short form n rest hFits hShort := ⟨Model.endOfInput, by
    change Model.str _ = _
    rw [Model.str, Model.argument_head (by decide) hFits]
    simp [bind, Except.bind, not_le.mpr hShort]⟩
  str_invalid form n rest hFits hLong hText := ⟨"invalid utf-8", by
    change Model.str _ = _
    rw [Model.str, Model.argument_head (by decide) hFits]
    simp [bind, Except.bind, hLong, hText]⟩

end Minicbor
