import Mathlib.Data.List.Basic
import Mathlib.Data.List.TakeWhile
import Mathlib.Data.Nat.Basic
import Mathlib.Tactic.Common

/-! The lexical parts of JSON: white space, strings and numbers. Each writer is
undone by its reader, whatever stands behind the text. -/
namespace Json

/-- White space between tokens: the four characters of the grammar and no other blank
of Unicode. -/
def isSpace (c : Char) : Bool := c = ' ' || c = '\t' || c = '\n' || c = '\r'

/-- The text from its first character that is not white space, as it may stand between
tokens. -/
def skipSpaces (input : List Char) : List Char := input.dropWhile isSpace

theorem skipSpaces_cons {c : Char} (h : isSpace c = false) (rest : List Char) :
    skipSpaces (c :: rest) = c :: rest :=
  List.dropWhile_cons_of_neg (by simp [h])

/-- What follows a given character, if it comes first. -/
def token (c : Char) : List Char → Option (List Char)
  | first :: rest => if first = c then some rest else none
  | [] => none

@[simp] theorem token_cons_self (c : Char) (rest : List Char) : token c (c :: rest) = some rest :=
  if_pos rfl

theorem token_cons_ne {c first : Char} (h : first ≠ c) (rest : List Char) :
    token c (first :: rest) = none :=
  if_neg h

/-- Hexadecimal digits in lower case, as the writers put them, for numbers below
16. -/
def hexDigit (n : Nat) : Char :=
  if n < 10 then Char.ofNat (48 + n) else Char.ofNat (87 + n)

/-- One character of a string: quotation marks, backslashes and the control
characters are escaped, by a letter where there is one. -/
def escape (c : Char) : List Char :=
  if c = '"' then ['\\', '"']
  else if c = '\\' then ['\\', '\\']
  else if c = '\n' then ['\\', 'n']
  else if c = '\r' then ['\\', 'r']
  else if c = '\t' then ['\\', 't']
  else if c.toNat = 8 then ['\\', 'b']
  else if c.toNat = 12 then ['\\', 'f']
  else if c.toNat < 32 then
    ['\\', 'u', '0', '0', hexDigit (c.toNat / 16), hexDigit (c.toNat % 16)]
  else [c]

/-- A string between quotation marks, every character escaped that has to be. -/
def writeString (text : String) : List Char :=
  '"' :: (text.toList.flatMap escape ++ ['"'])

/-- The value of a hexadecimal digit in either case; other characters have none. -/
def hexValue (c : Char) : Option Nat :=
  if 48 ≤ c.toNat ∧ c.toNat ≤ 57 then some (c.toNat - 48)
  else if 97 ≤ c.toNat ∧ c.toNat ≤ 102 then some (c.toNat - 87)
  else if 65 ≤ c.toNat ∧ c.toNat ≤ 70 then some (c.toNat - 55)
  else none

/-- The number that four hexadecimal digits write, if all four are such digits. -/
def hexNumber (a b c d : Char) : Option Nat := do
  some (4096 * (← hexValue a) + 256 * (← hexValue b) + 16 * (← hexValue c) + (← hexValue d))

/-- The character behind a backslash, other than `u`, which is followed by digits. -/
def unescape (c : Char) : Option Nat :=
  if c = '"' ∨ c = '\\' ∨ c = '/' then some c.toNat
  else if c = 'b' then some 8
  else if c = 'f' then some 12
  else if c = 'n' then some 10
  else if c = 'r' then some 13
  else if c = 't' then some 9
  else none

/-- The code points up to the closing quotation mark; an escape may give one
half of a surrogate pair. -/
def scanCodes : List Char → Option (List Nat × List Char)
  | [] => none
  | '"' :: rest => some ([], rest)
  | '\\' :: 'u' :: a :: b :: c :: d :: rest => do
      let code ← hexNumber a b c d
      let (codes, rest) ← scanCodes rest
      some (code :: codes, rest)
  | '\\' :: c :: rest => do
      let code ← unescape c
      let (codes, rest) ← scanCodes rest
      some (code :: codes, rest)
  | c :: rest =>
      if c.toNat < 32 then none
      else do
        let (codes, rest) ← scanCodes rest
        some (c.toNat :: codes, rest)

/-- A code unit that opens a surrogate pair, and stands for nothing alone. -/
def isHighSurrogate (code : Nat) : Bool := 0xD800 ≤ code && code < 0xDC00

/-- A code unit that closes a surrogate pair, and stands for nothing alone. -/
def isLowSurrogate (code : Nat) : Bool := 0xDC00 ≤ code && code < 0xE000

/-- The characters of the code points, surrogate pairs being joined; there are
none where a half stands alone. -/
def joinCodes : List Nat → Option (List Char)
  | [] => some []
  | high :: low :: rest =>
      if isHighSurrogate high && isLowSurrogate low then
        (joinCodes rest).map
          (Char.ofNat (0x10000 + 1024 * (high - 0xD800) + (low - 0xDC00)) :: ·)
      else if isHighSurrogate high || isLowSurrogate high then none
      else (joinCodes (low :: rest)).map (Char.ofNat high :: ·)
  | [code] =>
      if isHighSurrogate code || isLowSurrogate code then none else some [Char.ofNat code]

/-- The text of a string behind its opening quotation mark, or none where a
surrogate is unpaired, and what follows the closing one. -/
def scanString (input : List Char) : Option (Option String × List Char) :=
  (scanCodes input).map fun scanned => ((joinCodes scanned.1).map String.ofList, scanned.2)

theorem hexValue_hexDigit : ∀ n < 16, hexValue (hexDigit n) = some n := by decide

theorem scanCodes_escape (c : Char) (rest : List Char) :
    scanCodes (escape c ++ rest) =
      (scanCodes rest).map fun scanned => (c.toNat :: scanned.1, scanned.2) := by
  unfold escape
  split_ifs with hQuote hBackslash hLine hReturn hTab hBack hFeed hControl
  · subst hQuote
    cases h : scanCodes rest <;> simp [scanCodes, unescape, h]
  · subst hBackslash
    cases h : scanCodes rest <;> simp [scanCodes, unescape, h]
  · subst hLine
    cases h : scanCodes rest <;> simp [scanCodes, unescape, h]
  · subst hReturn
    cases h : scanCodes rest <;> simp [scanCodes, unescape, h]
  · subst hTab
    cases h : scanCodes rest <;> simp [scanCodes, unescape, h]
  · cases h : scanCodes rest <;> simp [scanCodes, unescape, h, hBack]
  · cases h : scanCodes rest <;> simp [scanCodes, unescape, h, hFeed]
  · have hHigh := hexValue_hexDigit (c.toNat / 16) (by omega)
    have hLow := hexValue_hexDigit (c.toNat % 16) (Nat.mod_lt _ (by decide))
    have hZero : hexValue '0' = some 0 := by decide
    have hNumber : hexNumber '0' '0' (hexDigit (c.toNat / 16)) (hexDigit (c.toNat % 16)) =
        some c.toNat := by
      simp only [hexNumber, hHigh, hLow, hZero, Option.bind_eq_bind, Option.bind_some,
        Option.some.injEq]
      omega
    cases h : scanCodes rest <;> simp [scanCodes, hNumber, h]
  · have hPlain : scanCodes (c :: rest) = if c.toNat < 32 then none
        else (do
          let (codes, rest) ← scanCodes rest
          some (c.toNat :: codes, rest)) := by
      rw [scanCodes]
      · exact hQuote
      · intro _ _ _ _ _ hSame _
        exact hBackslash hSame
      · intro _ _ hSame _
        exact hBackslash hSame
    rw [List.singleton_append, hPlain, if_neg hControl]
    cases h : scanCodes rest <;> simp

/-- A character is no half of a surrogate pair, so that halves come from escapes
alone. -/
theorem not_surrogate (c : Char) :
    isHighSurrogate c.toNat = false ∧ isLowSurrogate c.toNat = false := by
  have hValid : c.toNat < 0xD800 ∨ 0xDFFF < c.toNat ∧ c.toNat < 0x110000 := c.valid
  constructor
  · simp only [isHighSurrogate, Bool.and_eq_false_iff, decide_eq_false_iff_not]
    omega
  · simp only [isLowSurrogate, Bool.and_eq_false_iff, decide_eq_false_iff_not]
    omega

/-- Codes that came from characters are joined to the same characters, for no
character is a surrogate. -/
theorem joinCodes_map_toNat (text : List Char) : joinCodes (text.map Char.toNat) = some text := by
  induction text with
  | nil => rfl
  | cons c rest ih =>
      obtain ⟨hHigh, hLow⟩ := not_surrogate c
      cases rest with
      | nil => simp [joinCodes, hHigh, hLow]
      | cons next others =>
          rw [List.map_cons] at ih
          rw [List.map_cons, List.map_cons, joinCodes, ih]
          simp [hHigh, hLow]

theorem scanCodes_flatMap_escape (text rest : List Char) :
    scanCodes (text.flatMap escape ++ '"' :: rest) = some (text.map Char.toNat, rest) := by
  induction text with
  | nil => simp [scanCodes]
  | cons c others ih =>
      rw [List.flatMap_cons, List.append_assoc, scanCodes_escape, ih]
      rfl

/-- A string is read back from what was written, whatever stands behind the closing
mark. -/
theorem scanString_writeString (text : String) (rest : List Char) :
    ∃ input, writeString text ++ rest = '"' :: input ∧
      scanString input = some (some text, rest) := by
  refine ⟨text.toList.flatMap escape ++ '"' :: rest, by simp [writeString], ?_⟩
  rw [scanString, scanCodes_flatMap_escape]
  simp [joinCodes_map_toNat]

/-- The text of an integer: decimal digits, without leading zeros, and a minus sign
where it is negative. -/
def writeInt (value : Int) : List Char :=
  if value < 0 then '-' :: Nat.toDigits 10 value.natAbs else Nat.toDigits 10 value.natAbs

/-- `0`, or digits that do not start with `0`, as JSON writes integers. -/
def scanNat : List Char → Option (Nat × List Char)
  | [] => none
  | first :: rest =>
      if first = '0' then some (0, rest)
      else if first.isDigit then
        some (Nat.ofDigitChars 10 ((first :: rest).takeWhile Char.isDigit) 0,
          (first :: rest).dropWhile Char.isDigit)
      else none

/-- What follows the digits, if one comes first. Their value is not needed. -/
def skipDigits : List Char → Option (List Char)
  | [] => none
  | first :: rest => if first.isDigit then some (rest.dropWhile Char.isDigit) else none

/-- What follows a fraction, if one comes first, point and digits. -/
def skipFraction (input : List Char) : Option (List Char) := (token '.' input).bind skipDigits

/-- What follows an exponent, if one comes first, with or without a sign. -/
def skipExponent (input : List Char) : Option (List Char) := do
  let rest ← token 'e' input <|> token 'E' input
  skipDigits ((token '+' rest <|> token '-' rest).getD rest)

/-- A number: an integer, or the text of another one, whose value is left to the
reader's floats. -/
inductive Number where
  | int (value : Int)
  | decimal (text : String)
  deriving DecidableEq

/-- A number without its sign. A fraction or an exponent makes it a decimal. -/
def scanUnsigned (input : List Char) : Option (Nat × Bool × List Char) := do
  let (value, rest) ← scanNat input
  let afterFraction := (skipFraction rest).getD rest
  let afterExponent := (skipExponent afterFraction).getD afterFraction
  some (value, afterExponent.length = rest.length, afterExponent)

/-- A number with its sign. An integer becomes a number, and anything with a fraction
or an exponent keeps its text. -/
def scanNumber (input : List Char) : Option (Number × List Char) := do
  let signed := token '-' input
  let (value, isInt, rest) ← scanUnsigned (signed.getD input)
  if isInt then some (.int (if signed.isSome then -value else value), rest)
  else some (.decimal (String.ofList (input.take (input.length - rest.length))), rest)

/-- No number goes on with what comes next, so that reading stops where writing
did. -/
def EndsNumber (rest : List Char) : Prop :=
  ∀ c ∈ rest.head?, c.isDigit = false ∧ c ≠ '.' ∧ c ≠ 'e' ∧ c ≠ 'E'

theorem digitChar_ne_zero : ∀ n < 10, n ≠ 0 → n.digitChar ≠ '0' ∧ n.digitChar.isDigit = true := by
  decide

theorem toDigits_eq_cons {n : Nat} (h : n ≠ 0) :
    ∃ first rest, Nat.toDigits 10 n = first :: rest ∧ first ≠ '0' ∧ first.isDigit = true := by
  induction n using Nat.strongRecOn with
  | ind n ih =>
      by_cases hSmall : n < 10
      · exact ⟨n.digitChar, [], Nat.toDigits_of_lt_base hSmall, digitChar_ne_zero n hSmall h⟩
      · obtain ⟨first, rest, hDigits, hFirst⟩ := ih (n / 10) (by omega) (by omega)
        refine ⟨first, rest ++ [(n % 10).digitChar], ?_, hFirst⟩
        rw [Nat.toDigits_of_base_le (by decide) (by omega), hDigits, List.cons_append]

theorem takeWhile_toDigits (n : Nat) {rest : List Char} (h : EndsNumber rest) :
    (Nat.toDigits 10 n ++ rest).takeWhile Char.isDigit = Nat.toDigits 10 n ∧
      (Nat.toDigits 10 n ++ rest).dropWhile Char.isDigit = rest := by
  have hDigits : ∀ c ∈ Nat.toDigits 10 n, c.isDigit = true :=
    fun c hMem => Nat.isDigit_of_mem_toDigits (by decide) (by decide) hMem
  have hRest : rest.takeWhile Char.isDigit = [] ∧ rest.dropWhile Char.isDigit = rest := by
    cases rest with
    | nil => exact ⟨rfl, rfl⟩
    | cons c others =>
        have hStop : c.isDigit = false := (h c rfl).1
        exact ⟨List.takeWhile_cons_of_neg (by simp [hStop]),
          List.dropWhile_cons_of_neg (by simp [hStop])⟩
  rw [List.takeWhile_append_of_pos hDigits, List.dropWhile_append_of_pos hDigits, hRest.1, hRest.2,
    List.append_nil]
  exact ⟨rfl, rfl⟩

theorem scanNat_toDigits (n : Nat) {rest : List Char} (h : EndsNumber rest) :
    scanNat (Nat.toDigits 10 n ++ rest) = some (n, rest) := by
  by_cases hZero : n = 0
  · subst hZero
    rfl
  · obtain ⟨first, others, hDigits, hFirst, hDigit⟩ := toDigits_eq_cons hZero
    obtain ⟨hTake, hDrop⟩ := takeWhile_toDigits n h
    rw [hDigits, List.cons_append] at hTake hDrop ⊢
    rw [scanNat, if_neg hFirst, if_pos hDigit, hTake, hDrop, ← hDigits,
      Nat.ofDigitChars_ten_toDigits]

theorem EndsNumber.skipFraction {rest : List Char} (h : EndsNumber rest) :
    skipFraction rest = none := by
  cases rest with
  | nil => rfl
  | cons c others => rw [Json.skipFraction, token_cons_ne (h c rfl).2.1, Option.bind_none]

theorem EndsNumber.skipExponent {rest : List Char} (h : EndsNumber rest) :
    skipExponent rest = none := by
  cases rest with
  | nil => rfl
  | cons c others =>
      obtain ⟨-, -, hLower, hUpper⟩ := h c rfl
      rw [Json.skipExponent, token_cons_ne hLower, token_cons_ne hUpper]
      rfl

/-- An integer is read back from what was written, if no number goes on behind it. -/
theorem scanNumber_writeInt (value : Int) {rest : List Char} (h : EndsNumber rest) :
    scanNumber (writeInt value ++ rest) = some (.int value, rest) := by
  have hUnsigned : scanUnsigned (Nat.toDigits 10 value.natAbs ++ rest) =
      some (value.natAbs, true, rest) := by
    simp [scanUnsigned, scanNat_toDigits _ h, h.skipFraction, h.skipExponent]
  unfold writeInt
  split_ifs with hSign
  · have hValue : -(value.natAbs : Int) = value := by omega
    simp only [scanNumber, List.cons_append, token_cons_self, Option.getD_some, hUnsigned,
      Option.bind_eq_bind, Option.bind_some, Option.isSome_some, if_true, hValue]
  · have hToken : token '-' (Nat.toDigits 10 value.natAbs ++ rest) = none := by
      obtain ⟨first, others, hDigits⟩ := List.exists_cons_of_ne_nil
        (show Nat.toDigits 10 value.natAbs ≠ [] from Nat.toDigits_ne_nil)
      have hDigit : first.isDigit = true := Nat.isDigit_of_mem_toDigits (by decide) (by decide)
        (hDigits ▸ List.mem_cons_self)
      rw [hDigits, List.cons_append, token_cons_ne]
      intro hSame
      rw [hSame] at hDigit
      cases hDigit
    have hValue : (value.natAbs : Int) = value := by omega
    simp [scanNumber, hToken, hUnsigned, hValue]

end Json
