import Tfws.Json.Value

/-! A reader stops where its value ends: an opening brace behind a text that is
a value changes nothing but what is left over, and the whole is no value. -/
namespace Json

section Lexical

variable {input behind : List Char}

theorem dropWhile_brace {test : Char → Bool} (h : test '{' = false) :
    (input ++ '{' :: behind).dropWhile test = input.dropWhile test ++ '{' :: behind := by
  rw [List.dropWhile_append]
  split_ifs with hAll
  · rw [List.isEmpty_iff.mp hAll, List.dropWhile_cons_of_neg (by simp [h]), List.nil_append]
  · rfl

theorem token_cons_append {c first : Char} {rest : List Char} :
    token c (first :: rest ++ behind) = (token c (first :: rest)).map (· ++ behind) := by
  rw [List.cons_append, token, token]
  split_ifs <;> rfl

theorem dropWhile_isDigit_brace : (input ++ '{' :: behind).dropWhile Char.isDigit =
    input.dropWhile Char.isDigit ++ '{' :: behind :=
  dropWhile_brace (by decide)

theorem takeWhile_brace {test : Char → Bool} (h : test '{' = false) :
    (input ++ '{' :: behind).takeWhile test = input.takeWhile test := by
  rw [List.takeWhile_append]
  split_ifs with hAll
  · rw [List.takeWhile_cons_of_neg (by simp [h]), List.append_nil]
    exact ((List.takeWhile_prefix test).eq_of_length hAll).symm
  · rfl

theorem skipSpaces_brace :
    skipSpaces (input ++ '{' :: behind) = skipSpaces input ++ '{' :: behind :=
  dropWhile_brace (by decide)

theorem token_brace {c : Char} (h : c ≠ '{') :
    token c (input ++ '{' :: behind) = (token c input).map (· ++ '{' :: behind) := by
  cases input with
  | nil => exact token_cons_ne h.symm behind
  | cons first rest => exact token_cons_append

theorem skipDigits_brace :
    skipDigits (input ++ '{' :: behind) = (skipDigits input).map (· ++ '{' :: behind) := by
  cases input with
  | nil => rfl
  | cons first rest =>
      rw [List.cons_append, skipDigits, skipDigits, dropWhile_isDigit_brace]
      split_ifs <;> rfl

theorem skipFraction_brace :
    skipFraction (input ++ '{' :: behind) = (skipFraction input).map (· ++ '{' :: behind) := by
  rw [skipFraction, token_brace (by decide), skipFraction]
  cases token '.' input with
  | none => rfl
  | some rest => exact skipDigits_brace

theorem skipExponent_brace :
    skipExponent (input ++ '{' :: behind) = (skipExponent input).map (· ++ '{' :: behind) := by
  have hMark : (token 'e' (input ++ '{' :: behind) <|> token 'E' (input ++ '{' :: behind)) =
      (token 'e' input <|> token 'E' input).map (· ++ '{' :: behind) := by
    rw [token_brace (by decide), token_brace (by decide)]
    cases token 'e' input <;> rfl
  have hSign (rest : List Char) :
      ((token '+' (rest ++ '{' :: behind) <|> token '-' (rest ++ '{' :: behind)).getD
        (rest ++ '{' :: behind)) =
      (token '+' rest <|> token '-' rest).getD rest ++ '{' :: behind := by
    rw [token_brace (by decide), token_brace (by decide)]
    cases token '+' rest with
    | some _ => rfl
    | none => cases token '-' rest <;> rfl
  rw [skipExponent, skipExponent, hMark]
  cases (token 'e' input <|> token 'E' input) with
  | none => rfl
  | some rest =>
      simp only [Option.map_some, Option.bind_eq_bind, Option.bind_some, hSign, skipDigits_brace]

theorem scanNat_brace : scanNat (input ++ '{' :: behind) =
    (scanNat input).map fun scanned => (scanned.1, scanned.2 ++ '{' :: behind) := by
  cases input with
  | nil => rfl
  | cons first rest =>
      have hTake : (first :: (rest ++ '{' :: behind)).takeWhile Char.isDigit =
          (first :: rest).takeWhile Char.isDigit :=
        @takeWhile_brace (first :: rest) behind Char.isDigit (by decide)
      have hDrop : (first :: (rest ++ '{' :: behind)).dropWhile Char.isDigit =
          (first :: rest).dropWhile Char.isDigit ++ '{' :: behind :=
        @dropWhile_isDigit_brace (first :: rest) behind
      rw [List.cons_append, scanNat, scanNat, hTake, hDrop]
      split_ifs <;> rfl

/-- A part that can be missing stops at the brace as well, whether it is there or
not. -/
theorem getD_brace {scan : List Char → Option (List Char)}
    (h : scan (input ++ '{' :: behind) = (scan input).map (· ++ '{' :: behind)) :
    (scan (input ++ '{' :: behind)).getD (input ++ '{' :: behind) =
      (scan input).getD input ++ '{' :: behind := by
  rw [h]
  cases scan input <;> rfl

theorem scanUnsigned_brace : scanUnsigned (input ++ '{' :: behind) =
    (scanUnsigned input).map fun scanned =>
      (scanned.1, scanned.2.1, scanned.2.2 ++ '{' :: behind) := by
  rw [scanUnsigned, scanUnsigned, scanNat_brace]
  cases scanNat input with
  | none => rfl
  | some scanned =>
      simp only [Option.map_some, Option.bind_eq_bind, Option.bind_some,
        getD_brace skipFraction_brace, getD_brace skipExponent_brace, List.length_append,
        Nat.add_right_cancel_iff]

/-- A number ends in front of the brace, just as it ends where the text does. -/
theorem scanNumber_brace : scanNumber (input ++ '{' :: behind) =
    (scanNumber input).map fun scanned => (scanned.1, scanned.2 ++ '{' :: behind) := by
  have hSign : (token '-' (input ++ '{' :: behind)).isSome = (token '-' input).isSome := by
    rw [token_brace (by decide), Option.isSome_map]
  rw [scanNumber, scanNumber, hSign, getD_brace (token_brace (by decide)), scanUnsigned_brace]
  cases hScan : scanUnsigned ((token '-' input).getD input) with
  | none => rfl
  | some scanned =>
      obtain ⟨value, isInt, rest⟩ := scanned
      have hText : (input ++ '{' :: behind).take
          ((input ++ '{' :: behind).length - (rest ++ '{' :: behind).length) =
            input.take (input.length - rest.length) := by
        rw [List.length_append, List.length_append, Nat.add_sub_add_right,
          List.take_append_of_le_length (Nat.sub_le _ _)]
      simp only [Option.map_some, Option.bind_eq_bind, Option.bind_some, hText]
      cases isInt <;> rfl

/-- A string that is closed ends at its closing quotation mark, whatever stands behind
it. An opening brace may also be part of a string, and so the string has to be closed
first. -/
theorem scanCodes_append {codes : List Nat} {rest : List Char}
    (h : scanCodes input = some (codes, rest)) (behind : List Char) :
    scanCodes (input ++ behind) = some (codes, rest ++ behind) := by
  fun_induction scanCodes input generalizing codes with
  | case1 => cases h
  | case2 tail =>
      obtain ⟨rfl, rfl⟩ := Prod.mk.inj (Option.some.inj h)
      rfl
  | case3 a b c d tail ih =>
      simp only [Option.bind_eq_bind, Option.bind_eq_some_iff, Prod.exists, Option.some.injEq,
        Prod.mk.injEq] at h
      obtain ⟨code, hCode, others, left, hOthers, rfl, rfl⟩ := h
      simp only [List.cons_append, scanCodes, hCode, ih hOthers, Option.bind_eq_bind,
        Option.bind_some]
  | case4 c tail hNot ih =>
      simp only [Option.bind_eq_bind, Option.bind_eq_some_iff, Prod.exists, Option.some.injEq,
        Prod.mk.injEq] at h
      obtain ⟨code, hCode, others, left, hOthers, rfl, rfl⟩ := h
      have hLetter : c ≠ 'u' := by
        rintro rfl
        cases hCode
      rw [List.cons_append, List.cons_append, scanCodes, hCode, ih hOthers]
      · rfl
      · exact fun _ _ _ _ _ hSame => absurd hSame hLetter
  | case5 => cases h
  | case6 c tail hQuote _ hBackslash hControl ih =>
      simp only [Option.bind_eq_bind, Option.bind_eq_some_iff, Prod.exists, Option.some.injEq,
        Prod.mk.injEq] at h
      obtain ⟨others, left, hOthers, rfl, rfl⟩ := h
      have hPlain : c ≠ '\\' := by
        rintro rfl
        cases tail with
        | nil => cases hOthers
        | cons first rest => exact hBackslash first rest rfl rfl
      rw [List.cons_append, scanCodes, if_neg hControl, ih hOthers]
      · rfl
      · exact hQuote
      · exact fun _ _ _ _ _ hSame => absurd hSame hPlain
      · exact fun _ _ hSame => absurd hSame hPlain

theorem scanString_append {text : Option String} {rest : List Char}
    (h : scanString input = some (text, rest)) (behind : List Char) :
    scanString (input ++ behind) = some (text, rest ++ behind) := by
  obtain ⟨⟨codes, left⟩, hCodes, hSame⟩ := Option.map_eq_some_iff.mp h
  obtain ⟨rfl, rfl⟩ := Prod.mk.inj hSame
  rw [scanString, scanCodes_append hCodes, Option.map_some]

end Lexical

namespace Value

section Nested

variable {input behind : List Char}

theorem keyword_brace {word : List Char} (h : '{' ∉ word) :
    keyword word (input ++ '{' :: behind) = (keyword word input).map (· ++ '{' :: behind) := by
  induction word generalizing input with
  | nil => rfl
  | cons c word ih =>
      obtain ⟨hFirst, hRest⟩ := not_or.mp (mt List.mem_cons.mpr h)
      rw [keyword, keyword, token_brace (Ne.symm hFirst)]
      cases token c input with
      | none => rfl
      | some rest => exact ih hRest

theorem scanLiteral_brace : scanLiteral (input ++ '{' :: behind) =
    (scanLiteral input).map fun scanned => (scanned.1, scanned.2 ++ '{' :: behind) := by
  have hWords : ∀ entry ∈ literals, '{' ∉ entry.1 := by decide
  unfold scanLiteral
  generalize literals = words at hWords
  induction words with
  | nil => rfl
  | cons entry rest ih =>
      obtain ⟨hEntry, hRest⟩ := List.forall_mem_cons.mp hWords
      rw [List.findSome?_cons, List.findSome?_cons, keyword_brace hEntry]
      cases keyword entry.1 input with
      | none => exact ih hRest
      | some _ => rfl

/-- A scalar ends in front of the brace, since no literal and no number goes on with
one. -/
theorem scanScalar_brace : scanScalar (input ++ '{' :: behind) =
    (scanScalar input).map fun scanned => (scanned.1, scanned.2 ++ '{' :: behind) := by
  rw [scanScalar, scanScalar, scanLiteral_brace, scanNumber_brace]
  cases scanLiteral input with
  | some _ => rfl
  | none => cases scanNumber input <;> rfl

/-- A reader that succeeds does so with more fuel and with a brace behind the
text, and leaves the brace over. -/
def StopsAtBrace {α : Type} (read : Nat → List Char → Option (α × List Char)) (fuel : Nat) : Prop :=
  ∀ {input rest : List Char} {result : α} {more : Nat} (behind : List Char),
    read fuel input = some (result, rest) → fuel ≤ more →
      read more (input ++ '{' :: behind) = some (result, rest ++ '{' :: behind)

theorem parseValue_brace {fuel : Nat} (hItems : StopsAtBrace parseItems fuel)
    (hFields : StopsAtBrace parseFields fuel) : StopsAtBrace parseValue (fuel + 1) := by
  intro input rest value more behind h hMore
  obtain ⟨more, rfl⟩ := Nat.exists_eq_add_of_le' hMore
  have hMore : fuel ≤ more + fuel := Nat.le_add_left _ _
  cases input with
  | nil => cases h
  | cons first tail =>
      rw [← Nat.add_assoc, parseValue]
      rw [parseValue] at h
      simp only [token_cons_append]
      cases hQuote : token '"' (first :: tail) with
      | some opened =>
          simp only [hQuote, Option.map_eq_some_iff, Prod.exists, Prod.mk.injEq] at h
          obtain ⟨text, left, hText, rfl, rfl⟩ := h
          simp only [Option.map_some, scanString_append hText]
      | none =>
          cases hBracket : token '[' (first :: tail) with
          | some opened =>
              simp only [hQuote, hBracket] at h
              simp only [Option.map_none, Option.map_some, skipSpaces_brace,
                token_brace (show ']' ≠ '{' by decide)]
              cases hClose : token ']' (skipSpaces opened) with
              | some left =>
                  simp only [hClose, Option.some.injEq, Prod.mk.injEq] at h
                  obtain ⟨rfl, rfl⟩ := h
                  rfl
              | none =>
                  simp only [hClose, Option.map_eq_some_iff, Prod.exists, Prod.mk.injEq] at h
                  obtain ⟨items, left, hRead, rfl, rfl⟩ := h
                  simp only [Option.map_none, hItems behind hRead hMore, Option.map_some]
          | none =>
              cases hBrace : token '{' (first :: tail) with
              | some opened =>
                  simp only [hQuote, hBracket, hBrace] at h
                  simp only [Option.map_none, Option.map_some, skipSpaces_brace,
                    token_brace (show '}' ≠ '{' by decide)]
                  cases hClose : token '}' (skipSpaces opened) with
                  | some left =>
                      simp only [hClose, Option.some.injEq, Prod.mk.injEq] at h
                      obtain ⟨rfl, rfl⟩ := h
                      rfl
                  | none =>
                      simp only [hClose, Option.map_eq_some_iff, Prod.exists, Prod.mk.injEq] at h
                      obtain ⟨fields, left, hRead, rfl, rfl⟩ := h
                      simp only [Option.map_none, hFields behind hRead hMore, Option.map_some]
              | none =>
                  simp only [hQuote, hBracket, hBrace] at h
                  simp only [Option.map_none, scanScalar_brace, h, Option.map_some]

theorem parseItems_brace {fuel : Nat} (hValue : StopsAtBrace parseValue fuel)
    (hItems : StopsAtBrace parseItems fuel) : StopsAtBrace parseItems (fuel + 1) := by
  intro input rest items more behind h hMore
  obtain ⟨more, rfl⟩ := Nat.exists_eq_add_of_le' hMore
  have hMore : fuel ≤ more + fuel := Nat.le_add_left _ _
  rw [parseItems, Option.bind_eq_bind, Option.bind_eq_some_iff] at h
  obtain ⟨⟨item, left⟩, hItem, h⟩ := h
  rw [← Nat.add_assoc, parseItems, hValue behind hItem hMore, Option.bind_eq_bind, Option.bind_some]
  simp only [skipSpaces_brace, token_brace (show ',' ≠ '{' by decide),
    token_brace (show ']' ≠ '{' by decide)]
  cases hComma : token ',' (skipSpaces left) with
  | some next =>
      simp only [hComma, Option.bind_eq_bind, Option.bind_eq_some_iff, Prod.exists,
        Option.some.injEq, Prod.mk.injEq] at h
      obtain ⟨others, last, hOthers, rfl, rfl⟩ := h
      simp only [Option.map_some, skipSpaces_brace, hItems behind hOthers hMore,
        Option.bind_eq_bind, Option.bind_some]
  | none =>
      simp only [hComma, Option.bind_eq_bind, Option.bind_eq_some_iff, 
        Option.some.injEq, Prod.mk.injEq] at h
      obtain ⟨last, hClose, rfl, rfl⟩ := h
      simp only [hClose, Option.map_none, Option.map_some, Option.bind_eq_bind, Option.bind_some]

theorem parseFields_brace {fuel : Nat} (hValue : StopsAtBrace parseValue fuel)
    (hFields : StopsAtBrace parseFields fuel) : StopsAtBrace parseFields (fuel + 1) := by
  intro input rest fields more behind h hMore
  obtain ⟨more, rfl⟩ := Nat.exists_eq_add_of_le' hMore
  have hMore : fuel ≤ more + fuel := Nat.le_add_left _ _
  rw [parseFields] at h
  rw [← Nat.add_assoc, parseFields]
  simp only [Option.bind_eq_bind, Option.bind_eq_some_iff, Prod.exists] at h
  obtain ⟨opened, hOpen, name, named, hName, colon, hColon, value, left, hLeft, h⟩ := h
  simp only [token_brace (show '"' ≠ '{' by decide), hOpen, Option.map_some, Option.bind_eq_bind,
    Option.bind_some, scanString_append hName, skipSpaces_brace,
    token_brace (show ':' ≠ '{' by decide), hColon, hValue behind hLeft hMore,
    token_brace (show ',' ≠ '{' by decide), token_brace (show '}' ≠ '{' by decide)]
  cases hComma : token ',' (skipSpaces left) with
  | some next =>
      simp only [hComma, Option.bind_eq_some_iff, Prod.exists,
        Option.some.injEq, Prod.mk.injEq] at h
      obtain ⟨others, last, hOthers, rfl, rfl⟩ := h
      simp only [Option.map_some, skipSpaces_brace, hFields behind hOthers hMore, Option.bind_some]
  | none =>
      simp only [hComma, Option.bind_eq_some_iff, Option.some.injEq, Prod.mk.injEq] at h
      obtain ⟨last, hClose, rfl, rfl⟩ := h
      simp only [hClose, Option.map_none, Option.map_some, Option.bind_some]

/-- All three readers stop at the brace, for any fuel: the three are proved together,
as they call each other. -/
theorem stopsAtBrace (fuel : Nat) : StopsAtBrace parseValue fuel ∧ StopsAtBrace parseItems fuel ∧
    StopsAtBrace parseFields fuel := by
  induction fuel with
  | zero =>
      refine ⟨?_, ?_, ?_⟩
      · intro _ _ _ _ _ h
        cases h
      · intro _ _ _ _ _ h
        cases h
      · intro _ _ _ _ _ h
        cases h
  | succ fuel ih =>
      obtain ⟨hValue, hItems, hFields⟩ := ih
      exact ⟨parseValue_brace hItems hFields, parseItems_brace hValue hItems,
        parseFields_brace hValue hFields⟩

/-- What begins with a value and goes on with a brace is no value: reading it leaves
the brace over. -/
theorem parse_brace {value : Value} (h : parse input = some value) (behind : List Char) :
    parse (input ++ '{' :: behind) = none := by
  simp only [parse, Option.bind_eq_bind, Option.bind_eq_some_iff, Prod.exists] at h
  obtain ⟨read, rest, hRead, -⟩ := h
  have hLonger := (stopsAtBrace _).1 behind hRead
    (show 2 * input.length + 1 ≤ 2 * (input ++ '{' :: behind).length + 1 by
      rw [List.length_append]; omega)
  have hLeft : skipSpaces (rest ++ '{' :: behind) ≠ [] := by
    rw [skipSpaces_brace]
    exact List.append_ne_nil_of_right_ne_nil _ (List.cons_ne_nil _ _)
  rw [parse, skipSpaces_brace, hLonger, Option.bind_eq_bind, Option.bind_some]
  exact if_neg hLeft

/-- No value starts with the character, leading white space apart. Every value starts
with one of a few others. -/
def CannotStart (c : Char) : Prop :=
  c.isDigit = false ∧ c ∉ ['"', '[', '{', 'n', 't', 'f', 'N', 'I', '-']

theorem CannotStart.scanScalar_eq {c : Char} (h : CannotStart c) (rest : List Char) :
    scanScalar (c :: rest) = none := by
  obtain ⟨hDigit, hOthers⟩ := h
  simp only [List.mem_cons, List.not_mem_nil, or_false, not_or] at hOthers
  obtain ⟨-, -, -, hNull, hTrue, hFalse, hNan, hInfinity, hMinus⟩ := hOthers
  have hLiteral : scanLiteral (c :: rest) = none := by
    simp only [scanLiteral, literals, List.findSome?_cons, List.findSome?_nil,
      keyword_of_ne hNull, keyword_of_ne hTrue, keyword_of_ne hFalse, keyword_of_ne hNan,
      keyword_of_ne hInfinity, keyword_of_ne hMinus, Option.map_none]
  have hZero : c ≠ '0' := by
    intro hSame
    subst hSame
    cases hDigit
  have hNumber : scanNumber (c :: rest) = none := by
    simp [scanNumber, token_cons_ne hMinus, scanUnsigned, scanNat, hZero, hDigit]
  rw [scanScalar, hLiteral, hNumber, Option.map_none]

/-- What begins so is not read, whatever follows: the parser refuses at its first
character. -/
theorem CannotStart.parse_eq {c : Char} {rest : List Char} (h : CannotStart c)
    (hInput : skipSpaces input = c :: rest) : parse input = none := by
  have hOthers := h.2
  simp only [List.mem_cons, List.not_mem_nil, or_false, not_or] at hOthers
  obtain ⟨hQuote, hBracket, hBrace, -⟩ := hOthers
  rw [parse, hInput, parseValue, token_cons_ne hQuote, token_cons_ne hBracket, token_cons_ne hBrace]
  simp only [h.scanScalar_eq, Option.bind_eq_bind, Option.bind_none]

end Nested

end Value

end Json
