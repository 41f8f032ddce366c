import Mathlib.Data.List.Lex
import Mathlib.Data.String.Basic

/-! UTF-16 code units, and how their order differs from that of code points. -/
namespace Utf16

/-- One unit, or a surrogate pair for a character beyond U+FFFF. -/
def encodeChar (c : Char) : List Nat :=
  if c.toNat < 0x10000 then [c.toNat]
  else [0xD800 + (c.toNat - 0x10000) / 0x400, 0xDC00 + (c.toNat - 0x10000) % 0x400]

/-- The code units of a text, one or two for each character. -/
def encode (text : List Char) : List Nat := text.flatMap encodeChar

/-- U+E000 to U+FFFF: one unit, that comes after all surrogates. These characters are
ordered differently by units and by code points. -/
def afterSurrogates (c : Char) : Bool := 0xE000 ≤ c.toNat && c.toNat < 0x10000

/-- A character outside the basic plane, which takes a pair of surrogates. -/
def supplementary (c : Char) : Bool := 0x10000 ≤ c.toNat

/-- Where the texts differ first, one has a character from U+E000 to U+FFFF and
the other one beyond that. -/
def crossed : List Char → List Char → Bool
  | c :: first, d :: second =>
      if c = d then crossed first second
      else (afterSurrogates c && supplementary d) || (supplementary c && afterSurrogates d)
  | _, _ => false

theorem crossed_self (text : List Char) : crossed text text = false := by
  induction text with
  | nil => rfl
  | cons c rest ih => rw [crossed, if_pos rfl, ih]

theorem crossed_comm (first second : List Char) : crossed first second = crossed second first := by
  induction first generalizing second with
  | nil => cases second <;> rfl
  | cons c first ih =>
      cases second with
      | nil => rfl
      | cons d second =>
          rw [crossed, crossed, ih]
          by_cases hSame : c = d
          · rw [if_pos hSame, if_pos hSame.symm]
          · rw [if_neg hSame, if_neg (Ne.symm hSame), Bool.or_comm, Bool.and_comm,
              Bool.and_comm (afterSurrogates c)]

theorem append_lt_append_iff (units first second : List Nat) :
    units ++ first < units ++ second ↔ first < second := by
  induction units with
  | nil => exact Iff.rfl
  | cons unit units ih => simp [ih]

/-- Two different characters decide the order, whatever stands behind them. The order
of their units is that of their code points, or else the opposite if the two cross. -/
theorem encodeChar_append_lt {c d : Char} (h : c ≠ d) (first second : List Nat) :
    encodeChar c ++ first < encodeChar d ++ second ↔
      if crossed [c] [d] then d < c else c < d := by
  have hNat : c.toNat ≠ d.toNat := fun hSame => h (Char.toNat_inj.mp hSame)
  have hFirst : c.toNat < 0xD800 ∨ 0xDFFF < c.toNat ∧ c.toNat < 0x110000 := c.valid
  have hSecond : d.toNat < 0xD800 ∨ 0xDFFF < d.toNat ∧ d.toNat < 0x110000 := d.valid
  have hLt (a b : Char) : a < b ↔ a.toNat < b.toNat := Iff.rfl
  rw [crossed, if_neg h, hLt, hLt]
  simp only [afterSurrogates, supplementary, Bool.or_eq_true, Bool.and_eq_true, decide_eq_true_eq]
  unfold encodeChar
  by_cases hBasic : c.toNat < 0x10000
  · by_cases hOther : d.toNat < 0x10000
    · rw [if_pos hBasic, if_pos hOther, if_neg (by omega), List.singleton_append,
        List.singleton_append, List.cons_lt_cons_iff]
      omega
    · rw [if_pos hBasic, if_neg hOther, List.singleton_append, List.cons_append,
        List.cons_lt_cons_iff]
      split_ifs <;> omega
  · by_cases hOther : d.toNat < 0x10000
    · rw [if_neg hBasic, if_pos hOther, List.singleton_append, List.cons_append,
        List.cons_lt_cons_iff]
      split_ifs <;> omega
    · rw [if_neg hBasic, if_neg hOther, if_neg (by omega)]
      simp only [List.cons_append, List.cons_lt_cons_iff]
      omega

/-- The two orders agree on texts that do not cross, and are opposite on those that
do. So which of the orders a program sorts by is seen exactly at texts that cross. -/
theorem encode_lt_encode_iff (first second : List Char) :
    encode first < encode second ↔
      if crossed first second then second < first else first < second := by
  induction first generalizing second with
  | nil =>
      cases second with
      | nil => simp [crossed, encode]
      | cons d second =>
          have hUnits : encodeChar d ≠ [] := by
            unfold encodeChar
            split_ifs <;> simp
          obtain ⟨unit, units, hUnits⟩ := List.exists_cons_of_ne_nil hUnits
          simp [crossed, encode, hUnits]
  | cons c first ih =>
      cases second with
      | nil => simp [crossed, encode]
      | cons d second =>
          have hSplit (e : Char) (rest : List Char) :
              encode (e :: rest) = encodeChar e ++ encode rest := List.flatMap_cons
          rw [hSplit, hSplit]
          by_cases hSame : c = d
          · subst hSame
            rw [append_lt_append_iff, ih, crossed, if_pos rfl]
            simp
          · rw [encodeChar_append_lt hSame, crossed, if_neg hSame, crossed, if_neg hSame]
            simp [List.cons_lt_cons_iff, hSame, Ne.symm hSame]

end Utf16
