import Mathlib.Data.List.Basic
import Tfws.Data.Utf8

/-! Base64 with the usual alphabet, in full groups of four characters. The bits
of a last group that stand for nothing are not looked at. -/
namespace Base64

/-- The 64 characters in the order of the sextets they stand for. The padding
character is not among them. -/
def alphabet : List Char :=
  "ABCDEFGHIJKLMNOPQRSTUVWXYZabcdefghijklmnopqrstuvwxyz0123456789+/".toList

/-- The character for six bits. A number from 64 on has no character, and none of the
callers here passes one. -/
def digit (sextet : Nat) : Char := alphabet.getD sextet 'A'

/-- The six bits that a character stands for. -/
def sextet (c : Char) : Option Nat := alphabet.idxOf? c

def encode : Bytes → List Char
  | [] => []
  | [first] => [digit (first.toNat / 4), digit (first.toNat % 4 * 16), '=', '=']
  | [first, second] =>
      [digit (first.toNat / 4), digit (first.toNat % 4 * 16 + second.toNat / 16),
        digit (second.toNat % 16 * 4), '=']
  | first :: second :: third :: rest =>
      digit (first.toNat / 4) :: digit (first.toNat % 4 * 16 + second.toNat / 16) ::
        digit (second.toNat % 16 * 4 + third.toNat / 64) :: digit (third.toNat % 64) :: encode rest

/-- The octets of four characters, the last two of which may be signs of padding. -/
def group (first second third fourth : Char) : Option Bytes := do
  let high ← sextet first
  let next ← sextet second
  let octet := UInt8.ofNat (high * 4 + next / 16)
  if third = '=' ∧ fourth = '=' then some [octet]
  else do
    let low ← sextet third
    let middle := UInt8.ofNat (next % 16 * 16 + low / 4)
    if fourth = '=' then some [octet, middle]
    else do
      let last ← sextet fourth
      some [octet, middle, UInt8.ofNat (low % 4 * 64 + last)]

/-- The octets of a text in groups of four. Nothing may stand behind a padded group,
and no padding behind a full one: that is the documented strict mode of Python's
`binascii`, which CPython 3.11 and 3.12 do not enforce for the latter. -/
def decode : List Char → Option Bytes
  | [] => some []
  | first :: second :: third :: fourth :: rest => do
      let octets ← group first second third fourth
      if fourth = '=' ∧ rest ≠ [] then none
      else do
        let others ← decode rest
        some (octets ++ others)
  | _ => none

/-- A character of the alphabet is read as the sextet it was written for. -/
theorem sextet_digit {n : Nat} (h : n < 64) : sextet (digit n) = some n := by
  have hAll : ∀ n < 64, sextet (digit n) = some n := by decide +kernel
  exact hAll n h

/-- No sextet is written as padding, so that the first padding character of a group
ends the data. -/
theorem digit_ne_pad {n : Nat} (h : n < 64) : digit n ≠ '=' := by
  have hAll : ∀ n < 64, digit n ≠ '=' := by decide +kernel
  exact hAll n h

theorem ofNat_eq {octet : UInt8} {n : Nat} (h : n = octet.toNat) : UInt8.ofNat n = octet := by
  rw [h, UInt8.ofNat_toNat]

/-- What was encoded is decoded, for octets of any length. The converse fails: the
unused bits of a last group are not looked at. -/
@[simp] theorem decode_encode (octets : Bytes) : decode (encode octets) = some octets := by
  induction octets using encode.induct with
  | case1 => rfl
  | case2 first =>
      have hFirst := first.toNat_lt
      have hHigh := sextet_digit (show first.toNat / 4 < 64 by omega)
      have hLow := sextet_digit (show first.toNat % 4 * 16 < 64 by omega)
      have hOctet := ofNat_eq
        (show first.toNat / 4 * 4 + first.toNat % 4 * 16 / 16 = first.toNat by omega)
      simp only [encode, decode, group, hHigh, hLow, hOctet, Option.bind_eq_bind, Option.bind_some,
        and_self, if_true, ne_eq, not_true, and_false, if_false, List.append_nil]
  | case3 first second =>
      have hFirst := first.toNat_lt
      have hSecond := second.toNat_lt
      have hHigh := sextet_digit (show first.toNat / 4 < 64 by omega)
      have hNext := sextet_digit (show first.toNat % 4 * 16 + second.toNat / 16 < 64 by omega)
      have hLow := sextet_digit (show second.toNat % 16 * 4 < 64 by omega)
      have hPad := digit_ne_pad (show second.toNat % 16 * 4 < 64 by omega)
      have hOctet := ofNat_eq (show first.toNat / 4 * 4 +
        (first.toNat % 4 * 16 + second.toNat / 16) / 16 = first.toNat by omega)
      have hMiddle := ofNat_eq (show (first.toNat % 4 * 16 + second.toNat / 16) % 16 * 16 +
        second.toNat % 16 * 4 / 4 = second.toNat by omega)
      simp only [encode, decode, group, hHigh, hNext, hLow, hPad, hOctet, hMiddle,
        Option.bind_eq_bind, Option.bind_some, false_and, if_true, ne_eq, not_true, and_false,
        if_false, List.append_nil]
  | case4 first second third rest ih =>
      have hFirst := first.toNat_lt
      have hSecond := second.toNat_lt
      have hThird := third.toNat_lt
      have hHigh := sextet_digit (show first.toNat / 4 < 64 by omega)
      have hNext := sextet_digit (show first.toNat % 4 * 16 + second.toNat / 16 < 64 by omega)
      have hLow := sextet_digit (show second.toNat % 16 * 4 + third.toNat / 64 < 64 by omega)
      have hLast := sextet_digit (show third.toNat % 64 < 64 by omega)
      have hPad := digit_ne_pad (show third.toNat % 64 < 64 by omega)
      have hOctet := ofNat_eq (show first.toNat / 4 * 4 +
        (first.toNat % 4 * 16 + second.toNat / 16) / 16 = first.toNat by omega)
      have hMiddle := ofNat_eq (show (first.toNat % 4 * 16 + second.toNat / 16) % 16 * 16 +
        (second.toNat % 16 * 4 + third.toNat / 64) / 4 = second.toNat by omega)
      have hEnd := ofNat_eq (show (second.toNat % 16 * 4 + third.toNat / 64) % 4 * 64 +
        third.toNat % 64 = third.toNat by omega)
      simp only [encode, decode, group, hHigh, hNext, hLow, hLast, hPad, hOctet, hMiddle, hEnd, ih,
        Option.bind_eq_bind, Option.bind_some, and_false, false_and, if_false, List.cons_append,
        List.nil_append]

end Base64
