import Tfws.Cbor.Head
import Mathlib.Data.Nat.Bitwise

/-! Bit strings, the most significant bit first, and how octets are read as
bits and numbers as octets. -/
namespace Bits

open Cbor

/-- The last `width` binary digits of a number. -/
def binary : Nat → Nat → List Bool
  | 0, _ => []
  | width + 1, value => value.testBit width :: binary width value

/-- The number that binary digits write, the most significant one first. Leading zeros
are allowed and count for nothing. -/
def value (digits : List Bool) : Nat :=
  digits.foldl (fun value digit => 2 * value + digit.toNat) 0

/-- The bits of octets, eight to each, in the order in which they are sent. -/
def ofBytes (octets : Bytes) : List Bool := octets.flatMap fun octet => binary 8 octet.toNat

@[simp] theorem length_binary (width value : Nat) : (binary width value).length = width := by
  induction width with
  | zero => rfl
  | succ width ih => rw [binary, List.length_cons, ih]

@[simp] theorem length_ofBytes (octets : Bytes) : (ofBytes octets).length = 8 * octets.length := by
  induction octets with
  | nil => rfl
  | cons octet rest ih =>
      rw [ofBytes, List.flatMap_cons, List.length_append, length_binary, List.length_cons]
      rw [ofBytes] at ih
      omega

theorem ofBytes_cons (octet : UInt8) (rest : Bytes) :
    ofBytes (octet :: rest) = binary 8 octet.toNat ++ ofBytes rest :=
  List.flatMap_cons

theorem ofBytes_append (first second : Bytes) :
    ofBytes (first ++ second) = ofBytes first ++ ofBytes second :=
  List.flatMap_append

theorem ofBytes_drop (octets : Bytes) (count : Nat) :
    ofBytes (octets.drop count) = (ofBytes octets).drop (8 * count) := by
  induction octets generalizing count with
  | nil => simp [ofBytes]
  | cons octet rest ih =>
      cases count with
      | zero => rfl
      | succ count =>
          have hStep : 8 * (count + 1) = (binary 8 octet.toNat).length + 8 * count := by
            rw [length_binary]
            omega
          rw [List.drop_succ_cons, ofBytes_cons, hStep, List.drop_length_add_append, ih]

theorem ofBytes_take (octets : Bytes) (count : Nat) :
    ofBytes (octets.take count) = (ofBytes octets).take (8 * count) := by
  induction octets generalizing count with
  | nil => simp [ofBytes]
  | cons octet rest ih =>
      cases count with
      | zero => rfl
      | succ count =>
          have hStep : 8 * (count + 1) = (binary 8 octet.toNat).length + 8 * count := by
            rw [length_binary]
            omega
          rw [List.take_succ_cons, ofBytes_cons, ofBytes_cons, hStep, List.take_length_add_append,
            ih]

/-- Only the bits below the width are written. -/
theorem binary_congr {width first second : Nat}
    (h : ∀ index < width, first.testBit index = second.testBit index) :
    binary width first = binary width second := by
  induction width with
  | zero => rfl
  | succ width ih =>
      rw [binary, binary, h width (Nat.lt_succ_self width),
        ih fun index hIndex => h index (Nat.lt_succ_of_lt hIndex)]

/-- The digits of a number fall into those of its high part and those of its low
part. -/
theorem binary_add (high low value : Nat) :
    binary (high + low) value = binary high (value / 2 ^ low) ++ binary low value := by
  induction high with
  | zero => rw [Nat.zero_add]; rfl
  | succ high ih =>
      rw [Nat.succ_add_eq_add_succ, Nat.add_succ, binary, ih, binary, Nat.testBit_div_two_pow,
        List.cons_append]

/-- Reducing a number by at least the width does not change its digits. -/
theorem binary_mod {width value modulus : Nat} (h : width ≤ modulus) :
    binary width (value % 2 ^ modulus) = binary width value := by
  apply binary_congr
  intro index hIndex
  rw [Nat.testBit_mod_two_pow, decide_eq_true (hIndex.trans_le h), Bool.true_and]

/-- Octets in network order are the binary digits in groups of eight, also where the
number is too large for them and loses its high bits. -/
theorem ofBytes_bigEndian (width value : Nat) :
    ofBytes (bigEndian width value) = binary (8 * width) value := by
  induction width with
  | zero => rfl
  | succ width ih =>
      have hWidth : 8 * (width + 1) = 8 + 8 * width := by omega
      have hPow : 256 ^ width = 2 ^ (8 * width) := by rw [Nat.pow_mul]
      have hOctet : (UInt8.ofNat (value / 256 ^ width)).toNat = value / 2 ^ (8 * width) % 2 ^ 8 := by
        rw [UInt8.toNat_ofNat', hPow]
      rw [bigEndian, ofBytes_cons, ih, hOctet, binary_mod (Nat.le_refl 8), hWidth, binary_add]

theorem value_append (digits : List Bool) (digit : Bool) :
    value (digits ++ [digit]) = 2 * value digits + digit.toNat := by
  simp [value]

/-- Writing a number in a width and reading the digits again reduces it to that
width. -/
theorem value_binary (width number : Nat) : value (binary width number) = number % 2 ^ width := by
  induction width generalizing number with
  | zero => rw [pow_zero, Nat.mod_one]; rfl
  | succ width ih =>
      have hLast : binary 1 number = [number.testBit 0] := rfl
      rw [binary_add, pow_one, hLast, value_append, ih, Nat.testBit_zero, pow_succ', Nat.mod_mul]
      rcases Nat.mod_two_eq_zero_or_one number with hEven | hOdd
      · rw [hEven]
        simp
      · rw [hOdd]
        simp [Nat.add_comm]

/-- The bits of octets write the number that the octets write: bitwise and octetwise
reading agree. -/
theorem value_ofBytes (octets : Bytes) : value (ofBytes octets) = ofBigEndian octets := by
  have hLt := ofBigEndian_lt octets
  have hPow : 256 ^ octets.length = 2 ^ (8 * octets.length) := by rw [Nat.pow_mul]
  calc
    value (ofBytes octets) = value (ofBytes (bigEndian octets.length (ofBigEndian octets))) := by
      rw [bigEndian_ofBigEndian]
    _ = ofBigEndian octets % 2 ^ (8 * octets.length) := by
      rw [ofBytes_bigEndian, value_binary]
    _ = ofBigEndian octets := Nat.mod_eq_of_lt (hPow ▸ hLt)

end Bits
