import Tfws.Data.Bits
import Mathlib.Data.Nat.NthRoot.Defs
import Mathlib.Data.Nat.Prime.Basic

/-! SHA-256 as the secure hash standard FIPS 180-4 defines it, on strings of
bits. The constants come from the roots of the first primes, as there. -/
namespace SecureHash

open Bits

/-- A word of 32 bits. Addition is modulo `2 ^ 32`, as the standard has it. -/
abbrev Word := BitVec 32

/-- `Ch`: the first word chooses, bit by bit, between the other two. -/
def ch (x y z : Word) : Word := (x &&& y) ^^^ (~~~x &&& z)

/-- `Maj`: each bit is the one that at least two of the three words have. -/
def maj (x y z : Word) : Word := (x &&& y) ^^^ (x &&& z) ^^^ (y &&& z)

/-- `Σ₀` of the standard, three rotations of the word, added without carry. -/
def bigSigma0 (x : Word) : Word := x.rotateRight 2 ^^^ x.rotateRight 13 ^^^ x.rotateRight 22

/-- `Σ₁` of the standard, three rotations of the word, added without carry. -/
def bigSigma1 (x : Word) : Word := x.rotateRight 6 ^^^ x.rotateRight 11 ^^^ x.rotateRight 25

/-- `σ₀` of the standard. Its last summand is a shift, which loses bits, and not a
rotation. -/
def smallSigma0 (x : Word) : Word := x.rotateRight 7 ^^^ x.rotateRight 18 ^^^ (x >>> 3)

/-- `σ₁` of the standard. Its last summand is a shift, which loses bits, and not a
rotation. -/
def smallSigma1 (x : Word) : Word := x.rotateRight 17 ^^^ x.rotateRight 19 ^^^ (x >>> 10)

/-- The first sixty-four primes, the largest of which is 311, by filtering. -/
def primes : List Nat := (List.range 312).filter fun n => Nat.Prime n

/-- The first 32 bits of the fractional part of a root. -/
def fractionalRoot (degree number : Nat) : Word :=
  BitVec.ofNat 32 (Nat.nthRoot degree (number * 2 ^ (32 * degree)))

/-- `K`, from the cube roots of the first sixty-four primes, as the standard defines
it and not as a table. -/
def constants : List Word := primes.map (fractionalRoot 3)

/-- Below `361` no divisor beyond `17` has to be tried. The definition asks `Nat.Prime`,
whose own test is too slow to evaluate for every number of the range. -/
theorem prime_iff_of_lt {n : Nat} (h : n < 361) :
    Nat.Prime n ↔ 2 ≤ n ∧ ∀ divisor ∈ [2, 3, 5, 7, 11, 13, 17], divisor = n ∨ n % divisor ≠ 0 := by
  constructor
  · intro hPrime
    refine ⟨hPrime.two_le, fun divisor hMem => ?_⟩
    by_contra hDivides
    obtain ⟨hNe, hMod⟩ := not_or.mp hDivides
    rcases (Nat.dvd_prime hPrime).mp (Nat.dvd_of_mod_eq_zero (not_not.mp hMod)) with hOne | hSame
    · rw [hOne] at hMem
      exact absurd hMem (by decide)
    · exact hNe hSame
  · intro ⟨hTwo, hNone⟩
    by_contra hComposite
    have hPrime : n.minFac.Prime := Nat.minFac_prime (by omega)
    have hSquare : n.minFac ^ 2 < 19 ^ 2 :=
      (Nat.minFac_sq_le_self (by omega) hComposite).trans_lt h
    have hSmall : ∀ divisor < 19, divisor.Prime → divisor ∈ [2, 3, 5, 7, 11, 13, 17] := by
      decide
    rcases hNone _ (hSmall _ (lt_of_pow_lt_pow_left₀ 2 (by decide) hSquare) hPrime) with
      hSame | hMod
    · exact hComposite (hSame ▸ hPrime)
    · exact hMod (Nat.mod_eq_zero_of_dvd n.minFac_dvd)

theorem primes_eq : primes = (List.range 312).filter fun n =>
    2 ≤ n ∧ ∀ divisor ∈ [2, 3, 5, 7, 11, 13, 17], divisor = n ∨ n % divisor ≠ 0 := by
  apply List.filter_congr
  intro n hMem
  exact decide_eq_decide.mpr (prime_iff_of_lt ((List.mem_range.mp hMem).trans (by decide)))

/-- Some number of zeros fills a block up to the place of the length. -/
theorem exists_zeroCount (length : Nat) : ∃ count, (length + 1 + count) % 512 = 448 :=
  ⟨(447 + 511 * length) % 512, by omega⟩

/-- The smallest number of zeros that leaves room for the length. -/
def zeroCount (length : Nat) : Nat := Nat.find (exists_zeroCount length)

/-- The padded message: a one, the zeros, and the length as 64 bits. -/
def pad (message : List Bool) : List Bool :=
  message ++ [true] ++ List.replicate (zeroCount message.length) false ++ binary 64 message.length

/-- The blocks of 512 bits. A padded message has no rest that they would leave out. -/
def blocks (padded : List Bool) : List (List Bool) :=
  (List.range (padded.length / 512)).map fun index => (padded.drop (512 * index)).take 512

/-- Word `index` of a block, the most significant bit first. -/
def blockWord (block : List Bool) (index : Nat) : Word :=
  BitVec.ofNat 32 (value ((block.drop (32 * index)).take 32))

/-- `W`, the message schedule: the sixteen words of the block, and from there on each
word from four earlier ones. -/
def schedule (block : List Bool) (t : Nat) : Word :=
  if t < 16 then blockWord block t
  else smallSigma1 (schedule block (t - 2)) + schedule block (t - 7) +
    smallSigma0 (schedule block (t - 15)) + schedule block (t - 16)

/-- The working variables, and also a hash value, which consists of as many words. -/
@[ext] structure Variables where
  a : Word
  b : Word
  c : Word
  d : Word
  e : Word
  f : Word
  g : Word
  h : Word

/-- The initial hash value, from the square roots of the first eight primes. -/
def initial : Variables :=
  ⟨fractionalRoot 2 2, fractionalRoot 2 3, fractionalRoot 2 5, fractionalRoot 2 7,
   fractionalRoot 2 11, fractionalRoot 2 13, fractionalRoot 2 17, fractionalRoot 2 19⟩

namespace Variables

/-- One round, with the constant and the word of the schedule. -/
def round (working : Variables) (constant word : Word) : Variables :=
  let t1 := working.h + bigSigma1 working.e + ch working.e working.f working.g + constant + word
  let t2 := bigSigma0 working.a + maj working.a working.b working.c
  { a := t1 + t2, b := working.a, c := working.b, d := working.c,
    e := working.d + t1, f := working.e, g := working.f, h := working.g }

/-- The sums of the working variables and the hash value so far, word by word. -/
def add (first second : Variables) : Variables :=
  ⟨first.a + second.a, first.b + second.b, first.c + second.c, first.d + second.d,
   first.e + second.e, first.f + second.f, first.g + second.g, first.h + second.h⟩

/-- The hash value after one more block: sixty-four rounds on the working variables,
which are then added to the value before. -/
def next (hash : Variables) (block : List Bool) : Variables :=
  hash.add ((List.range 64).foldl
    (fun working t => working.round (constants.getD t 0) (schedule block t)) hash)

/-- The words of a hash value one after the other, as the bits of the digest. -/
def digits (hash : Variables) : List Bool :=
  [hash.a, hash.b, hash.c, hash.d, hash.e, hash.f, hash.g, hash.h].flatMap fun word =>
    binary 32 word.toNat

end Variables

/-- The message digest of any string of bits, not only of one that consists of
octets. -/
def sha256 (message : List Bool) : List Bool :=
  ((blocks (pad message)).foldl Variables.next initial).digits

end SecureHash
