import Tfws.Cli.ConformanceFixture

/-! The digest with words as natural numbers. A proof that has to compute one
evaluates these definitions, whose operations the kernel performs on numerals. -/
namespace Tfws.Cli.Numbers

open Cbor

/-- The sum of two words, as `wrapping_add` reduces it. -/
def add (first second : Nat) : Nat := (first + second) % 4294967296

/-- Rotation of a word, whose two shifts do not overlap. -/
def rotateRight (word count : Nat) : Nat :=
  (word >>> count) ||| ((word <<< (32 - count)) % 4294967296)

/-- Makes the kernel reduce a number to a numeral before `result` copies it. -/
def force {α : Type} (number : Nat) (result : Nat → α) : α :=
  match number with
  | 0 => result 0
  | number + 1 => result (number + 1)

/-- The state of the loop over the blocks. -/
structure Registers where
  a : Nat
  b : Nat
  c : Nat
  d : Nat
  e : Nat
  f : Nat
  g : Nat
  h : Nat

def ofWords (state : Words) : Registers :=
  ⟨state.a.toNat, state.b.toNat, state.c.toNat, state.d.toNat,
   state.e.toNat, state.f.toNat, state.g.toNat, state.h.toNat⟩

/-- Puts the next words in front of the sixteen or more that are there. -/
def extend : Nat → List Nat → List Nat
  | 0, words => words
  | count + 1, words =>
      let w15 := words.getD 14 0
      let w2 := words.getD 1 0
      let s0 := rotateRight w15 7 ^^^ rotateRight w15 18 ^^^ (w15 >>> 3)
      let s1 := rotateRight w2 17 ^^^ rotateRight w2 19 ^^^ (w2 >>> 10)
      force (add (add (add (words.getD 15 0) s0) (words.getD 6 0)) s1)
        fun word => extend count (word :: words)

def messageSchedule (block : Bytes) : List Nat :=
  (extend 48 ((List.range 16).map fun index =>
    ofBigEndian ((block.drop (4 * index)).take 4) % 4294967296).reverse).reverse

def Registers.round (state : Registers) (constant word : Nat) : Registers :=
  let ⟨a, b, c, d, e, f, g, h⟩ := state
  let sigma1 := rotateRight e 6 ^^^ rotateRight e 11 ^^^ rotateRight e 25
  let choose := (e &&& f) ^^^ ((4294967295 - e) &&& g)
  let sigma0 := rotateRight a 2 ^^^ rotateRight a 13 ^^^ rotateRight a 22
  let majority := (a &&& b) ^^^ (a &&& c) ^^^ (b &&& c)
  force (Numbers.add (Numbers.add (Numbers.add (Numbers.add h sigma1) choose) constant) word)
    fun temp1 => force (Numbers.add temp1 (Numbers.add sigma0 majority))
      fun first => force (Numbers.add d temp1)
        fun fifth => ⟨first, a, b, c, fifth, e, f, g⟩

def Registers.add (state other : Registers) : Registers :=
  ⟨Numbers.add state.a other.a, Numbers.add state.b other.b, Numbers.add state.c other.c,
   Numbers.add state.d other.d, Numbers.add state.e other.e, Numbers.add state.f other.f,
   Numbers.add state.g other.g, Numbers.add state.h other.h⟩

def Registers.compress (state : Registers) (block : Bytes) : Registers :=
  state.add (((roundConstants.map UInt32.toNat).zip (messageSchedule block)).foldl
    (fun state (constant, word) => state.round constant word) state)

def Registers.toBeBytes (state : Registers) : Bytes :=
  bigEndian 4 state.a ++ bigEndian 4 state.b ++ bigEndian 4 state.c ++ bigEndian 4 state.d ++
    bigEndian 4 state.e ++ bigEndian 4 state.f ++ bigEndian 4 state.g ++ bigEndian 4 state.h

def digest (input : Bytes) : Bytes :=
  let octets := padded input
  let blocks := (List.range (octets.length / 64)).map fun index => (octets.drop (64 * index)).take 64
  (blocks.foldl Registers.compress (ofWords Words.initial)).toBeBytes

/-- The digest of octets that are computed once, and not for every block again. -/
def sha256 (input : Bytes) : Bytes :=
  force input.length fun length => force (ofBigEndian input) fun number =>
    digest (bigEndian length number)

theorem force_eq {α : Type} (number : Nat) (result : Nat → α) :
    force number result = result number := by
  cases number <;> rfl

theorem toNat_add (first second : UInt32) :
    (first + second).toNat = add first.toNat second.toNat := UInt32.toNat_add first second

theorem toNat_not (word : UInt32) : (~~~word).toNat = 4294967295 - word.toNat := UInt32.toNat_not word

/-- Rotation by a count that is neither zero nor the width of a word is the same on
numbers. -/
theorem toNat_rotateRight (word : UInt32) {count : UInt32} (hPositive : 0 < count.toNat)
    (hCount : count.toNat < 32) :
    (Cli.rotateRight word count).toNat = rotateRight word.toNat count.toNat := by
  have hLe : count ≤ 32 := UInt32.le_iff_toNat_le.mpr hCount.le
  have hRest : (32 - count).toNat = 32 - count.toNat := UInt32.toNat_sub_of_le _ _ hLe
  have hRestLt : 32 - count.toNat < 32 := by omega
  rw [Cli.rotateRight, rotateRight, UInt32.toNat_or, UInt32.toNat_shiftRight,
    UInt32.toNat_shiftLeft, hRest, Nat.mod_eq_of_lt hCount, Nat.mod_eq_of_lt hRestLt]

theorem bigSigma0_eq (word : UInt32) :
    (Cli.rotateRight word 2 ^^^ Cli.rotateRight word 13 ^^^ Cli.rotateRight word 22).toNat =
      rotateRight word.toNat 2 ^^^ rotateRight word.toNat 13 ^^^ rotateRight word.toNat 22 := by
  rw [UInt32.toNat_xor, UInt32.toNat_xor, toNat_rotateRight word (by decide) (by decide),
    toNat_rotateRight word (by decide) (by decide), toNat_rotateRight word (by decide) (by decide)]
  rfl

theorem bigSigma1_eq (word : UInt32) :
    (Cli.rotateRight word 6 ^^^ Cli.rotateRight word 11 ^^^ Cli.rotateRight word 25).toNat =
      rotateRight word.toNat 6 ^^^ rotateRight word.toNat 11 ^^^ rotateRight word.toNat 25 := by
  rw [UInt32.toNat_xor, UInt32.toNat_xor, toNat_rotateRight word (by decide) (by decide),
    toNat_rotateRight word (by decide) (by decide), toNat_rotateRight word (by decide) (by decide)]
  rfl

theorem smallSigma0_eq (word : UInt32) :
    (Cli.rotateRight word 7 ^^^ Cli.rotateRight word 18 ^^^ (word >>> 3)).toNat =
      rotateRight word.toNat 7 ^^^ rotateRight word.toNat 18 ^^^ (word.toNat >>> 3) := by
  rw [UInt32.toNat_xor, UInt32.toNat_xor, toNat_rotateRight word (by decide) (by decide),
    toNat_rotateRight word (by decide) (by decide), UInt32.toNat_shiftRight]
  rfl

theorem smallSigma1_eq (word : UInt32) :
    (Cli.rotateRight word 17 ^^^ Cli.rotateRight word 19 ^^^ (word >>> 10)).toNat =
      rotateRight word.toNat 17 ^^^ rotateRight word.toNat 19 ^^^ (word.toNat >>> 10) := by
  rw [UInt32.toNat_xor, UInt32.toNat_xor, toNat_rotateRight word (by decide) (by decide),
    toNat_rotateRight word (by decide) (by decide), UInt32.toNat_shiftRight]
  rfl

theorem ofWords_round (state : Words) (constant word : UInt32) :
    ofWords (state.round constant word) = (ofWords state).round constant.toNat word.toNat := by
  obtain ⟨a, b, c, d, e, f, g, h⟩ := state
  simp only [Words.round, ofWords, Registers.round, force_eq, toNat_add, bigSigma0_eq, bigSigma1_eq]
  simp only [UInt32.toNat_xor, UInt32.toNat_and, toNat_not]

theorem ofWords_add (state other : Words) :
    ofWords (state.add other) = (ofWords state).add (ofWords other) := by
  simp only [Words.add, ofWords, Registers.add, toNat_add]

/-- The body of the loop over the words of a block, as a function of its own for
evaluation. -/
def pushWord (words : Array UInt32) (index : Nat) : Array UInt32 :=
  let w15 := words[index - 15]!
  let w2 := words[index - 2]!
  let s0 := Cli.rotateRight w15 7 ^^^ Cli.rotateRight w15 18 ^^^ (w15 >>> 3)
  let s1 := Cli.rotateRight w2 17 ^^^ Cli.rotateRight w2 19 ^^^ (w2 >>> 10)
  words.push (words[index - 16]! + s0 + words[index - 7]! + s1)

/-- The words of an array as numbers, the last one first, which is how the evaluation
keeps them. -/
def reversed (words : Array UInt32) : List Nat := (words.toList.map UInt32.toNat).reverse

theorem getD_reversed {words : Array UInt32} {place : Nat} (h : place < words.size) :
    (reversed words).getD place 0 = words[words.size - (place + 1)]!.toNat := by
  have hIndex : words.size - (place + 1) < words.size := by omega
  have hPlace : words.size - 1 - place = words.size - (place + 1) := by omega
  rw [reversed, List.getD_eq_getElem?_getD, List.getElem?_reverse (by simpa using h)]
  simp [hIndex, hPlace]

theorem reversed_pushWord {words : Array UInt32} (h : 16 ≤ words.size) (count : Nat) :
    extend (count + 1) (reversed words) =
      extend count (reversed (pushWord words words.size)) := by
  have hPush (word : UInt32) : reversed (words.push word) = word.toNat :: reversed words := by
    simp [reversed]
  rw [extend, force_eq, pushWord, hPush]
  simp only [toNat_add, smallSigma0_eq, smallSigma1_eq]
  rw [getD_reversed (by omega), getD_reversed (by omega), getD_reversed (by omega),
    getD_reversed (by omega)]

/-- The loop over the words, with the words in reverse: the newest is at hand, and
those before it follow. -/
theorem extend_reversed (count : Nat) {words : Array UInt32} (h : 16 ≤ words.size) :
    extend count (reversed words) =
      reversed ((List.range' words.size count).foldl pushWord words) := by
  induction count generalizing words with
  | zero => rfl
  | succ count ih =>
      have hSize : (pushWord words words.size).size = words.size + 1 := by simp [pushWord]
      rw [reversed_pushWord h, List.range'_succ, List.foldl_cons, ← hSize]
      exact ih (by omega)

theorem messageSchedule_eq (block : Bytes) :
    messageSchedule block = (Cli.messageSchedule block).toList.map UInt32.toNat := by
  let read : Array UInt32 := ((List.range 16).map fun index =>
    UInt32.ofNat (ofBigEndian ((block.drop (4 * index)).take 4))).toArray
  have hRead : ((List.range 16).map fun index =>
      ofBigEndian ((block.drop (4 * index)).take 4) % 4294967296).reverse = reversed read := by
    simp [reversed, read]
  have hSize : read.size = 16 := by simp [read]
  have hLoop : Cli.messageSchedule block = (List.range' read.size 48).foldl pushWord read := by
    rw [hSize]
    rfl
  rw [messageSchedule, hRead, extend_reversed 48 hSize.ge, ← hLoop, reversed, List.reverse_reverse]

/-- The rounds of a block, on pairs of a constant and a word. -/
theorem ofWords_rounds (entries : List (UInt32 × UInt32)) (state : Words) :
    ofWords (entries.foldl (fun state (constant, word) => state.round constant word) state) =
      (entries.map (Prod.map UInt32.toNat UInt32.toNat)).foldl
        (fun state (constant, word) => state.round constant word) (ofWords state) := by
  induction entries generalizing state with
  | nil => rfl
  | cons entry rest ih =>
      rw [List.foldl_cons, ih, List.map_cons, List.foldl_cons, ofWords_round]
      rfl

theorem ofWords_compress (state : Words) (block : Bytes) :
    ofWords (state.compress block) = (ofWords state).compress block := by
  rw [Words.compress, Registers.compress, ofWords_add, ofWords_rounds, messageSchedule_eq,
    List.zip_map]

/-- The two digests are the same function, so that either may be computed where the
other is meant. -/
theorem sha256_eq (input : Bytes) : Cli.sha256 input = sha256 input := by
  have hBlocks (blocks : List Bytes) (state : Words) :
      blocks.foldl Registers.compress (ofWords state) =
        ofWords (blocks.foldl Words.compress state) :=
    List.foldl_hom ofWords fun state block => (ofWords_compress state block).symm
  rw [sha256, force_eq, force_eq, bigEndian_ofBigEndian, Cli.sha256, digest, hBlocks]
  rfl

end Tfws.Cli.Numbers
