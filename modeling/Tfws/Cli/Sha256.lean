import Tfws.Cli.ConformanceFixture
import Tfws.Data.SecureHash

/-! The loops of the hand-written `sha256`, with every access to a slice or an
array checked. No access fails, and the result is the digest of the standard. -/
namespace Tfws.Cli

open Cbor Bits

/-- `while padded.len() % 64 != 56`, which adds one zero at a time. -/
def fillZeros (padded : Bytes) : Bytes :=
  if padded.length % 64 = 56 then padded else fillZeros (padded ++ [0])
termination_by (120 - padded.length % 64) % 64
decreasing_by
  rw [List.length_append, List.length_singleton]
  omega

/-- The word of four octets of a block, or nothing where the slice would reach outside
it. -/
def readWord (block : Bytes) (offset : Nat) : Option UInt32 := do
  let first ← block[offset]?
  let second ← block[offset + 1]?
  let third ← block[offset + 2]?
  let fourth ← block[offset + 3]?
  some (UInt32.ofNat (ofBigEndian [first, second, third, fourth]))

/-- `words[index] = word`, which panics where there is no such place. The panic is the
missing value. -/
def store (words : Array UInt32) (index : Nat) (word : UInt32) : Option (Array UInt32) :=
  if index < words.size then some (words.setIfInBounds index word) else none

/-- The loop over the first sixteen words, with every access to block and array
checked. -/
def readWords (block : Bytes) (words : Array UInt32) : Option (Array UInt32) :=
  (List.range 16).foldlM (fun words index => do
    let word ← readWord block (index * 4)
    store words index word) words

/-- One turn of the loop over the other words, with the four accesses of the source in
their order. -/
def extendWord (words : Array UInt32) (index : Nat) : Option (Array UInt32) := do
  let w15 ← words[index - 15]?
  let s0 := rotateRight w15 7 ^^^ rotateRight w15 18 ^^^ (w15 >>> 3)
  let w2 ← words[index - 2]?
  let s1 := rotateRight w2 17 ^^^ rotateRight w2 19 ^^^ (w2 >>> 10)
  let w16 ← words[index - 16]?
  let w7 ← words[index - 7]?
  store words index (w16 + s0 + w7 + s1)

/-- The loop over the rounds, with every access to the constants and the words
checked. -/
def runRounds (words : Array UInt32) (state : Words) : Option Words :=
  (List.range 64).foldlM (fun state index => do
    let constant ← roundConstants[index]?
    let word ← words[index]?
    some (state.round constant word)) state

/-- The body of the loop over the blocks: read, extend, run the rounds, and add. -/
def processBlock (state : Words) (block : Bytes) : Option Words := do
  let words ← readWords block (Array.replicate 64 0)
  let words ← (List.range' 16 48).foldlM extendWord words
  let working ← runRounds words state
  some (state.add working)

/-- `padded.chunks_exact(64)`, which leaves a shorter rest out. Behind the padding
there is none. -/
def chunksExact (padded : Bytes) : List Bytes :=
  (List.range (padded.length / 64)).map fun index => (padded.drop (64 * index)).take 64

/-- `sha256`, where nothing stands for an access out of range. The model without
checks is compared with it. -/
def sha256Checked (input : Bytes) : Option Bytes := do
  let padded := fillZeros (input ++ [0x80]) ++
    bigEndian 8 (input.length * 8 % 18446744073709551616)
  let state ← (chunksExact padded).foldlM processBlock Words.initial
  some state.toBeBytes

/-- The words of the code as those of the standard, which are bit vectors of 32
bits. -/
def Words.variables (state : Words) : SecureHash.Variables :=
  ⟨state.a.toBitVec, state.b.toBitVec, state.c.toBitVec, state.d.toBitVec,
   state.e.toBitVec, state.f.toBitVec, state.g.toBitVec, state.h.toBitVec⟩

/-- The source's rotations are those of the standard, which rotates bit vectors. -/
theorem bigSigma0_eq (word : UInt32) :
    (rotateRight word 2).toBitVec ^^^ (rotateRight word 13).toBitVec ^^^
      (rotateRight word 22).toBitVec = SecureHash.bigSigma0 word.toBitVec := by
  simp [rotateRight, SecureHash.bigSigma0, BitVec.rotateRight_def]

theorem bigSigma1_eq (word : UInt32) :
    (rotateRight word 6).toBitVec ^^^ (rotateRight word 11).toBitVec ^^^
      (rotateRight word 25).toBitVec = SecureHash.bigSigma1 word.toBitVec := by
  simp [rotateRight, SecureHash.bigSigma1, BitVec.rotateRight_def]

theorem smallSigma0_eq (word : UInt32) :
    (rotateRight word 7).toBitVec ^^^ (rotateRight word 18).toBitVec ^^^ (word >>> 3).toBitVec =
      SecureHash.smallSigma0 word.toBitVec := by
  simp [rotateRight, SecureHash.smallSigma0, BitVec.rotateRight_def]

theorem smallSigma1_eq (word : UInt32) :
    (rotateRight word 17).toBitVec ^^^ (rotateRight word 19).toBitVec ^^^ (word >>> 10).toBitVec =
      SecureHash.smallSigma1 word.toBitVec := by
  simp [rotateRight, SecureHash.smallSigma1, BitVec.rotateRight_def]

/-- A round of the source is a round of the standard, addition for addition. -/
theorem variables_round (state : Words) (constant word : UInt32) :
    (state.round constant word).variables =
      state.variables.round constant.toBitVec word.toBitVec := by
  obtain ⟨a, b, c, d, e, f, g, h⟩ := state
  simp only [Words.round, Words.variables, SecureHash.Variables.round, UInt32.toBitVec_add,
    bigSigma0_eq, bigSigma1_eq, UInt32.toBitVec_xor, UInt32.toBitVec_and, UInt32.toBitVec_not,
    SecureHash.ch, SecureHash.maj]

theorem variables_add (first second : Words) :
    (first.add second).variables = first.variables.add second.variables := rfl

/-- The source starts from the words that the standard derives from square roots. -/
theorem variables_initial : Words.initial.variables = SecureHash.initial := by
  apply SecureHash.Variables.ext <;> decide

/-- The table of the source holds the constants that the standard derives from cube
roots. -/
theorem constants_eq : SecureHash.constants = roundConstants.map UInt32.toBitVec := by
  rw [SecureHash.constants, SecureHash.primes_eq]
  decide +kernel

variable {block : Bytes} {words : Array UInt32} {state : Words}

/-- A word of the schedule of a block, as the code holds it. -/
def scheduleWord (block : Bytes) (t : Nat) : UInt32 :=
  UInt32.ofBitVec (SecureHash.schedule (ofBytes block) t)

/-- The first words of the array are those of the schedule, and there are that many of
them. The invariant of both loops. -/
def Scheduled (block : Bytes) (count : Nat) (words : Array UInt32) : Prop :=
  ∀ t < count, words[t]? = some (scheduleWord block t)

theorem scheduleWord_of_lt {t : Nat} (h : t < 16) : scheduleWord block t =
    UInt32.ofNat (ofBigEndian ((block.drop (4 * t)).take 4)) := by
  apply UInt32.toBitVec_inj.mp
  rw [scheduleWord, SecureHash.schedule, if_pos h, SecureHash.blockWord]
  have hBits : ((ofBytes block).drop (32 * t)).take 32 =
      ofBytes ((block.drop (4 * t)).take 4) := by
    rw [ofBytes_take, ofBytes_drop, ← Nat.mul_assoc]
  rw [hBits, value_ofBytes]
  rfl

/-- The recurrence of the standard is the one the loop computes, with the terms in
another order. -/
theorem scheduleWord_of_le {t : Nat} (h : 16 ≤ t) : scheduleWord block t =
    scheduleWord block (t - 16) +
      (rotateRight (scheduleWord block (t - 15)) 7 ^^^
        rotateRight (scheduleWord block (t - 15)) 18 ^^^ (scheduleWord block (t - 15) >>> 3)) +
      scheduleWord block (t - 7) +
      (rotateRight (scheduleWord block (t - 2)) 17 ^^^
        rotateRight (scheduleWord block (t - 2)) 19 ^^^ (scheduleWord block (t - 2) >>> 10)) := by
  apply UInt32.toBitVec_inj.mp
  simp only [UInt32.toBitVec_add, UInt32.toBitVec_xor, smallSigma0_eq, smallSigma1_eq]
  simp only [scheduleWord]
  rw [SecureHash.schedule, if_neg (not_lt.mpr h)]
  ac_rfl

/-- A loop over consecutive indices keeps an invariant that each turn keeps, and
reaches its end. -/
theorem foldlM_range' {σ : Type} {step : σ → Nat → Option σ} (Invariant : Nat → σ → Prop)
    {start count : Nat} {state : σ} (hStart : Invariant start state)
    (hStep : ∀ index state, start ≤ index → index < start + count → Invariant index state →
      ∃ next, step state index = some next ∧ Invariant (index + 1) next) :
    ∃ final, (List.range' start count).foldlM step state = some final ∧
      Invariant (start + count) final := by
  induction count generalizing start state with
  | zero => exact ⟨state, rfl, hStart⟩
  | succ count ih =>
      obtain ⟨next, hNext, hInvariant⟩ := hStep start state le_rfl (by omega) hStart
      obtain ⟨final, hFinal, hEnd⟩ := ih hInvariant fun index state hLe hLt =>
        hStep index state (by omega) (by omega)
      refine ⟨final, ?_, ?_⟩
      · rw [List.range'_succ, List.foldlM_cons, hNext]
        exact hFinal
      · rwa [Nat.add_right_comm, Nat.add_assoc] at hEnd

theorem foldl_range' {σ : Type} {step : σ → Nat → σ} (Invariant : Nat → σ → Prop)
    {start count : Nat} {state : σ} (hStart : Invariant start state)
    (hStep : ∀ index state, start ≤ index → index < start + count → Invariant index state →
      Invariant (index + 1) (step state index)) :
    Invariant (start + count) ((List.range' start count).foldl step state) := by
  have hSome : ∀ index state, start ≤ index → index < start + count → Invariant index state →
      ∃ next, (pure (step state index) : Option σ) = some next ∧ Invariant (index + 1) next :=
    fun index state hLe hLt h => ⟨_, rfl, hStep index state hLe hLt h⟩
  obtain ⟨final, hFinal, hEnd⟩ := foldlM_range' Invariant hStart hSome
  rw [List.foldlM_pure] at hFinal
  rwa [← Option.some.inj hFinal] at hEnd

theorem store_eq {index : Nat} (h : index < words.size) (word : UInt32) :
    store words index word = some (words.setIfInBounds index word) :=
  if_pos h

/-- Storing the next word of the schedule keeps those before it, for they stand at
other places. -/
theorem Scheduled.store {count : Nat} (h : Scheduled block count words) (hSize : count < words.size) :
    Scheduled block (count + 1) (words.setIfInBounds count (scheduleWord block count)) := by
  intro t hLt
  rcases Nat.lt_succ_iff_lt_or_eq.mp hLt with hBefore | hSame
  · rw [Array.getElem?_setIfInBounds_ne hBefore.ne', h t hBefore]
  · rw [hSame, Array.getElem?_setIfInBounds_self_of_lt hSize]

theorem readWord_eq {offset : Nat} (h : offset + 4 ≤ block.length) :
    readWord block offset = some (UInt32.ofNat (ofBigEndian ((block.drop offset).take 4))) := by
  rw [readWord, List.getElem?_eq_getElem (by omega), List.getElem?_eq_getElem (by omega),
    List.getElem?_eq_getElem (by omega), List.getElem?_eq_getElem (by omega),
    List.drop_eq_getElem_cons (by omega), List.drop_eq_getElem_cons (by omega),
    List.drop_eq_getElem_cons (by omega), List.drop_eq_getElem_cons (by omega)]
  rfl

/-- The first sixteen words are read from the block, and no access is out of range. -/
theorem readWords_eq (hLength : block.length = 64) (hSize : words.size = 64) :
    ∃ final, readWords block words = some final ∧ Scheduled block 16 final ∧ final.size = 64 := by
  have hStep : ∀ index words, 0 ≤ index → index < 0 + 16 →
      Scheduled block index words ∧ words.size = 64 →
      ∃ next, (do let word ← readWord block (index * 4); store words index word) = some next ∧
        Scheduled block (index + 1) next ∧ next.size = 64 := by
    intro index words _ hLt h
    obtain ⟨hScheduled, hSize⟩ := h
    have hWord : readWord block (index * 4) = some (scheduleWord block index) := by
      rw [readWord_eq (by omega), scheduleWord_of_lt (by omega), Nat.mul_comm]
    rw [hWord]
    refine ⟨_, store_eq (by omega) _, hScheduled.store (by omega), ?_⟩
    rw [Array.size_setIfInBounds, hSize]
  rw [readWords, List.range_eq_range']
  exact foldlM_range' (fun index words => Scheduled block index words ∧ words.size = 64)
    ⟨fun t hLt => absurd hLt (Nat.not_lt_zero t), hSize⟩ hStep

theorem extendWord_eq {index : Nat} (hLe : 16 ≤ index) (h : Scheduled block index words)
    (hSize : index < words.size) :
    extendWord words index =
      some (words.setIfInBounds index (scheduleWord block index)) := by
  rw [extendWord, h (index - 15) (by omega), h (index - 2) (by omega), h (index - 16) (by omega),
    h (index - 7) (by omega), scheduleWord_of_le hLe]
  exact store_eq hSize _

/-- The other words are computed from those before them, and no access is out of
range. -/
theorem extendWords_eq (h : Scheduled block 16 words) (hSize : words.size = 64) :
    ∃ final, (List.range' 16 48).foldlM extendWord words = some final ∧
      Scheduled block 64 final := by
  have hStep : ∀ index words, 16 ≤ index → index < 16 + 48 →
      Scheduled block index words ∧ words.size = 64 →
      ∃ next, extendWord words index = some next ∧
        Scheduled block (index + 1) next ∧ next.size = 64 := by
    intro index words hLe hLt h
    obtain ⟨hScheduled, hSize⟩ := h
    refine ⟨_, extendWord_eq hLe hScheduled (by omega), hScheduled.store (by omega), ?_⟩
    rw [Array.size_setIfInBounds, hSize]
  obtain ⟨final, hFinal, hScheduled, -⟩ := foldlM_range'
    (fun index words => Scheduled block index words ∧ words.size = 64) ⟨h, hSize⟩ hStep
  exact ⟨final, hFinal, hScheduled⟩

theorem constants_getD (t : Nat) :
    SecureHash.constants.getD t 0 = (roundConstants.getD t 0).toBitVec := by
  rw [constants_eq, List.getD_eq_getElem?_getD, List.getD_eq_getElem?_getD, List.getElem?_map]
  cases roundConstants[t]? <;> rfl

theorem roundConstants_getElem? {t : Nat} (h : t < 64) :
    roundConstants[t]? = some (roundConstants.getD t 0) := by
  have hLength : roundConstants.length = 64 := by decide
  rw [List.getD_eq_getElem?_getD, List.getElem?_eq_getElem (by omega), Option.getD_some]

/-- The rounds of the standard up to an index: the invariant of the loop over the
rounds. -/
def roundsUpTo (block : Bytes) (hash : SecureHash.Variables) (count : Nat) :
    SecureHash.Variables :=
  (List.range count).foldl (fun working t => working.round (SecureHash.constants.getD t 0)
    (SecureHash.schedule (ofBytes block) t)) hash

theorem roundsUpTo_succ (hash : SecureHash.Variables) (count : Nat) :
    roundsUpTo block hash (count + 1) = (roundsUpTo block hash count).round
      (SecureHash.constants.getD count 0) (SecureHash.schedule (ofBytes block) count) := by
  rw [roundsUpTo, List.range_succ, List.foldl_append]
  rfl

/-- The rounds are those of the standard, and no access is out of range. -/
theorem runRounds_eq (h : Scheduled block 64 words) (state : Words) :
    ∃ final, runRounds words state = some final ∧
      final.variables = roundsUpTo block state.variables 64 := by
  have hStep : ∀ index working, 0 ≤ index → index < 0 + 64 →
      Words.variables working = roundsUpTo block state.variables index →
      ∃ next, (do
          let constant ← roundConstants[index]?
          let word ← words[index]?
          some (working.round constant word)) = some next ∧
        next.variables = roundsUpTo block state.variables (index + 1) := by
    intro index working _ hLt hWorking
    refine ⟨working.round (roundConstants.getD index 0) (scheduleWord block index), ?_, ?_⟩
    · rw [roundConstants_getElem? (by omega), h index (by omega)]
      rfl
    · rw [variables_round, hWorking, roundsUpTo_succ, constants_getD]
      rfl
  rw [runRounds, List.range_eq_range']
  exact foldlM_range' (fun index working =>
    Words.variables working = roundsUpTo block state.variables index) rfl hStep

/-- One block is processed as the standard says, and no access on the way is out of
range. -/
theorem processBlock_eq (hLength : block.length = 64) (state : Words) :
    ∃ next, processBlock state block = some next ∧
      next.variables = state.variables.next (ofBytes block) := by
  obtain ⟨read, hRead, hFirst, hSize⟩ := readWords_eq hLength (Array.size_replicate (v := 0))
  obtain ⟨extended, hExtended, hAll⟩ := extendWords_eq hFirst hSize
  obtain ⟨working, hWorking, hRounds⟩ := runRounds_eq hAll state
  refine ⟨state.add working, ?_, ?_⟩
  · rw [processBlock, hRead]
    simp only [Option.bind_eq_bind, Option.bind_some, hExtended, hWorking]
  · rw [variables_add, hRounds]
    rfl

variable {input : Bytes}

/-- The loop adds as many zeros as it takes, and ends: their number is the distance to
the next place where the length fits. -/
theorem fillZeros_eq (padded : Bytes) :
    fillZeros padded = padded ++ List.replicate ((120 - padded.length % 64) % 64) 0 := by
  induction padded using fillZeros.induct with
  | case1 padded h =>
      rw [fillZeros, if_pos h, h]
      simp
  | case2 padded h ih =>
      have hCount : (120 - padded.length % 64) % 64 =
          (120 - (padded ++ [0]).length % 64) % 64 + 1 := by
        rw [List.length_append, List.length_singleton]
        omega
      rw [fillZeros, if_neg h, ih, hCount, List.replicate_succ, List.append_assoc]
      rfl

theorem padded_eq (input : Bytes) :
    fillZeros (input ++ [0x80]) ++ bigEndian 8 (input.length * 8 % 18446744073709551616) =
      padded input := by
  have hCount : (120 - (input ++ [0x80]).length % 64) % 64 = (119 - input.length % 64) % 64 := by
    rw [List.length_append, List.length_singleton]
    omega
  rw [fillZeros_eq, hCount]
  rfl

theorem ofBytes_zeros (count : Nat) :
    ofBytes (List.replicate count 0) = List.replicate (8 * count) false := by
  induction count with
  | zero => rfl
  | succ count ih =>
      have hZero : binary 8 (0 : UInt8).toNat = List.replicate 8 false := by decide
      rw [List.replicate_succ, ofBytes_cons, ih, hZero, Nat.mul_succ, Nat.add_comm,
        List.replicate_add]

theorem zeroCount_eq (length : Nat) :
    SecureHash.zeroCount (8 * length) = 7 + 8 * ((119 - length % 64) % 64) := by
  rw [SecureHash.zeroCount, Nat.find_eq_iff]
  constructor
  · omega
  · intro count hLt hCount
    omega

/-- The padded octets are the padded bits of the standard, as long as the length in
bits fits its field. -/
theorem ofBytes_padded (h : input.length < 2 ^ 61) :
    ofBytes (padded input) = SecureHash.pad (ofBytes input) := by
  have hMarker : ofBytes [0x80] = true :: List.replicate 7 false := by decide
  have hLength : input.length * 8 % 18446744073709551616 = 8 * input.length := by omega
  rw [padded, SecureHash.pad, length_ofBytes, zeroCount_eq, hLength, ofBytes_append, ofBytes_append,
    ofBytes_append, ofBytes_bigEndian, hMarker, ofBytes_zeros, List.replicate_add]
  simp only [List.append_assoc, List.cons_append, List.nil_append]

/-- The chunks of the octets are the blocks of the bits, so that both sides go through
the same blocks. -/
theorem chunksExact_bits (octets : Bytes) :
    (chunksExact octets).map ofBytes = SecureHash.blocks (ofBytes octets) := by
  have hCount : 8 * octets.length / 512 = octets.length / 64 := by omega
  rw [chunksExact, SecureHash.blocks, List.map_map, length_ofBytes, hCount]
  apply List.map_congr_left
  intro index _
  have hStart : 8 * (64 * index) = 512 * index := by omega
  rw [Function.comp_apply, ofBytes_take, ofBytes_drop, hStart]

theorem length_of_mem_chunksExact {octets : Bytes} (h : block ∈ chunksExact octets) :
    block.length = 64 := by
  obtain ⟨index, hIndex, rfl⟩ := List.mem_map.mp h
  have hLt := List.mem_range.mp hIndex
  rw [List.length_take, List.length_drop]
  omega

theorem ofBytes_toBeBytes (state : Words) :
    ofBytes state.toBeBytes = state.variables.digits := by
  simp only [Words.toBeBytes, ofBytes_append, ofBytes_bigEndian, SecureHash.Variables.digits,
    Words.variables, List.flatMap_cons, List.flatMap_nil, List.append_nil, List.append_assoc]
  rfl

theorem Scheduled.getElem! {count t : Nat} (h : Scheduled block count words) (hLt : t < count) :
    words[t]! = scheduleWord block t := by
  rw [Array.getElem!_eq_getD, Array.getD_eq_getD_getElem?, h t hLt, Option.getD_some]

theorem Scheduled.push {count : Nat} (h : Scheduled block count words) (hSize : words.size = count) :
    Scheduled block (count + 1) (words.push (scheduleWord block count)) := by
  intro t hLt
  rw [Array.getElem?_push, hSize]
  split_ifs with hSame
  · rw [hSame]
  · exact h t (by omega)

theorem Scheduled.recurrence {index : Nat} (h : Scheduled block index words) (hLe : 16 ≤ index) :
    words[index - 16]! +
        (rotateRight words[index - 15]! 7 ^^^ rotateRight words[index - 15]! 18 ^^^
          (words[index - 15]! >>> 3)) + words[index - 7]! +
        (rotateRight words[index - 2]! 17 ^^^ rotateRight words[index - 2]! 19 ^^^
          (words[index - 2]! >>> 10)) = scheduleWord block index := by
  rw [h.getElem! (by omega), h.getElem! (by omega), h.getElem! (by omega), h.getElem! (by omega),
    ← scheduleWord_of_le hLe]

theorem scheduled_messageSchedule (block : Bytes) :
    Scheduled block 64 (messageSchedule block) ∧ (messageSchedule block).size = 64 := by
  have hStart : Scheduled block 16 ((List.range 16).map fun index =>
      UInt32.ofNat (ofBigEndian ((block.drop (4 * index)).take 4))).toArray := by
    intro t hLt
    rw [List.getElem?_toArray, List.getElem?_map, List.getElem?_range hLt, Option.map_some,
      scheduleWord_of_lt hLt]
  have hCount : 64 = 16 + 48 := rfl
  rw [messageSchedule, hCount]
  refine foldl_range' (fun index words => Scheduled block index words ∧ words.size = index)
    ⟨hStart, by simp⟩ ?_
  intro index words hLe _ h
  obtain ⟨hScheduled, hSize⟩ := h
  simp only [hScheduled.recurrence hLe, Array.size_push, hSize, and_true]
  exact hScheduled.push hSize

theorem toList_messageSchedule (block : Bytes) :
    (messageSchedule block).toList = (List.range 64).map (scheduleWord block) := by
  obtain ⟨hScheduled, hSize⟩ := scheduled_messageSchedule block
  apply List.ext_getElem?
  intro t
  rw [Array.getElem?_toList]
  by_cases hLt : t < 64
  · rw [hScheduled t hLt, List.getElem?_map, List.getElem?_range hLt, Option.map_some]
  · rw [Array.getElem?_eq_none (by omega), List.getElem?_eq_none (by simpa using hLt)]

theorem roundConstants_eq :
    roundConstants = (List.range 64).map fun t => roundConstants.getD t 0 := by
  decide

theorem variables_injective {first second : Words} (h : first.variables = second.variables) :
    first = second := by
  obtain ⟨a, b, c, d, e, f, g, h'⟩ := first
  obtain ⟨a', b', c', d', e', f', g', h''⟩ := second
  simp only [Words.variables, SecureHash.Variables.mk.injEq, UInt32.toBitVec_inj] at h
  simp only [h]

theorem variables_compress (state : Words) (block : Bytes) :
    (state.compress block).variables = state.variables.next (ofBytes block) := by
  have hRounds : (roundConstants.zip (messageSchedule block).toList) =
      (List.range 64).map fun t => (roundConstants.getD t 0, scheduleWord block t) := by
    rw [toList_messageSchedule, ← List.zip_map', ← roundConstants_eq]
  have hStep (working : Words) (t : Nat) :
      working.variables.round (SecureHash.constants.getD t 0)
          (SecureHash.schedule (ofBytes block) t) =
        (working.round (roundConstants.getD t 0) (scheduleWord block t)).variables := by
    rw [variables_round, constants_getD]
    rfl
  rw [Words.compress, variables_add, hRounds, List.foldl_map, SecureHash.Variables.next]
  exact congrArg (state.variables.add ·) (List.foldl_hom Words.variables hStep).symm

theorem processBlock_eq_compress (hLength : block.length = 64) (state : Words) :
    processBlock state block = some (state.compress block) := by
  obtain ⟨next, hNext, hVariables⟩ := processBlock_eq hLength state
  rw [hNext, variables_injective (hVariables.trans (variables_compress state block).symm)]

theorem foldlM_processBlock {chunks : List Bytes} (h : ∀ block ∈ chunks, block.length = 64)
    (state : Words) : chunks.foldlM processBlock state = some (chunks.foldl Words.compress state) := by
  induction chunks generalizing state with
  | nil => rfl
  | cons block rest ih =>
      obtain ⟨hBlock, hRest⟩ := List.forall_mem_cons.mp h
      rw [List.foldlM_cons, processBlock_eq_compress hBlock, List.foldl_cons, Option.bind_eq_bind,
        Option.bind_some, ih hRest]

/-- No access is out of range on any input, and the checked loops compute the
digest. -/
theorem sha256Checked_eq (input : Bytes) : sha256Checked input = some (sha256 input) := by
  have hLengths : ∀ block ∈ chunksExact (padded input), block.length = 64 :=
    fun block hMem => length_of_mem_chunksExact hMem
  rw [sha256Checked, padded_eq]
  simp only [foldlM_processBlock hLengths, Option.bind_eq_bind, Option.bind_some]
  rfl

/-- The digest is that of the standard, bit for bit, as long as the length fits into
its field. -/
theorem ofBytes_sha256 (h : input.length < 2 ^ 61) :
    ofBytes (sha256 input) = SecureHash.sha256 (ofBytes input) := by
  have hBlocks (state : Words) (chunks : List Bytes) :
      (chunks.foldl Words.compress state).variables =
        (chunks.map ofBytes).foldl SecureHash.Variables.next state.variables := by
    rw [List.foldl_map]
    exact (List.foldl_hom Words.variables fun state block => (variables_compress state block).symm).symm
  rw [SecureHash.sha256, ← ofBytes_padded h, ← chunksExact_bits, ← variables_initial, ← hBlocks,
    ← ofBytes_toBeBytes]
  rfl

/-- The hand-written digest is the one of the standard, and none of its loops
reaches outside a slice or an array. From `2 ^ 61` octets on, the standard defines
no digest. -/
theorem sha256_standard (input : Bytes) (h : input.length < 2 ^ 61) :
    sha256Checked input = some (sha256 input) ∧
      ofBytes (sha256 input) = SecureHash.sha256 (ofBytes input) :=
  ⟨sha256Checked_eq input, ofBytes_sha256 h⟩

theorem sha256_standard_abc :
    sha256Checked [0x61, 0x62, 0x63] = some (sha256 [0x61, 0x62, 0x63]) ∧
      ofBytes (sha256 [0x61, 0x62, 0x63]) = SecureHash.sha256 (ofBytes [0x61, 0x62, 0x63]) :=
  sha256_standard [0x61, 0x62, 0x63] (by decide)

end Tfws.Cli
