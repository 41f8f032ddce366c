import Tfws.Cbor.Head
import Tfws.Core.Cose

/-! The conformance verifier of `tfws-cli`: a fixture in place of a signature,
the SHA-256 digest of the message repeated to the length that is due. -/
namespace Tfws.Cli

open Fallible Cbor

/-- `state`, the eight words of the digest so far, with the arithmetic of 32 bits. -/
structure Words where
  a : UInt32
  b : UInt32
  c : UInt32
  d : UInt32
  e : UInt32
  f : UInt32
  g : UInt32
  h : UInt32

/-- `INITIAL`, the words in front of the first block, as the standard has them. -/
def Words.initial : Words :=
  ⟨0x6a09e667, 0xbb67ae85, 0x3c6ef372, 0xa54ff53a, 0x510e527f, 0x9b05688c, 0x1f83d9ab, 0x5be0cd19⟩

/-- `ROUND`, one word for each of the 64 rounds. -/
def roundConstants : List UInt32 :=
  [0x428a2f98, 0x71374491, 0xb5c0fbcf, 0xe9b5dba5, 0x3956c25b, 0x59f111f1, 0x923f82a4, 0xab1c5ed5,
   0xd807aa98, 0x12835b01, 0x243185be, 0x550c7dc3, 0x72be5d74, 0x80deb1fe, 0x9bdc06a7, 0xc19bf174,
   0xe49b69c1, 0xefbe4786, 0x0fc19dc6, 0x240ca1cc, 0x2de92c6f, 0x4a7484aa, 0x5cb0a9dc, 0x76f988da,
   0x983e5152, 0xa831c66d, 0xb00327c8, 0xbf597fc7, 0xc6e00bf3, 0xd5a79147, 0x06ca6351, 0x14292967,
   0x27b70a85, 0x2e1b2138, 0x4d2c6dfc, 0x53380d13, 0x650a7354, 0x766a0abb, 0x81c2c92e, 0x92722c85,
   0xa2bfe8a1, 0xa81a664b, 0xc24b8b70, 0xc76c51a3, 0xd192e819, 0xd6990624, 0xf40e3585, 0x106aa070,
   0x19a4c116, 0x1e376c08, 0x2748774c, 0x34b0bcb5, 0x391c0cb3, 0x4ed8aa4a, 0x5b9cca4f, 0x682e6ff3,
   0x748f82ee, 0x78a5636f, 0x84c87814, 0x8cc70208, 0x90befffa, 0xa4506ceb, 0xbef9a3f7, 0xc67178f2]

/-- `rotate_right`, for counts that are neither zero nor the width of a word. -/
def rotateRight (word count : UInt32) : UInt32 := (word >>> count) ||| (word <<< (32 - count))

/-- `words`: sixteen from the block, the others from those before them. The accesses
are those of the source; that none is out of range is proved apart. -/
def messageSchedule (block : Bytes) : Array UInt32 :=
  let read : Array UInt32 := ((List.range 16).map fun index =>
    UInt32.ofNat (ofBigEndian ((block.drop (4 * index)).take 4))).toArray
  (List.range' 16 48).foldl (fun words index =>
    let w15 := words[index - 15]!
    let w2 := words[index - 2]!
    let s0 := rotateRight w15 7 ^^^ rotateRight w15 18 ^^^ (w15 >>> 3)
    let s1 := rotateRight w2 17 ^^^ rotateRight w2 19 ^^^ (w2 >>> 10)
    words.push (words[index - 16]! + s0 + words[index - 7]! + s1)) read

/-- One round of the compression function, with the temporaries of the source under
their names. -/
def Words.round (state : Words) (constant word : UInt32) : Words :=
  let ⟨a, b, c, d, e, f, g, h⟩ := state
  let sigma1 := rotateRight e 6 ^^^ rotateRight e 11 ^^^ rotateRight e 25
  let choose := (e &&& f) ^^^ (~~~e &&& g)
  let temp1 := h + sigma1 + choose + constant + word
  let sigma0 := rotateRight a 2 ^^^ rotateRight a 13 ^^^ rotateRight a 22
  let majority := (a &&& b) ^^^ (a &&& c) ^^^ (b &&& c)
  let temp2 := sigma0 + majority
  ⟨temp1 + temp2, a, b, c, d + temp1, e, f, g⟩

/-- The eight additions at the end of a block, each modulo `2 ^ 32`. -/
def Words.add (state other : Words) : Words :=
  ⟨state.a + other.a, state.b + other.b, state.c + other.c, state.d + other.d,
   state.e + other.e, state.f + other.f, state.g + other.g, state.h + other.h⟩

/-- The body of the loop over the blocks: the schedule, the rounds, and the
additions. -/
def Words.compress (state : Words) (block : Bytes) : Words :=
  state.add ((roundConstants.zip (messageSchedule block).toList).foldl
    (fun state (constant, word) => state.round constant word) state)

/-- `padded`: zeros fill up to eight octets short of a block, where the number of bits
has its place. -/
def padded (input : Bytes) : Bytes :=
  input ++ [0x80] ++ List.replicate ((119 - input.length % 64) % 64) 0 ++
    bigEndian 8 (input.length * 8 % 18446744073709551616)

/-- The digest: the words in network order, one behind the other. -/
def Words.toBeBytes (state : Words) : Bytes :=
  bigEndian 4 state.a.toNat ++ bigEndian 4 state.b.toNat ++ bigEndian 4 state.c.toNat ++
    bigEndian 4 state.d.toNat ++ bigEndian 4 state.e.toNat ++ bigEndian 4 state.f.toNat ++
    bigEndian 4 state.g.toNat ++ bigEndian 4 state.h.toNat

/-- `sha256`, written by hand in the source. Octets are padded to whole blocks, which
are then compressed in turn. -/
def sha256 (input : Bytes) : Bytes :=
  let octets := padded input
  let blocks := (List.range (octets.length / 64)).map fun index => (octets.drop (64 * index)).take 64
  (blocks.foldl Words.compress Words.initial).toBeBytes

/-- A digest has 32 octets, whatever was hashed. -/
@[simp] theorem length_sha256 (input : Bytes) : (sha256 input).length = 32 := by
  simp [sha256, Words.toBeBytes]

example : sha256 [] =
    [0xe3, 0xb0, 0xc4, 0x42, 0x98, 0xfc, 0x1c, 0x14, 0x9a, 0xfb, 0xf4, 0xc8, 0x99, 0x6f, 0xb9, 0x24,
     0x27, 0xae, 0x41, 0xe4, 0x64, 0x9b, 0x93, 0x4c, 0xa4, 0x95, 0x99, 0x1b, 0x78, 0x52, 0xb8, 0x55] := by
  decide +kernel

def expectedEdSha256 : String := "7fe64728f1a7bb8c6c103f49c0e2ed0e999678229256c7aab813634cc6c85ba9"

def expectedMlSha256 : String := "85acf51bf7260bc7009f1b3d6b8a4f6d0442bf21ea91a86fe7cbb282edb317cb"

/-- `expected_sha`, the fingerprints of the two keys that the fixture knows. They are
compared as texts. -/
def expectedSha : CoseAlgorithm → String
  | .ed25519 => expectedEdSha256
  | .mlDsa65 => expectedMlSha256

/-- `validate_fixture_binding`: the descriptor has to be that of the fixture in every
field. -/
def validateFixtureBinding (algorithm : CoseAlgorithm) (descriptor : KeyDescriptor) :
    Except CoseCryptoError Unit :=
  failIf (descriptor.algorithm ≠ algorithm.tfwsIdentifier ∨ descriptor.keyId ≠ "release-1" ∨
    descriptor.publicKeyUri ≠ "/.well-known/keys/" ++ algorithm.tfwsIdentifier ++ ".pem" ∨
    descriptor.publicKeySha256 ≠ expectedSha algorithm ∨ descriptor.status ≠ "active" ∨
    descriptor.usage ≠ ["release"]) .keyBindingMismatch

/-- `octets.iter().cycle().take(count)`, as the fixture stretches a digest to the
length of a signature. -/
def cycleTake (count : Nat) (octets : Bytes) : Bytes :=
  (List.range count).map fun index => octets.getD (index % octets.length) 0

/-- The octet in front of the message, which tells the fixtures of the two algorithms
apart. -/
def fixturePrefix : CoseAlgorithm → UInt8
  | .ed25519 => 0x13
  | .mlDsa65 => 0x31

/-- The fixture that stands for a signature: it depends on the algorithm and the
message, and on no key. -/
def fixtureSignature (algorithm : CoseAlgorithm) (message : Bytes) : Bytes :=
  cycleTake algorithm.expectedSignatureLen (sha256 (fixturePrefix algorithm :: message))

/-- `ConformanceFixtureVerifier`. Anybody can make signatures that it accepts, as long
as the manifest names its two keys. -/
def conformanceFixtureVerifier : CoseVerifier where
  verify algorithm descriptor message signature := do
    validateFixtureBinding algorithm descriptor
    failIf (signature ≠ fixtureSignature algorithm message) .signatureInvalid

end Tfws.Cli
