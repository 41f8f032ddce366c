import Mathlib.Algebra.Group.Nat.Defs
import Mathlib.Tactic.SplitIfs

/-! Addresses of the two families of the internet protocol, blocks of addresses,
and the texts that are read as addresses. -/
namespace Net

/-- An address; one of version 6 may name a scope. -/
inductive Address where
  | v4 (ip : BitVec 32)
  | v6 (ip : BitVec 128) (scopeId : Option String)
  deriving DecidableEq

/-- The version 4 address that a version 6 address embeds as `::ffff:a.b.c.d`. The two
are different addresses in every comparison. -/
def Address.ipv4Mapped : Address → Option (BitVec 32)
  | .v6 ip _ => if ip >>> 32 = 0xffff then some (ip.setWidth 32) else none
  | .v4 _ => none

/-- The unspecified address of either family, which stands for no host. -/
def Address.Unspecified : Address → Prop
  | .v4 ip => ip = 0
  | .v6 ip _ => ip = 0

/-- A block of addresses, by its first address and the length of its mask. -/
inductive Network where
  | v4 (first : BitVec 32) (length : Nat)
  | v6 (first : BitVec 128) (length : Nat)

/-- The bits of a network, as many ones as the prefix is long. -/
def netmask (width length : Nat) : BitVec width := BitVec.allOnes width <<< (width - length)

/-- An address of one family is never in a network of the other. -/
def Network.contains : Network → Address → Bool
  | .v4 first length, .v4 ip => ip &&& netmask 32 length = first
  | .v6 first length, .v6 ip _ => ip &&& netmask 128 length = first
  | .v4 _ _, .v6 _ _ | .v6 _ _, .v4 _ => false

/-- Masking an address rounds it down to the first of its block. Membership in a
network becomes arithmetic by this. -/
theorem toNat_and_netmask {width : Nat} (length : Nat) (ip : BitVec width) :
    (ip &&& netmask width length).toNat =
      ip.toNat / 2 ^ (width - length) * 2 ^ (width - length) := by
  rw [netmask, ← BitVec.shiftLeft_ushiftRight, BitVec.toNat_shiftLeft, BitVec.toNat_ushiftRight,
    Nat.shiftRight_eq_div_pow, Nat.shiftLeft_eq]
  apply Nat.mod_eq_of_lt
  exact Nat.lt_of_le_of_lt (Nat.div_mul_le_self _ _) ip.isLt

/-- The addresses that embed one of version 4 are an interval too, `::ffff:0:0` to
`::ffff:ffff:ffff`. -/
theorem Address.ipv4Mapped_isSome_iff {ip : BitVec 128} {scopeId : Option String} :
    (Address.v6 ip scopeId).ipv4Mapped.isSome = true ↔
      0xffff * 2 ^ 32 ≤ ip.toNat ∧ ip.toNat < 0x10000 * 2 ^ 32 := by
  have hShift : ip >>> 32 = 0xffff ↔ ip.toNat / 2 ^ 32 = 0xffff := by
    rw [← BitVec.toNat_inj, BitVec.toNat_ushiftRight, Nat.shiftRight_eq_div_pow]
    rfl
  rw [ipv4Mapped]
  split_ifs with h
  · rw [hShift] at h
    simp only [Option.isSome_some, true_iff]
    omega
  · rw [hShift] at h
    simp only [Option.isSome_none, Bool.false_eq_true, false_iff]
    omega

/-- A block is the interval of the addresses from its first one on. With that,
membership is a comparison of numbers. -/
theorem and_netmask_eq_iff {width length : Nat} {ip first : BitVec width}
    (hFirst : first &&& netmask width length = first) :
    ip &&& netmask width length = first ↔
      first.toNat ≤ ip.toNat ∧ ip.toNat < first.toNat + 2 ^ (width - length) := by
  have hSize : 0 < 2 ^ (width - length) := Nat.two_pow_pos _
  have hMultiple := toNat_and_netmask length first
  rw [hFirst] at hMultiple
  rw [← BitVec.toNat_inj, toNat_and_netmask, hMultiple, ← Nat.succ_mul,
    ← Nat.le_div_iff_mul_le hSize, ← Nat.div_lt_iff_lt_mul hSize, Nat.lt_succ_iff,
    Nat.mul_left_inj (Nat.ne_of_gt hSize)]
  exact ⟨fun h => ⟨Nat.le_of_eq h.symm, Nat.le_of_eq h⟩, fun h => Nat.le_antisymm h.2 h.1⟩

/-- The version 4 address of four octets, the first of them the most significant. -/
def ofOctets (octets : List Nat) : BitVec 32 :=
  octets.foldl (fun ip octet => ip <<< 8 ||| BitVec.ofNat 32 octet) 0

/-- The version 6 address of eight hextets, the first of them the most significant. -/
def ofHextets (hextets : List Nat) : BitVec 128 :=
  hextets.foldl (fun ip hextet => ip <<< 16 ||| BitVec.ofNat 128 hextet) 0

/-- The number that digits write in a base, by Horner's rule. -/
def ofDigits (base : Nat) (value : Char → Nat) (digits : List Char) : Nat :=
  digits.foldl (fun number digit => number * base + value digit) 0

/-- One octet in decimal digits. Leading zeros are refused, since some systems read
them as octal. -/
def parseOctet (octet : List Char) : Option Nat :=
  if octet = [] ∨ octet.all Char.isDigit = false ∨ 3 < octet.length ∨
      (octet ≠ ['0'] ∧ octet.head? = some '0') then
    none
  else
    let value := ofDigits 10 (fun digit => digit.toNat - '0'.toNat) octet
    if 255 < value then none else some value

/-- Four octets between full stops, and nothing else. Leading zeros are refused with
the octet. -/
def parseIPv4 (text : List Char) : Option (BitVec 32) := do
  let octets ← (text.splitOn '.').mapM parseOctet
  if octets.length = 4 ∧ '/' ∉ text then some (ofOctets octets) else none

def hexValue (digit : Char) : Nat :=
  if digit.isDigit then digit.toNat - '0'.toNat
  else if digit.isLower then digit.toNat - 'a'.toNat + 10
  else digit.toNat - 'A'.toNat + 10

/-- One hextet in up to four hexadecimal digits of either case, of which there has to
be one. -/
def parseHextet (hextet : List Char) : Option Nat :=
  if hextet.all (fun digit => "0123456789abcdefABCDEF".toList.contains digit) = false ∨
      4 < hextet.length ∨ hextet = [] then
    none
  else some (ofDigits 16 hexValue hextet)

/-- A version 4 address at the end is written as two hextets, so that the rest of the
parser sees hextets alone. -/
def expandSuffix (parts : List (List Char)) : Option (List (List Char)) :=
  match parts.getLast? with
  | some last =>
      if '.' ∈ last then do
        let ip ← parseIPv4 last
        some (parts.dropLast ++ [Nat.toDigits 16 (ip >>> 16).toNat,
          Nat.toDigits 16 (ip &&& 0xffff).toNat])
      else some parts
  | none => some parts

/-- The places of the empty parts that are neither the first nor the last. -/
def emptyParts (parts : List (List Char)) : List Nat :=
  (List.range parts.length).filter fun index =>
    0 < index ∧ index + 1 < parts.length ∧ parts[index]? = some []

/-- The parts are hextets; one empty part stands for the hextets left out. -/
def parseParts (parts : List (List Char)) : Option (BitVec 128) :=
  match emptyParts parts with
  | [] =>
      if parts.length ≠ 8 ∨ parts.head? = some [] ∨ parts.getLast? = some [] then none
      else do
        let hextets ← parts.mapM parseHextet
        some (ofHextets hextets)
  | [skip] =>
      let high := if parts.head? = some [] then skip - 1 else skip
      let low := if parts.getLast? = some [] then parts.length - skip - 2
        else parts.length - skip - 1
      if (parts.head? = some [] ∧ high ≠ 0) ∨ (parts.getLast? = some [] ∧ low ≠ 0) ∨
          8 < high + low + 1 then none
      else do
        let highHextets ← (parts.take high).mapM parseHextet
        let lowHextets ← (parts.drop (parts.length - low)).mapM parseHextet
        some (ofHextets (highHextets ++ List.replicate (8 - (high + low)) 0 ++ lowHextets))
  | _ => none

/-- The address and the scope behind a `%`. An empty scope is refused, and so is a
second sign. -/
def splitScopeId (text : List Char) : Option (List Char × Option String) :=
  match text.span (· ≠ '%') with
  | (address, []) => some (address, none)
  | (address, _ :: scopeId) =>
      if scopeId = [] ∨ '%' ∈ scopeId then none else some (address, some (String.ofList scopeId))

/-- A version 6 address with its scope, if it has one. At most one gap may be left out
by a double colon. -/
def parseIPv6 (text : List Char) : Option (BitVec 128 × Option String) := do
  if '/' ∈ text then none
  let (address, scopeId) ← splitScopeId text
  let parts := address.splitOn ':'
  if parts.length < 3 then none
  let parts ← expandSuffix parts
  if 9 < parts.length then none
  let ip ← parseParts parts
  some (ip, scopeId)

/-- The address that a text is read as: version 4 is tried first. -/
def parseAddress (text : String) : Option Address :=
  match parseIPv4 text.toList with
  | some ip => some (.v4 ip)
  | none => (parseIPv6 text.toList).map fun parsed => .v6 parsed.1 parsed.2

example : parseAddress "::ffff:127.0.0.1" = some (.v6 0xffff7f000001 none) := by
  decide

end Net
