import Mathlib.Data.String.Basic
import Tfws.Data.Fallible
import Tfws.Net.Address
import Tfws.Python.Object

/-! The destinations that `tfws3/netpolicy.py` lets a URL have. -/
namespace Tfws.Python

open Fallible Net

/-- What the policy reads of a parsed URL. Reading the port may raise a
`ValueError`. -/
structure ParsedUrl where
  scheme : String
  hostname : Option String
  username : Option String
  password : Option String
  port : Except String (Option Int)

/-- What `getaddrinfo` raises, of which one kind is caught. The other goes through to
the caller. -/
inductive ResolutionError where
  | gaierror
  | other (exception : Exception)

/-- The standard library around the policy, of which nothing is assumed.
`lower`, `repr` and `addressText` format texts; `getaddrinfo` gives the
addresses of a name. -/
structure NetRuntime where
  urlparse : String → Except String ParsedUrl
  lower : String → String
  getaddrinfo : String → Except ResolutionError (List String)
  repr : String → String
  addressText : Address → String

/-- `BLOCKED`, the networks that no URL may lead to. Embedded version 4 addresses are
in none of them. -/
def blocked : List Network :=
  [.v4 (ofOctets [0, 0, 0, 0]) 8, .v4 (ofOctets [10, 0, 0, 0]) 8,
    .v4 (ofOctets [100, 64, 0, 0]) 10, .v4 (ofOctets [127, 0, 0, 0]) 8,
    .v4 (ofOctets [169, 254, 0, 0]) 16, .v4 (ofOctets [172, 16, 0, 0]) 12,
    .v4 (ofOctets [192, 0, 0, 0]) 24, .v4 (ofOctets [192, 168, 0, 0]) 16,
    .v4 (ofOctets [198, 18, 0, 0]) 15, .v4 (ofOctets [224, 0, 0, 0]) 4,
    .v4 (ofOctets [240, 0, 0, 0]) 4, .v6 (ofHextets [0, 0, 0, 0, 0, 0, 0, 1]) 128,
    .v6 (ofHextets [0xfc00, 0, 0, 0, 0, 0, 0, 0]) 7,
    .v6 (ofHextets [0xfe80, 0, 0, 0, 0, 0, 0, 0]) 10,
    .v6 (ofHextets [0xff00, 0, 0, 0, 0, 0, 0, 0]) 8]

/-- `any(address in network for network in BLOCKED)`, where an address is in networks
of its own family alone. -/
def isBlocked (address : Address) : Bool := blocked.any fun network => network.contains address

/-- `text.rstrip(".")`, as a host may be written with a dot behind it, or several. -/
def rstripDots (text : String) : String :=
  String.ofList (text.toList.reverse.dropWhile (· = '.')).reverse

def endsWith (ending text : String) : Bool := ending.toList.isSuffixOf text.toList

/-- `ipaddress.ip_address`, on a text that may be no address, and then raises a
`ValueError`. -/
def ipAddress (runtime : NetRuntime) (text : String) : Result Address :=
  match parseAddress text with
  | some address => .ok address
  | none => .error (.valueError
      (runtime.repr text ++ " does not appear to be an IPv4 or IPv6 address"))

/-- The host of the URL, without dots at its end and in lower case. -/
def ParsedUrl.host (runtime : NetRuntime) (parsed : ParsedUrl) : String :=
  runtime.lower (rstripDots (parsed.hostname.getD ""))

/-- The addresses of a host: the one it writes, or those its name resolves to. -/
def addressesOf (runtime : NetRuntime) (resolve : Bool) (host : String) :
    Result (List Address) :=
  match parseAddress host with
  | some literal => .ok [literal]
  | none =>
      if resolve then
        match runtime.getaddrinfo host with
        | .ok infos => infos.mapM (ipAddress runtime)
        | .error .gaierror => .error (.policy "DNS resolution failed")
        | .error (.other exception) => .error exception
      else .ok []

/-- The loop over the addresses, which stops at the first that is blocked. -/
def refuseBlocked (runtime : NetRuntime) : List Address → Result Unit
  | [] => .ok ()
  | address :: rest => do
      failIf (isBlocked address = true)
        (.policy ("non-public destination forbidden: " ++ runtime.addressText address))
      refuseBlocked runtime rest

/-- `validate_public_https_url`, which returns the URL as it is. Whether names are
resolved is up to the caller. -/
def validatePublicHttpsUrl (runtime : NetRuntime) (url : String) (resolve : Bool) :
    Result String := do
  let parsed ← (runtime.urlparse url).mapError .valueError
  failIf (parsed.scheme ≠ "https" ∨ parsed.hostname.getD "" = "" ∨
      parsed.username.getD "" ≠ "" ∨ parsed.password.getD "" ≠ "")
    (.policy "only unauthenticated HTTPS URLs are allowed")
  let port ← parsed.port.mapError .valueError
  failIf (port ≠ none ∧ port ≠ some 443) (.policy "non-standard ports are forbidden")
  let host := parsed.host runtime
  failIf (host = "localhost" ∨ endsWith ".localhost" host = true ∨ endsWith ".local" host = true)
    (.policy "local names are forbidden")
  let addresses ← addressesOf runtime resolve host
  refuseBlocked runtime addresses
  .ok url

/-- A destination that is not public: a mapped address is the one it embeds, and
the unspecified address of either family is like loopback. -/
def NonPublic (address : Address) : Prop :=
  match address.ipv4Mapped with
  | some ip => isBlocked (.v4 ip) = true
  | none => isBlocked address = true ∨ address.Unspecified

/-- The blocked addresses of version 6 as intervals of numbers, where membership is
arithmetic. -/
theorem isBlocked_v6_iff {ip : BitVec 128} {scopeId : Option String} :
    isBlocked (.v6 ip scopeId) = true ↔ ip.toNat = 1 ∨
      (0xfc00 * 2 ^ 112 ≤ ip.toNat ∧ ip.toNat < 0xfe00 * 2 ^ 112) ∨
      (0xfe80 * 2 ^ 112 ≤ ip.toNat ∧ ip.toNat < 0xfec0 * 2 ^ 112) ∨
      0xff00 * 2 ^ 112 ≤ ip.toNat := by
  have hLoopback := @and_netmask_eq_iff 128 128 ip (ofHextets [0, 0, 0, 0, 0, 0, 0, 1]) (by decide)
  have hLocal := @and_netmask_eq_iff 128 7 ip (ofHextets [0xfc00, 0, 0, 0, 0, 0, 0, 0]) (by decide)
  have hLink := @and_netmask_eq_iff 128 10 ip (ofHextets [0xfe80, 0, 0, 0, 0, 0, 0, 0]) (by decide)
  have hMulticast :=
    @and_netmask_eq_iff 128 8 ip (ofHextets [0xff00, 0, 0, 0, 0, 0, 0, 0]) (by decide)
  simp only [isBlocked, blocked, List.any_cons, List.any_nil, Network.contains, Bool.false_or,
    Bool.or_false, Bool.or_eq_true, decide_eq_true_eq, hLoopback, hLocal, hLink, hMulticast]
  have hValues : (ofHextets [0, 0, 0, 0, 0, 0, 0, 1]).toNat = 1 ∧
      (ofHextets [0xfc00, 0, 0, 0, 0, 0, 0, 0]).toNat = 0xfc00 * 2 ^ 112 ∧
      (ofHextets [0xfe80, 0, 0, 0, 0, 0, 0, 0]).toNat = 0xfe80 * 2 ^ 112 ∧
      (ofHextets [0xff00, 0, 0, 0, 0, 0, 0, 0]).toNat = 0xff00 * 2 ^ 112 := by decide
  obtain ⟨hOne, hLocalFirst, hLinkFirst, hMulticastFirst⟩ := hValues
  rw [hOne, hLocalFirst, hLinkFirst, hMulticastFirst]
  have hBound := ip.isLt
  omega

theorem isBlocked_unspecified : isBlocked (.v4 0) = true := by decide

/-- No block holds an embedded address of version 4, though blocks of version 4 may
hold the address embedded. -/
theorem isBlocked_of_ipv4Mapped {address : Address} {ip : BitVec 32}
    (h : address.ipv4Mapped = some ip) : isBlocked address = false := by
  cases address with
  | v4 _ => cases h
  | v6 whole scopeId =>
      have hRange := Address.ipv4Mapped_isSome_iff.mp (Option.isSome_of_eq_some h)
      rw [← Bool.not_eq_true, isBlocked_v6_iff]
      omega

/-- What passes the blocks and is not public all the same: the unspecified
address of version 6, and the embedded addresses of the blocks of version 4. -/
structure Evades (address : Address) : Prop where
  notPublic : NonPublic address
  notBlocked : isBlocked address = false

/-- What evades the blocks: the unspecified address of version 6, and whatever embeds
a blocked address. -/
theorem evades_iff {address : Address} :
    Evades address ↔ (∃ scopeId, address = .v6 0 scopeId) ∨
      ∃ ip, address.ipv4Mapped = some ip ∧ isBlocked (.v4 ip) = true := by
  constructor
  · intro h
    have hNotPublic := h.notPublic
    cases hMapped : address.ipv4Mapped with
    | some ip =>
        rw [NonPublic, hMapped] at hNotPublic
        exact .inr ⟨ip, rfl, hNotPublic⟩
    | none =>
        rw [NonPublic, hMapped, h.notBlocked] at hNotPublic
        have hUnspecified := hNotPublic.resolve_left Bool.false_ne_true
        cases address with
        | v4 ip =>
            have hBlocked := h.notBlocked
            rw [show ip = 0 from hUnspecified, isBlocked_unspecified] at hBlocked
            cases hBlocked
        | v6 ip scopeId => exact .inl ⟨scopeId, congrArg (Address.v6 · scopeId) hUnspecified⟩
  · intro h
    rcases h with ⟨scopeId, rfl⟩ | ⟨ip, hMapped, hBlocked⟩
    · exact ⟨.inr rfl, by rw [← Bool.not_eq_true, isBlocked_v6_iff]; decide⟩
    · refine ⟨?_, isBlocked_of_ipv4Mapped hMapped⟩
      rw [NonPublic, hMapped]
      exact hBlocked

/-- The checks before the addresses, which are about the text of the URL alone. -/
structure Admitted (runtime : NetRuntime) (url : String) (parsed : ParsedUrl) : Prop where
  parses : runtime.urlparse url = .ok parsed
  scheme : parsed.scheme = "https"
  hostname : parsed.hostname.getD "" ≠ ""
  username : parsed.username.getD "" = ""
  password : parsed.password.getD "" = ""
  port : parsed.port = .ok none ∨ parsed.port = .ok (some 443)
  notLocal : parsed.host runtime ≠ "localhost" ∧
    endsWith ".localhost" (parsed.host runtime) = false ∧
    endsWith ".local" (parsed.host runtime) = false

section Policy

variable {runtime : NetRuntime} {url : String} {resolve : Bool}

/-- The loop passes exactly if no address is blocked; the first one that is decides
the message. -/
theorem refuseBlocked_eq_ok {addresses : List Address} {result : Unit} :
    refuseBlocked runtime addresses = .ok result ↔
      ∀ address ∈ addresses, isBlocked address = false := by
  induction addresses with
  | nil => simp [refuseBlocked]
  | cons address rest ih =>
      rw [refuseBlocked, then_eq_ok, failIf_eq_ok, ih, List.forall_mem_cons, Bool.not_eq_true]

/-- A URL is returned exactly if it is admitted and has addresses none of which is
blocked. -/
theorem validatePublicHttpsUrl_eq_ok {returned : String} :
    validatePublicHttpsUrl runtime url resolve = .ok returned ↔
      returned = url ∧ ∃ parsed addresses, Admitted runtime url parsed ∧
        addressesOf runtime resolve (parsed.host runtime) = .ok addresses ∧
        ∀ address ∈ addresses, isBlocked address = false := by
  simp only [validatePublicHttpsUrl, bind_eq_ok, mapError_eq_ok, failIf_eq_ok, exists_const,
    refuseBlocked_eq_ok, Except.ok.injEq]
  constructor
  · intro h
    obtain ⟨parsed, hParsed, hFields, port, hPort, hStandard, hLocal, addresses, hAddresses,
      hPublic, hReturned⟩ := h
    simp only [not_or, not_ne_iff, ne_eq, Bool.not_eq_true] at hFields hLocal
    obtain ⟨hScheme, hHostname, hUsername, hPassword⟩ := hFields
    refine ⟨hReturned.symm, parsed, addresses, ?_, hAddresses, hPublic⟩
    refine ⟨hParsed, hScheme, hHostname, hUsername, hPassword, ?_, hLocal⟩
    rw [hPort, Except.ok.injEq, Except.ok.injEq]
    by_cases hNone : port = none
    · exact .inl hNone
    · exact .inr (not_not.mp fun hOther => hStandard ⟨hNone, hOther⟩)
  · intro h
    obtain ⟨rfl, parsed, addresses, hAdmitted, hAddresses, hPublic⟩ := h
    have hFields : ¬(parsed.scheme ≠ "https" ∨ parsed.hostname.getD "" = "" ∨
        parsed.username.getD "" ≠ "" ∨ parsed.password.getD "" ≠ "") := by
      simp [hAdmitted.scheme, hAdmitted.hostname, hAdmitted.username, hAdmitted.password]
    have hLocal : ¬(parsed.host runtime = "localhost" ∨
        endsWith ".localhost" (parsed.host runtime) = true ∨
        endsWith ".local" (parsed.host runtime) = true) := by
      simp [hAdmitted.notLocal]
    rcases hAdmitted.port with hPort | hPort
    · exact ⟨parsed, hAdmitted.parses, hFields, none, hPort, by simp, hLocal, addresses,
        hAddresses, hPublic, rfl⟩
    · exact ⟨parsed, hAdmitted.parses, hFields, some 443, hPort, by simp, hLocal, addresses,
        hAddresses, hPublic, rfl⟩

end Policy

/-- The URL names or resolves to the addresses. A name is resolved only where the
caller asks for it. -/
def Destinations (runtime : NetRuntime) (url : String) (resolve : Bool)
    (addresses : List Address) : Prop :=
  ∃ parsed, runtime.urlparse url = .ok parsed ∧
    addressesOf runtime resolve (parsed.host runtime) = .ok addresses

/-- A returned URL has public destinations only, exactly when an admitted URL either
has a blocked destination too, or no destination that evades the blocks. -/
theorem validatePublicHttpsUrl_public_iff (runtime : NetRuntime) (url : String)
    (resolve : Bool) :
    (∀ returned, validatePublicHttpsUrl runtime url resolve = .ok returned →
      ∀ addresses, Destinations runtime url resolve addresses →
        ∀ address ∈ addresses, ¬NonPublic address) ↔
    ∀ parsed addresses, Admitted runtime url parsed →
      addressesOf runtime resolve (parsed.host runtime) = .ok addresses →
      (∃ address ∈ addresses, isBlocked address = true) ∨
      ∀ address ∈ addresses, (∀ scopeId, address ≠ .v6 0 scopeId) ∧
        ∀ ip, address.ipv4Mapped = some ip → isBlocked (.v4 ip) = false := by
  constructor
  · intro h parsed addresses hAdmitted hAddresses
    by_cases hBlocked : ∃ address ∈ addresses, isBlocked address = true
    · exact .inl hBlocked
    · have hPublic : ∀ address ∈ addresses, isBlocked address = false := by
        simpa using hBlocked
      have hReturned := validatePublicHttpsUrl_eq_ok.mpr
        ⟨rfl, parsed, addresses, hAdmitted, hAddresses, hPublic⟩
      refine .inr fun address hMember => ?_
      have hNotEvades : ¬Evades address := fun hEvades =>
        h url hReturned addresses ⟨parsed, hAdmitted.parses, hAddresses⟩ address hMember
          hEvades.notPublic
      rw [evades_iff, not_or, not_exists, not_exists] at hNotEvades
      exact ⟨hNotEvades.1, fun ip hMapped =>
        Bool.not_eq_true _ ▸ fun hIp => hNotEvades.2 ip ⟨hMapped, hIp⟩⟩
  · intro h returned hReturned addresses hDestinations address hMember hNotPublic
    obtain ⟨-, parsed, found, hAdmitted, hFound, hPublic⟩ :=
      validatePublicHttpsUrl_eq_ok.mp hReturned
    obtain ⟨parsed', hParses, hAddresses⟩ := hDestinations
    obtain rfl := Except.ok.inj (hAdmitted.parses.symm.trans hParses)
    obtain rfl := Except.ok.inj (hFound.symm.trans hAddresses)
    rcases h parsed found hAdmitted hFound with ⟨other, hOther, hBlocked⟩ | hClean
    · rw [hPublic other hOther] at hBlocked
      cases hBlocked
    · rcases evades_iff.mp ⟨hNotPublic, hPublic address hMember⟩ with
        ⟨scopeId, hUnspecified⟩ | ⟨ip, hMapped, hBlocked⟩
      · exact (hClean address hMember).1 scopeId hUnspecified
      · rw [(hClean address hMember).2 ip hMapped] at hBlocked
        cases hBlocked

/-- The standard library on `https://[::ffff:127.0.0.1]/`, whose host needs no
resolution and no change of case. -/
def NetRuntime.sample : NetRuntime where
  urlparse _ := .ok { scheme := "https", hostname := some "::ffff:127.0.0.1", username := none,
                      password := none, port := .ok none }
  lower text := text
  getaddrinfo _ := .error .gaierror
  repr text := "'" ++ text ++ "'"
  addressText _ := "::ffff:127.0.0.1"

/-- Loopback passes as an embedded address, although the address itself is blocked. -/
theorem validatePublicHttpsUrl_mapped :
    ¬∀ (runtime : NetRuntime) (url : String) (resolve : Bool) (returned : String),
      validatePublicHttpsUrl runtime url resolve = .ok returned →
      ∀ addresses, Destinations runtime url resolve addresses →
        ∀ address ∈ addresses, ¬NonPublic address := by
  intro h
  have hMapped : (Address.v6 0xffff7f000001 none).ipv4Mapped = some 0x7f000001 := by decide
  have hLoopback : NonPublic (.v6 0xffff7f000001 none) := by
    rw [NonPublic, hMapped]
    decide
  refine h .sample "https://[::ffff:127.0.0.1]/" false "https://[::ffff:127.0.0.1]/" ?_
    [.v6 0xffff7f000001 none] ?_ _ (List.mem_singleton_self _) hLoopback
  · decide
  · exact ⟨_, rfl, by decide⟩

end Tfws.Python
