import Tfws.Python.EventChain
import Tfws.Python.HybridSoundness
import Tfws.Python.RuntimeModel

/-! `verify_bundle` on what `sign_manifest` returns: it accepts exactly if the
time of creation is a timestamp, which only the verifier checks. -/
namespace Tfws.Python

open Fallible

/-- OpenSSL accepts under each public key what it has signed under the private
key for the same algorithm. -/
def KeysCorrespond (runtime : CryptoRuntime) (privateKeys publicKeys : KeyDirectory) : Prop :=
  ∀ name ∈ baseline, ∀ privateKey publicKey, privateKeys.file (pem name) = some privateKey →
    publicKeys.file (pem name) = some publicKey → ∀ message signature,
      runtime.opensslSign name privateKey message = .ok signature →
        runtime.opensslVerify publicKey message signature = .ok ()

section Signing

variable {runtime : CryptoRuntime} {privateKeys publicKeys : KeyDirectory} {message : Bytes}
  {keys : List Object} {algorithms : List String} {keyId name : String}

/-- A signature is made with the private key of its algorithm, which nothing compares
with the public one. -/
theorem signOne_eq_ok {signature : Bytes} :
    signOne runtime privateKeys name message = .ok signature ↔ ∃ key,
      privateKeys.file (pem name) = some key ∧
        runtime.opensslSign name key message = .ok signature := by
  simp only [signOne, bind_eq_ok, readKey_iff, mapError_eq_ok]

/-- An entry that was made for a bound key is a signed one, if private and public keys
belong together. -/
theorem signed_signatureEntry (h : List.Forall₂ DescribesKey keys algorithms)
    (hNodup : algorithms.Nodup) (hName : name ∈ baseline)
    (hBound : BoundKey runtime publicKeys (some keyId) keys name)
    (hCorrespond : KeysCorrespond runtime privateKeys publicKeys) {signature : Bytes}
    (hSign : signOne runtime privateKeys name message = .ok signature)
    {descriptor : List (Key × Object)} (hDescribes : Describes keys name descriptor)
    {publicKeyUri : Object}
    (hUri : Object.get (.str "public_key_uri") descriptor = some publicKeyUri) :
    Signed runtime publicKeys keys message (signatureEntry name keyId publicKeyUri signature)
      name := by
  obtain ⟨other, publicKey, hOther, hKeyId, hFile, hDigest⟩ := hBound
  obtain rfl := describes_unique h hNodup hDescribes hOther
  obtain ⟨privateKey, hPrivate, hSigned⟩ := signOne_eq_ok.mp hSign
  refine ⟨_, descriptor, publicKey, signature, rfl, ?_⟩
  exact {
    fields := rfl
    algorithm := rfl
    described := hDescribes
    keyId := (hKeyId keyId rfl).symm
    publicKeyUri := hUri.symm
    file := hFile
    digest := hDigest
    value := b64decode_b64encode signature
    accepted := hCorrespond name hName privateKey publicKey hPrivate hFile message signature hSigned }

/-- The loop makes a signed entry for each algorithm, under corresponding keys. By
induction on the algorithms. -/
theorem signEntries_signed (h : List.Forall₂ DescribesKey keys algorithms)
    (hNodup : algorithms.Nodup) (hCorrespond : KeysCorrespond runtime privateKeys publicKeys)
    {names : List String} (hNames : ∀ name ∈ names, name ∈ baseline)
    (hBound : ∀ name ∈ names, BoundKey runtime publicKeys (some keyId) keys name)
    {entries : List Object}
    (hSign : signEntries runtime privateKeys (describedPairs keys algorithms) message keyId names =
      .ok entries) :
    List.Forall₂ (Signed runtime publicKeys keys message) entries names := by
  induction names generalizing entries with
  | nil =>
      obtain rfl := Except.ok.inj hSign
      exact .nil
  | cons name rest ih =>
      obtain ⟨hName, hRest⟩ := List.forall_mem_cons.mp hNames
      obtain ⟨hKey, hBound⟩ := List.forall_mem_cons.mp hBound
      rw [signEntries] at hSign
      obtain ⟨signature, hSignature, hSign⟩ := bind_eq_ok.mp hSign
      obtain ⟨object, hObject, hSign⟩ := bind_eq_ok.mp hSign
      obtain ⟨descriptor, hDescriptor, hDescribes⟩ :=
        (get_describedPairs h hNodup).mp (Object.getItem_eq_ok.mp hObject)
      rw [hDescriptor] at hSign
      obtain ⟨publicKeyUri, hUri, hSign⟩ := bind_eq_ok.mp hSign
      obtain ⟨others, hOthers, hSign⟩ := bind_eq_ok.mp hSign
      obtain rfl := Except.ok.inj hSign
      exact .cons (signed_signatureEntry h hNodup hName hKey hCorrespond hSignature hDescribes
        (subscript_dict.mp hUri)) (ih hRest hBound hOthers)

/-- The loop makes an entry for each algorithm that a key describes and that signs. -/
theorem exists_entries (h : List.Forall₂ DescribesKey keys algorithms) (hNodup : algorithms.Nodup)
    {names : List String}
    (hSign : ∀ name ∈ names, ∃ signature, signOne runtime privateKeys name message = .ok signature)
    (hNames : ∀ name ∈ names, name ∈ algorithms) : ∃ entries,
      signEntries runtime privateKeys (describedPairs keys algorithms) message keyId names =
        .ok entries := by
  induction names with
  | nil => exact ⟨[], rfl⟩
  | cons name rest ih =>
      obtain ⟨⟨signature, hSignature⟩, hSign⟩ := List.forall_mem_cons.mp hSign
      obtain ⟨hName, hNames⟩ := List.forall_mem_cons.mp hNames
      obtain ⟨others, hOthers⟩ := ih hSign hNames
      obtain ⟨_, hMem, descriptor, rfl, hKey⟩ := Traversal.exists_left h hName
      obtain ⟨uri, hUri⟩ := hKey.publicKeyUri
      have hObject := (get_describedPairs h hNodup).mpr ⟨descriptor, rfl, hMem, hKey.algorithm⟩
      rw [signEntries, hSignature, ok_bind, Object.getItem_eq_ok.mpr hObject, ok_bind,
        subscript_dict.mpr hUri, ok_bind, hOthers, ok_bind]
      exact ⟨_, rfl⟩

end Signing

section Made

variable {runtime : CryptoRuntime} {privateKeys publicKeys : KeyDirectory}
  {manifest : List (Key × Object)} {created : Option String} {keyId : String} {bundle : Object}

/-- What has been checked and computed before a bundle is returned. Verification meets
the same values again. -/
structure MadeBundle (runtime : CryptoRuntime) (privateKeys publicKeys : KeyDirectory)
    (manifest : List (Key × Object)) (keyId : String) (bundle : Object)
    (signed : SignedMetadata) (message : Bytes) (keys entries : List Object)
    (algorithms : List String) : Prop where
  openssl : runtime.requireOpenssl = .ok ()
  policy : validateManifest runtime.toRuntime true false manifest = .ok ()
  described : Object.get (.str "keys") manifest = some (.list keys)
  describing : List.Forall₂ DescribesKey keys algorithms
  distinct : algorithms.Nodup
  bound : ∀ name ∈ baseline, BoundKey runtime publicKeys (some keyId) keys name
  digest : ∃ canonical, canonicalize (.dict manifest) = .ok canonical ∧
    hexdigest (runtime.sha512 canonical) = signed.digest
  subject : Object.get (.str "subject") manifest = some (.str signed.subject)
  keyEpoch : Object.get (.str "key_epoch") manifest = some (.int signed.keyEpoch)
  text : signatureMessage signed.subject signed.digest signed.created signed.keyEpoch =
    .ok message
  signatures : signEntries runtime privateKeys (describedPairs keys algorithms) message keyId baseline =
    .ok entries
  bundle : bundle =
    signatureBundle signed.subject signed.digest signed.created signed.keyEpoch entries

/-- What `sign_manifest` returns is a bundle that was made, from the manifest and the
time of creation. -/
theorem madeBundle_of_ok
    (h : signManifest runtime privateKeys publicKeys manifest created keyId = .ok bundle) :
    ∃ signed message keys entries algorithms, signed.created = creationTime runtime created ∧
      MadeBundle runtime privateKeys publicKeys manifest keyId bundle signed message keys entries
        algorithms := by
  rw [signManifest] at h
  obtain ⟨hOpenssl, h⟩ := then_eq_ok.mp h
  obtain ⟨descriptors, hBinding, h⟩ := bind_eq_ok.mp h
  have hPolicy : validateManifest runtime.toRuntime true false manifest = .ok () :=
    (then_eq_ok.mp hBinding).1
  obtain ⟨-, -, keys, algorithms, hKeys, hDescribed, hPerm⟩ := validateManifest_bound hPolicy
  have hNodup := hPerm.nodup_iff.mpr baseline_nodup
  obtain ⟨-, hBound, rfl⟩ := (validateKeyBinding_eq_ok hKeys hDescribed hNodup).mp hBinding
  obtain ⟨⟨canonical, digest⟩, hPayload, h⟩ := bind_eq_ok.mp h
  obtain ⟨subject, hSubject, h⟩ := bind_eq_ok.mp h
  obtain ⟨keyEpoch, hKeyEpoch, h⟩ := bind_eq_ok.mp h
  obtain ⟨message, hMessage, h⟩ := bind_eq_ok.mp h
  obtain ⟨entries, hEntries, h⟩ := bind_eq_ok.mp h
  refine ⟨⟨subject, digest, creationTime runtime created, keyEpoch⟩, message, keys, entries,
    algorithms, rfl, ?_⟩
  exact {
    openssl := hOpenssl
    policy := hPolicy
    described := hKeys
    describing := hDescribed
    distinct := hNodup
    bound := hBound
    digest := ⟨canonical, (payloadHash_eq_ok hPolicy).mp hPayload⟩
    subject := manifestSubject_eq_ok.mp hSubject
    keyEpoch := manifestEpoch_eq_ok.mp hKeyEpoch
    text := hMessage
    signatures := hEntries
    bundle := (Except.ok.inj h).symm }

/-- A bundle that was made meets all conditions but that on its timestamp. -/
theorem MadeBundle.accepted {signed : SignedMetadata} {message : Bytes} {keys entries : List Object}
    {algorithms : List String} (h : MadeBundle runtime privateKeys publicKeys manifest keyId bundle
      signed message keys entries algorithms)
    (hCorrespond : KeysCorrespond runtime privateKeys publicKeys)
    (hTimestamp : ∃ instant, parseRfc3339 runtime.toRuntime (.str signed.created) = .ok instant) :
    ∃ fields, AcceptedBundle runtime publicKeys manifest bundle (verified signed.digest baseline)
      fields signed message keys entries baseline := by
  have hSigned := signEntries_signed h.describing h.distinct hCorrespond (fun _ hName => hName)
    h.bound h.signatures
  refine ⟨_, h.bundle, ?_, h.described, rfl, hSigned, List.Perm.refl _, rfl⟩
  exact {
    openssl := h.openssl
    policy := h.policy
    names := rfl
    version := rfl
    created := rfl
    timestamp := hTimestamp
    digest := h.digest
    payload := rfl
    manifestSubject := h.subject
    subject := rfl
    manifestEpoch := h.keyEpoch
    keyEpoch := ⟨_, rfl, decide_eq_true rfl⟩
    policyId := rfl
    message := h.text }

/-- If it is accepted, its time of creation is a timestamp, since verification parses
it. -/
theorem MadeBundle.timestamp {signed : SignedMetadata} {message : Bytes}
    {keys entries : List Object} {algorithms : List String}
    (h : MadeBundle runtime privateKeys publicKeys manifest keyId bundle signed message keys entries
      algorithms) {result : Object}
    (hVerified : verifyBundle runtime publicKeys manifest bundle = .ok result) :
    ∃ instant, parseRfc3339 runtime.toRuntime (.str signed.created) = .ok instant := by
  obtain ⟨fields, read, _, _, _, _, hAccepted⟩ := acceptedBundle_of_ok hVerified
  have hFields := Object.dict.inj (h.bundle.symm.trans hAccepted.bundle)
  have hSame := hAccepted.checks.created
  rw [← hFields] at hSame
  have hRead : signed.created = read.created := Object.str.inj (Option.some.inj hSame)
  exact hRead ▸ hAccepted.checks.timestamp

end Made

/-- A bundle that was signed under corresponding keys is accepted exactly if its time
of creation, be it given or read off the clock, is a timestamp. Signing itself does
not look at it. -/
theorem verifyBundle_signManifest_iff (runtime : CryptoRuntime)
    (privateKeys publicKeys : KeyDirectory) (manifest : List (Key × Object))
    (created : Option String) (keyId : String) (bundle : Object)
    (hSign : signManifest runtime privateKeys publicKeys manifest created keyId = .ok bundle)
    (hCorrespond : KeysCorrespond runtime privateKeys publicKeys) :
    (∃ result, verifyBundle runtime publicKeys manifest bundle = .ok result) ↔
      ∃ instant, parseRfc3339 runtime.toRuntime (.str (creationTime runtime created)) =
        .ok instant := by
  obtain ⟨signed, message, keys, entries, algorithms, hCreated, hMade⟩ := madeBundle_of_ok hSign
  rw [← hCreated]
  constructor
  · intro ⟨result, hVerified⟩
    exact hMade.timestamp hVerified
  · intro hTimestamp
    obtain ⟨fields, hAccepted⟩ := hMade.accepted hCorrespond hTimestamp
    exact ⟨_, ok_of_acceptedBundle hAccepted⟩

def sampleDescriptor (algorithm digest : String) : Object :=
  .dict [(.str "algorithm", .str algorithm), (.str "key_id", .str "release-1"),
    (.str "public_key_uri", .str ("/.well-known/keys/" ++ algorithm ++ ".pem")),
    (.str "public_key_sha256", .str digest), (.str "status", .str "active"),
    (.str "usage", .list [.str "release"])]

/-- The digests of the two key files, which hold one octet each, for the sample
runtime. -/
def keyRows : List (Bytes × String) :=
  [([0x01], "4bf5122f344554c53bde2ebb8cd2b7e3d1600ad631c385a5d7cce23c7785459a"),
    ([0x02], "dbc1b4c900ffe48d575b5da5c638040125f65db0fe3e24494b76ea986457d986")]

def sampleManifest : List (Key × Object) :=
  [(.str "tfws_version", .str "3.0"), (.str "subject", .str "https://example.com"),
    (.str "environment", .str "production"),
    (.str "operator", .dict [(.str "name", .str "Example Organization")]), (.str "key_epoch", .int 1),
    (.str "keys", .list
      (List.zipWith (fun algorithm row => sampleDescriptor algorithm row.2) baseline keyRows)),
    (.str "signature_policy", .dict [(.str "policy_id", .str "tfws.hybrid.baseline.v1"),
      (.str "required_algorithms", .list (baseline.map .str))]),
    (.str "capabilities", .dict [(.str "required", .list [.str "core.v1", .str "identity.v1"]),
      (.str "optional", .list [])]),
    (.str "artifacts", .list []), (.str "updated_at", .str "2026-07-21T00:00:00Z")]

def KeyDirectory.sample : KeyDirectory where
  path name := "keys/" ++ name
  file name :=
    if name = "ed25519.pem" then some [0x01]
    else if name = "ml-dsa-65.pem" then some [0x02]
    else none

/-- The SHA-512 of the canonical text of the manifest, as the sample runtime answers
it. -/
def sampleDigest : String :=
  "df8049c2ced0aa33caa85f4958d075c1ba23f53247ad3c3feadbcd43863db171" ++
    "3d08d2eada8e839ab7c3ffe5abeece12fb83df01247fabfe858f028495ea990a"

/-- Signatures are the key and the message, so that whoever has both can check
them. -/
def CryptoRuntime.sample : CryptoRuntime where
  toRuntime := .model
  toEventRuntime := .ofTable keyRows
  sha512 _ := octetsOf sampleDigest
  requireOpenssl := .ok ()
  opensslVerify key message signature :=
    if signature = key ++ message then .ok () else .error "Signature Verification Failure"
  opensslSign _ key message := .ok (key ++ message)
  now := "2026-07-21T00:00:00Z"
  format _ := ""

theorem keysCorrespond_sample :
    KeysCorrespond .sample KeyDirectory.sample KeyDirectory.sample := by
  intro name _ privateKey publicKey hPrivate hPublic message signature hSign
  obtain rfl := Option.some.inj (hPrivate.symm.trans hPublic)
  obtain rfl := Except.ok.inj hSign
  exact if_pos rfl

theorem exists_ok {α : Type} {result : Result α} (h : result.isOk = true) :
    ∃ value, result = .ok value := by
  cases result with
  | ok value => exact ⟨value, rfl⟩
  | error _ => cases h

/-- A digest in hexadecimal digits fits into a line of the message. -/
theorem hasNewline_hexdigest (octets : Bytes) : hasNewline (hexdigest octets) = false := by
  have hDigit : ∀ n < 16, (Json.hexDigit n = '\n' || Json.hexDigit n = '\r') = false := by decide
  rw [hasNewline, hexdigest, String.toList_ofList, List.any_flatMap, List.any_eq_false]
  intro octet _
  have hHigh : octet.toNat / 16 < 16 := by
    have := octet.toNat_lt
    omega
  simp [hDigit _ hHigh, hDigit _ (Nat.mod_lt octet.toNat (by decide : 0 < 16))]

theorem validateManifest_sample :
    validateManifest CryptoRuntime.sample.toRuntime true false sampleManifest = .ok () := by
  decide +kernel

/-- The rows hold the digests that the sample runtime computes from them. -/
theorem hexdigest_keyRows {row : Bytes × String} (h : row ∈ keyRows) :
    hexdigest (CryptoRuntime.sample.sha256 row.1) = row.2 := by
  revert row
  simp only [keyRows, List.forall_mem_cons]
  exact ⟨by decide, by decide, List.forall_mem_nil _⟩

/-- The descriptors that the sample manifest has, one for each algorithm of the
baseline. -/
def sampleKeys : List Object :=
  List.zipWith (fun algorithm row => sampleDescriptor algorithm row.2) baseline keyRows

theorem describesKey_sample : List.Forall₂ DescribesKey sampleKeys baseline :=
  .cons ⟨_, rfl, rfl, List.mem_cons_self, ⟨_, rfl⟩, ⟨_, rfl⟩⟩
    (.cons ⟨_, rfl, rfl, List.mem_cons_of_mem _ List.mem_cons_self, ⟨_, rfl⟩, ⟨_, rfl⟩⟩ .nil)

/-- The keys of the sample manifest are bound to the sample directory. -/
theorem validateKeyBinding_sample :
    validateKeyBinding .sample .sample (some "release-1") sampleManifest =
      .ok (describedPairs sampleKeys baseline) := by
  have hBound {name : String} {row : Bytes × String} (hRow : row ∈ keyRows)
      (hKey : sampleDescriptor name row.2 ∈ sampleKeys)
      (hFile : KeyDirectory.sample.file (pem name) = some row.1) :
      BoundKey .sample .sample (some "release-1") sampleKeys name := by
    refine ⟨_, row.1, ⟨hKey, rfl⟩, ?_, hFile, ?_⟩
    · intro expected hExpected
      rw [← Option.mem_some_iff.mp hExpected]
      rfl
    · rw [hexdigest_keyRows hRow]
      rfl
  refine (validateKeyBinding_eq_ok rfl describesKey_sample baseline_nodup).mpr
    ⟨validateManifest_sample, fun name hName => ?_, rfl⟩
  obtain rfl | rfl := List.mem_pair.mp hName
  · exact hBound List.mem_cons_self List.mem_cons_self rfl
  · exact hBound (List.mem_cons_of_mem _ List.mem_cons_self)
      (List.mem_cons_of_mem _ List.mem_cons_self) rfl

/-- The sample manifest is signed with any time of creation that fits into a line of
the message. -/
theorem signManifest_sample {created : String}
    (hCreated : hasNewline (creationTime .sample (some created)) = false) : ∃ bundle,
      signManifest .sample .sample .sample sampleManifest (some created) "release-1" =
        .ok bundle := by
  obtain ⟨canonical, hCanonical⟩ : ∃ canonical, canonicalize (.dict sampleManifest) = .ok canonical :=
    exists_ok (by decide)
  have hPayload := (payloadHash_eq_ok validateManifest_sample).mpr ⟨hCanonical, rfl⟩
  have hSubject : manifestSubject sampleManifest = .ok "https://example.com" := rfl
  have hKeyEpoch : manifestEpoch sampleManifest = .ok 1 := rfl
  have hLines : ¬(hasNewline "https://example.com" = true ∨
      hasNewline (hexdigest (CryptoRuntime.sample.sha512 canonical)) = true ∨
      hasNewline (creationTime .sample (some created)) = true) := by
    rw [hasNewline_hexdigest, hCreated]
    decide
  obtain ⟨message, hMessage⟩ : ∃ message, signatureMessage "https://example.com"
      (hexdigest (CryptoRuntime.sample.sha512 canonical)) (creationTime .sample (some created)) 1 =
        .ok message := by
    rw [signatureMessage, failIf_of_not hLines, ok_bind]
    exact ⟨_, rfl⟩
  have hSign : ∀ name ∈ baseline, ∃ signature, signOne .sample .sample name message = .ok signature := by
    intro name hName
    obtain rfl | rfl := List.mem_pair.mp hName
    · exact ⟨_, signOne_eq_ok.mpr ⟨[0x01], rfl, rfl⟩⟩
    · exact ⟨_, signOne_eq_ok.mpr ⟨[0x02], rfl, rfl⟩⟩
  obtain ⟨entries, hEntries⟩ := @exists_entries .sample .sample message _ _ "release-1"
    describesKey_sample baseline_nodup baseline hSign (fun _ hName => hName)
  refine ⟨_, then_eq_ok.mpr ⟨rfl, bind_eq_ok.mpr ⟨_, validateKeyBinding_sample, bind_eq_ok.mpr
    ⟨_, hPayload, bind_eq_ok.mpr ⟨_, hSubject, bind_eq_ok.mpr ⟨_, hKeyEpoch, bind_eq_ok.mpr
      ⟨_, hMessage, bind_eq_ok.mpr ⟨_, hEntries, rfl⟩⟩⟩⟩⟩⟩⟩⟩

/-- A bundle that was made at noon is accepted, in the directory where it was
signed. -/
theorem verifyBundle_signManifest_sample : ∃ bundle,
    signManifest .sample .sample .sample sampleManifest (some "2026-07-21T12:00:00Z") "release-1" =
      .ok bundle ∧
    ∃ result, verifyBundle .sample .sample sampleManifest bundle = .ok result := by
  obtain ⟨bundle, hSign⟩ := @signManifest_sample "2026-07-21T12:00:00Z" (by decide)
  have hTimestamp : ∃ instant, parseRfc3339 CryptoRuntime.sample.toRuntime
      (.str (creationTime .sample (some "2026-07-21T12:00:00Z"))) = .ok instant :=
    exists_ok (by decide)
  exact ⟨bundle, hSign, (verifyBundle_signManifest_iff .sample .sample .sample sampleManifest
    (some "2026-07-21T12:00:00Z") "release-1" bundle hSign keysCorrespond_sample).mpr hTimestamp⟩

/-- A bundle that was made `yesterday` is not, although it could be made. -/
theorem verifyBundle_signManifest_yesterday : ∃ bundle,
    signManifest .sample .sample .sample sampleManifest (some "yesterday") "release-1" =
      .ok bundle ∧
    KeysCorrespond .sample KeyDirectory.sample KeyDirectory.sample ∧
    ¬∃ result, verifyBundle .sample .sample sampleManifest bundle = .ok result := by
  obtain ⟨bundle, hSign⟩ := @signManifest_sample "yesterday" (by decide)
  refine ⟨bundle, hSign, keysCorrespond_sample, fun ⟨result, hVerified⟩ => ?_⟩
  obtain ⟨signed, _, _, _, _, hCreated, hMade⟩ := madeBundle_of_ok hSign
  obtain ⟨instant, hTimestamp⟩ := hMade.timestamp hVerified
  have hRefused : (parseRfc3339 CryptoRuntime.sample.toRuntime (.str "yesterday")).isOk = false := by
    decide
  rw [show "yesterday" = signed.created from hCreated.symm, hTimestamp] at hRefused
  cases hRefused

end Tfws.Python
