import Mathlib.Data.List.Infix
import Tfws.Python.SignVerify

/-! `bind_public_keys` of `tfws3/crypto.py`: the digests that it writes into a
manifest decide which key files `sign_manifest` and `verify_bundle` work with. -/
namespace Tfws.Python

open Fallible

/-- `b"PRIVATE KEY" in data`, which is how a file that must not be published is
noticed. -/
def holdsPrivateKey (data : Bytes) : Bool := decide (Utf8.encode "PRIVATE KEY" <:+: data)

/-- The descriptor of a key file, which names the file under the public root and the
digest of its octets. -/
def publicKeyDescriptor (runtime : CryptoRuntime) (keyId algorithm : String) (data : Bytes) :
    List (Key × Object) :=
  [(.str "algorithm", .str algorithm), (.str "key_id", .str keyId),
    (.str "public_key_uri", .str ("/.well-known/keys/" ++ algorithm ++ ".pem")),
    (.str "public_key_sha256", .str (hexdigest (runtime.sha256 data))),
    (.str "status", .str "active"), (.str "usage", .list [.str "release"])]

/-- `public_key_descriptors`, for a list of algorithms. A file that holds a private
key is refused. -/
def publicKeyDescriptors (runtime : CryptoRuntime) (directory : KeyDirectory) (keyId : String) :
    List String → Result (List Object)
  | [] => .ok []
  | algorithm :: rest => do
      let data ← readKey directory "public" algorithm
      failIf (holdsPrivateKey data = true)
        (.crypto ("private key supplied as public key: " ++ directory.path (pem algorithm)))
      let others ← publicKeyDescriptors runtime directory keyId rest
      .ok (.dict (publicKeyDescriptor runtime keyId algorithm data) :: others)

/-- `bind_public_keys`: the manifest with the descriptors of the key files in place of
its keys. -/
def bindPublicKeys (runtime : CryptoRuntime) (directory : KeyDirectory)
    (manifest : List (Key × Object)) (keyId : String) : Result (List (Key × Object)) := do
  let descriptors ← publicKeyDescriptors runtime directory keyId baseline
  let bound := Object.setItem (.str "keys") (.list descriptors) manifest
  validateManifest runtime.toRuntime true false bound
  .ok bound

theorem Object.get_setItem (key : Key) (value : Object) (entries : List (Key × Object)) :
    Object.get key (Object.setItem key value entries) = some value := by
  induction entries with
  | nil => rw [Object.setItem, Object.get_cons, if_pos (by simp [Key.equal])]
  | cons entry rest ih =>
      rw [Object.setItem]
      split_ifs with hHere
      · rw [Object.get_cons, if_pos hHere]
      · rw [Object.get_cons, if_neg hHere, ih]

section Binding

variable {runtime : CryptoRuntime} {directory later : KeyDirectory}
  {manifest bound : List (Key × Object)} {keyId name : String}

/-- The object describes the key file of the algorithm: the digest in it is that of
the file. -/
def DescribesFile (runtime : CryptoRuntime) (directory : KeyDirectory) (keyId name : String)
    (object : Object) : Prop :=
  ∃ data, directory.file (pem name) = some data ∧ holdsPrivateKey data = false ∧
    object = .dict (publicKeyDescriptor runtime keyId name data)

/-- The descriptors are those of the key files, one for each algorithm and in the same
order. -/
theorem publicKeyDescriptors_eq_ok {names : List String} {descriptors : List Object} :
    publicKeyDescriptors runtime directory keyId names = .ok descriptors ↔
      List.Forall₂ (DescribesFile runtime directory keyId) names descriptors := by
  induction names generalizing descriptors with
  | nil => rw [publicKeyDescriptors, List.forall₂_nil_left_iff, Except.ok.injEq, eq_comm]
  | cons name rest ih =>
      simp only [publicKeyDescriptors, bind_eq_ok, readKey_iff, failIf_eq_ok, ih,
        List.forall₂_cons_left_iff, Bool.not_eq_true, Except.ok.injEq]
      constructor
      · intro h
        obtain ⟨data, hFile, _, hPublic, others, hOthers, rfl⟩ := h
        exact ⟨_, _, ⟨data, hFile, hPublic, rfl⟩, hOthers, rfl⟩
      · intro h
        obtain ⟨_, others, ⟨data, hFile, hPublic, rfl⟩, hOthers, rfl⟩ := h
        exact ⟨data, hFile, (), hPublic, others, hOthers, rfl⟩

/-- Binding succeeds exactly if every key file of the baseline is there, is no private
key and makes a valid manifest. -/
theorem bindPublicKeys_eq_ok : bindPublicKeys runtime directory manifest keyId = .ok bound ↔
    ∃ descriptors, List.Forall₂ (DescribesFile runtime directory keyId) baseline descriptors ∧
      bound = Object.setItem (.str "keys") (.list descriptors) manifest ∧
      validateManifest runtime.toRuntime true false bound = .ok () := by
  simp only [bindPublicKeys, bind_eq_ok, publicKeyDescriptors_eq_ok, Except.ok.injEq]
  constructor
  · intro h
    obtain ⟨descriptors, hDescriptors, _, hValid, rfl⟩ := h
    exact ⟨descriptors, hDescriptors, rfl, hValid⟩
  · intro h
    obtain ⟨descriptors, hDescriptors, rfl, hValid⟩ := h
    exact ⟨descriptors, hDescriptors, (), hValid, rfl⟩

/-- The key file of the algorithm still has the digest that was bound. -/
def SameDigest (runtime : CryptoRuntime) (directory later : KeyDirectory) (name : String) : Prop :=
  ∃ data new, directory.file (pem name) = some data ∧ later.file (pem name) = some new ∧
    runtime.sha256 new = runtime.sha256 data

/-- What the key binding of a bound manifest asks of another directory: a file with
the digest that was bound. -/
theorem boundKey_iff {descriptors : List Object} {algorithms : List String}
    (hFiles : List.Forall₂ (DescribesFile runtime directory keyId) baseline descriptors)
    (h : List.Forall₂ DescribesKey descriptors algorithms) (hNodup : algorithms.Nodup)
    (hName : name ∈ baseline) {expectedId : Option String} :
    BoundKey runtime later expectedId descriptors name ↔
      (∀ expected ∈ expectedId, expected = keyId) ∧ SameDigest runtime directory later name := by
  obtain ⟨object, hObject, data, hFile, -, rfl⟩ := Traversal.exists_right hFiles hName
  have hDescribes : Describes descriptors name (publicKeyDescriptor runtime keyId name data) :=
    ⟨hObject, rfl⟩
  have hKeyId : Object.get (.str "key_id") (publicKeyDescriptor runtime keyId name data) =
      some (.str keyId) := rfl
  have hDigest : Object.get (.str "public_key_sha256")
      (publicKeyDescriptor runtime keyId name data) =
        some (.str (hexdigest (runtime.sha256 data))) := rfl
  constructor
  · intro hBound
    obtain ⟨other, new, hOther, hExpected, hNew, hSame⟩ := hBound
    obtain rfl := describes_unique h hNodup hDescribes hOther
    rw [hDigest] at hSame
    have hDigests := hexdigest_injective (Object.str.inj (Option.some.inj hSame))
    refine ⟨?_, data, new, hFile, hNew, hDigests.symm⟩
    intro expected hMem
    exact (Object.str.inj (Option.some.inj (hKeyId.symm.trans (hExpected expected hMem)))).symm
  · intro hSame
    obtain ⟨hExpected, same, new, hSameFile, hNew, hDigests⟩ := hSame
    obtain rfl := Option.some.inj (hFile.symm.trans hSameFile)
    refine ⟨_, new, hDescribes, ?_, hNew, ?_⟩
    · intro expected hMem
      rw [hKeyId, hExpected expected hMem]
    · rw [hDigest, hDigests]

/-- The key binding accepts a bound manifest exactly under its key identifier and for
key files with the digests that were bound. -/
theorem validateKeyBinding_bound
    (hBound : bindPublicKeys runtime directory manifest keyId = .ok bound)
    {expectedId : Option String} :
    (∃ descriptors, validateKeyBinding runtime later expectedId bound = .ok descriptors) ↔
      (∀ expected ∈ expectedId, expected = keyId) ∧
        ∀ name ∈ baseline, SameDigest runtime directory later name := by
  obtain ⟨descriptors, hFiles, hSet, hValid⟩ := bindPublicKeys_eq_ok.mp hBound
  have hKeys : Object.get (.str "keys") bound = some (.list descriptors) := by
    rw [hSet]
    exact Object.get_setItem _ _ _
  obtain ⟨-, -, keys, algorithms, hHeld, hDescribed, hPerm⟩ := validateManifest_bound hValid
  obtain rfl := Object.list.inj (Option.some.inj (hKeys.symm.trans hHeld))
  have hNodup := hPerm.nodup_iff.mpr baseline_nodup
  have hSame (name) (hName : name ∈ baseline) :=
    @boundKey_iff runtime directory later keyId name _ _ hFiles hDescribed hNodup hName expectedId
  simp only [validateKeyBinding_eq_ok hKeys hDescribed hNodup, hValid, true_and]
  constructor
  · intro h
    obtain ⟨_, hKept, -⟩ := h
    have hFirst : "ed25519" ∈ baseline := List.mem_cons_self
    exact ⟨((hSame _ hFirst).mp (hKept _ hFirst)).1,
      fun name hName => ((hSame name hName).mp (hKept name hName)).2⟩
  · intro h
    exact ⟨_, fun name hName => (hSame name hName).mpr ⟨h.1, h.2 name hName⟩, rfl⟩

end Binding

section Pipeline

variable {runtime : CryptoRuntime} {directory privateKeys publicKeys later : KeyDirectory}
  {manifest bound : List (Key × Object)} {keyId : String} {bundle : Object}

/-- The public key files of the baseline, whose digests must not collide for a bundle
to name them. -/
def keyFiles (directory : KeyDirectory) : Set Bytes :=
  {data | ∃ name ∈ baseline, directory.file (pem name) = some data}

/-- The two directories have the same key files for the baseline; what else is in them
does not matter. -/
def SameKeyFiles (directory later : KeyDirectory) : Prop :=
  ∀ name ∈ baseline, later.file (pem name) = directory.file (pem name)

/-- The time of creation that is signed, be it given or read off the clock, is a
timestamp, which `sign_manifest` does not check. -/
def CreatedAtTimestamp (runtime : CryptoRuntime) (created : Option String) : Prop :=
  ∃ instant, parseRfc3339 runtime.toRuntime (.str (creationTime runtime created)) = .ok instant

/-- Files with the same digests are the same files, as long as digests do not
collide. -/
theorem sameKeyFiles_of_digests
    (hInjective : Set.InjOn runtime.sha256 (keyFiles directory ∪ keyFiles later))
    (h : ∀ name ∈ baseline, SameDigest runtime directory later name) :
    SameKeyFiles directory later := by
  intro name hName
  obtain ⟨data, new, hFile, hNew, hDigests⟩ := h name hName
  rw [hFile, hNew, hInjective (Or.inr ⟨name, hName, hNew⟩) (Or.inl ⟨name, hName, hFile⟩) hDigests]

/-- Whether private and public keys belong together does not depend on which of two
equal directories is asked. -/
theorem SameKeyFiles.correspond (h : SameKeyFiles publicKeys later)
    (hCorrespond : KeysCorrespond runtime privateKeys publicKeys) :
    KeysCorrespond runtime privateKeys later := by
  intro name hName privateKey publicKey hPrivate hPublic
  exact hCorrespond name hName privateKey publicKey hPrivate ((h name hName).symm.trans hPublic)

/-- Keys that are the same files are bound alike, so that a bundle may be verified in
another directory. -/
theorem SameKeyFiles.madeBundle (h : SameKeyFiles publicKeys later) {signed : SignedMetadata}
    {message : Bytes} {keys entries : List Object} {algorithms : List String}
    (hMade : MadeBundle runtime privateKeys publicKeys manifest keyId bundle signed message keys
      entries algorithms) :
    MadeBundle runtime privateKeys later manifest keyId bundle signed message keys entries
      algorithms := by
  refine { hMade with bound := fun name hName => ?_ }
  obtain ⟨descriptor, key, hDescribes, hKeyId, hFile, hDigest⟩ := hMade.bound name hName
  exact ⟨descriptor, key, hDescribes, hKeyId, (h name hName).trans hFile, hDigest⟩

/-- Verifying begins with the key binding, under no key identifier in particular, so
that an accepted bundle shows it. -/
theorem validateKeyBinding_of_verifyBundle {result : Object}
    (h : verifyBundle runtime later manifest bundle = .ok result) :
    ∃ descriptors, validateKeyBinding runtime later none manifest = .ok descriptors := by
  rw [verifyBundle] at h
  obtain ⟨-, h⟩ := then_eq_ok.mp h
  obtain ⟨descriptors, hBinding, -⟩ := bind_eq_ok.mp h
  exact ⟨descriptors, hBinding⟩

/-- So does signing, for the given key identifier, before it looks at any private
key. -/
theorem validateKeyBinding_of_signManifest {created : Option String} {signId : String}
    (h : signManifest runtime privateKeys publicKeys manifest created signId = .ok bundle) :
    ∃ descriptors, validateKeyBinding runtime publicKeys (some signId) manifest =
      .ok descriptors := by
  rw [signManifest] at h
  obtain ⟨-, h⟩ := then_eq_ok.mp h
  obtain ⟨descriptors, hBinding, -⟩ := bind_eq_ok.mp h
  exact ⟨descriptors, hBinding⟩

/-- A bound manifest can be signed only with its key identifier and beside the
public keys that were bound, and a directory in which the bundle is accepted
holds these very key files. Signing never compares a private key with its public
one, so only the converse asks for private keys that correspond to the public
ones: such a bundle is then accepted in every directory with these key files, if
its time of creation is a timestamp. -/
theorem bindPublicKeys_signed (runtime : CryptoRuntime)
    (directory privateKeys publicKeys later : KeyDirectory)
    (hInjective : Set.InjOn runtime.sha256
      (keyFiles directory ∪ (keyFiles publicKeys ∪ keyFiles later)))
    (manifest bound : List (Key × Object)) (keyId signId : String) (created : Option String)
    (bundle : Object) (hBound : bindPublicKeys runtime directory manifest keyId = .ok bound)
    (hSign : signManifest runtime privateKeys publicKeys bound created signId = .ok bundle) :
    signId = keyId ∧ SameKeyFiles directory publicKeys ∧
      ((∃ result, verifyBundle runtime later bound bundle = .ok result) →
        SameKeyFiles directory later ∧ CreatedAtTimestamp runtime created) ∧
      (KeysCorrespond runtime privateKeys publicKeys → SameKeyFiles directory later →
        CreatedAtTimestamp runtime created →
          ∃ result, verifyBundle runtime later bound bundle = .ok result) := by
  obtain ⟨hId, hSigned⟩ :=
    (validateKeyBinding_bound hBound).mp (validateKeyBinding_of_signManifest hSign)
  have hSame : SameKeyFiles directory publicKeys := sameKeyFiles_of_digests
    (hInjective.mono (Set.union_subset_union_right _ Set.subset_union_left)) hSigned
  obtain ⟨signed, message, keys, entries, algorithms, hCreated, hMade⟩ := madeBundle_of_ok hSign
  have hMoved (hLater : SameKeyFiles directory later) : SameKeyFiles publicKeys later :=
    fun name hName => (hLater name hName).trans (hSame name hName).symm
  refine ⟨hId signId rfl, hSame, ?_, ?_⟩
  · intro h
    obtain ⟨result, hVerified⟩ := h
    obtain ⟨-, hDigests⟩ :=
      (validateKeyBinding_bound hBound).mp (validateKeyBinding_of_verifyBundle hVerified)
    have hLater : SameKeyFiles directory later := sameKeyFiles_of_digests
      (hInjective.mono (Set.union_subset_union_right _ Set.subset_union_right)) hDigests
    refine ⟨hLater, ?_⟩
    rw [CreatedAtTimestamp, ← hCreated]
    exact ((hMoved hLater).madeBundle hMade).timestamp hVerified
  · intro hCorrespond hLater hTimestamp
    rw [CreatedAtTimestamp, ← hCreated] at hTimestamp
    obtain ⟨fields, hAccepted⟩ := ((hMoved hLater).madeBundle hMade).accepted
      ((hMoved hLater).correspond hCorrespond) hTimestamp
    exact ⟨_, ok_of_acceptedBundle hAccepted⟩

end Pipeline

/-- The descriptors of the sample are those of its key files, as binding would write
them. -/
theorem sampleDescriptor_eq {row : Bytes × String} (h : row ∈ keyRows) (algorithm : String) :
    sampleDescriptor algorithm row.2 =
      .dict (publicKeyDescriptor .sample "release-1" algorithm row.1) := by
  rw [sampleDescriptor, ← hexdigest_keyRows h, publicKeyDescriptor]

/-- The sample manifest is bound to the sample keys, and is already what binding makes
of it. -/
theorem bindPublicKeys_sample :
    bindPublicKeys .sample .sample sampleManifest "release-1" = .ok sampleManifest := by
  refine bindPublicKeys_eq_ok.mpr ⟨sampleKeys, ?_, rfl, validateManifest_sample⟩
  exact .cons ⟨_, rfl, by decide, sampleDescriptor_eq List.mem_cons_self _⟩
    (.cons ⟨_, rfl, by decide,
      sampleDescriptor_eq (List.mem_cons_of_mem _ List.mem_cons_self) _⟩ .nil)

/-- Bound, signed at noon and verified in the same directory, with keys that
correspond. -/
theorem bindPublicKeys_signed_sample : ∃ bundle result,
    signManifest .sample .sample .sample sampleManifest (some "2026-07-21T12:00:00Z") "release-1" =
      .ok bundle ∧
    verifyBundle .sample .sample sampleManifest bundle = .ok result := by
  obtain ⟨bundle, hSign⟩ := @signManifest_sample "2026-07-21T12:00:00Z" (by decide)
  have hTimestamp : ∃ instant, parseRfc3339 CryptoRuntime.sample.toRuntime
      (.str (creationTime .sample (some "2026-07-21T12:00:00Z"))) = .ok instant :=
    exists_ok (by decide)
  have hFiles : keyFiles .sample ∪ (keyFiles .sample ∪ keyFiles .sample) ⊆ {[0x01], [0x02]} := by
    rw [Set.union_self, Set.union_self]
    intro data hData
    obtain ⟨name, hName, hFile⟩ := hData
    obtain rfl | rfl := List.mem_pair.mp hName
    · exact Or.inl (Option.some.inj hFile).symm
    · exact Or.inr (Option.some.inj hFile).symm
  have hDigests : Set.InjOn CryptoRuntime.sample.sha256 {[0x01], [0x02]} := by
    have hDiffer : CryptoRuntime.sample.sha256 [0x01] ≠ CryptoRuntime.sample.sha256 [0x02] := by
      decide +kernel
    exact Set.injOn_pair.mpr fun hSame => absurd hSame hDiffer
  obtain ⟨-, -, -, hVerify⟩ := bindPublicKeys_signed .sample .sample .sample .sample .sample
    (hDigests.mono hFiles) sampleManifest sampleManifest "release-1" "release-1"
    (some "2026-07-21T12:00:00Z") bundle bindPublicKeys_sample hSign
  obtain ⟨result, hResult⟩ := hVerify keysCorrespond_sample (fun _ _ => rfl) hTimestamp
  exact ⟨bundle, result, hSign, hResult⟩

end Tfws.Python
