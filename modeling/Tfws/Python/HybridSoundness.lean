import Tfws.Python.KeyBinding

/-! What `verify_bundle` accepts: bundles with one signature for each algorithm
of the baseline, of one message and under the keys that the manifest names. -/
namespace Tfws.Python

open Fallible

/-- What is signed together, in the fields of a bundle. The manifest enters through
its digest. -/
structure SignedMetadata where
  subject : String
  digest : String
  created : String
  keyEpoch : Int

/-- The field, metadata and timestamp checks on a bundle with these fields, and what
is signed under them. -/
structure BundleChecks (runtime : CryptoRuntime) (manifest fields : List (Key × Object))
    (signed : SignedMetadata) (message : Bytes) : Prop where
  openssl : runtime.requireOpenssl = .ok ()
  policy : validateManifest runtime.toRuntime true false manifest = .ok ()
  names : Object.hasKeys bundleFields fields = true
  version : Object.get (.str "bundle_version") fields = some (.str "1")
  created : Object.get (.str "created") fields = some (.str signed.created)
  timestamp : ∃ instant, parseRfc3339 runtime.toRuntime (.str signed.created) = .ok instant
  digest : ∃ canonical, canonicalize (.dict manifest) = .ok canonical ∧
    hexdigest (runtime.sha512 canonical) = signed.digest
  payload : Object.get (.str "payload_sha512") fields = some (.str signed.digest)
  manifestSubject : Object.get (.str "subject") manifest = some (.str signed.subject)
  subject : Object.get (.str "subject") fields = some (.str signed.subject)
  manifestEpoch : Object.get (.str "key_epoch") manifest = some (.int signed.keyEpoch)
  keyEpoch : ∃ held, Object.get (.str "key_epoch") fields = some held ∧
    equalsInteger runtime.toEventRuntime signed.keyEpoch held = true
  policyId : Object.get (.str "policy_id") fields = some (.str "tfws.hybrid.baseline.v1")
  message : signatureMessage signed.subject signed.digest signed.created signed.keyEpoch =
    .ok message

/-- The entry holds a signature of the message that OpenSSL accepts under the
key file of the algorithm, and this is the key that its descriptor names. -/
structure SignedBy (runtime : CryptoRuntime) (directory : KeyDirectory) (keys : List Object)
    (message : Bytes) (name : String) (entry descriptor : List (Key × Object))
    (key signature : Bytes) : Prop where
  fields : Object.hasKeys entryFields entry = true
  algorithm : Object.get (.str "algorithm") entry = some (.str name)
  described : Describes keys name descriptor
  keyId : Object.get (.str "key_id") entry = Object.get (.str "key_id") descriptor
  publicKeyUri :
    Object.get (.str "public_key_uri") entry = Object.get (.str "public_key_uri") descriptor
  file : directory.file (pem name) = some key
  digest : Object.get (.str "public_key_sha256") descriptor =
    some (.str (hexdigest (runtime.sha256 key)))
  value : (Object.get (.str "value") entry).bind b64decode = some signature
  accepted : runtime.opensslVerify key message signature = .ok ()

/-- The object is an accepted entry for the algorithm, whose signature OpenSSL accepts
under the key file. -/
def Signed (runtime : CryptoRuntime) (directory : KeyDirectory) (keys : List Object)
    (message : Bytes) (object : Object) (name : String) : Prop :=
  ∃ entry descriptor key signature, object = .dict entry ∧
    SignedBy runtime directory keys message name entry descriptor key signature

section Members

variable {names : List String} {name text : String} {entries : List (Key × Object)}

theorem get_of_contains (h : Object.contains (.str name) entries = true) :
    ∃ object, Object.get (.str name) entries = some object := by
  rw [Object.contains, List.any_eq_true] at h
  obtain ⟨entry, hMem, hKey⟩ := h
  cases hFind : entries.find? fun entry => entry.1.equal (.str name) with
  | none => exact absurd hKey (List.find?_eq_none.mp hFind entry hMem)
  | some found => exact ⟨found.2, by rw [Object.get, hFind]; rfl⟩

theorem get_of_hasKeys (h : Object.hasKeys names entries = true) (hName : name ∈ names) :
    ∃ object, Object.get (.str name) entries = some object := by
  rw [Object.hasKeys, Bool.and_eq_true] at h
  exact get_of_contains (List.all_eq_true.mp h.2 name hName)

/-- A field of a bundle is a text exactly if the text stands there. -/
theorem bundleField_text : (bundleField name entries).text? = some text ↔
    Object.get (.str name) entries = some (.str text) := by
  rw [bundleField, Object.text?_eq_some]
  cases Object.get (.str name) entries <;> simp

theorem equalsInteger_bundleField {runtime : EventRuntime} {integer : Int} :
    equalsInteger runtime integer (bundleField name entries) = true ↔
      ∃ held, Object.get (.str name) entries = some held ∧
        equalsInteger runtime integer held = true := by
  rw [bundleField]
  cases Object.get (.str name) entries <;> simp [equalsInteger]

end Members

section Keys

variable {runtime : CryptoRuntime} {directory : KeyDirectory} {manifest : List (Key × Object)}
  {keyId : Option String} {keys : List Object} {algorithms : List String} {name kind : String}

theorem readKey_iff {key : Bytes} :
    readKey directory kind name = .ok key ↔ directory.file (pem name) = some key := by
  rw [readKey]
  cases directory.file (pem name) <;> simp

/-- The check of the key files passes exactly if each of them passes. -/
theorem checkKeys_eq_ok {descriptors : List (Key × Object)} {names : List String} :
    checkKeys runtime directory keyId descriptors names = .ok () ↔
      ∀ name ∈ names, checkKey runtime directory keyId descriptors name = .ok () := by
  induction names with
  | nil => simp [checkKeys]
  | cons name rest ih => rw [checkKeys, then_eq_ok, ih, List.forall_mem_cons]

/-- The descriptors of a manifest are found under their algorithms, for each has
exactly one. -/
theorem keyDescriptors_eq_ok (hKeys : Object.get (.str "keys") manifest = some (.list keys))
    (h : List.Forall₂ DescribesKey keys algorithms) (hNodup : algorithms.Nodup) :
    keyDescriptors manifest = .ok (describedPairs keys algorithms) := by
  have hDistinct := describedPairs_distinct h hNodup
  rw [keyDescriptors, Object.getItem_eq_ok.mpr hKeys, ok_bind]
  simp only [describedKeys_eq_ok h, ok_bind]
  rw [Object.setItems_distinct (by simpa using hDistinct), List.nil_append]

/-- The key file of an algorithm has the digest that its descriptor names, and
the descriptor has the key identifier, if one is asked for. -/
def BoundKey (runtime : CryptoRuntime) (directory : KeyDirectory) (keyId : Option String)
    (keys : List Object) (name : String) : Prop :=
  ∃ descriptor key, Describes keys name descriptor ∧
    (∀ expected ∈ keyId, Object.get (.str "key_id") descriptor = some (.str expected)) ∧
    directory.file (pem name) = some key ∧
    Object.get (.str "public_key_sha256") descriptor =
      some (.str (hexdigest (runtime.sha256 key)))

theorem checkKeyId_eq_ok {descriptor : List (Key × Object)} :
    checkKeyId keyId name (.dict descriptor) = .ok () ↔
      ∀ expected ∈ keyId, Object.get (.str "key_id") descriptor = some (.str expected) := by
  cases keyId with
  | none => simp [checkKeyId]
  | some expected =>
      simp only [checkKeyId, bind_eq_ok, subscript_dict, failIf_eq_ok, not_not, Object.text?_eq_some,
        Option.mem_some_iff, forall_eq']
      constructor
      · intro h
        obtain ⟨_, hHeld, rfl⟩ := h
        exact hHeld
      · intro hHeld
        exact ⟨_, hHeld, rfl⟩

/-- The check of one key file passes exactly if the key is bound. -/
theorem checkKey_eq_ok (h : List.Forall₂ DescribesKey keys algorithms) (hNodup : algorithms.Nodup) :
    checkKey runtime directory keyId (describedPairs keys algorithms) name = .ok () ↔
      BoundKey runtime directory keyId keys name := by
  simp only [checkKey, bind_eq_ok, Object.getItem_eq_ok, get_describedPairs h hNodup, readKey_iff]
  constructor
  · intro ⟨_, ⟨descriptor, hObject, hDescribes⟩, _, hKeyId, key, hFile, _, hDigest, hHash⟩
    subst hObject
    obtain rfl := Object.text?_eq_some.mp (not_not.mp (failIf_eq_ok.mp hHash))
    exact ⟨descriptor, key, hDescribes, checkKeyId_eq_ok.mp hKeyId, hFile,
      subscript_dict.mp hDigest⟩
  · intro ⟨descriptor, key, hDescribes, hKeyId, hFile, hDigest⟩
    exact ⟨_, ⟨descriptor, rfl, hDescribes⟩, (), checkKeyId_eq_ok.mpr hKeyId, key, hFile, _,
      subscript_dict.mpr hDigest, failIf_of_not (by simp [Object.text?]) _⟩

/-- The binding is checked for every algorithm of the baseline, and nothing else is
asked once the manifest has passed. -/
theorem validateKeyBinding_eq_ok
    (hKeys : Object.get (.str "keys") manifest = some (.list keys))
    (h : List.Forall₂ DescribesKey keys algorithms) (hNodup : algorithms.Nodup)
    {descriptors : List (Key × Object)} :
    validateKeyBinding runtime directory keyId manifest = .ok descriptors ↔
      validateManifest runtime.toRuntime true false manifest = .ok () ∧
        (∀ name ∈ baseline, BoundKey runtime directory keyId keys name) ∧
        descriptors = describedPairs keys algorithms := by
  rw [validateKeyBinding, then_eq_ok, keyDescriptors_eq_ok hKeys h hNodup, ok_bind, then_eq_ok,
    checkKeys_eq_ok, Except.ok.injEq, @eq_comm _ descriptors]
  simp only [checkKey_eq_ok h hNodup]

end Keys

section Entries

variable {runtime : CryptoRuntime} {directory : KeyDirectory} {message : Bytes}
  {keys : List Object} {algorithms : List String} {name : String}

/-- The lookups of a descriptor, which holds texts, and of an entry agree. -/
theorem sameText_iff {entry descriptor : List (Key × Object)} {field : String}
    (h : ∃ text, Object.get (.str field) descriptor = some (.str text)) :
    (∃ held, Object.get (.str field) entry = some held ∧ ∃ expected,
        Object.get (.str field) descriptor = some expected ∧ held.equal expected = true) ↔
      Object.get (.str field) entry = Object.get (.str field) descriptor := by
  obtain ⟨text, hText⟩ := h
  rw [hText]
  constructor
  · intro ⟨held, hHeld, expected, hExpected, hEqual⟩
    obtain rfl := Option.some.inj hExpected
    rw [hHeld, Object.equal_str_iff.mp hEqual]
  · intro hSame
    exact ⟨_, hSame, _, rfl, Object.equal_str_iff.mpr rfl⟩

/-- A signature is accepted exactly if the key file is there and opens it. -/
theorem verifyOne_eq_ok {signature : Bytes} :
    verifyOne runtime directory name message signature = .ok () ↔ ∃ key,
      directory.file (pem name) = some key ∧
        runtime.opensslVerify key message signature = .ok () := by
  simp only [verifyOne, bind_eq_ok, readKey_iff, mapError_eq_ok]

/-- A descriptor that is found is one for the algorithm, with its identifier and
URI. -/
theorem keyFor_of_describes (h : List.Forall₂ DescribesKey keys algorithms)
    {descriptor : List (Key × Object)} (hDescribes : Describes keys name descriptor) :
    KeyFor descriptor name := by
  obtain ⟨other, _, _, hObject, hKey⟩ := Traversal.exists_right h hDescribes.1
  obtain rfl := Object.dict.inj hObject
  have hName := Option.some.inj (hKey.algorithm.symm.trans hDescribes.2)
  exact Object.str.inj hName ▸ hKey

/-- The checks on the signature of an entry, each with what it compares. -/
structure SignatureChecks (runtime : CryptoRuntime) (directory : KeyDirectory)
    (message : Bytes) (name : String) (entry descriptor : List (Key × Object)) : Prop where
  keyId : Object.get (.str "key_id") entry = Object.get (.str "key_id") descriptor
  publicKeyUri :
    Object.get (.str "public_key_uri") entry = Object.get (.str "public_key_uri") descriptor
  accepted : ∃ key signature, directory.file (pem name) = some key ∧
    (Object.get (.str "value") entry).bind b64decode = some signature ∧
    runtime.opensslVerify key message signature = .ok ()

/-- One entry of a bundle is accepted exactly if it is signed with the key that it
names. -/
theorem verifySignature_eq_ok (h : List.Forall₂ DescribesKey keys algorithms)
    (hNodup : algorithms.Nodup) {entry : List (Key × Object)} :
    verifySignature runtime directory (describedPairs keys algorithms) message name entry = .ok () ↔
      ∃ descriptor, Describes keys name descriptor ∧
        SignatureChecks runtime directory message name entry descriptor := by
  simp only [verifySignature, bind_eq_ok, Object.getItem_eq_ok, get_describedPairs h hNodup,
    failIf_eq_ok, exists_const, Bool.not_eq_false]
  constructor
  · intro h
    obtain ⟨_, ⟨descriptor, rfl, hDescribes⟩, keyId, hKeyId, expectedKeyId, hExpectedKeyId,
      hSameKeyId, uri, hUri, expectedUri, hExpectedUri, hSameUri, value, hValue, hRest⟩ := h
    have hKey := keyFor_of_describes h hDescribes
    refine ⟨descriptor, hDescribes, ?_, ?_, ?_⟩
    · exact (sameText_iff hKey.keyId).mp ⟨keyId, hKeyId, expectedKeyId,
        subscript_dict.mp hExpectedKeyId, hSameKeyId⟩
    · exact (sameText_iff hKey.publicKeyUri).mp ⟨uri, hUri, expectedUri,
        subscript_dict.mp hExpectedUri, hSameUri⟩
    · split at hRest
      · rename_i signature hSignature
        obtain ⟨key, hFile, hAccepted⟩ := verifyOne_eq_ok.mp hRest
        exact ⟨key, signature, hFile, by rw [hValue, Option.bind_some, hSignature], hAccepted⟩
      · cases hRest
  · intro h
    obtain ⟨descriptor, hDescribes, hKeyId, hUri, key, signature, hFile, hSignature,
      hAccepted⟩ := h
    have hKey := keyFor_of_describes h hDescribes
    obtain ⟨keyId, hHeldKeyId, expectedKeyId, hExpectedKeyId, hSameKeyId⟩ :=
      (sameText_iff hKey.keyId).mpr hKeyId
    obtain ⟨uri, hHeldUri, expectedUri, hExpectedUri, hSameUri⟩ :=
      (sameText_iff hKey.publicKeyUri).mpr hUri
    obtain ⟨value, hValue, hDecoded⟩ := Option.bind_eq_some_iff.mp hSignature
    refine ⟨_, ⟨descriptor, rfl, hDescribes⟩, keyId, hHeldKeyId, expectedKeyId,
      subscript_dict.mpr hExpectedKeyId, hSameKeyId, uri, hHeldUri, expectedUri,
      subscript_dict.mpr hExpectedUri, hSameUri, value, hValue, ?_⟩
    simp only [hDecoded]
    exact verifyOne_eq_ok.mpr ⟨key, hFile, hAccepted⟩

/-- An entry that passes for an algorithm, whatever came before it in the list. -/
def Passes (runtime : CryptoRuntime) (directory : KeyDirectory)
    (descriptors : List (Key × Object)) (message : Bytes) (object : Object) (name : String) :
    Prop :=
  ∃ entry, object = .dict entry ∧ Object.hasKeys entryFields entry = true ∧
    Object.get (.str "algorithm") entry = some (.str name) ∧ name ∈ baseline ∧
    verifySignature runtime directory descriptors message name entry = .ok ()

theorem verifyEntry_eq_ok {descriptors : List (Key × Object)} {seen : List String}
    {object : Object} :
    verifyEntry runtime directory descriptors message seen object = .ok name ↔
      name ∉ seen ∧ Passes runtime directory descriptors message object name := by
  cases object with
  | dict entry =>
      simp only [verifyEntry, bind_eq_ok, exists_const, failIf_eq_ok, Object.getItem_eq_ok,
        textOr_eq_ok, Bool.not_eq_false, not_not]
      constructor
      · intro h
        obtain ⟨hFields, _, hAlgorithm, _, algorithm, hText, hFresh, hKnown, _, hVerified,
          hName⟩ := h
        obtain rfl := Except.ok.inj hName
        exact ⟨hFresh, entry, rfl, hFields, hText ▸ hAlgorithm, hKnown, hVerified⟩
      · intro h
        obtain ⟨hFresh, _, hObject, hFields, hAlgorithm, hKnown, hVerified⟩ := h
        obtain rfl := Object.dict.inj hObject
        exact ⟨hFields, _, hAlgorithm, rfl, name, rfl, hFresh, hKnown, (), hVerified, rfl⟩
  | none | bool _ | int _ | float _ | str _ | bytes _ | list _ | tag _ _ =>
      simp [verifyEntry, Passes]

/-- The loop passes exactly the entries that pass, for different algorithms, those
seen before included. -/
theorem verifyEntries_eq_ok {descriptors : List (Key × Object)} {seen : List String}
    {entries : List Object} {names : List String} :
    verifyEntries runtime directory descriptors message seen entries = .ok names ↔
      List.Forall₂ (Passes runtime directory descriptors message) entries names ∧
        names.Nodup ∧ ∀ name ∈ names, name ∉ seen := by
  induction entries generalizing seen names with
  | nil =>
      rw [verifyEntries, Except.ok.injEq, List.forall₂_nil_left_iff]
      constructor
      · intro h
        subst h
        exact ⟨rfl, List.nodup_nil, List.forall_mem_nil _⟩
      · exact fun h => h.1.symm
  | cons entry rest ih =>
      simp only [verifyEntries, bind_eq_ok, verifyEntry_eq_ok, ih, Except.ok.injEq]
      constructor
      · intro ⟨name, ⟨hFresh, hPasses⟩, others, ⟨hOthers, hNodup, hUnseen⟩, hNames⟩
        subst hNames
        refine ⟨.cons hPasses hOthers, List.nodup_cons.mpr ⟨fun hMem => ?_, hNodup⟩,
          List.forall_mem_cons.mpr ⟨hFresh, fun other hMem hSeen => ?_⟩⟩
        · exact hUnseen name hMem (List.mem_cons_self ..)
        · exact hUnseen other hMem (List.mem_cons_of_mem _ hSeen)
      · intro ⟨hPasses, hNodup, hUnseen⟩
        cases hPasses with
        | @cons _ name _ others hFirst hOthers =>
            obtain ⟨hRepeated, hNodup⟩ := List.nodup_cons.mp hNodup
            obtain ⟨hFresh, hUnseen⟩ := List.forall_mem_cons.mp hUnseen
            refine ⟨name, ⟨hFresh, hFirst⟩, others, ⟨hOthers, hNodup, fun other hMem => ?_⟩, rfl⟩
            intro hSeen
            obtain rfl | hSeen := List.mem_cons.mp hSeen
            · exact hRepeated hMem
            · exact hUnseen other hMem hSeen

/-- No algorithm has two descriptors, so a signature cannot be checked under another
key. -/
theorem describes_unique (h : List.Forall₂ DescribesKey keys algorithms)
    (hNodup : algorithms.Nodup) {first second : List (Key × Object)}
    (hFirst : Describes keys name first) (hSecond : Describes keys name second) :
    first = second := by
  have hGet := (get_describedPairs h hNodup).mpr ⟨first, rfl, hFirst⟩
  have hOther := (get_describedPairs h hNodup).mpr ⟨second, rfl, hSecond⟩
  exact Object.dict.inj (Option.some.inj (hGet.symm.trans hOther))

/-- A signed entry is under a key that is bound, whatever key identifier was asked
for. -/
theorem Signed.boundKey {object : Object} (h : Signed runtime directory keys message object name) :
    BoundKey runtime directory none keys name := by
  obtain ⟨entry, descriptor, key, signature, -, hSigned⟩ := h
  have hNoId (expected : String) (hNone : expected ∈ (none : Option String)) :
      Object.get (.str "key_id") descriptor = some (.str expected) := by
    cases hNone
  exact ⟨descriptor, key, hSigned.described, hNoId, hSigned.file, hSigned.digest⟩

/-- Under bound keys the entries that pass are the signed ones, for the descriptor
found is the one of the manifest. -/
theorem passes_iff_signed (h : List.Forall₂ DescribesKey keys algorithms)
    (hNodup : algorithms.Nodup) (hBound : ∀ name ∈ baseline, BoundKey runtime directory none keys name)
    {object : Object} : Passes runtime directory (describedPairs keys algorithms) message object name ↔
      Signed runtime directory keys message object name := by
  simp only [Passes, verifySignature_eq_ok h hNodup]
  constructor
  · intro ⟨entry, hObject, hFields, hAlgorithm, hKnown, descriptor, hDescribes, hKeyId, hUri, key,
      signature, hFile, hSignature, hAccepted⟩
    obtain ⟨other, otherKey, hOther, -, hOtherFile, hDigest⟩ := hBound name hKnown
    obtain rfl := describes_unique h hNodup hDescribes hOther
    obtain rfl := Option.some.inj (hFile.symm.trans hOtherFile)
    exact ⟨entry, descriptor, key, signature, hObject, hFields, hAlgorithm, hDescribes, hKeyId, hUri,
      hFile, hDigest, hSignature, hAccepted⟩
  · intro ⟨entry, descriptor, key, signature, hObject, hSigned⟩
    exact ⟨entry, hObject, hSigned.fields, hSigned.algorithm,
      (keyFor_of_describes h hSigned.described).known, descriptor, hSigned.described, hSigned.keyId,
      hSigned.publicKeyUri, key, signature, hSigned.file, hSigned.value, hSigned.accepted⟩

end Entries

section Bundle

variable {runtime : CryptoRuntime} {manifest : List (Key × Object)}

/-- A bundle is opened if it is a dictionary with exactly its fields. -/
theorem openBundle_eq_ok {object : Object} {fields : List (Key × Object)} :
    openBundle object = .ok fields ↔
      object = .dict fields ∧ Object.hasKeys bundleFields fields = true := by
  cases object with
  | dict entries =>
      simp only [openBundle, then_eq_ok, failIf_eq_ok, Bool.not_eq_false, Except.ok.injEq,
        Object.dict.injEq]
      constructor
      · intro h
        obtain ⟨hFields, rfl⟩ := h
        exact ⟨rfl, hFields⟩
      · intro h
        obtain ⟨rfl, hFields⟩ := h
        exact ⟨hFields, rfl⟩
  | none | bool _ | int _ | float _ | str _ | bytes _ | list _ | tag _ _ => simp [openBundle]

/-- The digest is that of the canonical octets, once the policy has passed. -/
theorem payloadHash_eq_ok (hPolicy : validateManifest runtime.toRuntime true false manifest = .ok ())
    {canonical : Bytes} {digest : String} :
    payloadHash runtime manifest = .ok (canonical, digest) ↔
      canonicalize (.dict manifest) = .ok canonical ∧
        hexdigest (runtime.sha512 canonical) = digest := by
  simp only [payloadHash, hPolicy, ok_bind, bind_eq_ok, Except.ok.injEq, Prod.mk.injEq]
  constructor
  · intro ⟨_, hCanonical, hSame, hDigest⟩
    exact ⟨hSame ▸ hCanonical, hSame ▸ hDigest⟩
  · intro ⟨hCanonical, hDigest⟩
    exact ⟨canonical, hCanonical, rfl, hDigest⟩

theorem manifestSubject_eq_ok {subject : String} : manifestSubject manifest = .ok subject ↔
    Object.get (.str "subject") manifest = some (.str subject) := by
  simp only [manifestSubject, bind_eq_ok, Object.getItem_eq_ok, textOr_eq_ok]
  exact ⟨fun ⟨_, hGet, hText⟩ => hText ▸ hGet, fun hGet => ⟨_, hGet, rfl⟩⟩

theorem manifestEpoch_eq_ok {keyEpoch : Int} : manifestEpoch manifest = .ok keyEpoch ↔
    Object.get (.str "key_epoch") manifest = some (.int keyEpoch) := by
  simp only [manifestEpoch, bind_eq_ok, Object.getItem_eq_ok, intOr_eq_ok]
  exact ⟨fun ⟨_, hGet, hInt⟩ => hInt ▸ hGet, fun hGet => ⟨_, hGet, rfl⟩⟩

theorem baseline_nodup : baseline.Nodup := by decide

/-- Neither list has a member that the other one lacks, and so they are the same up to
order. -/
theorem perm_baseline_iff {names : List String} (hNodup : names.Nodup) :
    (¬((∃ name ∈ baseline, name ∉ names) ∨ ∃ name ∈ names, name ∉ baseline)) ↔
      names.Perm baseline := by
  rw [List.perm_ext_iff_of_nodup hNodup baseline_nodup]
  constructor
  · intro h name
    obtain ⟨hMissing, hForeign⟩ := not_or.mp h
    constructor
    · intro hMem
      by_contra hUnknown
      exact hForeign ⟨name, hMem, hUnknown⟩
    · intro hKnown
      by_contra hAbsent
      exact hMissing ⟨name, hKnown, hAbsent⟩
  · intro h
    apply not_or.mpr
    constructor
    · intro ⟨name, hKnown, hAbsent⟩
      exact hAbsent ((h name).mpr hKnown)
    · intro ⟨name, hMem, hUnknown⟩
      exact hUnknown ((h name).mp hMem)

/-- The entries that the loop passes are one for each algorithm of the baseline, in
any order. -/
theorem verifyEntries_baseline {directory : KeyDirectory} {message : Bytes} {keys : List Object}
    {algorithms : List String} (h : List.Forall₂ DescribesKey keys algorithms)
    (hNodup : algorithms.Nodup) (hBound : ∀ name ∈ baseline, BoundKey runtime directory none keys name)
    {entries : List Object} {names : List String} :
    (verifyEntries runtime directory (describedPairs keys algorithms) message [] entries =
        .ok names ∧
      ¬((∃ name ∈ baseline, name ∉ names) ∨ ∃ name ∈ names, name ∉ baseline)) ↔
      List.Forall₂ (Signed runtime directory keys message) entries names ∧ names.Perm baseline := by
  have hRelation : Passes runtime directory (describedPairs keys algorithms) message =
      Signed runtime directory keys message :=
    funext₂ fun _ _ => propext (passes_iff_signed h hNodup hBound)
  simp only [verifyEntries_eq_ok, hRelation, List.not_mem_nil, not_false_eq_true, implies_true,
    and_true, and_assoc]
  apply and_congr_right
  intro _
  constructor
  · intro ⟨hDistinct, hSame⟩
    exact (perm_baseline_iff hDistinct).mp hSame
  · intro hPerm
    have hDistinct := hPerm.nodup_iff.mpr baseline_nodup
    exact ⟨hDistinct, (perm_baseline_iff hDistinct).mpr hPerm⟩

end Bundle

/-- The conditions on which a bundle is accepted, and what is returned then. -/
structure AcceptedBundle (runtime : CryptoRuntime) (directory : KeyDirectory)
    (manifest : List (Key × Object)) (bundle result : Object) (fields : List (Key × Object))
    (signed : SignedMetadata) (message : Bytes) (keys entries : List Object)
    (algorithms : List String) : Prop where
  bundle : bundle = .dict fields
  checks : BundleChecks runtime manifest fields signed message
  described : Object.get (.str "keys") manifest = some (.list keys)
  signatures : Object.get (.str "signatures") fields = some (.list entries)
  accepted : List.Forall₂ (Signed runtime directory keys message) entries algorithms
  complete : algorithms.Perm baseline
  result : result = verified signed.digest algorithms

/-- What is returned has met the conditions, and is the report on them. -/
theorem acceptedBundle_of_ok {runtime : CryptoRuntime} {directory : KeyDirectory}
    {manifest : List (Key × Object)} {bundle result : Object}
    (h : verifyBundle runtime directory manifest bundle = .ok result) :
    ∃ fields signed message keys entries algorithms, AcceptedBundle runtime directory manifest bundle
      result fields signed message keys entries algorithms := by
  rw [verifyBundle] at h
  obtain ⟨hOpenssl, h⟩ := then_eq_ok.mp h
  obtain ⟨descriptors, hBinding, h⟩ := bind_eq_ok.mp h
  have hPolicy : validateManifest runtime.toRuntime true false manifest = .ok () :=
    (then_eq_ok.mp hBinding).1
  obtain ⟨-, -, keys, described, hKeys, hDescribed, hPerm⟩ := validateManifest_bound hPolicy
  have hNodup := hPerm.nodup_iff.mpr baseline_nodup
  obtain ⟨-, hBound, rfl⟩ := (validateKeyBinding_eq_ok hKeys hDescribed hNodup).mp hBinding
  obtain ⟨fields, hOpen, h⟩ := bind_eq_ok.mp h
  obtain ⟨hBundle, hFields⟩ := openBundle_eq_ok.mp hOpen
  obtain ⟨hVersion, h⟩ := then_eq_ok.mp h
  obtain ⟨instant, hTimestamp, h⟩ := bind_eq_ok.mp h
  obtain ⟨⟨canonical, digest⟩, hPayload, h⟩ := bind_eq_ok.mp h
  obtain ⟨subject, hSubject, h⟩ := bind_eq_ok.mp h
  obtain ⟨keyEpoch, hKeyEpoch, h⟩ := bind_eq_ok.mp h
  obtain ⟨hMetadata, h⟩ := then_eq_ok.mp h
  obtain ⟨hPolicyId, h⟩ := then_eq_ok.mp h
  obtain ⟨created, hCreated, h⟩ := bind_eq_ok.mp h
  obtain ⟨message, hMessage, h⟩ := bind_eq_ok.mp h
  obtain ⟨signatures, hSignatures⟩ := get_of_hasKeys hFields (show "signatures" ∈ bundleFields by decide)
  rw [hSignatures, Option.getD_some] at h
  cases signatures with
  | list entries =>
      obtain ⟨algorithms, hEntries, h⟩ := bind_eq_ok.mp h
      obtain ⟨hComplete, h⟩ := then_eq_ok.mp h
      obtain ⟨hSigned, hBaseline⟩ := (verifyEntries_baseline hDescribed hNodup hBound).mp
        ⟨hEntries, raiseIf_eq_ok.mp hComplete⟩
      obtain ⟨hDigest, hSame⟩ := not_or.mp (failIf_eq_ok.mp hMetadata)
      obtain ⟨hSameSubject, hSameEpoch⟩ := not_or.mp hSame
      have hText := textOr_eq_ok.mp hCreated
      refine ⟨fields, ⟨subject, digest, created, keyEpoch⟩, message, keys, entries, algorithms,
        hBundle, ?_, hKeys, hSignatures, hSigned, hBaseline, (Except.ok.inj h).symm⟩
      exact {
        openssl := hOpenssl
        policy := hPolicy
        names := hFields
        version := bundleField_text.mp (not_not.mp (failIf_eq_ok.mp hVersion))
        created := bundleField_text.mp (Object.text?_eq_some.mpr hText)
        timestamp := ⟨instant, hText ▸ hTimestamp⟩
        digest := ⟨canonical, (payloadHash_eq_ok hPolicy).mp hPayload⟩
        payload := bundleField_text.mp (not_not.mp hDigest)
        manifestSubject := manifestSubject_eq_ok.mp hSubject
        subject := bundleField_text.mp (not_not.mp hSameSubject)
        manifestEpoch := manifestEpoch_eq_ok.mp hKeyEpoch
        keyEpoch := equalsInteger_bundleField.mp (Bool.not_eq_false _ ▸ hSameEpoch)
        policyId := bundleField_text.mp (not_not.mp (failIf_eq_ok.mp hPolicyId))
        message := hMessage }
  | none | bool _ | int _ | float _ | str _ | bytes _ | dict _ | tag _ _ => cases h

/-- A bundle that meets the conditions is accepted, since no other check is made. -/
theorem ok_of_acceptedBundle {runtime : CryptoRuntime} {directory : KeyDirectory}
    {manifest : List (Key × Object)} {bundle result : Object} {fields : List (Key × Object)}
    {signed : SignedMetadata} {message : Bytes} {keys entries : List Object}
    {algorithms : List String} (h : AcceptedBundle runtime directory manifest bundle
      result fields signed message keys entries algorithms) :
    verifyBundle runtime directory manifest bundle = .ok result := by
  obtain ⟨rfl, hChecks, hKeys, hSignatures, hEntries, hComplete, rfl⟩ := h
  obtain ⟨-, -, _, described, hGet, hDescribed, hPerm⟩ := validateManifest_bound hChecks.policy
  obtain rfl := Object.list.inj (Option.some.inj (hKeys.symm.trans hGet))
  have hNodup := hPerm.nodup_iff.mpr baseline_nodup
  have hBound (name : String) (hName : name ∈ baseline) :
      BoundKey runtime directory none keys name := by
    obtain ⟨object, -, hSigned⟩ := Traversal.exists_left hEntries (hComplete.mem_iff.mpr hName)
    exact hSigned.boundKey
  obtain ⟨hLoop, hSet⟩ :=
    (verifyEntries_baseline hDescribed hNodup hBound).mpr ⟨hEntries, hComplete⟩
  obtain ⟨instant, hTimestamp⟩ := hChecks.timestamp
  obtain ⟨canonical, hDigest⟩ := hChecks.digest
  have hCreated : bundleField "created" fields = .str signed.created :=
    Object.text?_eq_some.mp (bundleField_text.mpr hChecks.created)
  rw [verifyBundle, hChecks.openssl, ok_bind,
    (validateKeyBinding_eq_ok hKeys hDescribed hNodup).mpr ⟨hChecks.policy, hBound, rfl⟩, ok_bind,
    openBundle_eq_ok.mpr ⟨rfl, hChecks.names⟩, ok_bind,
    failIf_of_not (not_not.mpr (bundleField_text.mpr hChecks.version)), ok_bind, hCreated,
    hTimestamp, ok_bind, (payloadHash_eq_ok hChecks.policy).mpr hDigest, ok_bind]
  have hMetadata : ¬((bundleField "payload_sha512" fields).text? ≠ some signed.digest ∨
      (bundleField "subject" fields).text? ≠ some signed.subject ∨
      equalsInteger runtime.toEventRuntime signed.keyEpoch (bundleField "key_epoch" fields) =
        false) := by
    simp [bundleField_text.mpr hChecks.payload, bundleField_text.mpr hChecks.subject,
      equalsInteger_bundleField.mpr hChecks.keyEpoch]
  simp only [manifestSubject_eq_ok.mpr hChecks.manifestSubject, ok_bind,
    manifestEpoch_eq_ok.mpr hChecks.manifestEpoch, failIf_of_not hMetadata,
    failIf_of_not (not_not.mpr (bundleField_text.mpr hChecks.policyId)), textOr, hChecks.message,
    hSignatures, Option.getD_some, hLoop, raiseIf_of_not hSet]

end Tfws.Python
