import Tfws.Agreement.Headers
import Tfws.Agreement.Manifest

/-! The envelopes that the conformance verifier of the reference implementation
accepts: fixtures over some payload that it decodes, under the fixture's keys. -/
namespace Tfws

open SerdeJson Fallible Cbor
open Python (Object Key Canonical Flags Runtime)

variable {crates : Crates} {runtime : Runtime}

theorem getElem?_flatten_replicate {α : Type*} (items : List α) (count index : Nat)
    (h : index < count * items.length) :
    (List.replicate count items).flatten[index]? = items[index % items.length]? := by
  induction count generalizing index with
  | zero => omega
  | succ count ih =>
      rw [List.replicate_succ, List.flatten_cons]
      by_cases hFirst : index < items.length
      · rw [List.getElem?_append_left hFirst, Nat.mod_eq_of_lt hFirst]
      · rw [List.getElem?_append_right (not_lt.mp hFirst), ih _ (by rw [Nat.succ_mul] at h; omega),
          Nat.mod_eq_sub_mod (not_lt.mp hFirst)]

/-- Repeating the digest and cycling through it give the same octets: both
implementations make the same fixture of a message. -/
theorem fixtureSignature_eq (algorithm : CoseAlgorithm) (message : Bytes) :
    Python.fixtureSignature Cli.sha256 (Cli.fixturePrefix algorithm) message
        algorithm.expectedSignatureLen = Cli.fixtureSignature algorithm message := by
  have hDigest := Cli.length_sha256 (Cli.fixturePrefix algorithm :: message)
  have hEnough : algorithm.expectedSignatureLen ≤
      (algorithm.expectedSignatureLen + 32 - 1) / 32 * 32 := by
    cases algorithm <;> decide
  rw [Python.fixtureSignature, Cli.fixtureSignature, Cli.cycleTake]
  refine List.ext_getElem? fun index => ?_
  by_cases hIndex : index < algorithm.expectedSignatureLen
  · rw [List.getElem?_take_of_lt hIndex, getElem?_flatten_replicate _ _ _ (by rw [hDigest]; omega),
      List.getElem?_map, List.getElem?_range hIndex, Option.map_some, hDigest,
      List.getD_eq_getElem?_getD, List.getElem?_eq_getElem (by omega), Option.getD_some]
  · rw [List.getElem?_take_eq_none (not_lt.mp hIndex), eq_comm, List.getElem?_eq_none]
    simpa using hIndex

/-- A fixture has the length that its algorithm demands, so that the checks of the
length agree on it. -/
theorem length_fixtureSignature (algorithm : CoseAlgorithm) (message : Bytes) :
    (Cli.fixtureSignature algorithm message).length = algorithm.expectedSignatureLen := by
  simp [Cli.fixtureSignature, Cli.cycleTake]

theorem cborHead_eq {n : Nat} (h : n < 18446744073709551616) (major : Nat) :
    Python.cborHead major n = .ok (head major n) := by
  unfold Python.cborHead head preferred
  split_ifs <;> simp [Form.head, Form.additional, Form.width, bigEndian]

/-- The message of a signature is the same octets on both sides, as long as its parts
have heads. -/
theorem encodeSigStructure_object {bodyProtected protectedHeader payload : Bytes}
    (hBody : bodyProtected.length < 18446744073709551616)
    (hProtected : protectedHeader.length < 18446744073709551616)
    (hPayload : payload.length < 18446744073709551616) :
    Python.encodeCoseSigValue (.list [.str "Signature", .bytes bodyProtected, .bytes protectedHeader,
        .bytes [], .bytes payload]) =
      .ok (sigStructureItem bodyProtected protectedHeader payload).encode := by
  have hText : (Utf8.encode "Signature").length < 18446744073709551616 := by decide
  have hFive : 5 < 18446744073709551616 := by decide
  have hZero : 0 < 18446744073709551616 := by decide
  simp [Python.encodeCoseSigValue, Python.encodeCoseSigMembers, cborHead_eq hBody,
    cborHead_eq hProtected, cborHead_eq hPayload, cborHead_eq hText, cborHead_eq hFive,
    cborHead_eq hZero, sigStructureItem, Item.encode, Item.encodeItems]

/-- The octets that the fixture of an algorithm covers, with either header. The header
is part of the message. -/
def fixtureMessage (aliased : Bool) (payload : Bytes) (algorithm : CoseAlgorithm) : Bytes :=
  (sigStructureItem bodyProtectedItem.encode (signatureHeaderItem aliased algorithm).encode
    payload).encode

/-- The signature of a fixture envelope, with either header. Where the header has
`true` for its label, only one side accepts it. -/
def fixtureSigned (aliased : CoseAlgorithm → Bool) (payload : Bytes) (algorithm : CoseAlgorithm) :
    EncodedSignature where
  protectedHeader := (signatureHeaderItem (aliased algorithm) algorithm).encode
  signature := Cli.fixtureSignature algorithm (fixtureMessage (aliased algorithm) payload algorithm)

/-- The envelope with fixtures over a payload; `aliased` tells which headers
have `True` for the label 1. -/
def fixtureEnvelope (aliased : CoseAlgorithm → Bool) (payload : Bytes) : Bytes :=
  (envelopeItem bodyProtectedItem.encode payload
    (requiredSignatures.map (fixtureSigned aliased payload))).encode

/-- The manifest names the two keys of the fixture: one descriptor for each algorithm,
with the identifier and the digest. -/
def FixtureKeys (manifest : Manifest) : Prop :=
  ∀ algorithm : CoseAlgorithm, ∃ key ∈ manifest.keys, key.algorithm = algorithm.tfwsIdentifier ∧
    key.keyId = "release-1" ∧ key.publicKeySha256 = Cli.expectedSha algorithm

/-- Only the empty dictionary passes for an empty map, and so for an unprotected
header. -/
theorem isEmptyDict_iff {object : Object} : Python.isEmptyDict object = true ↔ object = .dict [] := by
  unfold Python.isEmptyDict
  split <;> simp_all

/-- A signature entry, as the reference implementation holds it: header, empty map and
octets in a list. -/
def entryObject (aliased : Bool) (algorithm : CoseAlgorithm) (signature : Bytes) : Object :=
  .list [.bytes (signatureHeaderItem aliased algorithm).encode, .dict [], .bytes signature]

/-- What `parsed_signatures` holds for the entry of an algorithm, once its header and
length have passed. -/
def entryParsed (aliased : Bool) (algorithm : CoseAlgorithm) (signature : Bytes) :
    Python.ParsedSignature where
  protectedHeader := .bytes (signatureHeaderItem aliased algorithm).encode
  signature := signature
  profile := profileOf algorithm

/-- An entry is parsed exactly if it is one for its algorithm, with either header. -/
theorem Python.parseSignature_eq_ok {index : Nat} {entry : Object} {algorithm : CoseAlgorithm}
    {parsed : Python.ParsedSignature} :
    Python.parseSignature index entry (profileOf algorithm) = .ok parsed ↔
      ∃ aliased signature, entry = entryObject aliased algorithm signature ∧
        signature.length = algorithm.expectedSignatureLen ∧
        parsed = entryParsed aliased algorithm signature := by
  constructor
  · intro h
    unfold Python.parseSignature at h
    split at h
    · rename_i protectedHeader unprotectedHeader signature
      simp only [then_eq_ok, failIf_eq_ok, Bool.not_eq_false, isEmptyDict_iff,
        Python.validateSignatureProtected_eq_ok] at h
      obtain ⟨rfl, ⟨aliased, rfl⟩, h⟩ := h
      cases signature with
      | bytes octets =>
          simp only [then_eq_ok, failIf_eq_ok, not_ne_iff, Except.ok.injEq] at h
          exact ⟨aliased, octets, rfl, h.1, h.2.symm⟩
      | _ => cases h
    · cases h
  · rintro ⟨aliased, signature, rfl, hLength, rfl⟩
    rw [entryObject, Python.parseSignature]
    simp only [then_eq_ok, failIf_eq_ok, Bool.not_eq_false, isEmptyDict_iff, true_and]
    exact ⟨Python.validateSignatureProtected_eq_ok.mpr ⟨aliased, rfl⟩, not_not.mpr hLength, rfl⟩

/-- The two entries of an envelope, each in its place and with either header: what the
loop of the reference implementation accepts. -/
theorem Python.parseSignatures_eq_ok {entries : List Object} {parsed : List Python.ParsedSignature} :
    (entries.length = 2 ∧
      Python.parseSignatures 0 (entries.zip Python.expectedProfiles) = .ok parsed) ↔
      ∃ (aliased : CoseAlgorithm → Bool) (signature : CoseAlgorithm → Bytes),
        entries = (requiredSignatures.map fun algorithm =>
          entryObject (aliased algorithm) algorithm (signature algorithm)) ∧
        (∀ algorithm, (signature algorithm).length = algorithm.expectedSignatureLen) ∧
        parsed = requiredSignatures.map fun algorithm =>
          entryParsed (aliased algorithm) algorithm (signature algorithm) := by
  have hTwo (first second : Object) :
      Python.parseSignatures 0 ([first, second].zip Python.expectedProfiles) = .ok parsed ↔
        ∃ edParsed, Python.parseSignature 0 first (profileOf .ed25519) = .ok edParsed ∧
        ∃ mlParsed, Python.parseSignature 1 second (profileOf .mlDsa65) = .ok mlParsed ∧
          parsed = [edParsed, mlParsed] := by
    rw [expectedProfiles_eq]
    simp only [requiredSignatures, List.map_cons, List.map_nil, List.zip_cons_cons, List.zip_nil_right,
      Python.parseSignatures, bind_eq_ok, Except.ok.injEq, Nat.zero_add]
    constructor
    · rintro ⟨edParsed, hEd, _, ⟨mlParsed, hMl, _, rfl, rfl⟩, rfl⟩
      exact ⟨edParsed, hEd, mlParsed, hMl, rfl⟩
    · rintro ⟨edParsed, hEd, mlParsed, hMl, rfl⟩
      exact ⟨edParsed, hEd, _, ⟨mlParsed, hMl, _, rfl, rfl⟩, rfl⟩
  constructor
  · rintro ⟨hLength, h⟩
    obtain ⟨first, second, rfl⟩ := List.length_eq_two.mp hLength
    obtain ⟨_, hEd, _, hMl, rfl⟩ := (hTwo first second).mp h
    obtain ⟨edAliased, edSignature, rfl, hEdLength, rfl⟩ := Python.parseSignature_eq_ok.mp hEd
    obtain ⟨mlAliased, mlSignature, rfl, hMlLength, rfl⟩ := Python.parseSignature_eq_ok.mp hMl
    refine ⟨CoseAlgorithm.select edAliased mlAliased,
      CoseAlgorithm.select edSignature mlSignature, rfl, ?_, rfl⟩
    rintro (_ | _) <;> assumption
  · rintro ⟨aliased, signature, rfl, hLength, rfl⟩
    exact ⟨rfl, (hTwo _ _).mpr ⟨_, Python.parseSignature_eq_ok.mpr ⟨_, _, rfl, hLength .ed25519, rfl⟩,
      _, Python.parseSignature_eq_ok.mpr ⟨_, _, rfl, hLength .mlDsa65, rfl⟩, rfl⟩⟩

/-- The dictionaries of a list of key descriptors, by algorithm, as `descriptors`
holds them. -/
def descriptorEntries (keys : List KeyDescriptor) : List (Object × List (Key × Object)) :=
  keys.map fun key => (.str key.algorithm, Object.ofEntries (SortedMap.present key.record))

theorem getItem_present {fields : List (String × Option Value)} (hNames : (fields.map Prod.fst).Nodup)
    {name : String} {value : Value} (hMem : (name, some value) ∈ fields) :
    Object.getItem name (Object.ofEntries (SortedMap.present fields)) =
      .ok (Object.ofValue value) :=
  (getItem_ofEntries (SortedMap.sorted_present fields)).mpr
    ⟨value, SortedMap.lookup_present hNames hMem, rfl⟩

theorem KeyDescriptor.record_names (key : KeyDescriptor) : (key.record.map Prod.fst).Nodup :=
  show KeyDescriptor.fields.Nodup by decide

theorem algorithmEntries_keys (keys : List KeyDescriptor) :
    Python.algorithmEntries ((keys.map KeyDescriptor.document).map Object.ofValue) =
      .ok (descriptorEntries keys) := by
  induction keys with
  | nil => rfl
  | cons key keys ih =>
      have hAlgorithm : Object.getItem "algorithm" (Object.ofEntries (SortedMap.present key.record)) =
          .ok (Object.ofValue (.string key.algorithm)) :=
        getItem_present key.record_names (by simp [KeyDescriptor.record, stringField])
      rw [List.map_cons, List.map_cons, Python.algorithmEntries, ih, KeyDescriptor.document,
        Object.ofValue_object_eq, Python.algorithmEntry, hAlgorithm]
      simp [Object.ofValue, Object.hashable, failIf, descriptorEntries]

/-- The last descriptor of an algorithm, if the algorithms differ, is the one there
is. -/
theorem descriptorOf_entries {keys : List KeyDescriptor}
    (hNodup : (keys.map KeyDescriptor.algorithm).Nodup) {name : String}
    {descriptor : List (Key × Object)} :
    Python.descriptorOf name (descriptorEntries keys) = some descriptor ↔
      ∃ key ∈ keys, key.algorithm = name ∧
        Object.ofEntries (SortedMap.present key.record) = descriptor := by
  rw [Python.descriptorOf, Option.map_eq_some_iff]
  constructor
  · rintro ⟨entry, hFind, rfl⟩
    have hMem := List.mem_of_find?_eq_some hFind
    have hName := List.find?_some hFind
    rw [List.mem_reverse, descriptorEntries, List.mem_map] at hMem
    obtain ⟨key, hKey, rfl⟩ := hMem
    exact ⟨key, hKey, by simpa [Object.text?] using hName, rfl⟩
  · rintro ⟨key, hKey, rfl, rfl⟩
    have hEntry : (Object.str key.algorithm, Object.ofEntries (SortedMap.present key.record)) ∈
        (descriptorEntries keys).reverse :=
      List.mem_reverse.mpr (List.mem_map_of_mem hKey)
    cases hFind : (descriptorEntries keys).reverse.find? fun entry =>
        entry.1.text? = some key.algorithm with
    | none =>
        have hNone := List.find?_eq_none.mp hFind _ hEntry
        simp [Object.text?] at hNone
    | some entry =>
        have hMem := List.mem_of_find?_eq_some hFind
        have hName := List.find?_some hFind
        rw [List.mem_reverse, descriptorEntries, List.mem_map] at hMem
        obtain ⟨other, hOther, rfl⟩ := hMem
        have hSame : other.algorithm = key.algorithm := by simpa [Object.text?] using hName
        obtain rfl := List.inj_on_of_nodup_map hNodup hOther hKey hSame
        exact ⟨_, rfl, rfl⟩

/-- The binding of one algorithm passes exactly if the manifest has the fixture's key
for it. -/
theorem validateBinding_eq_ok {keys : List KeyDescriptor}
    (hNodup : (keys.map KeyDescriptor.algorithm).Nodup) {algorithm : CoseAlgorithm} :
    Python.validateBinding (descriptorEntries keys) algorithm.tfwsIdentifier = .ok () ↔
      ∃ key ∈ keys, key.algorithm = algorithm.tfwsIdentifier ∧ key.keyId = "release-1" ∧
        key.publicKeySha256 = Cli.expectedSha algorithm := by
  have hSha : Python.conformanceKeySha256.lookup algorithm.tfwsIdentifier =
      some (Cli.expectedSha algorithm) := by
    cases algorithm <;> decide
  have hKey (key : KeyDescriptor) : (Object.getItem "key_id" (Object.ofEntries
      (SortedMap.present key.record)) = .ok (.str key.keyId)) ∧
      Object.getItem "public_key_sha256" (Object.ofEntries (SortedMap.present key.record)) =
        .ok (.str key.publicKeySha256) := by
    have hKeyId := getItem_present key.record_names
      (show ("key_id", some (Value.string key.keyId)) ∈ key.record by
        simp [KeyDescriptor.record, stringField])
    have hSha256 := getItem_present key.record_names
      (show ("public_key_sha256", some (Value.string key.publicKeySha256)) ∈ key.record by
        simp [KeyDescriptor.record, stringField])
    rw [Object.ofValue] at hKeyId hSha256
    exact ⟨hKeyId, hSha256⟩
  rw [Python.validateBinding, hSha]
  cases hFind : Python.descriptorOf algorithm.tfwsIdentifier (descriptorEntries keys) with
  | none =>
      constructor
      · intro hBound
        cases hBound
      · intro hBound
        obtain ⟨key, hMem, hAlgorithm, _⟩ := hBound
        rw [(descriptorOf_entries hNodup).mpr ⟨key, hMem, hAlgorithm, rfl⟩] at hFind
        cases hFind
  | some descriptor =>
      obtain ⟨key, hMem, hAlgorithm, rfl⟩ := (descriptorOf_entries hNodup).mp hFind
      dsimp only
      rw [(hKey key).1, (hKey key).2]
      simp only [ok_bind, Python.textOr, then_eq_ok, failIf_eq_ok, not_ne_iff]
      constructor
      · rintro ⟨hKeyId, hSha256⟩
        exact ⟨key, hMem, hAlgorithm, Utf8.encode_injective hKeyId, Option.some.inj hSha256⟩
      · rintro ⟨other, hOther, hOtherAlgorithm, hKeyId, hSha256⟩
        obtain rfl := List.inj_on_of_nodup_map hNodup hMem hOther
          (hAlgorithm.trans hOtherAlgorithm.symm)
        exact ⟨congrArg Utf8.encode hKeyId, congrArg some hSha256⟩

/-- The keys that the reference implementation finds in its dictionary are those of
the manifest. -/
theorem validateBindings_eq_ok {manifest : Manifest}
    (hNodup : (manifest.keys.map KeyDescriptor.algorithm).Nodup)
    {aliased : CoseAlgorithm → Bool} {signature : CoseAlgorithm → Bytes} :
    (∃ descriptors, Python.descriptorsOf
        (Object.ofEntries (SortedMap.present manifest.record)) = .ok descriptors ∧
      Python.validateBindings descriptors (requiredSignatures.map fun algorithm =>
        entryParsed (aliased algorithm) algorithm (signature algorithm)) = .ok ()) ↔
      FixtureKeys manifest := by
  have hKeys := getItem_present manifest.record_names
    (show ("keys", some (Value.array (manifest.keys.map KeyDescriptor.document))) ∈ manifest.record by
      simp [Manifest.record])
  rw [Python.descriptorsOf, hKeys, ok_bind, Object.ofValue_array]
  dsimp only
  rw [algorithmEntries_keys]
  simp only [Except.ok.injEq, exists_eq_left', requiredSignatures, List.map_cons, List.map_nil,
    Python.validateBindings, then_eq_ok]
  constructor
  · rintro ⟨hEd, hMl, _⟩
    rintro (_ | _)
    · exact (validateBinding_eq_ok hNodup).mp hEd
    · exact (validateBinding_eq_ok hNodup).mp hMl
  · intro h
    exact ⟨(validateBinding_eq_ok hNodup).mpr (h .ed25519),
      (validateBinding_eq_ok hNodup).mpr (h .mlDsa65), trivial⟩

/-- The envelope as the reference implementation holds it, with either header for each
of its signatures. -/
def envelopeObject (aliased : CoseAlgorithm → Bool) (payload : Bytes)
    (signature : CoseAlgorithm → Bytes) : Object :=
  .tag 98 (.list [.bytes bodyProtectedItem.encode, .dict [], .bytes payload,
    .list (requiredSignatures.map fun algorithm =>
      entryObject (aliased algorithm) algorithm (signature algorithm))])

/-- The object of an envelope is encoded as the envelope, so that the two decoders can
be compared on its octets. -/
theorem envelopeObject_item (aliased : CoseAlgorithm → Bool) (payload : Bytes)
    (signature : CoseAlgorithm → Bytes) :
    (envelopeObject aliased payload signature).item =
      envelopeItem bodyProtectedItem.encode payload (requiredSignatures.map fun algorithm =>
        ⟨(signatureHeaderItem (aliased algorithm) algorithm).encode, signature algorithm⟩) := by
  simp [envelopeObject, Object.item, Object.itemMembers, Object.itemFields, requiredSignatures,
    entryObject, envelopeItem, signatureItem]

/-- Headers and signatures have room in a document, below every limit of the two
decoders. -/
theorem length_signatureHeader_le (aliased : Bool) (algorithm : CoseAlgorithm) :
    (signatureHeaderItem aliased algorithm).encode.length ≤ 32 := by
  cases aliased <;> cases algorithm <;> decide

theorem canonical_envelopeObject {aliased : CoseAlgorithm → Bool} {payload : Bytes}
    {signature : CoseAlgorithm → Bytes} (hPayload : payload.length ≤ Python.maxCborStringBytes)
    (hLength : ∀ algorithm, (signature algorithm).length = algorithm.expectedSignatureLen) :
    Canonical Flags.envelope 0 (envelopeObject aliased payload signature) := by
  have hBytes {octets : Bytes} {depth : Nat} (hDepth : depth ≤ 4)
      (hShort : octets.length ≤ Python.maxCborStringBytes) :
      Canonical Flags.envelope depth (.bytes octets) :=
    .bytes (hDepth.trans (by decide)) hShort rfl
  have hEmpty {depth : Nat} (hDepth : depth ≤ 4) : Canonical Flags.envelope depth (.dict []) :=
    .dict (hDepth.trans (by decide)) (Nat.zero_le _) .nil .nil (by simp) (by simp)
  have hEntry (algorithm : CoseAlgorithm) : Canonical Flags.envelope 3
      (entryObject (aliased algorithm) algorithm (signature algorithm)) := by
    refine .list (by decide) (by simp [Python.maxCborCollectionItems]) ?_
    simp only [List.forall_mem_cons]
    refine ⟨hBytes (by decide) ((length_signatureHeader_le ..).trans (by decide)),
      hEmpty (by decide), hBytes (by decide) ?_, by simp⟩
    rw [hLength]
    cases algorithm <;> decide
  refine .tag (by decide) rfl (by decide)
    (.list (by decide) (by simp [Python.maxCborCollectionItems]) ?_)
  simp only [List.forall_mem_cons]
  refine ⟨hBytes (by decide) (by decide), hEmpty (by decide), hBytes (by decide) hPayload,
    .list (by decide) (by simp [requiredSignatures, Python.maxCborCollectionItems]) ?_, by simp⟩
  rw [List.forall_mem_map]
  exact fun algorithm _ => hEntry algorithm

/-- The signatures pass exactly if both are fixtures over the payload, which is what
the other implementation asks as well. -/
theorem checkSignatures_eq_ok {aliased : CoseAlgorithm → Bool} {payload : Bytes}
    {signature : CoseAlgorithm → Bytes} (hPayload : payload.length ≤ Python.maxCborStringBytes) :
    Python.checkSignatures Cli.sha256 (.bytes bodyProtectedItem.encode) (.bytes payload)
        (requiredSignatures.map fun algorithm =>
          entryParsed (aliased algorithm) algorithm (signature algorithm)) = .ok () ↔
      ∀ algorithm, signature algorithm =
        Cli.fixtureSignature algorithm (fixtureMessage (aliased algorithm) payload algorithm) := by
  have hMessage (algorithm : CoseAlgorithm) : Python.encodeCoseSigValue (.list [.str "Signature",
      .bytes bodyProtectedItem.encode,
      (entryParsed (aliased algorithm) algorithm (signature algorithm)).protectedHeader,
      .bytes [], .bytes payload]) =
        .ok (fixtureMessage (aliased algorithm) payload algorithm) :=
    encodeSigStructure_object (by decide)
      ((length_signatureHeader_le ..).trans_lt (by decide)) (hPayload.trans_lt (by decide))
  have hStep (algorithm : CoseAlgorithm) (rest : List Python.ParsedSignature) :
      Python.checkSignatures Cli.sha256 (.bytes bodyProtectedItem.encode) (.bytes payload)
          (entryParsed (aliased algorithm) algorithm (signature algorithm) :: rest) = .ok () ↔
        signature algorithm = Cli.fixtureSignature algorithm
            (fixtureMessage (aliased algorithm) payload algorithm) ∧
          Python.checkSignatures Cli.sha256 (.bytes bodyProtectedItem.encode) (.bytes payload)
            rest = .ok () := by
    rw [Python.checkSignatures, hMessage, ok_bind, then_eq_ok, failIf_eq_ok, not_ne_iff,
      ← fixtureSignature_eq]
    rfl
  rw [requiredSignatures, List.map_cons, hStep, List.map_cons, hStep, List.map_nil]
  constructor
  · rintro ⟨hEd, hMl, _⟩
    rintro (_ | _) <;> assumption
  · exact fun h => ⟨h .ed25519, h .mlDsa65, rfl⟩

/-- The elements of an accepted envelope: the one protected header, an empty map, a
payload and two fixtures. -/
theorem verifyElements_eq_ok {bodyProtected bodyUnprotected payload signatures : Object}
    {entries : List (Key × Object)}
    (hShort : ∀ octets, payload = .bytes octets → octets.length ≤ Python.maxCborStringBytes) :
    Python.verifyElements Cli.sha256 runtime bodyProtected bodyUnprotected payload signatures =
        .ok entries ↔
      ∃ aliased octets, Object.tag 98 (.list [bodyProtected, bodyUnprotected, payload, signatures]) =
          envelopeObject aliased octets (fun algorithm =>
            (fixtureSigned aliased octets algorithm).signature) ∧
        Python.decodeManifestCbor runtime octets = .ok entries ∧
        ∃ descriptors, Python.descriptorsOf entries = .ok descriptors ∧
          Python.validateBindings descriptors (requiredSignatures.map fun algorithm =>
            entryParsed (aliased algorithm) algorithm
              (fixtureSigned aliased octets algorithm).signature) = .ok () := by
  unfold Python.verifyElements
  rw [then_eq_ok, failIf_eq_ok, Bool.not_eq_false, isEmptyDict_iff]
  constructor
  · rintro ⟨rfl, h⟩
    cases payload with
    | bytes octets =>
        obtain ⟨hBody, h⟩ := then_eq_ok.mp h
        obtain rfl := validateBodyProtected_eq_ok.mp hBody
        cases signatures with
        | list items =>
            simp only [bind_eq_ok, failIf_eq_ok, not_ne_iff, Except.ok.injEq] at h
            obtain ⟨_, hTwo, parsed, hParsed, manifest, hManifest, descriptors, hDescriptors, _,
              hBindings, _, hChecked, rfl⟩ := h
            obtain ⟨aliased, signature, rfl, hLength, rfl⟩ :=
              Python.parseSignatures_eq_ok.mp ⟨hTwo, hParsed⟩
            have hSignatures := (checkSignatures_eq_ok (hShort octets rfl)).mp hChecked
            obtain rfl : signature = fun algorithm =>
                (fixtureSigned aliased octets algorithm).signature := funext hSignatures
            exact ⟨aliased, octets, rfl, hManifest, descriptors, hDescriptors, hBindings⟩
        | _ => cases h
    | _ => cases h
  · rintro ⟨aliased, octets, hElements, hManifest, descriptors, hDescriptors, hBindings⟩
    cases hElements
    refine ⟨rfl, ?_⟩
    have hLength (algorithm : CoseAlgorithm) :
        (fixtureSigned aliased octets algorithm).signature.length =
          algorithm.expectedSignatureLen := length_fixtureSignature _ _
    obtain ⟨_, hParsed⟩ := Python.parseSignatures_eq_ok.mpr ⟨aliased, fun algorithm =>
      (fixtureSigned aliased octets algorithm).signature, rfl, hLength, rfl⟩
    simp only [bind_eq_ok, failIf_eq_ok, not_ne_iff, Except.ok.injEq]
    exact ⟨(), validateBodyProtected_eq_ok.mpr rfl, (), rfl, _, hParsed, _, hManifest, descriptors,
      hDescriptors, (), hBindings, (),
      (checkSignatures_eq_ok (hShort octets rfl)).mpr fun _ => rfl, rfl⟩

/-- A payload in a canonical document is no longer than a string may be. -/
theorem Canonical.payload_short {bodyProtected bodyUnprotected payload signatures : Object}
    {flags : Flags} {depth number : Nat} (h : Canonical flags depth
      (.tag number (.list [bodyProtected, bodyUnprotected, payload, signatures]))) :
    ∀ octets, payload = .bytes octets → octets.length ≤ Python.maxCborStringBytes := by
  rintro octets rfl
  cases h with
  | tag _ _ _ hContent =>
      cases hContent with
      | list _ _ hMembers =>
          cases hMembers (.bytes octets) (by simp) with
          | bytes _ hShort _ => exact hShort

theorem Python.length_le_of_decodeManifestCbor {payload : Bytes} {entries : List (Key × Object)}
    (h : Python.decodeManifestCbor runtime payload = .ok entries) :
    payload.length ≤ Python.maxCborBytes := by
  obtain ⟨_, _, hEncodes, _⟩ := Python.decodeManifestCbor_eq_ok.mp h
  simpa using hEncodes.short

/-- What the reference implementation accepts: a fixture envelope, with either header
for each signature, around a manifest with the keys of the fixture. -/
theorem Python.verifyManifestCoseConformance_eq_ok {envelope : Bytes}
    {entries : List (Key × Object)} :
    Python.verifyManifestCoseConformance Cli.sha256 runtime envelope = .ok entries ↔
      envelope.length ≤ Python.maxCborBytes ∧ ∃ aliased payload,
        envelope = fixtureEnvelope aliased payload ∧
        Python.decodeManifestCbor runtime payload = .ok entries ∧
        ∃ descriptors, Python.descriptorsOf entries = .ok descriptors ∧
          Python.validateBindings descriptors (requiredSignatures.map fun algorithm =>
            entryParsed (aliased algorithm) algorithm
              (fixtureSigned aliased payload algorithm).signature) = .ok () := by
  rw [Python.verifyManifestCoseConformance, bind_eq_ok]
  constructor
  · rintro ⟨document, hDocument, hElements⟩
    obtain ⟨hLong, hCanonical, rfl⟩ := Python.decodeCborDocument_eq_ok.mp hDocument
    split at hElements
    · rename_i outer
      split at hElements
      · rename_i bodyProtected bodyUnprotected payload signatures
        obtain ⟨aliased, octets, hEnvelope, hManifest, hBindings⟩ :=
          (verifyElements_eq_ok (Canonical.payload_short hCanonical)).mp hElements
        refine ⟨hLong, aliased, octets, ?_, hManifest, hBindings⟩
        rw [hEnvelope, envelopeObject_item]
        rfl
      · cases hElements
    · cases hElements
  · rintro ⟨hLong, aliased, payload, rfl, hManifest, hBindings⟩
    have hPayload := Python.length_le_of_decodeManifestCbor hManifest
    have hCanonical : Canonical Flags.envelope 0 (envelopeObject aliased payload fun algorithm =>
        (fixtureSigned aliased payload algorithm).signature) :=
      canonical_envelopeObject hPayload fun _ => length_fixtureSignature _ _
    refine ⟨_, Python.decodeCborDocument_eq_ok.mpr ⟨hLong, hCanonical, ?_⟩, ?_⟩
    · rw [envelopeObject_item]
      rfl
    · refine (verifyElements_eq_ok ?_).mpr ⟨aliased, payload, rfl, hManifest, hBindings⟩
      rintro _ ⟨⟩
      exact hPayload

end Tfws
