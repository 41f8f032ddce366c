import Tfws.Cli.ConformanceFixture
import Tfws.Vectors.Envelopes

/-! Signing and verifying with the fixtures of the vector generator. -/
namespace Tfws.Vectors

open Fallible Cbor Sorting

variable {sha256 : Bytes → Bytes} {manifest first second : Dict}
  {payload body envelope : Bytes} {profile : Profile}

/-- The octet that tells the fixtures of the two algorithms apart. -/
def Profile.fixturePrefix (profile : Profile) : UInt8 := if profile = ed25519 then 0x13 else 0x31

theorem ed25519_mem : ed25519 ∈ expectedProfiles := by simp [expectedProfiles]

theorem mlDsa65_mem : mlDsa65 ∈ expectedProfiles := by simp [expectedProfiles]

/-- The fixture of a profile for a message: the digest behind the prefix, repeated up
to the length of a signature. -/
def Profile.fixture (profile : Profile) (sha256 : Bytes → Bytes) (message : Bytes) : Bytes :=
  repeated (sha256 (profile.fixturePrefix :: message)) profile.signatureLength

/-- `fixture_signature` knows both algorithms of the profile. -/
theorem fixtureSignature_eq (hProfile : profile ∈ expectedProfiles) (message : Bytes) :
    fixtureSignature sha256 profile.algorithm message = .ok (profile.fixture sha256 message) := by
  simp only [expectedProfiles, List.mem_cons, List.not_mem_nil, or_false] at hProfile
  obtain rfl | rfl := hProfile <;> rfl

/-- The protected header that every signature of a profile carries, as octets. -/
def Profile.header (profile : Profile) : Bytes := (signatureHeader profile.algorithm kid).encode

/-- It is deterministic, so that the codec reads it back. -/
theorem readable_header (hProfile : profile ∈ expectedProfiles) :
    Readable (signatureHeader profile.algorithm kid) := by
  have hKid : kid.length < 18446744073709551616 := by decide
  simp only [expectedProfiles, List.mem_cons, List.not_mem_nil, or_false] at hProfile
  obtain rfl | rfl := hProfile
  · exact readable_signatureHeader (readable_small (by decide) (by decide)) hKid
  · exact readable_signatureHeader (readable_small (by decide) (by decide)) hKid

theorem length_header_le (hProfile : profile ∈ expectedProfiles) : profile.header.length ≤ 20 := by
  simp only [expectedProfiles, List.mem_cons, List.not_mem_nil, or_false] at hProfile
  obtain rfl | rfl := hProfile <;> decide

/-- The protected header of the body, with the content type and nothing else. -/
def standardBody : Bytes := (bodyHeader coseContentType []).encode

theorem readable_standardBody : Readable (bodyHeader coseContentType []) :=
  readable_bodyHeader (by decide)

theorem length_standardBody_le : standardBody.length ≤ 100 := by decide

/-- `body_protected` writes it when there are no further entries. -/
theorem bodyProtected_eq : bodyProtected coseContentType [] = .ok standardBody :=
  readable_standardBody.cborEncode_eq

theorem signatureProtected_eq (hProfile : profile ∈ expectedProfiles) :
    signatureProtected profile.algorithm kid = .ok profile.header :=
  (readable_header hProfile).cborEncode_eq

/-- The octets that a signature covers: the `Sig_structure` over both headers and the
payload. -/
def message (body header payload : Bytes) : Bytes :=
  (Item.array [.text "Signature", .bytes body, .bytes header, .bytes [], .bytes payload]).encode

/-- `sig_structure` writes those octets, provided that no part is too long for a
length of 64 bits. -/
theorem sigStructure_eq_ok {header octets : Bytes} : sigStructure body header payload = .ok octets ↔
    (body.length < 18446744073709551616 ∧ header.length < 18446744073709551616 ∧
      payload.length < 18446744073709551616) ∧ octets = message body header payload := by
  rw [sigStructure, cborEncode_eq_ok]
  have hSorted : sorted (.array [.text "Signature", .bytes body, .bytes header, .bytes [],
      .bytes payload]) =
        .array [.text "Signature", .bytes body, .bytes header, .bytes [], .bytes payload] := by
    simp only [sorted, sortedMembers]
  rw [hSorted, message]
  apply and_congr_left'
  constructor
  · intro h
    have hMembers := h.of_array
    have hBody := hMembers (.bytes body) (by simp)
    have hHeader := hMembers (.bytes header) (by simp)
    have hPayload := hMembers (.bytes payload) (by simp)
    cases hBody
    cases hHeader
    cases hPayload
    exact ⟨‹_›, ‹_›, ‹_›⟩
  · intro h
    obtain ⟨hBody, hHeader, hPayload⟩ := h
    apply Item.Encodable.array (by simp)
    simp only [List.forall_mem_cons]
    exact ⟨.text (by decide), .bytes hBody, .bytes hHeader, .bytes (by simp), .bytes hPayload,
      List.forall_mem_nil _⟩

/-- A header with its fixture, as `build_positive` writes them into the envelope. -/
def signedPair (sha256 : Bytes → Bytes) (payload : Bytes) (profile : Profile) : Bytes × Bytes :=
  (profile.header, profile.fixture sha256 (message standardBody profile.header payload))

/-- What one turn of the loop in `build_positive` returns for an admitted manifest: it
fails only where the payload is too long. -/
theorem signFixture_eq_ok (hAdmitted : Admitted manifest first second)
    (hProfile : profile ∈ expectedProfiles) {signed : Item × Item} :
    signFixture sha256 manifest payload standardBody profile = .ok signed ↔
      payload.length < 18446744073709551616 ∧
        signed = octetPair (signedPair sha256 payload profile) := by
  obtain ⟨hDescriptor, hEntry⟩ := hAdmitted.descriptorOf_profile hProfile
  have hKeyId : subscript (.map (descriptorFor first second profile)) "key_id" =
      .ok (.text "release-1") := subscript_map.mpr hEntry.keyId
  have hHeader : profile.header.length < 18446744073709551616 :=
    (length_header_le hProfile).trans_lt (by decide)
  have hBody : standardBody.length < 18446744073709551616 :=
    length_standardBody_le.trans_lt (by decide)
  have hEncoded : encodeText (.text "release-1") = .ok kid := rfl
  simp only [signFixture, hDescriptor, ok_bind, hKeyId, hEncoded, signatureProtected_eq hProfile,
    bind_eq_ok, sigStructure_eq_ok, fixtureSignature_eq hProfile, Except.ok.injEq]
  constructor
  · intro h
    obtain ⟨_, ⟨⟨-, -, hPayload⟩, rfl⟩, rfl⟩ := h
    exact ⟨hPayload, rfl⟩
  · intro h
    obtain ⟨hPayload, rfl⟩ := h
    exact ⟨_, ⟨⟨hBody, hHeader, hPayload⟩, rfl⟩, rfl⟩

/-- What `build_positive` returns: the encoded manifest, and an envelope of it with a
fixture for each profile, in the order of the profile. -/
theorem buildPositive_eq_ok (hAdmitted : Admitted manifest first second) :
    buildPositive sha256 manifest = .ok (payload, envelope) ↔
      encodeManifest manifest = .ok payload ∧
        makeEnvelope (.bytes payload) (.bytes standardBody)
          ([signedPair sha256 payload ed25519, signedPair sha256 payload mlDsa65].map octetPair) =
            .ok envelope := by
  have hFirst {payload : Bytes} {signed : Item × Item} := @signFixture_eq_ok sha256 manifest first
    second payload ed25519 hAdmitted ed25519_mem signed
  have hSecond {payload : Bytes} {signed : Item × Item} := @signFixture_eq_ok sha256 manifest first
    second payload mlDsa65 hAdmitted mlDsa65_mem signed
  simp only [buildPositive, bodyProtected_eq, ok_bind, bind_eq_ok, hFirst, hSecond,
    Except.ok.injEq, Prod.mk.injEq]
  constructor
  · intro h
    obtain ⟨_, hPayload, _, ⟨-, rfl⟩, _, ⟨-, rfl⟩, _, hEnvelope, rfl, rfl⟩ := h
    exact ⟨hPayload, hEnvelope⟩
  · intro h
    obtain ⟨hPayload, hEnvelope⟩ := h
    have hShort := (makeEnvelope_short hEnvelope).1
    exact ⟨payload, hPayload, _, ⟨hShort, rfl⟩, _, ⟨hShort, rfl⟩, envelope, hEnvelope, rfl, rfl⟩

theorem length_repeated {digest : Bytes} (h : digest.length = 32) (length : Nat) :
    (repeated digest length).length = length := by
  rw [repeated, List.length_take_of_le]
  simp only [List.length_flatten, List.map_replicate, List.sum_replicate_nat, h]
  omega

/-- A fixture has the length that the profile demands, provided that a digest has 32
octets. -/
theorem length_fixture (hDigest : ∀ message, (sha256 message).length = 32) (message : Bytes) :
    (profile.fixture sha256 message).length = profile.signatureLength :=
  length_repeated (hDigest _) _

/-- The loop over the signatures, behind headers of the right form: what is left to
check is the signature itself. -/
theorem verifySignature_eq (profile : Profile) {other : Profile} (hOther : other ∈ expectedProfiles)
    (hAlgorithm : other.algorithm = profile.algorithm) (signature : Bytes) :
    verifySignature sha256 manifest payload body (signatureEntry (octetPair (other.header, signature)))
        profile =
      checkSignature sha256 manifest payload body other.header profile signature := by
  have hHeaders : checkHeaders profile other.header = .ok () := by
    rw [Profile.header, checkHeaders_encode profile (readable_header hOther),
      failIf_of_not (not_not.mpr hAlgorithm), ok_bind, failIf_ne_self]
  rw [signatureEntry, octetPair, verifySignature]
  dsimp only
  rw [hHeaders, ok_bind]

/-- A signature of the right length is checked against the descriptor first, and
against the fixture only if the descriptor is the expected one. -/
theorem checkSignature_eq (hAdmitted : Admitted manifest first second)
    (hProfile : profile ∈ expectedProfiles) (hBody : body.length < 18446744073709551616)
    (hPayload : payload.length < 18446744073709551616) {signature : Bytes}
    (hLength : signature.length = profile.signatureLength) :
    checkSignature sha256 manifest payload body profile.header profile signature =
      if Bound profile (descriptorFor first second profile) then
        failIf (signature ≠ profile.fixture sha256 (message body profile.header payload))
          (.vectorError "signature_invalid" "signature invalid")
      else .error (.vectorError "key_binding_mismatch" "public-key binding mismatch") := by
  have hHeader : profile.header.length < 18446744073709551616 :=
    (length_header_le hProfile).trans_lt (by decide)
  have hMessage : sigStructure body profile.header payload =
      .ok (message body profile.header payload) :=
    sigStructure_eq_ok.mpr ⟨⟨hBody, hHeader, hPayload⟩, rfl⟩
  rw [checkSignature, failIf_of_not (not_not.mpr hLength), ok_bind,
    (hAdmitted.descriptorOf_profile hProfile).1, ok_bind]
  split_ifs with hBound
  · rw [failIf_of_not (by rw [Bound] at hBound; rw [hBound]; decide), ok_bind, hMessage, ok_bind,
      fixtureSignature_eq hProfile, ok_bind]
  · rw [failIf_of (by rwa [Bound, Bool.not_eq_true] at hBound), error_bind]

/-- `verify_cose` on an envelope with the standard body: what is left are the
signatures and the manifest that the payload holds. -/
theorem verifyCose_standard {signatures : List (Bytes × Bytes)} {decoded : Dict}
    (hEnvelope : makeEnvelope (.bytes payload) (.bytes standardBody) (signatures.map octetPair) =
      .ok envelope) (hDecoded : decodeManifest payload = .ok decoded) :
    verifyCose sha256 envelope = (do
      failIf (signatures.length ≠ 2)
        (invalidStructure "hybrid signatures array must contain two entries")
      verifySignatures sha256 decoded payload standardBody
        (((signatures.map octetPair).map signatureEntry).zip expectedProfiles)
      .ok decoded) := by
  have hBody : checkBody standardBody = .ok () := by
    rw [standardBody, checkBody_encode readable_standardBody, failIf_ne_self]
  rw [verifyCose_makeEnvelope hEnvelope, verifyBody, hBody, ok_bind, hDecoded, ok_bind]
  simp only [List.length_map]

/-- Both descriptors of a manifest are the ones that `verify_cose` expects: the URI
and the digest of the fixture keys. -/
def KeysBound (manifest : Dict) : Prop :=
  ∀ profile ∈ expectedProfiles, ∃ entry,
    descriptorOf manifest profile.name = .ok (.map entry) ∧ Bound profile entry

/-- On an admitted manifest that is a condition on its two descriptors. -/
theorem Admitted.keysBound_iff (h : Admitted manifest first second) :
    KeysBound manifest ↔ Bound ed25519 first ∧ Bound mlDsa65 second := by
  have hFirst : Vectors.descriptorOf manifest ed25519.name = .ok (.map first) := h.descriptorOf.1
  have hSecond : Vectors.descriptorOf manifest mlDsa65.name = .ok (.map second) := h.descriptorOf.2
  simp [KeysBound, expectedProfiles, hFirst, hSecond]

/-- The order of the entries, which the codec may change, does not matter for it. -/
theorem Admitted.keysBound_sorted (hManifest : WellFormed (.map manifest))
    (h : Admitted manifest first second) :
    KeysBound (sortedDict manifest) ↔ KeysBound manifest := by
  obtain ⟨hFirst, hSecond⟩ := h.framed.wellFormed_keys hManifest
  rw [(h.sorted hManifest).keysBound_iff, h.keysBound_iff]
  apply and_congr
  · exact h.first.bound_sorted hFirst
  · exact h.second.bound_sorted hSecond

/-- The error that `verify_cose` raises for a descriptor that is not the expected
one. -/
def keyBindingMismatch : Failure := .vectorError "key_binding_mismatch" "public-key binding mismatch"

/-- Two entries with the headers and lengths of the profile: what `verify_cose`
returns depends on the descriptors and the fixtures alone. -/
theorem verifySignatures_pair (hAdmitted : Admitted manifest first second)
    (hPayload : payload.length < 18446744073709551616) {left right : Bytes}
    (hLeft : left.length = 64) (hRight : right.length = 3309) :
    verifySignatures sha256 manifest payload standardBody
        ((([(ed25519.header, left), (mlDsa65.header, right)].map octetPair).map signatureEntry).zip
          expectedProfiles) = (do
      failIf (¬Bound ed25519 first) keyBindingMismatch
      failIf (left ≠ ed25519.fixture sha256 (message standardBody ed25519.header payload))
        (.vectorError "signature_invalid" "signature invalid")
      failIf (¬Bound mlDsa65 second) keyBindingMismatch
      failIf (right ≠ mlDsa65.fixture sha256 (message standardBody mlDsa65.header payload))
        (.vectorError "signature_invalid" "signature invalid")) := by
  have hBody : standardBody.length < 18446744073709551616 :=
    length_standardBody_le.trans_lt (by decide)
  have hFirst := @checkSignature_eq sha256 manifest first second payload standardBody ed25519
    hAdmitted ed25519_mem hBody hPayload left hLeft
  have hSecond := @checkSignature_eq sha256 manifest first second payload standardBody mlDsa65
    hAdmitted mlDsa65_mem hBody hPayload right hRight
  simp only [expectedProfiles, List.map_cons, List.map_nil, List.zip_cons_cons, List.zip_nil_left,
    verifySignatures]
  rw [verifySignature_eq ed25519 ed25519_mem rfl,
    verifySignature_eq mlDsa65 mlDsa65_mem rfl, hFirst, hSecond]
  have hOne : descriptorFor first second ed25519 = first := rfl
  have hTwo : descriptorFor first second mlDsa65 = second := rfl
  rw [hOne, hTwo]
  by_cases hBoundFirst : Bound ed25519 first
  · rw [if_pos hBoundFirst, failIf_of_not (not_not.mpr hBoundFirst), ok_bind]
    congr 1
    funext _
    by_cases hBoundSecond : Bound mlDsa65 second
    · rw [if_pos hBoundSecond, failIf_of_not (not_not.mpr hBoundSecond), ok_bind]
      unfold failIf
      split_ifs <;> rfl
    · rw [if_neg hBoundSecond, failIf_of hBoundSecond, error_bind, error_bind]
      rfl
  · rw [if_neg hBoundFirst, failIf_of hBoundFirst, error_bind, error_bind]
    rfl

/-- What `build_positive` signs is checked against the descriptors alone: its fixtures
are right, since both sides compute them from the same octets. -/
theorem verifyCose_signed (hDigest : ∀ message, (sha256 message).length = 32)
    (hManifest : WellFormed (.map manifest)) (hAdmitted : Admitted manifest first second)
    (hBuilt : buildPositive sha256 manifest = .ok (payload, envelope)) :
    verifyCose sha256 envelope = (do
      failIf (¬Bound ed25519 (sortedDict first)) keyBindingMismatch
      failIf (¬Bound mlDsa65 (sortedDict second)) keyBindingMismatch
      .ok (sortedDict manifest)) := by
  obtain ⟨hPayload, hEnvelope⟩ := (buildPositive_eq_ok hAdmitted).mp hBuilt
  rw [verifyCose_standard hEnvelope (decodeManifest_encode hManifest hPayload)]
  have hLeft : (ed25519.fixture sha256 (message standardBody ed25519.header payload)).length = 64 :=
    length_fixture hDigest _
  have hRight : (mlDsa65.fixture sha256
      (message standardBody mlDsa65.header payload)).length = 3309 :=
    length_fixture hDigest _
  have hPair := @verifySignatures_pair sha256 _ _ _ payload (hAdmitted.sorted hManifest)
    (makeEnvelope_short hEnvelope).1 _ _ hLeft hRight
  simp only [signedPair]
  rw [hPair]
  simp only [List.length_cons, List.length_nil, failIf_ne_self, ok_bind, bind_assoc]

/-- With the expected descriptors it is accepted, and the manifest comes back with its
names sorted. -/
theorem verifyCose_bound (hDigest : ∀ message, (sha256 message).length = 32)
    (hManifest : WellFormed (.map manifest)) (hAdmitted : Admitted manifest first second)
    (hBuilt : buildPositive sha256 manifest = .ok (payload, envelope))
    (hBound : KeysBound manifest) : verifyCose sha256 envelope = .ok (sortedDict manifest) := by
  rw [← hAdmitted.keysBound_sorted hManifest, (hAdmitted.sorted hManifest).keysBound_iff] at hBound
  rw [verifyCose_signed hDigest hManifest hAdmitted hBuilt, failIf_of_not (not_not.mpr hBound.1),
    ok_bind, failIf_of_not (not_not.mpr hBound.2), ok_bind]

/-- With any other descriptor it is refused, with the error for the key binding and no
other. -/
theorem verifyCose_unbound (hDigest : ∀ message, (sha256 message).length = 32)
    (hManifest : WellFormed (.map manifest)) (hAdmitted : Admitted manifest first second)
    (hBuilt : buildPositive sha256 manifest = .ok (payload, envelope))
    (hUnbound : ¬KeysBound manifest) : verifyCose sha256 envelope = .error keyBindingMismatch := by
  rw [← hAdmitted.keysBound_sorted hManifest, (hAdmitted.sorted hManifest).keysBound_iff] at hUnbound
  rw [verifyCose_signed hDigest hManifest hAdmitted hBuilt]
  by_cases hFirst : Bound ed25519 (sortedDict first)
  · have hSecond : ¬Bound mlDsa65 (sortedDict second) := fun hSecond => hUnbound ⟨hFirst, hSecond⟩
    rw [failIf_of_not (not_not.mpr hFirst), ok_bind, failIf_of hSecond, error_bind]
  · rw [failIf_of hFirst, error_bind]

/-- `build_positive` signs only what `validate_manifest` accepts. -/
theorem admitted_of_buildPositive (hManifest : WellFormed (.map manifest))
    (hBuilt : buildPositive sha256 manifest = .ok (payload, envelope)) :
    ∃ first second, Admitted manifest first second := by
  obtain ⟨_, hEncoded, -⟩ := bind_eq_ok.mp hBuilt
  obtain ⟨hValid, -⟩ := then_eq_ok.mp hEncoded
  exact (validateManifest_eq_ok hManifest).mp hValid

/-- An octet string that has an encoding: its length fits into 64 bits. -/
def Short (octets : Bytes) : Prop := octets.length < 18446744073709551616

theorem short_signedPair (hDigest : ∀ message, (sha256 message).length = 32)
    (hProfile : profile ∈ expectedProfiles) :
    Short (signedPair sha256 payload profile).1 ∧ Short (signedPair sha256 payload profile).2 := by
  constructor
  · exact (length_header_le hProfile).trans_lt (by decide)
  · rw [Short, signedPair, length_fixture hDigest]
    simp only [expectedProfiles, List.mem_cons, List.not_mem_nil, or_false] at hProfile
    obtain rfl | rfl := hProfile <;> decide

/-- Short parts make an envelope. -/
theorem exists_envelope {pairs : List (Bytes × Bytes)} (hPayload : Short payload)
    (hBody : Short body) (hMany : pairs.length < 18446744073709551616)
    (hPairs : ∀ pair ∈ pairs, Short pair.1 ∧ Short pair.2) :
    ∃ envelope, makeEnvelope (.bytes payload) (.bytes body) (pairs.map octetPair) = .ok envelope :=
  makeEnvelope_eq_ok hPayload hBody hMany hPairs

/-- The envelope of the positive vector, around any payload. The negative vectors put
other payloads under the same signatures. -/
theorem exists_signed {other : Bytes} (hDigest : ∀ message, (sha256 message).length = 32)
    (hOther : Short other) (hBody : Short body) :
    ∃ envelope, makeEnvelope (.bytes other) (.bytes body)
      ([signedPair sha256 payload ed25519, signedPair sha256 payload mlDsa65].map octetPair) =
        .ok envelope := by
  apply exists_envelope hOther hBody (by simp)
  exact List.forall_mem_cons.mpr ⟨short_signedPair hDigest ed25519_mem,
    List.forall_mem_singleton.mpr (short_signedPair hDigest mlDsa65_mem)⟩

/-- What `build_positive` signs, `verify_cose` accepts, and it returns the
manifest as the codec keeps it, provided that the descriptors are the expected
ones; where they are not, that is what it reports. -/
theorem verifyCose_buildPositive (hDigest : ∀ message, (sha256 message).length = 32)
    (manifest : Dict) (payload envelope : Bytes) (hManifest : WellFormed (.map manifest))
    (hBuilt : buildPositive sha256 manifest = .ok (payload, envelope)) :
    equal (.map manifest) (.map (sortedDict manifest)) = true ∧
      decodeManifest payload = .ok (sortedDict manifest) ∧
      (KeysBound manifest → verifyCose sha256 envelope = .ok (sortedDict manifest)) ∧
      (¬KeysBound manifest → verifyCose sha256 envelope = .error
        (.vectorError "key_binding_mismatch" "public-key binding mismatch")) := by
  obtain ⟨first, second, hAdmitted⟩ := admitted_of_buildPositive hManifest hBuilt
  obtain ⟨hPayload, -⟩ := (buildPositive_eq_ok hAdmitted).mp hBuilt
  refine ⟨sorted_map manifest ▸ (equal_sorted hManifest).1, decodeManifest_encode hManifest hPayload,
    ?bound, ?unbound⟩
  case bound => exact verifyCose_bound hDigest hManifest hAdmitted hBuilt
  case unbound => exact verifyCose_unbound hDigest hManifest hAdmitted hBuilt

/-- The sample manifest names the keys of the fixtures. -/
theorem keysBound_sample : KeysBound (sampleManifest "Example Organization"
    (publicKeyUri "ed25519") (expectedSha256 "ed25519")) := by
  have hAdmitted := @admitted_sampleManifest "Example Organization" _ hexDigest_ed25519
  rw [hAdmitted.keysBound_iff]
  constructor <;> decide

/-- The three texts of a sample manifest are the only parts of its encoding that vary
in length. -/
theorem length_sampleManifest (operator uri digest : String) :
    (Item.map (sampleManifest operator uri digest)).encode.length + 3 =
      (Item.map (sampleManifest "" "" "")).encode.length + (Item.text operator).encode.length +
        (Item.text uri).encode.length + (Item.text digest).encode.length := by
  have hEmpty : (Item.text "").encode.length = 1 := by decide
  have hArray (items : List Item) :
      (Item.array items).encode = Cbor.head 4 items.length ++ Item.encodeItems items := by
    rw [Item.encode]
  simp only [sampleManifest, sampleEntry, named, List.map_cons, List.map_nil, Item.encode_map,
    hArray, Item.encodeEntries, Item.encodeItems, List.length_append, List.length_cons,
    List.length_nil, hEmpty]
  omega

/-- Its encoding fits into an envelope as long as its texts are short. -/
theorem short_sampleManifest {operator uri digest : String}
    (hOperator : (Utf8.encode operator).length ≤ 64) (hUri : (Utf8.encode uri).length ≤ 64)
    (hDigest : (Utf8.encode digest).length ≤ 64) :
    Short (Item.map (sampleManifest operator uri digest)).encode := by
  have hText {text : String} (h : (Utf8.encode text).length ≤ 64) :
      (Item.text text).encode.length ≤ 73 := by
    have hHead := length_head_le 3 (Utf8.encode text).length
    rw [Item.encode, List.length_append]
    omega
  have hLength := length_sampleManifest operator uri digest
  have hEmpty : (Item.map (sampleManifest "" "" "")).encode.length ≤ 1024 := by decide +kernel
  have hOperatorText := hText hOperator
  have hUriText := hText hUri
  have hDigestText := hText hDigest
  rw [Short]
  omega

/-- A manifest with the expected descriptors, under SHA-256: it is signed, and what
was signed verifies. -/
theorem verifyCose_buildPositive_sample : ∃ payload envelope,
    buildPositive Cli.sha256 (sampleManifest "Example Organization" (publicKeyUri "ed25519")
      (expectedSha256 "ed25519")) = .ok (payload, envelope) ∧
    verifyCose Cli.sha256 envelope = .ok (sortedDict (sampleManifest "Example Organization"
      (publicKeyUri "ed25519") (expectedSha256 "ed25519"))) := by
  have hAdmitted := @admitted_sampleManifest "Example Organization" _ hexDigest_ed25519
  have hPayload := @encodeManifest_sampleManifest "Example Organization" _ hexDigest_ed25519
    (by decide) (by decide)
  have hShort := @short_sampleManifest "Example Organization" (publicKeyUri "ed25519")
    (expectedSha256 "ed25519") (by decide) (by decide) (by decide)
  obtain ⟨envelope, hEnvelope⟩ := exists_signed Cli.length_sha256 hShort
    (length_standardBody_le.trans_lt (by decide))
  have hBuilt := (buildPositive_eq_ok hAdmitted).mpr ⟨hPayload, hEnvelope⟩
  exact ⟨_, envelope, hBuilt, (verifyCose_buildPositive Cli.length_sha256 _ _ _
    readable_sample.wellFormed hBuilt).2.2.1 keysBound_sample⟩

end Tfws.Vectors
