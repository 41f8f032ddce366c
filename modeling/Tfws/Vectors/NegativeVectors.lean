import Tfws.Vectors.Mutations

/-! The negative vectors of a manifest: what `verify_cose` and `decode_manifest`
say of each of them. -/
namespace Tfws.Vectors

open Fallible Cbor Sorting

variable {sha256 : Bytes → Bytes} {manifest renamed first second : Dict} {profile : Profile}
  {payload body envelope : Bytes} {category name : String} {cases : List Case} {corpus : Corpus}

/-- A refusal with a category, whatever its message. Exceptions of the language are no
refusals. -/
def Refused {α : Type} (category : String) (result : Result α) : Prop :=
  ∃ message, result = .error (.vectorError category message)

/-- What is refused at its first step is refused, whatever would come after. -/
theorem Refused.bind {α β : Type} {result : Result α} (h : Refused category result)
    (next : α → Result β) : Refused category (result >>= next) := by
  obtain ⟨message, rfl⟩ := h
  exact ⟨message, rfl⟩

theorem refused_failIf {bad : Prop} [Decidable bad] (h : bad) (message : String) :
    Refused category (failIf bad (.vectorError category message)) :=
  ⟨message, failIf_of h _⟩

theorem fromHex_hexdigest (data : Bytes) : fromHex (Python.hexdigest data) = .ok data := by
  rw [fromHex, Python.fromHex_hexdigest, mapError_ok]

/-- The vector is refused with its own category, which is what `self_test` asks of
it. -/
def Passes (sha256 : Bytes → Bytes) (case : Case) : Prop :=
  testCase sha256 case = .ok (case.id, case.expectedCategory)

/-- A vector that is refused with its own category passes its test: the octets come
back from their digits. -/
theorem testCase_of_refused {id vectorClass inputType : String} {data : Bytes}
    (h : Refused category (runCase sha256 inputType data)) :
    Passes sha256 (negativeCase sha256 id vectorClass inputType data category) := by
  obtain ⟨message, hRun⟩ := h
  rw [Passes, testCase, negativeCase, fromHex_hexdigest, ok_bind, hRun]
  dsimp only
  rw [failIf_ne_self, ok_bind]

theorem testManifest_of_refused {id vectorClass : String} {data : Bytes}
    (h : Refused category (decodeManifest data)) :
    Passes sha256 (negativeCase sha256 id vectorClass "manifest_cbor" data category) := by
  apply testCase_of_refused
  rwa [runCase, if_pos rfl]

theorem runCase_cose (raw : Bytes) : runCase sha256 "cose" raw = verifyCose sha256 raw := by
  rw [runCase, if_neg (by decide), if_pos rfl]

theorem testCose_of_refused {id vectorClass : String} {data : Bytes}
    (h : Refused category (verifyCose sha256 data)) :
    Passes sha256 (negativeCase sha256 id vectorClass "cose" data category) := by
  apply testCase_of_refused
  rwa [runCase_cose]

/-- A vector that is accepted fails its test, and the failure names it. -/
theorem testCose_of_accepted {id vectorClass : String} {data : Bytes} {accepted : Dict}
    (h : verifyCose sha256 data = .ok accepted) :
    testCase sha256 (negativeCase sha256 id vectorClass "cose" data category) =
      .error .assertionError := by
  rw [testCase, negativeCase, fromHex_hexdigest, ok_bind, runCase_cose, h]

/-- Vectors that all pass are all listed, each with its category, in their order. By
induction on the vectors. -/
theorem testCases_of_passes (h : ∀ case ∈ cases, Passes sha256 case) :
    testCases sha256 cases = .ok (cases.map fun case => (case.id, case.expectedCategory)) := by
  induction cases with
  | nil => rfl
  | cons case rest ih =>
      obtain ⟨hCase, hRest⟩ := List.forall_mem_cons.mp h
      rw [Passes] at hCase
      rw [testCases, hCase, ok_bind, ih hRest, ok_bind, List.map_cons]

/-- The first vector that fails its test is what `self_test` reports; the later ones
are not run. -/
theorem testCases_of_error {before after : List Case} {case : Case} {failure : Failure}
    (hBefore : ∀ case ∈ before, Passes sha256 case) (h : testCase sha256 case = .error failure) :
    testCases sha256 (before ++ case :: after) = .error failure := by
  induction before with
  | nil => rw [List.nil_append, testCases, h, error_bind]
  | cons other rest ih =>
      obtain ⟨hCase, hRest⟩ := List.forall_mem_cons.mp hBefore
      rw [Passes] at hCase
      rw [List.cons_append, testCases, hCase, ok_bind, ih hRest, error_bind]

theorem refused_empty : Refused "malformed_cbor" (decodeManifest []) :=
  ⟨_, rfl⟩

/-- A payload without its last octet is malformed, whatever manifest it was: the
decoder runs out of octets before it compares anything. -/
theorem refused_truncated (hManifest : WellFormed (.map manifest))
    (h : encodeManifest manifest = .ok payload) :
    Refused "malformed_cbor" (decodeManifest payload.dropLast) := by
  obtain ⟨-, hEncoded⟩ := then_eq_ok.mp h
  obtain ⟨hEncodable, rfl⟩ := cborEncode_eq_ok.mp hEncoded
  have hReadable := readable_sorted hManifest hEncodable
  rw [decodeManifest, cborDecodeExact_cut hReadable (cut_dropLast hReadable.encodable.encode_ne_nil)]
  exact ⟨_, rfl⟩

theorem refused_noncanonical : Refused "non_deterministic_cbor" (decodeManifest [0xB8, 0x00]) :=
  ⟨_, rfl⟩

theorem refused_duplicateKey : Refused "non_deterministic_cbor"
    (decodeManifest [0xA2, 0x61, 0x61, 0x01, 0x61, 0x61, 0x02]) :=
  ⟨_, rfl⟩

/-- A changed public-key URI is noticed by the policy, whatever else the manifest
holds, and before any signature. -/
theorem refused_uri (hManifest : WellFormed (.map manifest)) (h : Admitted manifest first second)
    (hUri : name ≠ publicKeyUri "ed25519")
    (hEncoded : cborEncode (.map (withFirst manifest
      (setItem (.text "public_key_uri") (.text name) first) second)) = .ok payload) :
    Refused "manifest_policy_invalid" (decodeManifest payload) := by
  obtain ⟨hFirst, hSecond⟩ := h.framed.wellFormed_keys hManifest
  have hEntry : WellFormed (.map (setItem (.text "public_key_uri") (.text name) first)) :=
    hFirst.setItem rfl .text
  have hWrong := wellFormed_withFirst hManifest hEntry hSecond
  have hDecoded := decode_cborEncode hWrong hEncoded
  have hField {field text : String} (hText : lookup (.text field)
      (setItem (.text "public_key_uri") (.text name) first) = some (.text text)) :
      subscript (.map (sortedDict (setItem (.text "public_key_uri") (.text name) first))) field =
        .ok (.text text) := by
    rw [subscript_map, lookup_sortedDict hEntry, hText, Option.map_some, (Constant.text _).sorted]
  have hAlgorithm : lookup (.text "algorithm")
      (setItem (.text "public_key_uri") (.text name) first) = some (.text "ed25519") := by
    rw [lookup_setItem_of_ne (by decide)]
    exact h.first.algorithm
  have hKeyId : lookup (.text "key_id")
      (setItem (.text "public_key_uri") (.text name) first) = some (.text "release-1") := by
    rw [lookup_setItem_of_ne (by decide)]
    exact h.first.keyId
  have hFramed := (h.framed.withFirst hAlgorithm).sorted hWrong
  have hUnequal : equal (.text name) (.text (publicKeyUri "ed25519")) = false := by
    rw [← Bool.not_eq_true, equal_text, Item.text.injEq]
    exact hUri
  have hRefused : Refused "manifest_policy_invalid" (validateEntry
      (.map (sortedDict (setItem (.text "public_key_uri") (.text name) first)))) := by
    rw [validateEntry, hField hAlgorithm, ok_bind, hField hKeyId, ok_bind,
      failIf_passed (equal_text.mpr rfl), ok_bind, hField lookup_setItem_self, ok_bind]
    exact (refused_failIf hUnequal _).bind _
  obtain ⟨message, hMessage⟩ := hRefused
  refine ⟨message, ?_⟩
  rw [decodeManifest, hDecoded, sorted_map, ok_bind]
  simp only [hFramed.validateManifest, validateEntries, hMessage, error_bind]
  rfl

/-- Another header of the body is refused before any signature is looked at. -/
theorem refused_body (signatures : List (Bytes × Bytes)) (hBody : Refused category (checkBody body))
    (hEnvelope : makeEnvelope (.bytes payload) (.bytes body) (signatures.map octetPair) =
      .ok envelope) : Refused category (verifyCose sha256 envelope) := by
  rw [verifyCose_makeEnvelope hEnvelope, verifyBody]
  exact hBody.bind _

/-- What is needed of a payload: it decodes to an admitted manifest. The lemmas on
envelopes assume it and speak of the signatures alone. -/
structure Carries (payload : Bytes) (manifest first second : Dict) : Prop where
  short : payload.length < 18446744073709551616
  decoded : decodeManifest payload = .ok manifest
  admitted : Admitted manifest first second

/-- Another number of signatures than two is refused, whatever they are. -/
theorem refused_count (signatures : List (Bytes × Bytes))
    (h : Carries payload manifest first second) (hCount : signatures.length ≠ 2)
    (hEnvelope : makeEnvelope (.bytes payload) (.bytes standardBody) (signatures.map octetPair) =
      .ok envelope) : Refused "invalid_cose_structure" (verifyCose sha256 envelope) := by
  rw [verifyCose_standard hEnvelope h.decoded, failIf_of hCount]
  exact ⟨_, rfl⟩

/-- Of two signatures, the first one is looked at first, so that its category is the
one reported. -/
theorem refused_first (left right : Bytes × Bytes) (h : Carries payload manifest first second)
    (hLeft : Refused category (verifySignature sha256 manifest payload standardBody
      (signatureEntry (octetPair left)) ed25519))
    (hEnvelope : makeEnvelope (.bytes payload) (.bytes standardBody) ([left, right].map octetPair) =
      .ok envelope) : Refused category (verifyCose sha256 envelope) := by
  rw [verifyCose_standard hEnvelope h.decoded, failIf_of_not (by simp), ok_bind]
  apply Refused.bind
  exact hLeft.bind _

/-- If the first one passes, the second one decides. -/
theorem refused_second (left right : Bytes × Bytes) (h : Carries payload manifest first second)
    (hLeft : verifySignature sha256 manifest payload standardBody
      (signatureEntry (octetPair left)) ed25519 = .ok ())
    (hRight : Refused category (verifySignature sha256 manifest payload standardBody
      (signatureEntry (octetPair right)) mlDsa65))
    (hEnvelope : makeEnvelope (.bytes payload) (.bytes standardBody) ([left, right].map octetPair) =
      .ok envelope) : Refused category (verifyCose sha256 envelope) := by
  rw [verifyCose_standard hEnvelope h.decoded, failIf_of_not (by simp), ok_bind]
  apply Refused.bind
  simp only [expectedProfiles, List.map_cons, List.zip_cons_cons, verifySignatures]
  rw [hLeft, ok_bind]
  exact hRight.bind _

/-- Behind a header that can be read, its algorithm and its key are compared. -/
theorem refused_algorithm {algorithm : Int} {kid' signature : Bytes}
    (hHeader : Readable (signatureHeader algorithm kid')) (hAlgorithm : algorithm ≠ profile.algorithm) :
    Refused "invalid_algorithm" (verifySignature sha256 manifest payload body
      (signatureEntry (octetPair ((signatureHeader algorithm kid').encode, signature))) profile) := by
  rw [signatureEntry, octetPair, verifySignature]
  dsimp only
  rw [checkHeaders_encode profile hHeader]
  exact ((refused_failIf hAlgorithm _).bind _).bind _

theorem refused_kid {kid' signature : Bytes}
    (hHeader : Readable (signatureHeader profile.algorithm kid')) (hKid : kid' ≠ kid) :
    Refused "invalid_kid" (verifySignature sha256 manifest payload body
      (signatureEntry (octetPair ((signatureHeader profile.algorithm kid').encode, signature)))
      profile) := by
  rw [signatureEntry, octetPair, verifySignature]
  dsimp only
  rw [checkHeaders_encode profile hHeader, failIf_ne_self, ok_bind]
  exact (refused_failIf hKid _).bind _

/-- A signature of another length is refused, whatever its octets, and before the key
binding. -/
theorem refused_length {signature : Bytes} (hProfile : profile ∈ expectedProfiles)
    (hLength : signature.length ≠ profile.signatureLength) :
    Refused "signature_invalid" (verifySignature sha256 manifest payload body
      (signatureEntry (octetPair (profile.header, signature))) profile) := by
  rw [verifySignature_eq profile hProfile rfl, checkSignature]
  exact (refused_failIf hLength _).bind _

theorem first_verified (h : Carries payload manifest first second)
    (hDigest : ∀ message, (sha256 message).length = 32) (hBound : Bound ed25519 first) :
    verifySignature sha256 manifest payload standardBody
      (signatureEntry (octetPair (signedPair sha256 payload ed25519))) ed25519 = .ok () := by
  have hBody : standardBody.length < 18446744073709551616 :=
    length_standardBody_le.trans_lt (by decide)
  have hFirst : Bound ed25519 (descriptorFor first second ed25519) := hBound
  rw [signedPair, verifySignature_eq ed25519 ed25519_mem rfl,
    checkSignature_eq h.admitted ed25519_mem hBody h.short (length_fixture hDigest _), if_pos hFirst,
    failIf_ne_self]

/-- What `verify_cose` makes of two signatures of the right lengths behind the headers
of `build_positive`. -/
theorem verifyCose_pair (h : Carries payload manifest first second) {left right : Bytes}
    (hLeft : left.length = 64) (hRight : right.length = 3309)
    (hEnvelope : makeEnvelope (.bytes payload) (.bytes standardBody)
      ([(ed25519.header, left), (mlDsa65.header, right)].map octetPair) = .ok envelope) :
    verifyCose sha256 envelope = (do
      failIf (¬Bound ed25519 first) keyBindingMismatch
      failIf (left ≠ ed25519.fixture sha256 (message standardBody ed25519.header payload))
        (.vectorError "signature_invalid" "signature invalid")
      failIf (¬Bound mlDsa65 second) keyBindingMismatch
      failIf (right ≠ mlDsa65.fixture sha256 (message standardBody mlDsa65.header payload))
        (.vectorError "signature_invalid" "signature invalid")
      .ok manifest) := by
  rw [verifyCose_standard hEnvelope h.decoded, failIf_of_not (by simp), ok_bind,
    verifySignatures_pair h.admitted h.short hLeft hRight]
  simp only [bind_assoc]

theorem take_repeated {digest : Bytes} (h : digest.length = 32) {length : Nat}
    (hLength : 32 ≤ length) : (repeated digest length).take 32 = digest := by
  have hCopies : (length + digest.length - 1) / digest.length =
      (length - 1) / 32 + 1 := by
    rw [h]
    omega
  rw [repeated, List.take_take, min_eq_left hLength, hCopies, List.replicate_succ,
    List.flatten_cons, ← h, List.take_left]

/-- Fixtures show the whole digest, for both lengths exceed it. So different digests
give different signatures. -/
theorem fixture_inj (hDigest : ∀ message, (sha256 message).length = 32)
    (hProfile : profile ∈ expectedProfiles) {message other : Bytes} :
    profile.fixture sha256 message = profile.fixture sha256 other ↔
      sha256 (profile.fixturePrefix :: message) = sha256 (profile.fixturePrefix :: other) := by
  have hLong : 32 ≤ profile.signatureLength := by
    simp only [expectedProfiles, List.mem_cons, List.not_mem_nil, or_false] at hProfile
    obtain rfl | rfl := hProfile <;> decide
  constructor
  · intro h
    rw [← take_repeated (hDigest (profile.fixturePrefix :: message)) hLong,
      ← take_repeated (hDigest (profile.fixturePrefix :: other)) hLong]
    exact congrArg (List.take 32) h
  · intro h
    rw [Profile.fixture, Profile.fixture, h]

/-- Some digest tells two payloads apart, under one of the two prefixes. This is all
that is asked of the digest where a payload is exchanged. -/
def Distinguished (sha256 : Bytes → Bytes) (payload other : Bytes) : Prop :=
  ∃ profile ∈ expectedProfiles,
    sha256 (profile.fixturePrefix :: message standardBody profile.header payload) ≠
      sha256 (profile.fixturePrefix :: message standardBody profile.header other)

/-- The last bit of what is not empty can be flipped, and the octets are then
others. -/
theorem flipLast_bytes {octets : Bytes} (h : 0 < octets.length) :
    ∃ changed, flipLast (.bytes octets) = .ok (.bytes changed) ∧
      changed.length = octets.length ∧ changed ≠ octets := by
  obtain ⟨before, last, rfl⟩ : ∃ before last, octets = before ++ [last] :=
    ⟨_, _, (List.dropLast_concat_getLast (List.ne_nil_of_length_pos h)).symm⟩
  refine ⟨before ++ [last ^^^ 1], by simp [flipLast], by simp, fun hSame => ?_⟩
  have hFlip : last ^^^ 1 = last := List.singleton_inj.mp (List.append_cancel_left hSame)
  have hZero : (1 : UInt8) = 0 := by
    rw [← UInt8.xor_right_inj last, hFlip, UInt8.xor_zero]
  cases hZero

/-- The value of the tag of the envelope of `build_positive`, from which the negative
vectors are made. -/
def positiveOuter (sha256 : Bytes → Bytes) (payload : Bytes) : Item :=
  .array [.bytes standardBody, .map [], .bytes payload,
    .array (([signedPair sha256 payload ed25519, signedPair sha256 payload mlDsa65].map
      octetPair).map signatureEntry)]

/-- The envelope with another payload is the one that is made of it, with the
signatures of the first. -/
theorem mutatePayload_eq (other : Bytes) : mutatePayload (positiveOuter sha256 payload) other =
    makeEnvelope (.bytes other) (.bytes standardBody)
      ([signedPair sha256 payload ed25519, signedPair sha256 payload mlDsa65].map octetPair) := by
  rfl

theorem refused_extraHeader (h : bodyProtected coseContentType [(.int 99, .bool true)] = .ok body) :
    Refused "unsupported_header" (checkBody body) := by
  have hBody : bodyProtected coseContentType [(.int 99, .bool true)] =
      .ok (bodyHeader coseContentType [(.int 99, .bool true)]).encode :=
    readable_extraHeader.cborEncode_eq
  rw [hBody, Except.ok.injEq] at h
  rw [← h, checkBody_extra]
  exact ⟨_, rfl⟩

theorem refused_contentType {contentType : String} (hOther : contentType ≠ coseContentType)
    (hShort : (Utf8.encode contentType).length < 18446744073709551616)
    (h : bodyProtected contentType [] = .ok body) :
    Refused "invalid_content_type" (checkBody body) := by
  have hReadable := readable_bodyHeader hShort
  have hBody : bodyProtected contentType [] = .ok (bodyHeader contentType []).encode :=
    hReadable.cborEncode_eq
  rw [hBody, Except.ok.injEq] at h
  rw [← h, checkBody_encode hReadable]
  exact refused_failIf hOther _

theorem signatureProtected_eq_ok {algorithm : Int} {kid' header : Bytes}
    (hHeader : Readable (signatureHeader algorithm kid')) :
    signatureProtected algorithm kid' = .ok header ↔
      header = (signatureHeader algorithm kid').encode := by
  have hEncoded : signatureProtected algorithm kid' = .ok (signatureHeader algorithm kid').encode :=
    hHeader.cborEncode_eq
  rw [hEncoded, Except.ok.injEq, eq_comm]

/-- An encoded manifest is carried by its payload, sorted as the codec sorts it. -/
theorem carries_of_encode (hManifest : WellFormed (.map manifest))
    (hAdmitted : Admitted manifest first second) (hPayload : encodeManifest manifest = .ok payload)
    {signatures : List (Bytes × Bytes)}
    (hEnvelope : makeEnvelope (.bytes payload) (.bytes body) (signatures.map octetPair) =
      .ok envelope) :
    Carries payload (sortedDict manifest) (sortedDict first) (sortedDict second) :=
  ⟨(makeEnvelope_short hEnvelope).1, decodeManifest_encode hManifest hPayload,
    hAdmitted.sorted hManifest⟩

/-- The changed digest is another text, because its first digit is another. -/
theorem replaceDigit_eq_ok {text : String} {replaced : Item}
    (h : replaceDigit (.text text) = .ok replaced) : ∃ other, replaced = .text other ∧ other ≠ text := by
  rw [replaceDigit] at h
  cases hText : text.toList with
  | nil =>
      rw [hText] at h
      cases h
  | cons digit rest =>
      rw [hText] at h
      refine ⟨_, (Except.ok.inj h).symm, fun hSame => ?_⟩
      rw [← hSame, String.toList_ofList] at hText
      obtain ⟨hDigit, -⟩ := List.cons.inj hText
      split_ifs at hDigit with hZero
      · exact hZero hDigit.symm
      · rw [not_not.mp hZero] at hDigit
        cases hDigit

/-- Another digest in the first descriptor is noticed before the signatures, as a
wrong key binding: the policy looks only at its form. -/
theorem refused_digest (hDigest : ∀ message, (sha256 message).length = 32)
    (hManifest : WellFormed (.map manifest)) (hAdmitted : Admitted manifest first second)
    (hBound : Bound ed25519 first) {wrong : Dict} {other : Bytes}
    (hWrong : replaceDigest manifest = .ok wrong) (hOther : encodeManifest wrong = .ok other)
    (hEnvelope : mutatePayload (positiveOuter sha256 payload) other = .ok envelope) :
    Refused "key_binding_mismatch" (verifyCose sha256 envelope) := by
  obtain ⟨hFirst, hSecond⟩ := hAdmitted.framed.wellFormed_keys hManifest
  have hKeys : subscript (.map manifest) "keys" = .ok (.array [.map first, .map second]) :=
    subscript_map.mpr hAdmitted.framed.keys
  have hFirstKey : index (.array [.map first, .map second]) 0 = .ok (.map first) := rfl
  have hOld : subscript (.map first) "public_key_sha256" =
      .ok (.text (expectedSha256 ed25519.name)) :=
    subscript_map.mpr (hAdmitted.first.bound_iff.mp hBound).2
  simp only [replaceDigest, hKeys, hFirstKey, hOld, ok_bind, bind_eq_ok,
    setFirstKey_eq hAdmitted, Except.ok.injEq] at hWrong
  obtain ⟨_, hReplaced, rfl⟩ := hWrong
  obtain ⟨digest, rfl, hChanged⟩ := replaceDigit_eq_ok hReplaced
  have hEntry : WellFormed (.map (setItem (.text "public_key_sha256") (.text digest) first)) :=
    hFirst.setItem rfl .text
  have hWrong := wellFormed_withFirst hManifest hEntry hSecond
  obtain ⟨hValid, -⟩ := then_eq_ok.mp hOther
  obtain ⟨left, right, hAgain⟩ := (validateManifest_eq_ok hWrong).mp hValid
  have hLookup := hAgain.framed.keys
  rw [withFirst, lookup_setItem_self, Option.some.injEq, Item.array.injEq] at hLookup
  obtain ⟨hLeft, hRight⟩ := List.cons.inj hLookup
  obtain rfl := Item.map.inj hLeft
  have hUnbound : ¬Bound ed25519
      (sortedDict (setItem (.text "public_key_sha256") (.text digest) first)) := by
    intro hSame
    have hName : KeyEntry ed25519.name _ := hAgain.first
    have hNew := (hName.bound_iff.mp ((hName.bound_sorted hEntry).mp hSame)).2
    rw [lookup_setItem_self, Option.some.injEq, Item.text.injEq] at hNew
    exact hChanged hNew
  rw [mutatePayload_eq] at hEnvelope
  rw [verifyCose_pair (carries_of_encode hWrong hAgain hOther hEnvelope) (length_fixture hDigest _)
    (length_fixture hDigest _) hEnvelope]
  exact (refused_failIf hUnbound _).bind _

/-- A renamed operator is noticed when the digests tell the payloads apart, and not
otherwise. -/
theorem verifyCose_renamed (hDigest : ∀ message, (sha256 message).length = 32)
    (hManifest : WellFormed (.map manifest)) (hAdmitted : Admitted manifest first second)
    (hBound : Bound ed25519 first ∧ Bound mlDsa65 second) {other : Bytes}
    (hRenamed : renameOperator manifest = .ok renamed)
    (hOther : encodeManifest renamed = .ok other)
    (hEnvelope : mutatePayload (positiveOuter sha256 payload) other = .ok envelope) :
    (Distinguished sha256 payload other →
      Refused "signature_invalid" (verifyCose sha256 envelope)) ∧
    (¬Distinguished sha256 payload other →
      verifyCose sha256 envelope = .ok (sortedDict renamed)) := by
  have hWell := hManifest.rename hRenamed
  have hAgain := hAdmitted.rename hRenamed
  obtain ⟨hFirst, hSecond⟩ := hAdmitted.framed.wellFormed_keys hManifest
  have hFirstName : KeyEntry ed25519.name first := hAdmitted.first
  have hSecondName : KeyEntry mlDsa65.name second := hAdmitted.second
  have hFirstBound := (hFirstName.bound_sorted hFirst).mpr hBound.1
  have hSecondBound := (hSecondName.bound_sorted hSecond).mpr hBound.2
  rw [mutatePayload_eq] at hEnvelope
  have hCarries := carries_of_encode hWell hAgain hOther hEnvelope
  rw [verifyCose_pair hCarries (length_fixture hDigest _) (length_fixture hDigest _) hEnvelope,
    failIf_of_not (not_not.mpr hFirstBound), ok_bind]
  have hLeft := @fixture_inj sha256 ed25519 hDigest ed25519_mem
    (message standardBody ed25519.header payload) (message standardBody ed25519.header other)
  have hRight := @fixture_inj sha256 mlDsa65 hDigest mlDsa65_mem
    (message standardBody mlDsa65.header payload) (message standardBody mlDsa65.header other)
  have hDistinguished : Distinguished sha256 payload other ↔
      ed25519.fixture sha256 (message standardBody ed25519.header payload) ≠
        ed25519.fixture sha256 (message standardBody ed25519.header other) ∨
      mlDsa65.fixture sha256 (message standardBody mlDsa65.header payload) ≠
        mlDsa65.fixture sha256 (message standardBody mlDsa65.header other) := by
    rw [ne_eq, hLeft, ne_eq, hRight]
    simp [Distinguished, expectedProfiles]
  rw [hDistinguished]
  constructor
  · intro h
    by_cases hSame : ed25519.fixture sha256 (message standardBody ed25519.header payload) =
        ed25519.fixture sha256 (message standardBody ed25519.header other)
    · rw [failIf_of_not (not_not.mpr hSame), ok_bind, failIf_of_not (not_not.mpr hSecondBound),
        ok_bind]
      exact (refused_failIf (h.resolve_left (not_not.mpr hSame)) _).bind _
    · exact (refused_failIf hSame _).bind _
  · intro h
    obtain ⟨hSame, hAlike⟩ := not_or.mp h
    rw [failIf_of_not hSame, ok_bind, failIf_of_not (not_not.mpr hSecondBound), ok_bind,
      failIf_of_not hAlike, ok_bind]

/-- The four vectors that are manifests are refused, each in its category. Two of them
do not depend on the manifest. -/
theorem manifestVectors_refused (hManifest : WellFormed (.map manifest))
    (hPayload : encodeManifest manifest = .ok payload) :
    ∀ case ∈ manifestVectors sha256 payload, Passes sha256 case := by
  simp only [manifestVectors, List.forall_mem_cons]
  exact ⟨testManifest_of_refused refused_empty,
    testManifest_of_refused (refused_truncated hManifest hPayload),
    testManifest_of_refused refused_noncanonical, testManifest_of_refused refused_duplicateKey,
    List.forall_mem_nil _⟩

/-- The three substitutions: only the one of the payload depends on the digests. -/
theorem substitutionVectors_passes (hDigest : ∀ message, (sha256 message).length = 32)
    (hManifest : WellFormed (.map manifest)) (hAdmitted : Admitted manifest first second)
    (hBound : Bound ed25519 first ∧ Bound mlDsa65 second)
    (h : substitutionVectors sha256 manifest payload (positiveOuter sha256 payload)
      (octetPair (signedPair sha256 payload ed25519))
      (octetPair (signedPair sha256 payload mlDsa65)) = .ok cases) :
    ∃ renamed other header swap body, renameOperator manifest = .ok renamed ∧
      encodeManifest renamed = .ok other ∧ cases = [header, swap, body] ∧
      Passes sha256 header ∧ Passes sha256 body ∧
      (Distinguished sha256 payload other → Passes sha256 swap) ∧
      (¬Distinguished sha256 payload other → testCase sha256 swap = .error .assertionError) := by
  simp only [substitutionVectors, bind_eq_ok, Except.ok.injEq] at h
  obtain ⟨extraBody, hExtraBody, extra, hExtra, renamed, hRenamed, other, hOther, swap, hSwap,
    cbosBody, hCbosBody, cbos, hCbos, rfl⟩ := h
  obtain ⟨hShown, hHidden⟩ := verifyCose_renamed hDigest hManifest hAdmitted hBound hRenamed hOther
    hSwap
  have hHeader : Refused "unsupported_header" (verifyCose sha256 extra) :=
    refused_body [signedPair sha256 payload ed25519, signedPair sha256 payload mlDsa65]
      (refused_extraHeader hExtraBody) hExtra
  have hBody : Refused "invalid_content_type" (verifyCose sha256 cbos) :=
    refused_body [signedPair sha256 payload ed25519, signedPair sha256 payload mlDsa65]
      (refused_contentType (by decide) (by decide) hCbosBody) hCbos
  exact ⟨renamed, other, _, _, _, hRenamed, hOther, rfl, testCose_of_refused hHeader,
    testCose_of_refused hBody, fun hShows => testCose_of_refused (hShown hShows),
    fun hHides => testCose_of_accepted (hHidden hHides)⟩

/-- Other signatures behind the body are refused before any fixture of the second one
is compared. -/
theorem signatureVectors_passes (hDigest : ∀ message, (sha256 message).length = 32)
    (hCarries : Carries payload manifest first second) (hBound : Bound ed25519 first)
    (h : signatureVectors sha256 payload (.bytes standardBody)
      (octetPair (signedPair sha256 payload ed25519))
      (octetPair (signedPair sha256 payload mlDsa65)) = .ok cases) :
    ∀ case ∈ cases, Passes sha256 case := by
  have hUnknownKey : Readable (signatureHeader (-999) kid) :=
    readable_signatureHeader (readable_small (by decide) (by decide)) (by decide)
  have hOtherKid : Readable (signatureHeader ed25519.algorithm (Utf8.encode "release-2")) :=
    readable_signatureHeader (readable_small (by decide) (by decide)) (by decide)
  have hEd : Readable (signatureHeader ed25519.algorithm kid) :=
    readable_header ed25519_mem
  have hMl : Readable (signatureHeader mlDsa65.algorithm kid) :=
    readable_header mlDsa65_mem
  simp only [signatureVectors, bind_eq_ok, Except.ok.injEq, signatureProtected_eq_ok hUnknownKey,
    signatureProtected_eq_ok hOtherKid, exists_eq_left] at h
  obtain ⟨noEd, hNoEd, noMl, hNoMl, twice, hTwice, unknown, hUnknown, swapped, hSwapped, mixed, hMixed,
    otherKid, hOtherKidEnvelope, rfl⟩ := h
  have hVerified := first_verified hCarries hDigest hBound
  have hMissingEd : Refused "invalid_cose_structure" (verifyCose sha256 noEd) :=
    refused_count [signedPair sha256 payload mlDsa65] hCarries (by simp) hNoEd
  have hMissingMl : Refused "invalid_cose_structure" (verifyCose sha256 noMl) :=
    refused_count [signedPair sha256 payload ed25519] hCarries (by simp) hNoMl
  have hDuplicate : Refused "invalid_algorithm" (verifyCose sha256 twice) :=
    refused_second (signedPair sha256 payload ed25519) (signedPair sha256 payload ed25519) hCarries
      hVerified (refused_algorithm hEd (by decide)) hTwice
  have hUnknownAlgorithm : Refused "invalid_algorithm" (verifyCose sha256 unknown) :=
    refused_second (signedPair sha256 payload ed25519)
      ((signatureHeader (-999) kid).encode, (signedPair sha256 payload mlDsa65).2) hCarries
      hVerified (refused_algorithm hUnknownKey (by decide)) hUnknown
  have hReordered : Refused "invalid_algorithm" (verifyCose sha256 swapped) :=
    refused_first (signedPair sha256 payload mlDsa65) (signedPair sha256 payload ed25519) hCarries
      (refused_algorithm hMl (by decide)) hSwapped
  have hLength : (signedPair sha256 payload ed25519).2.length ≠ mlDsa65.signatureLength := by
    rw [signedPair, length_fixture hDigest]
    decide
  have hMismatch : Refused "signature_invalid" (verifyCose sha256 mixed) :=
    refused_second (signedPair sha256 payload ed25519)
      (mlDsa65.header, (signedPair sha256 payload ed25519).2) hCarries hVerified
      (refused_length mlDsa65_mem hLength) hMixed
  have hKid : Refused "invalid_kid" (verifyCose sha256 otherKid) :=
    refused_first ((signatureHeader ed25519.algorithm (Utf8.encode "release-2")).encode,
      (signedPair sha256 payload ed25519).2) (signedPair sha256 payload mlDsa65) hCarries
      (refused_kid hOtherKid (by decide)) hOtherKidEnvelope
  simp only [List.forall_mem_cons]
  exact ⟨testCose_of_refused hMissingEd, testCose_of_refused hMissingMl,
    testCose_of_refused hDuplicate, testCose_of_refused hUnknownAlgorithm,
    testCose_of_refused hReordered, testCose_of_refused hMismatch, testCose_of_refused hKid,
    List.forall_mem_nil _⟩

/-- The two vectors with another descriptor are refused for it, one by the policy and
one by the key binding. -/
theorem descriptorVectors_passes (hDigest : ∀ message, (sha256 message).length = 32)
    (hManifest : WellFormed (.map manifest)) (hAdmitted : Admitted manifest first second)
    (hBound : Bound ed25519 first)
    (h : descriptorVectors sha256 manifest (positiveOuter sha256 payload) = .ok cases) :
    ∀ case ∈ cases, Passes sha256 case := by
  simp only [descriptorVectors, setFirstKey_eq hAdmitted, ok_bind, bind_eq_ok,
    Except.ok.injEq] at h
  obtain ⟨other, hOther, uri, hUri, wrong, hWrong, wrongPayload, hWrongPayload, digest, hSha, rfl⟩ := h
  have hBody : checkBody standardBody = .ok () := by
    rw [standardBody, checkBody_encode readable_standardBody, failIf_ne_self]
  have hDescriptor : Refused "manifest_policy_invalid" (verifyCose sha256 uri) := by
    rw [mutatePayload_eq] at hUri
    rw [verifyCose_makeEnvelope hUri, verifyBody, hBody, ok_bind]
    exact (refused_uri hManifest hAdmitted (by decide) hOther).bind _
  have hDigestRefused := refused_digest hDigest hManifest hAdmitted hBound hWrong hWrongPayload hSha
  simp only [List.forall_mem_cons]
  exact ⟨testCose_of_refused hDescriptor, testCose_of_refused hDigestRefused,
    List.forall_mem_nil _⟩

/-- A flipped bit is noticed in either signature, for no fixture differs from
itself. -/
theorem flippedVectors_passes (hDigest : ∀ message, (sha256 message).length = 32)
    (hCarries : Carries payload manifest first second)
    (hBound : Bound ed25519 first ∧ Bound mlDsa65 second)
    (h : flippedVectors sha256 payload (.bytes standardBody)
      (octetPair (signedPair sha256 payload ed25519))
      (octetPair (signedPair sha256 payload mlDsa65)) = .ok cases) :
    ∀ case ∈ cases, Passes sha256 case := by
  simp only [flippedVectors, bind_eq_ok, Except.ok.injEq] at h
  obtain ⟨_, hEdFlip, badEd, hBadEd, _, hMlFlip, badMl, hBadMl, rfl⟩ := h
  have hEdLength : (signedPair sha256 payload ed25519).2.length = 64 := length_fixture hDigest _
  have hMlLength : (signedPair sha256 payload mlDsa65).2.length = 3309 := length_fixture hDigest _
  obtain ⟨left, hLeftFlip, hLeftLength, hLeft⟩ := flipLast_bytes (by rw [hEdLength]; decide)
  obtain rfl := Except.ok.inj (hLeftFlip.symm.trans hEdFlip)
  obtain ⟨right, hRightFlip, hRightLength, hRight⟩ := flipLast_bytes (by rw [hMlLength]; decide)
  obtain rfl := Except.ok.inj (hRightFlip.symm.trans hMlFlip)
  have hEd : Refused "signature_invalid" (verifyCose sha256 badEd) := by
    rw [verifyCose_pair hCarries (hLeftLength.trans hEdLength) hMlLength hBadEd, failIf_of_not (not_not.mpr hBound.1), ok_bind]
    exact (refused_failIf hLeft _).bind _
  have hMl : Refused "signature_invalid" (verifyCose sha256 badMl) := by
    rw [verifyCose_pair hCarries hEdLength (hRightLength.trans hMlLength) hBadMl,
      failIf_of_not (not_not.mpr hBound.1), ok_bind, signedPair, failIf_ne_self, ok_bind,
      failIf_of_not (not_not.mpr hBound.2), ok_bind]
    exact (refused_failIf hRight _).bind _
  simp only [List.forall_mem_cons]
  exact ⟨testCose_of_refused hEd, testCose_of_refused hMl, List.forall_mem_nil _⟩

/-- The negative vectors of a positive one, group by group, so that each group is
refused by its own lemma. -/
theorem negativeVectors_eq_ok
    (h : negativeVectors sha256 manifest payload (positiveOuter sha256 payload) = .ok cases) :
    ∃ substituted recombined redescribed flipped,
      substitutionVectors sha256 manifest payload (positiveOuter sha256 payload)
        (octetPair (signedPair sha256 payload ed25519))
        (octetPair (signedPair sha256 payload mlDsa65)) = .ok substituted ∧
      signatureVectors sha256 payload (.bytes standardBody)
        (octetPair (signedPair sha256 payload ed25519))
        (octetPair (signedPair sha256 payload mlDsa65)) = .ok recombined ∧
      descriptorVectors sha256 manifest (positiveOuter sha256 payload) = .ok redescribed ∧
      flippedVectors sha256 payload (.bytes standardBody)
        (octetPair (signedPair sha256 payload ed25519))
        (octetPair (signedPair sha256 payload mlDsa65)) = .ok flipped ∧
      cases = manifestVectors sha256 payload ++
        (substituted ++ (recombined ++ (redescribed ++ flipped))) := by
  have hBody : index (positiveOuter sha256 payload) 0 = .ok (.bytes standardBody) := rfl
  have hSignatures : index (positiveOuter sha256 payload) 3 =
      .ok (.array [signatureEntry (octetPair (signedPair sha256 payload ed25519)),
        signatureEntry (octetPair (signedPair sha256 payload mlDsa65))]) := rfl
  simp only [negativeVectors, hBody, hSignatures, ok_bind, bind_eq_ok, Except.ok.injEq] at h
  obtain ⟨_, hFirst, ed, hEd, _, hSecond, ml, hMl, substituted, hSubstituted, recombined, hRecombined,
    redescribed, hRedescribed, flipped, hFlipped, rfl⟩ := h
  obtain rfl := Except.ok.inj hFirst
  obtain rfl := Except.ok.inj hSecond
  obtain rfl := Except.ok.inj hEd
  obtain rfl := Except.ok.inj hMl
  exact ⟨substituted, recombined, redescribed, flipped, hSubstituted, hRecombined, hRedescribed,
    hFlipped, rfl⟩

/-- The tests of the negative vectors of a manifest with the expected descriptors: all
pass exactly if the renamed payload shows in a digest. -/
theorem testCases_negativeVectors (hDigest : ∀ message, (sha256 message).length = 32)
    (hManifest : WellFormed (.map manifest)) (hAdmitted : Admitted manifest first second)
    (hBound : KeysBound manifest)
    (hPositive : buildPositive sha256 manifest = .ok (payload, envelope))
    (h : negativeVectors sha256 manifest payload (positiveOuter sha256 payload) = .ok cases) :
    ∃ renamed other, renameOperator manifest = .ok renamed ∧ encodeManifest renamed = .ok other ∧
      (Distinguished sha256 payload other → testCases sha256 cases =
        .ok (cases.map fun case => (case.id, case.expectedCategory))) ∧
      (¬Distinguished sha256 payload other → testCases sha256 cases = .error .assertionError) := by
  obtain ⟨hPayload, hEnvelope⟩ := (buildPositive_eq_ok hAdmitted).mp hPositive
  have hCarries := carries_of_encode hManifest hAdmitted hPayload hEnvelope
  have hKeys := hAdmitted.keysBound_iff.mp hBound
  have hSortedKeys := (hAdmitted.sorted hManifest).keysBound_iff.mp
    ((hAdmitted.keysBound_sorted hManifest).mpr hBound)
  obtain ⟨substituted, recombined, redescribed, flipped, hSubstituted, hRecombined, hRedescribed,
    hFlipped, rfl⟩ := negativeVectors_eq_ok h
  obtain ⟨renamed, other, header, swap, body, hRenamed, hOther, rfl, hHeader, hBodyPasses, hShown,
    hHidden⟩ := substitutionVectors_passes hDigest hManifest hAdmitted hKeys hSubstituted
  have hManifests := @manifestVectors_refused sha256 _ _ hManifest hPayload
  have hRecombinedPass := signatureVectors_passes hDigest hCarries hSortedKeys.1 hRecombined
  have hRedescribedPass := descriptorVectors_passes hDigest hManifest hAdmitted hKeys.1 hRedescribed
  have hFlippedPass := flippedVectors_passes hDigest hCarries hSortedKeys hFlipped
  refine ⟨renamed, other, hRenamed, hOther, fun h => ?shown, fun h => ?hidden⟩
  case shown =>
    apply testCases_of_passes
    simp only [List.forall_mem_append, List.forall_mem_cons]
    exact ⟨hManifests, ⟨hHeader, hShown h, hBodyPasses, List.forall_mem_nil _⟩, hRecombinedPass,
      hRedescribedPass, hFlippedPass⟩
  case hidden =>
    have hBefore : ∀ case ∈ manifestVectors sha256 payload ++ [header], Passes sha256 case :=
      List.forall_mem_append.mpr ⟨hManifests, List.forall_mem_singleton.mpr hHeader⟩
    have hError := @testCases_of_error sha256 _ ([body] ++ (recombined ++ (redescribed ++ flipped)))
      swap _ hBefore (hHidden h)
    rw [← hError]
    simp

end Tfws.Vectors
