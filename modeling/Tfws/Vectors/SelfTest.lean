import Tfws.Cli.Sha256Numbers
import Tfws.Vectors.NegativeVectors

/-! The self-test of the vector generator on the corpus that it builds. -/
namespace Tfws.Vectors

open Fallible Cbor Sorting

variable {sha256 : Bytes → Bytes} {manifest renamed first second : Dict}
  {profile : Profile} {payload body envelope : Bytes} {category : String} {cases : List Case} {corpus : Corpus}

/-- A vector that carries the digest of its own octets, which `validate_corpus`
computes again. -/
def Digested (sha256 : Bytes → Bytes) (case : Case) : Prop :=
  ∃ data, case.bytesHex = Python.hexdigest data ∧ case.sha256 = sha256Hex sha256 data

/-- The identifiers of the negative vectors, in the order in which the script writes
them. -/
def negativeIds : List String :=
  ["malformed-cbor", "truncated-cbor", "noncanonical-cbor", "duplicate-key-cbor",
    "unsupported-mandatory-header", "payload-substitution", "protected-header-substitution",
    "missing-ed25519-signature", "missing-ml-dsa-65-signature", "duplicate-signature-component",
    "unknown-mandatory-algorithm", "algorithm-substitution", "algorithm-mismatch",
    "wrong-key-identifier", "wrong-public-key-descriptor", "wrong-sha256-key-binding",
    "invalid-ed25519-signature", "invalid-ml-dsa-65-signature"]

/-- `_negative` writes the digest that belongs to its octets. -/
theorem digested_negativeCase {id vectorClass inputType : String} {data : Bytes} :
    Digested sha256 (negativeCase sha256 id vectorClass inputType data category) :=
  ⟨data, rfl, rfl⟩

/-- Of whatever manifest they are made, the negative vectors have the fixed
identifiers, the required classes in order, and their own digests. -/
theorem negativeVectors_labels {outer : Item}
    (h : negativeVectors sha256 manifest payload outer = .ok cases) :
    cases.map Case.id = negativeIds ∧ cases.map Case.vectorClass = requiredClasses ∧
      ∀ case ∈ cases, Digested sha256 case := by
  simp only [negativeVectors, bind_eq_ok, Except.ok.injEq] at h
  obtain ⟨body, -, signatures, -, _, -, ed, -, _, -, ml, -, substituted, hSubstituted, recombined,
    hRecombined, redescribed, hRedescribed, flipped, hFlipped, rfl⟩ := h
  simp only [substitutionVectors, bind_eq_ok, Except.ok.injEq] at hSubstituted
  obtain ⟨_, -, _, -, _, -, _, -, _, -, _, -, _, -, rfl⟩ := hSubstituted
  simp only [signatureVectors, bind_eq_ok, Except.ok.injEq] at hRecombined
  obtain ⟨_, -, _, -, _, -, _, -, _, -, _, -, _, -, _, -, _, -, rfl⟩ := hRecombined
  simp only [descriptorVectors, bind_eq_ok, Except.ok.injEq] at hRedescribed
  obtain ⟨_, -, _, -, _, -, _, -, _, -, _, -, rfl⟩ := hRedescribed
  simp only [flippedVectors, bind_eq_ok, Except.ok.injEq] at hFlipped
  obtain ⟨_, -, _, -, _, -, _, -, rfl⟩ := hFlipped
  refine ⟨rfl, rfl, ?_⟩
  simp [manifestVectors, digested_negativeCase]

/-- The loop of `validate_corpus` over the vectors passes when the identifiers are new
and distinct and the digests are right. By induction on the vectors, with the
identifiers seen so far general. -/
theorem validateCases_eq_ok {ids : List String} (hNew : ∀ case ∈ cases, case.id ∉ ids)
    (hNodup : (cases.map Case.id).Nodup) (hDigested : ∀ case ∈ cases, Digested sha256 case) :
    validateCases sha256 ids cases = .ok () := by
  induction cases generalizing ids with
  | nil => rfl
  | cons case rest ih =>
      obtain ⟨hId, hRestNew⟩ := List.forall_mem_cons.mp hNew
      obtain ⟨⟨data, hHex, hSha⟩, hRest⟩ := List.forall_mem_cons.mp hDigested
      rw [List.map_cons, List.nodup_cons] at hNodup
      rw [validateCases, failIf_of_not hId, ok_bind, hHex, fromHex_hexdigest, ok_bind,
        failIf_of_not (not_not.mpr hSha.symm), ok_bind]
      apply ih _ hNodup.2 hRest
      intro other hMem hListed
      obtain hSame | hOld := List.mem_cons.mp hListed
      · exact hNodup.1 (hSame ▸ List.mem_map_of_mem hMem)
      · exact hRestNew other hMem hOld

/-- The corpus that the script writes for a positive vector and its negative ones. -/
def corpusOf (sha256 : Bytes → Bytes) (manifest : Dict) (payload envelope : Bytes)
    (negative : List Case) : Corpus where
  corpusVersion := "1"
  profile := "A2-COSE-04"
  positive := {
    id := "positive-hybrid-envelope-v1"
    manifest
    manifestCborHex := Python.hexdigest payload
    manifestCborSha256 := sha256Hex sha256 payload
    coseHex := Python.hexdigest envelope
    coseSha256 := sha256Hex sha256 envelope }
  negative

/-- What `build_corpus` returns, in terms of its three parts: the positive vector, its
envelope read back, and the negative vectors. -/
theorem buildCorpus_eq_ok : buildCorpus sha256 manifest = .ok corpus ↔
    ∃ payload envelope number outer negative,
      buildPositive sha256 manifest = .ok (payload, envelope) ∧
      cborDecodeExact envelope = .ok (.tag number outer) ∧
      negativeVectors sha256 manifest payload outer = .ok negative ∧
      corpus = corpusOf sha256 manifest payload envelope negative := by
  simp only [buildCorpus, bind_eq_ok, Prod.exists]
  constructor
  · intro h
    obtain ⟨payload, envelope, hBuilt, value, hDecoded, hRest⟩ := h
    cases value with
    | tag number outer =>
        obtain ⟨negative, hNegative, hCorpus⟩ := bind_eq_ok.mp hRest
        exact ⟨payload, envelope, number, outer, negative, hBuilt, hDecoded, hNegative,
          (Except.ok.inj hCorpus).symm⟩
    | null | bool _ | int _ | float _ | text _ | bytes _ | array _ | map _ => cases hRest
  · intro h
    obtain ⟨payload, envelope, number, outer, negative, hBuilt, hDecoded, hNegative, rfl⟩ := h
    exact ⟨payload, envelope, hBuilt, _, hDecoded, bind_eq_ok.mpr ⟨negative, hNegative, rfl⟩⟩

/-- What `build_corpus` returns satisfies `validate_corpus`, whatever the digest
is. -/
theorem validateCorpus_buildCorpus (h : buildCorpus sha256 manifest = .ok corpus) :
    validateCorpus sha256 corpus = .ok () := by
  obtain ⟨payload, envelope, _, outer, negative, -, -, hNegative, rfl⟩ := buildCorpus_eq_ok.mp h
  obtain ⟨hIds, hClasses, hDigested⟩ := negativeVectors_labels hNegative
  have hCount : negative.length = 18 := by
    rw [← List.length_map Case.id, hIds]
    rfl
  have hNew : ∀ case ∈ negative, case.id ∉ ["positive-hybrid-envelope-v1"] := by
    intro case hMem hListed
    have hId : case.id ∈ negativeIds := hIds ▸ List.mem_map_of_mem hMem
    rw [List.mem_singleton.mp hListed] at hId
    revert hId
    decide
  have hNodup : (negative.map Case.id).Nodup := by
    rw [hIds]
    decide
  have hAll : negative.all (fun case => case.vectorClass ∈ requiredClasses) = true := by
    apply List.all_eq_true.mpr
    intro case hMem
    rw [decide_eq_true_eq, ← hClasses]
    exact List.mem_map_of_mem hMem
  have hEach : requiredClasses.all
      (fun name => negative.any fun case => case.vectorClass = name) = true := by
    apply List.all_eq_true.mpr
    intro name hMem
    rw [← hClasses] at hMem
    obtain ⟨case, hCase, rfl⟩ := List.mem_map.mp hMem
    exact List.any_eq_true.mpr ⟨case, hCase, decide_eq_true rfl⟩
  rw [validateCorpus, corpusOf, failIf_of_not (by simp), ok_bind,
    failIf_of_not (not_not.mpr hCount), ok_bind, validateCases_eq_ok hNew hNodup hDigested, ok_bind,
    hAll, hEach, failIf_of_not (by simp)]

/-- The vectors that drop, repeat or exchange a signature can always be made: an
envelope has room for each of them. -/
theorem exists_signatureVectors (hDigest : ∀ message, (sha256 message).length = 32)
    (hPayload : Short payload) :
    ∃ cases, signatureVectors sha256 payload (.bytes standardBody)
      (octetPair (signedPair sha256 payload ed25519))
      (octetPair (signedPair sha256 payload mlDsa65)) = .ok cases := by
  have hBody : Short standardBody := length_standardBody_le.trans_lt (by decide)
  have hEd := @short_signedPair sha256 payload ed25519 hDigest ed25519_mem
  have hMl := @short_signedPair sha256 payload mlDsa65 hDigest mlDsa65_mem
  have hUnknownKey : Readable (signatureHeader (-999) kid) :=
    readable_signatureHeader (readable_small (by decide) (by decide)) (by decide)
  have hOtherKid : Readable (signatureHeader ed25519.algorithm (Utf8.encode "release-2")) :=
    readable_signatureHeader (readable_small (by decide) (by decide)) (by decide)
  have hUnknownShort : Short (signatureHeader (-999) kid).encode := by
    rw [Short]
    decide
  have hOtherShort : Short
      (signatureHeader ed25519.algorithm (Utf8.encode "release-2")).encode := by
    rw [Short]
    decide
  have hOne (pair : Bytes × Bytes) (h : Short pair.1 ∧ Short pair.2) :
      ∃ envelope, makeEnvelope (.bytes payload) (.bytes standardBody) [octetPair pair] =
        .ok envelope :=
    @exists_envelope payload standardBody [pair] hPayload hBody (by simp) (by simpa using h)
  have hTwo (left right : Bytes × Bytes) (hLeft : Short left.1 ∧ Short left.2)
      (hRight : Short right.1 ∧ Short right.2) :
      ∃ envelope, makeEnvelope (.bytes payload) (.bytes standardBody)
        [octetPair left, octetPair right] = .ok envelope :=
    @exists_envelope payload standardBody [left, right] hPayload hBody (by simp)
      (List.forall_mem_cons.mpr ⟨hLeft, List.forall_mem_singleton.mpr hRight⟩)
  obtain ⟨noEd, hNoEd⟩ := hOne _ hMl
  obtain ⟨noMl, hNoMl⟩ := hOne _ hEd
  obtain ⟨twice, hTwice⟩ := hTwo _ _ hEd hEd
  obtain ⟨unknown, hUnknown⟩ := hTwo _ (_, (signedPair sha256 payload mlDsa65).2) hEd
    ⟨hUnknownShort, hMl.2⟩
  obtain ⟨swapped, hSwapped⟩ := hTwo _ _ hMl hEd
  obtain ⟨mixed, hMixed⟩ := hTwo _ (_, (signedPair sha256 payload ed25519).2) hEd ⟨hMl.1, hEd.2⟩
  obtain ⟨otherKid, hOtherKidEnvelope⟩ := hTwo (_, (signedPair sha256 payload ed25519).2) _
    ⟨hOtherShort, hEd.2⟩ hMl
  simp only [signatureVectors, bind_eq_ok, signatureProtected_eq_ok hUnknownKey,
    signatureProtected_eq_ok hOtherKid, exists_eq_left]
  exact ⟨_, _, hNoEd, _, hNoMl, _, hTwice, _, hUnknown, _, hSwapped, _, hMixed, _,
    hOtherKidEnvelope, rfl⟩

/-- So can the vectors in which one bit of a signature is flipped. -/
theorem exists_flippedVectors (hDigest : ∀ message, (sha256 message).length = 32)
    (hPayload : Short payload) :
    ∃ cases, flippedVectors sha256 payload (.bytes standardBody)
      (octetPair (signedPair sha256 payload ed25519))
      (octetPair (signedPair sha256 payload mlDsa65)) = .ok cases := by
  have hBody : Short standardBody := length_standardBody_le.trans_lt (by decide)
  have hEd := @short_signedPair sha256 payload ed25519 hDigest ed25519_mem
  have hMl := @short_signedPair sha256 payload mlDsa65 hDigest mlDsa65_mem
  have hEdLength : (signedPair sha256 payload ed25519).2.length = 64 := length_fixture hDigest _
  have hMlLength : (signedPair sha256 payload mlDsa65).2.length = 3309 := length_fixture hDigest _
  obtain ⟨left, hLeft, hLeftLength, -⟩ := flipLast_bytes (by rw [hEdLength]; decide)
  obtain ⟨right, hRight, hRightLength, -⟩ := flipLast_bytes (by rw [hMlLength]; decide)
  have hLeftShort : Short left := hLeftLength.trans_lt hEd.2
  have hRightShort : Short right := hRightLength.trans_lt hMl.2
  obtain ⟨badEd, hBadEd⟩ := @exists_envelope payload standardBody
    [((signedPair sha256 payload ed25519).1, left), signedPair sha256 payload mlDsa65] hPayload
    hBody (by simp)
    (List.forall_mem_cons.mpr ⟨⟨hEd.1, hLeftShort⟩, List.forall_mem_singleton.mpr hMl⟩)
  obtain ⟨badMl, hBadMl⟩ := @exists_envelope payload standardBody
    [signedPair sha256 payload ed25519, ((signedPair sha256 payload mlDsa65).1, right)] hPayload
    hBody (by simp)
    (List.forall_mem_cons.mpr ⟨hEd, List.forall_mem_singleton.mpr ⟨hMl.1, hRightShort⟩⟩)
  simp only [flippedVectors, bind_eq_ok]
  exact ⟨_, _, hLeft, _, hBadEd, _, hRight, _, hBadMl, rfl⟩

/-- So can the one with another payload, as soon as the renamed manifest has an
encoding that fits. -/
theorem exists_substitutionVectors (hDigest : ∀ message, (sha256 message).length = 32)
    (hPayload : Short payload) {other : Bytes} (hRenamed : renameOperator manifest = .ok renamed)
    (hOther : encodeManifest renamed = .ok other) (hOtherShort : Short other) :
    ∃ cases, substitutionVectors sha256 manifest payload (positiveOuter sha256 payload)
      (octetPair (signedPair sha256 payload ed25519))
      (octetPair (signedPair sha256 payload mlDsa65)) = .ok cases := by
  have hBody : Short standardBody := length_standardBody_le.trans_lt (by decide)
  have hExtra : bodyProtected coseContentType [(.int 99, .bool true)] =
      .ok (bodyHeader coseContentType [(.int 99, .bool true)]).encode :=
    readable_extraHeader.cborEncode_eq
  have hCbos : bodyProtected "application/tfws+cbos" [] =
      .ok (bodyHeader "application/tfws+cbos" []).encode :=
    (readable_bodyHeader (by decide)).cborEncode_eq
  have hExtraShort : Short (bodyHeader coseContentType [(.int 99, .bool true)]).encode := by
    rw [Short]
    decide
  have hCbosShort : Short (bodyHeader "application/tfws+cbos" []).encode := by
    rw [Short]
    decide
  obtain ⟨extra, hExtraEnvelope⟩ := @exists_signed sha256 payload _ _ hDigest hPayload hExtraShort
  obtain ⟨swap, hSwap⟩ := @exists_signed sha256 payload _ _ hDigest hOtherShort hBody
  obtain ⟨cbos, hCbosEnvelope⟩ := @exists_signed sha256 payload _ _ hDigest hPayload hCbosShort
  rw [← mutatePayload_eq] at hSwap
  simp only [substitutionVectors, bind_eq_ok]
  exact ⟨_, _, hExtra, _, hExtraEnvelope, _, hRenamed, _, hOther, _, hSwap, _, hCbos, _,
    hCbosEnvelope, rfl⟩

/-- So can the two with a changed descriptor, under the same condition on their
manifests. -/
theorem exists_descriptorVectors (hDigest : ∀ message, (sha256 message).length = 32)
    {uri wrong : Dict} {uriPayload wrongPayload : Bytes}
    (hUri : setFirstKey manifest "public_key_uri" (.text "/.well-known/keys/replaced.pem") =
      .ok uri)
    (hUriPayload : cborEncode (.map uri) = .ok uriPayload) (hUriShort : Short uriPayload)
    (hWrong : replaceDigest manifest = .ok wrong)
    (hWrongPayload : encodeManifest wrong = .ok wrongPayload) (hWrongShort : Short wrongPayload) :
    ∃ cases, descriptorVectors sha256 manifest (positiveOuter sha256 payload) = .ok cases := by
  have hBody : Short standardBody := length_standardBody_le.trans_lt (by decide)
  obtain ⟨first, hFirst⟩ := @exists_signed sha256 payload _ _ hDigest hUriShort hBody
  obtain ⟨second, hSecond⟩ := @exists_signed sha256 payload _ _ hDigest hWrongShort hBody
  rw [← mutatePayload_eq] at hFirst hSecond
  simp only [descriptorVectors, bind_eq_ok]
  exact ⟨_, _, hUri, _, hUriPayload, _, hFirst, _, hWrong, _, hWrongPayload, _, hSecond, rfl⟩

/-- A manifest has a corpus when it and the three manifests made from it have
encodings that fit into an envelope. Nothing else in `build_corpus` can fail. -/
theorem exists_corpus (hDigest : ∀ message, (sha256 message).length = 32)
    (hAdmitted : Admitted manifest first second) {other uriPayload wrongPayload : Bytes}
    {uri wrong : Dict} (hPayload : encodeManifest manifest = .ok payload) (hShort : Short payload)
    (hRenamed : renameOperator manifest = .ok renamed)
    (hOther : encodeManifest renamed = .ok other) (hOtherShort : Short other)
    (hUri : setFirstKey manifest "public_key_uri" (.text "/.well-known/keys/replaced.pem") =
      .ok uri)
    (hUriPayload : cborEncode (.map uri) = .ok uriPayload) (hUriShort : Short uriPayload)
    (hWrong : replaceDigest manifest = .ok wrong)
    (hWrongPayload : encodeManifest wrong = .ok wrongPayload) (hWrongShort : Short wrongPayload) :
    ∃ corpus, buildCorpus sha256 manifest = .ok corpus := by
  have hBody : Short standardBody := length_standardBody_le.trans_lt (by decide)
  obtain ⟨envelope, hEnvelope⟩ := @exists_signed sha256 payload _ _ hDigest hShort hBody
  have hDecoded := decode_cborEncode (wellFormed_envelopeItem _ _ _) hEnvelope
  rw [sorted_envelopeItem] at hDecoded
  obtain ⟨substituted, hSubstituted⟩ :=
    exists_substitutionVectors hDigest hShort hRenamed hOther hOtherShort
  obtain ⟨recombined, hRecombined⟩ := @exists_signatureVectors sha256 payload hDigest hShort
  obtain ⟨redescribed, hRedescribed⟩ := @exists_descriptorVectors sha256 manifest payload hDigest
    _ _ _ _ hUri hUriPayload hUriShort hWrong hWrongPayload hWrongShort
  obtain ⟨flipped, hFlipped⟩ := @exists_flippedVectors sha256 payload hDigest hShort
  have hNegative : negativeVectors sha256 manifest payload (positiveOuter sha256 payload) =
      .ok (manifestVectors sha256 payload ++
        (substituted ++ (recombined ++ (redescribed ++ flipped)))) := by
    simp only [negativeVectors, bind_eq_ok]
    exact ⟨_, rfl, _, rfl, _, rfl, _, rfl, _, rfl, _, rfl, _, hSubstituted, _, hRecombined, _,
      hRedescribed, _, hFlipped, rfl⟩
  exact ⟨_, buildCorpus_eq_ok.mpr ⟨payload, envelope, 98, _, _,
    (buildPositive_eq_ok hAdmitted).mpr ⟨hPayload, hEnvelope⟩, hDecoded, hNegative, rfl⟩⟩

/-- The sample manifest has one, under any digest of 32 octets. -/
theorem exists_corpus_sample (hDigest : ∀ message, (sha256 message).length = 32) :
    ∃ corpus, buildCorpus sha256 (sampleManifest "Example Organization" (publicKeyUri "ed25519")
      (expectedSha256 "ed25519")) = .ok corpus := by
  have hAdmitted := @admitted_sampleManifest "Example Organization" _ hexDigest_ed25519
  have hPayload := @encodeManifest_sampleManifest "Example Organization" _ hexDigest_ed25519
    (by decide) (by decide)
  have hOther := @encodeManifest_sampleManifest "Example Organizatioo" _ hexDigest_ed25519
    (by decide) (by decide)
  have hWrongPayload := @encodeManifest_sampleManifest "Example Organization"
    "0fe64728f1a7bb8c6c103f49c0e2ed0e999678229256c7aab813634cc6c85ba9"
    (hexDigest_of_digits (by decide) (by decide)) (by decide) (by decide)
  have hUriPayload := (@readable_sampleManifest "Example Organization"
    "/.well-known/keys/replaced.pem" (expectedSha256 "ed25519") (by decide) (by decide)
    (by decide)).cborEncode_eq
  apply exists_corpus hDigest hAdmitted hPayload ?_ rfl hOther ?_ rfl hUriPayload ?_ rfl
    hWrongPayload
  all_goals exact short_sampleManifest (by decide) (by decide) (by decide)

/-- Some digest shows that the operator was renamed: one of the two signatures over
the renamed manifest differs from the one over the manifest itself. A digest that
collides on both would let the substituted payload pass. -/
def RenamingShows (sha256 : Bytes → Bytes) (manifest : Dict) : Prop :=
  ∃ renamed payload other, encodeManifest manifest = .ok payload ∧
    renameOperator manifest = .ok renamed ∧ encodeManifest renamed = .ok other ∧
    Distinguished sha256 payload other

/-- `self_test` on the corpus of a manifest: it succeeds, with the category that
each vector names, when both descriptors are the expected ones and the digests
tell the renamed manifest from the manifest. Without the former it reports the
positive vector, without the latter the payload substitution. -/
theorem selfTest_buildCorpus (hDigest : ∀ message, (sha256 message).length = 32)
    (manifest : Dict) (corpus : Corpus) (hManifest : WellFormed (.map manifest))
    (hBuilt : buildCorpus sha256 manifest = .ok corpus) :
    (KeysBound manifest → RenamingShows sha256 manifest → selfTest sha256 corpus =
      .ok ((corpus.positive.id, "valid") ::
        corpus.negative.map fun case => (case.id, case.expectedCategory))) ∧
    (KeysBound manifest → ¬RenamingShows sha256 manifest →
      selfTest sha256 corpus = .error .assertionError) ∧
    (¬KeysBound manifest → selfTest sha256 corpus = .error keyBindingMismatch) := by
  obtain ⟨payload, envelope, number, outer, negative, hPositive, hDecoded, hNegative, rfl⟩ :=
    buildCorpus_eq_ok.mp hBuilt
  obtain ⟨first, second, hAdmitted⟩ := admitted_of_buildPositive hManifest hPositive
  obtain ⟨hPayload, hEnvelope⟩ := (buildPositive_eq_ok hAdmitted).mp hPositive
  have hOuter := decode_cborEncode (wellFormed_envelopeItem _ _ _) hEnvelope
  rw [sorted_envelopeItem, hDecoded, Except.ok.injEq, envelopeItem, Item.tag.injEq] at hOuter
  obtain ⟨-, rfl⟩ := hOuter
  obtain ⟨-, hSame⟩ := equal_sorted hManifest
  rw [sorted_map] at hSame
  have hSelfTest : selfTest sha256 (corpusOf sha256 manifest payload envelope negative) = (do
      let verified ← verifyCose sha256 envelope
      failIf (equal (.map verified) (.map manifest) = false)
        (.vectorError "semantic_mismatch" "positive COSE semantic mismatch")
      let results ← testCases sha256 negative
      .ok (("positive-hybrid-envelope-v1", "valid") :: results)) := by
    rw [selfTest, validateCorpus_buildCorpus hBuilt, ok_bind, corpusOf]
    dsimp only
    rw [fromHex_hexdigest, ok_bind, fromHex_hexdigest, ok_bind, failIf_ne_self, ok_bind,
      failIf_ne_self, ok_bind, decodeManifest_encode hManifest hPayload, ok_bind,
      failIf_passed hSame, ok_bind]
  rw [hSelfTest]
  refine ⟨fun hBound hShows => ?shown, fun hBound hHides => ?hidden, fun hUnbound => ?unbound⟩
  case shown =>
    obtain ⟨renamed, other, hRenamed, hOther, hShown, -⟩ := testCases_negativeVectors hDigest
      hManifest hAdmitted hBound hPositive hNegative
    obtain ⟨renamed', payload', other', hPayload', hRenamed', hOther', hDistinguished⟩ := hShows
    obtain rfl := Except.ok.inj (hPayload.symm.trans hPayload')
    obtain rfl := Except.ok.inj (hRenamed.symm.trans hRenamed')
    obtain rfl := Except.ok.inj (hOther.symm.trans hOther')
    rw [verifyCose_bound hDigest hManifest hAdmitted hPositive hBound, ok_bind,
      failIf_passed hSame, ok_bind, hShown hDistinguished, ok_bind]
    rfl
  case hidden =>
    obtain ⟨renamed, other, hRenamed, hOther, -, hHidden⟩ := testCases_negativeVectors hDigest
      hManifest hAdmitted hBound hPositive hNegative
    have hAlike : ¬Distinguished sha256 payload other := fun hDistinguished =>
      hHides ⟨renamed, payload, other, hPayload, hRenamed, hOther, hDistinguished⟩
    rw [verifyCose_bound hDigest hManifest hAdmitted hPositive hBound, ok_bind,
      failIf_passed hSame, ok_bind, hHidden hAlike, error_bind]
  case unbound =>
    rw [verifyCose_unbound hDigest hManifest hAdmitted hPositive hUnbound, error_bind]

/-- The first octet of the digest that the Ed25519 fixture over the sample repeats, by
evaluation. -/
theorem headD_sha256_sample : (Cli.sha256 (ed25519.fixturePrefix ::
    message standardBody ed25519.header (Item.map (sampleManifest "Example Organization"
      (publicKeyUri "ed25519") (expectedSha256 "ed25519"))).encode)).headD 0 = 213 := by
  rw [Cli.Numbers.sha256_eq]
  decide +kernel

theorem headD_sha256_renamed : (Cli.sha256 (ed25519.fixturePrefix ::
    message standardBody ed25519.header (Item.map (sampleManifest "Example Organizatioo"
      (publicKeyUri "ed25519") (expectedSha256 "ed25519"))).encode)).headD 0 = 44 := by
  rw [Cli.Numbers.sha256_eq]
  decide +kernel

/-- SHA-256 tells the sample from the one whose operator was renamed: the two digests
begin with different octets. -/
theorem renamingShows_sample : RenamingShows Cli.sha256 (sampleManifest "Example Organization"
    (publicKeyUri "ed25519") (expectedSha256 "ed25519")) := by
  have hPayload := @encodeManifest_sampleManifest "Example Organization" _ hexDigest_ed25519
    (by decide) (by decide)
  have hOther := @encodeManifest_sampleManifest "Example Organizatioo" _ hexDigest_ed25519
    (by decide) (by decide)
  refine ⟨_, _, _, hPayload, rfl, hOther, ed25519, ed25519_mem, fun hSame => ?_⟩
  have hFirst := congrArg (List.headD · 0) hSame
  simp only [headD_sha256_sample, headD_sha256_renamed] at hFirst
  exact absurd hFirst (by decide)

/-- A manifest with the expected descriptors, under SHA-256: the self-test succeeds
on its corpus. -/
theorem selfTest_buildCorpus_sample : ∃ corpus,
    buildCorpus Cli.sha256 (sampleManifest "Example Organization" (publicKeyUri "ed25519")
      (expectedSha256 "ed25519")) = .ok corpus ∧
    selfTest Cli.sha256 corpus = .ok ((corpus.positive.id, "valid") ::
      corpus.negative.map fun case => (case.id, case.expectedCategory)) := by
  obtain ⟨corpus, hCorpus⟩ := exists_corpus_sample Cli.length_sha256
  exact ⟨corpus, hCorpus, (selfTest_buildCorpus Cli.length_sha256 _ corpus
    readable_sample.wellFormed hCorpus).1 keysBound_sample renamingShows_sample⟩

end Tfws.Vectors
