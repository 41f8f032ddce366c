import Mathlib.Data.List.Permutation
import Tfws.Agreement.VectorCorpus

/-! The envelopes that `verify_cose` of the vector generator accepts, and the
verifiers of the other two implementations on them. -/
namespace Tfws.Vectors

open SerdeJson Fallible Cbor Sorting

variable {key value : Item} {label : Int} {headers manifest : Dict} {payload envelope : Bytes}

/-- A key that is equal to an integer has its number, be it an integer or a truth
value. -/
theorem equal_int_iff : equal key (.int label) = true ↔ integer? key = some label := by
  cases key <;> simp [equal, integer?, text?, octets?, bits?, eq_comm]

/-- Away from 0 and 1, only the integer itself is equal to an integer. -/
theorem equal_int_eq (hZero : label ≠ 0) (hOne : label ≠ 1) :
    equal value (.int label) = true ↔ value = .int label := by
  simp [equal_int_iff, hZero, hOne]

/-- Equal numbers make equal keys, of whatever type they are written. -/
theorem equal_of_integer {other : Item} (hKey : integer? key = some label)
    (hOther : integer? other = some label) : equal key other = true := by
  cases key with
  | bool value =>
      rw [equal, hOther, ← hKey]
      exact decide_eq_true rfl
  | int value =>
      rw [equal, hOther, ← hKey]
      exact decide_eq_true rfl
  | null | float _ | text _ | bytes _ | array _ | map _ | tag _ _ => cases hKey

/-- A dictionary with two labels has two entries, when it has as many as it has
labels. -/
theorem eq_pair_of_hasLabels {first second : Int} (hNe : first ≠ second)
    (hDistinct : headers.Pairwise fun left right => equal left.1 right.1 = false)
    (hLabels : hasLabels first second headers = true) :
    ∃ left right, integer? left.1 = some first ∧ integer? right.1 = some second ∧
      (headers = [left, right] ∨ headers = [right, left]) := by
  simp only [hasLabels, Bool.and_eq_true, List.all_eq_true, List.any_eq_true, Bool.or_eq_true,
    equal_int_iff] at hLabels
  obtain ⟨hOnly, ⟨left, hLeft, hLeftLabel⟩, right, hRight, hRightLabel⟩ := hLabels
  refine ⟨left, right, hLeftLabel, hRightLabel, ?_⟩
  have hNumbers : (headers.map fun entry => integer? entry.1).Nodup := by
    rw [List.Nodup, List.pairwise_map]
    apply hDistinct.imp_of_mem
    intro entry other hEntry _ hDiffer hSame
    have hEqual : equal entry.1 other.1 = true := by
      obtain hLabel | hLabel := hOnly entry hEntry
      · exact equal_of_integer hLabel (hSame ▸ hLabel)
      · exact equal_of_integer hLabel (hSame ▸ hLabel)
    rw [hDiffer] at hEqual
    cases hEqual
  have hApart : left ≠ right := by
    intro hSame
    rw [hSame, hRightLabel] at hLeftLabel
    exact hNe (Option.some.inj hLeftLabel).symm
  have hSubset : ∀ entry ∈ headers, entry = left ∨ entry = right := by
    intro entry hEntry
    obtain hLabel | hLabel := hOnly entry hEntry
    · exact Or.inl (List.inj_on_of_nodup_map hNumbers hEntry hLeft (hLabel.trans hLeftLabel.symm))
    · exact Or.inr (List.inj_on_of_nodup_map hNumbers hEntry hRight (hLabel.trans hRightLabel.symm))
  have hNodup : headers.Nodup := List.Nodup.of_map _ hNumbers
  have hPerm : headers.Perm [left, right] := by
    apply (List.perm_ext_iff_of_nodup hNodup (by simpa using hApart)).mpr
    intro entry
    simp only [List.mem_cons, List.not_mem_nil, or_false]
    constructor
    · exact hSubset entry
    · intro h
      obtain rfl | rfl := h
      · exact hLeft
      · exact hRight
  exact List.perm_pair.mp hPerm

/-- The entry under a label and what it is equal to, in a dictionary of two
entries. -/
theorem lookup_pair {left right : Item × Item} {first second : Int} (hNe : first ≠ second)
    (hLeft : integer? left.1 = some first) (hRight : integer? right.1 = some second)
    (hHeaders : headers = [left, right] ∨ headers = [right, left]) :
    lookup (.int first) headers = some left.2 ∧ lookup (.int second) headers = some right.2 := by
  have hOwn : equal left.1 (.int first) = true := equal_int_iff.mpr hLeft
  have hOther : equal right.1 (.int second) = true := equal_int_iff.mpr hRight
  have hLeftOnly : ¬equal left.1 (.int second) = true := by
    rw [equal_int_iff, hLeft, Option.some.injEq]
    exact hNe
  have hRightOnly : ¬equal right.1 (.int first) = true := by
    rw [equal_int_iff, hRight, Option.some.injEq]
    exact hNe.symm
  obtain rfl | rfl := hHeaders
  · simp [lookup, List.find?, hOwn, hOther, hLeftOnly]
  · simp [lookup, List.find?, hOwn, hOther, hRightOnly]

theorem hasHeader_eq {item : Item} {expected : Item}
    (h : lookup (.int label) headers = some item) :
    hasHeader label expected headers = equal item expected := by
  rw [hasHeader, h, Option.any_some]

/-- A header that is the encoding of a dictionary with two labels can be read
again. -/
theorem readable_pair {data : Bytes} {first second : Int} (hNe : first ≠ second)
    (hDecoded : cborDecodeExact data = .ok (.map headers))
    (hLabels : hasLabels first second headers = true) :
    ∃ left right, integer? left.1 = some first ∧ integer? right.1 = some second ∧
      lookup (.int first) headers = some left.2 ∧ lookup (.int second) headers = some right.2 ∧
      (headers = [left, right] ∧ lengthFirst left.1.encode right.1.encode = .lt ∨
        headers = [right, left] ∧ lengthFirst right.1.encode left.1.encode = .lt) := by
  obtain ⟨hReadable, -⟩ := cborDecodeExact_eq_ok.mp hDecoded
  cases hReadable with
  | map _ hAscending _ hDistinct _ _ =>
      obtain ⟨left, right, hLeft, hRight, hHeaders⟩ := eq_pair_of_hasLabels hNe hDistinct hLabels
      obtain ⟨hOne, hTwo⟩ := lookup_pair hNe hLeft hRight hHeaders
      refine ⟨left, right, hLeft, hRight, hOne, hTwo, ?_⟩
      obtain rfl | rfl := hHeaders
      · exact Or.inl ⟨rfl, by simpa [Ascending] using hAscending⟩
      · exact Or.inr ⟨rfl, by simpa [Ascending] using hAscending⟩

/-- The body header passes exactly if it is the standard one. -/
theorem checkBody_eq_ok {body : Bytes} : checkBody body = .ok () ↔ body = standardBody := by
  constructor
  · intro h
    obtain ⟨item, hDecoded, hChecks⟩ := bind_eq_ok.mp h
    cases item with
    | map headers =>
        simp only [then_eq_ok, failIf_eq_ok, Bool.not_eq_false] at hChecks
        obtain ⟨hLabels, hContentType, hType⟩ := hChecks
        obtain ⟨left, right, hLeft, hRight, hOne, hTwo, hHeaders⟩ :=
          readable_pair (by decide) hDecoded hLabels
        rw [hasHeader_eq hOne, equal_text] at hContentType
        rw [hasHeader_eq hTwo, equal_text] at hType
        have hLeftKey := (equal_int_eq (by decide) (by decide)).mp (equal_int_iff.mpr hLeft)
        have hRightKey := (equal_int_eq (by decide) (by decide)).mp (equal_int_iff.mpr hRight)
        obtain ⟨leftKey, leftValue⟩ := left
        obtain ⟨rightKey, rightValue⟩ := right
        obtain rfl : leftKey = .int 3 := hLeftKey
        obtain rfl : rightKey = .int 16 := hRightKey
        obtain rfl : leftValue = .text coseContentType := hContentType
        obtain rfl : rightValue = .text coseType := hType
        obtain ⟨-, rfl⟩ := cborDecodeExact_eq_ok.mp hDecoded
        obtain ⟨rfl, -⟩ | ⟨-, hOrder⟩ := hHeaders
        · rfl
        · exact absurd hOrder (by decide)
    | null | bool _ | int _ | float _ | text _ | bytes _ | array _ | tag _ _ => cases hChecks
  · intro h
    rw [h, standardBody, checkBody_encode readable_standardBody, failIf_ne_self]

/-- The header of a signature with `True` in the place of the label 1. -/
def aliasedHeader (algorithm : CoseAlgorithm) : Item :=
  .map [(.int 4, .bytes kid), (.bool true, .int (profileFor algorithm).algorithm)]

theorem signatureHeaderItem_true (algorithm : CoseAlgorithm) :
    signatureHeaderItem true algorithm = aliasedHeader algorithm := by
  cases algorithm <;> rfl

theorem readable_aliased (algorithm : CoseAlgorithm) : Readable (aliasedHeader algorithm) := by
  have hAlgorithm : Readable (.int (profileFor algorithm).algorithm) := by
    apply readable_small <;> cases algorithm <;> decide
  have hFour : Readable (.int 4) := readable_small (by decide) (by decide)
  have hKid : Readable (.bytes kid) := .bytes (by decide)
  have hOrder : lengthFirst (Item.int 4).encode (Item.bool true).encode = .lt := by decide
  apply Readable.map
  case short => simp
  case ascending => exact List.pairwise_pair.mpr hOrder
  case hashed => exact List.forall_mem_cons.mpr ⟨rfl, List.forall_mem_singleton.mpr rfl⟩
  case distinct => exact List.pairwise_pair.mpr rfl
  case keys => exact List.forall_mem_cons.mpr ⟨hFour, List.forall_mem_singleton.mpr .bool⟩
  case values => exact List.forall_mem_cons.mpr ⟨hKid, List.forall_mem_singleton.mpr hAlgorithm⟩

/-- Both ways of writing the header of a signature pass, and no third. -/
theorem checkHeaders_eq_ok {algorithm : CoseAlgorithm} {header : Bytes} :
    checkHeaders (profileFor algorithm) header = .ok () ↔
      ∃ aliased, header = (signatureHeaderItem aliased algorithm).encode := by
  constructor
  · intro h
    obtain ⟨item, hDecoded, hChecks⟩ := bind_eq_ok.mp h
    cases item with
    | map headers =>
        simp only [then_eq_ok, failIf_eq_ok, Bool.not_eq_false] at hChecks
        obtain ⟨hLabels, hAlgorithm, hKid⟩ := hChecks
        obtain ⟨left, right, hLeft, hRight, hOne, hTwo, hHeaders⟩ :=
          readable_pair (by decide) hDecoded hLabels
        have hZero : (profileFor algorithm).algorithm ≠ 0 := by cases algorithm <;> decide
        have hNotOne : (profileFor algorithm).algorithm ≠ 1 := by cases algorithm <;> decide
        rw [hasHeader_eq hOne, equal_int_eq hZero hNotOne] at hAlgorithm
        rw [hasHeader_eq hTwo, equal_bytes] at hKid
        have hRightKey := (equal_int_eq (by decide) (by decide)).mp (equal_int_iff.mpr hRight)
        obtain ⟨leftKey, leftValue⟩ := left
        obtain ⟨rightKey, rightValue⟩ := right
        obtain rfl : rightKey = .int 4 := hRightKey
        obtain rfl : leftValue = .int (profileFor algorithm).algorithm := hAlgorithm
        obtain rfl : rightValue = .bytes kid := hKid
        obtain ⟨-, rfl⟩ := cborDecodeExact_eq_ok.mp hDecoded
        -- The order of the two keys follows from how the first label is written.
        obtain hInt | ⟨hTrue, -⟩ | ⟨-, hFalse⟩ := integer?_eq_some.mp hLeft
        · obtain rfl : leftKey = .int 1 := hInt
          obtain ⟨rfl, -⟩ | ⟨-, hOrder⟩ := hHeaders
          · refine ⟨false, ?_⟩
            rw [signatureHeaderItem_false, ← header_eq]
            rfl
          · have hFour : ¬lengthFirst (Item.int 4).encode (Item.int 1).encode = .lt := by decide
            exact absurd hOrder hFour
        · obtain rfl : leftKey = .bool true := hTrue
          obtain ⟨-, hOrder⟩ | ⟨rfl, -⟩ := hHeaders
          · have hTrueFirst : ¬lengthFirst (Item.bool true).encode (Item.int 4).encode = .lt := by
              decide
            exact absurd hOrder hTrueFirst
          · refine ⟨true, ?_⟩
            cases algorithm <;> rfl
        · cases hFalse
    | null | bool _ | int _ | float _ | text _ | bytes _ | array _ | tag _ _ => cases hChecks
  · intro h
    obtain ⟨aliased, rfl⟩ := h
    cases aliased with
    | false =>
        have hHeader : Readable (signatureHeader (profileFor algorithm).algorithm kid) :=
          readable_header (profileFor_mem algorithm)
        rw [signatureHeaderItem_false, ← header_eq, Profile.header, checkHeaders_encode _ hHeader,
          failIf_ne_self, ok_bind, failIf_ne_self]
    | true =>
        rw [signatureHeaderItem_true, checkHeaders, decode_of_readable (readable_aliased algorithm),
          ok_bind]
        cases algorithm <;> rfl

variable {first second : Dict}

theorem length_aliased_le (aliased : Bool) (algorithm : CoseAlgorithm) :
    (signatureHeaderItem aliased algorithm).encode.length < 18446744073709551616 :=
  (length_signatureHeader_le aliased algorithm).trans_lt (by decide)

/-- Behind a header of the right form: the length, the descriptor and the fixture. -/
theorem checkSignature_eq_ok (hAdmitted : Admitted manifest first second) (hPayload : Short payload)
    {algorithm : CoseAlgorithm} {aliased : Bool} {signature : Bytes} :
    checkSignature Cli.sha256 manifest payload standardBody
        (signatureHeaderItem aliased algorithm).encode (profileFor algorithm) signature = .ok () ↔
      Bound (profileFor algorithm) (descriptorFor first second (profileFor algorithm)) ∧
        signature = Cli.fixtureSignature algorithm (fixtureMessage aliased payload algorithm) := by
  have hProfile := profileFor_mem algorithm
  have hBody : standardBody.length < 18446744073709551616 :=
    length_standardBody_le.trans_lt (by decide)
  have hMessage : sigStructure standardBody (signatureHeaderItem aliased algorithm).encode payload =
      .ok (fixtureMessage aliased payload algorithm) :=
    sigStructure_eq_ok.mpr ⟨⟨hBody, length_aliased_le aliased algorithm, hPayload⟩, rfl⟩
  have hLength : (profileFor algorithm).signatureLength = algorithm.expectedSignatureLen := by
    cases algorithm <;> rfl
  obtain ⟨hDescriptor, -⟩ := hAdmitted.descriptorOf_profile hProfile
  rw [checkSignature, hDescriptor, hMessage]
  simp only [ok_bind, fixtureSignature_eq hProfile, fixture_eq, then_eq_ok, failIf_eq_ok, not_not,
    Bool.not_eq_false]
  constructor
  · intro h
    exact h.2
  · intro h
    refine ⟨?_, h⟩
    rw [h.2, hLength, length_fixtureSignature]

/-- A verified entry of the array of signatures: a header of either form, an empty map
and the fixture. -/
theorem verifySignature_eq_ok (hAdmitted : Admitted manifest first second) (hPayload : Short payload)
    {algorithm : CoseAlgorithm} {entry : Item} :
    verifySignature Cli.sha256 manifest payload standardBody entry (profileFor algorithm) = .ok () ↔
      Bound (profileFor algorithm) (descriptorFor first second (profileFor algorithm)) ∧
        ∃ aliased, entry = signatureItem (fixtureSigned (fun _ => aliased) payload algorithm) := by
  constructor
  · intro h
    unfold verifySignature at h
    split at h
    · rename_i header unprotected signature
      split at h
      · rename_i header signature
        obtain ⟨hHeaders, hChecked⟩ := then_eq_ok.mp h
        obtain ⟨aliased, rfl⟩ := checkHeaders_eq_ok.mp hHeaders
        obtain ⟨hBound, rfl⟩ := (checkSignature_eq_ok hAdmitted hPayload).mp hChecked
        exact ⟨hBound, aliased, rfl⟩
      · cases h
    · cases h
  · intro h
    obtain ⟨hBound, aliased, rfl⟩ := h
    rw [signatureItem, fixtureSigned, verifySignature]
    exact then_eq_ok.mpr ⟨checkHeaders_eq_ok.mpr ⟨aliased, rfl⟩,
      (checkSignature_eq_ok hAdmitted hPayload).mpr ⟨hBound, rfl⟩⟩

/-- A payload is a manifest for the generator exactly if it holds a dictionary with
two admitted descriptors. -/
theorem decodeManifest_eq_ok : decodeManifest payload = .ok manifest ↔
    cborDecodeExact payload = .ok (.map manifest) ∧ ∃ first second, Admitted manifest first second := by
  rw [decodeManifest, bind_eq_ok]
  constructor
  · intro h
    obtain ⟨item, hDecoded, hChecks⟩ := h
    cases item with
    | map entries =>
        obtain ⟨hValid, hManifest⟩ := then_eq_ok.mp hChecks
        obtain rfl := Except.ok.inj hManifest
        obtain ⟨hReadable, -⟩ := cborDecodeExact_eq_ok.mp hDecoded
        exact ⟨hDecoded, (validateManifest_eq_ok hReadable.wellFormed).mp hValid⟩
    | null | bool _ | int _ | float _ | text _ | bytes _ | array _ | tag _ _ => cases hChecks
  · intro h
    obtain ⟨hDecoded, hAdmitted⟩ := h
    obtain ⟨hReadable, -⟩ := cborDecodeExact_eq_ok.mp hDecoded
    exact ⟨_, hDecoded, then_eq_ok.mpr
      ⟨(validateManifest_eq_ok hReadable.wellFormed).mpr hAdmitted, rfl⟩⟩

/-- The entries of the array of signatures, each under its own algorithm. -/
theorem verifySignatures_eq_ok (hAdmitted : Admitted manifest first second) (hPayload : Short payload)
    {left right : Item} :
    verifySignatures Cli.sha256 manifest payload standardBody ([left, right].zip expectedProfiles) =
        .ok () ↔
      KeysBound manifest ∧ ∃ aliased, [left, right] =
        (requiredSignatures.map (fixtureSigned aliased payload)).map signatureItem := by
  have hLeft := @verifySignature_eq_ok manifest payload first second hAdmitted hPayload .ed25519 left
  have hRight := @verifySignature_eq_ok manifest payload first second hAdmitted hPayload .mlDsa65 right
  simp only [profileFor, CoseAlgorithm.select] at hLeft hRight
  have hOne : descriptorFor first second ed25519 = first := rfl
  have hTwo : descriptorFor first second mlDsa65 = second := rfl
  rw [hOne] at hLeft
  rw [hTwo] at hRight
  simp only [expectedProfiles, List.zip_cons_cons, List.zip_nil_right, verifySignatures, then_eq_ok,
    hLeft, hRight, hAdmitted.keysBound_iff, requiredSignatures, List.map_cons, List.map_nil]
  constructor
  · intro h
    obtain ⟨⟨hFirst, edAliased, rfl⟩, ⟨hSecond, mlAliased, rfl⟩, -⟩ := h
    exact ⟨⟨hFirst, hSecond⟩, CoseAlgorithm.select edAliased mlAliased, rfl⟩
  · intro h
    obtain ⟨⟨hFirst, hSecond⟩, aliased, hEntries⟩ := h
    obtain ⟨rfl, hRest⟩ := List.cons.inj hEntries
    obtain ⟨rfl, -⟩ := List.cons.inj hRest
    exact ⟨⟨hFirst, aliased .ed25519, rfl⟩, ⟨hSecond, aliased .mlDsa65, rfl⟩, trivial⟩

/-- What is checked behind the fields of the body: the manifest, and the two
signatures over its octets. -/
theorem verifyBody_eq_ok {body : Bytes} {signatures : Item} (hPayload : Short payload) :
    verifyBody Cli.sha256 body payload signatures = .ok manifest ↔
      body = standardBody ∧ decodeManifest payload = .ok manifest ∧ KeysBound manifest ∧
        ∃ aliased, signatures =
          .array ((requiredSignatures.map (fixtureSigned aliased payload)).map signatureItem) := by
  rw [verifyBody, then_eq_ok, checkBody_eq_ok, bind_eq_ok]
  constructor
  · intro h
    obtain ⟨rfl, decoded, hDecoded, hChecks⟩ := h
    obtain ⟨-, first, second, hAdmitted⟩ := decodeManifest_eq_ok.mp hDecoded
    cases signatures with
    | array entries =>
        simp only [then_eq_ok, failIf_eq_ok, not_not, Except.ok.injEq] at hChecks
        obtain ⟨hTwo, hVerified, rfl⟩ := hChecks
        obtain ⟨left, right, rfl⟩ := List.length_eq_two.mp hTwo
        obtain ⟨hKeys, aliased, hEntries⟩ := (verifySignatures_eq_ok hAdmitted hPayload).mp hVerified
        exact ⟨rfl, hDecoded, hKeys, aliased, congrArg Item.array hEntries⟩
    | null | bool _ | int _ | float _ | text _ | bytes _ | map _ | tag _ _ => cases hChecks
  · intro h
    obtain ⟨rfl, hDecoded, hKeys, aliased, rfl⟩ := h
    obtain ⟨-, first, second, hAdmitted⟩ := decodeManifest_eq_ok.mp hDecoded
    refine ⟨rfl, manifest, hDecoded, ?_⟩
    exact then_eq_ok.mpr ⟨failIf_of_not (not_not.mpr rfl) _, then_eq_ok.mpr
      ⟨(verifySignatures_eq_ok hAdmitted hPayload).mpr ⟨hKeys, aliased, rfl⟩, rfl⟩⟩

/-- The signatures of a fixture envelope, as the generator puts them. -/
def fixturePairs (aliased : CoseAlgorithm → Bool) (payload : Bytes) : List (Bytes × Bytes) :=
  requiredSignatures.map fun algorithm => ((signatureHeaderItem (aliased algorithm) algorithm).encode,
    Cli.fixtureSignature algorithm (fixtureMessage (aliased algorithm) payload algorithm))

theorem fixturePairs_entries (aliased : CoseAlgorithm → Bool) (payload : Bytes) :
    ((fixturePairs aliased payload).map octetPair).map signatureEntry =
      (requiredSignatures.map (fixtureSigned aliased payload)).map signatureItem := rfl

/-- The generator's encoder writes every fixture envelope, also those with `true` in a
header. -/
theorem makeEnvelope_fixture (aliased : CoseAlgorithm → Bool) (hPayload : Short payload) :
    makeEnvelope (.bytes payload) (.bytes standardBody) ((fixturePairs aliased payload).map octetPair) =
      .ok (fixtureEnvelope aliased payload) := by
  have hBody : standardBody.length < 18446744073709551616 :=
    length_standardBody_le.trans_lt (by decide)
  have hPairs : ∀ pair ∈ fixturePairs aliased payload, pair.1.length < 18446744073709551616 ∧
      pair.2.length < 18446744073709551616 := by
    intro pair hPair
    obtain ⟨algorithm, -, rfl⟩ := List.mem_map.mp hPair
    refine ⟨length_aliased_le _ algorithm, ?_⟩
    rw [length_fixtureSignature]
    cases algorithm <;> decide
  have hTwo : (fixturePairs aliased payload).length < 18446744073709551616 := by
    rw [fixturePairs, List.length_map]
    decide
  have hEncoded : (fixturePairs aliased payload).map encodedOf =
      requiredSignatures.map (fixtureSigned aliased payload) := by
    rw [fixturePairs, List.map_map]
    exact List.map_congr_left fun algorithm _ => rfl
  obtain ⟨envelope, hEnvelope⟩ := makeEnvelope_eq_ok hPayload hBody hTwo hPairs
  rw [hEnvelope, makeEnvelope_octets hEnvelope, hEncoded, fixtureEnvelope, standardBody_eq]

/-- On a fixture envelope the manifest is left to be checked. -/
theorem verifyCose_fixture (aliased : CoseAlgorithm → Bool) (hPayload : Short payload) :
    verifyCose Cli.sha256 (fixtureEnvelope aliased payload) = .ok manifest ↔
      decodeManifest payload = .ok manifest ∧ KeysBound manifest := by
  rw [verifyCose_makeEnvelope (makeEnvelope_fixture aliased hPayload), fixturePairs_entries,
    verifyBody_eq_ok hPayload]
  constructor
  · intro h
    exact ⟨h.2.1, h.2.2.1⟩
  · intro h
    exact ⟨rfl, h.1, h.2, aliased, rfl⟩

/-- What `verify_cose` accepts: a fixture envelope, with either header for each
signature, around a manifest with the expected descriptors. -/
theorem verifyCose_eq_ok (envelope : Bytes) (manifest : Dict) :
    verifyCose Cli.sha256 envelope = .ok manifest ↔ ∃ aliased payload,
      payload.length < 18446744073709551616 ∧ envelope = fixtureEnvelope aliased payload ∧
        decodeManifest payload = .ok manifest ∧ KeysBound manifest := by
  constructor
  · intro h
    obtain ⟨item, hDecoded, hChecks⟩ := bind_eq_ok.mp h
    obtain ⟨hReadable, hOctets⟩ := cborDecodeExact_eq_ok.mp hDecoded
    split at hChecks
    · rename_i outer
      split at hChecks
      · rename_i body unprotected content signatures
        split at hChecks
        · rename_i body payload
          have hPayload : Short payload := by
            have hMembers := hReadable.encodable.of_tag.of_array
            cases hMembers (.bytes payload) (by simp) with
            | bytes hShort => exact hShort
          obtain ⟨rfl, hManifest, hKeys, aliased, rfl⟩ := (verifyBody_eq_ok hPayload).mp hChecks
          exact ⟨aliased, payload, hPayload, hOctets, hManifest, hKeys⟩
        · cases hChecks
      · cases hChecks
    · cases hChecks
  · intro h
    obtain ⟨aliased, payload, hPayload, rfl, hManifest, hKeys⟩ := h
    exact (verifyCose_fixture aliased hPayload).mpr ⟨hManifest, hKeys⟩

section Documents

variable {crates : Crates} {limits : CborLimits} {m : Manifest}

/-- The dictionary of a document, in the order of its encoding. -/
def documentDict (m : Manifest) : Dict := named (sortedItems (SortedMap.present m.record))

theorem item_document (m : Manifest) : m.document.item = .map (documentDict m) :=
  item_object_named _

theorem decode_document (h : Encodes limits m.orderedDocument payload) :
    cborDecodeExact payload = .ok (.map (documentDict m)) := by
  rw [cborDecodeExact_document h, ← item_document]
  rfl

/-- What the dictionary has under the name of a field is the item of the field, or
nothing. -/
theorem lookup_document (hReadable : Readable (.map (documentDict m)))
    {field : String × Option Value} (hMem : field ∈ m.record) :
    lookup (.text field.1) (documentDict m) = field.2.map Value.item := by
  obtain ⟨name, value⟩ := field
  apply Option.ext
  intro item
  rw [lookup_eq_some_iff hReadable.wellFormed.distinct, documentDict, named, List.mem_map]
  simp only [mem_sortedItems, Option.map_eq_some_iff, Prod.mk.injEq, Item.text.injEq]
  constructor
  · intro h
    obtain ⟨_, ⟨entry, hEntry, rfl⟩, rfl, rfl⟩ := h
    have hField := (SortedMap.mem_present m.record_names).mp hEntry
    have hSame := List.inj_on_of_nodup_map m.record_names hMem hField rfl
    exact ⟨entry.2, (Prod.mk.inj hSame).2, rfl⟩
  · intro h
    obtain ⟨found, rfl, rfl⟩ := h
    exact ⟨_, ⟨(name, found), (SortedMap.mem_present m.record_names).mpr hMem, rfl⟩, rfl, rfl⟩

theorem hexDigest_of_isLowerHex {digest : String} (h : isLowerHex digest 64 = true) :
    HexDigest (.text digest) := by
  rw [← isLowerHex_str, Python.isLowerHex, Bool.and_eq_true, decide_eq_true_eq] at h
  exact hexDigest_of_digits h.1 h.2

/-- The descriptor of a key in the order of its encoding. -/
def keyDict (key : KeyDescriptor) : Dict :=
  named [("usage", texts key.usage), ("key_id", .text key.keyId), ("status", .text key.status),
    ("algorithm", .text key.algorithm), ("public_key_uri", .text key.publicKeyUri),
    ("public_key_sha256", .text key.publicKeySha256)]

/-- A descriptor of the policy is one for the generator if it has the algorithm and
the one key identifier. -/
theorem keyEntry_keyDict {key : KeyDescriptor} (hKey : key.Valid) {name : String} :
    KeyEntry name (keyDict key) ↔ key.algorithm = name ∧ key.keyId = "release-1" := by
  constructor
  · intro h
    have hAlgorithm : some (Item.text key.algorithm) = some (.text name) := h.algorithm
    have hKeyId : some (Item.text key.keyId) = some (.text "release-1") := h.keyId
    exact ⟨Item.text.inj (Option.some.inj hAlgorithm), Item.text.inj (Option.some.inj hKeyId)⟩
  · intro h
    obtain ⟨rfl, hKeyId⟩ := h
    constructor
    case algorithm => rfl
    case keyId => exact congrArg (fun text => some (Item.text text)) hKeyId
    case uri => exact congrArg (fun text => some (Item.text text)) hKey.publicKeyUri
    case digest => exact ⟨_, rfl, hexDigest_of_isLowerHex hKey.publicKeySha256⟩
    case status => exact congrArg (fun text => some (Item.text text)) hKey.status
    case usage => exact congrArg (fun usage => some (texts usage)) hKey.usage

/-- The keys that the generator names, in its order, which `tfws-core` does not ask
for. -/
def ReleaseKeys (m : Manifest) : Prop :=
  m.keys.map (fun key => (key.algorithm, key.keyId)) =
    [("ed25519", "release-1"), ("ml-dsa-65", "release-1")]

theorem lookup_keys (hReadable : Readable (.map (documentDict m))) :
    lookup (.text "keys") (documentDict m) =
      some (.array (m.keys.map fun key => Item.map (keyDict key))) := by
  have hField : ("keys", some (Value.array (m.keys.map KeyDescriptor.document))) ∈ m.record :=
    List.mem_of_getElem? (show m.record[5]? = _ from rfl)
  have hLookup := lookup_document hReadable hField
  rw [hLookup, Option.map_some, Value.item_array, List.map_map]
  exact congrArg (fun items => some (Item.array items))
    (List.map_congr_left fun key _ => item_key key)

/-- The keys are those of the generator exactly if there are two of them, in its order
and under its identifier. -/
theorem releaseKeys_iff : ReleaseKeys m ↔ ∃ first second, m.keys = [first, second] ∧
    (first.algorithm = "ed25519" ∧ first.keyId = "release-1") ∧
      second.algorithm = "ml-dsa-65" ∧ second.keyId = "release-1" := by
  constructor
  · intro h
    obtain ⟨first, rest, hKeys, hFirst, hRest⟩ := List.map_eq_cons_iff.mp h
    obtain ⟨second, tail, rfl, hSecond, hTail⟩ := List.map_eq_cons_iff.mp hRest
    obtain rfl := List.map_eq_nil_iff.mp hTail
    exact ⟨first, second, hKeys, Prod.mk.inj hFirst, Prod.mk.inj hSecond⟩
  · intro h
    obtain ⟨first, second, hKeys, ⟨hFirst, hFirstId⟩, hSecond, hSecondId⟩ := h
    rw [ReleaseKeys, hKeys, List.map_cons, List.map_cons, hFirst, hFirstId, hSecond, hSecondId]
    rfl

/-- What the policy of `tfws-core` leaves to `validate_manifest`: which keys there
are, and in which order. -/
theorem admitted_document_iff (hReadable : Readable (.map (documentDict m)))
    (hValid : m.Valid crates) : (∃ first second, Admitted (documentDict m) first second) ↔
      ReleaseKeys m := by
  have hKeys := lookup_keys hReadable
  rw [releaseKeys_iff]
  constructor
  · intro h
    obtain ⟨first, second, hAdmitted⟩ := h
    rw [hAdmitted.framed.keys] at hKeys
    obtain ⟨left, rest, hList, hLeft, hRest⟩ :=
      List.map_eq_cons_iff.mp (Item.array.inj (Option.some.inj hKeys)).symm
    obtain ⟨right, tail, rfl, hRight, hTail⟩ := List.map_eq_cons_iff.mp hRest
    obtain rfl := List.map_eq_nil_iff.mp hTail
    obtain rfl := Item.map.inj hLeft
    obtain rfl := Item.map.inj hRight
    have hLeftValid := hValid.keys left (by simp [hList])
    have hRightValid := hValid.keys right (by simp [hList])
    exact ⟨left, right, hList, (keyEntry_keyDict hLeftValid).mp hAdmitted.first,
      (keyEntry_keyDict hRightValid).mp hAdmitted.second⟩
  · intro h
    obtain ⟨left, right, hList, hLeft, hRight⟩ := h
    rw [hList] at hKeys
    have hLeftEntry := (keyEntry_keyDict (hValid.keys left (by simp [hList]))).mpr hLeft
    have hRightEntry := (keyEntry_keyDict (hValid.keys right (by simp [hList]))).mpr hRight
    have hField {place : Nat} {field : String × Option Value} (h : m.record[place]? = some field) :
        lookup (.text field.1) (documentDict m) = field.2.map Value.item :=
      lookup_document hReadable (List.mem_of_getElem? h)
    have hVersion : lookup (.text "tfws_version") (documentDict m) = some (.text m.tfwsVersion) :=
      @hField 0 ("tfws_version", stringField m.tfwsVersion) rfl
    have hEnvironment : lookup (.text "environment") (documentDict m) =
        some (.text m.environment) :=
      @hField 2 ("environment", stringField m.environment) rfl
    have hPolicy : lookup (.text "signature_policy") (documentDict m) =
        some m.signaturePolicy.document.item :=
      @hField 6 ("signature_policy", some m.signaturePolicy.document) rfl
    rw [item_policy, hValid.policyId, hValid.requiredAlgorithms] at hPolicy
    rw [hValid.version] at hVersion
    have hSame : equal hybridBaseline (.map (named [("policy_id", .text baselinePolicy),
        ("required_algorithms", texts baselineAlgorithms)])) = true := by decide
    exact ⟨_, _, ⟨hVersion, ⟨_, hValid.environment, hEnvironment⟩, ⟨_, hPolicy, hSame⟩, hKeys,
      hLeftEntry.algorithm, hRightEntry.algorithm⟩, hLeftEntry, hRightEntry⟩

/-- On the encoding of a lawful manifest, the generator returns its dictionary, if the
keys are the ones that it names. -/
theorem decodeManifest_lawful (hLawful : m.Lawful crates)
    (hEncodes : Encodes limits m.orderedDocument payload) :
    decodeManifest payload = .ok manifest ↔ manifest = documentDict m ∧ ReleaseKeys m := by
  have hDecoded := decode_document hEncodes
  obtain ⟨hReadable, -⟩ := cborDecodeExact_eq_ok.mp hDecoded
  have hAdmitted := admitted_document_iff hReadable (Manifest.validate_eq_ok.mp hLawful.valid)
  rw [decodeManifest_eq_ok, hDecoded, Except.ok.injEq, Item.map.injEq]
  constructor
  · intro h
    obtain ⟨rfl, hAny⟩ := h
    exact ⟨rfl, hAdmitted.mp hAny⟩
  · intro h
    obtain ⟨rfl, hKeys⟩ := h
    exact ⟨rfl, hAdmitted.mpr hKeys⟩

/-- `decode_manifest` reads what `tfws-core` encodes when the keys are the ones that
the generator names, in its order, and refuses it otherwise. -/
theorem decodeManifest_encoded (crates : Crates) (limits : CborLimits) (m : Manifest)
    (payload : Bytes) (h : encodeManifestCborWithLimits crates m limits = .ok payload)
    (manifest : Dict) : decodeManifest payload = .ok manifest ↔
      manifest = documentDict m ∧ ReleaseKeys m := by
  obtain ⟨hLawful, hEncodes⟩ := encodeManifestCborWithLimits_eq_ok.mp h
  exact decodeManifest_lawful hLawful hEncodes

theorem releaseKeys_sample : ReleaseKeys .sample := rfl

theorem decodeManifest_encoded_sample :
    decodeManifest samplePayload = .ok (documentDict .sample) :=
  (decodeManifest_encoded .model .default .sample samplePayload
    (encodeManifestCborWithLimits_eq_ok.mpr ⟨Manifest.lawful_sample, Manifest.encodes_sample⟩) _).mpr
    ⟨rfl, releaseKeys_sample⟩

end Documents

theorem readAs_of_decodeManifest {crates : Crates} {m : Manifest}
    (hDecoded : decodeManifest payload = .ok manifest)
    (h : decodeManifestCbor crates payload .default = .ok m) : ReadAs manifest m := by
  obtain ⟨hExact, -⟩ := decodeManifest_eq_ok.mp hDecoded
  obtain ⟨hReadable, hOctets⟩ := cborDecodeExact_eq_ok.mp hExact
  have hEncoded : cborEncode (.map manifest) = .ok payload := by
    rw [hReadable.cborEncode_eq, hOctets]
  exact (readAs_of_decode hReadable.wellFormed hEncoded h).1

/-- Of the envelopes that `verify_cose` accepts, the CLI accepts those with
deterministic headers around a payload that it accepts by itself. -/
theorem validateBytes_verified (crates : Crates) (json : Cli.FromSlice) (envelope : Bytes)
    (manifest : Dict) (h : verifyCose Cli.sha256 envelope = .ok manifest) (m : Manifest) :
    Cli.validateBytes crates json .cose envelope = .ok m ↔
      ∃ payload, envelope = fixtureEnvelope (fun _ => false) payload ∧
        Cli.validateBytes crates json .cbor payload = .ok m := by
  simp only [validateBytes_cose, validateBytes_cbor, verifyManifestCose_fixture_eq_ok]
  constructor
  · intro hValid
    obtain ⟨-, payload, hEnvelope, hDecode, -⟩ := hValid
    exact ⟨payload, hEnvelope, hDecode⟩
  · intro hValid
    obtain ⟨payload, rfl, hDecode⟩ := hValid
    obtain ⟨_, hEncodes, -⟩ := decodeManifestCbor_eq_ok.mp hDecode
    have hShort : Short payload := hEncodes.short.trans_lt (limit_lt _)
    obtain ⟨hDecoded, hBound⟩ := (verifyCose_fixture _ hShort).mp h
    obtain ⟨-, first, second, hAdmitted⟩ := decodeManifest_eq_ok.mp hDecoded
    have hKeys := ((readAs_of_decodeManifest hDecoded hDecode).fixtureKeys_iff hAdmitted).mpr hBound
    have hLimit : payload.length ≤ 4 * 1024 * 1024 := hEncodes.short
    have hLength := length_fixtureEnvelope_le (fun _ => false) payload
    refine ⟨?_, payload, rfl, hDecode, hKeys⟩
    omega

/-- Both accept the fixture envelope of the sample, whose headers are plain. -/
theorem validateBytes_verified_sample : Cli.validateBytes .model Cli.FromSlice.model .cose
    (fixtureEnvelope (fun _ => false) samplePayload) = .ok .sample := by
  have hShort : Short samplePayload := Manifest.encodes_sample.short.trans_lt (limit_lt _)
  have hDecoded : decodeManifest samplePayload = .ok sampleDict := by
    have hAdmitted := @admitted_sampleManifest "Example Organization" _ hexDigest_ed25519
    apply decodeManifest_eq_ok.mpr ⟨?_, _, _, hAdmitted⟩
    apply cborDecodeExact_eq_ok.mpr ⟨readable_sample, ?_⟩
    rw [samplePayload, item_sample]
  exact (validateBytes_verified .model Cli.FromSlice.model _ sampleDict
    ((verifyCose_fixture _ hShort).mpr ⟨hDecoded, keysBound_sample⟩) .sample).mpr
    ⟨samplePayload, rfl, validateBytes_cbor.mpr (decodeManifestCbor_sample _)⟩

end Tfws.Vectors
