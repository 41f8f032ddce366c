import Tfws.Vectors.Manifests

/-! Envelopes of the vector generator: `verify_cose` on what `make_envelope`
writes, header by header and signature by signature. -/
namespace Tfws.Vectors

open Fallible Cbor Sorting

variable {sha256 : Bytes → Bytes} {manifest first second : Dict} {payload body : Bytes}

/-- The protected header of a signature, before it is encoded. The labels are those of
the algorithm and of the key identifier. -/
def signatureHeader (algorithm : Int) (kid : Bytes) : Item :=
  .map [(.int 1, .int algorithm), (.int 4, .bytes kid)]

/-- The protected header of the body, with `extra` behind its two labels, as the
vector with an unknown label has it. -/
def bodyHeader (contentType : String) (extra : Dict) : Item :=
  .map ((.int 3, .text contentType) :: (.int 16, .text coseType) :: extra)

/-- The labels ascend in the order of their encodings, so that the codec writes them
as they stand. -/
def LabelsAscend (labels : List Int) : Prop :=
  labels.Pairwise fun first second =>
    lengthFirst (Item.int first).encode (Item.int second).encode = .lt

instance (labels : List Int) : Decidable (LabelsAscend labels) :=
  inferInstanceAs (Decidable (labels.Pairwise _))

/-- A map from ascending labels to readable values is readable. The headers of the
vectors are all of this form. -/
theorem readable_labels {entries : List (Int × Item)} (hAscend : LabelsAscend (entries.map Prod.fst))
    (hLabels : ∀ entry ∈ entries, Readable (.int entry.1))
    (hValues : ∀ entry ∈ entries, Readable entry.2)
    (hShort : entries.length < 18446744073709551616) :
    Readable (.map (entries.map fun entry => (.int entry.1, entry.2))) := by
  have hAscending := List.pairwise_map.mp hAscend
  apply Readable.map
  case short => rwa [List.length_map]
  case ascending => exact List.pairwise_map.mpr hAscending
  case hashed =>
    intro entry hMem
    obtain ⟨source, -, rfl⟩ := List.mem_map.mp hMem
    rfl
  case distinct =>
    apply List.pairwise_map.mpr
    apply hAscending.imp
    intro first second hLt
    by_contra hEqual
    rw [Bool.not_eq_false, equal, integer?, decide_eq_true_eq, Option.some.injEq] at hEqual
    have hSelf : lengthFirst (Item.int first.1).encode (Item.int first.1).encode = .eq :=
      Std.ReflCmp.compare_self
    rw [hEqual, hSelf] at hLt
    cases hLt
  case keys =>
    intro entry hMem
    obtain ⟨source, hSource, rfl⟩ := List.mem_map.mp hMem
    exact hLabels source hSource
  case values =>
    intro entry hMem
    obtain ⟨source, hSource, rfl⟩ := List.mem_map.mp hMem
    exact hValues source hSource

theorem readable_small {label : Int} (hLower : -1000 ≤ label) (hUpper : label ≤ 1000) :
    Readable (.int label) :=
  .int (by omega) (by omega)

theorem readable_signatureHeader {algorithm : Int} {kid : Bytes}
    (hAlgorithm : Readable (.int algorithm)) (hKid : kid.length < 18446744073709551616) :
    Readable (signatureHeader algorithm kid) := by
  have hAscend : LabelsAscend [1, 4] := by decide
  apply @readable_labels [(1, .int algorithm), (4, .bytes kid)] hAscend
  · simp [readable_small]
  · simpa using ⟨hAlgorithm, .bytes hKid⟩
  · simp

theorem readable_bodyHeader {contentType : String}
    (hShort : (Utf8.encode contentType).length < 18446744073709551616) :
    Readable (bodyHeader contentType []) := by
  have hAscend : LabelsAscend [3, 16] := by decide
  apply @readable_labels [(3, .text contentType), (16, .text coseType)] hAscend
  · simp [readable_small]
  · simpa using ⟨.text hShort, .text (by decide)⟩
  · simp

theorem readable_extraHeader : Readable (bodyHeader coseContentType [(.int 99, .bool true)]) := by
  have hAscend : LabelsAscend [3, 16, 99] := by decide
  apply @readable_labels [(3, .text coseContentType), (16, .text coseType), (99, .bool true)] hAscend
  · simp [readable_small]
  · simpa using ⟨.text (by decide), .text (by decide), .bool⟩
  · simp

/-- A readable value is decoded from its encoding, which the decoder then finds to be
the data. -/
theorem decode_of_readable {value : Item} (h : Readable value) :
    cborDecodeExact value.encode = .ok value :=
  cborDecodeExact_eq_ok.mpr ⟨h, rfl⟩

/-- The headers of a signature are checked in the order algorithm, key. Nothing else
can go wrong with a header that was written. -/
theorem checkHeaders_encode {algorithm : Int} {kid' : Bytes} (profile : Profile)
    (h : Readable (signatureHeader algorithm kid')) :
    checkHeaders profile (signatureHeader algorithm kid').encode = (do
      failIf (algorithm ≠ profile.algorithm)
        (.vectorError "invalid_algorithm" "invalid or reordered algorithm")
      failIf (kid' ≠ kid) (.vectorError "invalid_kid" "invalid key identifier")) := by
  have hLabels : hasLabels 1 4 [(.int 1, .int algorithm), (.int 4, .bytes kid')] = true := by
    simp [hasLabels, equal, integer?]
  have hAlgorithm : hasHeader 1 (.int profile.algorithm)
      [(.int 1, .int algorithm), (.int 4, .bytes kid')] = false ↔ algorithm ≠ profile.algorithm := by
    simp [hasHeader, lookup, equal, integer?, eq_comm]
  have hKid : hasHeader 4 (.bytes kid) [(.int 1, .int algorithm), (.int 4, .bytes kid')] = false ↔
      kid' ≠ kid := by
    simp [hasHeader, lookup, equal, integer?, octets?, eq_comm]
  rw [checkHeaders, decode_of_readable h, signatureHeader, ok_bind]
  simp only [hLabels, hAlgorithm, hKid, Bool.true_eq_false, failIf_of_not, not_false_eq_true, ok_bind]

/-- The two labels of the body are checked in the order content type, type. -/
theorem checkBody_encode {contentType : String} (h : Readable (bodyHeader contentType [])) :
    checkBody (bodyHeader contentType []).encode =
      failIf (contentType ≠ coseContentType)
        (.vectorError "invalid_content_type" "invalid COSE content type") := by
  have hLabels : hasLabels 3 16 [(.int 3, .text contentType), (.int 16, .text coseType)] = true := by
    simp [hasLabels, equal, integer?]
  have hContent : hasHeader 3 (.text coseContentType)
      [(.int 3, .text contentType), (.int 16, .text coseType)] = false ↔
        contentType ≠ coseContentType := by
    simp [hasHeader, lookup, equal, integer?, text?, eq_comm]
  have hType : hasHeader 16 (.text coseType)
      [(.int 3, .text contentType), (.int 16, .text coseType)] = true := by
    simp [hasHeader, lookup, equal, integer?, text?]
  rw [checkBody, decode_of_readable h, bodyHeader, ok_bind]
  simp only [hLabels, hContent, hType, Bool.true_eq_false, failIf_of_not, not_false_eq_true, ok_bind]
  unfold failIf
  split_ifs <;> rfl

/-- A body header with one label more is refused, whatever its other two hold. -/
theorem checkBody_extra :
    checkBody (bodyHeader coseContentType [(.int 99, .bool true)]).encode =
      .error (.vectorError "unsupported_header" "unsupported protected body header") := by
  have hLabels : hasLabels 3 16 [(.int 3, .text coseContentType), (.int 16, .text coseType),
      (.int 99, .bool true)] = false := by
    simp [hasLabels, equal, integer?]
  rw [checkBody, decode_of_readable readable_extraHeader, bodyHeader, ok_bind]
  simp only [hLabels, failIf_of, error_bind]

/-- A pair of a header and a signature as the items of an entry. -/
def octetPair (signature : Bytes × Bytes) : Item × Item := (.bytes signature.1, .bytes signature.2)

theorem sorted_signatureEntry (signature : Bytes × Bytes) :
    sorted (signatureEntry (octetPair signature)) = signatureEntry (octetPair signature) := by
  simp only [signatureEntry, octetPair, sorted, sortedMembers, sortedEntries, sortBy,
    List.mergeSort_nil]

theorem sorted_envelopeItem (payload body : Bytes) (signatures : List (Bytes × Bytes)) :
    sorted (envelopeItem (.bytes payload) (.bytes body) (signatures.map octetPair)) =
      envelopeItem (.bytes payload) (.bytes body) (signatures.map octetPair) := by
  have hEntries : sorted ∘ signatureEntry ∘ octetPair = signatureEntry ∘ octetPair := by
    funext signature
    exact sorted_signatureEntry signature
  simp only [envelopeItem, sorted, sortedMembers, sortedEntries, sortBy, List.mergeSort_nil,
    sortedMembers_eq_map, List.map_map, hEntries]

theorem wellFormed_empty : WellFormed (.map []) :=
  .map (List.forall_mem_nil _) List.Pairwise.nil (List.forall_mem_nil _)

theorem wellFormed_envelopeItem (payload body : Bytes) (signatures : List (Bytes × Bytes)) :
    WellFormed (envelopeItem (.bytes payload) (.bytes body) (signatures.map octetPair)) := by
  apply WellFormed.tag
  apply WellFormed.array
  simp only [List.forall_mem_cons, List.map_map]
  refine ⟨.bytes, wellFormed_empty, .bytes, .array fun entry hMem => ?_, List.forall_mem_nil _⟩
  obtain ⟨signature, -, rfl⟩ := List.mem_map.mp hMem
  apply WellFormed.array
  simp only [octetPair, List.forall_mem_cons]
  exact ⟨.bytes, wellFormed_empty, .bytes, List.forall_mem_nil _⟩

/-- Behind the octets of an envelope, `verify_cose` finds what went into it. This
leads every vector to the checks of the body. -/
theorem verifyCose_makeEnvelope {signatures : List (Bytes × Bytes)} {envelope : Bytes}
    (h : makeEnvelope (.bytes payload) (.bytes body) (signatures.map octetPair) = .ok envelope) :
    verifyCose sha256 envelope = verifyBody sha256 body payload
      (.array ((signatures.map octetPair).map signatureEntry)) := by
  have hDecoded := decode_cborEncode (wellFormed_envelopeItem _ _ _) h
  rw [sorted_envelopeItem] at hDecoded
  rw [verifyCose, hDecoded, envelopeItem]
  rfl

/-- The sizes of the parts of an envelope that could be written: they fit into the
heads. -/
theorem makeEnvelope_short {signatures : List (Bytes × Bytes)} {envelope : Bytes}
    (h : makeEnvelope (.bytes payload) (.bytes body) (signatures.map octetPair) = .ok envelope) :
    payload.length < 18446744073709551616 ∧ body.length < 18446744073709551616 := by
  obtain ⟨hEncodable, -⟩ := cborEncode_eq_ok.mp h
  have hMembers := hEncodable.of_tag.of_array
  have hPayload := hMembers (.bytes payload) (by simp)
  have hBody := hMembers (.bytes body) (by simp)
  cases hPayload with
  | bytes hShort =>
      cases hBody with
      | bytes hBodyShort => exact ⟨hShort, hBodyShort⟩

/-- An envelope of short parts can be written, as the encoding of the one item. -/
theorem makeEnvelope_eq_ok {signatures : List (Bytes × Bytes)}
    (hPayload : payload.length < 18446744073709551616)
    (hBody : body.length < 18446744073709551616)
    (hMany : signatures.length < 18446744073709551616)
    (hSignatures : ∀ signature ∈ signatures, signature.1.length < 18446744073709551616 ∧
      signature.2.length < 18446744073709551616) :
    ∃ envelope, makeEnvelope (.bytes payload) (.bytes body) (signatures.map octetPair) =
      .ok envelope := by
  refine ⟨_, cborEncode_eq_ok.mpr ⟨.tag (by decide) (.array (by simp) ?_), rfl⟩⟩
  have hEmpty : (Item.map []).Encodable :=
    .map (by decide) (List.forall_mem_nil _) (List.forall_mem_nil _)
  simp only [List.forall_mem_cons]
  refine ⟨.bytes hBody, hEmpty, .bytes hPayload, .array (by simpa using hMany) ?_,
    List.forall_mem_nil _⟩
  intro entry hMem
  obtain ⟨pair, hPair, rfl⟩ := List.mem_map.mp hMem
  obtain ⟨signature, hSignature, rfl⟩ := List.mem_map.mp hPair
  obtain ⟨hHeader, hOctets⟩ := hSignatures signature hSignature
  apply Item.Encodable.array (by simp)
  simp only [octetPair, List.forall_mem_cons]
  exact ⟨.bytes hHeader, hEmpty, .bytes hOctets, List.forall_mem_nil _⟩

/-- In an admitted manifest, each algorithm has its descriptor, and no algorithm has
two. -/
theorem Admitted.descriptorOf (h : Admitted manifest first second) :
    descriptorOf manifest "ed25519" = .ok (.map first) ∧
      descriptorOf manifest "ml-dsa-65" = .ok (.map second) := by
  have hKeys : subscript (.map manifest) "keys" = .ok (.array [.map first, .map second]) :=
    subscript_map.mpr h.framed.keys
  have hFirst : subscript (.map first) "algorithm" = .ok (.text "ed25519") :=
    subscript_map.mpr h.first.algorithm
  have hSecond : subscript (.map second) "algorithm" = .ok (.text "ml-dsa-65") :=
    subscript_map.mpr h.second.algorithm
  have hSame (name : String) : equal (.text name) (.text name) = true := equal_text.mpr rfl
  have hOther : equal (.text "ml-dsa-65") (.text "ed25519") = false := by decide
  have hAnother : equal (.text "ed25519") (.text "ml-dsa-65") = false := by decide
  constructor
  · simp [Vectors.descriptorOf, hKeys, iterate, matchingEntries, hFirst, hSecond, hSame, hOther]
  · simp [Vectors.descriptorOf, hKeys, iterate, matchingEntries, hFirst, hSecond, hSame, hAnother]

/-- The descriptor of a profile among the two of a manifest, which stand in the order
of the profile. -/
def descriptorFor (first second : Dict) (profile : Profile) : Dict :=
  if profile = ed25519 then first else second

theorem Admitted.descriptorOf_profile (h : Admitted manifest first second) {profile : Profile}
    (hProfile : profile ∈ expectedProfiles) :
    Vectors.descriptorOf manifest profile.name =
      .ok (.map (descriptorFor first second profile)) ∧
      KeyEntry profile.name (descriptorFor first second profile) := by
  simp only [expectedProfiles, List.mem_cons, List.not_mem_nil, or_false] at hProfile
  obtain rfl | rfl := hProfile
  · exact ⟨h.descriptorOf.1, h.first⟩
  · exact ⟨h.descriptorOf.2, h.second⟩

/-- The descriptor is the one that `verify_cose` expects, up to the order of its
fields. -/
def Bound (profile : Profile) (entry : Dict) : Prop :=
  equal (expectedDescriptor profile.name) (.map entry) = true

instance (profile : Profile) (entry : Dict) : Decidable (Bound profile entry) :=
  inferInstanceAs (Decidable (_ = true))

theorem expectedDescriptor_eq (name : String) : expectedDescriptor name = constants
    [("algorithm", .text name), ("key_id", .text "release-1"),
      ("public_key_uri", .text (publicKeyUri name)),
      ("public_key_sha256", .text (expectedSha256 name)), ("status", .text "active"),
      ("usage", texts ["release"])] :=
  rfl

/-- Among admitted descriptors the expected one has no further field, and the expected
digest. -/
theorem KeyEntry.bound_iff {profile : Profile} {entry : Dict} (h : KeyEntry profile.name entry) :
    Bound profile entry ↔ entry.length = 6 ∧
      lookup (.text "public_key_sha256") entry = some (.text (expectedSha256 profile.name)) := by
  rw [Bound, expectedDescriptor_eq, equal_constants]
  · simp [h.algorithm, h.keyId, h.uri, h.status, h.usage]
  · simp only [List.forall_mem_cons]
    exact ⟨.text _, .text _, .text _, .text _, .text _, .texts _, List.forall_mem_nil _⟩

theorem sorted_eq_text {value : Item} {text : String} (h : sorted value = .text text) :
    value = .text text := by
  cases value with
  | text _ => rwa [sorted] at h
  | null | bool _ | int _ | float _ | bytes _ | array _ | map _ | tag _ _ =>
      rw [sorted] at h
      cases h

/-- Whether a descriptor is the expected one does not depend on the order of its
fields. -/
theorem KeyEntry.bound_sorted {profile : Profile} {entry : Dict}
    (h : KeyEntry profile.name entry) (hEntry : WellFormed (.map entry)) :
    Bound profile (sortedDict entry) ↔ Bound profile entry := by
  rw [(h.sorted hEntry).bound_iff, h.bound_iff, length_sortedDict hEntry, lookup_sortedDict hEntry]
  constructor
  · intro hBoth
    obtain ⟨digest, hDigest, hHex⟩ := h.digest
    rw [hDigest, Option.map_some, Option.some.injEq] at hBoth
    exact ⟨hBoth.1, by rw [hDigest, sorted_eq_text hBoth.2]⟩
  · intro hBoth
    exact ⟨hBoth.1, by rw [hBoth.2, Option.map_some, (Constant.text _).sorted]⟩

end Tfws.Vectors
