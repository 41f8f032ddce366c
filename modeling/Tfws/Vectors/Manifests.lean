import Tfws.Vectors.Lookups
import Tfws.Vectors.Profile

/-! The manifests that the generator admits, and that its codec keeps them. -/
namespace Tfws.Vectors

open Fallible Cbor Sorting

variable {value digest : Item} {entries manifest first second : Dict} {name : String}

theorem length_eq_ok {count : Nat} : length value = .ok count ↔
    ∃ items, iterate value = .ok items ∧ items.length = count := by
  cases value <;> simp [length, iterate]

/-- What passes for a digest of 64 hexadecimal digits: a text of them, but also a list
of 64 parts of the string of digits, as `in` reads it. -/
def HexDigest (digest : Item) : Prop :=
  ∃ items, iterate digest = .ok items ∧ items.length = 64 ∧
    ∀ item ∈ items, ∃ part, item = .text part ∧ part.toList <:+: hexDigits

theorem anyNotHex_eq_false {items : List Item} : anyNotHex items = .ok false ↔
    ∀ item ∈ items, ∃ part, item = .text part ∧ part.toList <:+: hexDigits := by
  induction items with
  | nil => simp [anyNotHex]
  | cons item rest ih =>
      cases item with
      | text part =>
          rw [anyNotHex, List.forall_mem_cons]
          split_ifs with hPart
          · simp [ih, hPart]
          · simp [hPart]
      | null | bool _ | int _ | float _ | bytes _ | array _ | map _ | tag _ _ => simp [anyNotHex]

/-- The elements of a digest do not depend on the order of a dictionary, so that the
codec keeps what passes for a digest. -/
theorem HexDigest.sorted (hDigest : WellFormed digest) (h : HexDigest digest) :
    HexDigest (sorted digest) := by
  obtain ⟨items, hItems, hLength, hHex⟩ := h
  cases digest with
  | null | bool _ | int _ | float _ | tag _ _ => cases hItems
  | text text => exact ⟨items, by rwa [Vectors.sorted], hLength, hHex⟩
  | bytes octets => exact ⟨items, by rwa [Vectors.sorted], hLength, hHex⟩
  | array items =>
      obtain rfl := Except.ok.inj hItems
      refine ⟨items.map Vectors.sorted, by rw [Vectors.sorted, sortedMembers_eq_map]; rfl,
        by rwa [List.length_map], fun item hMem => ?_⟩
      obtain ⟨source, hSource, rfl⟩ := List.mem_map.mp hMem
      obtain ⟨part, rfl, hPart⟩ := hHex source hSource
      exact ⟨part, by rw [Vectors.sorted], hPart⟩
  | map entries =>
      obtain rfl := Except.ok.inj hItems
      refine ⟨(sortedDict entries).map Prod.fst, by rw [sorted_map]; rfl, ?_, fun item hMem => ?_⟩
      · rw [List.length_map, length_sortedDict hDigest]
        rwa [List.length_map] at hLength
      · obtain ⟨entry, hEntry, rfl⟩ := List.mem_map.mp hMem
        obtain ⟨source, hSource, rfl⟩ :=
          List.mem_map.mp ((sortedDict_perm hDigest).mem_iff.mp hEntry)
        exact hHex source.1 (List.mem_map_of_mem hSource)

/-- A descriptor that `validate_manifest` admits, which may have further fields. Of
the digest only the form is asked. -/
structure KeyEntry (name : String) (entry : Dict) : Prop where
  algorithm : lookup (.text "algorithm") entry = some (.text name)
  keyId : lookup (.text "key_id") entry = some (.text "release-1")
  uri : lookup (.text "public_key_uri") entry = some (.text (publicKeyUri name))
  digest : ∃ digest, lookup (.text "public_key_sha256") entry = some digest ∧ HexDigest digest
  status : lookup (.text "status") entry = some (.text "active")
  usage : lookup (.text "usage") entry = some (texts ["release"])

theorem subscript_map {item : Item} : subscript (.map entries) name = .ok item ↔
    lookup (.text name) entries = some item := by
  rw [subscript_eq_ok]
  simp

/-- A descriptor passes exactly if it is a dictionary with the fields that are looked
at. Its algorithm has been compared before the loop. -/
theorem validateEntry_eq_ok (hName : subscript value "algorithm" = .ok (.text name)) :
    validateEntry value = .ok () ↔ ∃ entry, value = .map entry ∧ KeyEntry name entry := by
  obtain ⟨entry, rfl, hAlgorithm⟩ := subscript_eq_ok.mp hName
  simp only [validateEntry, bind_eq_ok, exists_const, failIf_eq_ok, Bool.not_eq_false,
    Bool.not_eq_true, subscript_map, equal_text, equal_texts, not_not, length_eq_ok,
    Item.map.injEq, exists_eq_left']
  constructor
  · intro h
    obtain ⟨_, hSame, _, hKeyId, rfl, _, hUri, rfl, digest, hDigest, _, ⟨items, hItems, rfl⟩, hLength,
      _, hAgain, _, hHex, rfl, _, hStatus, rfl, _, hUsage, rfl⟩ := h
    obtain rfl := Option.some.inj (hAlgorithm.symm.trans hSame)
    obtain rfl := Except.ok.inj (hItems.symm.trans hAgain)
    exact ⟨hAlgorithm, hKeyId, hUri, ⟨digest, hDigest, items, hItems, hLength,
      anyNotHex_eq_false.mp hHex⟩, hStatus, hUsage⟩
  · intro h
    obtain ⟨digest, hDigest, items, hItems, hLength, hHex⟩ := h.digest
    exact ⟨_, hAlgorithm, _, h.keyId, rfl, _, h.uri, rfl, digest, hDigest, _, ⟨items, hItems, rfl⟩,
      hLength, items, hItems, false, anyNotHex_eq_false.mpr hHex, rfl, _, h.status, rfl, _, h.usage,
      rfl⟩

/-- A manifest that is right up to its two descriptors, of which only the algorithms
are known. -/
structure Framed (manifest first second : Dict) : Prop where
  version : lookup (.text "tfws_version") manifest = some (.text "3.0")
  environment : ∃ name ∈ ["development", "staging", "production"],
    lookup (.text "environment") manifest = some (.text name)
  policy : ∃ policy, lookup (.text "signature_policy") manifest = some policy ∧
    equal hybridBaseline policy = true
  keys : lookup (.text "keys") manifest = some (.array [.map first, .map second])
  firstName : lookup (.text "algorithm") first = some (.text "ed25519")
  secondName : lookup (.text "algorithm") second = some (.text "ml-dsa-65")

/-- A manifest that `validate_manifest` admits, with its two descriptors. The
mutations of the corpus change one part of it at a time. -/
structure Admitted (manifest first second : Dict) : Prop where
  framed : Framed manifest first second
  first : KeyEntry "ed25519" first
  second : KeyEntry "ml-dsa-65" second

theorem algorithmsOf_eq_ok {items algorithms : List Item} : algorithmsOf items = .ok algorithms ↔
    List.Forall₂ (fun item algorithm => subscript item "algorithm" = .ok algorithm) items
      algorithms := by
  induction items generalizing algorithms with
  | nil => simp [algorithmsOf, eq_comm]
  | cons item rest ih =>
      simp only [algorithmsOf, bind_eq_ok, Except.ok.injEq, ih, List.forall₂_cons_left_iff]
      constructor
      · intro h
        obtain ⟨algorithm, hFirst, others, hOthers, rfl⟩ := h
        exact ⟨algorithm, others, hFirst, hOthers, rfl⟩
      · intro h
        obtain ⟨algorithm, others, hFirst, hOthers, rfl⟩ := h
        exact ⟨algorithm, hFirst, others, hOthers, rfl⟩

/-- A sequence with two members that have an `algorithm` is a list: nothing else that
a loop goes through has members with fields. -/
theorem iterate_fields {items : List Item} (h : iterate value = .ok items)
    (hFields : ∀ item ∈ items, ∃ entry, item = .map entry)
    (hHashed : WellFormed value) : value = .array items ∨ items = [] := by
  cases value with
  | null | bool _ | int _ | float _ | tag _ _ => cases h
  | array members => exact Or.inl (congrArg Item.array (Except.ok.inj h))
  | text text =>
      obtain rfl := Except.ok.inj h
      right
      apply List.eq_nil_iff_forall_not_mem.mpr
      intro item hMem
      obtain ⟨entry, rfl⟩ := hFields item hMem
      simp at hMem
  | bytes octets =>
      obtain rfl := Except.ok.inj h
      right
      apply List.eq_nil_iff_forall_not_mem.mpr
      intro item hMem
      obtain ⟨entry, rfl⟩ := hFields item hMem
      simp at hMem
  | map entries =>
      obtain rfl := Except.ok.inj h
      right
      apply List.eq_nil_iff_forall_not_mem.mpr
      intro item hMem
      obtain ⟨entry, rfl⟩ := hFields item hMem
      obtain ⟨source, hSource, hKey⟩ := List.mem_map.mp hMem
      have hHash := hHashed.hashed source hSource
      rw [hKey] at hHash
      cases hHash

theorem validateEntries_pair {left right : Item} : validateEntries [left, right] = .ok () ↔
    validateEntry left = .ok () ∧ validateEntry right = .ok () := by
  simp [validateEntries, then_eq_ok]

theorem not_all_unequal {names : List String} :
    ¬names.all (fun name => equal value (.text name) = false) = true ↔
      ∃ name ∈ names, value = .text name := by
  rw [Bool.not_eq_true, List.all_eq_false]
  apply exists_congr
  intro name
  rw [decide_eq_true_eq, Bool.not_eq_false, equal_text]

theorem failIf_passed {check : Bool} (h : check = true) (failure : Failure) :
    failIf (check = false) failure = .ok () :=
  failIf_of_not (by rw [h]; decide) failure

/-- What is left to `validate_manifest` are the descriptors. -/
theorem Framed.validateManifest (h : Framed manifest first second) :
    validateManifest manifest =
      (validateEntries [.map first, .map second]).mapError caughtKeyError := by
  obtain ⟨name, hMem, hEnvironment⟩ := h.environment
  obtain ⟨policy, hPolicy, hSame⟩ := h.policy
  have hText (text : String) : equal (.text text) (.text text) = true := equal_text.mpr rfl
  have hVersion : subscript (.map manifest) "tfws_version" = .ok (.text "3.0") :=
    subscript_map.mpr h.version
  have hHash : hashable (.text name) = true := rfl
  have hName : ¬["development", "staging", "production"].all
      (fun other => equal (.text name) (.text other) = false) = true :=
    not_all_unequal.mpr ⟨name, hMem, rfl⟩
  have hAlgorithms : algorithmsOf [.map first, .map second] =
      .ok [.text "ed25519", .text "ml-dsa-65"] :=
    algorithmsOf_eq_ok.mpr (.cons (subscript_map.mpr h.firstName)
      (.cons (subscript_map.mpr h.secondName) .nil))
  have hNames : equal (texts ["ed25519", "ml-dsa-65"])
      (.array [.text "ed25519", .text "ml-dsa-65"]) = true :=
    equal_of_texts.mpr rfl
  have hPolicyField : subscript (.map manifest) "signature_policy" = .ok policy :=
    subscript_map.mpr hPolicy
  have hKeys : subscript (.map manifest) "keys" = .ok (.array [.map first, .map second]) :=
    subscript_map.mpr h.keys
  rw [Vectors.validateManifest, validateFields, hVersion, ok_bind, failIf_passed (hText _), ok_bind,
    subscript_map.mpr hEnvironment, ok_bind, failIf_passed hHash, ok_bind, failIf_of_not hName, ok_bind,
    hPolicyField, ok_bind, failIf_passed hSame, ok_bind, hKeys, ok_bind]
  simp only [length, iterate, ok_bind, hAlgorithms, List.length_cons, List.length_nil]
  rw [failIf_of_not (by decide), ok_bind, failIf_passed hNames, ok_bind]

/-- A manifest passes exactly if it holds two admitted descriptors, in the order of
the baseline. -/
theorem validateManifest_eq_ok (hManifest : WellFormed (.map manifest)) :
    validateManifest manifest = .ok () ↔ ∃ first second, Admitted manifest first second := by
  constructor
  · intro h
    rw [validateManifest, mapError_eq_ok] at h
    simp only [validateFields, bind_eq_ok, exists_const, failIf_eq_ok, Bool.not_eq_false,
      subscript_map, equal_text, not_not, algorithmsOf_eq_ok, length_eq_ok, equal_of_texts,
      not_all_unequal] at h
    obtain ⟨_, hVersion, rfl, environment, hEnvironment, _, hName, policy, hPolicy, hSame, keys, hKeys,
      _, ⟨items, hItems, rfl⟩, hTwo, _, hAgain, _, hAlgorithms, hNames, hEntries⟩ := h
    obtain rfl := Except.ok.inj (hItems.symm.trans hAgain)
    obtain ⟨left, right, rfl⟩ := List.length_eq_two.mp hTwo
    obtain rfl := Item.array.inj hNames
    obtain ⟨hLeft, hRest⟩ := List.forall₂_cons.mp hAlgorithms
    obtain ⟨hRight, -⟩ := List.forall₂_cons.mp hRest
    obtain ⟨hFirst, hSecond⟩ := validateEntries_pair.mp hEntries
    obtain ⟨first, rfl, hFirstKey⟩ := (validateEntry_eq_ok hLeft).mp hFirst
    obtain ⟨second, rfl, hSecondKey⟩ := (validateEntry_eq_ok hRight).mp hSecond
    have hList : keys = .array [.map first, .map second] := by
      obtain hArray | hEmpty := iterate_fields hItems (by simp) (hManifest.lookup hKeys)
      · exact hArray
      · cases hEmpty
    obtain ⟨name, hMem, rfl⟩ := hName
    exact ⟨first, second, ⟨hVersion, ⟨name, hMem, hEnvironment⟩, ⟨policy, hPolicy, hSame⟩,
      hList ▸ hKeys, hFirstKey.algorithm, hSecondKey.algorithm⟩, hFirstKey, hSecondKey⟩
  · intro h
    obtain ⟨first, second, h⟩ := h
    have hLeft : subscript (.map first) "algorithm" = .ok (.text "ed25519") :=
      subscript_map.mpr h.first.algorithm
    have hRight : subscript (.map second) "algorithm" = .ok (.text "ml-dsa-65") :=
      subscript_map.mpr h.second.algorithm
    rw [h.framed.validateManifest, mapError_eq_ok, validateEntries_pair]
    exact ⟨(validateEntry_eq_ok hLeft).mpr ⟨first, rfl, h.first⟩,
      (validateEntry_eq_ok hRight).mpr ⟨second, rfl, h.second⟩⟩

/-- A descriptor passes in whatever order its fields are. -/
theorem KeyEntry.sorted {entry : Dict} (hEntry : WellFormed (.map entry))
    (h : KeyEntry name entry) : KeyEntry name (sortedDict entry) := by
  obtain ⟨digest, hDigest, hHex⟩ := h.digest
  have hText (field text : String) (hField : lookup (.text field) entry = some (.text text)) :
      lookup (.text field) (sortedDict entry) = some (.text text) := by
    rw [lookup_sortedDict hEntry, hField, Option.map_some, (Constant.text text).sorted]
  constructor
  · exact hText _ _ h.algorithm
  · exact hText _ _ h.keyId
  · exact hText _ _ h.uri
  · exact ⟨Vectors.sorted digest, by rw [lookup_sortedDict hEntry, hDigest, Option.map_some],
      hHex.sorted (hEntry.lookup hDigest)⟩
  · exact hText _ _ h.status
  · rw [lookup_sortedDict hEntry, h.usage, Option.map_some, (Constant.texts _).sorted]

/-- The signature policy as a dictionary of constants. -/
theorem hybridBaseline_eq : hybridBaseline = constants
    [("policy_id", .text "tfws.hybrid.baseline.v1"),
      ("required_algorithms", texts ["ed25519", "ml-dsa-65"])] :=
  rfl

theorem Framed.wellFormed_keys (hManifest : WellFormed (.map manifest))
    (h : Framed manifest first second) :
    WellFormed (.map first) ∧ WellFormed (.map second) := by
  have hKeys := hManifest.lookup h.keys
  cases hKeys with
  | array hMembers => exact ⟨hMembers _ (by simp), hMembers _ (by simp)⟩

/-- The codec keeps what `validate_manifest` looks at. -/
theorem Framed.sorted (hManifest : WellFormed (.map manifest))
    (h : Framed manifest first second) :
    Framed (sortedDict manifest) (sortedDict first) (sortedDict second) := by
  obtain ⟨hFirst, hSecond⟩ := h.wellFormed_keys hManifest
  obtain ⟨policy, hPolicy, hSame⟩ := h.policy
  obtain ⟨name, hMem, hEnvironment⟩ := h.environment
  have hText {entries : Dict} (hEntries : WellFormed (.map entries)) {field text : String}
      (hField : lookup (.text field) entries = some (.text text)) :
      lookup (.text field) (sortedDict entries) = some (.text text) := by
    rw [lookup_sortedDict hEntries, hField, Option.map_some, (Constant.text text).sorted]
  constructor
  · exact hText hManifest h.version
  · exact ⟨name, hMem, hText hManifest hEnvironment⟩
  · refine ⟨Vectors.sorted policy, by rw [lookup_sortedDict hManifest, hPolicy, Option.map_some], ?_⟩
    rw [hybridBaseline_eq] at hSame ⊢
    apply equal_constants_sorted _ (hManifest.lookup hPolicy) hSame
    exact List.forall_mem_cons.mpr ⟨.text _, List.forall_mem_singleton.mpr (.texts _)⟩
  · rw [lookup_sortedDict hManifest, h.keys, Option.map_some, Vectors.sorted, sortedMembers_eq_map,
      List.map_cons, List.map_cons, List.map_nil, sorted_map, sorted_map]
  · exact hText hFirst h.firstName
  · exact hText hSecond h.secondName

/-- The codec keeps the two descriptors of an admitted manifest. -/
theorem Admitted.sorted (hManifest : WellFormed (.map manifest))
    (h : Admitted manifest first second) :
    Admitted (sortedDict manifest) (sortedDict first) (sortedDict second) := by
  obtain ⟨hFirst, hSecond⟩ := h.framed.wellFormed_keys hManifest
  exact ⟨h.framed.sorted hManifest, h.first.sorted hFirst, h.second.sorted hSecond⟩

/-- What was encoded of an admitted manifest decodes to it, sorted. -/
theorem decodeManifest_encode {payload : Bytes} (hManifest : WellFormed (.map manifest))
    (h : encodeManifest manifest = .ok payload) :
    decodeManifest payload = .ok (sortedDict manifest) := by
  obtain ⟨hValid, hEncoded⟩ := then_eq_ok.mp h
  obtain ⟨first, second, hAdmitted⟩ := (validateManifest_eq_ok hManifest).mp hValid
  have hDecoded := decode_cborEncode hManifest hEncoded
  obtain ⟨hEncodable, -⟩ := cborEncode_eq_ok.mp hEncoded
  have hSorted := (readable_sorted hManifest hEncodable).wellFormed
  rw [sorted_map] at hDecoded hSorted
  have hAgain := (validateManifest_eq_ok hSorted).mpr ⟨_, _, hAdmitted.sorted hManifest⟩
  rw [decodeManifest, hDecoded, ok_bind]
  simp only [hAgain, ok_bind]

/-- The names ascend in the order of their encodings. -/
def NamesAscend (names : List String) : Prop :=
  names.Pairwise fun first second =>
    lengthFirst (Item.text first).encode (Item.text second).encode = .lt

instance (names : List String) : Decidable (NamesAscend names) :=
  inferInstanceAs (Decidable (names.Pairwise _))

/-- A dictionary with names for keys. -/
def named (fields : List (String × Item)) : Dict := fields.map fun field => (.text field.1, field.2)

/-- A dictionary with ascending names is readable if its values are. -/
theorem readable_named {fields : List (String × Item)} (names : List String)
    (hNames : fields.map Prod.fst = names) (hAscend : NamesAscend names)
    (hShort : ∀ name ∈ names, (Utf8.encode name).length < 18446744073709551616)
    (hFew : names.length < 18446744073709551616) (hValues : ∀ field ∈ fields, Readable field.2) :
    Readable (.map (named fields)) := by
  subst hNames
  have hAscending := List.pairwise_map.mp hAscend
  apply Readable.map
  case short => rwa [named, List.length_map, ← List.length_map Prod.fst]
  case ascending => exact List.pairwise_map.mpr hAscending
  case hashed =>
    intro entry hMem
    obtain ⟨source, -, rfl⟩ := List.mem_map.mp hMem
    rfl
  case distinct =>
    apply List.pairwise_map.mpr
    apply hAscending.imp
    intro first second hLt
    by_contra hEqual
    rw [Bool.not_eq_false, equal_text] at hEqual
    have hSelf : lengthFirst (Item.text first.1).encode (Item.text first.1).encode = .eq :=
      Std.ReflCmp.compare_self
    rw [← hEqual, hSelf] at hLt
    cases hLt
  case keys =>
    intro entry hMem
    obtain ⟨source, hSource, rfl⟩ := List.mem_map.mp hMem
    exact .text (hShort source.1 (List.mem_map_of_mem hSource))
  case values =>
    intro entry hMem
    obtain ⟨source, hSource, rfl⟩ := List.mem_map.mp hMem
    exact hValues source hSource

theorem readable_texts {names : List String}
    (hNames : ∀ name ∈ names, (Utf8.encode name).length < 18446744073709551616)
    (hShort : names.length < 18446744073709551616) : Readable (texts names) := by
  apply Readable.array
  · rwa [List.length_map]
  · intro item hMem
    obtain ⟨name, hName, rfl⟩ := List.mem_map.mp hMem
    exact .text (hNames name hName)

/-- A descriptor in the order of its encoding. -/
def sampleEntry (name uri digest : String) : Dict :=
  named [("usage", texts ["release"]), ("key_id", .text "release-1"), ("status", .text "active"),
    ("algorithm", .text name), ("public_key_uri", .text uri),
    ("public_key_sha256", .text digest)]

/-- The capabilities of the sample, as the script names them. -/
def sampleCapabilities : Item :=
  .map (named [("optional", .array []),
    ("required", texts ["core.v1", "identity.v1", "transparency.v1", "recovery.v1"])])

/-- `test-vectors/manifest.valid.json` in the order of its encoding, with the
name of the operator and two fields of its first descriptor. -/
def sampleManifest (operator uri digest : String) : Dict :=
  named [("keys", .array [.map (sampleEntry "ed25519" uri digest),
      .map (sampleEntry "ml-dsa-65" (publicKeyUri "ml-dsa-65") (expectedSha256 "ml-dsa-65"))]),
    ("subject", .text "https://example.com"),
    ("operator", .map (named [("name", .text operator)])), ("artifacts", .array []),
    ("key_epoch", .int 1), ("expires_at", .text "2027-07-21T00:00:00Z"),
    ("updated_at", .text "2026-07-21T00:00:00Z"), ("environment", .text "production"),
    ("capabilities", sampleCapabilities), ("tfws_version", .text "3.0"),
    ("signature_policy", hybridBaseline)]

theorem readable_sampleEntry {name uri digest : String}
    (hName : (Utf8.encode name).length < 18446744073709551616)
    (hUri : (Utf8.encode uri).length < 18446744073709551616)
    (hDigest : (Utf8.encode digest).length < 18446744073709551616) :
    Readable (.map (sampleEntry name uri digest)) := by
  apply readable_named ["usage", "key_id", "status", "algorithm", "public_key_uri",
    "public_key_sha256"] rfl (by decide) (by decide) (by decide)
  simp only [List.forall_mem_cons]
  exact ⟨readable_texts (by decide) (by decide), .text (by decide), .text (by decide), .text hName,
    .text hUri, .text hDigest, List.forall_mem_nil _⟩

theorem readable_hybridBaseline : Readable hybridBaseline := by
  apply @readable_named [("policy_id", .text "tfws.hybrid.baseline.v1"),
    ("required_algorithms", texts ["ed25519", "ml-dsa-65"])] ["policy_id", "required_algorithms"]
    rfl (by decide) (by decide) (by decide)
  simp only [List.forall_mem_cons]
  exact ⟨.text (by decide), readable_texts (by decide) (by decide), List.forall_mem_nil _⟩

theorem readable_sampleCapabilities : Readable sampleCapabilities := by
  apply readable_named ["optional", "required"] rfl (by decide) (by decide) (by decide)
  simp only [List.forall_mem_cons]
  exact ⟨.array (by decide) (List.forall_mem_nil _), readable_texts (by decide) (by decide),
    List.forall_mem_nil _⟩

/-- The sample is readable, with any operator, file name and digest. -/
theorem readable_sampleManifest {operator uri digest : String}
    (hOperator : (Utf8.encode operator).length < 18446744073709551616)
    (hUri : (Utf8.encode uri).length < 18446744073709551616)
    (hDigest : (Utf8.encode digest).length < 18446744073709551616) :
    Readable (.map (sampleManifest operator uri digest)) := by
  have hFirst : Readable (.map (sampleEntry "ed25519" uri digest)) :=
    readable_sampleEntry (by decide) hUri hDigest
  have hSecond : Readable (.map (sampleEntry "ml-dsa-65" (publicKeyUri "ml-dsa-65")
      (expectedSha256 "ml-dsa-65"))) :=
    readable_sampleEntry (by decide) (by decide) (by decide)
  have hName : Readable (.map (named [("name", .text operator)])) :=
    readable_named ["name"] rfl (by decide) (by decide) (by decide)
      (List.forall_mem_singleton.mpr (.text hOperator))
  apply readable_named ["keys", "subject", "operator", "artifacts", "key_epoch", "expires_at",
    "updated_at", "environment", "capabilities", "tfws_version", "signature_policy"]
    rfl (by decide) (by decide) (by decide)
  simp only [List.forall_mem_cons]
  exact ⟨.array (by simp) (List.forall_mem_cons.mpr ⟨hFirst, List.forall_mem_singleton.mpr hSecond⟩),
    .text (by decide), hName, .array (by decide) (List.forall_mem_nil _),
    .int (by decide) (by decide), .text (by decide), .text (by decide), .text (by decide),
    readable_sampleCapabilities, .text (by decide), readable_hybridBaseline, List.forall_mem_nil _⟩

theorem keyEntry_sampleEntry {name digest : String} (hDigest : HexDigest (.text digest)) :
    KeyEntry name (sampleEntry name (publicKeyUri name) digest) :=
  ⟨rfl, rfl, rfl, ⟨_, rfl, hDigest⟩, rfl, rfl⟩

theorem hexDigest_of_digits {digest : String} (hLength : digest.toList.length = 64)
    (hDigits : digest.toList.all hexDigits.contains = true) : HexDigest (.text digest) := by
  refine ⟨_, rfl, by rwa [List.length_map], fun item hMem => ?_⟩
  obtain ⟨digit, hDigit, rfl⟩ := List.mem_map.mp hMem
  have hKnown := List.contains_iff_mem.mp (List.all_eq_true.mp hDigits digit hDigit)
  obtain ⟨before, after, hSplit⟩ := List.append_of_mem hKnown
  exact ⟨_, rfl, before, after, by rw [hSplit]; simp⟩

/-- The sample is admitted, with any operator and any digest of the right form. -/
theorem admitted_sampleManifest {operator digest : String} (hDigest : HexDigest (.text digest)) :
    Admitted (sampleManifest operator (publicKeyUri "ed25519") digest)
      (sampleEntry "ed25519" (publicKeyUri "ed25519") digest)
      (sampleEntry "ml-dsa-65" (publicKeyUri "ml-dsa-65") (expectedSha256 "ml-dsa-65")) := by
  have hOther : HexDigest (.text (expectedSha256 "ml-dsa-65")) :=
    hexDigest_of_digits (by decide) (by decide)
  have hPolicy : equal hybridBaseline hybridBaseline = true := by decide
  exact ⟨⟨rfl, ⟨"production", by simp, rfl⟩, ⟨_, rfl, hPolicy⟩, rfl, rfl, rfl⟩,
    keyEntry_sampleEntry hDigest, keyEntry_sampleEntry hOther⟩

theorem encodeManifest_sampleManifest {operator digest : String}
    (hHex : HexDigest (.text digest))
    (hOperator : (Utf8.encode operator).length < 18446744073709551616)
    (hDigest : (Utf8.encode digest).length < 18446744073709551616) :
    encodeManifest (sampleManifest operator (publicKeyUri "ed25519") digest) =
      .ok (Item.map (sampleManifest operator (publicKeyUri "ed25519") digest)).encode := by
  have hReadable : Readable (.map (sampleManifest operator (publicKeyUri "ed25519") digest)) :=
    readable_sampleManifest hOperator (by decide) hDigest
  have hValid := (validateManifest_eq_ok hReadable.wellFormed).mpr
    ⟨_, _, @admitted_sampleManifest operator digest hHex⟩
  rw [encodeManifest, hValid, ok_bind, hReadable.cborEncode_eq]

theorem hexDigest_ed25519 : HexDigest (.text (expectedSha256 "ed25519")) :=
  hexDigest_of_digits (by decide) (by decide)

/-- The manifest with the expected descriptors is readable. -/
theorem readable_sample : Readable (.map (sampleManifest "Example Organization"
    (publicKeyUri "ed25519") (expectedSha256 "ed25519"))) :=
  readable_sampleManifest (by decide) (by decide) (by decide)

end Tfws.Vectors
