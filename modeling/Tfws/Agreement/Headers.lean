import Tfws.Cli.ConformanceFixture
import Tfws.Core.CoseEncoding
import Tfws.Python.CanonicalDecoding
import Tfws.Python.Crypto

/-! The protected headers that the reference implementation accepts. It looks
labels up in a dictionary, where `True` is the label 1. -/
namespace Tfws

open Fallible Cbor
open Python (Object Key Canonical Flags Profile)

/-- The row of `expected` for an algorithm, with the constants of the other
implementation. -/
def profileOf (algorithm : CoseAlgorithm) : Profile where
  algorithm := algorithm.coseValue.toInt
  algorithmName := algorithm.tfwsIdentifier
  fixturePrefix := Cli.fixturePrefix algorithm
  signatureLength := algorithm.expectedSignatureLen

/-- Both implementations expect the same algorithms in the same order, with the same
lengths. -/
theorem expectedProfiles_eq : Python.expectedProfiles = requiredSignatures.map profileOf := by
  rfl

/-- A key equals an integer exactly if the two have one identity, by which Python's
dictionaries tell keys apart. -/
theorem equal_int_iff {key : Key} {label : Int} :
    key.equal (.int label) = true ↔ key.identity = .int label := by
  rw [Key.equal, decide_eq_true_eq]
  rfl

/-- A dictionary whose keys are all equal to one of two labels, and that has both, has
two entries: no third key can differ from both. -/
theorem eq_pair_of_onlyLabels {first second : Int} {headers : List (Key × Object)}
    (hDistinct : headers.Pairwise fun left right => left.1.equal right.1 = false)
    (hOnly : Python.onlyLabels first second headers = true) {one two : Object}
    (hLabels : first ≠ second) (hOne : Object.get (.int first) headers = some one)
    (hTwo : Object.get (.int second) headers = some two) :
    ∃ firstKey secondKey : Key, firstKey.equal (.int first) = true ∧
      secondKey.equal (.int second) = true ∧
      (headers = [(firstKey, one), (secondKey, two)] ∨
        headers = [(secondKey, two), (firstKey, one)]) := by
  have hNodup : (headers.map fun entry => entry.1.identity).Nodup := by
    rw [List.Nodup, List.pairwise_map]
    exact hDistinct.imp fun h => by simpa [Key.equal] using h
  have hMem {label : Int} {object : Object} (h : Object.get (.int label) headers = some object) :
      ∃ key, (key, object) ∈ headers ∧ key.equal (.int label) = true := by
    obtain ⟨⟨key, _⟩, hFind, rfl⟩ := Option.map_eq_some_iff.mp h
    exact ⟨key, List.mem_of_find?_eq_some hFind, by simpa using List.find?_some hFind⟩
  obtain ⟨firstKey, hFirst, hFirstKey⟩ := hMem hOne
  obtain ⟨secondKey, hSecond, hSecondKey⟩ := hMem hTwo
  have hFirstIdentity := equal_int_iff.mp hFirstKey
  have hSecondIdentity := equal_int_iff.mp hSecondKey
  have hApart : (firstKey, one) ≠ (secondKey, two) := by
    intro hSame
    rw [(Prod.mk.inj hSame).1, hSecondIdentity] at hFirstIdentity
    exact hLabels (Key.int.inj hFirstIdentity).symm
  have hSubset : ∀ entry ∈ headers, entry = (firstKey, one) ∨ entry = (secondKey, two) := by
    intro entry hEntry
    have hLabel := List.all_eq_true.mp hOnly entry hEntry
    rw [Bool.or_eq_true, equal_int_iff, equal_int_iff] at hLabel
    rcases hLabel with hLabel | hLabel
    · exact Or.inl (List.inj_on_of_nodup_map hNodup hEntry hFirst (hLabel.trans hFirstIdentity.symm))
    · exact Or.inr (List.inj_on_of_nodup_map hNodup hEntry hSecond
        (hLabel.trans hSecondIdentity.symm))
  have hPerm : headers.Perm [(firstKey, one), (secondKey, two)] := by
    refine (List.perm_ext_iff_of_nodup (List.Nodup.of_map _ hNodup) (by simpa using hApart)).mpr
      fun entry => ?_
    simp only [List.mem_cons, List.not_mem_nil, or_false]
    refine ⟨hSubset entry, ?_⟩
    rintro (rfl | rfl) <;> assumption
  refine ⟨firstKey, secondKey, hFirstKey, hSecondKey, ?_⟩
  obtain ⟨left, right, rfl⟩ := List.length_eq_two.mp hPerm.length_eq
  have hTwice := List.Nodup.of_map _ hNodup
  simp only [List.nodup_cons, List.mem_singleton] at hTwice
  rcases hSubset left (by simp) with rfl | rfl <;> rcases hSubset right (by simp) with rfl | rfl
  · exact absurd rfl hTwice.1
  · exact Or.inl rfl
  · exact Or.inr rfl
  · exact absurd rfl hTwice.1

/-- A protected header is the canonical encoding of a dictionary in a string of
octets. -/
theorem decodeProtected_eq_ok {value : Object} {label : String} {headers : List (Key × Object)} :
    Python.decodeProtected value label = .ok headers ↔
      value = .bytes (Object.dict headers).item.encode ∧
        (Object.dict headers).item.encode.length ≤ Python.maxCborBytes ∧
        Canonical Flags.protectedHeader 0 (.dict headers) := by
  cases value with
  | bytes octets =>
      rw [Python.decodeProtected, bind_eq_ok, Object.bytes.injEq]
      constructor
      · rintro ⟨object, hObject, h⟩
        obtain ⟨hShort, hCanonical, rfl⟩ := Python.decodeCborDocument_eq_ok.mp hObject
        cases object with
        | dict entries =>
            obtain rfl := Except.ok.inj h
            exact ⟨rfl, hShort, hCanonical⟩
        | _ => cases h
      · rintro ⟨rfl, hShort, hCanonical⟩
        exact ⟨_, Python.decodeCborDocument_eq_ok.mpr ⟨hShort, hCanonical, rfl⟩, rfl⟩
  | _ => simp [Python.decodeProtected]

theorem hasHeader_iff {label : Int} {expected : Object} {headers : List (Key × Object)} :
    Python.hasHeader label expected headers = true ↔
      ∃ value, Object.get (.int label) headers = some value ∧ value.equal expected = true := by
  rw [Python.hasHeader, Option.any_eq_true]

/-- A dictionary of two entries is canonical if its keys ascend and differ, its keys
and values being canonical themselves. -/
theorem canonical_pair {first second : Key} {one two : Object}
    (hAscending : lengthFirst first.item.encode second.item.encode = .lt)
    (hDistinct : first.equal second = false)
    (hFirst : Canonical Flags.protectedHeader 1 first.object)
    (hSecond : Canonical Flags.protectedHeader 1 second.object)
    (hOne : Canonical Flags.protectedHeader 1 one) (hTwo : Canonical Flags.protectedHeader 1 two) :
    Canonical Flags.protectedHeader 0 (.dict [(first, one), (second, two)]) := by
  refine .dict (Nat.zero_le _) (by simp [Python.maxCborCollectionItems]) ?_ ?_ ?_ ?_
  · simpa using hAscending
  · simpa using hDistinct
  · simpa using ⟨hFirst, hSecond⟩
  · simpa using ⟨hOne, hTwo⟩

theorem Canonical.pair_ascending {first second : Key} {one two : Object} {flags : Flags}
    {depth : Nat} (h : Canonical flags depth (.dict [(first, one), (second, two)])) :
    lengthFirst first.item.encode second.item.encode = .lt := by
  cases h with
  | dict _ _ hAscending _ _ _ => simpa using hAscending

theorem Canonical.dict_distinct {entries : List (Key × Object)} {flags : Flags} {depth : Nat}
    (h : Canonical flags depth (.dict entries)) :
    entries.Pairwise fun left right => left.1.equal right.1 = false := by
  cases h with
  | dict _ _ _ hDistinct _ _ => exact hDistinct

theorem eq_int_of_equal {key : Key} {label : Int} (h : key.equal (.int label) = true)
    (hZero : label ≠ 0) (hOne : label ≠ 1) : key = .int label := by
  rw [equal_int_iff] at h
  cases key with
  | bool value =>
      cases value with
      | false => exact absurd (Key.int.inj h).symm hZero
      | true => exact absurd (Key.int.inj h).symm hOne
  | str _ | int _ | bytes _ => exact h

/-- The label 1 has two keys that equal it, which is where the two implementations
part. -/
theorem eq_of_equal_one {key : Key} (h : key.equal (.int 1) = true) :
    key = .int 1 ∨ key = .bool true := by
  rw [equal_int_iff] at h
  cases key with
  | bool value =>
      cases value with
      | false => cases h
      | true => exact Or.inr rfl
  | str _ | int _ | bytes _ => exact Or.inl h

theorem equal_bytes_iff {value : Object} {octets : Bytes} :
    value.equal (.bytes octets) = true ↔ value = .bytes octets := by
  cases value <;> simp [Object.equal, Object.key?, Key.equal, Key.identity]

/-- Away from 0 and 1, only the integer itself is equal to an integer; those two are
equal to the truth values. -/
theorem equal_int_object_iff {value : Object} {n : Int} (hZero : n ≠ 0) (hOne : n ≠ 1) :
    value.equal (.int n) = true ↔ value = .int n := by
  cases value with
  | bool value =>
      cases value <;> simp [Object.equal, Object.key?, Key.equal, Key.identity, hZero.symm, hOne.symm]
  | _ => simp [Object.equal, Object.key?, Key.equal, Key.identity]

/-- The header of the body as a dictionary, in the order of its octets. -/
def bodyHeaders : List (Key × Object) :=
  [(.int 3, .str coseContentType), (.int 16, .str coseType)]

theorem bodyHeaders_item : (Object.dict bodyHeaders).item = bodyProtectedItem := by
  rw [Object.item_dict]
  rfl

theorem canonical_bodyHeaders : Canonical Flags.protectedHeader 0 (.dict bodyHeaders) := by
  refine canonical_pair (by decide) rfl ?_ ?_ ?_ ?_
  · exact .int (by decide) (by decide)
  · exact .int (by decide) (by decide)
  · exact .str (by decide) (by decide)
  · exact .str (by decide) (by decide)

/-- Both implementations want the same body header, octet by octet: neither of its
labels is one that a truth value equals. -/
theorem validateBodyProtected_eq_ok {value : Object} :
    Python.validateBodyProtected value = .ok () ↔ value = .bytes bodyProtectedItem.encode := by
  rw [Python.validateBodyProtected, bind_eq_ok]
  simp only [then_eq_ok, failIf_eq_ok, Bool.not_eq_false, decodeProtected_eq_ok]
  constructor
  · rintro ⟨headers, ⟨rfl, _, hCanonical⟩, hOnly, hContentType, hType⟩
    obtain ⟨_, hContentType, hEqual⟩ := hasHeader_iff.mp hContentType
    obtain rfl := Object.equal_str_iff.mp hEqual
    obtain ⟨_, hType, hEqual⟩ := hasHeader_iff.mp hType
    obtain rfl := Object.equal_str_iff.mp hEqual
    obtain ⟨first, second, hFirst, hSecond, hHeaders⟩ := eq_pair_of_onlyLabels
      (Canonical.dict_distinct hCanonical) hOnly (by decide) hContentType hType
    obtain rfl := eq_int_of_equal hFirst (by decide) (by decide)
    obtain rfl := eq_int_of_equal hSecond (by decide) (by decide)
    rcases hHeaders with rfl | rfl
    · rw [← bodyHeaders_item]
      rfl
    · exact absurd (Canonical.pair_ascending hCanonical) (by decide)
  · rintro rfl
    refine ⟨bodyHeaders, ⟨by rw [bodyHeaders_item], ?_, canonical_bodyHeaders⟩, by decide, by decide,
      by decide⟩
    rw [bodyHeaders_item]
    decide

/-- The headers of a signature, with the label 1 or with `True` in its place. -/
def signatureHeaders (aliased : Bool) (algorithm : CoseAlgorithm) : List (Key × Object) :=
  if aliased then
    [(.int 4, .bytes Python.expectedKid), (.bool true, .int algorithm.coseValue.toInt)]
  else [(.int 1, .int algorithm.coseValue.toInt), (.int 4, .bytes Python.expectedKid)]

/-- The header of a signature with either key for the label 1. -/
def signatureHeaderItem (aliased : Bool) (algorithm : CoseAlgorithm) : Item :=
  (Object.dict (signatureHeaders aliased algorithm)).item

/-- With the integer as its key, the header is the one of the other implementation. -/
theorem signatureHeaderItem_false (algorithm : CoseAlgorithm) :
    signatureHeaderItem false algorithm =
      signatureProtectedItem algorithm (Utf8.encode "release-1") := by
  rw [signatureHeaderItem, Object.item_dict]
  rfl

theorem canonical_signatureHeaders (aliased : Bool) (algorithm : CoseAlgorithm) :
    Canonical Flags.protectedHeader 0 (.dict (signatureHeaders aliased algorithm)) := by
  have hLabel (label : Int) (h : label.natAbs ≤ Python.maxSafeInteger) :
      Canonical Flags.protectedHeader 1 (.int label) := .int (by decide) h
  have hAlgorithm : Canonical Flags.protectedHeader 1 (.int algorithm.coseValue.toInt) :=
    hLabel _ (by cases algorithm <;> decide)
  have hKid : Canonical Flags.protectedHeader 1 (.bytes Python.expectedKid) :=
    .bytes (by decide) (by decide) rfl
  cases aliased with
  | false =>
      exact canonical_pair (by decide) rfl (hLabel 1 (by decide)) (hLabel 4 (by decide))
        hAlgorithm hKid
  | true =>
      exact canonical_pair (by decide) rfl (hLabel 4 (by decide)) (.bool (by decide))
        hKid hAlgorithm

/-- The reference implementation also accepts the header with `True`, and nothing
besides the two. -/
theorem Python.validateSignatureProtected_eq_ok {label : String} {algorithm : CoseAlgorithm}
    {value : Object} :
    Python.validateSignatureProtected label (profileOf algorithm) value = .ok () ↔
      ∃ aliased, value = .bytes (signatureHeaderItem aliased algorithm).encode := by
  have hZero : (profileOf algorithm).algorithm ≠ 0 := by cases algorithm <;> decide
  have hOne : (profileOf algorithm).algorithm ≠ 1 := by cases algorithm <;> decide
  rw [Python.validateSignatureProtected, bind_eq_ok]
  simp only [then_eq_ok, failIf_eq_ok, Bool.not_eq_false, decodeProtected_eq_ok]
  constructor
  · rintro ⟨headers, ⟨rfl, _, hCanonical⟩, hOnly, hAlgorithm, hKid⟩
    obtain ⟨_, hAlgorithm, hEqual⟩ := hasHeader_iff.mp hAlgorithm
    obtain rfl := (equal_int_object_iff hZero hOne).mp hEqual
    obtain ⟨_, hKid, hEqual⟩ := hasHeader_iff.mp hKid
    obtain rfl := equal_bytes_iff.mp hEqual
    obtain ⟨first, second, hFirst, hSecond, hHeaders⟩ := eq_pair_of_onlyLabels
      (Canonical.dict_distinct hCanonical) hOnly (by decide) hAlgorithm hKid
    obtain rfl := eq_int_of_equal hSecond (by decide) (by decide)
    -- The order of the two keys follows from how the first label is written.
    rcases eq_of_equal_one hFirst with rfl | rfl <;> rcases hHeaders with rfl | rfl
    · exact ⟨false, rfl⟩
    · exact absurd (Canonical.pair_ascending hCanonical) (by decide)
    · exact absurd (Canonical.pair_ascending hCanonical) (by decide)
    · exact ⟨true, rfl⟩
  · rintro ⟨aliased, rfl⟩
    refine ⟨signatureHeaders aliased algorithm, ⟨rfl, ?_, canonical_signatureHeaders ..⟩, ?_, ?_, ?_⟩
    · cases aliased <;> cases algorithm <;> decide
    · cases aliased <;> rfl
    · cases aliased <;> cases algorithm <;> decide
    · cases aliased <;> cases algorithm <;> decide

end Tfws
