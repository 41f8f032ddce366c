import Tfws.Agreement.Draft
import Tfws.Agreement.Structure
import Tfws.Core.DataModel
import Tfws.Core.Policy
import Tfws.Python.Models

/-! The policies of the two implementations over drafts: what both demand, and
what only one of them does. -/
namespace Tfws

open SerdeJson Fallible
open Python (Object Runtime)

variable {crates : Crates} {limits : CborLimits} {depth : Nat}

/-- What both implementations demand, in the laxer of the two readings. What one of
them reads more strictly is in its own structure. -/
structure Draft.Common (draft : Draft) : Prop where
  version : draft.tfwsVersion = "3.0"
  environment : draft.environment ∈ ["development", "staging", "production"]
  jurisdiction : ∀ code ∈ draft.jurisdiction, code.toList.length = 2 ∧ Python.isAsciiUpper code
  keyEpoch : draft.keyEpoch ≠ 0 ∧ draft.keyEpoch.toNat ≤ maxSafeInteger
  unbound : draft.keys = [] → draft.environment = "development"
  bound : draft.keys ≠ [] → draft.keys.length = 2
  keys : ∀ key ∈ draft.keys, key.Valid
  keys_nodup : (draft.keys.map KeyDescriptor.algorithm).Nodup
  policyId : draft.policyId = baselinePolicy
  requiredAlgorithms : ∃ items, (Object.ofValue draft.requiredAlgorithms).tuple = .ok items ∧
    items.mapM Object.text? = some baselineAlgorithms
  required_nodup : draft.required.Nodup
  known : ∀ capability ∈ draft.required, capability ∈ knownCapabilities
  optional_hashable : ∀ item ∈ draft.optional, (Object.ofValue item).hashable
  optional_distinct : draft.optional.Pairwise fun first second =>
    (Object.ofValue first).equal (Object.ofValue second) = false
  disjoint : ∀ capability ∈ draft.required, Value.string capability ∉ draft.optional
  mediaTypes : ∀ artifact ∈ draft.artifacts, artifact.mediaType ≠ ""
  sha512 : ∀ artifact ∈ draft.artifacts, isLowerHex artifact.sha512 128

/-- What only `tfws-core` demands, the parsing of its subject and numbers among it. -/
structure Draft.RustDemands (crates : Crates) (draft : Draft) : Prop where
  subject : ∃ url, crates.parseUrl draft.subject = .ok url ∧ url.isHttpsOrigin
  operatorName : ∃ name, draft.operatorName = .string name ∧ trimIsEmpty name = false
  jurisdiction : validJurisdiction draft.jurisdiction
  requiredAlgorithms : ∃ items, draft.requiredAlgorithms = .array items
  optional : ∀ item ∈ draft.optional, ∃ text, item = .string text
  identity : ∀ identity ∈ draft.identity, isObject identity
  uris : ∀ artifact ∈ draft.artifacts, ∃ url, crates.parseUrl artifact.uri = .ok url
  mediaTypes : ∀ artifact ∈ draft.artifacts, trimIsEmpty artifact.mediaType = false

/-- What only the reference implementation demands, maps for structs apart. Each field
is a document that the other one accepts. -/
structure Draft.PythonDemands (runtime : Runtime) (draft : Draft) : Prop where
  subject : ∃ parsed, runtime.urlparse draft.subject = .ok parsed ∧ parsed.isHttpsOrigin
  operatorName : ∀ name, draft.operatorName = .string name → Python.stripIsEmpty name = false
  keyIds : ∀ key ∈ draft.keys, Python.stripIsEmpty key.keyId = false
  uris : ∀ artifact ∈ draft.artifacts, artifact.uri ≠ ""
  times : ∃ updated, Python.parseRfc3339 runtime (.str draft.updatedAt) = .ok updated ∧
    ∀ expiresAt ∈ draft.expiresAt, ∃ expires,
      Python.parseRfc3339 runtime (.str expiresAt) = .ok expires ∧ updated < expires

theorem isUpper_iff {c : Char} : c.isUpper ↔ 65 ≤ c.toNat ∧ c.toNat ≤ 90 := by
  have hCode : c.isUpper = decide (65 ≤ c.val ∧ c.val ≤ 90) := rfl
  simp [hCode, UInt32.le_iff_toNat_le]

theorem isLower_iff {c : Char} : c.isLower ↔ 97 ≤ c.toNat ∧ c.toNat ≤ 122 := by
  have hCode : c.isLower = (decide (97 ≤ c.val) && decide (c.val ≤ 122)) := rfl
  simp [hCode, UInt32.le_iff_toNat_le]

/-- Two capital letters are ASCII and upper case for Python, while Python lets more
through than these. -/
theorem isAsciiUpper_of_validJurisdiction {code : String} (h : validJurisdiction (some code)) :
    code.toList.length = 2 ∧ Python.isAsciiUpper code := by
  simp only [validJurisdiction, Bool.and_eq_true, decide_eq_true_eq] at h
  have hOctet : ∀ octet, isAsciiUppercase octet → octet.toNat < 128 := by
    intro octet hOctet
    simp only [isAsciiUppercase, Bool.and_eq_true, decide_eq_true_eq, UInt8.le_iff_toNat_le] at hOctet
    exact hOctet.2.trans_lt (by decide)
  obtain ⟨hLength, hAll⟩ := (Utf8.length_all_iff hOctet).mp h
  have hUpper : ∀ c ∈ code.toList, 65 ≤ c.toNat ∧ c.toNat ≤ 90 := by
    intro c hMem
    obtain ⟨hAscii, hTest⟩ := hAll c hMem
    simp only [isAsciiUppercase, Bool.and_eq_true, decide_eq_true_eq, UInt8.le_iff_toNat_le,
      UInt8.toNat_ofNat_of_lt' (show c.toNat < UInt8.size by simp [UInt8.size]; omega)] at hTest
    exact hTest
  refine ⟨hLength, ?_⟩
  simp only [Python.isAsciiUpper, Bool.and_eq_true, List.all_eq_true, decide_eq_true_eq,
    Bool.not_eq_true', List.any_eq_true, List.any_eq_false, isUpper_iff, isLower_iff]
  refine ⟨⟨fun c hMem => (hAll c hMem).1, ?_⟩, fun c hMem => ?_⟩
  · obtain ⟨c, hMem⟩ := List.exists_mem_of_length_pos (hLength ▸ (by decide) : 0 < code.toList.length)
    exact ⟨c, hMem, hUpper c hMem⟩
  · have := hUpper c hMem
    omega

/-- The octets of the sixteen digits, in lower case. -/
def isHexOctet (byte : UInt8) : Bool := (48 ≤ byte && byte ≤ 57) || (97 ≤ byte && byte ≤ 102)

theorem mem_hexDigits {c : Char} :
    c ∈ "0123456789abcdef".toList ↔ c.toNat < 128 ∧ isHexOctet (UInt8.ofNat c.toNat) := by
  have hDigits : ("0123456789abcdef".toList.all fun c =>
      c.toNat < 128 ∧ isHexOctet (UInt8.ofNat c.toNat)) = true := by decide
  have hCodes : ∀ code < 128, isHexOctet (UInt8.ofNat code) →
      Char.ofNat code ∈ "0123456789abcdef".toList := by decide
  refine ⟨fun hMem => of_decide_eq_true (List.all_eq_true.mp hDigits c hMem),
    fun ⟨hAscii, hOctet⟩ => ?_⟩
  have hMem := hCodes c.toNat hAscii hOctet
  rwa [Char.ofNat_toNat] at hMem

/-- The two hexadecimal checks agree, although one counts octets and the other
characters. -/
theorem isLowerHex_str {text : String} {length : Nat} :
    Python.isLowerHex (.str text) length = isLowerHex text length := by
  have hOctet : ∀ octet, isHexOctet octet → octet.toNat < 128 := by
    intro octet hOctet
    simp only [isHexOctet, Bool.or_eq_true, Bool.and_eq_true, decide_eq_true_eq,
      UInt8.le_iff_toNat_le] at hOctet
    have hNine : (57 : UInt8).toNat = 57 := rfl
    have hLetter : (102 : UInt8).toNat = 102 := rfl
    omega
  have hBytes : isLowerHex text length = true ↔
      (Utf8.encode text).length = length ∧ (Utf8.encode text).all isHexOctet := by
    rw [isLowerHex, Bool.and_eq_true, decide_eq_true_eq]
    rfl
  rw [Bool.eq_iff_iff, hBytes, Utf8.length_all_iff hOctet]
  simp only [Python.isLowerHex, Bool.and_eq_true, decide_eq_true_eq, List.all_eq_true,
    List.contains_iff_mem, mem_hexDigits]

/-- What Rust trims to nothing, Python strips to nothing; the sets of blanks
differ. -/
theorem trimIsEmpty_of_stripIsEmpty {text : String} (h : Python.stripIsEmpty text = false) :
    trimIsEmpty text = false := by
  rw [Bool.eq_false_iff] at h ⊢
  refine fun hTrim => h (List.all_eq_true.mpr fun c hMem => ?_)
  have hSpace := List.all_eq_true.mp hTrim c hMem
  simp only [isWhitespace, Python.isSpace, Bool.or_eq_true, Bool.and_eq_true, decide_eq_true_eq]
    at hSpace ⊢
  omega

@[simp] theorem text?_ofValue {value : Value} {text : String} :
    (Object.ofValue value).text? = some text ↔ value = .string text := by
  cases value with
  | number number => cases number <;> simp [Object.ofValue, Object.ofNumber, Object.text?]
  | _ => simp [Object.ofValue, Object.text?]

theorem texts_ofValue {items : List Value} {texts : List String} :
    (items.map Object.ofValue).mapM Object.text? = some texts ↔ items = texts.map Value.string := by
  rw [List.mapM_map]
  exact mapM_eq_some fun item _ text => text?_ofValue

/-- An array of texts is taken by Python as its members, which is how the policy reads
its algorithms. -/
theorem tuple_array (items : List Value) :
    (Object.ofValue (.array items)).tuple = .ok (items.map Object.ofValue) := by
  rw [Object.ofValue_array, Object.tuple]

theorem equal_strings (first second : String) :
    (Object.ofValue (.string first)).equal (Object.ofValue (.string second)) =
      decide (first = second) := by
  simp [Object.ofValue, Object.equal, Object.key?, Python.Key.equal_str]

/-- The numbers of an admissible value are in the profile, so that this check refuses
nothing that was decoded. -/
theorem validateJsonNumberProfile_of_admissible {value : Value}
    (h : Admissible limits depth value) : validateJsonNumberProfile value = .ok () := by
  induction h with
  | bool _ => simp [validateJsonNumberProfile]
  | string _ _ => simp [validateJsonNumberProfile]
  | number _ integer hInteger hSafe =>
      rw [validateJsonNumberProfile, failIf_eq_ok, Bool.not_eq_false]
      exact numberInProfile_of_toInt hInteger hSafe
  | array _ _ _ ih =>
      rw [validateJsonNumberProfile, validateJsonItems_eq_ok]
      exact ih
  | object _ _ _ _ ih =>
      rw [validateJsonNumberProfile, validateJsonEntries_eq_ok]
      exact ih

/-- What `tfws-core` checks once the value is decoded: the types of serde, the form of
the identity, and its own policy. -/
structure Draft.RustAccepts (crates : Crates) (draft : Draft) (manifest : Manifest) : Prop where
  types : draft.Types manifest
  identity : ∀ identity ∈ manifest.identity, isObject identity.value
  valid : manifest.Valid crates

/-- A draft that `tfws-core` accepts meets the demands of both, since those are the
laxer reading. -/
theorem Draft.RustAccepts.common {draft : Draft} {manifest : Manifest}
    (h : draft.RustAccepts crates manifest) : draft.Common := by
  obtain ⟨hTypes, _, hValid⟩ := h
  constructor
  · exact hTypes.tfwsVersion.trans hValid.version
  · exact hTypes.environment ▸ hValid.environment
  · intro code hCode
    rw [hTypes.jurisdiction] at hCode
    exact isAsciiUpper_of_validJurisdiction (hCode ▸ hValid.jurisdiction)
  · exact hTypes.keyEpoch ▸ hValid.keyEpoch
  · rw [hTypes.keys, hTypes.environment]
    exact hValid.unbound
  · rw [hTypes.keys]
    exact hValid.bound
  · rw [hTypes.keys]
    exact hValid.keys
  · rw [hTypes.keys]
    exact hValid.keys_nodup
  · exact hTypes.policyId.trans hValid.policyId
  · rw [hTypes.requiredAlgorithms, hValid.requiredAlgorithms, stringsValue]
    exact ⟨_, tuple_array _, texts_ofValue.mpr rfl⟩
  · exact hTypes.required ▸ hValid.capabilities.required_nodup
  · exact hTypes.required ▸ hValid.capabilities.known
  · rw [hTypes.optional, List.forall_mem_map]
    intro text _
    simp [Object.ofValue, Object.hashable]
  · rw [hTypes.optional, List.pairwise_map]
    refine hValid.capabilities.optional_nodup.imp fun hNe => ?_
    rw [equal_strings, decide_eq_false hNe]
  · rw [hTypes.required, hTypes.optional]
    intro capability hMem hOptional
    obtain ⟨text, hText, hEqual⟩ := List.mem_map.mp hOptional
    exact hValid.capabilities.disjoint capability hMem (Value.string.inj hEqual ▸ hText)
  · rw [hTypes.artifacts]
    rintro artifact hMem hEmpty
    have hMediaType := (hValid.artifacts artifact hMem).mediaType
    rw [hEmpty] at hMediaType
    cases hMediaType
  · rw [hTypes.artifacts]
    exact fun artifact hMem => (hValid.artifacts artifact hMem).sha512

/-- It also meets those of `tfws-core` alone, and nothing more is needed for it to be
accepted. -/
theorem Draft.RustAccepts.demands {draft : Draft} {manifest : Manifest}
    (h : draft.RustAccepts crates manifest) : draft.RustDemands crates := by
  obtain ⟨hTypes, hIdentity, hValid⟩ := h
  constructor
  · exact hTypes.subject ▸ hValid.subject
  · exact ⟨_, hTypes.operatorName, hValid.operatorName⟩
  · exact hTypes.jurisdiction ▸ hValid.jurisdiction
  · exact ⟨_, hTypes.requiredAlgorithms⟩
  · rw [hTypes.optional, List.forall_mem_map]
    exact fun text _ => ⟨text, rfl⟩
  · rw [hTypes.identity]
    intro value hValue
    obtain ⟨identity, hMem, rfl⟩ := Option.map_eq_some_iff.mp hValue
    exact hIdentity identity hMem
  · rw [hTypes.artifacts]
    exact fun artifact hMem => (hValid.artifacts artifact hMem).uri
  · rw [hTypes.artifacts]
    exact fun artifact hMem => (hValid.artifacts artifact hMem).mediaType

/-- A draft that meets the demands of `tfws-core` can be typed, as a manifest that is
valid. -/
theorem Draft.exists_rustAccepts {draft : Draft}
    (hIdentity : ∀ identity ∈ draft.identity, Decoded limits depth identity)
    (hCommon : draft.Common) (hDemands : draft.RustDemands crates) :
    ∃ manifest, draft.RustAccepts crates manifest := by
  obtain ⟨name, hName, hBlank⟩ := hDemands.operatorName
  obtain ⟨items, hItems⟩ := hDemands.requiredAlgorithms
  obtain ⟨tuple, hTuple, hTexts⟩ := hCommon.requiredAlgorithms
  rw [hItems, tuple_array] at hTuple
  obtain rfl := Except.ok.inj hTuple
  obtain rfl := texts_ofValue.mp hTexts
  obtain ⟨optional, _, hOptional⟩ := exists_map_eq fun item hMem =>
    (hDemands.optional item hMem).imp fun text hText => ⟨trivial, hText.symm⟩
  obtain ⟨identity, hIdentityValue⟩ : ∃ identity : Option OrderedValue,
      draft.identity = identity.map OrderedValue.value := by
    cases hCase : draft.identity with
    | none => exact ⟨none, rfl⟩
    | some value => exact ⟨some ⟨value, (hIdentity value hCase).2⟩, rfl⟩
  have hNodup : optional.Nodup := by
    have hDistinct := hCommon.optional_distinct
    rw [← hOptional, List.pairwise_map] at hDistinct
    exact hDistinct.imp fun hEqual => by simpa [equal_strings] using hEqual
  refine ⟨⟨draft.tfwsVersion, draft.subject, draft.environment, ⟨name, draft.jurisdiction⟩,
    draft.keyEpoch, draft.keys, ⟨draft.policyId, baselineAlgorithms⟩, ⟨draft.required, optional⟩,
    identity, draft.artifacts, draft.updatedAt, draft.expiresAt⟩, ?_, ?_, ?_⟩
  · exact ⟨rfl, rfl, rfl, hName, rfl, rfl, rfl, rfl, hItems, rfl, hOptional.symm, hIdentityValue,
      rfl, rfl, rfl⟩
  · intro value hValue
    refine hDemands.identity value.value ?_
    rw [hIdentityValue]
    exact Option.mem_map_of_mem _ hValue
  · refine ⟨hCommon.version, hDemands.subject, hCommon.environment, hCommon.keyEpoch, hBlank,
      hDemands.jurisdiction, hCommon.unbound, hCommon.bound, hCommon.keys, hCommon.keys_nodup,
      hCommon.policyId, rfl, ⟨hCommon.required_nodup, hNodup, ?_, hCommon.known⟩, ?_, ?_⟩
    · intro capability hMem hMember
      refine hCommon.disjoint capability hMem ?_
      rw [← hOptional]
      exact List.mem_map_of_mem hMember
    · exact fun artifact hMem =>
        ⟨hDemands.uris artifact hMem, hDemands.mediaTypes artifact hMem, hCommon.sha512 artifact hMem⟩
    · refine Manifest.numbers_of hCommon.keyEpoch.2 fun value hValue => ?_
      have hDecoded := hIdentity value.value (by
        rw [hIdentityValue]
        exact Option.mem_map_of_mem _ hValue)
      exact validateJsonNumberProfile_of_admissible hDecoded.1

end Tfws
