import Tfws.Core.Manifest
import Mathlib.Data.List.Dedup

/-! What `Manifest::validate` demands, as one record of conditions. -/
namespace Tfws

open SerdeJson Fallible

variable {crates : Crates}

/-- A descriptor of one of the two baseline keys, on its own. That no two are for one
algorithm is in the manifest's condition. -/
structure KeyDescriptor.Valid (key : KeyDescriptor) : Prop where
  algorithm : key.algorithm ∈ baselineAlgorithms
  keyId : trimIsEmpty key.keyId = false
  status : key.status = "active"
  usage : key.usage = ["release"]
  publicKeySha256 : isLowerHex key.publicKeySha256 64 = true
  publicKeyUri : key.publicKeyUri = "/.well-known/keys/" ++ key.algorithm ++ ".pem"

/-- What is demanded of an artifact on its own. Its URI need not be one of HTTPS. -/
structure Artifact.Valid (crates : Crates) (artifact : Artifact) : Prop where
  uri : ∃ url, crates.parseUrl artifact.uri = .ok url
  mediaType : trimIsEmpty artifact.mediaType = false
  sha512 : isLowerHex artifact.sha512 128 = true

/-- What is demanded of the capabilities. Optional ones need not be known, but must
not be required as well. -/
structure Capabilities.Valid (capabilities : Capabilities) : Prop where
  required_nodup : capabilities.required.Nodup
  optional_nodup : capabilities.optional.Nodup
  disjoint : ∀ capability ∈ capabilities.required, capability ∉ capabilities.optional
  known : ∀ capability ∈ capabilities.required, capability ∈ knownCapabilities

/-- The manifest policy, as one condition for each check. The order of the checks does
not show in it. -/
structure Manifest.Valid (crates : Crates) (manifest : Manifest) : Prop where
  version : manifest.tfwsVersion = "3.0"
  subject : ∃ url, crates.parseUrl manifest.subject = .ok url ∧ url.isHttpsOrigin = true
  environment : manifest.environment ∈ ["development", "staging", "production"]
  keyEpoch : manifest.keyEpoch ≠ 0 ∧ manifest.keyEpoch.toNat ≤ maxSafeInteger
  operatorName : trimIsEmpty manifest.operator.name = false
  jurisdiction : validJurisdiction manifest.operator.jurisdiction = true
  unbound : manifest.keys = [] → manifest.environment = "development"
  bound : manifest.keys ≠ [] → manifest.keys.length = 2
  keys : ∀ key ∈ manifest.keys, key.Valid
  keys_nodup : (manifest.keys.map KeyDescriptor.algorithm).Nodup
  policyId : manifest.signaturePolicy.policyId = baselinePolicy
  requiredAlgorithms : manifest.signaturePolicy.requiredAlgorithms = baselineAlgorithms
  capabilities : manifest.capabilities.Valid
  artifacts : ∀ artifact ∈ manifest.artifacts, artifact.Valid crates
  numbers : validateJsonNumberProfile manifest.serialize = .ok ()

theorem KeyDescriptor.valid_iff {key : KeyDescriptor} {seen : List String} :
    ¬(key.algorithm ∉ baselineAlgorithms ∨ key.algorithm ∈ seen ∨
        trimIsEmpty key.keyId ∨ key.status ≠ "active" ∨ key.usage ≠ ["release"] ∨
        isLowerHex key.publicKeySha256 64 = false ∨
        key.publicKeyUri ≠ "/.well-known/keys/" ++ key.algorithm ++ ".pem") ↔
      key.Valid ∧ key.algorithm ∉ seen := by
  simp only [not_or, not_not, Bool.not_eq_true, Bool.not_eq_false]
  constructor
  · rintro ⟨hAlgorithm, hFresh, hKeyId, hStatus, hUsage, hSha256, hUri⟩
    exact ⟨⟨hAlgorithm, hKeyId, hStatus, hUsage, hSha256, hUri⟩, hFresh⟩
  · rintro ⟨⟨hAlgorithm, hKeyId, hStatus, hUsage, hSha256, hUri⟩, hFresh⟩
    exact ⟨hAlgorithm, hFresh, hKeyId, hStatus, hUsage, hSha256, hUri⟩

/-- The loop over the keys passes if each of them does and no algorithm comes twice,
those seen before included. -/
theorem validateKeys_eq_ok {seen : List String} {keys : List KeyDescriptor} :
    validateKeys seen keys = .ok () ↔
      (∀ key ∈ keys, key.Valid ∧ key.algorithm ∉ seen) ∧
        (keys.map KeyDescriptor.algorithm).Nodup := by
  induction keys generalizing seen with
  | nil => simp [validateKeys]
  | cons key rest ih =>
      rw [validateKeys, then_eq_ok, failIf_eq_ok, KeyDescriptor.valid_iff, ih, List.map_cons,
        List.nodup_cons, List.forall_mem_cons]
      constructor
      · rintro ⟨hKey, hRest, hNodup⟩
        refine ⟨⟨hKey, fun other hMem => ⟨(hRest other hMem).1, fun hSeen => ?_⟩⟩, ?_, hNodup⟩
        · exact (hRest other hMem).2 (List.mem_cons_of_mem _ hSeen)
        · intro hMem
          obtain ⟨other, hOther, hEqual⟩ := List.mem_map.mp hMem
          exact (hRest other hOther).2 (hEqual ▸ List.mem_cons_self ..)
      · rintro ⟨⟨hKey, hRest⟩, hFresh, hNodup⟩
        refine ⟨hKey, fun other hMem => ⟨(hRest other hMem).1, fun hSeen => ?_⟩, hNodup⟩
        rcases List.mem_cons.mp hSeen with hEqual | hSeen
        · exact hFresh (hEqual ▸ List.mem_map_of_mem hMem)
        · exact (hRest other hMem).2 hSeen

theorem validateCapabilities_eq_ok {capabilities : List String} :
    validateCapabilities capabilities = .ok () ↔
      ∀ capability ∈ capabilities, capability ∈ knownCapabilities := by
  induction capabilities with
  | nil => simp [validateCapabilities]
  | cons capability rest ih =>
      rw [validateCapabilities, then_eq_ok, failIf_eq_ok, not_not, ih, List.forall_mem_cons]

theorem validateArtifacts_eq_ok {artifacts : List Artifact} :
    validateArtifacts crates artifacts = .ok () ↔
      ∀ artifact ∈ artifacts, artifact.Valid crates := by
  induction artifacts with
  | nil => simp [validateArtifacts]
  | cons artifact rest ih =>
      rw [validateArtifacts, bind_eq_ok, List.forall_mem_cons]
      simp only [mapError_eq_ok, then_eq_ok, failIf_eq_ok, not_or, Bool.not_eq_true,
        Bool.not_eq_false, ih]
      constructor
      · rintro ⟨url, hUrl, ⟨hMediaType, hSha512⟩, hRest⟩
        exact ⟨⟨⟨url, hUrl⟩, hMediaType, hSha512⟩, hRest⟩
      · rintro ⟨⟨⟨url, hUrl⟩, hMediaType, hSha512⟩, hRest⟩
        exact ⟨url, hUrl, ⟨hMediaType, hSha512⟩, hRest⟩

theorem length_dedup_eq_iff {texts : List String} :
    texts.dedup.length = texts.length ↔ texts.Nodup := by
  rw [← List.dedup_eq_self]
  exact ⟨fun h => (List.dedup_sublist texts).eq_of_length h, fun h => by rw [h]⟩

/-- The checks pass exactly when every condition of the policy holds; in which order
they are made shows in the message alone. -/
theorem Manifest.validate_eq_ok {manifest : Manifest} :
    manifest.validate crates = .ok () ↔ manifest.Valid crates := by
  rw [validate, then_eq_ok, bind_eq_ok]
  simp only [then_eq_ok, mapError_eq_ok, failIf_eq_ok, crates.serde.toValue_eq, mapError_ok,
    ok_bind, not_not, not_or, ne_eq, Bool.not_eq_false, Bool.not_eq_true, not_lt,
    validateKeys_eq_ok, validateCapabilities_eq_ok, validateArtifacts_eq_ok, length_dedup_eq_iff,
    List.isEmpty_iff, not_and, List.any_eq_false,
    List.contains_iff_mem]
  constructor
  · rintro ⟨hVersion, url, hUrl, hOrigin, hEnvironment, hEpoch, hName, hJurisdiction, hUnbound,
      hBound, ⟨hKeys, hNodup⟩, ⟨hPolicyId, hRequired⟩, hRequiredNodup, ⟨hOptionalNodup, hDisjoint⟩,
      hKnown, hArtifacts, hNumbers⟩
    exact ⟨hVersion, ⟨url, hUrl, hOrigin⟩, hEnvironment, hEpoch, hName, hJurisdiction, hUnbound,
      hBound, fun key hMem => (hKeys key hMem).1, hNodup, hPolicyId, hRequired,
      ⟨hRequiredNodup, hOptionalNodup, hDisjoint, hKnown⟩, hArtifacts, hNumbers⟩
  · rintro ⟨hVersion, ⟨url, hUrl, hOrigin⟩, hEnvironment, hEpoch, hName, hJurisdiction, hUnbound,
      hBound, hKeys, hNodup, hPolicyId, hRequired, ⟨hRequiredNodup, hOptionalNodup, hDisjoint,
      hKnown⟩, hArtifacts, hNumbers⟩
    exact ⟨hVersion, url, hUrl, hOrigin, hEnvironment, hEpoch, hName, hJurisdiction, hUnbound,
      hBound, ⟨fun key hMem => ⟨hKeys key hMem, List.not_mem_nil⟩, hNodup⟩,
      ⟨hPolicyId, hRequired⟩, hRequiredNodup, ⟨hOptionalNodup, hDisjoint⟩, hKnown, hArtifacts,
      hNumbers⟩

end Tfws
