import Mathlib.Data.List.Perm.Subperm
import Tfws.Python.SignatureBundle

/-! What `_validate_key_binding` lets through: a manifest with one descriptor
for every algorithm of the baseline, whose key files have the digests that the
descriptors name. -/
namespace Tfws.Python

open Fallible

/-- A descriptor of a key for the algorithm, as far as signing and verifying look at
it. -/
structure KeyFor (descriptor : List (Key × Object)) (name : String) : Prop where
  algorithm : Object.get (.str "algorithm") descriptor = some (.str name)
  known : name ∈ baseline
  keyId : ∃ keyId, Object.get (.str "key_id") descriptor = some (.str keyId)
  publicKeyUri : ∃ uri, Object.get (.str "public_key_uri") descriptor = some (.str uri)

/-- An object that describes a key for the algorithm: a dictionary with the texts that
are looked up in it. -/
def DescribesKey (key : Object) (algorithm : String) : Prop :=
  ∃ descriptor, key = .dict descriptor ∧ KeyFor descriptor algorithm

/-- A descriptor that passes is one for the algorithm that the loop goes on with,
which has not been seen before. -/
theorem validateKeyDescriptor_bound {seen : List String} {seenIds : List (String × String)}
    {index : String} {descriptor : List (Key × Object)} {identity : String × String}
    (h : validateKeyDescriptor seen seenIds index descriptor = .ok identity) :
    KeyFor descriptor identity.1 ∧ identity.1 ∉ seen := by
  rw [validateKeyDescriptor] at h
  obtain ⟨_, -, h⟩ := bind_eq_ok.mp h
  obtain ⟨_, hAlgorithm, h⟩ := bind_eq_ok.mp h
  obtain ⟨algorithm, hAlgorithmText, h⟩ := bind_eq_ok.mp h
  obtain ⟨_, hFresh, h⟩ := bind_eq_ok.mp h
  obtain ⟨_, hKeyId, h⟩ := bind_eq_ok.mp h
  obtain ⟨keyId, hKeyIdText, h⟩ := bind_eq_ok.mp h
  obtain ⟨_, -, h⟩ := bind_eq_ok.mp h
  obtain ⟨_, -, h⟩ := bind_eq_ok.mp h
  obtain ⟨uri, hUri, h⟩ := bind_eq_ok.mp h
  obtain ⟨_, hUriText, h⟩ := bind_eq_ok.mp h
  obtain ⟨_, -, h⟩ := bind_eq_ok.mp h
  obtain ⟨_, -, h⟩ := bind_eq_ok.mp h
  obtain ⟨_, -, h⟩ := bind_eq_ok.mp h
  obtain ⟨_, -, h⟩ := bind_eq_ok.mp h
  obtain ⟨_, -, h⟩ := bind_eq_ok.mp h
  obtain rfl := Except.ok.inj h
  obtain rfl := textOr_eq_ok.mp hAlgorithmText
  obtain rfl := textOr_eq_ok.mp hKeyIdText
  obtain rfl := Object.text?_eq_some.mp (not_not.mp (failIf_eq_ok.mp hUriText))
  obtain ⟨hKnown, hUnseen⟩ := not_or.mp (failIf_eq_ok.mp hFresh)
  exact ⟨⟨Object.getItem_eq_ok.mp hAlgorithm, not_not.mp hKnown, ⟨_, Object.getItem_eq_ok.mp hKeyId⟩,
    ⟨_, Object.getItem_eq_ok.mp hUri⟩⟩, hUnseen⟩

/-- The keys are descriptors for different algorithms, if the loop lets them
through. -/
theorem validateKeyList_bound {seen result : List String} {seenIds : List (String × String)}
    {index : Nat} {keys : List Object}
    (h : validateKeyList seen seenIds index keys = .ok result) :
    ∃ algorithms, List.Forall₂ DescribesKey keys algorithms ∧ algorithms.Nodup ∧
      ∀ algorithm ∈ algorithms, algorithm ∉ seen := by
  induction keys generalizing seen seenIds index with
  | nil => exact ⟨[], .nil, List.nodup_nil, List.forall_mem_nil _⟩
  | cons key rest ih =>
      cases key with
      | dict descriptor =>
          rw [validateKeyList] at h
          obtain ⟨identity, hDescriptor, h⟩ := bind_eq_ok.mp h
          obtain ⟨hKey, hUnseen⟩ := validateKeyDescriptor_bound hDescriptor
          obtain ⟨algorithms, hKeys, hNodup, hFresh⟩ := ih h
          refine ⟨identity.1 :: algorithms, .cons ⟨descriptor, rfl, hKey⟩ hKeys, ?_, ?_⟩
          · refine List.nodup_cons.mpr ⟨fun hMem => ?_, hNodup⟩
            exact hFresh identity.1 hMem (List.mem_cons_self ..)
          · refine List.forall_mem_cons.mpr ⟨hUnseen, fun algorithm hMem hSeen => ?_⟩
            exact hFresh algorithm hMem (List.mem_cons_of_mem _ hSeen)
      | none | bool _ | int _ | float _ | str _ | bytes _ | list _ | tag _ _ => cases h

/-- As many different members make up the whole list. This is why two descriptors for
different algorithms of the baseline leave none out. -/
theorem perm_baseline {algorithms : List String} (hNodup : algorithms.Nodup)
    (hKnown : ∀ algorithm ∈ algorithms, algorithm ∈ baseline)
    (hLength : algorithms.length = baseline.length) : algorithms.Perm baseline :=
  (hNodup.subperm hKnown).perm_of_length_le hLength.ge

/-- Keys that must not be missing are descriptors for all algorithms of the
baseline. -/
theorem validateKeyDescriptors_bound {manifest : List (Key × Object)}
    (h : validateKeyDescriptors false manifest = .ok ()) :
    ∃ keys algorithms, Object.get (.str "keys") manifest = some (.list keys) ∧
      List.Forall₂ DescribesKey keys algorithms ∧ algorithms.Perm baseline := by
  unfold validateKeyDescriptors at h
  split at h
  case h_1 keys hKeys =>
    rw [if_neg (by simp)] at h
    obtain ⟨_, hLength, h⟩ := bind_eq_ok.mp h
    obtain ⟨seen, hList, -⟩ := bind_eq_ok.mp h
    obtain ⟨algorithms, hDescribed, hNodup, -⟩ := validateKeyList_bound hList
    refine ⟨keys, algorithms, hKeys, hDescribed, perm_baseline hNodup ?_ ?_⟩
    · intro algorithm hMem
      obtain ⟨_, -, _, -, hKey⟩ := Traversal.exists_left hDescribed hMem
      exact hKey.known
    · exact hDescribed.length_eq.symm.trans (not_not.mp (failIf_eq_ok.mp hLength))
  case h_2 => cases h

/-- What the policy ensures of the members that are signed or looked up. The other
members are in the signed octets as they are. -/
structure BoundManifest (manifest : List (Key × Object)) : Prop where
  subject : ∃ subject, Object.get (.str "subject") manifest = some (.str subject)
  keyEpoch : ∃ keyEpoch, Object.get (.str "key_epoch") manifest = some (.int keyEpoch)
  keys : ∃ keys algorithms, Object.get (.str "keys") manifest = some (.list keys) ∧
    List.Forall₂ DescribesKey keys algorithms ∧ algorithms.Perm baseline

/-- Nothing but a text is an HTTPS origin: what else can be parsed at all has no
scheme. -/
theorem urlparse_origin {runtime : Runtime} {object : Object} {parsed : ParseResult}
    (h : urlparse runtime object = .ok parsed) (hOrigin : parsed.isHttpsOrigin = true) :
    ∃ text, object = .str text := by
  cases object with
  | str text => exact ⟨text, rfl⟩
  | none | bool _ | int _ | float _ | bytes _ | list _ | dict _ | tag _ _ =>
      obtain ⟨_, -, h⟩ := bind_eq_ok.mp h
      obtain rfl := Except.ok.inj h
      simp [ParseResult.isHttpsOrigin] at hOrigin

/-- A key epoch that passes is an integer, and not a truth value. -/
theorem validKeyEpoch_int {object : Object} (h : validKeyEpoch object = true) :
    ∃ value, object = .int value := by
  cases object with
  | int value => exact ⟨value, rfl⟩
  | none | bool _ | float _ | str _ | bytes _ | list _ | dict _ | tag _ _ => cases h

/-- The members that `validate_manifest` looks at, each with its check. This is its
inversion, in the order of the source. -/
structure ManifestChecks (runtime : Runtime) (allowUnboundDevelopment : Bool)
    (manifest : List (Key × Object)) : Prop where
  subject : ∃ subject parsed, Object.get (.str "subject") manifest = some subject ∧
    urlparse runtime subject = .ok parsed ∧ parsed.isHttpsOrigin = true
  keyEpoch : ∃ keyEpoch, Object.get (.str "key_epoch") manifest = some keyEpoch ∧
    validKeyEpoch keyEpoch = true
  signaturePolicy : ∃ policy, Object.get (.str "signature_policy") manifest = some policy ∧
    validatePolicy policy = .ok ()
  keys : validateKeyDescriptors allowUnboundDevelopment manifest = .ok ()
  capabilities : ∃ capabilities, Object.get (.str "capabilities") manifest = some capabilities ∧
    validateCapabilities runtime capabilities = .ok ()
  operator : ∃ operator, Object.get (.str "operator") manifest = some operator ∧
    validateOperator operator = .ok ()
  artifacts : ∃ artifacts, Object.get (.str "artifacts") manifest = some (.list artifacts) ∧
    validateArtifacts 0 artifacts = .ok ()

/-- What a manifest that passes is known to hold. The checks are taken off one by one,
and never unfolded again. -/
theorem validateManifest_checks {runtime : Runtime}
    {allowNonproduction allowUnboundDevelopment : Bool} {manifest : List (Key × Object)}
    (h : validateManifest runtime allowNonproduction allowUnboundDevelopment manifest = .ok ()) :
    ManifestChecks runtime allowUnboundDevelopment manifest := by
  rw [validateManifest] at h
  obtain ⟨_, -, h⟩ := bind_eq_ok.mp h
  obtain ⟨_, -, h⟩ := bind_eq_ok.mp h
  obtain ⟨_, -, h⟩ := bind_eq_ok.mp h
  obtain ⟨_, -, h⟩ := bind_eq_ok.mp h
  obtain ⟨subject, hSubject, h⟩ := bind_eq_ok.mp h
  obtain ⟨parsed, hParsed, h⟩ := bind_eq_ok.mp h
  obtain ⟨_, hOrigin, h⟩ := bind_eq_ok.mp h
  obtain ⟨_, -, h⟩ := bind_eq_ok.mp h
  obtain ⟨_, -, h⟩ := bind_eq_ok.mp h
  obtain ⟨_, -, h⟩ := bind_eq_ok.mp h
  obtain ⟨_, -, h⟩ := bind_eq_ok.mp h
  obtain ⟨keyEpoch, hKeyEpoch, h⟩ := bind_eq_ok.mp h
  obtain ⟨_, hInteger, h⟩ := bind_eq_ok.mp h
  obtain ⟨policy, hPolicy, h⟩ := bind_eq_ok.mp h
  obtain ⟨_, hPolicyValid, h⟩ := bind_eq_ok.mp h
  obtain ⟨_, hKeys, h⟩ := bind_eq_ok.mp h
  obtain ⟨capabilities, hCapabilities, h⟩ := bind_eq_ok.mp h
  obtain ⟨_, hCapabilitiesValid, h⟩ := bind_eq_ok.mp h
  obtain ⟨_, -, h⟩ := bind_eq_ok.mp h
  obtain ⟨operator, hOperator, h⟩ := bind_eq_ok.mp h
  obtain ⟨_, hOperatorValid, h⟩ := bind_eq_ok.mp h
  obtain ⟨artifacts, hArtifacts, h⟩ := bind_eq_ok.mp h
  cases artifacts with
  | list items =>
      exact ⟨⟨subject, parsed, Object.getItem_eq_ok.mp hSubject, hParsed,
          Bool.not_eq_false _ ▸ failIf_eq_ok.mp hOrigin⟩,
        ⟨keyEpoch, Object.getItem_eq_ok.mp hKeyEpoch, Bool.not_eq_false _ ▸ failIf_eq_ok.mp hInteger⟩,
        ⟨policy, Object.getItem_eq_ok.mp hPolicy, hPolicyValid⟩, hKeys,
        ⟨capabilities, Object.getItem_eq_ok.mp hCapabilities, hCapabilitiesValid⟩,
        ⟨operator, Object.getItem_eq_ok.mp hOperator, hOperatorValid⟩,
        ⟨items, Object.getItem_eq_ok.mp hArtifacts, h⟩⟩
  | none | bool _ | int _ | float _ | str _ | bytes _ | dict _ | tag _ _ => cases h

/-- A manifest that passes without the exception for development has all its keys, one
for every algorithm. -/
theorem validateManifest_bound {runtime : Runtime} {manifest : List (Key × Object)}
    (h : validateManifest runtime true false manifest = .ok ()) : BoundManifest manifest := by
  have hChecks := validateManifest_checks h
  obtain ⟨subject, parsed, hSubject, hParsed, hOrigin⟩ := hChecks.subject
  obtain ⟨keyEpoch, hKeyEpoch, hInteger⟩ := hChecks.keyEpoch
  obtain ⟨text, rfl⟩ := urlparse_origin hParsed hOrigin
  obtain ⟨value, rfl⟩ := validKeyEpoch_int hInteger
  exact ⟨⟨text, hSubject⟩, ⟨value, hKeyEpoch⟩, validateKeyDescriptors_bound hChecks.keys⟩

/-- The pairs of algorithms and descriptors, in the order of the keys, as the
dictionary of descriptors is filled. -/
def describedPairs (keys : List Object) (algorithms : List String) : List (Key × Object) :=
  List.zipWith (fun key algorithm => (.str algorithm, key)) keys algorithms

theorem describedKeys_eq_ok {keys : List Object} {algorithms : List String}
    (h : List.Forall₂ DescribesKey keys algorithms) :
    describedKeys keys = .ok (describedPairs keys algorithms) := by
  induction h with
  | nil => rfl
  | cons hKey _ ih =>
      obtain ⟨descriptor, rfl, hKey⟩ := hKey
      rw [describedKeys, subscript_dict.mpr hKey.algorithm, ok_bind]
      simp only [Object.key?, ih, ok_bind]
      rfl

theorem describedPairs_distinct {keys : List Object} {algorithms : List String}
    (h : List.Forall₂ DescribesKey keys algorithms) (hNodup : algorithms.Nodup) :
    (describedPairs keys algorithms).Pairwise
      fun first second => first.1.equal second.1 = false := by
  have hNames : (describedPairs keys algorithms).map Prod.fst = algorithms.map Key.str := by
    induction h with
    | nil => rfl
    | cons _ _ ih => rw [describedPairs, List.zipWith_cons_cons, List.map_cons, List.map_cons,
        ← ih (List.nodup_cons.mp hNodup).2]; rfl
  have hKeys : ((describedPairs keys algorithms).map Prod.fst).Pairwise
      fun first second => first.equal second = false := by
    rw [hNames, List.pairwise_map]
    exact hNodup.imp fun hNe => by simpa [Key.equal, Key.identity] using hNe
  exact List.Pairwise.of_map Prod.fst (fun _ _ hKey => hKey) hKeys

/-- The descriptor for an algorithm, among the keys of a manifest. After the policy
there is exactly one. -/
def Describes (keys : List Object) (algorithm : String) (descriptor : List (Key × Object)) :
    Prop :=
  .dict descriptor ∈ keys ∧ Object.get (.str "algorithm") descriptor = some (.str algorithm)

/-- The dictionary holds the descriptor for an algorithm, and nothing for any other.
By induction on the keys, whose algorithms differ. -/
theorem get_describedPairs {keys : List Object} {algorithms : List String}
    (h : List.Forall₂ DescribesKey keys algorithms) (hNodup : algorithms.Nodup)
    {algorithm : String} {object : Object} :
    Object.get (.str algorithm) (describedPairs keys algorithms) = some object ↔
      ∃ descriptor, object = .dict descriptor ∧ Describes keys algorithm descriptor := by
  induction h with
  | nil => simp [describedPairs, Object.get, Describes]
  | @cons key name keys algorithms hKey hKeys ih =>
      obtain ⟨hFresh, hNodup⟩ := List.nodup_cons.mp hNodup
      obtain ⟨first, rfl, hKey⟩ := hKey
      rw [describedPairs, List.zipWith_cons_cons, Object.get_cons]
      by_cases hSame : name = algorithm
      · subst hSame
        rw [if_pos (by simp [Key.equal])]
        constructor
        · intro hObject
          obtain rfl := Option.some.inj hObject
          exact ⟨first, rfl, List.mem_cons_self .., hKey.algorithm⟩
        · intro hDescribed
          obtain ⟨descriptor, hObject, hMem, hAlgorithm⟩ := hDescribed
          obtain hHere | hRest := List.mem_cons.mp hMem
          · rw [hObject, hHere]
          · -- another descriptor for the algorithm would repeat its name
            obtain ⟨other, hOther, _, hDescriptor, hOtherKey⟩ := Traversal.exists_right hKeys hRest
            obtain rfl := Object.dict.inj hDescriptor
            obtain rfl := Object.str.inj
              (Option.some.inj (hAlgorithm.symm.trans hOtherKey.algorithm))
            exact absurd hOther hFresh
      · rw [if_neg (by simpa [Key.equal, Key.identity] using hSame)]
        refine (ih hNodup).trans (exists_congr fun descriptor => and_congr_right fun _ => ?_)
        constructor
        · intro hDescribed
          exact ⟨List.mem_cons_of_mem _ hDescribed.1, hDescribed.2⟩
        · intro hDescribed
          obtain ⟨hMem, hAlgorithm⟩ := hDescribed
          obtain hHere | hRest := List.mem_cons.mp hMem
          · obtain rfl := Object.dict.inj hHere
            exact absurd (Object.str.inj
              (Option.some.inj (hKey.algorithm.symm.trans hAlgorithm))) hSame
          · exact ⟨hRest, hAlgorithm⟩

end Tfws.Python
