import Tfws.Agreement.PythonObjects

/-! `validate_manifest` on the dictionary of a document: it accepts exactly the
documents whose draft meets the common demands and its own. -/
namespace Tfws

open SerdeJson Fallible
open Python (Object Key Runtime)

variable {limits : CborLimits} {depth : Nat} {runtime : Runtime}

/-- The fields of a struct among known names, each with a value: what the derived
reader asks of a map. -/
theorem KeyDescriptor.deserialize_object {entries : List (String × Value)}
    (h : Decoded limits depth (.object entries)) {key : KeyDescriptor} :
    KeyDescriptor.deserialize (.object entries) = some key ↔
      (∀ entry ∈ entries, entry.1 ∈ KeyDescriptor.fields) ∧
        ∀ field ∈ key.record, SortedMap.lookup field.1 entries = field.2 := by
  have hNames : (key.record.map Prod.fst).Nodup := show KeyDescriptor.fields.Nodup by decide
  rw [KeyDescriptor.readsRecord.readsDocument h, document, Value.object.injEq,
    h.sorted.eq_present_iff hNames]
  rfl

theorem Artifact.deserialize_object {entries : List (String × Value)}
    (h : Decoded limits depth (.object entries)) {artifact : Artifact} :
    Artifact.deserialize (.object entries) = some artifact ↔
      (∀ entry ∈ entries, entry.1 ∈ Artifact.fields) ∧
        ∀ field ∈ artifact.record, SortedMap.lookup field.1 entries = field.2 := by
  have hNames : (artifact.record.map Prod.fst).Nodup := show Artifact.fields.Nodup by decide
  rw [Artifact.readsRecord.readsDocument h, document, Value.object.injEq,
    h.sorted.eq_present_iff hNames]
  rfl

/-- A key that the reference implementation accepts in the first place. -/
def KeyDescriptor.PythonValid (key : KeyDescriptor) : Prop :=
  key.Valid ∧ Python.stripIsEmpty key.keyId = false

theorem keyFields_mem {name : String} : name ∈ Python.keyFields ↔ name ∈ KeyDescriptor.fields := by
  simp only [Python.keyFields, KeyDescriptor.fields, List.mem_cons, List.not_mem_nil, or_false]
  tauto

/-- One descriptor passes exactly if it is read as a valid key, whose algorithm and
identifier have not come before. -/
theorem validateKeyDescriptor_eq_ok {entries : List (String × Value)}
    (h : Decoded limits depth (.object entries)) {seen : List String}
    {seenIds : List (String × String)} (hSeen : ∀ identity ∈ seenIds, identity.1 ∈ seen)
    {index : String} {identity : String × String} :
    Python.validateKeyDescriptor seen seenIds index (Object.ofEntries entries) = .ok identity ↔
      ∃ key, KeyDescriptor.deserialize (.object entries) = some key ∧ key.PythonValid ∧
        key.algorithm ∉ seen ∧ (key.algorithm, key.keyId) = identity := by
  have hSorted := h.sorted
  rw [Python.validateKeyDescriptor]
  simp only [bind_eq_ok, exists_const, failIf_eq_ok, getItem_ofEntries hSorted, Bool.not_eq_false,
    hasKeys_ofEntries hSorted, exists_exists_and_eq_and, textOr_ofValue, text?_ofValue,
    textList?_ofValue, isLowerHex_ofValue, not_or, not_not, ne_eq, Bool.not_eq_true]
  constructor
  · rintro ⟨⟨hKnown, _⟩, _, hAlgorithm, algorithm, rfl, ⟨hBaseline, hFresh⟩, _, hKeyId, keyId, rfl,
      hBlank, _, _, hUri, rfl, _, hSha256, ⟨sha256, rfl, hHex⟩, _, hStatus, _, hUsage, ⟨rfl, rfl⟩,
      hOk⟩
    obtain rfl := Except.ok.inj hOk
    refine ⟨⟨algorithm, keyId, "/.well-known/keys/" ++ algorithm ++ ".pem", sha256, "active",
        ["release"]⟩, (KeyDescriptor.deserialize_object h).mpr
        ⟨fun entry hMem => keyFields_mem.mp (hKnown entry hMem), ?_⟩,
      ⟨⟨hBaseline, trimIsEmpty_of_stripIsEmpty hBlank, rfl, rfl, hHex, rfl⟩, hBlank⟩, hFresh, rfl⟩
    simp [KeyDescriptor.record, stringField, hAlgorithm, hKeyId, hUri, hSha256, hStatus, hUsage]
  · rintro ⟨key, hKey, ⟨hValid, hBlank⟩, hFresh, rfl⟩
    obtain ⟨hKnown, hFields⟩ := (KeyDescriptor.deserialize_object h).mp hKey
    simp only [KeyDescriptor.record, stringField, List.forall_mem_cons] at hFields
    obtain ⟨hAlgorithm, hKeyId, hUri, hSha256, hStatus, hUsage, _⟩ := hFields
    refine ⟨⟨fun entry hMem => keyFields_mem.mpr (hKnown entry hMem), ?_⟩, _, hAlgorithm,
      key.algorithm, rfl, ⟨hValid.algorithm, hFresh⟩, _, hKeyId, key.keyId, rfl, hBlank,
      fun hMem => hFresh (hSeen _ hMem), _, hUri, congrArg Value.string hValid.publicKeyUri, _,
      hSha256, ⟨_, rfl, hValid.publicKeySha256⟩, _, hStatus, _, hUsage,
      ⟨congrArg Value.string hValid.status, congrArg stringsValue hValid.usage⟩, rfl⟩
    simp [Python.keyFields, hAlgorithm, hKeyId, hUri, hSha256, hStatus, hUsage]

/-- The members of a list of structs, every one of them a map. -/
structure ReadsMaps {α : Type} (read : Value → Option α) (items : List Value)
    (members : List α) : Prop where
  objects : ∀ item ∈ items, isObject item
  members : items.mapM read = some members

section ReadsMaps

variable {α : Type} {read : Value → Option α}

theorem readsMaps_nil {members : List α} : ReadsMaps read [] members ↔ members = [] :=
  ⟨fun h => (Option.some.inj h.members).symm, fun h => ⟨by simp, by rw [h]; rfl⟩⟩

/-- A list is read map by map, each by the reader of its struct. -/
theorem readsMaps_cons {item : Value} {items : List Value} {members : List α} :
    ReadsMaps read (item :: items) members ↔ ∃ member rest, isObject item ∧
      read item = some member ∧ ReadsMaps read items rest ∧ members = member :: rest := by
  constructor
  · rintro ⟨hObjects, hRead⟩
    obtain ⟨hItem, hItems⟩ := List.forall_mem_cons.mp hObjects
    rw [List.mapM_cons] at hRead
    obtain ⟨member, hMember, hRead⟩ := Option.bind_eq_some_iff.mp hRead
    obtain ⟨rest, hRest, hRead⟩ := Option.bind_eq_some_iff.mp hRead
    exact ⟨member, rest, hItem, hMember, ⟨hItems, hRest⟩, (Option.some.inj hRead).symm⟩
  · rintro ⟨member, rest, hItem, hMember, ⟨hItems, hRest⟩, rfl⟩
    refine ⟨List.forall_mem_cons.mpr ⟨hItem, hItems⟩, ?_⟩
    rw [List.mapM_cons, hMember, hRest]
    rfl

theorem ReadsMaps.length_eq {items : List Value} {members : List α}
    (h : ReadsMaps read items members) : members.length = items.length := by
  induction items generalizing members with
  | nil =>
      rw [readsMaps_nil.mp h]
      rfl
  | cons item items ih =>
      obtain ⟨member, rest, _, _, hRest, rfl⟩ := readsMaps_cons.mp h
      simp [ih hRest]

end ReadsMaps

/-- The loop over the descriptors passes exactly if they are read as valid keys
without repetition, those seen before included. -/
theorem validateKeyList_eq_ok {items : List Value}
    (h : ∀ item ∈ items, Decoded limits depth item) {seen : List String}
    {seenIds : List (String × String)} (hSeen : ∀ identity ∈ seenIds, identity.1 ∈ seen)
    {index : Nat} {result : List String} :
    Python.validateKeyList seen seenIds index (items.map Object.ofValue) = .ok result ↔
      ∃ keys, ReadsMaps KeyDescriptor.deserialize items keys ∧
        (∀ key ∈ keys, key.PythonValid ∧ key.algorithm ∉ seen) ∧
        (keys.map KeyDescriptor.algorithm).Nodup ∧
        result = (keys.map KeyDescriptor.algorithm).reverse ++ seen := by
  induction items generalizing seen seenIds index with
  | nil =>
      simp [Python.validateKeyList, readsMaps_nil, eq_comm]
  | cons item items ih =>
      obtain ⟨hItem, hItems⟩ := List.forall_mem_cons.mp h
      cases item with
      | object entries =>
          have hNext (algorithm keyId : String) :
              ∀ identity ∈ (algorithm, keyId) :: seenIds, identity.1 ∈ algorithm :: seen := by
            intro identity hMem
            rcases List.mem_cons.mp hMem with rfl | hMem
            · exact List.mem_cons_self ..
            · exact List.mem_cons_of_mem _ (hSeen identity hMem)
          rw [List.map_cons, Object.ofValue_object_eq, Python.validateKeyList]
          simp only [bind_eq_ok, Prod.exists, validateKeyDescriptor_eq_ok hItem hSeen,
            ih hItems (hNext _ _), readsMaps_cons]
          constructor
          · rintro ⟨_, _, ⟨key, hKey, hValid, hFresh, hIdentity⟩, rest, hRest, hRestValid, hNodup, rfl⟩
            cases hIdentity
            refine ⟨key :: rest, ⟨key, rest, rfl, hKey, hRest, rfl⟩, ?_, ?_, ?_⟩
            · refine List.forall_mem_cons.mpr ⟨⟨hValid, hFresh⟩, fun other hMem => ?_⟩
              exact ⟨(hRestValid other hMem).1, fun hOld =>
                (hRestValid other hMem).2 (List.mem_cons_of_mem _ hOld)⟩
            · rw [List.map_cons, List.nodup_cons]
              refine ⟨fun hMem => ?_, hNodup⟩
              obtain ⟨other, hOther, hEqual⟩ := List.mem_map.mp hMem
              exact (hRestValid other hOther).2 (hEqual ▸ List.mem_cons_self ..)
            · simp
          · rintro ⟨_, ⟨key, rest, _, hKey, hRest, rfl⟩, hAll, hNodup, rfl⟩
            obtain ⟨⟨hValid, hFresh⟩, hRestValid⟩ := List.forall_mem_cons.mp hAll
            rw [List.map_cons, List.nodup_cons] at hNodup
            refine ⟨_, _, ⟨key, hKey, hValid, hFresh, rfl⟩, rest, hRest, fun other hMem => ?_,
              hNodup.2, by simp⟩
            refine ⟨(hRestValid other hMem).1, fun hOld => ?_⟩
            rcases List.mem_cons.mp hOld with hEqual | hOld
            · exact hNodup.1 (hEqual ▸ List.mem_map_of_mem hMem)
            · exact (hRestValid other hMem).2 hOld
      | number number =>
          cases number <;>
            simp [Object.ofValue, Object.ofNumber, Python.validateKeyList, readsMaps_cons, isObject]
      | _ => simp [Object.ofValue, Python.validateKeyList, readsMaps_cons, isObject]

/-- Two different baseline keys are all of them, for there are two baseline
algorithms. -/
theorem baseline_complete {keys : List KeyDescriptor} (hLength : keys.length = 2)
    (hValid : ∀ key ∈ keys, key.Valid) (hNodup : (keys.map KeyDescriptor.algorithm).Nodup) :
    ∀ algorithm ∈ Python.baseline, algorithm ∈ keys.map KeyDescriptor.algorithm := by
  have hSubset : keys.map KeyDescriptor.algorithm ⊆ Python.baseline :=
    List.forall_mem_map.mpr fun key hMem => (hValid key hMem).algorithm
  have hPerm := (List.subperm_of_subset hNodup hSubset).perm_of_length_le
    (by rw [List.length_map, hLength]; decide)
  exact fun algorithm hMem => hPerm.mem_iff.mpr hMem

/-- The keys of a document that the reference implementation accepts: none in
development, or both of the baseline. -/
def PythonKeys (root : List (String × Value)) (keys : List KeyDescriptor) : Prop :=
  ∃ items, SortedMap.lookup "keys" root = some (.array items) ∧
    ReadsMaps KeyDescriptor.deserialize items keys ∧
    (keys = [] → SortedMap.lookup "environment" root = some (.string "development")) ∧
    (keys ≠ [] → keys.length = 2) ∧ (∀ key ∈ keys, key.PythonValid) ∧
    (keys.map KeyDescriptor.algorithm).Nodup

theorem bind_text?_ofValue {field : Option Value} {text : String} :
    (field.map Object.ofValue).bind Object.text? = some text ↔ field = some (.string text) := by
  cases field <;> simp

/-- The keys pass exactly if there are two valid ones for different algorithms, or
none in a development environment. -/
theorem validateKeyDescriptors_eq_ok {root : List (String × Value)}
    (h : Decoded limits depth (.object root)) :
    Python.validateKeyDescriptors true (Object.ofEntries root) = .ok () ↔
      ∃ keys, PythonKeys root keys := by
  rw [Python.validateKeyDescriptors, Object.get_ofEntries h.sorted, Object.get_ofEntries h.sorted]
  cases hLookup : SortedMap.lookup "keys" root with
  | none => simp [PythonKeys, hLookup]
  | some value =>
      cases value with
      | array items =>
          have hItems := (h.field hLookup).item
          have hNoIds : ∀ identity ∈ ([] : List (String × String)), identity.1 ∈ ([] : List String) :=
            by simp
          have hUnbound : (items.map Object.ofValue = [] ∧ true = true ∧
              ((SortedMap.lookup "environment" root).map Object.ofValue).bind Object.text? =
                some "development") ↔
              items = [] ∧ SortedMap.lookup "environment" root = some (.string "development") := by
            rw [List.map_eq_nil_iff, bind_text?_ofValue]
            simp
          rw [Option.map_some, Object.ofValue_array]
          dsimp only
          split_ifs with hCase
          · obtain ⟨rfl, hEnvironment⟩ := hUnbound.mp hCase
            exact ⟨fun _ => ⟨[], [], hLookup, ⟨by simp, rfl⟩, fun _ => hEnvironment, by simp,
              by simp, List.nodup_nil⟩, fun _ => rfl⟩
          · rw [hUnbound] at hCase
            simp only [bind_eq_ok, exists_const, failIf_eq_ok, not_not, ne_eq,
              validateKeyList_eq_ok hItems hNoIds, List.length_map, not_exists, not_and]
            constructor
            · rintro ⟨hLength, seen, ⟨keys, hKeys, hAll, hNodup, hSeen⟩, _⟩
              have hCount := hKeys.length_eq
              refine ⟨keys, items, hLookup, hKeys, fun hNil => ?_, fun _ => hCount.trans hLength,
                fun key hMem => (hAll key hMem).1, hNodup⟩
              rw [← hCount, hNil] at hLength
              cases hLength
            · rintro ⟨keys, items', hItems', hKeys, hNil, hTwo, hAll, hNodup⟩
              obtain rfl := Value.array.inj (Option.some.inj (hLookup.symm.trans hItems'))
              have hCount := hKeys.length_eq
              have hBound : keys ≠ [] := fun hEmpty => by
                rw [hEmpty] at hCount
                exact hCase ⟨List.length_eq_zero_iff.mp hCount.symm, hNil hEmpty⟩
              refine ⟨hCount.symm.trans (hTwo hBound), _, ⟨keys, hKeys, fun key hMem =>
                ⟨hAll key hMem, List.not_mem_nil⟩, hNodup, rfl⟩, fun algorithm hMem => ?_⟩
              simpa using baseline_complete (hTwo hBound) (fun key hKey => (hAll key hKey).1) hNodup
                algorithm hMem
      | number number =>
          cases number <;> simp [PythonKeys, hLookup, Object.ofValue, Object.ofNumber]
      | _ => simp [PythonKeys, hLookup, Object.ofValue]

/-- A value that is a map with known fields, and a fact about the fields. -/
def MapWith (names : List String) (fact : (String → Option Value) → Prop) (value : Value) : Prop :=
  ∃ entries, value = .object entries ∧ (∀ entry ∈ entries, entry.1 ∈ names) ∧
    fact fun name => SortedMap.lookup name entries

/-- The signature policy passes exactly if it is a map with the two fields, and these
name the baseline. -/
theorem validatePolicy_eq_ok {value : Value} (h : Decoded limits depth value) :
    Python.validatePolicy (Object.ofValue value) = .ok () ↔
      MapWith SignaturePolicy.fields (fun field =>
        field "policy_id" = some (.string baselinePolicy) ∧
        ∃ algorithms, field "required_algorithms" = some algorithms ∧
          ∃ items, (Object.ofValue algorithms).tuple = .ok items ∧
            items.mapM Object.text? = some baselineAlgorithms) value := by
  cases value with
  | object entries =>
      rw [Object.ofValue_object_eq, Python.validatePolicy]
      simp only [bind_eq_ok, exists_const, failIf_eq_ok, not_or, Bool.not_eq_false,
        hasKeys_ofEntries h.sorted, Object.get_ofEntries h.sorted, bind_text?_ofValue, not_not, ne_eq]
      constructor
      · rintro ⟨⟨⟨hKnown, hPresent⟩, hPolicyId⟩, items, hTuple, hTexts⟩
        obtain ⟨algorithms, hAlgorithms⟩ := hPresent "required_algorithms" (by simp)
        rw [hAlgorithms, Option.map_some, Option.getD_some] at hTuple
        exact ⟨entries, rfl, hKnown, hPolicyId, algorithms, hAlgorithms, items, hTuple, hTexts⟩
      · rintro ⟨_, hEntries, hKnown, hPolicyId, algorithms, hAlgorithms, items, hTuple, hTexts⟩
        cases hEntries
        dsimp only at hPolicyId hAlgorithms
        refine ⟨⟨⟨hKnown, ?_⟩, hPolicyId⟩, items, ?_, hTexts⟩
        · simp [hPolicyId, hAlgorithms]
        · rw [hAlgorithms, Option.map_some, Option.getD_some, hTuple]
  | number number =>
      cases number <;> simp [Object.ofValue, Object.ofNumber, Python.validatePolicy, MapWith]
  | _ => simp [Object.ofValue, Python.validatePolicy, MapWith]

theorem pairwise_strings_iff {texts : List String} :
    ((texts.map Value.string).Pairwise fun first second =>
      (Object.ofValue first).equal (Object.ofValue second) = false) ↔ texts.Nodup := by
  rw [List.pairwise_map]
  simp [equal_strings, List.Nodup]

/-- No item of the one list equals one of the other, where the first holds texts
alone. -/
theorem disjoint_strings_iff {texts : List String} {optional : List Value} :
    (((texts.map Value.string).map Object.ofValue).any fun item =>
        (optional.map Object.ofValue).any item.equal) = false ↔
      ∀ capability ∈ texts, Value.string capability ∉ optional := by
  simp only [List.any_eq_false, List.forall_mem_map, Bool.not_eq_true]
  refine forall₂_congr fun text _ => ⟨fun h hMem => ?_, fun h item hMem => ?_⟩
  · have hEqual := h _ hMem
    rw [equal_string_iff.mpr rfl] at hEqual
    cases hEqual
  · refine Bool.eq_false_iff.mpr fun hEqual => h ?_
    rwa [← equal_string_iff.mp hEqual]

/-- A required capability passes exactly if it is one of the known texts. -/
theorem known_capability_iff {value : Value} :
    (Python.knownRequiredCapabilities.all fun known =>
      (Object.ofValue value).text? ≠ some known) = false ↔
      ∃ text ∈ knownCapabilities, value = .string text := by
  simp only [List.all_eq_false, decide_eq_true_eq, not_not, ne_eq, text?_ofValue]
  rfl

/-- Two lists of capabilities pass exactly if the required ones are known texts,
neither list repeats itself, and they have nothing in common. -/
theorem validateCapabilityLists_eq_ok {required optional : List Value} :
    Python.validateCapabilityLists runtime (required.map Object.ofValue)
        (optional.map Object.ofValue) = .ok () ↔
      ∃ texts : List String, required = texts.map Value.string ∧ texts.Nodup ∧
        (∀ capability ∈ texts, capability ∈ knownCapabilities) ∧
        (∀ item ∈ optional, (Object.ofValue item).hashable) ∧
        (optional.Pairwise fun first second =>
          (Object.ofValue first).equal (Object.ofValue second) = false) ∧
        ∀ capability ∈ texts, Value.string capability ∉ optional := by
  rw [Python.validateCapabilityLists]
  simp only [bind_eq_ok, exists_const, failIf_eq_ok, setOf_eq_ok, Python.raiseIf_eq_ok, not_not, ne_eq,
    Bool.not_eq_true]
  constructor
  · rintro ⟨_, ⟨_, rfl⟩, hRequired, _, ⟨hHashable, rfl⟩, hOptional, hFree, hKnown⟩
    rw [length_distinct_iff] at hRequired hOptional
    rw [hRequired] at hKnown hFree
    rw [hOptional] at hFree
    have hTexts : ∀ item ∈ required, ∃ text, text ∈ knownCapabilities ∧ Value.string text = item := by
      intro item hMem
      have hItem := (List.filter_eq_nil_iff.mp hKnown) _ (List.mem_map_of_mem hMem)
      obtain ⟨text, hText, hEqual⟩ := known_capability_iff.mp (by simpa using hItem)
      exact ⟨text, hText, hEqual.symm⟩
    obtain ⟨texts, hAll, rfl⟩ := exists_map_eq hTexts
    rw [distinct_eq_iff, List.pairwise_map] at hRequired hOptional
    exact ⟨texts, rfl, pairwise_strings_iff.mp hRequired, hAll, List.forall_mem_map.mp hHashable, hOptional,
      disjoint_strings_iff.mp hFree⟩
  · rintro ⟨texts, rfl, hNodup, hKnown, hHashable, hDistinct, hFree⟩
    have hRequired : Object.distinct ((texts.map Value.string).map Object.ofValue) = _ :=
      distinct_eq_iff.mpr (List.pairwise_map.mpr (pairwise_strings_iff.mpr hNodup))
    have hOptional : Object.distinct (optional.map Object.ofValue) = _ :=
      distinct_eq_iff.mpr (List.pairwise_map.mpr hDistinct)
    refine ⟨_, ⟨?_, rfl⟩, length_distinct_iff.mpr hRequired, _,
      ⟨List.forall_mem_map.mpr hHashable, rfl⟩, length_distinct_iff.mpr hOptional, ?_, ?_⟩
    · simp [Object.ofValue, Object.hashable]
    · rw [hRequired, hOptional]
      exact disjoint_strings_iff.mpr hFree
    · rw [hRequired, List.filter_eq_nil_iff, List.forall_mem_map, List.forall_mem_map]
      intro text hMem
      rw [Bool.not_eq_true]
      exact known_capability_iff.mpr ⟨text, hKnown text hMem, rfl⟩

/-- The capabilities pass exactly if they are a map of two such lists. -/
theorem Python.validateCapabilities_eq_ok {value : Value} (h : Decoded limits depth value) :
    Python.validateCapabilities runtime (Object.ofValue value) = .ok () ↔
      MapWith Capabilities.fields (fun field =>
        ∃ required optional, field "required" = some (.array required) ∧
          field "optional" = some (.array optional) ∧
          Python.validateCapabilityLists runtime (required.map Object.ofValue)
            (optional.map Object.ofValue) = .ok ()) value := by
  cases value with
  | object entries =>
      rw [Object.ofValue_object_eq, Python.validateCapabilities]
      simp only [bind_eq_ok, exists_const, failIf_eq_ok, Bool.not_eq_false,
        hasKeys_ofEntries h.sorted, Object.get_ofEntries h.sorted]
      constructor
      · rintro ⟨⟨hKnown, hPresent⟩, hLists⟩
        obtain ⟨required, hRequired⟩ := hPresent "required" (by simp)
        obtain ⟨optional, hOptional⟩ := hPresent "optional" (by simp)
        rw [hRequired, hOptional, Option.map_some, Option.map_some] at hLists
        split at hLists
        · rename_i required' optional' hRequiredList hOptionalList
          obtain ⟨items, rfl, rfl⟩ := ofValue_eq_list (Option.some.inj hRequiredList)
          obtain ⟨items', rfl, rfl⟩ := ofValue_eq_list (Option.some.inj hOptionalList)
          exact ⟨entries, rfl, hKnown, items, items', hRequired, hOptional, hLists⟩
        · cases hLists
      · rintro ⟨_, hEntries, hKnown, required, optional, hRequired, hOptional, hLists⟩
        cases hEntries
        dsimp only at hRequired hOptional
        refine ⟨⟨hKnown, by simp [hRequired, hOptional]⟩, ?_⟩
        rw [hRequired, hOptional, Option.map_some, Option.map_some, Object.ofValue_array,
          Object.ofValue_array]
        exact hLists
  | number number =>
      cases number <;> simp [Object.ofValue, Object.ofNumber, Python.validateCapabilities, MapWith]
  | _ => simp [Object.ofValue, Python.validateCapabilities, MapWith]

/-- What is no text is never blank, since its representation is not. -/
theorem strIsBlank_ofValue {value : Value} :
    Python.strIsBlank (Object.ofValue value) = false ↔
      ∀ text, value = .string text → Python.stripIsEmpty text = false := by
  cases value with
  | number number => cases number <;> simp [Object.ofValue, Object.ofNumber, Python.strIsBlank]
  | _ => simp [Object.ofValue, Python.strIsBlank]

/-- A jurisdiction passes exactly if it is absent or a text of two capital letters for
Python. -/
theorem validJurisdiction_ofValue {field : Option Value} (hField : field ≠ some .null) :
    Python.validJurisdiction (field.map Object.ofValue) = true ↔
      ∃ jurisdiction, readOptionString field = some jurisdiction ∧
        ∀ code ∈ jurisdiction, code.toList.length = 2 ∧ Python.isAsciiUpper code := by
  cases field with
  | none => simp [Python.validJurisdiction, readOptionString]
  | some value =>
      cases value with
      | null => exact absurd rfl hField
      | number number =>
          cases number <;>
            simp [Python.validJurisdiction, readOptionString, Object.ofValue, Object.ofNumber]
      | _ => simp [Python.validJurisdiction, readOptionString, Object.ofValue]

/-- The operator passes exactly if it is a map with a name that is not blank and such
a jurisdiction. -/
theorem validateOperator_eq_ok {value : Value} (h : Decoded limits depth value) :
    Python.validateOperator (Object.ofValue value) = .ok () ↔
      MapWith Operator.fields (fun field =>
        (∃ name, field "name" = some name ∧
          ∀ text, name = .string text → Python.stripIsEmpty text = false) ∧
        ∃ jurisdiction, readOptionString (field "jurisdiction") = some jurisdiction ∧
          ∀ code ∈ jurisdiction, code.toList.length = 2 ∧ Python.isAsciiUpper code) value := by
  cases value with
  | object entries =>
      have hKnown : ((Object.ofEntries entries).any fun entry =>
          entry.1 ≠ .str "jurisdiction" && entry.1 ≠ .str "name") = false ↔
          ∀ entry ∈ entries, entry.1 ∈ Operator.fields := by
        rw [Object.ofEntries, List.any_map, List.any_eq_false]
        simp only [Function.comp_apply, Object.ofField, Operator.fields, List.mem_cons,
          List.not_mem_nil, or_false, (sortFields_perm entries).mem_iff]
        refine forall₂_congr fun entry _ => ?_
        simp only [ne_eq, Key.str.injEq, decide_not, Bool.and_eq_true, Bool.not_eq_true',
          decide_eq_false_iff_not, not_and, not_not]
        tauto
      have hName : Python.strIsBlank (((SortedMap.lookup "name" entries).map
            Object.ofValue).getD (.str "")) = false ↔
          ∃ name, SortedMap.lookup "name" entries = some name ∧
            ∀ text, name = .string text → Python.stripIsEmpty text = false := by
        cases SortedMap.lookup "name" entries with
        | none => simp [Python.strIsBlank, Python.stripIsEmpty]
        | some name => simp [strIsBlank_ofValue]
      have hJurisdiction := validJurisdiction_ofValue (h.field_ne_null "jurisdiction")
      rw [Object.ofValue_object_eq, Python.validateOperator]
      simp only [then_eq_ok, failIf_eq_ok, not_or, Bool.not_eq_true, Bool.not_eq_false, hKnown,
        Object.get_ofEntries h.sorted, hName, hJurisdiction, MapWith, Value.object.injEq,
        exists_eq_left', and_assoc]
  | number number =>
      cases number <;> simp [Object.ofValue, Object.ofNumber, Python.validateOperator, MapWith]
  | _ => simp [Object.ofValue, Python.validateOperator, MapWith]

/-- Only a text can be read as a time, whatever else the document has there. -/
theorem parseRfc3339_ofValue {value : Value} {instant : Int} :
    Python.parseRfc3339 runtime (Object.ofValue value) = .ok instant ↔
      ∃ text, value = .string text ∧ Python.parseRfc3339 runtime (.str text) = .ok instant := by
  cases value with
  | number number =>
      cases number <;> simp [Object.ofValue, Object.ofNumber, Python.parseRfc3339]
  | string text =>
      rw [Object.ofValue]
      simp
  | _ => simp [Object.ofValue, Python.parseRfc3339]

/-- An expiry passes exactly if it is absent or a later time. -/
theorem validateExpiry_eq_ok {field : Option Value} (hField : field ≠ some .null) {updated : Int} :
    Python.validateExpiry runtime updated (field.map Object.ofValue) = .ok () ↔
      ∃ expiresAt, readOptionString field = some expiresAt ∧ ∀ text ∈ expiresAt, ∃ expires,
        Python.parseRfc3339 runtime (.str text) = .ok expires ∧ updated < expires := by
  cases field with
  | none => simp [Python.validateExpiry, readOptionString]
  | some value =>
      rw [Option.map_some, Python.validateExpiry]
      simp only [bind_eq_ok, parseRfc3339_ofValue, failIf_eq_ok, not_le]
      cases value with
      | null => exact absurd rfl hField
      | _ => simp [readOptionString]

/-- The times pass exactly if the last change can be read and an expiry, if there is
one, comes after it. -/
theorem validateTimes_eq_ok {root : List (String × Value)}
    (h : Decoded limits depth (.object root)) :
    Python.validateTimes runtime (Object.ofEntries root) = .ok () ↔
      ∃ updatedAt expiresAt, SortedMap.lookup "updated_at" root = some (.string updatedAt) ∧
        readOptionString (SortedMap.lookup "expires_at" root) = some expiresAt ∧
        ∃ updated, Python.parseRfc3339 runtime (.str updatedAt) = .ok updated ∧
          ∀ text ∈ expiresAt, ∃ expires,
            Python.parseRfc3339 runtime (.str text) = .ok expires ∧ updated < expires := by
  rw [Python.validateTimes]
  simp only [bind_eq_ok, getItem_ofEntries h.sorted, exists_exists_and_eq_and,
    parseRfc3339_ofValue, Object.get_ofEntries h.sorted,
    validateExpiry_eq_ok (h.field_ne_null "expires_at")]
  constructor
  · rintro ⟨updatedAt, hUpdatedAt, updated, ⟨text, rfl, hUpdated⟩, expiresAt, hExpiresAt, hExpires⟩
    exact ⟨text, expiresAt, hUpdatedAt, hExpiresAt, updated, hUpdated, hExpires⟩
  · rintro ⟨text, expiresAt, hUpdatedAt, hExpiresAt, updated, hUpdated, hExpires⟩
    exact ⟨_, hUpdatedAt, updated, ⟨text, rfl, hUpdated⟩, expiresAt, hExpiresAt, hExpires⟩

/-- What both implementations demand of an artifact, and that it has a URI. -/
def Artifact.PythonValid (artifact : Artifact) : Prop :=
  artifact.uri ≠ "" ∧ artifact.mediaType ≠ "" ∧ isLowerHex artifact.sha512 128

theorem artifactFields_mem {name : String} :
    name ∈ ["media_type", "sha512", "uri"] ↔ name ∈ Artifact.fields := by
  simp only [Artifact.fields, List.mem_cons, List.not_mem_nil, or_false]
  tauto

/-- An artifact passes exactly if it is read as one whose fields pass. -/
theorem validateArtifact_eq_ok {entries : List (String × Value)}
    (h : Decoded limits depth (.object entries)) {index : String} :
    Python.validateArtifact index (Object.ofEntries entries) = .ok () ↔
      ∃ artifact, Artifact.deserialize (.object entries) = some artifact ∧
        artifact.PythonValid := by
  rw [Python.validateArtifact]
  simp only [bind_eq_ok, exists_const, failIf_eq_ok, Bool.not_eq_false, hasKeys_ofEntries h.sorted,
    getItem_ofEntries h.sorted, exists_exists_and_eq_and, isNonemptyText_ofValue,
    isLowerHex_ofValue]
  constructor
  · rintro ⟨⟨hKnown, _⟩, _, hUri, ⟨uri, rfl, hUriText⟩, _, hMediaType, ⟨mediaType, rfl, hMediaText⟩,
      _, hSha512, sha512, rfl, hHex⟩
    refine ⟨⟨uri, mediaType, sha512⟩, (Artifact.deserialize_object h).mpr ⟨fun entry hMem => ?_, ?_⟩,
      hUriText, hMediaText, hHex⟩
    · exact artifactFields_mem.mp (hKnown entry hMem)
    · simp [Artifact.record, stringField, hUri, hMediaType, hSha512]
  · rintro ⟨artifact, hArtifact, hUriText, hMediaText, hHex⟩
    obtain ⟨hKnown, hFields⟩ := (Artifact.deserialize_object h).mp hArtifact
    simp only [Artifact.record, stringField, List.forall_mem_cons] at hFields
    obtain ⟨hUri, hMediaType, hSha512, _⟩ := hFields
    refine ⟨⟨fun entry hMem => artifactFields_mem.mpr (hKnown entry hMem), ?_⟩, _, hUri,
      ⟨_, rfl, hUriText⟩, _, hMediaType, ⟨_, rfl, hMediaText⟩, _, hSha512, _, rfl, hHex⟩
    simp [hUri, hMediaType, hSha512]

/-- So does the list of them, by induction, with the index of the messages general. -/
theorem Python.validateArtifacts_eq_ok {items : List Value}
    (h : ∀ item ∈ items, Decoded limits depth item) {index : Nat} :
    Python.validateArtifacts index (items.map Object.ofValue) = .ok () ↔
      ∃ artifacts, ReadsMaps Artifact.deserialize items artifacts ∧
        ∀ artifact ∈ artifacts, artifact.PythonValid := by
  induction items generalizing index with
  | nil => simp [Python.validateArtifacts, readsMaps_nil]
  | cons item items ih =>
      obtain ⟨hItem, hItems⟩ := List.forall_mem_cons.mp h
      cases item with
      | object entries =>
          rw [List.map_cons, Object.ofValue_object_eq, Python.validateArtifacts, then_eq_ok,
            validateArtifact_eq_ok hItem, ih hItems]
          simp only [readsMaps_cons]
          constructor
          · rintro ⟨⟨artifact, hArtifact, hValid⟩, rest, hRest, hRestValid⟩
            exact ⟨artifact :: rest, ⟨artifact, rest, rfl, hArtifact, hRest, rfl⟩,
              List.forall_mem_cons.mpr ⟨hValid, hRestValid⟩⟩
          · rintro ⟨_, ⟨artifact, rest, _, hArtifact, hRest, rfl⟩, hAll⟩
            obtain ⟨hValid, hRestValid⟩ := List.forall_mem_cons.mp hAll
            exact ⟨⟨artifact, hArtifact, hValid⟩, rest, hRest, hRestValid⟩
      | number number =>
          cases number <;>
            simp [Object.ofValue, Object.ofNumber, Python.validateArtifacts, readsMaps_cons, isObject]
      | _ => simp [Object.ofValue, Python.validateArtifacts, readsMaps_cons, isObject]

/-- What `validate_manifest` demands of the fields of a document, condition by
condition. -/
structure PythonPolicy (runtime : Runtime) (root : List (String × Value)) : Prop where
  known : ∀ entry ∈ root, entry.1 ∈ Manifest.fields
  version : SortedMap.lookup "tfws_version" root = some (.string "3.0")
  subject : ∃ text, SortedMap.lookup "subject" root = some (.string text) ∧
    ∃ parsed, runtime.urlparse text = .ok parsed ∧ parsed.isHttpsOrigin
  environment : ∃ name ∈ ["development", "staging", "production"],
    SortedMap.lookup "environment" root = some (.string name)
  keyEpoch : ∃ n : UInt64, SortedMap.lookup "key_epoch" root = some (.number (Number.ofU64 n)) ∧
    n ≠ 0 ∧ n.toNat ≤ maxSafeInteger
  policy : ∃ value, SortedMap.lookup "signature_policy" root = some value ∧
    Python.validatePolicy (Object.ofValue value) = .ok ()
  keys : ∃ keys, PythonKeys root keys
  capabilities : ∃ value, SortedMap.lookup "capabilities" root = some value ∧
    Python.validateCapabilities runtime (Object.ofValue value) = .ok ()
  times : Python.validateTimes runtime (Object.ofEntries root) = .ok ()
  operator : ∃ value, SortedMap.lookup "operator" root = some value ∧
    Python.validateOperator (Object.ofValue value) = .ok ()
  artifacts : ∃ items, SortedMap.lookup "artifacts" root = some (.array items) ∧
    Python.validateArtifacts 0 (items.map Object.ofValue) = .ok ()

/-- The subject passes exactly if it is a text that Python parses as an HTTPS
origin. -/
theorem urlparse_ofValue {value : Value} :
    (∃ parsed, Python.urlparse runtime (Object.ofValue value) = .ok parsed ∧
      parsed.isHttpsOrigin) ↔
      ∃ text, value = .string text ∧ ∃ parsed, runtime.urlparse text = .ok parsed ∧
        parsed.isHttpsOrigin := by
  cases value with
  | string text =>
      simp [Object.ofValue, Python.urlparse, mapError_eq_ok]
  | number number =>
      cases number <;> simp [Object.ofValue, Object.ofNumber, Python.urlparse, bind_eq_ok,
        Python.ParseResult.isHttpsOrigin]
  | _ =>
      simp [Object.ofValue, Python.urlparse, bind_eq_ok, Python.ParseResult.isHttpsOrigin]

/-- The environment passes exactly if it is one of three texts. It must be hashable
before it can be looked for. -/
theorem environment_ofValue {value : Value} :
    (Object.ofValue value).hashable = true ∧
        (["development", "staging", "production"].all fun name =>
          (Object.ofValue value).text? ≠ some name) = false ↔
      ∃ name ∈ ["development", "staging", "production"], value = .string name := by
  simp only [List.all_eq_false, decide_eq_true_eq, not_not, ne_eq, text?_ofValue]
  refine ⟨fun h => h.2, fun h => ⟨?_, h⟩⟩
  obtain ⟨name, _, rfl⟩ := h
  simp [Object.ofValue, Object.hashable]

/-- The key epoch passes exactly if it is a positive integer in the safe range, and no
truth value. -/
theorem validKeyEpoch_ofValue {value : Value} :
    Python.validKeyEpoch (Object.ofValue value) = true ↔
      ∃ n : UInt64, value = .number (Number.ofU64 n) ∧ n ≠ 0 ∧ n.toNat ≤ maxSafeInteger := by
  cases value with
  | number number =>
      cases number with
      | posInt n =>
          have hZero : n ≠ 0 ↔ 1 ≤ n.toNat := by
            rw [ne_eq, ← UInt64.toNat_inj]
            exact Nat.pos_iff_ne_zero.symm
          simp only [Object.ofValue, Object.ofNumber, Python.validKeyEpoch, Bool.and_eq_true,
            decide_eq_true_eq, Value.number.injEq, Number.ofU64, Number.posInt.injEq,
            exists_eq_left', hZero]
          rw [show Python.maxSafeInteger = maxSafeInteger from rfl]
          omega
      | negInt n =>
          have hSign : n.1.toInt < 0 := by simpa using Int64.lt_iff_toInt_lt.mp n.2
          simp only [Object.ofValue, Object.ofNumber, Python.validKeyEpoch, Bool.and_eq_true,
            decide_eq_true_eq, Value.number.injEq, Number.ofU64, reduceCtorEq, false_and,
            exists_false, iff_false]
          omega
      | float bits => simp [Object.ofValue, Object.ofNumber, Python.validKeyEpoch, Number.ofU64]
  | _ => simp [Object.ofValue, Python.validKeyEpoch]

/-- No required field is missing exactly if the document has them all. -/
theorem missing_eq_nil {root : List (String × Value)} (h : SortedMap.Sorted root) :
    (Python.requiredFields.filter fun name =>
        !Object.contains (.str name) (Object.ofEntries root)) = [] ↔
      ∀ name ∈ Python.requiredFields, ∃ value, SortedMap.lookup name root = some value := by
  rw [List.filter_eq_nil_iff]
  refine forall₂_congr fun name _ => ?_
  rw [Bool.not_eq_true', Bool.not_eq_false, Object.contains_ofEntries]
  exact exists_congr fun value => ⟨h.lookup_of_mem, SortedMap.mem_of_lookup⟩

/-- No field is unknown exactly if all are among the names of the struct. -/
theorem unknown_eq_nil {root : List (String × Value)} :
    (((Object.ofEntries root).map Prod.fst).filter fun key =>
        ("expires_at" :: "identity" :: Python.requiredFields).all fun name => key ≠ .str name) = [] ↔
      ∀ entry ∈ root, entry.1 ∈ Manifest.fields := by
  rw [List.filter_eq_nil_iff, List.forall_mem_map, Object.ofEntries, List.forall_mem_map]
  simp only [(sortFields_perm root).mem_iff, Object.ofField, Bool.not_eq_true, List.all_eq_false,
    decide_eq_true_eq, not_not, ne_eq, Key.str.injEq, exists_eq_right']
  refine forall₂_congr fun entry _ => ?_
  simp only [Python.requiredFields, Manifest.fields, List.mem_cons, List.not_mem_nil, or_false]
  tauto

/-- `validate_manifest` accepts the dictionary of a document exactly if the document
meets the policy, check by check. -/
theorem validateManifest_eq_ok {root : List (String × Value)}
    (h : Decoded limits depth (.object root)) :
    Python.validateManifest runtime true true (Object.ofEntries root) = .ok () ↔
      PythonPolicy runtime root := by
  have hSorted := h.sorted
  rw [Python.validateManifest]
  simp only [bind_eq_ok, failIf_eq_ok, Python.raiseIf_eq_ok, not_ne_iff, Unique.exists_iff,
    missing_eq_nil hSorted, unknown_eq_nil, getItem_ofEntries hSorted, exists_exists_and_eq_and,
    text?_ofValue, Bool.not_eq_false, Bool.not_eq_true, validKeyEpoch_ofValue, Bool.true_eq_false,
    false_and, not_false_eq_true, true_and]
  constructor
  · rintro ⟨_, hKnown, _, hVersion, rfl, subject, hSubject, parsed, hParsed, hOrigin, environment,
      hEnvironment, hHashable, hNames, keyEpoch, hKeyEpoch, ⟨n, rfl, hRange⟩, policy, hPolicy,
      hPolicyOk, hKeys, capabilities, hCapabilities, hCapabilitiesOk, hTimes, operator, hOperator,
      hOperatorOk, artifacts, hArtifacts, hArtifactsOk⟩
    obtain ⟨text, rfl, hText⟩ := urlparse_ofValue.mp ⟨parsed, hParsed, hOrigin⟩
    obtain ⟨name, hName, rfl⟩ := environment_ofValue.mp ⟨hHashable, hNames⟩
    split at hArtifactsOk
    case h_2 => simp at hArtifactsOk
    case h_1 objects hObjects =>
      obtain ⟨items, rfl, rfl⟩ := ofValue_eq_list hObjects
      exact {
        known := hKnown
        version := hVersion
        subject := ⟨text, hSubject, hText⟩
        environment := ⟨name, hName, hEnvironment⟩
        keyEpoch := ⟨n, hKeyEpoch, hRange⟩
        policy := ⟨policy, hPolicy, hPolicyOk⟩
        keys := (validateKeyDescriptors_eq_ok h).mp hKeys
        capabilities := ⟨capabilities, hCapabilities, hCapabilitiesOk⟩
        times := hTimes
        operator := ⟨operator, hOperator, hOperatorOk⟩
        artifacts := ⟨items, hArtifacts, hArtifactsOk⟩ }
  · intro hPolicy
    obtain ⟨text, hSubject, hText⟩ := hPolicy.subject
    obtain ⟨parsed, hParsed, hOrigin⟩ := urlparse_ofValue.mpr ⟨text, rfl, hText⟩
    obtain ⟨name, hName, hEnvironment⟩ := hPolicy.environment
    obtain ⟨hHashable, hNames⟩ := environment_ofValue.mpr ⟨name, hName, rfl⟩
    obtain ⟨n, hKeyEpoch, hRange⟩ := hPolicy.keyEpoch
    obtain ⟨policy, hSignaturePolicy, hPolicyOk⟩ := hPolicy.policy
    obtain ⟨capabilities, hCapabilities, hCapabilitiesOk⟩ := hPolicy.capabilities
    obtain ⟨operator, hOperator, hOperatorOk⟩ := hPolicy.operator
    obtain ⟨items, hArtifacts, hArtifactsOk⟩ := hPolicy.artifacts
    have hKeys := (validateKeyDescriptors_eq_ok h).mpr hPolicy.keys
    obtain ⟨_, _, hKeysField, _⟩ := hPolicy.keys
    obtain ⟨_, _, hUpdatedAt, _⟩ := (validateTimes_eq_ok h).mp hPolicy.times
    refine ⟨?_, hPolicy.known, _, hPolicy.version, rfl, _, hSubject, parsed, hParsed, hOrigin, _,
      hEnvironment, hHashable, hNames, _, hKeyEpoch, ⟨n, rfl, hRange⟩, policy, hSignaturePolicy,
      hPolicyOk, hKeys, capabilities, hCapabilities, hCapabilitiesOk, hPolicy.times, operator,
      hOperator, hOperatorOk, _, hArtifacts, ?_⟩
    · simp [Python.requiredFields, hPolicy.version, hSubject, hEnvironment, hKeyEpoch,
        hSignaturePolicy, hKeysField, hCapabilities, hUpdatedAt, hOperator, hArtifacts]
    · rw [Object.ofValue_array]
      exact hArtifactsOk

end Tfws
