import Tfws.Core.DataModel
import Tfws.Core.Limits
import Tfws.Core.Policy
import Tfws.Core.CratesModel
import Tfws.Crates.EncodedLength

/-! The manifest codec: what the encoder writes is the deterministic encoding
of the manifest's document, and the decoder gives the manifest back. -/
namespace Tfws

open SerdeJson Fallible Cbor

variable {crates : Crates} {limits : CborLimits}

theorem lookup_removeIf (key other : String) (absent : Bool) (entries : List (String × Value)) :
    SortedMap.lookup key (removeIf absent other entries) =
      if absent = true ∧ other = key then none else SortedMap.lookup key entries := by
  unfold removeIf
  cases absent <;> simp [SortedMap.lookup_erase]

theorem sorted_removeIf {entries : List (String × Value)} (h : SortedMap.Sorted entries)
    (absent : Bool) (key : String) : SortedMap.Sorted (removeIf absent key entries) := by
  unfold removeIf
  split_ifs
  · exact h.erase key
  · exact h

theorem mem_removeIf {entries : List (String × Value)} {absent : Bool} {key : String}
    {entry : String × Value} (h : entry ∈ removeIf absent key entries) : entry ∈ entries := by
  unfold removeIf at h
  split_ifs at h
  · exact List.mem_of_mem_filter h
  · exact h

/-- What is left of the derived operator object once an absent jurisdiction is removed
is the operator's document. -/
theorem Operator.document_of_none {operator : Operator} (h : operator.jurisdiction = none) :
    ∃ entries, operator.serialize = .object entries ∧
      .object (SortedMap.erase "jurisdiction" entries) = operator.document := by
  refine ⟨_, rfl, congrArg Value.object ?_⟩
  have hSorted : SortedMap.Sorted (SortedMap.insertAll [] [("name", Value.string operator.name),
      ("jurisdiction", optionValue operator.jurisdiction)]) :=
    SortedMap.Sorted.insertAll List.Pairwise.nil _
  refine (hSorted.erase "jurisdiction").eq_present (show Operator.fields.Nodup by decide) ?_ ?_
  · intro entry hMem
    have hEntry := SortedMap.mem_insertAll (List.mem_of_mem_filter hMem)
    rcases hEntry with hEntry | hEntry
    · cases hEntry
    · exact List.mem_map_of_mem hEntry
  · simp [record, h, SortedMap.lookup_erase, SortedMap.insertAll, SortedMap.lookup_insert,
      stringField]

/-- With a jurisdiction there is nothing to remove, and what serde writes is the
document. -/
theorem Operator.document_of_some {operator : Operator} (h : operator.jurisdiction.isNone = false) :
    operator.serialize = operator.document := by
  obtain ⟨name, jurisdiction⟩ := operator
  cases jurisdiction with
  | none => cases h
  | some jurisdiction => rfl

/-- The derived object of a manifest, before anything is removed from it: absent
options are null there. -/
def Manifest.root (manifest : Manifest) : List (String × Value) :=
  SortedMap.insertAll [] (manifest.record.map fun field =>
    (field.1, if field.1 = "operator" then manifest.operator.serialize
      else field.2.getD .null))

theorem Manifest.serialize_eq (manifest : Manifest) : manifest.serialize = .object manifest.root := by
  obtain ⟨_, _, _, _, _, _, _, _, identity, _, _, expiresAt⟩ := manifest
  cases identity <;> cases expiresAt <;> rfl

private theorem removed_getD {α : Type} (option : Option α) (code : α → Value) :
    (if option = none then none else some ((option.map code).getD .null)) = option.map code := by
  cases option <;> simp

/-- The root object once the absent options are removed from it and the operator has
been replaced by `operator`. It is the map of the manifest's record. -/
theorem Manifest.present_record (manifest : Manifest) {entries : List (String × Value)}
    (hSorted : SortedMap.Sorted entries)
    (hKnown : ∀ entry ∈ entries, entry.1 ∈ Manifest.fields)
    (hOperator : SortedMap.lookup "operator" entries = some manifest.operator.document)
    (hOthers : ∀ name, name ≠ "operator" → SortedMap.lookup name entries =
      SortedMap.lookup name (removeIf manifest.expiresAt.isNone "expires_at"
        (removeIf manifest.identity.isNone "identity" manifest.root))) :
    Value.object entries = manifest.document := by
  refine congrArg Value.object (hSorted.eq_present manifest.record_names hKnown ?_)
  simp [record, hOperator, hOthers, lookup_removeIf, root, SortedMap.insertAll,
    SortedMap.lookup_insert, stringField, removed_getD]

/-- Serialising the options and pruning the result leaves the document, whichever of
them are absent. -/
theorem Manifest.prune_serialize (manifest : Manifest) :
    removeJurisdiction manifest.operator.jurisdiction.isNone
        (removeIf manifest.expiresAt.isNone "expires_at"
          (removeIf manifest.identity.isNone "identity" manifest.root)) =
      .ok (SortedMap.present manifest.record) := by
  have hRoot : SortedMap.Sorted manifest.root := SortedMap.Sorted.insertAll List.Pairwise.nil _
  have hKnown : ∀ entry ∈ manifest.root, entry.1 ∈ Manifest.fields := by
    intro entry hMem
    rcases SortedMap.mem_insertAll hMem with hEntry | hEntry
    · cases hEntry
    · obtain ⟨field, hField, rfl⟩ := List.mem_map.mp hEntry
      have hName : field.1 ∈ manifest.record.map Prod.fst := List.mem_map_of_mem hField
      exact hName
  have hOperator : SortedMap.lookup "operator" manifest.root = some manifest.operator.serialize := by
    simp [root, record, SortedMap.insertAll, SortedMap.lookup_insert]
  generalize hPruned : removeIf manifest.expiresAt.isNone "expires_at"
    (removeIf manifest.identity.isNone "identity" manifest.root) = pruned
  have hSorted : SortedMap.Sorted pruned := by
    rw [← hPruned]
    exact sorted_removeIf (sorted_removeIf hRoot _ _) _ _
  have hPrunedKnown : ∀ entry ∈ pruned, entry.1 ∈ Manifest.fields := by
    rw [← hPruned]
    exact fun entry hMem => hKnown entry (mem_removeIf (mem_removeIf hMem))
  have hPrunedOperator : SortedMap.lookup "operator" pruned = some manifest.operator.serialize := by
    rw [← hPruned]
    simpa [lookup_removeIf] using hOperator
  cases hJurisdiction : manifest.operator.jurisdiction.isNone with
  | false =>
      rw [manifest.operator.document_of_some hJurisdiction] at hPrunedOperator
      have hDocument := manifest.present_record hSorted hPrunedKnown hPrunedOperator
        fun name _ => by rw [hPruned]
      rw [Value.object.inj hDocument]
      rfl
  | true =>
      obtain ⟨entries, hEntries, hErased⟩ :=
        manifest.operator.document_of_none (Option.isNone_iff_eq_none.mp hJurisdiction)
      have hRemoved : removeJurisdiction true pruned =
          .ok (SortedMap.insert "operator" manifest.operator.document pruned) := by
        simp [removeJurisdiction, hPrunedOperator, hEntries, hErased]
      have hDocument := manifest.present_record (hSorted.insert "operator" _)
        (fun entry hMem => by
          rcases SortedMap.mem_insert hMem with rfl | hMem
          · exact (by decide : "operator" ∈ Manifest.fields)
          · exact hPrunedKnown entry hMem)
        (by rw [SortedMap.lookup_insert, if_pos rfl])
        (fun name hName => by rw [SortedMap.lookup_insert, if_neg hName.symm, hPruned])
      rw [hRemoved, Value.object.inj hDocument]

/-- A manifest that the codec lets through: it passes the policy, and its
identity is an object. -/
structure Manifest.Lawful (crates : Crates) (manifest : Manifest) : Prop where
  valid : manifest.validate crates = .ok ()
  identity : requireIdentityObject manifest = .ok ()

/-- The document as a value with ordered objects, as the map type of serde keeps
them. -/
def Manifest.orderedDocument (manifest : Manifest) : OrderedValue :=
  ⟨manifest.document, manifest.document_ordered⟩

/-- There is a document exactly for a lawful manifest within the limits, and it is the
manifest's own. -/
theorem manifestToValue_eq_ok {manifest : Manifest} {value : Value} :
    manifestToValue crates manifest limits = .ok value ↔
      manifest.Lawful crates ∧ Admissible limits 0 manifest.document ∧
        value = manifest.document := by
  have hPrune := manifest.prune_serialize
  rw [manifestToValue, then_eq_ok, mapError_eq_ok, then_eq_ok, crates.serde.toValue_eq,
    manifest.serialize_eq, mapError_ok, ok_bind]
  simp only [hPrune, ok_bind]
  rw [then_eq_ok, validateValueProfile_eq_ok, Except.ok.injEq]
  constructor
  · rintro ⟨hValid, hIdentity, hAdmissible, rfl⟩
    exact ⟨⟨hValid, hIdentity⟩, hAdmissible, rfl⟩
  · rintro ⟨⟨hValid, hIdentity⟩, hAdmissible, rfl⟩
    exact ⟨hValid, hIdentity, hAdmissible, rfl⟩

/-- The encoder writes the document of a lawful manifest, within the limits, and
refuses every other manifest. -/
theorem encodeManifestCborWithLimits_eq_ok {manifest : Manifest} {octets : Bytes} :
    encodeManifestCborWithLimits crates manifest limits = .ok octets ↔
      manifest.Lawful crates ∧ Encodes limits manifest.orderedDocument octets := by
  rw [encodeManifestCborWithLimits, bind_eq_ok, encodes_iff]
  constructor
  · rintro ⟨value, hValue, hEncoded⟩
    obtain ⟨hLawful, hAdmissible, rfl⟩ := manifestToValue_eq_ok.mp hValue
    obtain ⟨encoded, hEncode, hLimit⟩ := bind_eq_ok.mp hEncoded
    obtain ⟨hShort, hOctets⟩ := then_eq_ok.mp hLimit
    obtain rfl := Except.ok.inj hOctets
    exact ⟨hLawful, not_lt.mp (failIf_eq_ok.mp hShort), hAdmissible,
      (encodeValueToVec_eq_ok.mp hEncode).2⟩
  · rintro ⟨hLawful, hShort, hAdmissible, hOctets⟩
    refine ⟨_, manifestToValue_eq_ok.mpr ⟨hLawful, hAdmissible, rfl⟩, ?_⟩
    have hEncode : encodeValueToVec crates limits manifest.document = .ok octets :=
      encodeValueToVec_eq_ok.mpr ⟨hAdmissible, hOctets⟩
    exact bind_eq_ok.mpr ⟨octets, hEncode, then_eq_ok.mpr ⟨failIf_of_not (not_lt.mpr hShort) _, rfl⟩⟩

/-- The typed layer accepts exactly what the derived reader reads as a lawful
manifest. -/
theorem manifestOfValue_eq_ok {value : Value} {manifest : Manifest} :
    manifestOfValue crates value = .ok manifest ↔
      Manifest.deserialize value = some manifest ∧ manifest.Lawful crates := by
  rw [manifestOfValue, bind_eq_ok]
  simp only [mapError_eq_ok, crates.serde.fromValue_eq_ok, then_eq_ok, Except.ok.injEq]
  constructor
  · rintro ⟨_, hRead, hIdentity, hValid, rfl⟩
    exact ⟨hRead, hValid, hIdentity⟩
  · rintro ⟨hRead, hLawful⟩
    exact ⟨manifest, hRead, hLawful.identity, hLawful.valid, rfl⟩

/-- What the decoder accepts: the deterministic encoding of a value that the derived
reader turns into a lawful manifest. -/
theorem decodeManifestCbor_eq_ok {input : Bytes} {manifest : Manifest} :
    decodeManifestCbor crates input limits = .ok manifest ↔
      ∃ value, Encodes limits value input ∧ Manifest.deserialize value.value = some manifest ∧
        manifest.Lawful crates := by
  rw [decodeManifestCbor, bind_eq_ok]
  simp only [decodeStructure_eq_ok, manifestOfValue_eq_ok]
  constructor
  · rintro ⟨_, ⟨value, rfl, hEncodes⟩, hManifest⟩
    exact ⟨value, hEncodes, hManifest⟩
  · rintro ⟨value, hEncodes, hManifest⟩
    exact ⟨_, ⟨value, rfl, hEncodes⟩, hManifest⟩

/-- The encoding of a lawful manifest's document is decoded to the manifest: half of
the round trip. -/
theorem Manifest.Lawful.decode_document {manifest : Manifest} {octets : Bytes}
    (hLawful : manifest.Lawful crates) (hEncodes : Encodes limits manifest.orderedDocument octets) :
    decodeManifestCbor crates octets limits = .ok manifest := by
  have hRead := (Manifest.deserialize_mapShaped ⟨hEncodes.admissible, manifest.document_ordered⟩
    manifest.document_mapShaped).mpr rfl
  exact decodeManifestCbor_eq_ok.mpr ⟨manifest.orderedDocument, hEncodes, hRead, hLawful⟩

/-- The round trip: whatever manifest the encoder accepts, the decoder returns the
same one from the octets, field by field. The limits are the same on both sides, but
otherwise any. -/
theorem decodeManifestCbor_encode (crates : Crates) (manifest : Manifest) (limits : CborLimits)
    (octets : Bytes) (h : encodeManifestCborWithLimits crates manifest limits = .ok octets) :
    decodeManifestCbor crates octets limits = .ok manifest := by
  obtain ⟨hLawful, hEncodes⟩ := encodeManifestCborWithLimits_eq_ok.mp h
  exact hLawful.decode_document hEncodes

theorem Manifest.valid_sample : Manifest.sample.Valid .model := validate_eq_ok.mp validate_sample

/-- The test vector is a lawful manifest: each condition is checked by evaluation. -/
theorem Manifest.lawful_sample : Manifest.sample.Lawful .model where
  valid := Manifest.validate_sample
  identity := by decide

/-- Limits that the test vector and its variants stay within, far below the default
ones. -/
def CborLimits.small : CborLimits where
  maxManifestBytes := 32768
  maxDepth := 8
  maxMapPairs := 16
  maxArrayItems := 16
  maxStringBytes := 1024

/-- An entry that a document within these limits may have, measured by its
encoding. -/
structure SmallEntry (entry : String × Value) : Prop where
  short : textLength entry.1 + entry.2.encodedLength ≤ 1024
  admissible : Admissible .small 1 entry.2

/-- An object of a few short fields is within the limits, which is shown without
computing its encoding. -/
theorem encodes_of_smallEntries {value : OrderedValue} {entries : List (String × Value)}
    (hValue : value.value = .object entries) (hCount : entries.length ≤ 16)
    (hEntries : ∀ entry ∈ entries, SmallEntry entry) (hLimits : CborLimits.small.AtMost limits) :
    Encodes limits value value.value.item.encode := by
  have hShort := Value.encodedLength_object_le fun entry hMem => (hEntries entry hMem).short
  have hBytes := UInt64.le_iff_toNat_le.mp hLimits.maxManifestBytes
  have hSmall : Admissible .small 0 (.object entries) := by
    apply Admissible.object (Nat.zero_le _) hCount
    · intro entry hMem
      have hEntry := (hEntries entry hMem).short
      rw [textLength] at hEntry
      have hKey : (Utf8.encode entry.1).length ≤ 1024 := by omega
      exact hKey
    · exact fun entry hMem => (hEntries entry hMem).admissible
  refine encodes_iff.mpr ⟨?_, ?_, rfl⟩
  · rw [Value.length_encode_item, hValue]
    refine le_trans ?_ hBytes
    have hTotal : 9 + entries.length * 1024 ≤ 32768 := by omega
    exact hShort.trans hTotal
  · rw [hValue]
    exact hSmall.mono hLimits

theorem Manifest.encodes_of_smallEntries {manifest : Manifest}
    (h : ∀ field ∈ manifest.record, ∀ value, field.2 = some value → SmallEntry (field.1, value))
    (hLimits : CborLimits.small.AtMost limits) :
    Encodes limits manifest.orderedDocument manifest.document.item.encode := by
  have hCount : (SortedMap.present manifest.record).length ≤ 12 :=
    SortedMap.length_present_le manifest.record
  refine Tfws.encodes_of_smallEntries rfl (hCount.trans (by decide)) ?_ hLimits
  intro entry hMem
  exact h _ ((SortedMap.mem_present manifest.record_names).mp hMem) _ rfl

theorem CborLimits.small_atMost_default : CborLimits.small.AtMost .default := by
  constructor <;> decide

theorem Manifest.encodedLength_sample : Manifest.sample.document.encodedLength ≤ 1024 := by
  decide +kernel

theorem Manifest.smallEntries_sample :
    ∀ field ∈ Manifest.sample.record, ∀ value, field.2 = some value →
      SmallEntry (field.1, value) := by
  have hAdmissible : Admissible .small 0 Manifest.sample.document :=
    validateValueProfile_eq_ok.mp (by decide +kernel)
  intro field hMem value hValue
  have hEntry : (field.1, value) ∈ SortedMap.present Manifest.sample.record := by
    rw [SortedMap.mem_present Manifest.sample.record_names, ← hValue]
    exact hMem
  exact ⟨(Value.encodedLength_field_le hEntry).trans encodedLength_sample, hAdmissible.of_object _ hEntry⟩

/-- The test vector with another operator, another identity and another time still has
short fields. -/
theorem Manifest.smallEntries_variant {operator : Operator} {identity : Option OrderedValue}
    {text : String} (hOperator : SmallEntry ("operator", operator.document))
    (hIdentity : ∀ value, identity.map OrderedValue.value = some value →
      SmallEntry ("identity", value))
    (hText : SmallEntry ("updated_at", .string text)) :
    ∀ field ∈ { Manifest.sample with
        operator := operator, identity := identity, updatedAt := text }.record,
      ∀ value, field.2 = some value → SmallEntry (field.1, value) := by
  have hSample := smallEntries_sample
  simp only [record, List.forall_mem_cons] at hSample ⊢
  obtain ⟨hVersion, hSubject, hEnvironment, -, hEpoch, hKeys, hPolicy, hCapabilities, -, hArtifacts,
    -, hRest⟩ := hSample
  refine ⟨hVersion, hSubject, hEnvironment, ?_, hEpoch, hKeys, hPolicy, hCapabilities, hIdentity,
    hArtifacts, ?_, hRest⟩
  · intro value hValue
    obtain rfl := Option.some.inj hValue
    exact hOperator
  · intro value hValue
    obtain rfl := Option.some.inj hValue
    exact hText

/-- What the test vector has in these places is short, by evaluation. -/
theorem smallEntry_operator : SmallEntry ("operator", Manifest.sample.operator.document) :=
  Manifest.smallEntries_sample ("operator", _) (by simp [Manifest.record]) _ rfl

theorem smallEntry_updatedAt : SmallEntry ("updated_at", .string Manifest.sample.updatedAt) :=
  Manifest.smallEntries_sample ("updated_at", _) (by simp [Manifest.record, stringField]) _ rfl

theorem Manifest.smallEntries_updated {text : String} (h : SmallEntry ("updated_at", .string text)) :
    ∀ field ∈ { Manifest.sample with updatedAt := text }.record, ∀ value, field.2 = some value →
      SmallEntry (field.1, value) := by
  refine smallEntries_variant smallEntry_operator ?_ h
  intro value hValue
  cases hValue

/-- The policy does not look at the time of the last change, so that any text may
stand there. -/
theorem Manifest.lawful_updated (text : String) :
    { Manifest.sample with updatedAt := text }.Lawful .model where
  valid := validate_eq_ok.mpr
    { valid_sample with
      numbers := numbers_of valid_sample.keyEpoch.2 fun _ hMem => absurd hMem (Option.not_mem_none _) }
  identity := rfl

theorem Manifest.encodes_sample :
    Encodes .default Manifest.sample.orderedDocument Manifest.sample.document.item.encode :=
  encodes_of_smallEntries smallEntries_sample CborLimits.small_atMost_default

/-- The round trip of the test vector, whose encoding is within the default limits. -/
theorem decodeManifestCbor_encode_sample :
    decodeManifestCbor .model Manifest.sample.document.item.encode .default = .ok .sample :=
  decodeManifestCbor_encode .model .sample .default _
    (encodeManifestCborWithLimits_eq_ok.mpr ⟨Manifest.lawful_sample, Manifest.encodes_sample⟩)

/-- The octets encode a value that is a map wherever a manifest has a struct. -/
def KeyedDocument (limits : CborLimits) (octets : Bytes) : Prop :=
  ∃ value, Encodes limits value octets ∧ mapShaped value.value = true

/-- An accepted document is what the encoder writes for its manifest exactly when
every struct in it is a map; of such documents there is only one. A document with a
list in place of a struct is accepted as well, but is not written again. -/
theorem encodeManifestCbor_decode (crates : Crates) (limits : CborLimits) (octets : Bytes)
    (manifest : Manifest) (h : decodeManifestCbor crates octets limits = .ok manifest) :
    (encodeManifestCborWithLimits crates manifest limits = .ok octets ↔
      KeyedDocument limits octets) ∧
    (KeyedDocument limits octets → ∀ other, KeyedDocument limits other →
      decodeManifestCbor crates other limits = .ok manifest → other = octets) := by
  have hDocument {input : Bytes} {value : OrderedValue} (hEncodes : Encodes limits value input)
      (hShape : mapShaped value.value = true)
      (hDecode : decodeManifestCbor crates input limits = .ok manifest) :
      value = manifest.orderedDocument ∧ manifest.Lawful crates := by
    obtain ⟨read, hRead, hManifest, hLawful⟩ := decodeManifestCbor_eq_ok.mp hDecode
    obtain rfl := hEncodes.value_unique crates hRead
    have hValue := (Manifest.deserialize_mapShaped ⟨hEncodes.admissible, value.ordered⟩ hShape).mp
      hManifest
    exact ⟨OrderedValue.ext hValue, hLawful⟩
  refine ⟨⟨fun hEncode => ?_, ?_⟩, ?_⟩
  · exact ⟨_, (encodeManifestCborWithLimits_eq_ok.mp hEncode).2, manifest.document_mapShaped⟩
  · rintro ⟨value, hEncodes, hShape⟩
    obtain ⟨rfl, hLawful⟩ := hDocument hEncodes hShape h
    exact encodeManifestCborWithLimits_eq_ok.mpr ⟨hLawful, hEncodes⟩
  · rintro ⟨value, hEncodes, hShape⟩ other ⟨otherValue, hOther, hOtherShape⟩ hDecode
    obtain ⟨rfl, _⟩ := hDocument hEncodes hShape h
    obtain ⟨rfl, _⟩ := hDocument hOther hOtherShape hDecode
    rw [hEncodes.deterministic.2.2, hOther.deterministic.2.2]

/-- The test vector with its operator written as a list, which serde reads as the
struct. -/
def positionalSample : OrderedValue where
  value := .object (SortedMap.insert "operator"
    (.array [.string "Example Organization", .string "DE"])
    (SortedMap.present Manifest.sample.record))
  ordered := by decide

/-- What the derived reader makes of it: the members of the list, in the order of the
fields. -/
def positionalManifest : Manifest :=
  { Manifest.sample with
    operator := { name := "Example Organization", jurisdiction := some "DE" } }

theorem encodes_positionalSample :
    Encodes .default positionalSample positionalSample.value.item.encode := by
  have hOperator : SmallEntry
      ("operator", .array [.string "Example Organization", .string "DE"]) :=
    ⟨by decide +kernel, validateValueProfile_eq_ok.mp (by decide +kernel)⟩
  have hCount : (SortedMap.present Manifest.sample.record).length + 1 ≤ 16 :=
    Nat.succ_le_succ (SortedMap.length_present_le Manifest.sample.record) |>.trans (by decide)
  refine encodes_of_smallEntries rfl ((SortedMap.length_insert_le _ _ _).trans hCount) ?_
    CborLimits.small_atMost_default
  intro entry hMem
  rcases SortedMap.mem_insert hMem with rfl | hMem
  · exact hOperator
  · exact Manifest.smallEntries_sample _
      ((SortedMap.mem_present Manifest.sample.record_names).mp hMem) _ rfl

theorem deserialize_positionalSample :
    Manifest.deserialize positionalSample.value = some positionalManifest := rfl

theorem lawful_positionalManifest : positionalManifest.Lawful .model where
  valid := Manifest.validate_eq_ok.mpr
    { Manifest.valid_sample with
      jurisdiction := by decide +kernel
      numbers := Manifest.numbers_of (by decide) fun _ hMem => absurd hMem (Option.not_mem_none _) }
  identity := by decide

theorem decode_positionalSample :
    decodeManifestCbor .model positionalSample.value.item.encode .default =
      .ok positionalManifest :=
  decodeManifestCbor_eq_ok.mpr ⟨_, encodes_positionalSample, deserialize_positionalSample,
    lawful_positionalManifest⟩

/-- The list-shaped operator is accepted, and encoding the manifest again does not
give the same octets: it writes a map. -/
theorem encodeManifestCbor_decode_positional :
    decodeManifestCbor .model positionalSample.value.item.encode .default =
      .ok positionalManifest ∧
    encodeManifestCborWithLimits .model positionalManifest .default ≠
      .ok positionalSample.value.item.encode := by
  refine ⟨decode_positionalSample, fun hEncode => ?_⟩
  obtain ⟨_, hEncodes⟩ := encodeManifestCborWithLimits_eq_ok.mp hEncode
  have hValue := hEncodes.value_unique .model encodes_positionalSample
  have hShape := positionalManifest.document_mapShaped
  rw [show positionalManifest.document = positionalSample.value from
    congrArg OrderedValue.value hValue] at hShape
  exact absurd hShape (by decide +kernel)

/-- The condition of `encodeManifestCbor_decode` met by the test vector, whose
operator is a map. -/
theorem encodeManifestCbor_decode_sample :
    encodeManifestCborWithLimits .model .sample .default =
      .ok Manifest.sample.document.item.encode :=
  (encodeManifestCbor_decode .model .default _ .sample
    (Manifest.lawful_sample.decode_document Manifest.encodes_sample)).1.mpr
    ⟨_, Manifest.encodes_sample, Manifest.sample.document_mapShaped⟩

end Tfws
