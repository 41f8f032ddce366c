import Tfws.Core.CborManifest
import Tfws.Core.DataModel
import Tfws.Core.Policy
import Tfws.Crates.SerdeJcs

/-! The two encodings of a manifest in `tfws-core`: the canonical JSON text that
is signed, and the CBOR document. Only the second leaves absent options out. -/
namespace Tfws

open SerdeJson Fallible

/-- `serde_jcs::to_vec` at the manifest, as released: the text of RFC 8785 of
what the derived code makes of it. Of numbers out of the profile nothing is
assumed. -/
structure SerdeJcs where
  toVec : Manifest → Except String Bytes
  toVec_eq : ∀ manifest text, validateJsonNumberProfile manifest.serialize = .ok () →
    manifest.serialize.toJcs = some text → toVec manifest = .ok text

/-- `Manifest::canonical_bytes`: a valid manifest as the derived code serialises it,
options without a value included, in canonical JSON. -/
def Manifest.canonicalBytes (crates : Crates) (jcs : SerdeJcs) (manifest : Manifest) :
    Except Error Bytes := do
  manifest.validate crates
  (jcs.toVec manifest).mapError .canonicalization

/-- The manifest has every field that it may leave out, so that nothing is written as
null. -/
structure Manifest.Complete (manifest : Manifest) : Prop where
  identity : manifest.identity.isSome = true
  expiresAt : manifest.expiresAt.isSome = true
  jurisdiction : manifest.operator.jurisdiction.isSome = true

section Encodings

variable {crates : Crates} {jcs : SerdeJcs} {manifest : Manifest}

/-- There is a canonical text exactly for a valid manifest that holds no float, and it
is the one of what the derived code serialises. -/
theorem Manifest.canonicalBytes_eq_ok {text : Bytes} :
    manifest.canonicalBytes crates jcs = .ok text ↔
      manifest.validate crates = .ok () ∧ manifest.serialize.toJcs = some text := by
  rw [canonicalBytes, then_eq_ok, mapError_eq_ok]
  apply and_congr_right
  intro hValid
  have hNumbers := (Manifest.validate_eq_ok.mp hValid).numbers
  obtain ⟨json, hJson⟩ := exists_json_of_numbers hNumbers
  obtain ⟨written, hWritten⟩ : ∃ written, manifest.serialize.toJcs = some written :=
    ⟨_, congrArg (Option.map _) hJson⟩
  rw [jcs.toVec_eq manifest written hNumbers hWritten, hWritten, Except.ok.injEq,
    Option.some.injEq]

theorem nullFree_lookup {entries : List (String × Value)} {name : String} {value : Value}
    (h : nullFree (.object entries) = true) (hValue : SortedMap.lookup name entries = some value) :
    nullFree value = true :=
  nullFree_object.mp h _ (SortedMap.mem_of_lookup hValue)

theorem isSome_of_nullFree {α : Type} {option : Option α} {code : α → Value}
    (h : nullFree ((option.map code).getD .null) = true) : option.isSome = true := by
  cases option with
  | some _ => rfl
  | none => simp [nullFree] at h

/-- What the derived code makes of a manifest is free of nulls only if the manifest is
complete: every absent option leaves one. -/
theorem Manifest.complete_of_nullFree (h : nullFree manifest.serialize = true) :
    manifest.Complete := by
  rw [manifest.serialize_eq] at h
  have hIdentity : SortedMap.lookup "identity" manifest.root =
      some ((manifest.identity.map OrderedValue.value).getD .null) := by
    simp [root, record, SortedMap.insertAll, SortedMap.lookup_insert]
  have hExpiresAt : SortedMap.lookup "expires_at" manifest.root =
      some ((manifest.expiresAt.map Value.string).getD .null) := by
    simp [root, record, SortedMap.insertAll, SortedMap.lookup_insert]
  have hOperator : SortedMap.lookup "operator" manifest.root =
      some manifest.operator.serialize := by
    simp [root, record, SortedMap.insertAll, SortedMap.lookup_insert]
  have hFields := nullFree_lookup h hOperator
  have hJurisdiction : SortedMap.lookup "jurisdiction" (SortedMap.insertAll []
      [("name", Value.string manifest.operator.name),
        ("jurisdiction", optionValue manifest.operator.jurisdiction)]) =
      some ((manifest.operator.jurisdiction.map Value.string).getD .null) := by
    cases manifest.operator.jurisdiction <;>
      simp [optionValue, SortedMap.insertAll, SortedMap.lookup_insert]
  exact ⟨isSome_of_nullFree (nullFree_lookup h hIdentity),
    isSome_of_nullFree (nullFree_lookup h hExpiresAt),
    isSome_of_nullFree (nullFree_lookup hFields hJurisdiction)⟩

/-- Of a complete manifest the derived code makes the document, with nothing left to
remove. -/
theorem Manifest.Complete.serialize_eq (h : manifest.Complete) :
    manifest.serialize = manifest.document := by
  have hOperator := manifest.operator.document_of_some
    (by rw [← Option.not_isSome, h.jurisdiction]; rfl)
  obtain ⟨identity, hIdentity⟩ := Option.isSome_iff_exists.mp h.identity
  obtain ⟨expiresAt, hExpiresAt⟩ := Option.isSome_iff_exists.mp h.expiresAt
  rw [manifest.serialize_eq, document, root, SortedMap.present]
  simp [record, stringField, hOperator, hIdentity, hExpiresAt]

theorem Operator.serialize_ordered (operator : Operator) : operator.serialize.ordered = true := by
  apply Value.ordered_object.mpr
  refine ⟨SortedMap.Sorted.insertAll List.Pairwise.nil _, ?_⟩
  intro entry hEntry
  rcases SortedMap.mem_insertAll hEntry with hNone | hEntry
  · cases hNone
  · cases hJurisdiction : operator.jurisdiction <;> rw [hJurisdiction] at hEntry <;>
      simp only [optionValue, List.mem_cons, List.not_mem_nil, or_false] at hEntry <;>
      rcases hEntry with rfl | rfl <;> simp [Value.ordered]

theorem Manifest.serialize_ordered (manifest : Manifest) : manifest.serialize.ordered = true := by
  have hDocument := (Value.ordered_object.mp manifest.document_ordered).2
  rw [manifest.serialize_eq, Value.ordered_object]
  refine ⟨SortedMap.Sorted.insertAll List.Pairwise.nil _, ?_⟩
  intro entry hEntry
  rcases SortedMap.mem_insertAll hEntry with hNone | hEntry
  · cases hNone
  · obtain ⟨field, hField, rfl⟩ := List.mem_map.mp hEntry
    obtain ⟨name, value⟩ := field
    by_cases hOperator : name = "operator"
    · simpa [hOperator] using manifest.operator.serialize_ordered
    · cases value with
      | none => simp [hOperator, Value.ordered]
      | some value =>
          have hIn := (SortedMap.mem_present manifest.record_names).mpr hField
          simpa [hOperator] using hDocument _ hIn

/-- The text and the octets hold the same value, and it is free of nulls. -/
def SameAbstractValue (crates : Crates) (text octets : Bytes) : Prop :=
  ∃ value, Value.ofText text = some value ∧
    decodeValue crates .default 0 octets = .ok (value, []) ∧ nullFree value = true

/-- If the two encodings hold the same value, the text has no null in it, for the
document has none. -/
theorem SameAbstractValue.complete {text octets : Bytes}
    (h : SameAbstractValue crates text octets)
    (hText : manifest.canonicalBytes crates jcs = .ok text) : manifest.Complete := by
  obtain ⟨value, hValue, -, hNulls⟩ := h
  obtain ⟨-, hJcs⟩ := Manifest.canonicalBytes_eq_ok.mp hText
  have hRead := Value.ofText_toJcs manifest.serialize_ordered hJcs
  obtain rfl := Option.some.inj (hRead.symm.trans hValue)
  exact manifest.complete_of_nullFree hNulls

/-- The canonical text and the CBOR document of a manifest hold the same value exactly
when the manifest leaves no option out. Otherwise what is signed as text says null
where the document says nothing. -/
theorem canonicalBytes_sameValue_iff (crates : Crates) (jcs : SerdeJcs) (manifest : Manifest)
    (text octets : Bytes) (hText : manifest.canonicalBytes crates jcs = .ok text)
    (hOctets : encodeManifestCbor crates manifest = .ok octets) :
    SameAbstractValue crates text octets ↔ manifest.Complete := by
  constructor
  · intro hSame
    exact hSame.complete hText
  · intro hComplete
    obtain ⟨-, hJcs⟩ := Manifest.canonicalBytes_eq_ok.mp hText
    obtain ⟨-, hEncodes⟩ := encodeManifestCborWithLimits_eq_ok.mp hOctets
    have hRead := Value.ofText_toJcs manifest.serialize_ordered hJcs
    rw [hComplete.serialize_eq] at hRead
    have hNulls := (inDataModel_iff.mp (admissible_iff.mp hEncodes.admissible).2).1
    exact ⟨manifest.document, hRead, hEncodes.decodeValue_eq, hNulls⟩

end Encodings

/-- The derived code followed by the scheme of RFC 8785, which the crate is assumed to
implement. -/
def SerdeJcs.model : SerdeJcs where
  toVec manifest :=
    match manifest.serialize.toJcs with
    | some text => .ok text
    | none => .error "number out of range"
  toVec_eq manifest text _ h := by
      rw [h]

/-- The model of the crates writes a canonical text for every valid manifest, so that
the statements about such texts are not empty. -/
theorem Manifest.exists_canonicalBytes {crates : Crates} {manifest : Manifest}
    (h : manifest.validate crates = .ok ()) :
    ∃ text, manifest.canonicalBytes crates .model = .ok text := by
  obtain ⟨json, hJson⟩ := exists_json_of_numbers (Manifest.validate_eq_ok.mp h).numbers
  exact ⟨_, canonicalBytes_eq_ok.mpr ⟨h, congrArg (Option.map _) hJson⟩⟩

/-- The test vector has no identity: its canonical text says null where the CBOR
document has no entry. -/
theorem canonicalBytes_sample_ne : ∃ text octets,
    Manifest.sample.canonicalBytes .model .model = .ok text ∧
      encodeManifestCbor .model .sample = .ok octets ∧ ¬SameAbstractValue .model text octets := by
  obtain ⟨text, hText⟩ := Manifest.exists_canonicalBytes Manifest.validate_sample
  have hOctets := encodeManifestCborWithLimits_eq_ok.mpr
    ⟨Manifest.lawful_sample, Manifest.encodes_sample⟩
  refine ⟨text, _, hText, hOctets, ?_⟩
  intro hSame
  have hIdentity := (hSame.complete hText).identity
  cases hIdentity

/-- The test vector with all that it leaves out: a jurisdiction, an identity and an
expiry. -/
def Manifest.completeSample : Manifest :=
  { Manifest.sample with
    operator := { name := "Example Organization", jurisdiction := some "DE" }
    identity := some ⟨.object [("did", .string "did:web:example.com")], by decide⟩ }

theorem Manifest.lawful_completeSample : Manifest.completeSample.Lawful .model where
  valid := validate_eq_ok.mpr
    { valid_sample with
      jurisdiction := by decide
      numbers := numbers_of (by decide) fun identity hMem => by
        obtain rfl := Option.mem_some_iff.mp hMem
        decide }
  identity := by decide

theorem Manifest.encodes_completeSample : Encodes .default Manifest.completeSample.orderedDocument
    Manifest.completeSample.document.item.encode := by
  have hOperator : SmallEntry ("operator", Manifest.completeSample.operator.document) :=
    ⟨by decide, validateValueProfile_eq_ok.mp (by decide)⟩
  have hIdentity : SmallEntry ("identity", .object [("did", .string "did:web:example.com")]) :=
    ⟨by decide, validateValueProfile_eq_ok.mp (by decide)⟩
  refine encodes_of_smallEntries (smallEntries_variant hOperator ?_ smallEntry_updatedAt)
    CborLimits.small_atMost_default
  intro value hValue
  obtain rfl := Option.some.inj hValue
  exact hIdentity

/-- With nothing left out the two encodings hold the same value, as this variant of
the test vector shows. -/
theorem canonicalBytes_sameValue_complete : ∃ text octets,
    Manifest.completeSample.canonicalBytes .model .model = .ok text ∧
      encodeManifestCbor .model .completeSample = .ok octets ∧
      SameAbstractValue .model text octets := by
  obtain ⟨text, hText⟩ := Manifest.exists_canonicalBytes Manifest.lawful_completeSample.valid
  have hOctets := encodeManifestCborWithLimits_eq_ok.mpr
    ⟨Manifest.lawful_completeSample, Manifest.encodes_completeSample⟩
  exact ⟨text, _, hText, hOctets,
    (canonicalBytes_sameValue_iff .model .model .completeSample text _ hText hOctets).mpr
      ⟨rfl, rfl, rfl⟩⟩

end Tfws
