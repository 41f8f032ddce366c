import Tfws.Cli.Validation
import Tfws.Core.DataModel
import Tfws.Core.Policy

/-! Whether the choice between JSON and CBOR is neutral: the two branches of
`validate_bytes` on two encodings of one value. -/
namespace Tfws.Cli

open Fallible SerdeJson Cbor

/-- The text is one of the value: the reader finds in it the manifest that the
derived deserialisation finds in the value. -/
def FromSlice.Reads (json : FromSlice) (text : Bytes) (value : Value) : Prop :=
  ∀ manifest, json.fromSlice text = .ok manifest ↔ Manifest.deserialize value = some manifest

/-- The value and its encoding respect the default limits. -/
structure WithinDefaults (value : Value) : Prop where
  parts : WithinLimits .default 0 value
  encoding : value.item.encode.length ≤ CborLimits.default.maxManifestBytes.toNat

/-- The text is accepted exactly when the value lies in the data model and its
encoding is accepted, and then with the same manifest. -/
def FormatsAgree (crates : Crates) (json : FromSlice) (text : Bytes) (value : Value) : Prop :=
  ∀ manifest, validateBytes crates json .json text = .ok manifest ↔
    InDataModel value ∧ validateBytes crates json .cbor value.item.encode = .ok manifest

/-- A value that reads as a manifest in line with the policy has no null
anywhere, and an object for its identity, if it has one. -/
def IdentityAndNullsPlain (crates : Crates) (value : Value) : Prop :=
  ∀ manifest, Manifest.deserialize value = some manifest → manifest.validate crates = .ok () →
    nullFree value = true ∧ ∀ identity ∈ manifest.identity, isObject identity.value = true

section Formats

variable {crates : Crates} {json : FromSlice} {text : Bytes} {value : Value} {manifest : Manifest}

/-- The CBOR branch on the encoding of a value in the data model is the typed layer
and its policy. -/
theorem validateBytes_encoding (hOrdered : value.ordered = true) (hWithin : WithinDefaults value)
    (hModel : InDataModel value) :
    validateBytes crates json .cbor value.item.encode = .ok manifest ↔
      Manifest.deserialize value = some manifest ∧ manifest.Lawful crates := by
  have hEncodes : Encodes .default ⟨value, hOrdered⟩ value.item.encode :=
    encodes_iff.mpr ⟨hWithin.encoding, admissible_iff.mpr ⟨hWithin.parts, hModel⟩, rfl⟩
  rw [validateBytes_cbor, hEncodes.decodeManifestCbor_eq, manifestOfValue_eq_ok]

end Formats

/-- The two formats agree on a value unless it reads as a valid manifest with a null
in it or an identity that is no object: only the CBOR branch looks for either. -/
theorem formatsAgree_iff (crates : Crates) (json : FromSlice) (text : Bytes) (value : Value)
    (hText : json.Reads text value) (hOrdered : value.ordered = true)
    (hWithin : WithinDefaults value) :
    FormatsAgree crates json text value ↔ IdentityAndNullsPlain crates value := by
  constructor
  · intro hAgree manifest hRead hValid
    have hJson := validateBytes_json.mpr ⟨(hText manifest).mpr hRead, hValid⟩
    obtain ⟨hModel, hCbor⟩ := (hAgree manifest).mp hJson
    obtain ⟨-, hLawful⟩ := (validateBytes_encoding hOrdered hWithin hModel).mp hCbor
    exact ⟨(inDataModel_iff.mp hModel).1, requireIdentityObject_eq_ok.mp hLawful.identity⟩
  · intro hPlain manifest
    rw [validateBytes_json, hText manifest]
    constructor
    · intro ⟨hRead, hValid⟩
      obtain ⟨hNulls, hIdentity⟩ := hPlain manifest hRead hValid
      have hPolicy := Manifest.validate_eq_ok.mp hValid
      have hModel : InDataModel value := inDataModel_iff.mpr ⟨hNulls,
        Manifest.deserialize_numbers hOrdered hRead hPolicy.keyEpoch.2 hPolicy.numbers⟩
      exact ⟨hModel, (validateBytes_encoding hOrdered hWithin hModel).mpr
        ⟨hRead, hValid, requireIdentityObject_eq_ok.mpr hIdentity⟩⟩
    · intro ⟨hModel, hCbor⟩
      obtain ⟨hRead, hLawful⟩ := (validateBytes_encoding hOrdered hWithin hModel).mp hCbor
      exact ⟨hRead, hLawful.valid⟩

instance (input : Bytes) : Decidable (OpensContainer input) :=
  inferInstanceAs (Decidable (_ ∨ _))

/-- The reader on texts without floats whose structs repeat no field. On other texts
it only stands for an error. -/
def FromSlice.model : FromSlice where
  fromSlice input :=
    if OpensContainer input then
      match (Value.ofText input).bind Manifest.deserialize with
      | some manifest => .ok manifest
      | none => .error "invalid type"
    else .error "invalid type"
  opens input manifest h := by
      by_contra hNot
      rw [if_neg hNot] at h
      cases h

/-- The text of an object opens one, with no white space in front. -/
theorem opensContainer_toText {entries : List (String × Value)} {text : Bytes}
    (h : (Value.object entries).toText = some text) : OpensContainer text := by
  obtain ⟨_, hJson, rfl⟩ := Option.map_eq_some_iff.mp h
  obtain ⟨fields, rfl, -⟩ := Value.json_object.mp hJson
  obtain ⟨rest, hWrite⟩ : ∃ rest, (Json.Value.object fields).write = '{' :: rest := by
    cases fields with
    | nil => exact ⟨_, rfl⟩
    | cons field rest => exact ⟨_, rfl⟩
  rw [hWrite, Utf8.encode, String.toList_ofList, List.flatMap_cons,
    Utf8.encodeChar_ascii (show '{'.toNat < 128 by decide)]
  exact Or.inl rfl

/-- The model reads the text of an object as the object, which is what is assumed of
the reader. -/
theorem FromSlice.model_reads {entries : List (String × Value)} {text : Bytes}
    (hOrdered : (Value.object entries).ordered = true)
    (h : (Value.object entries).toText = some text) : model.Reads text (.object entries) := by
  intro manifest
  simp only [model, if_pos (opensContainer_toText h), Value.ofText_toText hOrdered h,
    Option.bind_some]
  cases Manifest.deserialize (.object entries) <;> simp

/-- The formats agree on the test vector, which is accepted under both of them. -/
theorem formatsAgree_sample : ∃ text, Manifest.sample.document.toText = some text ∧
    FormatsAgree .model .model text Manifest.sample.document := by
  obtain ⟨hWithin, hModel⟩ := admissible_iff.mp Manifest.encodes_sample.admissible
  obtain ⟨json, hJson⟩ := hModel.json
  have hText : Manifest.sample.document.toText = some (Utf8.encode (String.ofList json.write)) :=
    Option.map_eq_some_iff.mpr ⟨json, hJson, rfl⟩
  refine ⟨_, hText, (formatsAgree_iff .model .model _ _
    (FromSlice.model_reads Manifest.sample.document_ordered hText)
    Manifest.sample.document_ordered ⟨hWithin, (encodes_iff.mp Manifest.encodes_sample).1⟩).mpr ?_⟩
  intro manifest hRead _
  have hSame := (Manifest.deserialize_mapShaped
    ⟨Manifest.encodes_sample.admissible, Manifest.sample.document_ordered⟩
    Manifest.sample.document_mapShaped).mpr rfl
  obtain rfl := Option.some.inj (hSame.symm.trans hRead)
  refine ⟨(inDataModel_iff.mp hModel).1, ?_⟩
  intro identity hIdentity
  cases hIdentity

/-- The test vector with a text for its identity. -/
def identitySample : Manifest :=
  { Manifest.sample with identity := some ⟨.string "https://id.example.com", rfl⟩ }

/-- A manifest whose identity is a text is accepted as JSON and refused as CBOR,
though there is no null in it. -/
theorem formatsAgree_identity : ∃ text, identitySample.document.toText = some text ∧
    FromSlice.model.Reads text identitySample.document ∧
    InDataModel identitySample.document ∧ WithinDefaults identitySample.document ∧
    validateBytes .model .model .json text = .ok identitySample ∧
    ¬FormatsAgree .model .model text identitySample.document := by
  have hIdentity : SmallEntry ("identity", .string "https://id.example.com") :=
    ⟨by decide, validateValueProfile_eq_ok.mp (by decide)⟩
  have hEncodes : Encodes .default identitySample.orderedDocument
      identitySample.document.item.encode := by
    refine Manifest.encodes_of_smallEntries (Manifest.smallEntries_variant smallEntry_operator ?_
      smallEntry_updatedAt) CborLimits.small_atMost_default
    intro value hValue
    obtain rfl := Option.some.inj hValue
    exact hIdentity
  have hAdmissible := hEncodes.admissible
  obtain ⟨hWithin, hModel⟩ := admissible_iff.mp hAdmissible
  obtain ⟨json, hJson⟩ := hModel.json
  have hText : identitySample.document.toText = some (Utf8.encode (String.ofList json.write)) :=
    Option.map_eq_some_iff.mpr ⟨json, hJson, rfl⟩
  have hReads := FromSlice.model_reads identitySample.document_ordered hText
  have hDefaults : WithinDefaults identitySample.document := ⟨hWithin, hEncodes.short⟩
  have hRead := (Manifest.deserialize_mapShaped ⟨hAdmissible, identitySample.document_ordered⟩
    identitySample.document_mapShaped).mpr rfl
  have hValid : identitySample.validate .model = .ok () :=
    Manifest.validate_eq_ok.mpr
      { Manifest.valid_sample with
        numbers := Manifest.numbers_of (by decide) fun identity hMem => by
          obtain rfl := Option.mem_some_iff.mp hMem
          exact validateJsonNumberProfile_string _ }
  have hAccepted := validateBytes_json.mpr ⟨(hReads identitySample).mpr hRead, hValid⟩
  refine ⟨_, hText, hReads, hModel, hDefaults, hAccepted, fun hAgree => ?_⟩
  obtain ⟨-, hCbor⟩ := (hAgree identitySample).mp hAccepted
  obtain ⟨-, hLawful⟩ :=
    (validateBytes_encoding identitySample.document_ordered hDefaults hModel).mp hCbor
  exact absurd hLawful.identity (by decide)

end Tfws.Cli
