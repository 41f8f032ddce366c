import Tfws.Cli.ConformanceFixture
import Tfws.Core.CborManifest
import Tfws.Core.CoseParsing

/-! `validate_bytes` of `tfws-cli`, and the first octets of the documents that
each of its formats accepts. -/
namespace Tfws.Cli

open Fallible SerdeJson Cbor

inductive InputFormat where
  | json
  | cbor
  | cose
  deriving DecidableEq, Repr

/-- An error as it is shown: a code for programs and a message for people. -/
structure CliError where
  code : String
  message : String
  deriving DecidableEq, Repr

/-- `category_message`, with one message for every category that it does not know.
That message says what is wrong in general words. -/
def categoryMessage (category : String) : String :=
  match category with
  | "malformed_cbor" => "input is not well-formed CBOR"
  | "non_deterministic_cbor" => "input is not deterministic CBOR"
  | "unsupported_cbor_type" => "input uses an unsupported CBOR type"
  | "resource_limit" => "input exceeds a CBOR or COSE resource limit"
  | "manifest_policy_invalid" => "manifest violates the TFWS profile"
  | "invalid_cose_structure" => "input has an invalid COSE structure"
  | "unsupported_header" => "input contains an unsupported COSE header"
  | "invalid_content_type" => "input has an invalid COSE content type"
  | "invalid_type" => "input has an invalid COSE type"
  | "invalid_algorithm" => "input violates the hybrid algorithm profile"
  | "invalid_kid" => "input has an invalid key identifier"
  | "key_binding_mismatch" => "input has an invalid public-key binding"
  | "signature_invalid" => "one or more conformance signatures are invalid"
  | _ => "input was rejected"

/-- White space of JSON, octet by octet, which may stand in front of a document. -/
def isJsonSpace (octet : UInt8) : Bool :=
  octet = 0x20 || octet = 0x09 || octet = 0x0A || octet = 0x0D

/-- The first octet behind the white space opens an object or an array. -/
def OpensContainer (input : Bytes) : Prop :=
  (input.dropWhile isJsonSpace).head? = some 0x7B ∨ (input.dropWhile isJsonSpace).head? = some 0x5B

/-- `serde_json::from_slice::<Manifest>`. A struct is read from nothing but an
object or an array. -/
structure FromSlice where
  fromSlice : Bytes → Except String Manifest
  opens : ∀ input manifest, fromSlice input = .ok manifest → OpensContainer input

/-- `validate_bytes`, with one branch for each format. The document is returned as a
manifest, which the caller drops. -/
def validateBytes (crates : Crates) (json : FromSlice) (inputFormat : InputFormat)
    (bytes : Bytes) : Except CliError Manifest :=
  match inputFormat with
  | .json => do
      let manifest ← (json.fromSlice bytes).mapError fun _ =>
        { code := "invalid_json", message := "input is not valid manifest JSON" }
      (manifest.validate crates).mapError fun _ =>
        { code := "manifest_policy_invalid", message := "manifest violates the TFWS profile" }
      .ok manifest
  | .cbor => (decodeManifestCbor crates bytes .default).mapError fun error =>
      { code := error.category, message := categoryMessage error.category }
  | .cose => (verifyManifestCose crates bytes conformanceFixtureVerifier).mapError fun error =>
      { code := error.category, message := categoryMessage error.category }

variable {crates : Crates} {json : FromSlice} {bytes : Bytes} {manifest : Manifest}

/-- The JSON branch is the reader followed by the policy, and nothing else. -/
theorem validateBytes_json :
    validateBytes crates json .json bytes = .ok manifest ↔
      json.fromSlice bytes = .ok manifest ∧ manifest.validate crates = .ok () := by
  simp only [validateBytes, bind_eq_ok, mapError_eq_ok, Except.ok.injEq]
  constructor
  · intro ⟨_, hRead, _, hValid, hSame⟩
    exact hSame ▸ ⟨hRead, hValid⟩
  · intro ⟨hRead, hValid⟩
    exact ⟨manifest, hRead, (), hValid, rfl⟩

theorem validateBytes_cbor :
    validateBytes crates json .cbor bytes = .ok manifest ↔
      decodeManifestCbor crates bytes .default = .ok manifest :=
  mapError_eq_ok

theorem validateBytes_cose :
    validateBytes crates json .cose bytes = .ok manifest ↔
      verifyManifestCose crates bytes conformanceFixtureVerifier = .ok manifest :=
  mapError_eq_ok

/-- The first octets of the documents of each format: of JSON white space or an
opening bracket, of CBOR the head of an array or a map, of COSE the head of a
tag. -/
def InputFormat.opens (octet : UInt8) : InputFormat → Prop
  | .json => octet.toNat < 0x80
  | .cbor => 0x80 ≤ octet.toNat ∧ octet.toNat < 0xC0
  | .cose => 0xC0 ≤ octet.toNat

/-- The octets that may open a document differ from format to format, so that the
first octet tells the format. -/
theorem InputFormat.opens_unique {octet : UInt8} {first second : InputFormat}
    (hFirst : first.opens octet) (hSecond : second.opens octet) : first = second := by
  cases first <;> cases second <;> simp only [opens] at hFirst hSecond <;> first | rfl | omega

theorem OpensContainer.head {input : Bytes} (h : OpensContainer input) :
    ∃ octet rest, input = octet :: rest ∧ InputFormat.json.opens octet := by
  cases input with
  | nil => simp [OpensContainer] at h
  | cons octet rest =>
      refine ⟨octet, rest, rfl, ?_⟩
      by_cases hSpace : isJsonSpace octet = true
      · simp only [isJsonSpace, Bool.or_eq_true, decide_eq_true_eq] at hSpace
        obtain ((rfl | rfl) | rfl) | rfl := hSpace <;> simp [InputFormat.opens]
      · simp only [OpensContainer, List.dropWhile_cons_of_neg hSpace, List.head?_cons,
          Option.some.injEq] at h
        obtain rfl | rfl := h <;> simp [InputFormat.opens]

/-- The octet that opens a preferred head holds the major type in its upper three
bits. -/
theorem head_eq_cons {major argument : Nat} (hMajor : major < 8)
    (hFits : argument < 18446744073709551616) :
    ∃ octet rest, head major argument = octet :: rest ∧ octet.toNat / 32 = major :=
  ⟨_, _, rfl, initial_div hMajor ((fits_preferred hFits).additional_lt.trans (by decide))⟩

theorem cbor_opens_of_div {octet : UInt8} (h : octet.toNat / 32 = 4 ∨ octet.toNat / 32 = 5) :
    InputFormat.cbor.opens octet := by
  rw [InputFormat.opens]
  omega

/-- A struct is read from an object or an array, and from nothing else. -/
theorem deserialize_container {value : Value} (h : Manifest.deserialize value = some manifest) :
    (∃ entries, value = .object entries) ∨ ∃ items, value = .array items := by
  obtain ⟨field, hField, -⟩ := Manifest.deserialize_eq_some.mp h
  cases value with
  | object entries => exact Or.inl ⟨entries, rfl⟩
  | array items => exact Or.inr ⟨items, rfl⟩
  | null | bool value | number value | string text => cases hField

/-- An accepted CBOR document opens a map or an array: the two forms in which serde
reads a manifest. -/
theorem decodeManifestCbor_opens (h : decodeManifestCbor crates bytes .default = .ok manifest) :
    ∃ octet rest, bytes = octet :: rest ∧ InputFormat.cbor.opens octet := by
  obtain ⟨ordered, hEncodes, hRead, -⟩ := decodeManifestCbor_eq_ok.mp h
  obtain ⟨-, hAdmissible, rfl⟩ := encodes_iff.mp hEncodes
  have hEncodable := (hAdmissible.deterministic ordered.ordered).1
  obtain ⟨entries, hValue⟩ | ⟨items, hValue⟩ := deserialize_container hRead
  · rw [hValue, Value.item_object] at hEncodable ⊢
    cases hEncodable with
    | map short keys values =>
        obtain ⟨octet, rest, hHead, hMajor⟩ := head_eq_cons (show 5 < 8 by decide) short
        rw [Item.encode_map, hHead]
        exact ⟨octet, _, rfl, cbor_opens_of_div (Or.inr hMajor)⟩
  · rw [hValue, Value.item_array] at hEncodable ⊢
    cases hEncodable with
    | array short members =>
        obtain ⟨octet, rest, hHead, hMajor⟩ := head_eq_cons (show 4 < 8 by decide) short
        rw [Item.encode, hHead]
        exact ⟨octet, _, rfl, cbor_opens_of_div (Or.inl hMajor)⟩

/-- An accepted envelope opens with its tag, which no manifest does. -/
theorem verifyManifestCose_opens {verifier : CoseVerifier}
    (h : verifyManifestCose crates bytes verifier = .ok manifest) :
    ∃ octet rest, bytes = octet :: rest ∧ InputFormat.cose.opens octet := by
  obtain ⟨parsed, hParsed, -⟩ := bind_eq_ok.mp h
  obtain ⟨content, -, rfl, -⟩ := parseEnvelope_eq_ok.mp hParsed
  rw [EnvelopeContent.octets, envelope_encode]
  exact ⟨0xD8, _, rfl, show 0xC0 ≤ (0xD8 : UInt8).toNat by decide⟩

/-- An accepted document opens as its format does, and the openings of two formats are
different. -/
theorem validateBytes_opens {inputFormat : InputFormat}
    (h : validateBytes crates json inputFormat bytes = .ok manifest) :
    ∃ octet rest, bytes = octet :: rest ∧ inputFormat.opens octet := by
  cases inputFormat with
  | json =>
      obtain ⟨hRead, -⟩ := validateBytes_json.mp h
      exact (json.opens bytes manifest hRead).head
  | cbor => exact decodeManifestCbor_opens (validateBytes_cbor.mp h)
  | cose => exact verifyManifestCose_opens (validateBytes_cose.mp h)

/-- No input is accepted under two formats: the first octet of an accepted document
tells which one it is of. -/
theorem validateBytes_subsingleton (crates : Crates) (json : FromSlice) (bytes : Bytes) :
    { inputFormat | ∃ manifest,
      validateBytes crates json inputFormat bytes = .ok manifest }.Subsingleton := by
  intro first hFirst second hSecond
  obtain ⟨_, hFirst⟩ := hFirst
  obtain ⟨_, hSecond⟩ := hSecond
  obtain ⟨octet, rest, rfl, hFirstOpens⟩ := validateBytes_opens hFirst
  obtain ⟨_, _, hSame, hSecondOpens⟩ := validateBytes_opens hSecond
  obtain ⟨rfl, -⟩ := List.cons.inj hSame
  exact InputFormat.opens_unique hFirstOpens hSecondOpens

end Tfws.Cli
