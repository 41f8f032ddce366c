import Tfws.Core.Manifest
import Tfws.Crates.MinicborModel

/-! The external crates with their documented behaviour, as far as the test
vector needs it, and the test vector. -/
namespace Tfws

open SerdeJson

/-- The derived code and nothing else, with one text for every error. It meets what is
assumed of serde. -/
def Serde.model : Serde where
  toValue manifest := .ok manifest.serialize
  fromValue value :=
    match Manifest.deserialize value with
    | some manifest => .ok manifest
    | none => .error "invalid type"
  toValue_eq _ := rfl
  fromValue_eq_ok value manifest := by
      cases Manifest.deserialize value <;> simp

/-- `Url::parse` on texts that are `https://` and a lower-case host name. On other
texts it only stands for an error. -/
def parseOrigin (text : String) : Except String Url :=
  let host := text.toList.drop 8
  if text.toList.take 8 = "https://".toList ∧ host ≠ [] ∧
      host.all (fun c => c.isLower || c.isDigit || c = '.' || c = '-') then
    .ok { scheme := "https", cannotBeABase := false, path := "/", query := none,
          fragment := none, username := "", password := none }
  else .error "relative URL without a base"

/-- The crates together, each with its documented behaviour. Statements about all
crates are thereby statements about some. -/
def Crates.model : Crates where
  decoder := Minicbor.Decoder.model
  encoder := Minicbor.Encoder.model
  serde := Serde.model
  parseUrl := parseOrigin

/-- One of the two keys of `test-vectors/manifest.valid.json`; they differ in
algorithm and fingerprint alone. -/
def KeyDescriptor.sample (algorithm sha256 : String) : KeyDescriptor where
  algorithm := algorithm
  keyId := "release-1"
  publicKeyUri := "/.well-known/keys/" ++ algorithm ++ ".pem"
  publicKeySha256 := sha256
  status := "active"
  usage := ["release"]

/-- The manifest of `test-vectors/manifest.valid.json`, which names no identity and
never expires. The samples below are about it. -/
def Manifest.sample : Manifest where
  tfwsVersion := "3.0"
  subject := "https://example.com"
  environment := "production"
  operator := { name := "Example Organization", jurisdiction := none }
  keyEpoch := 1
  keys :=
    [.sample "ed25519" "7fe64728f1a7bb8c6c103f49c0e2ed0e999678229256c7aab813634cc6c85ba9",
     .sample "ml-dsa-65" "85acf51bf7260bc7009f1b3d6b8a4f6d0442bf21ea91a86fe7cbb282edb317cb"]
  signaturePolicy := { policyId := baselinePolicy, requiredAlgorithms := baselineAlgorithms }
  capabilities :=
    { required := ["core.v1", "identity.v1", "transparency.v1", "recovery.v1"], optional := [] }
  identity := none
  artifacts := []
  updatedAt := "2026-07-21T00:00:00Z"
  expiresAt := some "2027-07-21T00:00:00Z"

/-- The test vector passes the policy under the model of the crates: each check is
evaluated. -/
theorem Manifest.validate_sample : Manifest.sample.validate .model = .ok () := by decide +kernel

end Tfws
