import Tfws.Core.CratesModel
import Tfws.Core.Document
import Tfws.Core.Policy

/-! `validateManifestShape` of the TypeScript SDK, and how much less than
`Manifest::validate` it asks of a manifest document. -/
namespace Tfws.Sdk

open SerdeJson SortedMap Fallible

/-- The attributes of a `URL` object, which are texts: what is absent is empty. -/
structure Url where
  protocol : String
  username : String
  password : String
  pathname : String
  search : String
  hash : String

/-- The platform: `new URL(text)`, and `String(value)` of what is no string,
which can raise an error of its own. -/
structure Platform where
  newUrl : String → Option Url
  format : Option Value → Except String String

def knownRequired : List String := ["core.v1", "identity.v1", "recovery.v1", "transparency.v1"]

def baseline : List String := ["ed25519", "ml-dsa-65"]

/-- `String(value)`, which a text leaves as it is. What it makes of other values is up
to the platform. -/
def Platform.string (platform : Platform) : Option Value → Except String String
  | some (.string text) => .ok text
  | value => platform.format value

/-- `value?.name`, which has no value where `value` is no object, or has no such
field. -/
def member (name : String) : Option Value → Option Value
  | some (.object fields) => lookup name fields
  | _ => none

def isString (text : String) : Option Value → Bool
  | some (.string held) => held = text
  | _ => false

def Url.isHttpsOrigin (url : Url) : Bool :=
  url.protocol = "https:" && url.username = "" && url.password = "" && url.pathname = "/" &&
    url.search = "" && url.hash = ""

/-- What `algorithms` has to be: the two of the baseline, in their order. -/
def isBaseline : Option Value → Bool
  | some (.array algorithms) =>
      algorithms.length = baseline.length &&
        (algorithms.zip baseline).all fun pair => isString pair.2 (some pair.1)
  | _ => false

/-- The loop over the mandatory capabilities, which are compared one by one with the
known ones. -/
def checkCapabilities (platform : Platform) : List Value → Except String Unit
  | [] => .ok ()
  | capability :: rest =>
      if knownRequired.any (isString · (some capability)) then checkCapabilities platform rest
      else do
        let text ← platform.string (some capability)
        .error ("unknown mandatory capability: " ++ text)

/-- The members of an array, or an error with the message. -/
def arrayOr (message : String) : Option Value → Except String (List Value)
  | some (.array items) => .ok items
  | _ => .error message

/-- `new URL(String(value))` under the `catch` of the subject, which gives every
failure one text. -/
def subjectUrl (platform : Platform) (value : Option Value) : Except String Url :=
  match platform.string value with
  | .error _ => .error "invalid subject"
  | .ok text =>
      match platform.newUrl text with
      | some url => .ok url
      | none => .error "invalid subject"

/-- `validateManifestShape`. Of keys and artifacts it looks at the number and the kind
alone. -/
def validateManifestShape (platform : Platform) : Value → Except String Unit
  | .object manifest => do
      failIf (isString "3.0" (lookup "tfws_version" manifest) = false) "unsupported TFWS version"
      let subject ← subjectUrl platform (lookup "subject" manifest)
      failIf (subject.isHttpsOrigin = false) "subject must be an HTTPS origin"
      failIf (isBaseline (member "required_algorithms" (lookup "signature_policy" manifest)) = false)
        "hybrid downgrade"
      let required ← arrayOr "mandatory capabilities must be an array"
        (member "required" (lookup "capabilities" manifest))
      checkCapabilities platform required
      let keys ← arrayOr "keys must be an array" (lookup "keys" manifest)
      failIf (isString "development" (lookup "environment" manifest) = false ∧ keys.length ≠ 2)
        "non-development manifests require two bound keys"
  | _ => .error "manifest must be an object"

/-- The attribute of an optional part: the mark stands before what is not empty. -/
def marked (mark : String) (part : Option String) : String :=
  if part.getD "" = "" then "" else mark ++ part.getD ""

/-- The attributes of a URL record, as the two parsers report the same URL. -/
def attributes (url : Tfws.Url) : Url where
  protocol := url.scheme ++ ":"
  username := url.username
  password := url.password.getD ""
  pathname := url.path
  search := marked "?" url.query
  hash := marked "#" url.fragment

/-- Both parsers are those of the URL standard, so that they find the same attributes
in every text. -/
def SameParser (crates : Crates) (platform : Platform) : Prop :=
  ∀ text, platform.newUrl text = (crates.parseUrl text).toOption.map attributes

/-- An HTTPS origin up to empty parts, which the attributes do not show. -/
structure LaxOrigin (url : Tfws.Url) : Prop where
  scheme : url.scheme = "https"
  path : url.path = "/"
  username : url.username = ""
  password : url.password.getD "" = ""
  query : url.query.getD "" = ""
  fragment : url.fragment.getD "" = ""

theorem marked_eq_empty {mark : String} (hMark : mark ≠ "") {part : Option String} :
    marked mark part = "" ↔ part.getD "" = "" := by
  rw [marked]
  split_ifs with hPart
  · exact iff_of_true rfl hPart
  · apply iff_of_false _ hPart
    intro hSame
    exact hMark (String.append_eq_empty_iff.mp hSame).1

/-- The check here on the attributes, said of the record that the policy reads. -/
theorem attributes_isHttpsOrigin {url : Tfws.Url} :
    (attributes url).isHttpsOrigin = true ↔ LaxOrigin url := by
  have hScheme : url.scheme ++ ":" = "https:" ↔ url.scheme = "https" := by
    rw [show ("https:" : String) = "https" ++ ":" from rfl, String.append_left_inj]
  simp only [Url.isHttpsOrigin, Bool.and_eq_true, decide_eq_true_eq]
  simp only [attributes, hScheme, @marked_eq_empty "?" (by decide),
    @marked_eq_empty "#" (by decide)]
  constructor
  · intro h
    obtain ⟨⟨⟨⟨⟨hScheme, hUsername⟩, hPassword⟩, hPath⟩, hQuery⟩, hFragment⟩ := h
    exact ⟨hScheme, hPath, hUsername, hPassword, hQuery, hFragment⟩
  · intro h
    exact ⟨⟨⟨⟨⟨h.scheme, h.username⟩, h.password⟩, h.path⟩, h.query⟩, h.fragment⟩

/-- What `tfws-core` takes for an HTTPS origin is one here; an empty query or user
name is told apart from none only there. -/
theorem LaxOrigin.of_isHttpsOrigin {url : Tfws.Url} (h : url.isHttpsOrigin = true) :
    LaxOrigin url := by
  simp only [Tfws.Url.isHttpsOrigin, Bool.and_eq_true, decide_eq_true_eq, Bool.not_eq_true',
    Option.isNone_iff_eq_none, String.isEmpty_iff] at h
  obtain ⟨⟨⟨⟨⟨⟨hScheme, -⟩, hPath⟩, hQuery⟩, hFragment⟩, hUsername⟩, hPassword⟩ := h
  refine ⟨hScheme, hPath, hUsername, ?_, ?_, ?_⟩
  · rw [hPassword, Option.getD_none]
  · rw [hQuery, Option.getD_none]
  · rw [hFragment, Option.getD_none]

section Checks

variable {platform : Platform} {text : String} {value : Option Value}

theorem isString_eq_true : isString text value = true ↔ value = some (.string text) := by
  unfold isString
  split
  · simp
  · rename_i hOther
    apply iff_of_false Bool.false_ne_true
    intro hSame
    exact hOther _ hSame

theorem isString_some {item : Value} : isString text (some item) = true ↔ item = .string text :=
  isString_eq_true.trans (Option.some_inj ..)

theorem isBaseline_eq_true : isBaseline value = true ↔ value = some (stringsValue baseline) := by
  unfold isBaseline
  split
  · rename_i algorithms
    rw [Bool.and_eq_true, decide_eq_true_eq, Option.some_inj, stringsValue, Value.array.injEq]
    constructor
    · intro h
      obtain ⟨hLength, hSame⟩ := h
      obtain ⟨first, second, rfl⟩ := List.length_eq_two.mp hLength
      simp only [baseline, List.zip_cons_cons, List.zip_nil_right, List.all_cons, List.all_nil,
        Bool.and_true, Bool.and_eq_true, isString_some] at hSame
      rw [hSame.1, hSame.2]
      rfl
    · intro h
      rw [h]
      decide
  · rename_i hOther
    apply iff_of_false Bool.false_ne_true
    intro hSame
    exact hOther _ hSame

theorem arrayOr_eq_ok {message : String} {items : List Value} :
    arrayOr message value = .ok items ↔ value = some (.array items) := by
  unfold arrayOr
  split <;> simp_all

theorem subjectUrl_eq_ok {url : Url} :
    subjectUrl platform value = .ok url ↔
      ∃ text, platform.string value = .ok text ∧ platform.newUrl text = some url := by
  unfold subjectUrl
  cases platform.string value with
  | error cause => simp
  | ok text => cases hUrl : platform.newUrl text <;> simp [hUrl]

/-- The loop passes exactly if every capability is a known text. -/
theorem checkCapabilities_eq_ok {required : List Value} {result : Unit} :
    checkCapabilities platform required = .ok result ↔
      ∀ capability ∈ required, ∃ name ∈ knownRequired, capability = .string name := by
  induction required with
  | nil => simp [checkCapabilities]
  | cons capability rest ih =>
      have hKnown : knownRequired.any (isString · (some capability)) = true ↔
          ∃ name ∈ knownRequired, capability = .string name := by
        simp only [List.any_eq_true, isString_some]
      rw [checkCapabilities, List.forall_mem_cons, ← hKnown, ← ih]
      split_ifs with hAny
      · simp [hAny]
      · apply iff_of_false
        · intro hOk
          obtain ⟨text, -, hError⟩ := bind_eq_ok.mp hOk
          contradiction
        · intro hBoth
          exact hAny hBoth.1

/-- The members that the check looks at, and what it wants to find there. -/
structure Shape (platform : Platform) (fields : List (String × Value)) (required keys : List Value)
    (url : Url) : Prop where
  version : lookup "tfws_version" fields = some (.string "3.0")
  subject : ∃ text, platform.string (lookup "subject" fields) = .ok text ∧
    platform.newUrl text = some url
  origin : url.isHttpsOrigin = true
  algorithms : member "required_algorithms" (lookup "signature_policy" fields) =
    some (stringsValue baseline)
  capabilities : member "required" (lookup "capabilities" fields) = some (.array required)
  known : ∀ capability ∈ required, ∃ name ∈ knownRequired, capability = .string name
  listed : lookup "keys" fields = some (.array keys)
  bound : lookup "environment" fields = some (.string "development") ∨ keys.length = 2

/-- The check of an object passes exactly if it has the shape. -/
theorem validateManifestShape_object {fields : List (String × Value)} :
    validateManifestShape platform (.object fields) = .ok () ↔
      ∃ required keys url, Shape platform fields required keys url := by
  simp only [validateManifestShape, bind_eq_ok, failIf_eq_ok, ← Bool.not_eq_true, not_not,
    isString_eq_true, isBaseline_eq_true, arrayOr_eq_ok, subjectUrl_eq_ok, checkCapabilities_eq_ok,
    not_and_or, exists_const]
  constructor
  · intro h
    obtain ⟨hVersion, url, hSubject, hOrigin, hAlgorithms, required, hCapabilities, hKnown, keys,
      hKeys, hBound⟩ := h
    exact ⟨required, keys, url, hVersion, hSubject, hOrigin, hAlgorithms, hCapabilities, hKnown,
      hKeys, hBound⟩
  · intro h
    obtain ⟨required, keys, url, h⟩ := h
    exact ⟨h.version, url, h.subject, h.origin, h.algorithms, required, h.capabilities, h.known,
      keys, h.listed, h.bound⟩

end Checks

section Documents

variable {crates : Crates} {platform : Platform} {manifest : Manifest}

/-- What is left of the policy in the document's shape, condition by condition. Keys
and times are hardly among them. -/
structure ManifestShape (crates : Crates) (manifest : Manifest) : Prop where
  version : manifest.tfwsVersion = "3.0"
  subject : ∃ url, crates.parseUrl manifest.subject = .ok url ∧ LaxOrigin url
  algorithms : manifest.signaturePolicy.requiredAlgorithms = baselineAlgorithms
  known : ∀ capability ∈ manifest.capabilities.required, capability ∈ knownCapabilities
  bound : manifest.environment ≠ "development" → manifest.keys.length = 2

theorem ManifestShape.of_valid (h : manifest.Valid crates) : ManifestShape crates manifest where
  version := h.version
  subject := by
    obtain ⟨url, hUrl, hOrigin⟩ := h.subject
    exact ⟨url, hUrl, .of_isHttpsOrigin hOrigin⟩
  algorithms := h.requiredAlgorithms
  known := h.capabilities.known
  bound := by
    intro hEnvironment
    exact h.bound (mt h.unbound hEnvironment)

/-- With one parser behind both, the platform reads a text exactly if the crate
does. -/
theorem newUrl_eq_some (hSame : SameParser crates platform) {text : String} {url : Url} :
    platform.newUrl text = some url ↔
      ∃ parsed, crates.parseUrl text = .ok parsed ∧ attributes parsed = url := by
  rw [hSame text]
  cases crates.parseUrl text <;> simp [Except.toOption]

theorem forall_string_mem {names : List String} :
    (∀ capability ∈ names.map Value.string, ∃ name ∈ knownRequired, capability = .string name) ↔
      ∀ name ∈ names, name ∈ knownCapabilities := by
  rw [List.forall_mem_map]
  simp only [Value.string.injEq, exists_eq_right']
  rfl

theorem stringsValue_inj {first second : List String} :
    stringsValue first = stringsValue second ↔ first = second := by
  rw [stringsValue, stringsValue, Value.array.injEq]
  exact List.map_inj_right fun _ _ => Value.string.inj

theorem required_algorithms_document {policy : SignaturePolicy} :
    member "required_algorithms" (some policy.document) =
      some (stringsValue policy.requiredAlgorithms) := by
  have hNames : (policy.record.map Prod.fst).Nodup :=
    show ["policy_id", "required_algorithms"].Nodup by decide
  exact lookup_present hNames (List.mem_cons_of_mem _ List.mem_cons_self)

theorem required_document {capabilities : Capabilities} :
    member "required" (some capabilities.document) =
      some (stringsValue capabilities.required) := by
  have hNames : (capabilities.record.map Prod.fst).Nodup :=
    show ["required", "optional"].Nodup by decide
  exact lookup_present hNames List.mem_cons_self

/-- The check of a manifest's own document, in terms of the manifest. -/
theorem validateManifestShape_document (hSame : SameParser crates platform) :
    validateManifestShape platform manifest.document = .ok () ↔ ManifestShape crates manifest := by
  have hVersion := manifest.lookup_document "tfws_version" (stringField manifest.tfwsVersion)
    (by simp [Manifest.record])
  have hSubject := manifest.lookup_document "subject" (stringField manifest.subject)
    (by simp [Manifest.record])
  have hEnvironment := manifest.lookup_document "environment" (stringField manifest.environment)
    (by simp [Manifest.record])
  have hPolicy := manifest.lookup_document "signature_policy"
    (some manifest.signaturePolicy.document) (by simp [Manifest.record])
  have hCapabilities := manifest.lookup_document "capabilities"
    (some manifest.capabilities.document) (by simp [Manifest.record])
  have hKeys := manifest.lookup_document "keys"
    (some (.array (manifest.keys.map KeyDescriptor.document))) (by simp [Manifest.record])
  have hText : platform.string (stringField manifest.subject) = .ok manifest.subject := rfl
  rw [Manifest.document, validateManifestShape_object]
  constructor
  · intro h
    obtain ⟨required, keys, url, h⟩ := h
    obtain ⟨hVersion', hSubject', hOrigin, hAlgorithms, hRequired, hKnown, hListed, hBound⟩ := h
    rw [hVersion, stringField, Option.some_inj, Value.string.injEq] at hVersion'
    obtain ⟨text, hSubject', hUrl⟩ := hSubject'
    rw [hSubject, hText, Except.ok.injEq] at hSubject'
    rw [← hSubject', newUrl_eq_some hSame] at hUrl
    rw [hPolicy, required_algorithms_document, Option.some_inj, stringsValue_inj] at hAlgorithms
    rw [hCapabilities, required_document, Option.some_inj, stringsValue, Value.array.injEq]
      at hRequired
    rw [hKeys, Option.some_inj, Value.array.injEq] at hListed
    rw [hEnvironment, stringField, Option.some_inj, Value.string.injEq] at hBound
    obtain ⟨parsed, hParsed, rfl⟩ := hUrl
    subst hRequired hListed
    refine ⟨hVersion', ⟨parsed, hParsed, attributes_isHttpsOrigin.mp hOrigin⟩, hAlgorithms,
      forall_string_mem.mp hKnown, ?_⟩
    intro hOther
    rw [← List.length_map KeyDescriptor.document]
    exact hBound.resolve_left hOther
  · intro h
    obtain ⟨url, hParsed, hOrigin⟩ := h.subject
    refine ⟨_, _, attributes url, ?_, ?_, attributes_isHttpsOrigin.mpr hOrigin, ?_, ?_,
      forall_string_mem.mpr h.known, hKeys, ?_⟩
    · rw [hVersion, stringField, h.version]
    · refine ⟨manifest.subject, ?_, (newUrl_eq_some hSame).mpr ⟨url, hParsed, rfl⟩⟩
      rw [hSubject, hText]
    · rw [hPolicy, required_algorithms_document, h.algorithms]
      rfl
    · rw [hCapabilities, required_document]
      rfl
    · rw [hEnvironment, stringField, Option.some_inj, Value.string.injEq, List.length_map]
      by_cases hDevelopment : manifest.environment = "development"
      · exact .inl hDevelopment
      · exact .inr (h.bound hDevelopment)

/-- Every manifest that `Manifest::validate` admits passes, and what passes are the
manifests of `ManifestShape`. The converse of the first half fails: keys, artifacts
and times are hardly looked at. -/
theorem validateManifestShape_validate (crates : Crates) (platform : Platform)
    (hSame : SameParser crates platform) (manifest : Manifest) :
    (manifest.validate crates = .ok () →
        validateManifestShape platform manifest.document = .ok ()) ∧
      (validateManifestShape platform manifest.document = .ok () ↔
        ManifestShape crates manifest) := by
  refine ⟨?_, validateManifestShape_document hSame⟩
  intro h
  exact (validateManifestShape_document hSame).mpr (.of_valid (Manifest.validate_eq_ok.mp h))

/-- The platform beside the crates of the test vector, for the sample. -/
def Platform.model : Platform where
  newUrl text := (Crates.model.parseUrl text).toOption.map attributes
  format _ := .ok "undefined"

theorem validateManifestShape_validate_sample :
    SameParser .model .model ∧
      Manifest.sample.validate .model = .ok () ∧
      validateManifestShape .model Manifest.sample.document = .ok () := by
  have hSame : SameParser .model .model := fun _ => rfl
  exact ⟨hSame, Manifest.validate_sample,
    (validateManifestShape_validate .model .model hSame .sample).1 Manifest.validate_sample⟩

end Documents

end Tfws.Sdk
