import Tfws.Core.CoseEncoding
import Tfws.Crates.EncodedLength

/-! The envelope parser accepts exactly the envelopes that the encoder writes
for some payload, key identifiers and signatures. -/
namespace Tfws

open SerdeJson Fallible Cbor

variable {crates : Crates} {limits : CoseLimits}

/-- What an envelope of the profile carries. Its protected headers follow from
the key identifiers. -/
structure EnvelopeContent where
  payload : Bytes
  keyId : CoseAlgorithm → String
  signature : CoseAlgorithm → Bytes
  keyId_ne : ∀ algorithm, keyId algorithm ≠ ""
  signature_length : ∀ algorithm, (signature algorithm).length = algorithm.expectedSignatureLen

namespace EnvelopeContent

variable (content : EnvelopeContent) (algorithm : CoseAlgorithm)

/-- The key identifier as the header holds it, in octets. It is compared with the
descriptor later. -/
def kid : Bytes := Utf8.encode (content.keyId algorithm)

/-- The protected header of the signature with the algorithm, as octets. -/
def protectedHeader : Bytes := (signatureProtectedItem algorithm (content.kid algorithm)).encode

/-- The signature as the encoder takes it, out of a content. -/
def encoded : EncodedSignature where
  protectedHeader := content.protectedHeader algorithm
  signature := content.signature algorithm

/-- The signature as the parser returns it, out of the same content. -/
def parsed : ParsedSignature where
  algorithm := algorithm
  protectedHeader := content.protectedHeader algorithm
  kid := content.kid algorithm
  signature := content.signature algorithm

/-- The one envelope with this content. Tags, labels and the shape around it leave no
choice. -/
def octets : Bytes :=
  (envelopeItem bodyProtectedItem.encode content.payload
    (requiredSignatures.map content.encoded)).encode

/-- The envelope as the parser returns it. Headers are kept as octets, since they are
signed. -/
def parsedEnvelope : ParsedEnvelope where
  bodyProtected := bodyProtectedItem.encode
  payload := content.payload
  signatures := requiredSignatures.map content.parsed

/-- Every octet string of the content fits a head, as in every document that was
read. -/
structure Short : Prop where
  payload : content.payload.length < 18446744073709551616
  protectedHeader : ∀ algorithm, (content.protectedHeader algorithm).length < 18446744073709551616

/-- The limits that an envelope with this content has to respect, each where the
parser looks at it. -/
structure Within (limits : CoseLimits) : Prop where
  depth : 4 ≤ limits.cbor.maxDepth
  arrayItems : 4 ≤ limits.cbor.maxArrayItems
  mapPairs : 2 ≤ limits.cbor.maxMapPairs
  envelope : content.octets.length ≤ limits.maxEnvelopeBytes.toNat
  body : bodyProtectedItem.encode.length ≤ limits.cbor.maxStringBytes.toNat
  payload : content.payload.length ≤ limits.cbor.maxManifestBytes.toNat
  protectedHeader : ∀ algorithm,
    (content.protectedHeader algorithm).length ≤ limits.cbor.maxStringBytes.toNat
  signature : ∀ algorithm,
    (content.signature algorithm).length ≤ limits.cbor.maxStringBytes.toNat

end EnvelopeContent

/-- The header that the encoder writes for the body passes, if it is within the
limit. -/
theorem validateBodyProtected_encode
    (h : bodyProtectedItem.encode.length ≤ limits.cbor.maxStringBytes.toNat) :
    validateBodyProtected crates limits bodyProtectedItem.encode = .ok () := by
  have hEncode : bodyProtectedItem.encode = head 5 2 ++ ((Item.int 3).encode ++
      ((Item.text coseContentType).encode ++ ((Item.int 16).encode ++
        ((Item.text coseType).encode ++ [])))) := by
    rw [bodyProtectedItem, Item.encode_map]
    simp only [Item.encodeEntries, List.append_assoc, List.length_cons, List.length_nil]
  have hTwo : (2 : UInt64).toNat = 2 := by decide
  have hThree : (3 : Int64).toInt = 3 := by decide
  have hSixteen : (16 : Int64).toInt = 16 := by decide
  have hContentType : (Utf8.encode coseContentType).length ≤ limits.cbor.maxStringBytes.toNat :=
    le_trans (by decide) h
  have hType : (Utf8.encode coseType).length ≤ limits.cbor.maxStringBytes.toNat :=
    le_trans (by decide) h
  rw [validateBodyProtected, encodeBodyProtected_eq, hEncode, readMapLength_head hTwo]
  simp only [ok_bind, readHeaderLabel_encode hThree, readHeaderLabel_encode hSixteen,
    readText_encode (hContentType.trans_lt (limit_lt _)),
    readText_encode (hType.trans_lt (limit_lt _)), failIf_of_not (not_lt.mpr hContentType),
    failIf_of_not (not_lt.mpr hType), failIf_ne_self]

theorem signatureProtected_encode (algorithm : CoseAlgorithm) (kid : Bytes) :
    (signatureProtectedItem algorithm kid).encode = head 5 2 ++ ((Item.int 1).encode ++
      ((Item.int algorithm.coseValue.toInt).encode ++ ((Item.int 4).encode ++
        ((Item.bytes kid).encode ++ [])))) := by
  rw [signatureProtectedItem, Item.encode_map]
  simp only [Item.encodeEntries, List.append_assoc, List.length_cons, List.length_nil]

/-- The header adds at most five octets to the encoded key identifier, which the
limits have to leave room for. -/
theorem length_signatureProtected_le (algorithm : CoseAlgorithm) (kid : Bytes) :
    (signatureProtectedItem algorithm kid).encode.length ≤ headLength kid.length + kid.length + 5 := by
  have hMap : (head 5 2).length = 1 := by decide
  have hOne : (Item.int 1).encode.length = 1 := by decide
  have hFour : (Item.int 4).encode.length = 1 := by decide
  have hAlgorithm : (Item.int algorithm.coseValue.toInt).encode.length ≤ 2 := by
    cases algorithm <;> decide
  have hKid : (Item.bytes kid).encode.length = headLength kid.length + kid.length := by
    rw [Item.encode_bytes, List.length_append, length_head]
  rw [signatureProtected_encode]
  simp only [List.length_append, List.length_nil, hMap, hOne, hFour, hKid]
  omega

theorem kid_length_le (algorithm : CoseAlgorithm) (kid : Bytes) :
    kid.length ≤ (signatureProtectedItem algorithm kid).encode.length := by
  rw [signatureProtected_encode, Item.encode_bytes]
  simp only [List.length_append, List.length_nil]
  omega

/-- The header of a signature gives its key identifier back, if it is within the limit
and not empty. -/
theorem validateSignatureProtected_encode {algorithm : CoseAlgorithm} {keyId : String}
    (hKeyId : keyId ≠ "")
    (h : (signatureProtectedItem algorithm (Utf8.encode keyId)).encode.length ≤
      limits.cbor.maxStringBytes.toNat) :
    validateSignatureProtected crates limits algorithm
        (signatureProtectedItem algorithm (Utf8.encode keyId)).encode =
      .ok (Utf8.encode keyId) := by
  have hTwo : (2 : UInt64).toNat = 2 := by decide
  have hOne : (1 : Int64).toInt = 1 := by decide
  have hFour : (4 : Int64).toInt = 4 := by decide
  have hKid := (kid_length_le algorithm (Utf8.encode keyId)).trans h
  have hShort := hKid.trans_lt (limit_lt _)
  have hValid : ¬(Utf8.encode keyId = [] ∨ Utf8.decode (Utf8.encode keyId) = none) := by
    simp [hKeyId]
  rw [validateSignatureProtected, signatureProtected_encode, readMapLength_head hTwo]
  simp only [ok_bind, readHeaderLabel_encode hOne, i64_encode, mapError_ok,
    readHeaderLabel_encode hFour, readBytes_encode hShort, failIf_of_not (not_lt.mpr hKid),
    failIf_of_not hValid, failIf_ne_self, encodeSignatureProtected_eq algorithm hShort,
    signatureProtected_encode]

/-- Only a limit that the content does not respect stops the parser. Where they are
all respected, this is no error. -/
def OverLimit (within : Prop) (error : CoseEnvelopeError) : Prop :=
  (∃ name, error = .resourceLimit name) ∧ ¬within

section Reading

variable {within : Prop}

theorem readBytes_outcome {octets : Bytes} (hShort : octets.length < 18446744073709551616)
    {maximum : UInt64} (hWithin : within → octets.length ≤ maximum.toNat) (name : String)
    (rest : Bytes) :
    Outcome (readBytes crates maximum name ((Item.bytes octets).encode ++ rest))
      (fun result => result = (octets, rest) ∧ octets.length ≤ maximum.toNat)
      (OverLimit within) := by
  rw [readBytes_encode hShort]
  refine Outcome.check (fun hLong => ?_) fun hFits => ⟨rfl, not_lt.mp hFits⟩
  exact ⟨⟨name, rfl⟩, fun h => absurd (hWithin h) (not_le.mpr hLong)⟩

variable {content : EnvelopeContent}

/-- One signature of an envelope is read back, or some limit is exceeded, whatever
octets follow it. -/
theorem parseSignature_outcome (hShort : content.Short)
    (hWithin : within → content.Within limits) (algorithm : CoseAlgorithm) (rest : Bytes) :
    Outcome (parseSignature crates limits algorithm
        ((signatureItem (content.encoded algorithm)).encode ++ rest))
      (· = (content.parsed algorithm, rest)) (OverLimit within) := by
  have hLength := content.signature_length algorithm
  have hSignatureShort : (content.signature algorithm).length < 18446744073709551616 := by
    rw [hLength]
    cases algorithm <;> decide
  have hThree : (3 : UInt64).toNat = 3 := by decide
  have hEncode : (signatureItem (content.encoded algorithm)).encode ++ rest =
      head 4 3 ++ ((Item.bytes (content.protectedHeader algorithm)).encode ++ (head 5 0 ++
        ((Item.bytes (content.signature algorithm)).encode ++ rest))) := by
    simp [signatureItem, EnvelopeContent.encoded, Item.encode, Item.encodeItems,
      Item.encodeEntries]
  rw [hEncode, parseSignature, expectArray_head hThree, ok_bind]
  refine (readBytes_outcome (hShort.protectedHeader algorithm)
    (fun h => (hWithin h).protectedHeader algorithm) _ _).bind fun read hRead => ?_
  obtain ⟨rfl, hProtected⟩ := hRead
  have hKid : validateSignatureProtected crates limits algorithm _ = .ok _ :=
    validateSignatureProtected_encode (content.keyId_ne algorithm) hProtected
  simp only [EnvelopeContent.protectedHeader, EnvelopeContent.kid, hKid, ok_bind,
    expectEmptyMap_head]
  refine (readBytes_outcome hSignatureShort
    (fun h => (hWithin h).signature algorithm) _ _).bind fun read hRead => ?_
  obtain ⟨rfl, _⟩ := hRead
  simp only [validateSignatureLength, hLength, failIf_ne_self, ok_bind]
  rfl

/-- So are all of them, by induction on the algorithms demanded, with the octets
behind them general. -/
theorem parseSignatures_outcome (hShort : content.Short)
    (hWithin : within → content.Within limits) (algorithms : List CoseAlgorithm) (rest : Bytes) :
    Outcome (parseSignatures crates limits algorithms
        (Item.encodeItems ((algorithms.map content.encoded).map signatureItem) ++ rest))
      (· = (algorithms.map content.parsed, rest)) (OverLimit within) := by
  induction algorithms with
  | nil => rfl
  | cons algorithm algorithms ih =>
      rw [List.map_cons, List.map_cons, Item.encodeItems, List.append_assoc, parseSignatures]
      refine (parseSignature_outcome hShort hWithin algorithm _).bind fun read hRead => ?_
      subst hRead
      refine ih.bind fun read hRead => ?_
      subst hRead
      rfl

theorem envelope_encode (bodyProtected payload : Bytes) (signatures : List EncodedSignature) :
    (envelopeItem bodyProtected payload signatures).encode =
      0xD8 :: 0x62 :: (head 4 4 ++ ((Item.bytes bodyProtected).encode ++ (head 5 0 ++
        ((Item.bytes payload).encode ++ (head 4 signatures.length ++
          (Item.encodeItems (signatures.map signatureItem) ++ [])))))) := by
  have hTag : head 6 98 = [0xD8, 0x62] := by decide
  simp [envelopeItem, Item.encode, Item.encodeItems, Item.encodeEntries, hTag]

theorem validateFixedShapeLimits_outcome {raises : CoseEnvelopeError → Prop}
    (hRaises : ∀ name, ¬(4 ≤ limits.cbor.maxDepth ∧ 4 ≤ limits.cbor.maxArrayItems ∧
      2 ≤ limits.cbor.maxMapPairs) → raises (.resourceLimit name)) :
    Outcome (validateFixedShapeLimits limits)
      (fun _ => 4 ≤ limits.cbor.maxDepth ∧ 4 ≤ limits.cbor.maxArrayItems ∧
        2 ≤ limits.cbor.maxMapPairs) raises := by
  refine Outcome.check (fun h => hRaises _ fun hFits => UInt64.not_lt.mpr hFits.1 h)
    fun hDepth => ?_
  refine Outcome.check (fun h => hRaises _ fun hFits => UInt64.not_lt.mpr hFits.2.1 h)
    fun hItems => ?_
  refine (Outcome.lastCheck fun h => hRaises _ fun hFits =>
    UInt64.not_lt.mpr hFits.2.2 h).mono fun _ hPairs => ?_
  exact ⟨UInt64.not_lt.mp hDepth, UInt64.not_lt.mp hItems, UInt64.not_lt.mp hPairs⟩

theorem EnvelopeContent.Short.encoded_short (hShort : content.Short)
    (algorithms : List CoseAlgorithm) :
    ∀ signature ∈ algorithms.map content.encoded, signature.Short := by
  refine List.forall_mem_map.mpr fun algorithm _ => ⟨hShort.protectedHeader algorithm, ?_⟩
  show (content.signature algorithm).length < _
  rw [content.signature_length]
  cases algorithm <;> decide

/-- The encoder writes the envelope of a content, if anything: nothing else can come
out of it. -/
theorem EnvelopeContent.Short.encodeEnvelope_eq_ok (hShort : content.Short) {octets : Bytes} :
    encodeEnvelope crates bodyProtectedItem.encode content.payload
      (requiredSignatures.map content.encoded) = .ok octets ↔ octets = content.octets := by
  rw [Tfws.encodeEnvelope_eq_ok (by decide) hShort.payload (hShort.encoded_short _)]
  exact ⟨fun h => h.2, fun h => ⟨rfl, h⟩⟩

/-- The parser gets an envelope's content back, or some limit is exceeded. Within the
limits the second cannot happen. -/
theorem parseEnvelope_outcome (hShort : content.Short)
    (hWithin : within → content.Within limits) :
    Outcome (parseEnvelope crates content.octets limits) (· = content.parsedEnvelope)
      (OverLimit within) := by
  have hFour : (4 : UInt64).toNat = 4 := by decide
  have hTwo : (2 : UInt64).toNat = 2 := by decide
  have hBody : bodyProtectedItem.encode.length < 18446744073709551616 := by decide
  have hEncode : encodeEnvelope crates bodyProtectedItem.encode content.payload
      (requiredSignatures.map content.encoded) = .ok content.octets :=
    hShort.encodeEnvelope_eq_ok.mpr rfl
  have hOctets := envelope_encode bodyProtectedItem.encode content.payload
    (requiredSignatures.map content.encoded)
  rw [← EnvelopeContent.octets] at hOctets
  have hLong : ¬content.octets.length < 3 := by
    rw [hOctets]
    simp only [List.length_cons, List.length_append, length_head, headLength]
    omega
  have hTag : ¬content.octets.take 2 ≠ [0xD8, 0x62] := by
    rw [hOctets]
    exact not_not.mpr rfl
  have hTail : content.octets.drop 2 = head 4 4 ++ ((Item.bytes bodyProtectedItem.encode).encode ++
      (head 5 0 ++ ((Item.bytes content.payload).encode ++ (head 4 2 ++ (Item.encodeItems
        ((requiredSignatures.map content.encoded).map signatureItem) ++ []))))) := by
    rw [hOctets]
    rfl
  refine (validateFixedShapeLimits_outcome fun name hNot => ⟨⟨name, rfl⟩, fun h => hNot
    ⟨(hWithin h).depth, (hWithin h).arrayItems, (hWithin h).mapPairs⟩⟩).bind fun _ _ => ?_
  refine Outcome.check (fun h => ⟨⟨_, rfl⟩, fun hFits =>
    absurd (hWithin hFits).envelope (not_le.mpr h)⟩) fun _ => ?_
  rw [failIf_of_not hLong, ok_bind, failIf_of_not hTag, ok_bind, hTail, expectArray_head hFour,
    ok_bind]
  refine (readBytes_outcome hBody (fun h => (hWithin h).body) _ _).bind fun read hRead => ?_
  obtain ⟨rfl, hBodyFits⟩ := hRead
  simp only [validateBodyProtected_encode hBodyFits, ok_bind, expectEmptyMap_head]
  refine (readBytes_outcome hShort.payload (fun h => (hWithin h).payload) _ _).bind
    fun read hRead => ?_
  obtain ⟨rfl, _⟩ := hRead
  simp only [expectArray_head hTwo, ok_bind]
  refine (parseSignatures_outcome hShort hWithin requiredSignatures []).bind fun read hRead => ?_
  subst hRead
  have hEncoded : ((requiredSignatures.map content.parsed).map fun signature =>
      ({ protectedHeader := signature.protectedHeader, signature := signature.signature } :
        EncodedSignature)) = requiredSignatures.map content.encoded := rfl
  simp only [hEncoded, hEncode, ok_bind, failIf_ne_self]
  rfl

end Reading

/-- A result whatever the error: a postcondition for success alone. The errors of the
parser are followed apart. -/
abbrev Returns {α : Type} (computation : CoseResult α) (returns : α → Prop) : Prop :=
  Outcome computation returns fun _ => True

theorem returns_any {α : Type} (computation : CoseResult α) : Returns computation fun _ => True :=
  Outcome.any (fun _ => trivial) computation

theorem readBytes_returns (maximum : UInt64) (name : String) (input : Bytes) :
    Returns (readBytes crates maximum name input)
      fun result => result.1.length ≤ maximum.toNat := by
  refine (returns_any _).bind fun _ _ => Outcome.check (fun _ => trivial) fun _ => ?_
  refine Outcome.check (fun _ => trivial) fun _ => (returns_any _).bind fun _ _ => ?_
  exact Outcome.check (fun _ => trivial) fun hShort => not_lt.mp hShort

/-- Only one header passes for the body, octet by octet, because its encoding is
compared. -/
theorem validateBodyProtected_returns (input : Bytes) :
    Returns (validateBodyProtected crates limits input)
      fun _ => input = bodyProtectedItem.encode := by
  refine (returns_any _).bind fun _ _ => Outcome.check (fun _ => trivial) fun _ => ?_
  refine (returns_any _).bind fun _ _ => Outcome.check (fun _ => trivial) fun _ => ?_
  refine (returns_any _).bind fun _ _ => Outcome.check (fun _ => trivial) fun _ => ?_
  refine (returns_any _).bind fun _ _ => Outcome.check (fun _ => trivial) fun _ => ?_
  refine (returns_any _).bind fun _ _ => Outcome.check (fun _ => trivial) fun _ => ?_
  refine Outcome.check (fun _ => trivial) fun _ => ?_
  rw [encodeBodyProtected_eq, ok_bind]
  exact (Outcome.lastCheck fun _ => trivial).mono fun _ hEqual => (not_not.mp hEqual).symm

/-- The header of a signature is the one written for its key identifier, octet by
octet. -/
theorem validateSignatureProtected_returns (algorithm : CoseAlgorithm) (input : Bytes) :
    Returns (validateSignatureProtected crates limits algorithm input) fun kid =>
      (∃ keyId, keyId ≠ "" ∧ kid = Utf8.encode keyId) ∧
        input = (signatureProtectedItem algorithm kid).encode := by
  refine (returns_any _).bind fun _ _ => Outcome.check (fun _ => trivial) fun _ => ?_
  refine (returns_any _).bind fun _ _ => Outcome.check (fun _ => trivial) fun _ => ?_
  refine (returns_any _).bind fun _ _ => Outcome.check (fun _ => trivial) fun _ => ?_
  refine (returns_any _).bind fun _ _ => Outcome.check (fun _ => trivial) fun _ => ?_
  refine (readBytes_returns _ _ _).bind fun kid hKid => ?_
  refine Outcome.check (fun _ => trivial) fun hText => Outcome.check (fun _ => trivial) fun _ => ?_
  rw [encodeSignatureProtected_eq algorithm (hKid.trans_lt (limit_lt _)), ok_bind]
  refine Outcome.check (fun _ => trivial) fun hEqual => ⟨?_, (not_not.mp hEqual).symm⟩
  obtain ⟨hNonempty, hSome⟩ := not_or.mp hText
  obtain ⟨keyId, hKeyId⟩ := Option.ne_none_iff_exists'.mp hSome
  obtain hOctets := Utf8.decode_eq_some.mp hKeyId
  refine ⟨keyId, ?_, hOctets⟩
  rintro rfl
  exact hNonempty (by simpa using hOctets)

/-- A parsed signature of the profile: the algorithm of its place, the header for some
key identifier and the fixed length. -/
structure ParsedSignature.Valid (limits : CoseLimits) (algorithm : CoseAlgorithm)
    (signature : ParsedSignature) : Prop where
  algorithm_eq : signature.algorithm = algorithm
  kid : ∃ keyId, keyId ≠ "" ∧ signature.kid = Utf8.encode keyId
  protectedHeader : signature.protectedHeader =
    (signatureProtectedItem algorithm signature.kid).encode
  length : signature.signature.length = algorithm.expectedSignatureLen
  protectedHeader_le : signature.protectedHeader.length ≤ limits.cbor.maxStringBytes.toNat
  signature_le : signature.signature.length ≤ limits.cbor.maxStringBytes.toNat

/-- Whatever is parsed as a signature is one of the profile, with its algorithm and
length. -/
theorem parseSignature_returns (algorithm : CoseAlgorithm) (input : Bytes) :
    Returns (parseSignature crates limits algorithm input)
      fun result => result.1.Valid limits algorithm := by
  refine (returns_any _).bind fun _ _ => (readBytes_returns _ _ _).bind fun header hHeader => ?_
  refine (validateSignatureProtected_returns algorithm header.1).bind fun kid hKid => ?_
  refine (returns_any _).bind fun _ _ => (readBytes_returns _ _ _).bind fun read hRead => ?_
  refine Outcome.check (fun _ => trivial) fun hLength => ?_
  exact ⟨rfl, hKid.1, hKid.2, not_not.mp hLength, hHeader, hRead⟩

/-- Whatever is parsed as the signatures are those of the profile, in the order
demanded. -/
theorem parseSignatures_returns (algorithms : List CoseAlgorithm) (input : Bytes) :
    Returns (parseSignatures crates limits algorithms input) fun result =>
      List.Forall₂ (ParsedSignature.Valid limits) algorithms result.1 := by
  induction algorithms generalizing input with
  | nil => exact List.Forall₂.nil
  | cons algorithm algorithms ih =>
      refine (parseSignature_returns algorithm input).bind fun first hFirst => ?_
      refine (ih first.2).bind fun others hOthers => ?_
      exact List.Forall₂.cons hFirst hOthers

/-- Two parsed signatures in the required order and a payload make a content, which is
then written as the envelope. -/
theorem exists_content (payload : Bytes) {signatures : List ParsedSignature}
    (h : List.Forall₂ (ParsedSignature.Valid limits) requiredSignatures signatures) :
    ∃ content : EnvelopeContent, content.payload = payload ∧
      requiredSignatures.map content.parsed = signatures ∧
      ∀ algorithm, (content.parsed algorithm).Valid limits algorithm := by
  obtain ⟨first, others, hFirst, hOthers, rfl⟩ := List.forall₂_cons_left_iff.mp h
  obtain ⟨second, rest, hSecond, hRest, rfl⟩ := List.forall₂_cons_left_iff.mp hOthers
  obtain rfl := List.forall₂_nil_left_iff.mp hRest
  obtain ⟨firstKeyId, hFirstNe, hFirstKid⟩ := hFirst.kid
  obtain ⟨secondKeyId, hSecondNe, hSecondKid⟩ := hSecond.kid
  let content : EnvelopeContent := {
    payload := payload
    keyId := CoseAlgorithm.select firstKeyId secondKeyId
    signature := CoseAlgorithm.select first.signature second.signature
    keyId_ne := by
      rintro (_ | _)
      · exact hFirstNe
      · exact hSecondNe
    signature_length := by
      rintro (_ | _)
      · exact hFirst.length
      · exact hSecond.length }
  have hParsedFirst : content.parsed .ed25519 = first :=
    ParsedSignature.ext hFirst.algorithm_eq.symm (by rw [hFirst.protectedHeader, hFirstKid]; rfl)
      hFirstKid.symm rfl
  have hParsedSecond : content.parsed .mlDsa65 = second :=
    ParsedSignature.ext hSecond.algorithm_eq.symm
      (by rw [hSecond.protectedHeader, hSecondKid]; rfl) hSecondKid.symm rfl
  refine ⟨content, rfl, ?_, ?_⟩
  · rw [requiredSignatures, List.map_cons, List.map_cons, List.map_nil, hParsedFirst,
      hParsedSecond]
  · rintro (_ | _)
    · rwa [hParsedFirst]
    · rwa [hParsedSecond]

/-- Whatever is parsed is the envelope of some content within the limits. The
comparison at the end of the parser sees to it. -/
theorem parseEnvelope_returns (input : Bytes) :
    Returns (parseEnvelope crates input limits) fun parsed =>
      ∃ content : EnvelopeContent, content.Within limits ∧ input = content.octets ∧
        parsed = content.parsedEnvelope := by
  refine (validateFixedShapeLimits_outcome fun _ _ => trivial).bind
    fun _ ⟨hDepth, hItems, hPairs⟩ => ?_
  refine Outcome.check (fun _ => trivial) fun hShort => Outcome.check (fun _ => trivial) fun _ => ?_
  refine Outcome.check (fun _ => trivial) fun _ => (returns_any _).bind fun _ _ => ?_
  refine (readBytes_returns _ _ _).bind fun body hBodyFits => ?_
  refine (validateBodyProtected_returns body.1).bind fun _ hBody => ?_
  refine (returns_any _).bind fun _ _ => (readBytes_returns _ _ _).bind fun payload hPayload => ?_
  refine (returns_any _).bind fun _ _ => (parseSignatures_returns _ _).bind
    fun signatures hSignatures => Outcome.check (fun _ => trivial) fun _ => ?_
  obtain ⟨content, hContentPayload, hParsed, hValid⟩ := exists_content payload.1 hSignatures
  have hEncoded : (signatures.1.map fun signature =>
      ({ protectedHeader := signature.protectedHeader, signature := signature.signature } :
        EncodedSignature)) = requiredSignatures.map content.encoded := by
    rw [← hParsed]
    rfl
  have hAllShort : ∀ signature ∈ requiredSignatures.map content.encoded, signature.Short :=
    List.forall_mem_map.mpr fun algorithm _ =>
      ⟨(hValid algorithm).protectedHeader_le.trans_lt (limit_lt _),
        (hValid algorithm).signature_le.trans_lt (limit_lt _)⟩
  have hEncode : encodeEnvelope crates body.1 payload.1
      (requiredSignatures.map content.encoded) = .ok content.octets := by
    refine (encodeEnvelope_eq_ok (hBodyFits.trans_lt (limit_lt _))
      (hPayload.trans_lt (limit_lt _)) hAllShort).mpr ⟨rfl, ?_⟩
    rw [EnvelopeContent.octets, hContentPayload, ← hBody]
  rw [hEncoded, hEncode, ok_bind]
  refine Outcome.check (fun _ => trivial) fun hEqual => ?_
  have hInput : content.octets = input := not_not.mp hEqual
  refine ⟨content, ?_, hInput.symm, ?_⟩
  · exact {
      depth := hDepth
      arrayItems := hItems
      mapPairs := hPairs
      envelope := by rw [hInput]; exact not_lt.mp hShort
      body := by rw [← hBody]; exact hBodyFits
      payload := by rw [hContentPayload]; exact hPayload
      protectedHeader := fun algorithm => (hValid algorithm).protectedHeader_le
      signature := fun algorithm => (hValid algorithm).signature_le }
  · rw [EnvelopeContent.parsedEnvelope, ← hBody, hContentPayload, hParsed]

/-- The parser accepts the envelopes of contents within the limits, and nothing else:
parsing inverts writing, octet for octet. -/
theorem parseEnvelope_eq_ok {input : Bytes} {parsed : ParsedEnvelope} :
    parseEnvelope crates input limits = .ok parsed ↔
      ∃ content : EnvelopeContent, content.Within limits ∧ input = content.octets ∧
        parsed = content.parsedEnvelope := by
  refine ⟨(parseEnvelope_returns input).of_ok, ?_⟩
  rintro ⟨content, hWithin, rfl, rfl⟩
  have hShort : content.Short :=
    ⟨hWithin.payload.trans_lt (limit_lt _),
      fun algorithm => (hWithin.protectedHeader algorithm).trans_lt (limit_lt _)⟩
  have hOutcome : Outcome (parseEnvelope crates content.octets limits)
      (· = content.parsedEnvelope) (OverLimit True) :=
    parseEnvelope_outcome hShort fun _ => hWithin
  cases hResult : parseEnvelope crates content.octets limits with
  | ok parsed => rw [hOutcome.of_ok hResult]
  | error error => exact absurd trivial (hOutcome.of_error hResult).2

end Tfws
