import Tfws.Agreement.Conformance
import Tfws.Core.CoseErrors
import Tfws.Vectors.NegativeVectors

/-! What the parser of `tfws-core` makes of the envelopes of the vector
generator. -/
namespace Tfws.Vectors

open SerdeJson Fallible Cbor

variable {crates : Crates} {payload body envelope : Bytes} {raised : CoseEnvelopeError}

/-- The row of `expected` for an algorithm, as the generator has it. The two programs
name the algorithms in their own ways. -/
def profileFor : CoseAlgorithm → Profile := CoseAlgorithm.select ed25519 mlDsa65

theorem profileFor_mem (algorithm : CoseAlgorithm) : profileFor algorithm ∈ expectedProfiles := by
  cases algorithm with
  | ed25519 => exact ed25519_mem
  | mlDsa65 => exact mlDsa65_mem

/-- Both write the same header for the body, octet for octet. -/
theorem standardBody_eq : standardBody = bodyProtectedItem.encode := rfl

/-- Both write the same header for a signature, with the generator's one key
identifier. -/
theorem header_eq (algorithm : CoseAlgorithm) : (profileFor algorithm).header =
    (signatureProtectedItem algorithm (Utf8.encode "release-1")).encode := by
  cases algorithm <;> rfl

/-- Both stretch a digest in the same way, one by repeating it and one by cycling
through it. -/
theorem fixture_eq (algorithm : CoseAlgorithm) (message : Bytes) :
    (profileFor algorithm).fixture Cli.sha256 message = Cli.fixtureSignature algorithm message := by
  rw [← Tfws.fixtureSignature_eq]
  cases algorithm <;> rfl

/-- Both sign the same message, so that the fixtures of the one verify under the
other. -/
theorem message_eq (body header payload : Bytes) :
    message body header payload = (sigStructureItem body header payload).encode := rfl

/-- A pair of a header and a signature, as `tfws-core` writes it into an envelope. -/
def encodedOf (pair : Bytes × Bytes) : EncodedSignature where
  protectedHeader := pair.1
  signature := pair.2

/-- Both encoders write the same envelope, for whatever header and signatures the
generator is given. -/
theorem makeEnvelope_octets {pairs : List (Bytes × Bytes)}
    (h : makeEnvelope (.bytes payload) (.bytes body) (pairs.map octetPair) = .ok envelope) :
    envelope = (Tfws.envelopeItem body payload (pairs.map encodedOf)).encode := by
  obtain ⟨-, rfl⟩ := cborEncode_eq_ok.mp h
  rw [sorted_envelopeItem, envelopeItem, Tfws.envelopeItem, List.map_map, List.map_map]
  rfl

/-- The envelope of a positive vector is the fixture envelope of its payload. -/
theorem signed_octets (h : makeEnvelope (.bytes payload) (.bytes standardBody)
      ([signedPair Cli.sha256 payload ed25519, signedPair Cli.sha256 payload mlDsa65].map
        octetPair) = .ok envelope) :
    envelope = fixtureEnvelope (fun _ => false) payload := by
  have hSigned (algorithm : CoseAlgorithm) :
      encodedOf (signedPair Cli.sha256 payload (profileFor algorithm)) =
        fixtureSigned (fun _ => false) payload algorithm := by
    rw [signedPair, fixture_eq, header_eq, encodedOf, fixtureSigned, fixtureMessage,
      signatureHeaderItem_false, message_eq, standardBody_eq]
  have hEd := hSigned .ed25519
  have hMl := hSigned .mlDsa65
  rw [makeEnvelope_octets h, fixtureEnvelope, standardBody_eq]
  simp only [profileFor, CoseAlgorithm.select] at hEd hMl
  simp only [requiredSignatures, List.map_cons, List.map_nil, hEd, hMl]

/-- The parts of an envelope respect the default limits. The positive vector does, and
the mutations hardly change the sizes. -/
structure Fits (body payload : Bytes) (signatures : List EncodedSignature) : Prop where
  envelope : (Tfws.envelopeItem body payload signatures).encode.length ≤
    CoseLimits.default.maxEnvelopeBytes.toNat
  body : body.length ≤ CoseLimits.default.cbor.maxStringBytes.toNat
  payload : payload.length ≤ CoseLimits.default.cbor.maxManifestBytes.toNat

/-- What is left to the parser behind the octet strings of the envelope, which fit the
limits. -/
theorem parseEnvelope_fits {signatures : List EncodedSignature} (h : Fits body payload signatures) :
    parseEnvelope crates (Tfws.envelopeItem body payload signatures).encode .default = (do
      validateBodyProtected crates .default body
      let rest ← expectArray crates 2 "signatures array"
        (Cbor.head 4 signatures.length ++ (Item.encodeItems (signatures.map signatureItem) ++ []))
      let (parsed, rest) ← parseSignatures crates .default requiredSignatures rest
      failIf (rest ≠ []) (.malformedCbor "trailing data after COSE_Sign")
      let deterministic ← encodeEnvelope crates body payload (parsed.map fun signature =>
        { protectedHeader := signature.protectedHeader, signature := signature.signature })
      failIf (deterministic ≠ (Tfws.envelopeItem body payload signatures).encode)
        .nonDeterministicCbor
      .ok { bodyProtected := body, payload, signatures := parsed }) := by
  have hFour : (4 : UInt64).toNat = 4 := by decide
  have hShape : validateFixedShapeLimits .default = .ok () := by decide
  have hLength : ¬CoseLimits.default.maxEnvelopeBytes.toNat <
      (Tfws.envelopeItem body payload signatures).encode.length := not_lt.mpr h.envelope
  have hBody : ¬CoseLimits.default.cbor.maxStringBytes.toNat < body.length := not_lt.mpr h.body
  have hPayload : ¬CoseLimits.default.cbor.maxManifestBytes.toNat < payload.length :=
    not_lt.mpr h.payload
  have hOctets := envelope_encode body payload signatures
  have hLong : ¬(Tfws.envelopeItem body payload signatures).encode.length < 3 := by
    rw [hOctets]
    simp only [List.length_cons, List.length_append, length_head, headLength]
    omega
  have hTag : ¬(Tfws.envelopeItem body payload signatures).encode.take 2 ≠ [0xD8, 0x62] := by
    rw [hOctets]
    exact not_not.mpr rfl
  have hTail : (Tfws.envelopeItem body payload signatures).encode.drop 2 =
      Cbor.head 4 4 ++ ((Item.bytes body).encode ++ (Cbor.head 5 0 ++
        ((Item.bytes payload).encode ++
        (Cbor.head 4 signatures.length ++
          (Item.encodeItems (signatures.map signatureItem) ++ []))))) := by
    rw [hOctets]
    rfl
  rw [parseEnvelope, hShape, ok_bind, failIf_of_not hLength, ok_bind, failIf_of_not hLong, ok_bind,
    failIf_of_not hTag, ok_bind, hTail, expectArray_head hFour, ok_bind,
    readBytes_encode (h.body.trans_lt (limit_lt _)), failIf_of_not hBody, ok_bind, ok_bind]
  dsimp only
  congr 1
  funext _
  rw [expectEmptyMap_head, ok_bind, readBytes_encode (h.payload.trans_lt (limit_lt _)),
    failIf_of_not hPayload, ok_bind, ok_bind]

theorem validateBodyProtected_extra :
    validateBodyProtected crates .default
      (bodyHeader coseContentType [(.int 99, .bool true)]).encode = .error .unsupportedHeader := by
  have hThree : (3 : UInt64).toNat = 3 := by decide
  have hNe : (3 : UInt64) ≠ 2 := by decide
  rw [bodyHeader, Item.encode_map, validateBodyProtected]
  simp only [List.length_cons, List.length_nil, Nat.zero_add, Nat.reduceAdd]
  rw [readMapLength_head hThree, ok_bind]
  dsimp only
  rw [failIf_of hNe, error_bind]

theorem validateBodyProtected_contentType {contentType : String}
    (hOther : contentType ≠ coseContentType)
    (hShort : (Utf8.encode contentType).length ≤ CoseLimits.default.cbor.maxStringBytes.toNat) :
    validateBodyProtected crates .default (bodyHeader contentType []).encode =
      .error .invalidContentType := by
  have hTwo : (2 : UInt64).toNat = 2 := by decide
  have hThree : (3 : Int64).toInt = 3 := by decide
  have hNe : contentType ≠ Tfws.coseContentType := hOther
  have hEncode : (bodyHeader contentType []).encode = Cbor.head 5 2 ++ ((Item.int 3).encode ++
      ((Item.text contentType).encode ++ ((Item.int 16).encode ++
        ((Item.text coseType).encode ++ [])))) := by
    rw [bodyHeader, Item.encode_map]
    simp only [Item.encodeEntries, List.append_assoc, List.length_cons, List.length_nil]
  rw [validateBodyProtected, hEncode, readMapLength_head hTwo]
  simp only [ok_bind, readHeaderLabel_encode hThree, readText_encode (hShort.trans_lt (limit_lt _)),
    failIf_of_not (not_lt.mpr hShort), failIf_ne_self]
  rw [failIf_of hNe, error_bind]

/-- What is left to the parser of a signature behind its octet strings. -/
theorem parseSignature_item {signature : EncodedSignature} (algorithm : CoseAlgorithm)
    (hHeader : signature.protectedHeader.length ≤ CoseLimits.default.cbor.maxStringBytes.toNat)
    (hSignature : signature.signature.length ≤ CoseLimits.default.cbor.maxStringBytes.toNat)
    (rest : Bytes) :
    parseSignature crates .default algorithm ((signatureItem signature).encode ++ rest) = (do
      let kid ← validateSignatureProtected crates .default algorithm signature.protectedHeader
      validateSignatureLength algorithm signature.signature.length
      .ok ({ algorithm, protectedHeader := signature.protectedHeader, kid,
             signature := signature.signature }, rest)) := by
  have hThree : (3 : UInt64).toNat = 3 := by decide
  have hEncode : (signatureItem signature).encode ++ rest =
      Cbor.head 4 3 ++ ((Item.bytes signature.protectedHeader).encode ++ (Cbor.head 5 0 ++
        ((Item.bytes signature.signature).encode ++ rest))) := by
    simp [signatureItem, Item.encode, Item.encodeItems, Item.encodeEntries]
  rw [hEncode, parseSignature, expectArray_head hThree, ok_bind,
    readBytes_encode (hHeader.trans_lt (limit_lt _)), failIf_of_not (not_lt.mpr hHeader), ok_bind,
    ok_bind]
  dsimp only
  congr 1
  funext kid
  rw [expectEmptyMap_head, ok_bind, readBytes_encode (hSignature.trans_lt (limit_lt _)),
    failIf_of_not (not_lt.mpr hSignature), ok_bind, ok_bind]

/-- Another algorithm than the one that is due is refused, before the key identifier
is read. -/
theorem validateSignatureProtected_algorithm {value : Int64} {algorithm : CoseAlgorithm}
    (hOther : value ≠ algorithm.coseValue) (kid' : Bytes) :
    validateSignatureProtected crates .default algorithm (signatureHeader value.toInt kid').encode =
      .error .invalidAlgorithm := by
  have hTwo : (2 : UInt64).toNat = 2 := by decide
  have hOne : (1 : Int64).toInt = 1 := by decide
  have hEncode : (signatureHeader value.toInt kid').encode = Cbor.head 5 2 ++
      ((Item.int 1).encode ++ ((Item.int value.toInt).encode ++ ((Item.int 4).encode ++
        ((Item.bytes kid').encode ++ [])))) := by
    rw [signatureHeader, Item.encode_map]
    simp only [Item.encodeEntries, List.append_assoc, List.length_cons, List.length_nil]
  rw [validateSignatureProtected, hEncode, readMapLength_head hTwo]
  simp only [ok_bind, readHeaderLabel_encode hOne, i64_encode, mapError_ok, failIf_ne_self,
    failIf_of hOther, error_bind]

/-- What is wrong with the header of the body is what the parser reports. -/
theorem parseEnvelope_of_body {signatures : List EncodedSignature}
    (h : Fits body payload signatures)
    (hBody : validateBodyProtected crates .default body = .error raised) :
    parseEnvelope crates (Tfws.envelopeItem body payload signatures).encode .default =
      .error raised := by
  rw [parseEnvelope_fits h, hBody, error_bind]

theorem validateBodyProtected_standard :
    validateBodyProtected crates .default bodyProtectedItem.encode = .ok () :=
  validateBodyProtected_encode (by decide)

theorem expectArray_of_ne {length expected : UInt64} (h : length ≠ expected) (name : String)
    (rest : Bytes) : expectArray crates expected name (Cbor.head 4 length.toNat ++ rest) =
      .error (.invalidCoseStructure name) := by
  have hFits := fits_preferred (limit_lt length)
  rw [expectArray, Cbor.head, crates.decoder.datatype_array _ _ _ hFits, mapError_ok, ok_bind,
    crates.decoder.array_head _ _ _ hFits]
  simp [failIf, h]

/-- An array with another number of signatures is refused for its length, before any
of them is read. -/
theorem parseEnvelope_of_count {signature : EncodedSignature}
    (h : Fits bodyProtectedItem.encode payload [signature]) :
    parseEnvelope crates (Tfws.envelopeItem bodyProtectedItem.encode payload [signature]).encode
      .default = .error (.invalidCoseStructure "signatures array") := by
  have hOne : (1 : UInt64).toNat = [signature].length := rfl
  have hNe : (1 : UInt64) ≠ 2 := by decide
  rw [parseEnvelope_fits h, validateBodyProtected_standard, ok_bind, ← hOne, expectArray_of_ne hNe,
    error_bind]

/-- What the parser makes of two signatures: each is parsed under its own algorithm,
and there is nothing left to compare. -/
theorem parseEnvelope_pair {first second : EncodedSignature}
    (h : Fits bodyProtectedItem.encode payload [first, second]) :
    parseEnvelope crates (Tfws.envelopeItem bodyProtectedItem.encode payload
      [first, second]).encode .default = (do
        let (one, rest) ← parseSignature crates .default .ed25519
          ((signatureItem first).encode ++ ((signatureItem second).encode ++ []))
        let (two, rest) ← parseSignature crates .default .mlDsa65 rest
        failIf (rest ≠ []) (.malformedCbor "trailing data after COSE_Sign")
        let deterministic ← encodeEnvelope crates bodyProtectedItem.encode payload
          [{ protectedHeader := one.protectedHeader, signature := one.signature },
            { protectedHeader := two.protectedHeader, signature := two.signature }]
        failIf (deterministic ≠ (Tfws.envelopeItem bodyProtectedItem.encode payload
          [first, second]).encode) .nonDeterministicCbor
        .ok { bodyProtected := bodyProtectedItem.encode, payload, signatures := [one, two] }) := by
  have hTwo : (2 : UInt64).toNat = 2 := by decide
  rw [parseEnvelope_fits h, validateBodyProtected_standard, ok_bind]
  simp only [List.length_cons, List.length_nil, Nat.zero_add, Nat.reduceAdd, List.map_cons,
    List.map_nil, Item.encodeItems, expectArray_head hTwo, ok_bind, requiredSignatures,
    parseSignatures, bind_assoc, List.append_nil]

section Pairs

variable {left right : Bytes × Bytes}

/-- A header and a signature of the algorithm that is due are parsed. -/
theorem parseSignature_due {keyId : String} {signature : Bytes} (algorithm : CoseAlgorithm)
    (hKeyId : keyId ≠ "") (hHeader : (signatureProtectedItem algorithm
      (Utf8.encode keyId)).encode.length ≤ CoseLimits.default.cbor.maxStringBytes.toNat)
    (hLength : signature.length = algorithm.expectedSignatureLen) (rest : Bytes) :
    parseSignature crates .default algorithm ((signatureItem (encodedOf
        ((signatureProtectedItem algorithm (Utf8.encode keyId)).encode, signature))).encode ++ rest) =
      .ok ({ algorithm, protectedHeader := (signatureProtectedItem algorithm
        (Utf8.encode keyId)).encode, kid := Utf8.encode keyId, signature }, rest) := by
  have hSignature : signature.length ≤ CoseLimits.default.cbor.maxStringBytes.toNat := by
    rw [hLength]
    cases algorithm <;> decide
  rw [parseSignature_item algorithm hHeader hSignature]
  dsimp only [encodedOf]
  rw [validateSignatureProtected_encode hKeyId hHeader, ok_bind, validateSignatureLength,
    failIf_of_not (not_not.mpr hLength), ok_bind]

/-- What is wrong with the first signature is what the parser reports; the second one
is not read. -/
theorem parseEnvelope_first (h : Fits bodyProtectedItem.encode payload ([left, right].map encodedOf))
    (hLeft : ∀ rest, parseSignature crates .default .ed25519
      ((signatureItem (encodedOf left)).encode ++ rest) = .error raised) :
    parseEnvelope crates (Tfws.envelopeItem bodyProtectedItem.encode payload
      ([left, right].map encodedOf)).encode .default = .error raised := by
  have hPair := @parseEnvelope_pair crates payload _ _ h
  rw [hLeft, error_bind] at hPair
  exact hPair

/-- What is wrong with the second signature is reported when the first one parses. -/
theorem parseEnvelope_second (h : Fits bodyProtectedItem.encode payload
      ([left, right].map encodedOf)) {parsed : ParsedSignature}
    (hLeft : ∀ rest, parseSignature crates .default .ed25519
      ((signatureItem (encodedOf left)).encode ++ rest) = .ok (parsed, rest))
    (hRight : ∀ rest, parseSignature crates .default .mlDsa65
      ((signatureItem (encodedOf right)).encode ++ rest) = .error raised) :
    parseEnvelope crates (Tfws.envelopeItem bodyProtectedItem.encode payload
      ([left, right].map encodedOf)).encode .default = .error raised := by
  have hPair := @parseEnvelope_pair crates payload _ _ h
  rw [hLeft, ok_bind] at hPair
  dsimp only at hPair
  rw [hRight, error_bind] at hPair
  exact hPair

/-- The header of another algorithm is refused, whatever signature follows, because
the place demands its own. -/
theorem parseSignature_other {value : Int64} {kid' signature : Bytes} {algorithm : CoseAlgorithm}
    (hOther : value ≠ algorithm.coseValue)
    (hHeader : (signatureHeader value.toInt kid').encode.length ≤
      CoseLimits.default.cbor.maxStringBytes.toNat)
    (hSignature : signature.length ≤ CoseLimits.default.cbor.maxStringBytes.toNat) (rest : Bytes) :
    parseSignature crates .default algorithm ((signatureItem (encodedOf
        ((signatureHeader value.toInt kid').encode, signature))).encode ++ rest) =
      .error .invalidAlgorithm := by
  rw [parseSignature_item algorithm hHeader hSignature]
  dsimp only [encodedOf]
  rw [validateSignatureProtected_algorithm hOther, error_bind]

/-- A signature of another length is refused, whatever its octets, and before any
verifier is asked. -/
theorem parseSignature_length {keyId : String} {signature : Bytes} (algorithm : CoseAlgorithm)
    (hKeyId : keyId ≠ "") (hHeader : (signatureProtectedItem algorithm
      (Utf8.encode keyId)).encode.length ≤ CoseLimits.default.cbor.maxStringBytes.toNat)
    (hSignature : signature.length ≤ CoseLimits.default.cbor.maxStringBytes.toNat)
    (hLength : signature.length ≠ algorithm.expectedSignatureLen) (rest : Bytes) :
    parseSignature crates .default algorithm ((signatureItem (encodedOf
        ((signatureProtectedItem algorithm (Utf8.encode keyId)).encode, signature))).encode ++ rest) =
      .error .signatureInvalid := by
  rw [parseSignature_item algorithm hHeader hSignature]
  dsimp only [encodedOf]
  rw [validateSignatureProtected_encode hKeyId hHeader, ok_bind, validateSignatureLength,
    failIf_of hLength, error_bind]

end Pairs

end Tfws.Vectors
