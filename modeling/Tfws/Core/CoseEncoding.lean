import Tfws.Core.Cose
import Tfws.Core.CborStructure

/-! The data items of an envelope, and what each reader does in front of them. -/
namespace Tfws

open Fallible Cbor

variable {crates : Crates} {limits : CoseLimits}

/-- The protected header of the body: content type and type, under their labels. -/
def bodyProtectedItem : Item :=
  .map [(.int 3, .text coseContentType), (.int 16, .text coseType)]

/-- The protected header of a signature: the algorithm under label 1 and the key
identifier under label 4. -/
def signatureProtectedItem (algorithm : CoseAlgorithm) (kid : Bytes) : Item :=
  .map [(.int 1, .int algorithm.coseValue.toInt), (.int 4, .bytes kid)]

/-- The message of a signature, with the external data left empty, as an item. -/
def sigStructureItem (bodyProtected signatureProtected payload : Bytes) : Item :=
  .array [.text "Signature", .bytes bodyProtected, .bytes signatureProtected, .bytes [],
    .bytes payload]

/-- One signature: its protected header, an empty map and the octets, as an item. -/
def signatureItem (signature : EncodedSignature) : Item :=
  .array [.bytes signature.protectedHeader, .map [], .bytes signature.signature]

/-- The whole envelope under its tag, as an item. The encoder writes its octets step
by step. -/
def envelopeItem (bodyProtected payload : Bytes) (signatures : List EncodedSignature) : Item :=
  .tag 98 (.array [.bytes bodyProtected, .map [], .bytes payload,
    .array (signatures.map signatureItem)])

/-- Every octet string of a signature can be written: its length fits a head. -/
def EncodedSignature.Short (signature : EncodedSignature) : Prop :=
  signature.protectedHeader.length < 18446744073709551616 ∧
    signature.signature.length < 18446744073709551616

theorem encodeBodyProtected_eq : encodeBodyProtected crates = .ok bodyProtectedItem.encode := by
  rw [encodeBodyProtected, crates.encoder.map_eq, mapError_ok, ok_bind, crates.encoder.u8_eq,
    mapError_ok, ok_bind, crates.encoder.str_eq _ _ (by decide), mapError_ok, ok_bind,
    crates.encoder.u8_eq, mapError_ok, ok_bind, crates.encoder.str_eq _ _ (by decide),
    mapError_ok]
  simp [bodyProtectedItem, Item.encode, Item.encodeEntries]

theorem encodeSignatureProtected_eq (algorithm : CoseAlgorithm) {kid : Bytes}
    (h : kid.length < 18446744073709551616) :
    encodeSignatureProtected crates algorithm kid =
      .ok (signatureProtectedItem algorithm kid).encode := by
  rw [encodeSignatureProtected, crates.encoder.map_eq, mapError_ok, ok_bind,
    crates.encoder.u8_eq, mapError_ok, ok_bind, crates.encoder.i64_eq, mapError_ok, ok_bind,
    crates.encoder.u8_eq, mapError_ok, ok_bind, crates.encoder.bytes_eq _ _ h, mapError_ok]
  simp [signatureProtectedItem, Item.encode, Item.encodeEntries]

/-- The message of a signature is the encoding of its item, as long as no part is too
long for a head. -/
theorem encodeSigStructure_eq {bodyProtected signatureProtected payload : Bytes}
    (hBody : bodyProtected.length < 18446744073709551616)
    (hProtected : signatureProtected.length < 18446744073709551616)
    (hPayload : payload.length < 18446744073709551616) :
    encodeSigStructure crates bodyProtected signatureProtected payload =
      .ok (sigStructureItem bodyProtected signatureProtected payload).encode := by
  rw [encodeSigStructure, crates.encoder.array_eq, mapError_ok, ok_bind,
    crates.encoder.str_eq _ _ (by decide), mapError_ok, ok_bind,
    crates.encoder.bytes_eq _ _ hBody, mapError_ok, ok_bind,
    crates.encoder.bytes_eq _ _ hProtected, mapError_ok, ok_bind,
    crates.encoder.bytes_eq _ _ (by decide), mapError_ok, ok_bind,
    crates.encoder.bytes_eq _ _ hPayload, mapError_ok]
  simp [sigStructureItem, Item.encode, Item.encodeItems]

theorem encodeSignatures_eq {signatures : List EncodedSignature}
    (h : ∀ signature ∈ signatures, signature.Short) (out : Bytes) :
    encodeSignatures crates signatures out =
      .ok (out ++ Item.encodeItems (signatures.map signatureItem)) := by
  induction signatures generalizing out with
  | nil => simp [encodeSignatures, Item.encodeItems]
  | cons signature rest ih =>
      obtain ⟨⟨hProtected, hSignature⟩, hRest⟩ := List.forall_mem_cons.mp h
      rw [encodeSignatures, crates.encoder.array_eq, mapError_ok, ok_bind,
        crates.encoder.bytes_eq _ _ hProtected, mapError_ok, ok_bind, crates.encoder.map_eq,
        mapError_ok, ok_bind, crates.encoder.bytes_eq _ _ hSignature, mapError_ok, ok_bind,
        ih hRest]
      simp [signatureItem, Item.encode, Item.encodeItems, Item.encodeEntries]

/-- An envelope is written exactly if there are as many signatures as the profile
demands, as the encoding of its item. -/
theorem encodeEnvelope_eq_ok {bodyProtected payload : Bytes} {signatures : List EncodedSignature}
    (hBody : bodyProtected.length < 18446744073709551616)
    (hPayload : payload.length < 18446744073709551616)
    (hSignatures : ∀ signature ∈ signatures, signature.Short) {octets : Bytes} :
    encodeEnvelope crates bodyProtected payload signatures = .ok octets ↔
      signatures.length = 2 ∧ octets = (envelopeItem bodyProtected payload signatures).encode := by
  rw [encodeEnvelope, then_eq_ok, crates.encoder.array_eq, mapError_ok, ok_bind,
    crates.encoder.bytes_eq _ _ hBody, mapError_ok, ok_bind, crates.encoder.map_eq, mapError_ok,
    ok_bind, crates.encoder.bytes_eq _ _ hPayload, mapError_ok, ok_bind,
    crates.encoder.array_eq, mapError_ok, ok_bind, encodeSignatures_eq hSignatures,
    failIf_eq_ok, not_not, Except.ok.injEq]
  refine and_congr_right fun hLength => ?_
  have hTwo : signatures.length = 2 := hLength
  have hTag : ([0xD8, 0x62] : Bytes) = head 6 98 := by decide
  rw [eq_comm, hTag]
  simp [envelopeItem, Item.encode, Item.encodeItems, Item.encodeEntries, hTwo]

theorem expectArray_head {expected : UInt64} {n : Nat} (h : expected.toNat = n) (name : String)
    (rest : Bytes) : expectArray crates expected name (head 4 n ++ rest) = .ok rest := by
  subst h
  have hFits := fits_preferred (limit_lt expected)
  rw [expectArray, head, crates.decoder.datatype_array _ _ _ hFits, mapError_ok, ok_bind,
    crates.decoder.array_head _ _ _ hFits]
  simp [failIf]

theorem readMapLength_head {length : UInt64} {n : Nat} (h : length.toNat = n) (name : String)
    (rest : Bytes) : readMapLength crates name (head 5 n ++ rest) = .ok (length, rest) := by
  subst h
  have hFits := fits_preferred (limit_lt length)
  rw [readMapLength, head, crates.decoder.datatype_map _ _ _ hFits, mapError_ok, ok_bind,
    crates.decoder.map_head _ _ _ hFits]
  simp [failIf]

theorem expectEmptyMap_head (name : String) (rest : Bytes) :
    expectEmptyMap crates name (head 5 0 ++ rest) = .ok rest := by
  have hZero : (0 : UInt64).toNat = 0 := by decide
  rw [expectEmptyMap, readMapLength_head hZero]
  simp [failIf]

/-- A string of octets in front of a reader is read if it is within the limit. -/
theorem readBytes_encode {octets : Bytes} (h : octets.length < 18446744073709551616)
    (maximum : UInt64) (name : String) (rest : Bytes) :
    readBytes crates maximum name ((Item.bytes octets).encode ++ rest) =
      (failIf (maximum.toNat < octets.length) (.resourceLimit name) >>= fun _ =>
        .ok (octets, rest)) := by
  have hFits := fits_preferred h
  have hType := crates.decoder.datatype_bytes _ _ (octets ++ rest) hFits
  have hBytes := crates.decoder.bytes_head _ octets rest hFits
  rw [← List.append_assoc] at hType
  rw [readBytes, Item.encode, head, hType, hBytes]
  simp [failIf]

/-- A text in front of a reader is read if it is within the limit. -/
theorem readText_encode {text : String} (h : (Utf8.encode text).length < 18446744073709551616)
    (maximum : UInt64) (name : String) (rest : Bytes) :
    readText crates maximum name ((Item.text text).encode ++ rest) =
      (failIf (maximum.toNat < (Utf8.encode text).length) (.resourceLimit name) >>= fun _ =>
        .ok (text, rest)) := by
  have hFits := fits_preferred h
  have hType := crates.decoder.datatype_string _ _ (Utf8.encode text ++ rest) hFits
  have hStr := crates.decoder.str_head _ text rest hFits
  rw [← List.append_assoc] at hType
  rw [readText, Item.encode, head, hType, hStr]
  simp [failIf]

/-- A signed integer in front of the decoder is read, whatever its sign, and whatever
follows it. -/
theorem i64_encode (value : Int64) (rest : Bytes) :
    crates.decoder.i64 ((Item.int value.toInt).encode ++ rest) = .ok (value, rest) := by
  have hLower := value.le_toInt
  have hUpper := value.toInt_lt
  rw [Item.encode]
  split_ifs with h
  · have hBound : value.toInt.toNat < 9223372036854775808 := by omega
    rw [head, crates.decoder.i64_head_unsigned _ _ _ (fits_preferred (hBound.trans (by decide)))
      hBound, Int.toNat_of_nonneg h, Int64.ofInt_toInt]
  · have hBound : (-1 - value.toInt).toNat < 9223372036854775808 := by omega
    have hBack : -1 - ((-1 - value.toInt).toNat : Int) = value.toInt := by omega
    rw [head, crates.decoder.i64_head_negative _ _ _ (fits_preferred (hBound.trans (by decide)))
      hBound, hBack, Int64.ofInt_toInt]

theorem readHeaderLabel_encode {label : Int64} {n : Int} (h : label.toInt = n) (rest : Bytes) :
    readHeaderLabel crates ((Item.int n).encode ++ rest) = .ok (label, rest) := by
  subst h
  rw [readHeaderLabel, i64_encode, mapError_ok]

end Tfws
