import Tfws.Agreement.Envelope
import Tfws.Core.SignatureMessage
import Tfws.Python.SignatureBundle

/-! The two kinds of signed messages, the `Sig_structure` of an envelope and the
text of a bundle. Each can be read in one way only, no message is of both
kinds, and the two implementations write the same octets. -/
namespace Tfws

open Fallible Cbor

/-- A slice of octets, whose length is a `usize`, so that its head can be written. -/
@[ext] structure Slice where
  octets : Bytes
  short : octets.length < 18446744073709551616

variable {crates : Crates}

/-- The octets of a `Sig_structure`, for slices that a machine can hold. -/
def sigStructure (bodyProtected signatureProtected payload : Slice) : Bytes :=
  (sigStructureItem bodyProtected.octets signatureProtected.octets payload.octets).encode

/-- The encoder of `tfws-core` writes them, and cannot fail on slices. -/
theorem encodeSigStructure_slices (bodyProtected signatureProtected payload : Slice) :
    encodeSigStructure crates bodyProtected.octets signatureProtected.octets payload.octets =
      .ok (sigStructure bodyProtected signatureProtected payload) :=
  encodeSigStructure_eq bodyProtected.short signatureProtected.short payload.short

theorem encodable_sigStructureItem (bodyProtected signatureProtected payload : Slice) :
    (sigStructureItem bodyProtected.octets signatureProtected.octets payload.octets).Encodable := by
  have hContext : (Utf8.encode "Signature").length < 18446744073709551616 := by decide
  apply Item.Encodable.array
  · simp only [List.length_cons, List.length_nil]
    decide
  · simp only [List.forall_mem_cons, List.not_mem_nil, false_implies, implies_true, and_true]
    exact ⟨.text hContext, .bytes bodyProtected.short, .bytes signatureProtected.short,
      .bytes (by decide), .bytes payload.short⟩

/-- A `Sig_structure` determines its three parts: the heads say where each of them
ends. -/
theorem sigStructure_inj {bodyProtected signatureProtected payload bodyProtected'
    signatureProtected' payload' : Slice}
    (h : sigStructure bodyProtected signatureProtected payload =
      sigStructure bodyProtected' signatureProtected' payload') :
    bodyProtected = bodyProtected' ∧ signatureProtected = signatureProtected' ∧
      payload = payload' := by
  have hItems := (encodable_sigStructureItem ..).encode_inj (encodable_sigStructureItem ..) h
  simp only [sigStructureItem, Item.array.injEq, List.cons.injEq, Item.bytes.injEq, true_and,
    and_true] at hItems
  obtain ⟨hBody, hProtected, hPayload⟩ := hItems
  exact ⟨Slice.ext hBody, Slice.ext hProtected, Slice.ext hPayload⟩

/-- A `Sig_structure` begins with the head of an array of five, which no letter is. -/
theorem head_sigStructure (bodyProtected signatureProtected payload : Slice) :
    (sigStructure bodyProtected signatureProtected payload).head? = some 133 := by
  simp only [sigStructure, sigStructureItem, Item.encode]
  rfl

variable {subject digest created : String} {keyEpoch : UInt64} {message : Bytes}

/-- Both implementations refuse the same fields, for either kind of line end. -/
theorem hasNewline_object (text : String) : Python.hasNewline text = hasNewline text := by
  rw [Bool.eq_iff_iff]
  simp [Python.hasNewline, hasNewline, and_or_left, exists_or]

theorem policy_line : "policy=" ++ baselinePolicy ++ "\n" = "policy=tfws.hybrid.baseline.v1\n" := by
  decide

theorem append_three (start first second third : String) :
    start ++ first ++ second ++ third = start ++ (first ++ second ++ third) := by
  simp only [String.append_assoc]

/-- The text of `tfws-core`, line by line, as the other implementation has it. -/
theorem signatureText_eq : signatureText subject digest created keyEpoch =
    "TFWS3-SIGNATURE-V1\n" ++ "subject=" ++ subject ++ "\n" ++
      "media_type=application/tfws+json\n" ++ "payload_sha512=" ++ digest ++ "\n" ++
      "created=" ++ created ++ "\n" ++ "key_epoch=" ++ toString keyEpoch.toNat ++ "\n" ++
      "policy=tfws.hybrid.baseline.v1\n" :=
  (append_three _ "policy=" baselinePolicy "\n").trans (congrArg (_ ++ ·) policy_line)

/-- Both implementations write the text of accepted metadata, octet for octet. -/
theorem signatureMessage_object
    (h : signatureMessage subject digest created keyEpoch = .ok message) :
    Python.signatureMessage subject digest created keyEpoch.toNat = .ok message := by
  obtain ⟨hMetadata, hMessage⟩ := signatureMessage_eq_ok.mp h
  have hLines : ¬(Python.hasNewline subject = true ∨ Python.hasNewline digest = true ∨
      Python.hasNewline created = true) := by
    rw [hasNewline_object, hasNewline_object, hasNewline_object, hMetadata.subjectLine,
      hMetadata.digestLine, hMetadata.createdLine]
    decide
  rw [Python.signatureMessage, failIf_of_not hLines, ok_bind, hMessage, signatureText_eq]
  rfl

/-- Signed messages are unambiguous. Each of the two kinds determines what it was made
from, no message is of both kinds, and the implementations agree on the octets. So no
signature can be taken for one over other data. -/
theorem signedMessages_unambiguous (crates : Crates) :
    (∀ bodyProtected signatureProtected payload bodyProtected' signatureProtected' payload' : Slice,
      encodeSigStructure crates bodyProtected.octets signatureProtected.octets payload.octets =
          encodeSigStructure crates bodyProtected'.octets signatureProtected'.octets
            payload'.octets →
        bodyProtected = bodyProtected' ∧ signatureProtected = signatureProtected' ∧
          payload = payload') ∧
    (∀ (subject digest created subject' digest' created' : String) (keyEpoch keyEpoch' : UInt64)
      (message : Bytes), signatureMessage subject digest created keyEpoch = .ok message →
        signatureMessage subject' digest' created' keyEpoch' = .ok message →
        subject = subject' ∧ digest = digest' ∧ created = created' ∧ keyEpoch = keyEpoch') ∧
    (∀ (bodyProtected signatureProtected payload : Slice) (subject digest created : String)
      (keyEpoch : UInt64) (message : Bytes),
      encodeSigStructure crates bodyProtected.octets signatureProtected.octets payload.octets =
          .ok message →
        signatureMessage subject digest created keyEpoch ≠ .ok message) ∧
    (∀ bodyProtected signatureProtected payload : Slice, ∃ message,
      encodeSigStructure crates bodyProtected.octets signatureProtected.octets payload.octets =
          .ok message ∧
        Python.encodeCoseSigValue (.list [.str "Signature", .bytes bodyProtected.octets,
          .bytes signatureProtected.octets, .bytes [], .bytes payload.octets]) = .ok message) ∧
    (∀ (subject digest created : String) (keyEpoch : UInt64) (message : Bytes),
      signatureMessage subject digest created keyEpoch = .ok message →
        Python.signatureMessage subject digest created keyEpoch.toNat = .ok message) := by
  refine ⟨?structures, ?texts, ?kinds, ?encoders, ?writers⟩
  case structures =>
    intro bodyProtected signatureProtected payload bodyProtected' signatureProtected' payload' h
    rw [encodeSigStructure_slices, encodeSigStructure_slices, Except.ok.injEq] at h
    exact sigStructure_inj h
  case texts =>
    intro subject digest created subject' digest' created' keyEpoch keyEpoch' message h h'
    exact signatureMessage_inj h h'
  case kinds =>
    intro bodyProtected signatureProtected payload subject digest created keyEpoch message h hText
    rw [encodeSigStructure_slices, Except.ok.injEq] at h
    have hHead := head_signatureMessage hText
    rw [← h, head_sigStructure] at hHead
    cases hHead
  case encoders =>
    intro bodyProtected signatureProtected payload
    exact ⟨_, encodeSigStructure_slices bodyProtected signatureProtected payload,
      encodeSigStructure_object bodyProtected.short signatureProtected.short payload.short⟩
  case writers =>
    intro subject digest created keyEpoch message h
    exact signatureMessage_object h

end Tfws
