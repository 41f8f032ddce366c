import Tfws.Core.CoseVerification

/-! No accepted document is the beginning of another one. -/
namespace Tfws

open Fallible Cbor

/-- An envelope whose parts are not too long for a head is an item that can be read
back. -/
theorem EnvelopeContent.Short.encodable {content : EnvelopeContent} (h : content.Short) :
    (envelopeItem bodyProtectedItem.encode content.payload
      (requiredSignatures.map content.encoded)).Encodable := by
  have hSignature : ∀ signature ∈ requiredSignatures.map content.encoded,
      (signatureItem signature).Encodable := by
    intro signature hMem
    obtain ⟨hHeader, hOctets⟩ := h.encoded_short _ signature hMem
    refine .array (by simp) ?_
    simp only [List.forall_mem_cons]
    exact ⟨.bytes hHeader, .map (by decide) (by simp) (by simp), .bytes hOctets, by simp⟩
  refine .tag (by decide) (.array (by simp) ?_)
  simp only [List.forall_mem_cons]
  refine ⟨.bytes (by decide), .map (by decide) (by simp) (by simp), .bytes h.payload, ?_, by simp⟩
  exact .array (by simp [requiredSignatures]) (List.forall_mem_map.mpr hSignature)

/-- Neither decoder accepts a proper prefix of what it accepts, nor anything that goes
on behind it. A document therefore needs no length in front of it. -/
theorem decoders_prefixFree (crates : Crates) (limits : CborLimits) (coseLimits : CoseLimits)
    (verifier : CoseVerifier) :
    PrefixFree { input | ∃ manifest, decodeManifestCbor crates input limits = .ok manifest } ∧
    PrefixFree { envelope | ∃ manifest,
      verifyManifestCoseWithLimits crates envelope verifier coseLimits = .ok manifest } := by
  constructor
  · apply Item.prefixFree_encode.mono
    intro input hAccepted
    obtain ⟨manifest, hDecode⟩ := hAccepted
    obtain ⟨value, hEncodes, -⟩ := decodeManifestCbor_eq_ok.mp hDecode
    exact ⟨value.value.item, hEncodes.deterministic.1, hEncodes.deterministic.2.2⟩
  · apply Item.prefixFree_encode.mono
    intro envelope hAccepted
    obtain ⟨manifest, hVerified⟩ := hAccepted
    obtain ⟨content, hWithin, hOctets, -⟩ := verifyManifestCoseWithLimits_eq_ok.mp hVerified
    exact ⟨_, hWithin.short.encodable, hOctets⟩

end Tfws
