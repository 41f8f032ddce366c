import Tfws.Core.Manifest

/-! The text that a signature of a bundle covers. Its fields stand on lines of
their own, so a message can be read back as long as no field breaks its line. -/
namespace Tfws

open Fallible

/-- `value.contains('\n') || value.contains('\r')` -/
def hasNewline (value : String) : Bool :=
  value.toList.contains '\n' || value.toList.contains '\r'

/-- The lines of a message, the last one ended like the others. Each names its field,
in a fixed order. -/
def signatureText (subject digest created : String) (keyEpoch : UInt64) : String :=
  "TFWS3-SIGNATURE-V1\n" ++ "subject=" ++ subject ++ "\n" ++ "media_type=application/tfws+json\n" ++
    "payload_sha512=" ++ digest ++ "\n" ++ "created=" ++ created ++ "\n" ++
    "key_epoch=" ++ toString keyEpoch.toNat ++ "\n" ++ "policy=" ++ baselinePolicy ++ "\n"

/-- `signature_message`: the octets of the text, provided that no field breaks its
line and the digest and the epoch have their form. -/
def signatureMessage (subject digest created : String) (keyEpoch : UInt64) :
    Except Error Bytes := do
  failIf ([subject, created, digest].any hasNewline)
    (.invalidManifest "newline in signature metadata")
  failIf (isLowerHex digest 128 = false ∨ keyEpoch = 0 ∨ maxSafeInteger < keyEpoch.toNat)
    (.invalidManifest "invalid signature metadata")
  .ok (Utf8.encode (signatureText subject digest created keyEpoch))

variable {subject digest created : String} {keyEpoch : UInt64} {message : Bytes}

/-- No text of a message breaks its line, so that the lines are the fields. -/
structure LinesFree (subject digest created : String) : Prop where
  subjectLine : hasNewline subject = false
  digestLine : hasNewline digest = false
  createdLine : hasNewline created = false

/-- What the metadata of an accepted message satisfies. The subject and the time are
otherwise free texts. -/
structure SignatureMetadata (subject digest created : String) (keyEpoch : UInt64) : Prop
    extends LinesFree subject digest created where
  digestHex : isLowerHex digest 128 = true
  positive : keyEpoch ≠ 0
  safe : keyEpoch.toNat ≤ maxSafeInteger

/-- There is a message exactly if the metadata pass, and it is the text of their
lines. -/
theorem signatureMessage_eq_ok :
    signatureMessage subject digest created keyEpoch = .ok message ↔
      SignatureMetadata subject digest created keyEpoch ∧
        message = Utf8.encode (signatureText subject digest created keyEpoch) := by
  simp only [signatureMessage, then_eq_ok, failIf_eq_ok, List.any_cons, List.any_nil, Bool.or_false,
    Bool.or_eq_true, not_or, Bool.not_eq_true, Bool.not_eq_false, not_lt, Except.ok.injEq]
  constructor
  · intro h
    obtain ⟨⟨hSubject, hCreated, hDigest⟩, ⟨hHex, hPositive, hSafe⟩, hMessage⟩ := h
    exact ⟨⟨⟨hSubject, hDigest, hCreated⟩, hHex, hPositive, hSafe⟩, hMessage.symm⟩
  · intro h
    obtain ⟨hMetadata, hMessage⟩ := h
    exact ⟨⟨hMetadata.subjectLine, hMetadata.createdLine, hMetadata.digestLine⟩,
      ⟨hMetadata.digestHex, hMetadata.positive, hMetadata.safe⟩, hMessage.symm⟩

theorem newline_not_mem {value : String} (h : hasNewline value = false) : '\n' ∉ value.toList := by
  intro hMem
  rw [hasNewline, List.contains_iff_mem.mpr hMem] at h
  cases h

/-- A line without a break ends where the first break stands, so that equal texts have
equal first lines. -/
theorem line_append_inj {line line' rest rest' : List Char} (h : '\n' ∉ line) (h' : '\n' ∉ line')
    (hEq : line ++ '\n' :: rest = line' ++ '\n' :: rest') : line = line' ∧ rest = rest' := by
  induction line generalizing line' with
  | nil =>
      cases line' with
      | nil => exact ⟨rfl, (List.cons.inj hEq).2⟩
      | cons c others =>
          rw [← (List.cons.inj hEq).1] at h'
          exact absurd List.mem_cons_self h'
  | cons c others ih =>
      cases line' with
      | nil =>
          rw [(List.cons.inj hEq).1] at h
          exact absurd List.mem_cons_self h
      | cons c' others' =>
          obtain ⟨hHead, hTail⟩ := List.cons.inj hEq
          obtain ⟨hOthers, hRest⟩ := ih (fun hMem => h (List.mem_cons_of_mem _ hMem))
            (fun hMem => h' (List.mem_cons_of_mem _ hMem)) hTail
          exact ⟨by rw [hHead, hOthers], hRest⟩

theorem append_newline_inj {value value' rest rest' : String} (h : hasNewline value = false)
    (h' : hasNewline value' = false) (hEq : value ++ ("\n" ++ rest) = value' ++ ("\n" ++ rest')) :
    value = value' ∧ rest = rest' := by
  have hBreak : "\n".toList = ['\n'] := by decide
  have hChars := congrArg String.toList hEq
  simp only [String.toList_append, hBreak, List.singleton_append] at hChars
  obtain ⟨hValue, hRest⟩ := line_append_inj (newline_not_mem h) (newline_not_mem h') hChars
  exact ⟨String.toList_inj.mp hValue, String.toList_inj.mp hRest⟩

variable {subject' digest' created' : String} {keyEpoch' : UInt64}

theorem toString_nat_inj {n m : Nat} (h : toString n = toString m) : n = m := by
  have hDigits : Nat.toDigits 10 n = Nat.toDigits 10 m := by
    have hChars := congrArg String.toList h
    rwa [Nat.toString_eq_repr, Nat.toString_eq_repr, Nat.toList_repr, Nat.toList_repr] at hChars
  have hNumber := congrArg (fun digits => Nat.ofDigitChars 10 digits 0) hDigits
  simpa only [Nat.ofDigitChars_ten_toDigits] using hNumber

variable {version named typed hashed dated counted policy baseline epoch epoch' : String}

/-- Fields on lines of their own are read back, whatever their labels are. Both
implementations use these lines, with labels that differ. -/
theorem lines_inj (h : LinesFree subject digest created) (h' : LinesFree subject' digest' created')
    (hText : version ++ named ++ subject ++ "\n" ++ typed ++ hashed ++ digest ++ "\n" ++ dated ++
        created ++ "\n" ++ counted ++ epoch ++ "\n" ++ policy ++ baseline ++ "\n" =
      version ++ named ++ subject' ++ "\n" ++ typed ++ hashed ++ digest' ++ "\n" ++ dated ++
        created' ++ "\n" ++ counted ++ epoch' ++ "\n" ++ policy ++ baseline ++ "\n") :
    subject = subject' ∧ digest = digest' ∧ created = created' ∧ epoch = epoch' := by
  simp only [String.append_assoc, String.append_right_inj] at hText
  obtain ⟨hSubject, hText⟩ := append_newline_inj h.subjectLine h'.subjectLine hText
  rw [String.append_right_inj, String.append_right_inj] at hText
  obtain ⟨hDigest, hText⟩ := append_newline_inj h.digestLine h'.digestLine hText
  rw [String.append_right_inj] at hText
  obtain ⟨hCreated, hText⟩ := append_newline_inj h.createdLine h'.createdLine hText
  rw [String.append_right_inj, String.append_left_inj] at hText
  exact ⟨hSubject, hDigest, hCreated, hText⟩

theorem lines_eq_append : ∃ rest, version ++ named ++ subject ++ "\n" ++ typed ++ hashed ++ digest ++
    "\n" ++ dated ++ created ++ "\n" ++ counted ++ epoch ++ "\n" ++ policy ++ baseline ++ "\n" =
      version ++ rest := by
  simp only [String.append_assoc, String.append_right_inj, exists_eq']

/-- A message determines the metadata it was made from, key epoch included: the lines
are taken off one after the other. -/
theorem signatureMessage_inj
    (h : signatureMessage subject digest created keyEpoch = .ok message)
    (h' : signatureMessage subject' digest' created' keyEpoch' = .ok message) :
    subject = subject' ∧ digest = digest' ∧ created = created' ∧ keyEpoch = keyEpoch' := by
  obtain ⟨hMetadata, hMessage⟩ := signatureMessage_eq_ok.mp h
  obtain ⟨hMetadata', hMessage'⟩ := signatureMessage_eq_ok.mp h'
  have hText := Utf8.encode_injective (hMessage.symm.trans hMessage')
  obtain ⟨hSubject, hDigest, hCreated, hEpoch⟩ :=
    lines_inj hMetadata.toLinesFree hMetadata'.toLinesFree hText
  exact ⟨hSubject, hDigest, hCreated, UInt64.toNat.inj (toString_nat_inj hEpoch)⟩

theorem head_encode_append {first : String} (h : first ≠ "") (rest : String) :
    (Utf8.encode (first ++ rest)).head? = (Utf8.encode first).head? := by
  have hFirst : Utf8.encode first ≠ [] := fun hNil => h (Utf8.encode_eq_nil.mp hNil)
  rw [Utf8.encode, String.toList_append, List.flatMap_append]
  exact List.head?_append_of_ne_nil _ hFirst

/-- Every message begins with the first letter of its version line, which no encoded
array does. -/
theorem head_signatureMessage (h : signatureMessage subject digest created keyEpoch = .ok message) :
    message.head? = some 84 := by
  have hVersion : (Utf8.encode "TFWS3-SIGNATURE-V1\n").head? = some 84 := by decide
  have hText : ∃ rest, signatureText subject digest created keyEpoch =
      "TFWS3-SIGNATURE-V1\n" ++ rest := lines_eq_append
  obtain ⟨-, hMessage⟩ := signatureMessage_eq_ok.mp h
  obtain ⟨rest, hRest⟩ := hText
  have hSome : "TFWS3-SIGNATURE-V1\n" ≠ "" := by decide
  rw [hMessage, hRest, head_encode_append hSome, hVersion]

end Tfws
