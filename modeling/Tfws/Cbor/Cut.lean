import Tfws.Cbor.Item

/-! Octets that break off before their end. -/
namespace Cbor

variable {part first second : Bytes} {major n : Nat}

/-- `part` lacks the end of `whole`: it is a beginning of it, and not all of it.
Nothing at all is such a part of anything else. -/
def Cut (part whole : Bytes) : Prop := ∃ missing, missing ≠ [] ∧ whole = part ++ missing

/-- What breaks off does so before or behind a joint. If behind, the first of the two
is there in full. -/
theorem Cut.append (h : Cut part (first ++ second)) :
    Cut part first ∨ ∃ later, part = first ++ later ∧ Cut later second := by
  obtain ⟨missing, hMissing, hWhole⟩ := h
  obtain ⟨later, hPart, hSecond⟩ | ⟨tail, hFirst, hTail⟩ := List.append_eq_append_iff.mp hWhole
  · exact Or.inr ⟨later, hPart, missing, hMissing, hSecond⟩
  · by_cases hEmpty : tail = []
    · subst hEmpty
      rw [List.append_nil] at hFirst
      rw [List.nil_append] at hTail
      exact Or.inr ⟨[], by rw [hFirst, List.append_nil], missing, hMissing, hTail.symm⟩
    · exact Or.inl ⟨tail, hEmpty, hFirst⟩

theorem Cut.length_lt {whole : Bytes} (h : Cut part whole) : part.length < whole.length := by
  obtain ⟨missing, hMissing, rfl⟩ := h
  have := List.length_pos_iff.mpr hMissing
  rw [List.length_append]
  omega

/-- Nothing is too short to be broken off, so a cut is never of the empty part. -/
theorem not_cut_nil : ¬Cut part [] := by
  intro h
  exact absurd h.length_lt (Nat.not_lt_zero _)

theorem cut_dropLast {whole : Bytes} (h : whole ≠ []) : Cut whole.dropLast whole :=
  ⟨[whole.getLast h], List.cons_ne_nil _ _, (List.dropLast_concat_getLast h).symm⟩

/-- A head that breaks off is not read as another one: the initial octet already says
how many are to follow. -/
theorem Cut.readHead_eq_none (hMajor : major < 8) (hArgument : n < 18446744073709551616)
    (h : Cut part (head major n)) : readHead part = none := by
  obtain ⟨missing, hMissing, hWhole⟩ := h
  rw [Option.eq_none_iff_forall_ne_some]
  rintro ⟨major', form, argument, rest⟩ hRead
  obtain ⟨hMajor', hFits, rfl⟩ := readHead_eq_some hRead
  rw [head, List.append_assoc, ← List.append_nil ((preferred n).head major n)] at hWhole
  obtain ⟨-, -, -, hRest⟩ := Form.head_append_inj hMajor hMajor' (fits_preferred hArgument) hFits
    hWhole
  exact hMissing (List.append_eq_nil_iff.mp hRest.symm).2

/-- The first octet of a head is there, or nothing is. With it, the cut runs through
the argument. -/
theorem Cut.head_cases (h : Cut part (head major n)) :
    part = [] ∨ ∃ tail, part = UInt8.ofNat (32 * major + (preferred n).additional n) :: tail ∧
      Cut tail (bigEndian (preferred n).width n) := by
  obtain ⟨missing, hMissing, hWhole⟩ := h
  cases part with
  | nil => exact Or.inl rfl
  | cons initial tail =>
      rw [head, Form.head, List.cons_append] at hWhole
      obtain ⟨rfl, hTail⟩ := List.cons.inj hWhole
      exact Or.inr ⟨tail, rfl, missing, hMissing, hTail⟩

end Cbor
