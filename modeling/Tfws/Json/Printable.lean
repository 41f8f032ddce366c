import Tfws.Json.Value

/-! Written values keep to one line: every control character is escaped. -/
namespace Json

/-- There is no control character in the text, and in particular no line end. -/
def Printable (text : List Char) : Prop := ∀ c ∈ text, 32 ≤ c.toNat

instance (text : List Char) : Decidable (Printable text) :=
  List.decidableBAll (fun c : Char => 32 ≤ c.toNat) text

namespace Printable

/-- Printable texts one after the other are printable. -/
theorem append {first second : List Char} (hFirst : Printable first) (hSecond : Printable second) :
    Printable (first ++ second) :=
  List.forall_mem_append.mpr ⟨hFirst, hSecond⟩

theorem cons {c : Char} {rest : List Char} (hFirst : 32 ≤ c.toNat) (hRest : Printable rest) :
    Printable (c :: rest) :=
  List.forall_mem_cons.mpr ⟨hFirst, hRest⟩

/-- A line end is a control character, and so a printable text is one line. -/
theorem not_mem {text : List Char} (h : Printable text) {c : Char} (hControl : c.toNat < 32) :
    c ∉ text := by
  intro hMem
  have hLow := h c hMem
  omega

end Printable

theorem hexDigit_printable : ∀ n < 16, 32 ≤ (hexDigit n).toNat := by decide

theorem escape_printable (c : Char) : Printable (escape c) := by
  have hLow := hexDigit_printable (c.toNat % 16) (by omega)
  unfold escape
  split_ifs with h₁ h₂ h₃ h₄ h₅ h₆ h₇ hControl
  · decide
  · decide
  · decide
  · decide
  · decide
  · decide
  · decide
  · have hHigh := hexDigit_printable (c.toNat / 16) (by omega)
    exact .cons (by decide) (.cons (by decide) (.cons (by decide) (.cons (by decide)
      (.cons hHigh (.cons hLow (List.forall_mem_nil _))))))
  · exact .cons (not_lt.mp hControl) (List.forall_mem_nil _)

/-- A written string is printable, whatever characters the string has: the control
characters among them are escaped. -/
theorem writeString_printable (text : String) : Printable (writeString text) := by
  refine .cons (by decide) (.append ?_ (by decide))
  intro c hMem
  obtain ⟨source, -, hEscape⟩ := List.mem_flatMap.mp hMem
  exact escape_printable source c hEscape

theorem writeInt_printable (value : Int) : Printable (writeInt value) := by
  have hDigits : Printable (Nat.toDigits 10 value.natAbs) := fun c hMem => by
    have hDigit := Nat.isDigit_of_mem_toDigits (by decide) (by decide) hMem
    rw [Char.isDigit, Bool.and_eq_true, decide_eq_true_eq, decide_eq_true_eq] at hDigit
    exact le_trans (by decide) (UInt32.le_iff_toNat_le.mp hDigit.1)
  unfold writeInt
  split_ifs
  · exact .cons (by decide) hDigits
  · exact hDigits

namespace Value

theorem writeItems_printable {items : List Value} (h : ∀ item ∈ items, Printable item.write) :
    Printable (writeItems items) := by
  induction items with
  | nil => rw [writeItems]; decide
  | cons item rest ih =>
      obtain ⟨hItem, hRest⟩ := List.forall_mem_cons.mp h
      rw [writeItems]
      exact .cons (by decide) (.append hItem (ih hRest))

theorem writeFields_printable {fields : List (String × Value)}
    (h : ∀ field ∈ fields, Printable field.2.write) : Printable (writeFields fields) := by
  induction fields with
  | nil => rw [writeFields]; decide
  | cons field rest ih =>
      obtain ⟨hField, hRest⟩ := List.forall_mem_cons.mp h
      rw [writeFields]
      exact .cons (by decide) (.append (writeString_printable _)
        (.cons (by decide) (.append hField (ih hRest))))

/-- A written value is printable, at any depth: the writer escapes what is not. So a
value takes one line. -/
theorem Plain.printable {value : Value} (h : Plain value) : Printable value.write := by
  induction h with
  | null => rw [write]; decide
  | @bool value => cases value <;> (rw [write]; decide)
  | int =>
      rw [write]
      exact writeInt_printable _
  | string =>
      rw [write]
      exact writeString_printable _
  | @array items _ ih =>
      cases items with
      | nil => rw [write]; decide
      | cons item rest =>
          obtain ⟨hItem, hRest⟩ := List.forall_mem_cons.mp ih
          rw [write]
          exact .cons (by decide) (.append hItem (writeItems_printable hRest))
  | @object fields _ ih =>
      cases fields with
      | nil => rw [write]; decide
      | cons field rest =>
          obtain ⟨hField, hRest⟩ := List.forall_mem_cons.mp ih
          rw [write]
          exact .cons (by decide) (.append (writeString_printable _)
            (.cons (by decide) (.append hField (writeFields_printable hRest))))

end Value

end Json
