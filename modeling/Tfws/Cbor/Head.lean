import Tfws.Data.Utf8
import Mathlib.Data.Nat.Basic
import Mathlib.Tactic.Ring

/-! Heads of RFC 8949 data items: a major type together with an argument. The
shortest of the five forms is the preferred one; a tolerant reader takes any
of them. -/
namespace Cbor

/-- `width` octets in network order. Values outside the width are truncated, high
octets first. -/
def bigEndian : Nat → Nat → Bytes
  | 0, _ => []
  | width + 1, value => UInt8.ofNat (value / 256 ^ width) :: bigEndian width value

/-- The number written by octets in network order, however many there are. -/
def ofBigEndian (octets : Bytes) : Nat :=
  octets.foldl (fun value octet => 256 * value + octet.toNat) 0

@[simp] theorem length_bigEndian (width value : Nat) : (bigEndian width value).length = width := by
  induction width with
  | zero => rfl
  | succ width ih => simp [bigEndian, ih]

theorem bigEndian_mod (width value : Nat) :
    bigEndian width (value % 256 ^ width) = bigEndian width value := by
  have general (inner outer : Nat) (h : inner ≤ outer) :
      bigEndian inner (value % 256 ^ outer) = bigEndian inner value := by
    induction inner with
    | zero => rfl
    | succ inner ih =>
        have hPow : 256 ^ outer = 256 ^ inner * (256 * 256 ^ (outer - inner - 1)) := by
          rw [← pow_succ', ← pow_add]
          congr 1
          omega
        have hDigit : value % 256 ^ outer / 256 ^ inner % 256 = value / 256 ^ inner % 256 := by
          rw [hPow, Nat.mod_mul_right_div_self, Nat.mod_mul_right_mod]
        have hOctet : UInt8.ofNat (value % 256 ^ outer / 256 ^ inner) =
            UInt8.ofNat (value / 256 ^ inner) := UInt8.toNat.inj (by simpa using hDigit)
        rw [bigEndian, bigEndian, hOctet, ih (by omega)]
  exact general width width le_rfl

theorem ofBigEndian_cons (octet : UInt8) (octets : Bytes) :
    ofBigEndian (octet :: octets) = octet.toNat * 256 ^ octets.length + ofBigEndian octets := by
  have general (start : Nat) (rest : Bytes) :
      rest.foldl (fun value octet => 256 * value + octet.toNat) start =
        start * 256 ^ rest.length + ofBigEndian rest := by
    unfold ofBigEndian
    induction rest generalizing start with
    | nil => simp
    | cons first rest ih =>
        rw [List.foldl_cons, List.foldl_cons, ih, ih (256 * 0 + first.toNat), List.length_cons]
        ring
  simpa [ofBigEndian] using general octet.toNat octets

theorem ofBigEndian_lt (octets : Bytes) : ofBigEndian octets < 256 ^ octets.length := by
  induction octets with
  | nil => simp [ofBigEndian]
  | cons octet rest ih =>
      have hOctet := octet.toNat_lt
      rw [ofBigEndian_cons, List.length_cons, pow_succ]
      calc
        octet.toNat * 256 ^ rest.length + ofBigEndian rest
            < octet.toNat * 256 ^ rest.length + 256 ^ rest.length := by omega
        _ = (octet.toNat + 1) * 256 ^ rest.length := by ring
        _ ≤ 256 * 256 ^ rest.length := Nat.mul_le_mul_right _ (by omega)
        _ = 256 ^ rest.length * 256 := Nat.mul_comm ..

/-- A number that fits is read back from its octets; one that does not loses its high
octets. -/
@[simp] theorem ofBigEndian_bigEndian {width value : Nat} (h : value < 256 ^ width) :
    ofBigEndian (bigEndian width value) = value := by
  induction width generalizing value with
  | zero => simp at h; subst h; rfl
  | succ width ih =>
      have hTop : value / 256 ^ width < 256 :=
        Nat.div_lt_of_lt_mul (by rwa [pow_succ] at h)
      have hRest := ih (Nat.mod_lt value (Nat.pow_pos (by decide) : 0 < 256 ^ width))
      rw [bigEndian_mod] at hRest
      rw [bigEndian, ofBigEndian_cons, length_bigEndian, hRest, UInt8.toNat_ofNat_of_lt' hTop,
        Nat.mul_comm]
      exact Nat.div_add_mod value _

/-- Reading `width` octets and writing them again gives the same octets: a fixed width
has one form for each number. -/
theorem bigEndian_ofBigEndian (octets : Bytes) :
    bigEndian octets.length (ofBigEndian octets) = octets := by
  induction octets with
  | nil => rfl
  | cons octet rest ih =>
      have hRest := ofBigEndian_lt rest
      have hTop : (octet.toNat * 256 ^ rest.length + ofBigEndian rest) / 256 ^ rest.length =
          octet.toNat := by
        rw [Nat.mul_comm, Nat.mul_add_div (Nat.pow_pos (by decide)), Nat.div_eq_of_lt hRest,
          Nat.add_zero]
      have hLow : (octet.toNat * 256 ^ rest.length + ofBigEndian rest) % 256 ^ rest.length =
          ofBigEndian rest := by
        rw [Nat.mul_comm, Nat.mul_add_mod, Nat.mod_eq_of_lt hRest]
      rw [ofBigEndian_cons, List.length_cons, bigEndian, hTop, UInt8.ofNat_toNat,
        ← bigEndian_mod, hLow, ih]

/-- The five ways a head can carry its argument: within the initial octet, or in one,
two, four or eight behind it. -/
inductive Form where
  | inline
  | one
  | two
  | four
  | eight
  deriving DecidableEq, Repr

namespace Form

/-- Octets after the initial one. An inline argument has none of its own. -/
def width : Form → Nat
  | inline => 0
  | one => 1
  | two => 2
  | four => 4
  | eight => 8

/-- The additional information in the initial octet: the argument itself if it is
inline, and otherwise the width in code. -/
def additional (argument : Nat) : Form → Nat
  | inline => argument
  | one => 24
  | two => 25
  | four => 26
  | eight => 27

/-- The arguments a form has room for. All forms but the shortest are also open to
smaller arguments. -/
def Fits (argument : Nat) : Form → Prop
  | inline => argument < 24
  | form => argument < 256 ^ form.width

instance (argument : Nat) (form : Form) : Decidable (form.Fits argument) := by
  cases form <;> exact inferInstanceAs (Decidable (_ < _))

theorem Fits.additional_lt {argument : Nat} {form : Form} (h : form.Fits argument) :
    form.additional argument < 28 := by
  cases form <;> simp only [additional, Fits] at h ⊢ <;> omega

theorem Fits.lt {argument : Nat} {form : Form} (h : form.Fits argument) :
    argument < 18446744073709551616 := by
  cases form <;> simp only [Fits, width] at h <;> omega

/-- A head in a given form, preferred or not. -/
def head (form : Form) (major argument : Nat) : Bytes :=
  UInt8.ofNat (32 * major + form.additional argument) :: bigEndian form.width argument

end Form

/-- The shortest form with room for the argument, which deterministic encoding
demands. -/
def preferred (argument : Nat) : Form :=
  if argument < 24 then .inline
  else if argument < 256 then .one
  else if argument < 65536 then .two
  else if argument < 4294967296 then .four
  else .eight

/-- The preferred head, the only one that deterministic encoding allows. -/
def head (major argument : Nat) : Bytes :=
  (preferred argument).head major argument

/-- Every argument of 64 bits fits its preferred form. Larger ones have no head. -/
theorem fits_preferred {argument : Nat} (h : argument < 18446744073709551616) :
    (preferred argument).Fits argument := by
  unfold preferred
  split_ifs <;> simp only [Form.Fits, Form.width] <;> omega

/-- The form announced by the additional information; 28 to 30 are reserved
and 31 opens an item of indefinite length. -/
def Form.ofAdditional (additional : Nat) : Option Form :=
  if additional < 24 then some .inline
  else match additional with
    | 24 => some .one
    | 25 => some .two
    | 26 => some .four
    | 27 => some .eight
    | _ => none

/-- Split off a head in any form: major type, form, argument and what follows. -/
def readHead : Bytes → Option (Nat × Form × Nat × Bytes)
  | [] => none
  | initial :: rest => do
      let form ← Form.ofAdditional (initial.toNat % 32)
      if form.width ≤ rest.length then
        let argument :=
          if form = .inline then initial.toNat % 32 else ofBigEndian (rest.take form.width)
        some (initial.toNat / 32, form, argument, rest.drop form.width)
      else none

theorem Form.ofAdditional_eq_some {additional : Nat} {form : Form}
    (h : ofAdditional additional = some form) :
    ∀ argument, (form = .inline → argument = additional) →
      form.additional argument = additional ∧ (form = .inline → additional < 24) := by
  intro argument hInline
  unfold ofAdditional at h
  split_ifs at h with hSmall
  · obtain rfl := Option.some.inj h
    exact ⟨hInline rfl, fun _ => hSmall⟩
  · split at h <;> first
      | cases h; exact ⟨rfl, fun hForm => by cases hForm⟩
      | cases h

/-- The additional information tells the form, so that heads in different forms never
agree. -/
theorem Form.ofAdditional_additional {argument : Nat} {form : Form} (h : form.Fits argument) :
    ofAdditional (form.additional argument) = some form := by
  cases form with
  | inline => exact if_pos h
  | one | two | four | eight => rfl

theorem initial_div {major additional : Nat} (hMajor : major < 8) (hAdditional : additional < 32) :
    (UInt8.ofNat (32 * major + additional)).toNat / 32 = major := by
  rw [UInt8.toNat_ofNat']
  omega

theorem initial_mod (major : Nat) {additional : Nat} (hAdditional : additional < 32) :
    (UInt8.ofNat (32 * major + additional)).toNat % 32 = additional := by
  rw [UInt8.toNat_ofNat']
  omega

theorem initial_eq (octet : UInt8) :
    UInt8.ofNat (32 * (octet.toNat / 32) + octet.toNat % 32) = octet := by
  rw [Nat.div_add_mod, UInt8.ofNat_toNat]

/-- Every form of a head is read back, whatever follows it; the reader prefers none of
them. -/
theorem readHead_head {form : Form} {major argument : Nat} (hMajor : major < 8)
    (hFits : form.Fits argument) (rest : Bytes) :
    readHead (form.head major argument ++ rest) = some (major, form, argument, rest) := by
  have hAdditional : form.additional argument < 32 := hFits.additional_lt.trans (by decide)
  rw [Form.head, List.cons_append, readHead, initial_div hMajor hAdditional,
    initial_mod major hAdditional, Form.ofAdditional_additional hFits]
  cases form with
  | inline => simp [Form.width, bigEndian, Form.additional]
  | one | two | four | eight =>
      have hTake := ofBigEndian_bigEndian hFits
      simp only [Form.width] at hTake
      simp [Form.width, hTake]

/-- Whatever is read as a head was one, in the form reported, and what is left over
follows it directly. -/
theorem readHead_eq_some {input rest : Bytes} {major argument : Nat} {form : Form}
    (h : readHead input = some (major, form, argument, rest)) :
    major < 8 ∧ form.Fits argument ∧ input = form.head major argument ++ rest := by
  cases input with
  | nil => cases h
  | cons initial tail =>
      simp only [readHead, Option.bind_eq_bind, Option.bind_eq_some_iff,
        Option.ite_none_right_eq_some, Option.some.injEq, Prod.mk.injEq] at h
      obtain ⟨form', hForm, hWidth, rfl, rfl, hArgument, rfl⟩ := h
      have hMajor : initial.toNat / 32 < 8 := by
        have := initial.toNat_lt
        omega
      obtain ⟨hAdditional, hSmall⟩ := Form.ofAdditional_eq_some hForm argument fun hInline => by
        rw [← hArgument, if_pos hInline]
      have hTake : (tail.take form'.width).length = form'.width := by simpa using hWidth
      have hFits : form'.Fits argument := by
        by_cases hInline : form' = .inline
        · have hEq : argument = initial.toNat % 32 := by rw [← hArgument, if_pos hInline]
          subst hInline
          exact hEq ▸ hSmall rfl
        · have hLt := ofBigEndian_lt (tail.take form'.width)
          rw [hTake] at hLt
          rw [if_neg hInline] at hArgument
          cases form' <;> first
            | exact absurd rfl hInline
            | exact hArgument ▸ hLt
      have hOctets : bigEndian form'.width argument = tail.take form'.width := by
        by_cases hInline : form' = .inline
        · subst hInline
          rfl
        · rw [if_neg hInline] at hArgument
          have hWrite := bigEndian_ofBigEndian (tail.take form'.width)
          rwa [hTake, hArgument] at hWrite
      refine ⟨hMajor, hFits, ?_⟩
      rw [Form.head, hAdditional, initial_eq, hOctets, List.cons_append, List.take_append_drop]

/-- A negative integer with an argument behind its initial octet. The decoder reads
these on a path of their own. -/
def WideNegative (initial : UInt8) : Prop :=
  initial.toNat / 32 = 1 ∧ 24 ≤ initial.toNat % 32 ∧ initial.toNat % 32 < 28

instance (initial : UInt8) : Decidable (WideNegative initial) :=
  inferInstanceAs (Decidable (_ ∧ _ ∧ _))

/-- Heads delimit themselves: two of them with anything behind are equal only when
they are the same head. -/
theorem Form.head_append_inj {form form' : Form} {major major' argument argument' : Nat}
    {rest rest' : Bytes} (hMajor : major < 8) (hMajor' : major' < 8)
    (hFits : form.Fits argument) (hFits' : form'.Fits argument')
    (h : form.head major argument ++ rest = form'.head major' argument' ++ rest') :
    major = major' ∧ form = form' ∧ argument = argument' ∧ rest = rest' := by
  have hRead := readHead_head hMajor hFits rest
  rw [h, readHead_head hMajor' hFits' rest'] at hRead
  simpa [eq_comm] using hRead

/-- The same for preferred heads, whose arguments tell their forms: what begins alike
has the same head and goes on alike. -/
theorem head_append_inj {major major' argument argument' : Nat} {rest rest' : Bytes}
    (hMajor : major < 8) (hMajor' : major' < 8)
    (hArgument : argument < 18446744073709551616) (hArgument' : argument' < 18446744073709551616)
    (h : head major argument ++ rest = head major' argument' ++ rest') :
    major = major' ∧ argument = argument' ∧ rest = rest' := by
  obtain ⟨rfl, _, rfl, rfl⟩ := Form.head_append_inj hMajor hMajor'
    (fits_preferred hArgument) (fits_preferred hArgument') h
  exact ⟨rfl, rfl, rfl⟩

theorem head_ne_nil (major argument : Nat) : head major argument ≠ [] := by
  simp [head, Form.head]

/-- A head takes at most nine octets: the initial one and eight behind it. -/
theorem length_head_le (major argument : Nat) : (head major argument).length ≤ 9 := by
  unfold head Form.head
  cases preferred argument <;> simp [Form.width]

end Cbor
