import Tfws.Data.Replacement

/-! Replacing one needle after the other by one marker. Needles begin with a letter
that the marker lacks, so every occurrence in the text that results goes back to a
place of the text as it was: no needle that was replaced covers the place, and the
word stood there, up to an ending that the marker of a needle behind it completes. -/
namespace Redaction

universe u

variable {α : Type u}

variable {guard : α} {needle marker text word front start cut before rest : List α}
  {done : List (List α)}

/-- The word begins with the letter that the marker lacks, and no marker is in it.
Paths are such words: they begin with a slash. -/
structure Guarded (guard : α) (marker word : List α) : Prop where
  starts : word.head? = some guard
  free : ¬marker <:+: word

theorem Guarded.ne_nil (h : Guarded guard marker word) : word ≠ [] := by
  intro hNil
  have hStarts := h.starts
  rw [hNil] at hStarts
  cases hStarts

/-- A beginning of a guarded word in front of another one: no marker lies across
the two, because the second begins with the guard. -/
theorem Guarded.prefix_append (hWord : Guarded guard marker word) (hFront : front <+: word)
    (hNeedle : Guarded guard marker needle) (hGuard : guard ∉ marker) :
    Guarded guard marker (front ++ needle) := by
  constructor
  · cases front with
    | nil => exact hNeedle.starts
    | cons first others =>
        obtain ⟨tail, rfl⟩ := hFront
        exact hWord.starts
  · intro hIn
    rcases List.infix_append_iff.mp hIn with hLeft | hRight | ⟨first, second, hMarker, hLeft, hRight⟩
    · exact hWord.free (hLeft.trans hFront.isInfix)
    · exact hNeedle.free hRight
    · cases second with
      | nil =>
          rw [List.append_nil] at hMarker
          rw [hMarker] at hWord
          exact hWord.free (hLeft.isInfix.trans hFront.isInfix)
      | cons letter others =>
          obtain ⟨tail, hTail⟩ := hRight
          have hStarts := hNeedle.starts
          rw [← hTail, List.cons_append, List.head?_cons, Option.some.injEq] at hStarts
          rw [hMarker, hStarts] at hGuard
          exact hGuard (List.mem_append_right _ List.mem_cons_self)

section Places

variable (marker)

/-- What the word needs of the text in order to begin it when the needles have had
their turns, the latest turn first. In front of an ending that the marker of this
turn completes, the needle begins nowhere; the word is there already, or the needle
stands behind the front. -/
def Stands : List (List α) → List α → List α → Prop
  | [], text, word => word <+: text
  | needle :: done, text, word =>
      ∃ front back, word = front ++ back ∧
        (∀ first second, front = first ++ second → second ≠ [] →
          ¬Stands done text (first ++ needle)) ∧
        (back = [] ∧ Stands done text front ∨
          back ≠ [] ∧ back <+: marker ∧ Stands done text (front ++ needle))

/-- No needle that was replaced in its turn begins in front of the place and ends
behind it. A needle is replaced where it stands when its turn comes, if that place
is not covered itself, be it by an earlier needle or by the same one further left. -/
def Reached : List (List α) → List α → List α → Prop
  | [], _, _ => True
  | needle :: done, before, rest =>
      Reached done before rest ∧
        ∀ start cut ending, before = start ++ cut → cut ≠ [] → ending ≠ [] →
          needle = cut ++ ending → Reached (needle :: done) start (cut ++ rest) →
            ¬Stands marker done (cut ++ rest) needle
termination_by done before => (done.length, before.length)
decreasing_by
  · exact Prod.Lex.left _ _ (Nat.lt_succ_self _)
  · rename_i hBefore hCut _ _
    apply Prod.Lex.right
    rw [hBefore, List.length_append]
    have := List.length_pos_iff.mpr hCut
    omega

end Places

section Replace

variable [DecidableEq α]

section Definition

variable (marker : List α)

/-- Replace one needle after the other; the latest is the first of the list. -/
def redacted : List (List α) → List α → List α
  | [], text => text
  | needle :: done, text => replaceAll needle marker (redacted done text)

end Definition

theorem redacted_append (later earlier : List (List α)) (text : List α) :
    redacted marker (later ++ earlier) text = redacted marker later (redacted marker earlier text) := by
  induction later with
  | nil => rfl
  | cons needle later ih => rw [List.cons_append, redacted, ih, redacted]

/-- What every replacement keeps is kept by all of them, in whatever order they are
made. -/
theorem redacted_induction {motive : List α → Prop}
    (step : ∀ needle ∈ done, ∀ text, motive text → motive (replaceAll needle marker text))
    (h : motive text) : motive (redacted marker done text) := by
  induction done with
  | nil => exact h
  | cons needle done ih =>
      obtain ⟨hNeedle, hDone⟩ := List.forall_mem_cons.mp step
      exact hNeedle _ (ih hDone)

/-- A text in which no needle stands is left as it is. -/
theorem redacted_of_absent (h : ∀ needle ∈ done, ¬needle <:+: text) :
    redacted marker done text = text := by
  induction done with
  | nil => rfl
  | cons needle done ih =>
      obtain ⟨hNeedle, hDone⟩ := List.forall_mem_cons.mp h
      rw [redacted, ih hDone, replaceAll_of_absent hNeedle]

/-- Needles that all begin with the guard, a letter that the marker lacks. No
occurrence can then begin inside a marker. -/
def AllGuarded (guard : α) (marker : List α) (done : List (List α)) : Prop :=
  ∀ needle ∈ done, Guarded guard marker needle

/-- A text is left as it is or shows the marker. Later replacements cannot take a
marker away, for no needle begins in it. -/
theorem redacted_eq_or (h : AllGuarded guard marker done) (text : List α) :
    redacted marker done text = text ∨ marker <:+: redacted marker done text := by
  induction done with
  | nil => exact Or.inl rfl
  | cons needle done ih =>
      obtain ⟨hNeedle, hDone⟩ := List.forall_mem_cons.mp h
      rw [redacted]
      rcases @replaceAll_eq_or _ _ marker _ hNeedle.ne_nil (redacted marker done text) with
        hSame | ⟨front, tail, -, hSplit⟩
      · rw [hSame]
        exact ih hDone
      · rw [hSplit]
        exact Or.inr ((List.prefix_append _ _).isInfix.trans (List.suffix_append _ _).isInfix)

/-- What is left of a text holds no marker only if nothing was replaced. A reader who
sees no marker sees the text itself. -/
theorem redacted_eq_of_free (h : AllGuarded guard marker done)
    (hFree : ¬marker <:+: redacted marker done text) : redacted marker done text = text :=
  (redacted_eq_or h text).resolve_right hFree

/-- What it means that a word stands at a place, computed: the text from there on,
replaced, begins with it. -/
theorem stands_iff (hGuard : guard ∉ marker) (h : AllGuarded guard marker done)
    (hWord : Guarded guard marker word) :
    Stands marker done text word ↔ word <+: redacted marker done text := by
  induction done generalizing word with
  | nil => rfl
  | cons needle done ih =>
      obtain ⟨hNeedle, hDone⟩ := List.forall_mem_cons.mp h
      have hBehind {front : List α} (hFront : front <+: word) :
          Stands marker done text (front ++ needle) ↔
            front ++ needle <+: redacted marker done text :=
        ih hDone (hWord.prefix_append hFront hNeedle hGuard)
      rw [redacted, prefix_replaceAll hNeedle.ne_nil hWord.free, Stands]
      apply exists_congr
      intro front
      apply exists_congr
      intro back
      apply and_congr_right
      intro hSplit
      have hFront : front <+: word := hSplit ▸ List.prefix_append _ _
      apply and_congr
      · apply forall_congr'
        intro first
        apply forall_congr'
        intro second
        apply imp_congr_right
        intro hFirst
        rw [hBehind (List.IsPrefix.trans ⟨second, hFirst.symm⟩ hFront)]
      · apply or_congr
        · apply and_congr_right
          intro hBack
          rw [hBack, List.append_nil] at hSplit
          rw [← hSplit]
          exact ih hDone hWord
        · rw [hBehind hFront]

/-- The search of every turn comes by the place, in what is then left of the two
parts of the text. -/
def Passes (marker : List α) : List (List α) → List α → List α → Prop
  | [], _, _ => True
  | needle :: done, before, rest =>
      Passes marker done before rest ∧
        Scan needle (redacted marker done before) (redacted marker done rest)

/-- At a place that every search comes by, the text falls into two that are replaced
by themselves. -/
theorem Passes.redacted_eq (h : AllGuarded guard marker done)
    (hPasses : Passes marker done before rest) :
    redacted marker done (before ++ rest) =
      redacted marker done before ++ redacted marker done rest := by
  induction done with
  | nil => rfl
  | cons needle done ih =>
      obtain ⟨hNeedle, hDone⟩ := List.forall_mem_cons.mp h
      rw [redacted, ih hDone hPasses.1, hPasses.2.replaceAll_eq hNeedle.ne_nil, redacted, redacted]

/-- Where the text that is left has the guard, it has it from a place of the text that
every search came by. Markers bring in no guard, and a search that jumps over a place
takes the letter with it. -/
theorem exists_passes (hGuard : guard ∉ marker) (hMarker : marker ≠ [])
    (h : AllGuarded guard marker done) {first second : List α}
    (hSecond : second.head? = some guard) (hText : redacted marker done text = first ++ second) :
    ∃ before rest, text = before ++ rest ∧ Passes marker done before rest ∧
      first = redacted marker done before ∧ second = redacted marker done rest := by
  induction done generalizing first second with
  | nil => exact ⟨first, second, hText, trivial, rfl, rfl⟩
  | cons needle done ih =>
      obtain ⟨hNeedle, hDone⟩ := List.forall_mem_cons.mp h
      obtain ⟨front, tail, hSplit, hScan, rfl, rfl⟩ :=
        exists_scan hNeedle.ne_nil hGuard hSecond hText
      have hTail : tail.head? = some guard :=
        (head_replaceAll hNeedle.ne_nil hMarker hSecond).resolve_left hGuard
      obtain ⟨before, rest, rfl, hPasses, rfl, rfl⟩ := ih hDone hTail hSplit
      exact ⟨before, rest, rfl, ⟨hPasses, hScan⟩, rfl, rfl⟩

/-- Between two places that every search comes by, a text is replaced by itself. -/
theorem Passes.redacted_cut (h : AllGuarded guard marker done)
    (hPasses : Passes marker done (start ++ cut) rest) (hShort : Passes marker done start cut)
    (hLong : Passes marker done start (cut ++ rest)) :
    redacted marker done (cut ++ rest) =
      redacted marker done cut ++ redacted marker done rest := by
  have hWhole := hLong.redacted_eq h
  rw [← List.append_assoc, hPasses.redacted_eq h, hShort.redacted_eq h, List.append_assoc] at hWhole
  exact (List.append_cancel_left hWhole).symm

/-- For a place in front of one that every search comes by, what is behind the later
place does not matter. The searches in front have ended before it. -/
theorem Passes.iff_of_append (h : AllGuarded guard marker done)
    (hPasses : Passes marker done (start ++ cut) rest) :
    Passes marker done start (cut ++ rest) ↔ Passes marker done start cut := by
  induction done with
  | nil => exact Iff.rfl
  | cons needle done ih =>
      obtain ⟨hNeedle, hDone⟩ := List.forall_mem_cons.mp h
      obtain ⟨hBefore, hScan⟩ := hPasses
      have hParts (hShort : Passes marker done start cut) :
          Scan needle (redacted marker done start) (redacted marker done (cut ++ rest)) ↔
            Scan needle (redacted marker done start) (redacted marker done cut) := by
        rw [hBefore.redacted_cut hDone hShort ((ih hDone hBefore).mpr hShort)]
        rw [hShort.redacted_eq hDone] at hScan
        exact hScan.iff_of_append hNeedle.ne_nil
      constructor
      · intro hLong
        have hShort := (ih hDone hBefore).mp hLong.1
        exact ⟨hShort, (hParts hShort).mp hLong.2⟩
      · intro hShort
        exact ⟨(ih hDone hBefore).mpr hShort.1, (hParts hShort.1).mpr hShort.2⟩

/-- The text is the other one, or has another letter where the other one has the
guard for the first time that they differ. -/
def Deviates (guard : α) (text other : List α) : Prop :=
  other = text ∨ ∃ front back tail letter, text = front ++ guard :: back ∧
    other = front ++ letter :: tail ∧ letter ≠ guard

/-- A text that once deviates goes on deviating: a later replacement cannot undo an
earlier one. -/
theorem Deviates.replaceAll (hGuard : guard ∉ marker) (hMarker : marker ≠ [])
    (hNeedle : Guarded guard marker needle) {other : List α} (h : Deviates guard text other) :
    Deviates guard text (Redaction.replaceAll needle marker other) := by
  obtain ⟨first, others, rfl⟩ := List.exists_cons_of_ne_nil hMarker
  have hFirst : first ≠ guard := fun hSame => hGuard (hSame ▸ List.mem_cons_self)
  rcases @replaceAll_eq_or _ needle (first :: others) _ hNeedle.ne_nil other with
    hSame | ⟨front, tail, rfl, hSplit⟩
  · rwa [hSame]
  obtain ⟨ending, rfl⟩ : ∃ ending, needle = guard :: ending := by
    cases needle with
    | nil => exact absurd rfl hNeedle.ne_nil
    | cons letter ending => exact ⟨ending, congrArg (· :: ending) (Option.some.inj hNeedle.starts)⟩
  rw [hSplit]
  rcases h with rfl | ⟨before, back, rest, letter, rfl, hOther, hLetter⟩
  · exact Or.inr ⟨front, _, _, first, rfl, rfl, hFirst⟩
  · rcases List.append_eq_append_iff.mp hOther with ⟨middle, rfl, hMiddle⟩ | ⟨middle, rfl, hMiddle⟩
    · cases middle with
      | nil => exact absurd (List.cons.inj hMiddle).1.symm hLetter
      | cons next middle =>
          obtain ⟨rfl, -⟩ := List.cons.inj hMiddle
          refine Or.inr ⟨front, middle ++ guard :: back, _, first, ?_, rfl, hFirst⟩
          rw [List.append_assoc, List.cons_append]
    · cases middle with
      | nil => exact absurd (List.cons.inj hMiddle).1 hLetter
      | cons next middle =>
          obtain ⟨rfl, -⟩ := List.cons.inj hMiddle
          exact Or.inr ⟨before, back, _, letter, rfl, List.append_assoc before (letter :: middle) _,
            hLetter⟩

/-- A text that still begins as it did has lost nothing. A replacement would show,
within the length of the text, where its marker came in. -/
theorem redacted_eq_of_prefix (hGuard : guard ∉ marker) (hMarker : marker ≠ [])
    (h : AllGuarded guard marker done) (hPrefix : text <+: redacted marker done text ++ rest) :
    redacted marker done text = text := by
  have hEither : Deviates guard text (redacted marker done text) :=
    redacted_induction (fun needle hMem _ hText => hText.replaceAll hGuard hMarker (h needle hMem))
      (Or.inl rfl)
  rcases hEither with hSame | ⟨front, back, tail, letter, hText, hOther, hLetter⟩
  · exact hSame
  · rw [hOther] at hPrefix
    nth_rewrite 1 [hText] at hPrefix
    rw [List.append_assoc, List.prefix_append_right_inj] at hPrefix
    exact absurd (List.cons_prefix_cons.mp hPrefix).1.symm hLetter

/-- The places that no replaced needle covers are those that every search comes
by. The left side speaks of the text as it was, the right one of the searches as
they run. -/
theorem reached_iff (hGuard : guard ∉ marker) (hMarker : marker ≠ [])
    (h : AllGuarded guard marker done) :
    Reached marker done before rest ↔ Passes marker done before rest := by
  induction done generalizing before rest with
  | nil => rw [Reached, Passes]
  | cons needle done ihDone =>
      obtain ⟨hNeedle, hDone⟩ := List.forall_mem_cons.mp h
      have hHead {word : List α} (hWord : word ≠ []) {ending : List α}
          (hSplit : needle = word ++ ending) : word.head? = some guard := by
        have hStarts := hNeedle.starts
        rwa [hSplit, List.head?_append_of_ne_nil _ hWord] at hStarts
      induction hLength : before.length using Nat.strong_induction_on generalizing before rest with
      | _ length ih =>
          rw [Reached, Passes, ihDone hDone]
          apply and_congr_right
          intro hBefore
          have hWhole := hBefore.redacted_eq hDone
          constructor
          · intro hNone
            refine (scan_or_crossed hNeedle.ne_nil _ _).resolve_right ?_
            intro hCrossed
            obtain ⟨first, second, ending, hText, hSecond, hEnding, hSplit, hScan, hThere⟩ := hCrossed
            obtain ⟨start, cut, rfl, hShort, rfl, rfl⟩ :=
              exists_passes hGuard hMarker hDone (hHead hSecond hSplit) hText
            have hFree : ¬marker <:+: redacted marker done cut := fun hIn =>
              hNeedle.free (hSplit ▸ List.infix_append_of_infix_left hIn)
            have hCut := redacted_eq_of_free hDone hFree
            have hLong := (hBefore.iff_of_append hDone).mpr hShort
            have hBehind := hBefore.redacted_cut hDone hShort hLong
            rw [hCut] at hSecond hSplit hScan hThere hBehind
            have hPos := List.length_pos_iff.mpr hSecond
            apply hNone start cut ending rfl hSecond hEnding hSplit
            · rw [List.length_append] at hLength
              exact (ih start.length (by omega) rfl).mpr ⟨hLong, hBehind ▸ hScan⟩
            · rw [stands_iff hGuard hDone hNeedle, hBehind]
              exact hThere
          · intro hScan start cut ending hText hCut hEnding hSplit hReached hStands
            subst hText
            have hPos := List.length_pos_iff.mpr hCut
            rw [List.length_append] at hLength
            obtain ⟨hLong, hStart⟩ := (ih start.length (by omega) rfl).mp hReached
            have hShort := (hBefore.iff_of_append hDone).mp hLong
            have hBehind := hBefore.redacted_cut hDone hShort hLong
            rw [stands_iff hGuard hDone hNeedle, hBehind] at hStands
            have hSame : redacted marker done cut = cut := by
              apply redacted_eq_of_prefix hGuard hMarker hDone
              exact List.IsPrefix.trans ⟨ending, hSplit.symm⟩ hStands
            rw [hSame] at hBehind hStands
            rw [hBehind] at hStart
            rw [hShort.redacted_eq hDone, hSame] at hScan
            have hInside := hScan.prefix_cut hNeedle.ne_nil hStart hCut hStands
            have hTooLong := hInside.length_le
            rw [hSplit, List.length_append] at hTooLong
            have := List.length_pos_iff.mpr hEnding
            omega

/-- At a place that no replaced needle covers, the text falls into two that are
replaced by themselves, so that what stands in front has no part in what is left
behind. -/
theorem redacted_of_reached (hGuard : guard ∉ marker) (hMarker : marker ≠ [])
    (h : AllGuarded guard marker done) (hReached : Reached marker done before rest) :
    redacted marker done (before ++ rest) =
      redacted marker done before ++ redacted marker done rest :=
  ((reached_iff hGuard hMarker h).mp hReached).redacted_eq h

/-- Where a guarded word is left in a text, it goes back to a place that no replaced
needle covers. In front of it and from it on, the text was replaced by itself. -/
theorem exists_reached (hGuard : guard ∉ marker) (hMarker : marker ≠ [])
    (h : AllGuarded guard marker done) (hWord : Guarded guard marker word) {first second : List α}
    (hText : redacted marker done text = first ++ (word ++ second)) :
    ∃ before rest, text = before ++ rest ∧ Reached marker done before rest ∧
      first = redacted marker done before ∧ word ++ second = redacted marker done rest := by
  have hHead : (word ++ second).head? = some guard := by
    rw [List.head?_append_of_ne_nil _ hWord.ne_nil, hWord.starts]
  obtain ⟨before, rest, hSplit, hPasses, hFirst, hSecond⟩ :=
    exists_passes hGuard hMarker h hHead hText
  exact ⟨before, rest, hSplit, (reached_iff hGuard hMarker h).mpr hPasses, hFirst, hSecond⟩

/-- Nothing follows a word that is left, exactly if nothing followed it before: the
marker never vanishes from an end. -/
theorem redacted_eq_word_iff (hGuard : guard ∉ marker) (hMarker : marker ≠ [])
    (h : AllGuarded guard marker done) (hWord : Guarded guard marker word)
    (hStands : word <+: redacted marker done rest) :
    redacted marker done rest = word ↔ rest = word := by
  constructor
  · intro hSame
    have hFree : ¬marker <:+: redacted marker done rest := hSame ▸ hWord.free
    rw [← hSame, redacted_eq_of_free h hFree]
  · intro hSame
    subst hSame
    have hPrefix : rest <+: redacted marker done rest ++ [] := by rwa [List.append_nil]
    exact redacted_eq_of_prefix hGuard hMarker h hPrefix

omit [DecidableEq α] in
/-- A needle that no marker can complete is gone when it has had its turn, and no
later replacement brings it back. -/
theorem not_stands_of_mem (hMem : needle ∈ done) (hNeedle : needle ≠ [])
    (hEnds : ∀ ending, ending ≠ [] → ending <+: marker → ¬ending <:+ needle) :
    ¬Stands marker done text needle := by
  induction done with
  | nil => cases hMem
  | cons latest done ih =>
      intro hStands
      obtain ⟨front, back, hSplit, hMissed, ⟨rfl, hFront⟩ | ⟨hBack, hMarker, -⟩⟩ := hStands
      · rw [List.append_nil] at hSplit
        subst hSplit
        rcases List.mem_cons.mp hMem with rfl | hMem
        · exact hMissed [] needle rfl hNeedle hFront
        · exact ih hMem hFront
      · exact hEnds back hBack hMarker (hSplit ▸ List.suffix_append _ _)

end Replace

end Redaction
