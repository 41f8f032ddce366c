import Mathlib.Data.List.Chain
import Mathlib.Data.List.Infix

/-! Runs of blanks: cutting a text at them, and collapsing them to single
spaces. A text that is cut and joined again has no runs left. -/
namespace Whitespace

universe u

variable {α : Type u} (blank : α → Bool) (space : α)

/-- Collapse runs of blanks; the flag tells whether one is being read. -/
def collapseFrom : Bool → List α → List α
  | _, [] => []
  | inRun, letter :: rest =>
      if blank letter then
        if inRun then collapseFrom true rest else space :: collapseFrom true rest
      else letter :: collapseFrom false rest

/-- Replace every run of blanks by one space, at the ends of the text too. -/
def collapse (text : List α) : List α := collapseFrom blank space false text

/-- Cut a text at its blanks; `word` is what has been read of a word, backwards. -/
def splitFrom : List α → List α → List (List α)
  | word, [] => if word = [] then [] else [word.reverse]
  | word, letter :: rest =>
      if blank letter then
        if word = [] then splitFrom [] rest else word.reverse :: splitFrom [] rest
      else splitFrom (letter :: word) rest

/-- The words between the blanks, none of them empty, in the order of the text. -/
def split (text : List α) : List (List α) := splitFrom blank [] text

/-- The words of a text with single spaces between them, and none at the ends. -/
def normalize (text : List α) : List α := List.intercalate [space] (split blank text)

/-- Blanks stand alone, and all of them are spaces. What is tidy is left as it is by
collapsing. -/
structure Tidy (text : List α) : Prop where
  apart : text.IsChain fun first second => blank first = true → blank second = false
  spaces : ∀ letter ∈ text, blank letter = true → letter = space

/-- No blank is first. The empty text counts, since nothing stands in front of what
follows. -/
def Begun (text : List α) : Prop := ∀ letter ∈ text.head?, blank letter = false

variable {blank space} {text word : List α}

/-- A part of a tidy text is tidy, wherever it is cut out. -/
theorem Tidy.of_part {part : List α} (h : Tidy blank space text) (hPart : part <:+: text) :
    Tidy blank space part :=
  ⟨ h.apart.infix hPart, fun letter hMem => h.spaces letter (hPart.subset hMem)⟩

theorem tidy_nil : Tidy blank space [] := ⟨List.isChain_nil, fun _ hMem => by cases hMem⟩

theorem Tidy.cons {letter : α} (h : Tidy blank space text) (hLetter : blank letter = false) :
    Tidy blank space (letter :: text) := by
  constructor
  · apply h.apart.cons
    intro next _ hBlank
    rw [hLetter] at hBlank
    cases hBlank
  · intro other hMem hBlank
    rcases List.mem_cons.mp hMem with hSame | hOther
    · rw [hSame, hLetter] at hBlank
      cases hBlank
    · exact h.spaces other hOther hBlank

theorem Tidy.cons_space (h : Tidy blank space text) (hBegun : Begun blank text) :
    Tidy blank space (space :: text) := by
  constructor
  · exact h.apart.cons fun next hNext _ => hBegun next hNext
  · intro other hMem hBlank
    rcases List.mem_cons.mp hMem with hSame | hOther
    · exact hSame
    · exact h.spaces other hOther hBlank

/-- Words in front keep a text tidy, for blanks are what could spoil it. -/
theorem Tidy.append_left (h : Tidy blank space text) (hWord : ∀ letter ∈ word, blank letter = false) :
    Tidy blank space (word ++ text) := by
  induction word with
  | nil => exact h
  | cons letter rest ih =>
      obtain ⟨hLetter, hRest⟩ := List.forall_mem_cons.mp hWord
      exact (ih hRest).cons hLetter

theorem Tidy.append_letter {letter : α} (h : Tidy blank space text) (hLetter : blank letter = false) :
    Tidy blank space (text ++ [letter]) := by
  constructor
  · apply h.apart.append (List.isChain_singleton letter)
    intro last _ next hNext _
    rw [List.head?_cons, Option.mem_some] at hNext
    rw [← hNext, hLetter]
  · intro other hMem hBlank
    rcases List.mem_append.mp hMem with hText | hLast
    · exact h.spaces other hText hBlank
    · rw [List.mem_singleton.mp hLast, hLetter] at hBlank
      cases hBlank

variable (blank space) in
/-- A collapsed text is tidy, and one that is collapsed inside a run begins with no
blank. -/
theorem tidy_collapseFrom (inRun : Bool) (text : List α) :
    Tidy blank space (collapseFrom blank space inRun text) ∧
      (inRun = true → Begun blank (collapseFrom blank space inRun text)) := by
  induction text generalizing inRun with
  | nil => exact ⟨tidy_nil, fun _ letter hMem => by cases hMem⟩
  | cons letter rest ih =>
      rw [collapseFrom]
      by_cases hBlank : blank letter = true
      · rw [if_pos hBlank]
        obtain ⟨hTidy, hBegun⟩ := ih true
        cases inRun with
        | true => exact ⟨hTidy, hBegun⟩
        | false => exact ⟨hTidy.cons_space (hBegun rfl), fun hRun => by cases hRun⟩
      · rw [if_neg hBlank]
        rw [Bool.not_eq_true] at hBlank
        refine ⟨(ih false).1.cons hBlank, fun _ first hFirst => ?_⟩
        rw [List.head?_cons, Option.mem_some] at hFirst
        rw [← hFirst, hBlank]

/-- A tidy text has nothing to collapse; collapsing twice is collapsing once. -/
theorem Tidy.collapse_eq (h : Tidy blank space text) : collapse blank space text = text := by
  have hFrom (inRun : Bool) (hBegun : inRun = true → Begun blank text) :
      collapseFrom blank space inRun text = text := by
    induction text generalizing inRun with
    | nil => rfl
    | cons letter rest ih =>
        have hRest := h.of_part (List.suffix_cons letter rest).isInfix
        rw [collapseFrom]
        by_cases hBlank : blank letter = true
        · cases inRun with
          | true =>
              have hFirst := hBegun rfl letter rfl
              rw [hBlank] at hFirst
              cases hFirst
          | false =>
              have hNext : Begun blank rest := fun next hMem => h.apart.rel_head? hMem hBlank
              rw [if_pos hBlank, if_neg Bool.false_ne_true, ih hRest true fun _ => hNext,
                h.spaces letter List.mem_cons_self hBlank]
        · rw [if_neg hBlank, ih hRest false fun hRun => by cases hRun]
  exact hFrom false fun hRun => by cases hRun

theorem collapseFrom_append_letter {letter : α} (hLetter : blank letter = false) (inRun : Bool)
    (text : List α) :
    collapseFrom blank space inRun (text ++ [letter]) =
      collapseFrom blank space inRun text ++ [letter] := by
  induction text generalizing inRun with
  | nil => simp [collapseFrom, hLetter]
  | cons first rest ih =>
      rw [List.cons_append, collapseFrom, collapseFrom, ih, ih]
      split_ifs <;> rfl

theorem collapse_cons {letter : α} (hLetter : blank letter = false) (rest : List α) :
    collapse blank space (letter :: rest) = letter :: collapse blank space rest := by
  rw [collapse, collapseFrom, hLetter, if_neg Bool.false_ne_true, collapse]

variable (blank space) in
/-- Normalising a text collapses it, but for a blank at its end, which joining the
words drops. -/
theorem splitFrom_eq (word text : List α) :
    ∃ tail, (tail = [] ∨ tail = [space] ∧ splitFrom blank word text ≠ []) ∧
      word.reverse ++ collapseFrom blank space word.isEmpty text =
        List.intercalate [space] (splitFrom blank word text) ++ tail := by
  induction text generalizing word with
  | nil =>
      refine ⟨[], Or.inl rfl, ?_⟩
      rw [splitFrom]
      split_ifs with hWord
      · rw [hWord]
        rfl
      · simp [collapseFrom]
  | cons letter rest ih =>
      rw [splitFrom, collapseFrom]
      by_cases hBlank : blank letter = true
      · obtain ⟨tail, hTail, hRest⟩ := ih []
        rw [if_pos hBlank, if_pos hBlank]
        by_cases hWord : word = []
        · rw [if_pos hWord, hWord]
          exact ⟨tail, hTail, hRest⟩
        · rw [if_neg hWord, if_neg (by simpa using hWord)]
          rw [List.reverse_nil, List.nil_append, List.isEmpty_nil] at hRest
          rw [hRest]
          cases hParts : splitFrom blank [] rest with
          | nil =>
              rcases hTail with hNil | ⟨-, hNe⟩
              · refine ⟨[space], Or.inr ⟨rfl, by simp⟩, ?_⟩
                simp [hNil]
              · exact absurd hParts hNe
          | cons part parts =>
              refine ⟨tail, hTail.imp_right fun h => ⟨h.1, by simp⟩, ?_⟩
              simp [List.append_assoc]
      · obtain ⟨tail, hTail, hRest⟩ := ih (letter :: word)
        rw [if_neg hBlank, if_neg hBlank]
        refine ⟨tail, hTail, ?_⟩
        rw [← hRest]
        simp

variable (blank space) in
/-- The collapsed text is the normalised one with at most one space behind it. -/
theorem normalize_starts (text : List α) :
    ∃ tail, (tail = [] ∨ tail = [space]) ∧
      collapseFrom blank space true text = normalize blank space text ++ tail := by
  obtain ⟨tail, hTail, hText⟩ := splitFrom_eq blank space [] text
  exact ⟨tail, hTail.imp_right And.left, hText⟩

/-- A normalised text is tidy, whatever the text was, so that normalising twice
changes nothing. -/
theorem tidy_normalize (text : List α) : Tidy blank space (normalize blank space text) := by
  obtain ⟨tail, -, hText⟩ := normalize_starts blank space text
  apply (tidy_collapseFrom blank space true text).1.of_part
  rw [hText]
  exact (List.prefix_append _ _).isInfix

theorem collapseFrom_of_begun (h : Begun blank text) (inRun : Bool) :
    collapseFrom blank space inRun text = collapse blank space text := by
  cases text with
  | nil => rfl
  | cons letter rest =>
      have hLetter := h letter rfl
      rw [collapse, collapseFrom, collapseFrom, hLetter, if_neg Bool.false_ne_true,
        if_neg Bool.false_ne_true]

/-- Between letters that are no blanks, normalising is collapsing: there is no blank
at either end to drop. -/
theorem normalize_append_letter {last : α} (hSpace : blank space = true)
    (hBegun : Begun blank text) (hLast : blank last = false) :
    normalize blank space (text ++ [last]) = collapse blank space text ++ [last] := by
  obtain ⟨tail, hTail, hText⟩ := normalize_starts blank space (text ++ [last])
  rw [collapseFrom_append_letter hLast, collapseFrom_of_begun hBegun] at hText
  rcases hTail with hNil | hOne
  · rw [hNil, List.append_nil] at hText
    exact hText.symm
  · rw [hOne] at hText
    have hEnd := List.append_inj_right' hText rfl
    rw [(List.cons.inj hEnd).1, hSpace] at hLast
    cases hLast

section Words

variable (hSpace : blank space = true) (hWord : ∀ letter ∈ word, blank letter = false)

include hSpace hWord

/-- A word without blanks that begins a collapsed text began the text, for only blanks
were replaced. -/
theorem prefix_of_prefix_collapse (h : word <+: collapseFrom blank space false text) :
    word <+: text := by
  induction text generalizing word with
  | nil => exact h
  | cons letter rest ih =>
      cases word with
      | nil => exact List.nil_prefix
      | cons first others =>
          rw [collapseFrom] at h
          obtain ⟨hFirst, hOthers⟩ := List.forall_mem_cons.mp hWord
          by_cases hBlank : blank letter = true
          · rw [if_pos hBlank, if_neg Bool.false_ne_true] at h
            obtain ⟨rfl, -⟩ := List.cons_prefix_cons.mp h
            rw [hSpace] at hFirst
            cases hFirst
          · rw [if_neg hBlank] at h
            obtain ⟨rfl, hRest⟩ := List.cons_prefix_cons.mp h
            exact List.cons_prefix_cons.mpr ⟨rfl, ih hOthers hRest⟩

/-- A word without blanks is in a text when it is in the collapsed text. Collapsing
leaves a blank of every run and so brings no two words together. -/
theorem infix_of_infix_collapse (inRun : Bool) (h : word <:+: collapseFrom blank space inRun text) :
    word <:+: text := by
  induction text generalizing inRun with
  | nil => exact h
  | cons letter rest ih =>
      have hSpaced {others : List α} (hIn : word <:+: space :: others) : word <:+: others := by
        rcases List.infix_cons_iff.mp hIn with hPrefix | hRest
        · cases word with
          | nil => exact List.nil_infix
          | cons first _ =>
              obtain ⟨rfl, -⟩ := List.cons_prefix_cons.mp hPrefix
              have hFirst := hWord first List.mem_cons_self
              rw [hSpace] at hFirst
              cases hFirst
        · exact hRest
      by_cases hBlank : blank letter = true
      · rw [collapseFrom, if_pos hBlank] at h
        split_ifs at h with hRun
        · exact List.infix_cons (ih true h)
        · exact List.infix_cons (ih true (hSpaced h))
      · have hCollapse := h
        rw [collapseFrom, if_neg hBlank] at h
        rcases List.infix_cons_iff.mp h with hPrefix | hRest
        · apply List.IsPrefix.isInfix
          apply prefix_of_prefix_collapse hSpace hWord
          rw [collapseFrom, if_neg hBlank]
          exact hPrefix
        · exact List.infix_cons (ih false hRest)

end Words

end Whitespace
