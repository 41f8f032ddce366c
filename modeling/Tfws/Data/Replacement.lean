import Mathlib.Data.List.Chain
import Mathlib.Data.List.Infix

/-! Replacing every occurrence of a needle by a marker, from the left and without
overlaps: what begins the text that results, and which places of the text the
search comes by. -/
namespace Redaction

universe u

variable {α : Type u} {guard : α} {needle marker text front start cut before rest : List α}

section Replace

variable [DecidableEq α]

section Definition

variable (needle marker : List α)

/-- Replace behind `skip` members that are left out, because they belong to an
occurrence. -/
def replaceFrom : Nat → List α → List α
  | _, [] => []
  | skip + 1, _ :: rest => replaceFrom skip rest
  | 0, member :: rest =>
      if needle.isPrefixOf (member :: rest) then marker ++ replaceFrom (needle.length - 1) rest
      else member :: replaceFrom 0 rest

/-- Replace the occurrences of a needle, from the left and without overlaps. -/
def replaceAll (text : List α) : List α := replaceFrom needle marker 0 text

end Definition

theorem replaceFrom_eq (skip : Nat) (text : List α) :
    replaceFrom needle marker skip text = replaceAll needle marker (text.drop skip) := by
  induction text generalizing skip with
  | nil => rw [List.drop_nil, replaceAll, replaceFrom, replaceFrom]
  | cons member rest ih =>
      cases skip with
      | zero => rfl
      | succ skip => rw [replaceFrom, ih, List.drop_succ_cons]

/-- A needle in front is replaced, and the search goes on behind it. -/
theorem replaceAll_append (hNeedle : needle ≠ []) (rest : List α) :
    replaceAll needle marker (needle ++ rest) = marker ++ replaceAll needle marker rest := by
  cases needle with
  | nil => exact absurd rfl hNeedle
  | cons first others =>
      have hStarts : (first :: others).isPrefixOf (first :: (others ++ rest)) = true :=
        List.isPrefixOf_iff_prefix.mpr (List.prefix_append (first :: others) rest)
      rw [List.cons_append, replaceAll, replaceFrom, if_pos hStarts, replaceFrom_eq,
        List.length_cons, Nat.add_sub_cancel, List.drop_left]

/-- Where no needle begins, a letter stays and the search goes on with the next. -/
theorem replaceAll_cons {member : α} {rest : List α} (h : ¬needle <+: member :: rest) :
    replaceAll needle marker (member :: rest) = member :: replaceAll needle marker rest := by
  rw [replaceAll, replaceFrom, if_neg (mt List.isPrefixOf_iff_prefix.mp h)]
  rfl

/-- Reading a text the way it is replaced: past a needle that stands there, or else by
one letter. It is the induction for whatever is said of a replaced text. -/
theorem scan_induction {motive : List α → Prop} (hNeedle : needle ≠ []) (nil : motive [])
    (hit : ∀ rest, motive rest → motive (needle ++ rest))
    (miss : ∀ member rest, ¬needle <+: member :: rest → motive rest → motive (member :: rest))
    (text : List α) : motive text := by
  induction hLength : text.length using Nat.strong_induction_on generalizing text with
  | _ length ih =>
      have hPos : 0 < needle.length := List.length_pos_iff.mpr hNeedle
      cases text with
      | nil => exact nil
      | cons member rest =>
          by_cases hHit : needle <+: member :: rest
          · obtain ⟨tail, hTail⟩ := hHit
            rw [← hTail] at hLength ⊢
            rw [List.length_append] at hLength
            exact hit tail (ih tail.length (by omega) tail rfl)
          · rw [List.length_cons] at hLength
            exact miss member rest hHit (ih rest.length (by omega) rest rfl)

/-- The needle begins nowhere in the front of the text, not even to end behind
that front. -/
def Missed (needle front text : List α) : Prop :=
  ∀ first second, front = first ++ second → second ≠ [] → ¬first ++ needle <+: text

omit [DecidableEq α] in
theorem missed_nil : Missed needle [] text := by
  intro first second hFront hSecond
  exact absurd (List.append_eq_nil_iff.mp hFront.symm).2 hSecond

omit [DecidableEq α] in
theorem missed_cons {letter : α} :
    Missed needle (letter :: front) (letter :: text) ↔
      ¬needle <+: letter :: text ∧ Missed needle front text := by
  constructor
  · intro h
    refine ⟨h [] (letter :: front) rfl (List.cons_ne_nil _ _), ?_⟩
    intro first second hFront hSecond hStarts
    apply h (letter :: first) second (congrArg _ hFront) hSecond
    exact List.cons_prefix_cons.mpr ⟨rfl, hStarts⟩
  · intro h first second hFront hSecond
    rcases List.cons_eq_append_iff.mp hFront with ⟨rfl, -⟩ | ⟨tail, rfl, hTail⟩
    · exact h.1
    · intro hStarts
      exact h.2 tail second hTail hSecond (List.cons_prefix_cons.mp hStarts).2

/-- Behind a front in which no needle begins, replacing goes on as if the front were
not there. A needle that begins in the front and leads over its end would be missed
otherwise. -/
theorem replaceAll_of_missed (h : Missed needle front (front ++ rest)) :
    replaceAll needle marker (front ++ rest) = front ++ replaceAll needle marker rest := by
  induction front with
  | nil => rfl
  | cons letter others ih =>
      obtain ⟨hHere, hOthers⟩ := missed_cons.mp h
      exact (replaceAll_cons hHere).trans (congrArg _ (ih hOthers))

theorem replaceAll_of_absent (h : ¬needle <:+: text) : replaceAll needle marker text = text := by
  have hMissed := @replaceAll_of_missed _ needle marker text [] _ ?_
  · rw [List.append_nil] at hMissed
    rw [hMissed, replaceAll, replaceFrom, List.append_nil]
  · intro first second _ _ hStarts
    rw [List.append_nil] at hStarts
    exact h ((List.suffix_append first needle).isInfix.trans hStarts.isInfix)

/-- Nothing was replaced, or the text is cut at the first needle in it, and what is
behind is replaced by itself. -/
theorem replaceAll_eq_or (hNeedle : needle ≠ []) (text : List α) :
    replaceAll needle marker text = text ∨
      ∃ front tail, text = front ++ (needle ++ tail) ∧
        replaceAll needle marker text = front ++ (marker ++ replaceAll needle marker tail) := by
  induction text using scan_induction hNeedle with
  | nil => exact Or.inl rfl
  | hit rest ih => exact Or.inr ⟨[], rest, rfl, replaceAll_append hNeedle rest⟩
  | miss member rest hMiss ih =>
      rw [replaceAll_cons hMiss]
      rcases ih with hSame | ⟨front, tail, rfl, hSplit⟩
      · exact Or.inl (congrArg _ hSame)
      · exact Or.inr ⟨member :: front, tail, rfl, congrArg _ hSplit⟩

/-- Replacing brings in no letter but those of the marker, which therefore cannot make
up a word with other letters. -/
theorem mem_replaceAll {letter : α} (hNeedle : needle ≠ [])
    (h : letter ∈ replaceAll needle marker text) : letter ∈ marker ∨ letter ∈ text := by
  induction text using scan_induction hNeedle with
  | nil => cases h
  | hit rest ih =>
      rw [replaceAll_append hNeedle] at h
      rcases List.mem_append.mp h with hMarker | hRest
      · exact Or.inl hMarker
      · exact (ih hRest).imp_right (List.mem_append_right _)
  | miss member rest hMiss ih =>
      rw [replaceAll_cons hMiss] at h
      rcases List.mem_cons.mp h with hSame | hRest
      · exact Or.inr (hSame ▸ List.mem_cons_self)
      · exact (ih hRest).imp_right (List.mem_cons_of_mem member)

theorem head_replaceAll {letter : α} (hNeedle : needle ≠ []) (hMarker : marker ≠ [])
    (h : letter ∈ (replaceAll needle marker text).head?) :
    letter ∈ marker ∨ letter ∈ text.head? := by
  by_cases hHit : needle <+: text
  · obtain ⟨tail, rfl⟩ := hHit
    rw [replaceAll_append hNeedle, List.head?_append_of_ne_nil _ hMarker] at h
    exact Or.inl (List.mem_of_mem_head? h)
  · cases text with
    | nil => cases h
    | cons member rest =>
        rw [replaceAll_cons hHit] at h
        exact Or.inr h

variable {related : α → α → Prop}

/-- A chain stays one when its neighbours may be any letters of the marker, on either
side. -/
theorem isChain_replaceAll (hNeedle : needle ≠ []) (hMarker : marker ≠ [])
    (hLeft : ∀ letter ∈ marker, ∀ other, related letter other)
    (hRight : ∀ letter ∈ marker, ∀ other, related other letter) (h : text.IsChain related) :
    (replaceAll needle marker text).IsChain related := by
  have hFront (word : List α) (hWord : ∀ letter ∈ word, ∀ other, related letter other)
      {rest : List α} (hRest : rest.IsChain related) : (word ++ rest).IsChain related := by
    induction word with
    | nil => exact hRest
    | cons letter others ih =>
        obtain ⟨hLetter, hOthers⟩ := List.forall_mem_cons.mp hWord
        exact (ih hOthers).cons fun next _ => hLetter next
  induction text using scan_induction hNeedle with
  | nil => exact h
  | hit rest ih =>
      rw [replaceAll_append hNeedle]
      exact hFront marker hLeft (ih h.right_of_append)
  | miss member rest hMiss ih =>
      rw [replaceAll_cons hMiss]
      apply (ih h.tail).cons
      intro next hNext
      rcases head_replaceAll hNeedle hMarker hNext with hIn | hHead
      · exact hRight next hIn member
      · exact h.rel_head? hHead

/-- Exactly how a word that holds no marker comes to begin a replaced text: it began
the text in front of every needle, or the marker of the first needle completes it. The
second case is the one that a redaction by replacement overlooks. -/
theorem prefix_replaceAll {word : List α} (hNeedle : needle ≠ []) (hWord : ¬marker <:+: word) :
    word <+: replaceAll needle marker text ↔
      ∃ front back, word = front ++ back ∧ Missed needle front text ∧
        (back = [] ∧ front <+: text ∨ back ≠ [] ∧ back <+: marker ∧ front ++ needle <+: text) := by
  constructor
  · intro h
    induction text using scan_induction hNeedle generalizing word with
    | nil => exact ⟨[], [], List.prefix_nil.mp h, missed_nil, Or.inl ⟨rfl, List.nil_prefix⟩⟩
    | hit rest ih =>
        rw [replaceAll_append hNeedle] at h
        rcases List.prefix_or_prefix_of_prefix h (List.prefix_append marker _) with hShort | hLong
        · by_cases hEmpty : word = []
          · exact ⟨[], [], hEmpty, missed_nil, Or.inl ⟨rfl, List.nil_prefix⟩⟩
          · exact ⟨[], word, rfl, missed_nil, Or.inr ⟨hEmpty, hShort, List.prefix_append _ _⟩⟩
        · exact absurd hLong.isInfix hWord
    | miss member rest hMiss ih =>
        rw [replaceAll_cons hMiss] at h
        cases word with
        | nil => exact ⟨[], [], rfl, missed_nil, Or.inl ⟨rfl, List.nil_prefix⟩⟩
        | cons letter others =>
            obtain ⟨rfl, hOthers⟩ := List.cons_prefix_cons.mp h
            have hFree : ¬marker <:+: others := fun hIn => hWord (List.infix_cons hIn)
            obtain ⟨front, back, rfl, hMissed, hEither⟩ := ih hFree hOthers
            refine ⟨letter :: front, back, rfl, missed_cons.mpr ⟨hMiss, hMissed⟩, ?_⟩
            rcases hEither with ⟨hBack, hFront⟩ | ⟨hBack, hMarker, hFront⟩
            · exact Or.inl ⟨hBack, List.cons_prefix_cons.mpr ⟨rfl, hFront⟩⟩
            · exact Or.inr ⟨hBack, hMarker, List.cons_prefix_cons.mpr ⟨rfl, hFront⟩⟩
  · intro h
    obtain ⟨front, back, rfl, hMissed, ⟨rfl, tail, rfl⟩ | ⟨-, hMarker, tail, rfl⟩⟩ := h
    · rw [List.append_nil, replaceAll_of_missed hMissed]
      exact List.prefix_append _ _
    · rw [List.append_assoc] at hMissed ⊢
      rw [replaceAll_of_missed hMissed, replaceAll_append hNeedle, List.prefix_append_right_inj]
      exact hMarker.trans (List.prefix_append _ _)

/-- The search for the needle comes by the place between the two parts: it never
steps over it with an occurrence that begins in the first part. -/
inductive Scan (needle : List α) : List α → List α → Prop where
  | start (rest : List α) : Scan needle [] rest
  | miss {letter : α} {before rest : List α} (hMiss : ¬needle <+: letter :: (before ++ rest))
      (h : Scan needle before rest) : Scan needle (letter :: before) rest
  | hit {whole before rest : List α} (hWhole : whole = needle ++ before)
      (h : Scan needle before rest) : Scan needle whole rest

omit [DecidableEq α] in
theorem Scan.of_append (hNeedle : needle ≠ []) (h : Scan needle (needle ++ before) rest) :
    Scan needle before rest := by
  generalize hWhole : needle ++ before = whole at h
  cases h with
  | start => exact absurd (List.append_eq_nil_iff.mp hWhole).1 hNeedle
  | miss hMiss h =>
      apply absurd _ hMiss
      rw [← List.cons_append, ← hWhole, List.append_assoc]
      exact List.prefix_append _ _
  | hit hSame h =>
      rw [hSame] at hWhole
      rwa [List.append_cancel_left hWhole]

omit [DecidableEq α] in
theorem Scan.of_cons {letter : α}
    (hMiss : ¬needle <+: letter :: (before ++ rest)) (h : Scan needle (letter :: before) rest) :
    Scan needle before rest := by
  cases h with
  | miss _ h => exact h
  | hit hSame h =>
      apply absurd _ hMiss
      rw [← List.cons_append, hSame, List.append_assoc]
      exact List.prefix_append _ _

/-- At a place that the search comes by, the text falls into two that are replaced by
themselves. -/
theorem Scan.replaceAll_eq (hNeedle : needle ≠ []) (h : Scan needle before rest) :
    replaceAll needle marker (before ++ rest) =
      replaceAll needle marker before ++ replaceAll needle marker rest := by
  induction h with
  | start => rfl
  | @miss letter before rest hMiss h ih =>
      have hShort : ¬needle <+: letter :: before := by
        intro hStarts
        exact hMiss (hStarts.trans (List.prefix_append (letter :: before) rest))
      rw [List.cons_append, replaceAll_cons hMiss, ih, replaceAll_cons hShort, List.cons_append]
  | hit hWhole h ih =>
      rw [hWhole, List.append_assoc, replaceAll_append hNeedle, ih, replaceAll_append hNeedle,
        List.append_assoc]

/-- Where a replaced text has the guard, it has it from a place of the text that the
search came by, for the marker has none. -/
theorem exists_scan (hNeedle : needle ≠ []) (hGuard : guard ∉ marker) {first second : List α}
    (hSecond : second.head? = some guard)
    (h : replaceAll needle marker text = first ++ second) :
    ∃ before rest, text = before ++ rest ∧ Scan needle before rest ∧
      first = replaceAll needle marker before ∧ second = replaceAll needle marker rest := by
  induction text using scan_induction hNeedle generalizing first with
  | nil =>
      have hNil : second = [] := (List.append_eq_nil_iff.mp h.symm).2
      rw [hNil] at hSecond
      cases hSecond
  | hit rest ih =>
      rw [replaceAll_append hNeedle] at h
      rcases List.append_eq_append_iff.mp h with ⟨middle, rfl, hMiddle⟩ | ⟨middle, hMiddle, rfl⟩
      · obtain ⟨before, tail, rfl, hScan, rfl, hTail⟩ := ih hMiddle
        exact ⟨needle ++ before, tail, (List.append_assoc ..).symm, .hit rfl hScan,
          (replaceAll_append hNeedle _).symm, hTail⟩
      · cases middle with
        | nil =>
            rw [List.append_nil] at hMiddle
            refine ⟨needle, rest, rfl, .hit (List.append_nil _).symm (.start rest), ?_, rfl⟩
            have hOnly := @replaceAll_append _ needle marker _ hNeedle []
            rw [List.append_nil] at hOnly
            rw [hOnly, ← hMiddle, replaceAll, replaceFrom, List.append_nil]
        | cons letter others =>
            rw [List.cons_append, List.head?_cons, Option.some.injEq] at hSecond
            rw [hMiddle, hSecond] at hGuard
            exact absurd (List.mem_append_right _ List.mem_cons_self) hGuard
  | miss member rest hMiss ih =>
      rw [replaceAll_cons hMiss] at h
      cases first with
      | nil =>
          rw [List.nil_append, ← replaceAll_cons hMiss] at h
          exact ⟨[], member :: rest, rfl, .start _, rfl, h.symm⟩
      | cons letter others =>
          rw [List.cons_append, List.cons.injEq] at h
          obtain ⟨rfl, hOthers⟩ := h
          obtain ⟨before, tail, rfl, hScan, rfl, hTail⟩ := ih hOthers
          have hShort : ¬needle <+: member :: before := by
            intro hStarts
            exact hMiss (hStarts.trans (List.prefix_append (member :: before) tail))
          exact ⟨member :: before, tail, rfl, .miss hMiss hScan,
            (replaceAll_cons hShort).symm, hTail⟩

omit [DecidableEq α] in
/-- The search comes by a place, or an occurrence at an earlier place that it comes by
leads over it. There is no third way to miss a place. -/
theorem scan_or_crossed (hNeedle : needle ≠ []) (before rest : List α) :
    Scan needle before rest ∨ ∃ start cut ending, before = start ++ cut ∧ cut ≠ [] ∧ ending ≠ [] ∧
      needle = cut ++ ending ∧ Scan needle start (cut ++ rest) ∧ needle <+: cut ++ rest := by
  induction hLength : before.length using Nat.strong_induction_on generalizing before with
  | _ length ih =>
      cases before with
      | nil => exact Or.inl (.start rest)
      | cons letter others =>
          by_cases hHit : needle <+: letter :: (others ++ rest)
          · rcases List.prefix_or_prefix_of_prefix hHit (List.prefix_append (letter :: others) rest)
              with ⟨tail, hTail⟩ | ⟨ending, hEnding⟩
            · have hPos := List.length_pos_iff.mpr hNeedle
              have hShorter : tail.length < length := by
                rw [← hLength, ← hTail, List.length_append]
                omega
              rcases ih _ hShorter tail rfl with hScan | ⟨start, cut, ending, rfl, hCrossed⟩
              · exact Or.inl (.hit hTail.symm hScan)
              · obtain ⟨hCut, hEnding, hSplit, hScan, hThere⟩ := hCrossed
                refine Or.inr ⟨needle ++ start, cut, ending, ?_, hCut, hEnding, hSplit,
                  .hit rfl hScan, hThere⟩
                rw [← hTail, List.append_assoc]
            · by_cases hNil : ending = []
              · rw [hNil, List.append_nil] at hEnding
                refine Or.inl (.hit ?_ (.start rest))
                rw [List.append_nil, hEnding]
              · exact Or.inr ⟨[], letter :: others, ending, rfl, List.cons_ne_nil _ _, hNil,
                  hEnding.symm, .start _, hHit⟩
          · have hShorter : others.length < length := by
              rw [← hLength, List.length_cons]
              omega
            rcases ih _ hShorter others rfl with hScan | ⟨start, cut, ending, rfl, hCrossed⟩
            · exact Or.inl (.miss hHit hScan)
            · obtain ⟨hCut, hEnding, hSplit, hScan, hThere⟩ := hCrossed
              rw [List.append_assoc] at hHit
              exact Or.inr ⟨letter :: start, cut, ending, rfl, hCut, hEnding, hSplit,
                .miss hHit hScan, hThere⟩

omit [DecidableEq α] in
/-- An occurrence at a place that the search comes by ends in front of the next
place that it comes by. -/
theorem Scan.prefix_cut (hNeedle : needle ≠ []) (h : Scan needle (start ++ cut) rest)
    (hStart : Scan needle start (cut ++ rest)) (hCut : cut ≠ []) (hThere : needle <+: cut ++ rest) :
    needle <+: cut := by
  generalize hTail : cut ++ rest = tail at hStart
  induction hStart with
  | start =>
      rw [List.nil_append] at h
      cases h with
      | start => exact absurd rfl hCut
      | miss hMiss => exact absurd hThere hMiss
      | hit hWhole => exact hWhole ▸ List.prefix_append _ _
  | miss hMiss _ ih =>
      subst hTail
      rw [← List.append_assoc] at hMiss
      exact ih (h.of_cons hMiss) rfl
  | hit hWhole _ ih =>
      subst hWhole
      rw [List.append_assoc] at h
      exact ih (h.of_append hNeedle) hTail

omit [DecidableEq α] in
/-- What lies behind a place that the search comes by does not matter for the places
in front of it. -/
theorem Scan.iff_of_append (hNeedle : needle ≠ []) (h : Scan needle (start ++ cut) rest) :
    Scan needle start (cut ++ rest) ↔ Scan needle start cut := by
  constructor
  · intro hStart
    generalize hTail : cut ++ rest = tail at hStart
    induction hStart with
    | start => exact .start _
    | @miss letter before _ hMiss _ ih =>
        subst hTail
        have hShort : ¬needle <+: letter :: (before ++ cut) := by
          intro hStarts
          apply hMiss
          rw [← List.append_assoc]
          exact hStarts.trans (List.prefix_append (letter :: (before ++ cut)) rest)
        rw [← List.append_assoc] at hMiss
        exact .miss hShort (ih (h.of_cons hMiss) rfl)
    | hit hWhole _ ih =>
        subst hWhole
        rw [List.append_assoc] at h
        exact .hit rfl (ih (h.of_append hNeedle) hTail)
  · intro hStart
    induction hStart with
    | start => exact .start _
    | @miss letter before cut hMiss _ ih =>
        by_cases hHit : needle <+: letter :: (before ++ cut ++ rest)
        · cases h with
          | miss hMiss' => exact absurd hHit hMiss'
          | hit hWhole => exact absurd ⟨_, hWhole.symm⟩ hMiss
        · have hLong := hHit
          rw [List.append_assoc] at hLong
          exact .miss hLong (ih (h.of_cons hHit))
    | hit hWhole _ ih =>
        subst hWhole
        rw [List.append_assoc] at h
        exact .hit rfl (ih (h.of_append hNeedle))

end Replace

end Redaction
