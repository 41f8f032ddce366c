import Tfws.Json.Locality
import Tfws.Json.Printable
import Tfws.Python.EventChain

/-! What one `append_event` does to the log that it has read. -/
namespace Tfws.Python

open Fallible

theorem translateNewlines_append {c : Char} (hFeed : c ≠ '\n') (hReturn : c ≠ '\r')
    (text rest : List Char) (afterReturn : Bool) :
    translateNewlines afterReturn (text ++ c :: rest) =
      translateNewlines afterReturn text ++ c :: translateNewlines false rest := by
  induction text generalizing afterReturn with
  | nil => simp [translateNewlines, hFeed, hReturn]
  | cons first text ih =>
      simp only [List.cons_append, translateNewlines, ih]
      split_ifs <;> rfl

/-- A line without ends of its own is left as it is, and what follows it is translated
by itself. -/
theorem translateNewlines_printable {line : List Char} (h : Json.Printable line)
    (rest : List Char) : translateNewlines false (line ++ rest) =
      line ++ translateNewlines false rest := by
  induction line with
  | nil => rfl
  | cons c line ih =>
      obtain ⟨hFirst, hRest⟩ := List.forall_mem_cons.mp h
      have hFeed : c ≠ '\n' := by
        rintro rfl
        exact absurd hFirst (by decide)
      have hReturn : c ≠ '\r' := by
        rintro rfl
        exact absurd hFirst (by decide)
      simp [translateNewlines, hFeed, hReturn, ih hRest]

/-- A text without line ends is one line, be it empty, and so it is read as one event
or none. -/
theorem fileLines_printable {line : List Char} (h : Json.Printable line) :
    fileLines line = [line] := by
  have hLine := translateNewlines_printable h []
  rw [translateNewlines, List.append_nil] at hLine
  rw [fileLines, hLine, List.splitOn_eq_singleton (h.not_mem (by decide))]

/-- What is written behind a text goes into its last line, and the lines before it are
as they were. -/
theorem exists_lastLine (text : List Char) : ∃ front last, ∀ line, '\n' ∉ line →
    (text ++ line).splitOn '\n' = front ++ [last ++ line] := by
  induction text with
  | nil => exact ⟨[], [], fun line hLine => List.splitOn_eq_singleton hLine⟩
  | cons c text ih =>
      obtain ⟨front, last, h⟩ := ih
      by_cases hFeed : c = '\n'
      · refine ⟨[] :: front, last, fun line hLine => ?_⟩
        rw [List.cons_append, List.splitOn_cons_eq_if_modifyHead, if_pos (by simp [hFeed]),
          h line hLine, List.cons_append]
      · cases front with
        | nil =>
            refine ⟨[], c :: last, fun line hLine => ?_⟩
            rw [List.cons_append, List.splitOn_cons_eq_if_modifyHead, if_neg (by simp [hFeed]),
              h line hLine]
            rfl
        | cons first front =>
            refine ⟨(c :: first) :: front, last, fun line hLine => ?_⟩
            rw [List.cons_append, List.splitOn_cons_eq_if_modifyHead, if_neg (by simp [hFeed]),
              h line hLine]
            rfl

/-- The characters behind the last line end: none, if the last line is complete. -/
def lastLine (text : List Char) : List Char := (fileLines text).getLastD []

/-- A written line is joined to the last line of the text, and ends there. -/
theorem fileLines_append (text : List Char) : ∃ front, fileLines text = front ++ [lastLine text] ∧
    ∀ rest, Json.Printable ('{' :: rest) →
      fileLines (text ++ ('{' :: rest ++ ['\n'])) = front ++ [lastLine text ++ '{' :: rest, []] := by
  obtain ⟨front, last, h⟩ := exists_lastLine (translateNewlines false text)
  have hText : fileLines text = front ++ [last] := by
    have hEmpty := h [] List.not_mem_nil
    rwa [List.append_nil, List.append_nil] at hEmpty
  have hLast : lastLine text = last := by rw [lastLine, hText, List.getLastD_concat]
  refine ⟨front, hLast ▸ hText, fun rest hRest => ?_⟩
  have hLine : translateNewlines false (rest ++ ['\n']) = rest ++ ['\n'] :=
    translateNewlines_printable (List.forall_mem_cons.mp hRest).2 ['\n']
  calc
    fileLines (text ++ ('{' :: rest ++ ['\n'])) =
        (translateNewlines false text ++ '{' :: (rest ++ ['\n'])).splitOn '\n' := by
      rw [fileLines, List.cons_append, translateNewlines_append (by decide) (by decide), hLine]
    _ = ((translateNewlines false text ++ '{' :: rest) ++ '\n' :: []).splitOn '\n' := by simp
    _ = (front ++ [last ++ '{' :: rest]) ++ [[]] := by
      rw [List.splitOn_append_cons_self, h _ (hRest.not_mem (by decide)), List.splitOn_nil]
    _ = front ++ [lastLine text ++ '{' :: rest, []] := by
      rw [hLast, List.append_assoc, List.singleton_append]

/-- The lines of a log are read one after the other; none of them looks at the
others. -/
theorem readLines_append {runtime : EventRuntime} {number : Nat} {front back : List (List Char)}
    {events : List Object} :
    readLines runtime number (front ++ back) = .ok events ↔ ∃ first second,
      readLines runtime number front = .ok first ∧
        readLines runtime (number + front.length) back = .ok second ∧ events = first ++ second := by
  induction front generalizing number events with
  | nil => simp [readLines, eq_comm]
  | cons line front ih =>
      have hNumber : number + (line :: front).length = number + 1 + front.length := by
        rw [List.length_cons]
        omega
      rw [List.cons_append, readLines, readLines, hNumber]
      by_cases hBlank : line.all isSpace = true
      · rw [if_pos hBlank, if_pos hBlank, ih]
      · simp only [if_neg hBlank, bind_eq_ok, ih, Except.ok.injEq]
        constructor
        · intro ⟨event, hEvent, _, ⟨first, second, hFirst, hSecond, rfl⟩, hSame⟩
          exact ⟨event :: first, second, ⟨event, hEvent, first, hFirst, rfl⟩, hSecond, hSame.symm⟩
        · intro ⟨_, second, ⟨event, hEvent, first, hFirst, rfl⟩, hSecond, hSame⟩
          exact ⟨event, hEvent, _, ⟨first, second, hFirst, hSecond, rfl⟩, hSame.symm⟩

section Line

variable {runtime : EventRuntime} {number : Nat} {fields : List (String × Json.Value)}

/-- Entries read from a map have different keys, because the names of a map ascend. -/
theorem distinct_of_readsFields {float : String → UInt64} {entries : List (Key × Object)}
    (h : List.Forall₂ (Object.ReadsField float) fields entries) (hSorted : SortedMap.Sorted fields) :
    entries.Pairwise fun first second => first.1.equal second.1 = false := by
  induction h with
  | nil => exact List.Pairwise.nil
  | @cons field entry fields entries hField hRest ih =>
      obtain ⟨hFirst, hOthers⟩ := List.pairwise_cons.mp hSorted
      refine List.pairwise_cons.mpr ⟨fun other hMem => ?_, ih hOthers⟩
      obtain ⟨second, hSecond, hOther⟩ := Traversal.exists_left hRest hMem
      rw [hOther.name, Bool.eq_false_iff, Ne, Key.equal_str_iff, hField.name, Key.str.injEq]
      exact ne_of_lt (hFirst second hSecond)

/-- Behind spaces, a written object is read as an event that stands for it. -/
theorem loadsLine_write (hNormal : (Json.Value.object fields).Normal)
    (hProfile : Object.InProfile (.object fields)) {spaces : List Char}
    (hSpaces : ∀ c ∈ spaces, Json.isSpace c = true) :
    ∃ event : Event, loadsLine runtime number (spaces ++ (Json.Value.object fields).write) =
      .ok event.object ∧ event.Stands (.object fields) := by
  have hParse := Json.Value.parse_write hProfile.plain hSpaces (List.forall_mem_nil _)
  rw [List.append_nil] at hParse
  cases hNormal with
  | object sorted normal =>
      cases hProfile with
      | object profile =>
          obtain ⟨entries, hEntries⟩ := Object.exists_readsFields fun field hMem =>
            Object.exists_readsAs runtime.float (normal field hMem) (profile field hMem)
          have hReads := Object.readsAs_dict sorted hEntries
          refine ⟨⟨entries, distinct_of_readsFields hEntries sorted⟩, ?_, hReads.json, ?_⟩
          · rw [loadsLine, hParse]
            simp only [hReads.read]
            rfl
          · rw [Event.object, canonicalize, hReads.valid, ok_bind, hReads.json]

/-- A value never starts with white space, of which Python knows more than JSON
does. -/
theorem cannotStart_of_isSpace {c : Char} (h : isSpace c = true) : Json.Value.CannotStart c := by
  simp only [isSpace, Bool.or_eq_true, Bool.and_eq_true, decide_eq_true_eq] at h
  constructor
  · rw [Char.isDigit, Bool.and_eq_false_iff, decide_eq_false_iff_not, decide_eq_false_iff_not,
      ge_iff_le, UInt32.le_iff_toNat_le, UInt32.le_iff_toNat_le]
    change ¬48 ≤ c.toNat ∨ ¬c.toNat ≤ 57
    omega
  · intro hMem
    simp only [List.mem_cons, List.not_mem_nil, or_false] at hMem
    rcases hMem with rfl | rfl | rfl | rfl | rfl | rfl | rfl | rfl | rfl <;> revert h <;> decide

/-- Behind anything else, it is not read: the last line was an event itself, or white
space that is none in JSON. -/
theorem loadsLine_glued {line : List Char} {events : List Object}
    (hRead : readLines runtime number [line] = .ok events)
    (hNot : ¬∀ c ∈ line, Json.isSpace c = true) (rest : List Char) (event : Object) :
    loadsLine runtime number (line ++ '{' :: rest) ≠ .ok event := by
  have hParse : Json.Value.parse (line ++ '{' :: rest) = none := by
    by_cases hBlank : line.all isSpace = true
    · obtain ⟨c, left, hLeft⟩ := List.exists_cons_of_ne_nil
        (mt List.dropWhile_eq_nil_iff.mp hNot : Json.skipSpaces line ≠ [])
      have hMem : c ∈ line := by
        refine (List.dropWhile_suffix Json.isSpace).subset ?_
        rw [← Json.skipSpaces, hLeft]
        exact List.mem_cons_self ..
      have hStart : Json.skipSpaces (line ++ '{' :: rest) = c :: (left ++ '{' :: rest) := by
        rw [Json.skipSpaces_brace, hLeft, List.cons_append]
      exact (cannotStart_of_isSpace (List.all_eq_true.mp hBlank c hMem)).parse_eq hStart
    · rw [readLines, if_neg hBlank] at hRead
      obtain ⟨first, hFirst, -⟩ := bind_eq_ok.mp hRead
      rw [loadsLine] at hFirst
      split at hFirst
      · cases hFirst
      · rename_i value hValue
        exact Json.Value.parse_brace hValue rest
  rw [loadsLine, hParse]
  exact fun h => by cases h

end Line

section Append

variable {runtime : EventRuntime} {file : Option Bytes} {draft : EventDraft} {event : Object}
  {events : List Object} {line after : Bytes}

/-- The hash that an event behind `events` has to hold, where `previous` is the one in
front of them. -/
def tipFrom (runtime : EventRuntime) (previous : Option String) (events : List Object) :
    Result (Option String) :=
  match events.getLast? with
  | none => .ok previous
  | some event => (hashEvent runtime event).map some

/-- One round of the loop: the hash of an event that passes, which the next one has to
hold. -/
def verifyEvent (runtime : EventRuntime) (index : Nat) (previous : Option String) (event : Object) :
    Result String := do
  let sequence ← getField "sequence" event
  failIf (equalsInteger runtime index sequence = false)
    (.validation ("invalid event sequence at " ++ toString index))
  let link ← getField "previous_event_hash" event
  failIf (link.equal (optionalText previous) = false)
    (.validation ("broken event chain at " ++ toString index))
  hashEvent runtime event

theorem verifyFrom_cons_eq {index : Nat} {previous : Option String} {rest : List Object} :
    verifyFrom runtime index previous (event :: rest) = .ok () ↔
      ∃ hash, verifyEvent runtime index previous event = .ok hash ∧
        verifyFrom runtime (index + 1) (some hash) rest = .ok () := by
  rw [← bind_eq_ok, verifyFrom, verifyEvent]
  simp only [bind_assoc]

theorem tipFrom_cons {index : Nat} {previous : Option String} {hash : String} {rest : List Object}
    (h : verifyEvent runtime index previous event = .ok hash) :
    tipFrom runtime previous (event :: rest) = tipFrom runtime (some hash) rest := by
  obtain ⟨_, -, h⟩ := bind_eq_ok.mp h
  obtain ⟨-, h⟩ := then_eq_ok.mp h
  obtain ⟨_, -, h⟩ := bind_eq_ok.mp h
  obtain ⟨-, hHash⟩ := then_eq_ok.mp h
  cases rest with
  | nil =>
      have hTip : (hashEvent runtime event).map some = .ok (some hash) := by
        rw [hHash]
        rfl
      exact hTip
  | cons next rest => rw [tipFrom, tipFrom, List.getLast?_cons_cons]; rfl

/-- A chain is accepted exactly if its front is, and the rest continues it from
there. -/
theorem verifyFrom_append {index : Nat} {previous : Option String} {front back : List Object} :
    verifyFrom runtime index previous (front ++ back) = .ok () ↔
      verifyFrom runtime index previous front = .ok () ∧
        ∃ tip, tipFrom runtime previous front = .ok tip ∧
          verifyFrom runtime (index + front.length) tip back = .ok () := by
  induction front generalizing index previous with
  | nil => simp [verifyFrom, tipFrom]
  | cons event front ih =>
      have hIndex : index + (event :: front).length = index + 1 + front.length := by
        rw [List.length_cons]
        omega
      rw [List.cons_append, verifyFrom_cons_eq, verifyFrom_cons_eq, hIndex]
      constructor
      · intro h
        obtain ⟨hash, hOne, hRest⟩ := h
        obtain ⟨hFront, hBack⟩ := ih.mp hRest
        exact ⟨⟨hash, hOne, hFront⟩, tipFrom_cons hOne ▸ hBack⟩
      · intro h
        obtain ⟨⟨hash, hOne, hFront⟩, hBack⟩ := h
        exact ⟨hash, hOne, ih.mpr ⟨hFront, tipFrom_cons hOne ▸ hBack⟩⟩

/-- The log reads as before with the event at its end, it is accepted, and not
an octet of it has changed. -/
structure Extends (runtime : EventRuntime) (file : Option Bytes) (events : List Object)
    (event : Object) (after : Bytes) : Prop where
  reads : ∃ last, readEvents runtime after = .ok (events ++ [last]) ∧ SameValue last event ∧
    verifyChain runtime (events ++ [last]) = .ok ()
  kept : file.getD [] <+: after

/-- Behind the last line end of the file stand spaces and tabs at most. -/
def EndsInSpaces (file : Bytes) : Prop :=
  ∀ text, Utf8.decode file = some text → ∀ c ∈ lastLine text.toList, Json.isSpace c = true

theorem endsInSpaces_nil : EndsInSpaces [] := by
  intro text hText
  obtain rfl : "" = text := Option.some.inj hText
  have hLine : lastLine "".toList = [] := by decide
  rw [hLine]
  exact List.forall_mem_nil _

/-- What a call writes: the line of an event that continues the log. -/
theorem prepareEvent_eq_ok (h : prepareEvent runtime file draft = .ok (event, line)) :
    ∃ events previous fields, eventsOf runtime file = .ok events ∧
      verifyChain runtime events = .ok () ∧ lastHash runtime events = .ok previous ∧
      event = (draft.asEvent runtime events.length previous).object ∧
      (draft.asEvent runtime events.length previous).Stands (.object fields) ∧
      line = jsonText (.object fields) ++ [0x0A] := by
  obtain ⟨events, hEvents, h⟩ := bind_eq_ok.mp h
  obtain ⟨hChain, h⟩ := then_eq_ok.mp h
  obtain ⟨previous, hPrevious, h⟩ := bind_eq_ok.mp h
  obtain ⟨text, hText, h⟩ := bind_eq_ok.mp h
  obtain ⟨rfl, rfl⟩ := Prod.mk.inj (Except.ok.inj h)
  obtain ⟨value, hStands⟩ := (draft.asEvent runtime events.length previous).exists_stands hText
  obtain ⟨fields, rfl, -⟩ := Object.json_dict.mp hStands.json
  refine ⟨events, previous, _, hEvents, hChain, hPrevious, rfl, hStands, ?_⟩
  rw [Except.ok.inj (hText.symm.trans hStands.text)]

/-- A call whose event has a canonical text goes through, as far as reading and
checking go. -/
theorem prepareEvent_of_stands {previous : Option String} {value : Json.Value}
    (hEvents : eventsOf runtime file = .ok events) (hChain : verifyChain runtime events = .ok ())
    (hPrevious : lastHash runtime events = .ok previous)
    (h : (draft.asEvent runtime events.length previous).Stands value) :
    prepareEvent runtime file draft =
      .ok (draft.event runtime events.length previous, jsonText value ++ [0x0A]) := by
  have hText : canonicalize (draft.event runtime events.length previous) = .ok (jsonText value) :=
    h.text
  rw [prepareEvent]
  simp only [hEvents, hChain, hPrevious, hText, ok_bind]

theorem eventsOf_eq_readEvents : eventsOf runtime file = readEvents runtime (file.getD []) := by
  cases file with
  | none => rfl
  | some _ => rfl

theorem readEvents_eq_ok {octets : Bytes} (h : readEvents runtime octets = .ok events) :
    ∃ text, Utf8.decode octets = some text ∧
      readLines runtime 1 (fileLines text.toList) = .ok events := by
  rw [readEvents] at h
  split at h
  · exact ⟨_, ‹_›, h⟩
  · cases h

/-- The text of the file once a line has been written: the old text, the written
value, and the line end. -/
theorem decode_append {octets : Bytes} {text : String} (h : Utf8.decode octets = some text)
    (value : Json.Value) : Utf8.decode (octets ++ (jsonText value ++ [0x0A])) =
      some (String.ofList (text.toList ++ (value.write ++ ['\n']))) := by
  obtain rfl := Utf8.decode_eq_some.mp h
  have hFeed : [0x0A] = ['\n'].flatMap String.utf8EncodeChar := by decide
  rw [Utf8.decode_eq_some, jsonText, hFeed]
  simp only [Utf8.encode, String.toList_ofList, List.flatMap_append]

/-- The lines of a file to which a line has been written. If the old text ends in a
line end, its lines are the same. -/
theorem readEvents_append {octets : Bytes} {text : String} (h : Utf8.decode octets = some text)
    (value : Json.Value) : readEvents runtime (octets ++ (jsonText value ++ [0x0A])) =
      readLines runtime 1 (fileLines (text.toList ++ (value.write ++ ['\n']))) := by
  rw [readEvents, decode_append h]
  simp only [String.toList_ofList]

/-- A last line of spaces holds no event, so that a line end at the end of a file adds
nothing. -/
theorem readLines_spaces {number : Nat} {last : List Char}
    (h : ∀ c ∈ last, Json.isSpace c = true) : readLines runtime number [last] = .ok [] := by
  have hBlank : last.all isSpace = true := by
    refine List.all_eq_true.mpr fun c hMem => ?_
    have hSpace := h c hMem
    simp only [Json.isSpace, Bool.or_eq_true, decide_eq_true_eq] at hSpace
    obtain ((rfl | rfl) | rfl) | rfl := hSpace <;> decide
  rw [readLines, if_pos hBlank, readLines]

theorem not_blank {line : List Char} (h : '{' ∈ line) : ¬line.all isSpace = true := by
  intro hBlank
  exact absurd (List.all_eq_true.mp hBlank '{' h) (by decide)

/-- A written line holds one event, together with what stood in front of it on the
line. -/
theorem readLines_written {number : Nat} {last rest : List Char} :
    readLines runtime number [last ++ '{' :: rest, []] = .ok events ↔
      ∃ event, loadsLine runtime number (last ++ '{' :: rest) = .ok event ∧ events = [event] := by
  have hBlank : ¬(last ++ '{' :: rest).all isSpace = true := not_blank (by simp)
  have hEnd : readLines runtime (number + 1) [[]] = .ok [] := rfl
  rw [readLines, if_neg hBlank, hEnd]
  simp only [bind_eq_ok, Except.ok.injEq]
  constructor
  · intro ⟨event, hEvent, _, rfl, hSame⟩
    exact ⟨event, hEvent, hSame.symm⟩
  · intro ⟨event, hEvent, hSame⟩
    exact ⟨event, hEvent, [], rfl, hSame.symm⟩

/-- The file after a line has been written behind spaces: the log goes on with an
event that stands for the value. -/
theorem readEvents_closed {octets : Bytes} {fields : List (String × Json.Value)}
    (hRead : readEvents runtime octets = .ok events) (hSpaces : EndsInSpaces octets)
    (hNormal : (Json.Value.object fields).Normal)
    (hProfile : Object.InProfile (.object fields)) :
    ∃ last : Event, readEvents runtime (octets ++ (jsonText (.object fields) ++ [0x0A])) =
      .ok (events ++ [last.object]) ∧ last.Stands (.object fields) := by
  obtain ⟨text, hText, hLines⟩ := readEvents_eq_ok hRead
  obtain ⟨rest, hWrite⟩ := write_object_eq fields
  obtain ⟨front, hFront, hAfter⟩ := fileLines_append text.toList
  rw [hFront, readLines_append] at hLines
  obtain ⟨first, second, hFirst, hSecond, rfl⟩ := hLines
  have hLast := hSpaces text hText
  obtain rfl := Except.ok.inj (hSecond.symm.trans (readLines_spaces hLast))
  obtain ⟨last, hLoads, hStands⟩ := loadsLine_write hNormal hProfile hLast
  refine ⟨last, ?_, hStands⟩
  rw [readEvents_append hText, hWrite, hAfter rest (hWrite ▸ hProfile.plain.printable)]
  exact readLines_append.mpr ⟨first, [last.object], hFirst,
    readLines_written.mpr ⟨_, hWrite ▸ hLoads, rfl⟩, by rw [List.append_nil]⟩

/-- After a line has been written behind anything else, nothing is read: the joined
line is no JSON value. -/
theorem readEvents_glued {octets : Bytes} {fields : List (String × Json.Value)}
    (hRead : readEvents runtime octets = .ok events) (hSpaces : ¬EndsInSpaces octets)
    (hProfile : Object.InProfile (.object fields)) (read : List Object) :
    readEvents runtime (octets ++ (jsonText (.object fields) ++ [0x0A])) ≠ .ok read := by
  obtain ⟨text, hText, hLines⟩ := readEvents_eq_ok hRead
  obtain ⟨rest, hWrite⟩ := write_object_eq fields
  obtain ⟨front, hFront, hAfter⟩ := fileLines_append text.toList
  rw [hFront, readLines_append] at hLines
  obtain ⟨first, second, hFirst, hSecond, rfl⟩ := hLines
  have hLast : ¬∀ c ∈ lastLine text.toList, Json.isSpace c = true := fun h =>
    hSpaces fun other hOther => Option.some.inj (hText.symm.trans hOther) ▸ h
  intro hAll
  rw [readEvents_append hText, hWrite, hAfter rest (hWrite ▸ hProfile.plain.printable)] at hAll
  obtain ⟨_, _, _, hWritten, -⟩ := readLines_append.mp hAll
  obtain ⟨event, hEvent, -⟩ := readLines_written.mp hWritten
  exact loadsLine_glued hSecond hLast rest event hEvent

/-- A call prepares its line from what it has read, and then writes it at the end. -/
theorem appendEvent_eq_ok : appendEvent runtime file draft = .ok (event, after) ↔
    ∃ line, prepareEvent runtime file draft = .ok (event, line) ∧ after = appendLine file line := by
  rw [appendEvent, bind_eq_ok]
  constructor
  · intro ⟨⟨_, line⟩, hPrepare, hSame⟩
    obtain ⟨rfl, rfl⟩ := Prod.mk.inj (Except.ok.inj hSame)
    exact ⟨line, hPrepare, rfl⟩
  · intro ⟨line, hPrepare, hSame⟩
    exact ⟨(event, line), hPrepare, by rw [hSame]⟩

/-- An accepted log goes on with the event that the call wrote: its place and its link
are the next ones. -/
theorem verifyChain_concat {last : Event} {previous : Option String} {value : Json.Value}
    (hChain : verifyChain runtime events = .ok ()) (hPrevious : lastHash runtime events = .ok previous)
    (hEvent : (draft.asEvent runtime events.length previous).Stands value)
    (hLast : last.Stands value) :
    verifyChain runtime (events ++ [last.object]) = .ok () := by
  obtain ⟨hPosition, hLink⟩ := EventDraft.linked_asEvent hEvent runtime
  rw [verifyChain, verifyFrom_append]
  refine ⟨hChain, previous, hPrevious, (verifyFrom_cons hLast).mpr ⟨?_, hLink, rfl⟩⟩
  rw [Nat.zero_add]
  exact hPosition

/-- Behind a complete line, an append extends the log: the old octets are kept, and
one event is read behind the old ones. -/
theorem appendEvent_extends (hRead : eventsOf runtime file = .ok events)
    (hPrepare : prepareEvent runtime file draft = .ok (event, line))
    (hSpaces : EndsInSpaces (file.getD [])) :
    Extends runtime file events event (appendLine file line) := by
  obtain ⟨read, previous, fields, hEvents, hChain, hPrevious, rfl, hStands, rfl⟩ :=
    prepareEvent_eq_ok hPrepare
  obtain rfl := Except.ok.inj (hEvents.symm.trans hRead)
  rw [eventsOf_eq_readEvents] at hEvents
  obtain ⟨last, hAfter, hLast⟩ :=
    readEvents_closed hEvents hSpaces (Object.json_normal hStands.json) hStands.inProfile
  exact ⟨⟨last.object, hAfter, ⟨_, hLast.json, hStands.json⟩,
    verifyChain_concat hChain hPrevious hStands hLast⟩, List.prefix_append _ _⟩

/-- The written line is complete, so that the next append finds the log as it needs
it. -/
theorem endsInSpaces_appendLine
    (hPrepare : prepareEvent runtime file draft = .ok (event, line)) :
    EndsInSpaces (appendLine file line) := by
  obtain ⟨read, previous, fields, hEvents, -, -, rfl, hStands, rfl⟩ := prepareEvent_eq_ok hPrepare
  rw [eventsOf_eq_readEvents] at hEvents
  obtain ⟨text, hText, -⟩ := readEvents_eq_ok hEvents
  obtain ⟨rest, hWrite⟩ := write_object_eq fields
  obtain ⟨front, -, hAfter⟩ := fileLines_append text.toList
  intro after hDecoded
  obtain rfl := Option.some.inj ((decode_append hText _).symm.trans hDecoded)
  rw [String.toList_ofList, lastLine, hWrite, hAfter rest (hWrite ▸ hStands.inProfile.plain.printable),
    List.getLastD_eq_getLast?]
  simp

/-- Whatever log a call has read and accepted, its successful append extends the log
exactly when the file ends in a complete line. Otherwise the file cannot be read
afterwards. -/
theorem appendEvent_extends_iff (runtime : EventRuntime) (file : Option Bytes)
    (draft : EventDraft) (events : List Object) (event : Object) (after : Bytes)
    (hRead : eventsOf runtime file = .ok events)
    (hAppend : appendEvent runtime file draft = .ok (event, after)) :
    Extends runtime file events event after ↔ EndsInSpaces (file.getD []) := by
  obtain ⟨line, hPrepare, rfl⟩ := appendEvent_eq_ok.mp hAppend
  constructor
  · intro hExtends
    obtain ⟨last, hAfter, -⟩ := hExtends.reads
    obtain ⟨read, previous, fields, -, -, -, rfl, hStands, rfl⟩ := prepareEvent_eq_ok hPrepare
    rw [eventsOf_eq_readEvents] at hRead
    by_contra hSpaces
    exact readEvents_glued hRead hSpaces hStands.inProfile _ hAfter
  · exact appendEvent_extends hRead hPrepare

end Append

/-- The file of the first event, with its line end, as the first append leaves it. -/
def registeredFile : Bytes := (EventDraft.registered.asEvent .sample 0 none).text ++ [0x0A]

theorem prepareEvent_registered : prepareEvent .sample none .registered =
    .ok (EventDraft.registered.event .sample 0 none, registeredFile) := by
  obtain ⟨value, hStands⟩ := EventDraft.registered_stands .sample none
  rw [registeredFile, hStands.text_eq]
  exact @prepareEvent_of_stands .sample none .registered [] none value rfl rfl rfl hStands

theorem endsInSpaces_registeredFile : EndsInSpaces registeredFile := by
  have hSpaces := endsInSpaces_appendLine prepareEvent_registered
  rwa [appendLine_none] at hSpaces

/-- The second event is prepared behind the first one, whose line is complete. -/
theorem prepareEvent_rotated : ∃ events event line, events.length = 1 ∧
    eventsOf .sample (some registeredFile) = .ok events ∧
    prepareEvent .sample (some registeredFile) .rotated = .ok (event, line) := by
  obtain ⟨value, hStands⟩ := EventDraft.registered_stands .sample none
  obtain ⟨hPosition, hLink⟩ := EventDraft.linked_asEvent hStands .sample
  obtain ⟨fields, rfl, -⟩ := Object.json_dict.mp hStands.json
  obtain ⟨event, hReads, hEvent⟩ := @readEvents_closed .sample [] [] _ rfl endsInSpaces_nil
    (Object.json_normal hStands.json) hStands.inProfile
  have hEvents : eventsOf .sample (some registeredFile) = .ok [event.object] := by
    rw [registeredFile, hStands.text_eq]
    exact hReads
  have hChain : verifyChain .sample [event.object] = .ok () :=
    (verifyFrom_cons hEvent).mpr ⟨hPosition, hLink, rfl⟩
  have hPrevious : lastHash .sample [event.object] = .ok (some ((eventChain .sample).hash _)) :=
    congrArg (Except.map some) hEvent.hashEvent_eq
  obtain ⟨next, hNext⟩ := EventDraft.rotated_stands .sample 1 (Or.inr rfl)
    (some ((eventChain .sample).hash _))
  exact ⟨_, _, _, rfl, hEvents, prepareEvent_of_stands hEvents hChain hPrevious hNext⟩

/-- The second event of a log, appended behind the first, which is kept. -/
theorem appendEvent_extends_sample : ∃ events event after, events.length = 1 ∧
    appendEvent .sample (some registeredFile) .rotated = .ok (event, after) ∧
      Extends .sample (some registeredFile) events event after := by
  obtain ⟨events, event, line, hLength, hEvents, hPrepare⟩ := prepareEvent_rotated
  have hAppend := appendEvent_eq_ok.mpr ⟨line, hPrepare, rfl⟩
  refine ⟨events, event, _, hLength, hAppend, ?_⟩
  apply (appendEvent_extends_iff .sample (some registeredFile) .rotated events event _ hEvents
    hAppend).mpr
  rw [Option.getD_some]
  exact endsInSpaces_registeredFile

section Unended

variable {runtime : EventRuntime} {fields : List (String × Json.Value)}

/-- A file of one event without a line end is read: the last line needs none. -/
theorem readEvents_line (hNormal : (Json.Value.object fields).Normal)
    (hProfile : Object.InProfile (.object fields)) :
    ∃ event : Event, readEvents runtime (jsonText (.object fields)) = .ok [event.object] ∧
      event.Stands (.object fields) := by
  obtain ⟨rest, hWrite⟩ := write_object_eq fields
  obtain ⟨event, hLoads, hStands⟩ :=
    @loadsLine_write runtime 1 fields hNormal hProfile [] (List.forall_mem_nil _)
  have hBlank : ¬(Json.Value.object fields).write.all isSpace = true := not_blank (by simp [hWrite])
  rw [List.nil_append] at hLoads
  refine ⟨event, ?_, hStands⟩
  rw [readEvents, jsonText, Utf8.decode_encode]
  simp only [String.toList_ofList, fileLines_printable hProfile.plain.printable, readLines,
    if_neg hBlank, hLoads, ok_bind]

/-- Its last line is the event, and so it is not complete: what is written next goes
into the same line. -/
theorem not_endsInSpaces_line (hProfile : Object.InProfile (.object fields)) :
    ¬EndsInSpaces (jsonText (.object fields)) := by
  obtain ⟨rest, hWrite⟩ := write_object_eq fields
  intro h
  have hAll := h _ (Utf8.decode_encode _)
  rw [String.toList_ofList, lastLine, fileLines_printable hProfile.plain.printable, hWrite] at hAll
  exact absurd (hAll '{' (List.mem_cons_self ..)) (by decide)

end Unended

/-- A log of one event whose line end is missing is accepted, and a second event that
is appended to it makes it unreadable. -/
theorem appendEvent_extends_unended : ∃ events event after,
    eventsOf .sample (some Event.registered.text) = .ok events ∧
    verifyChain .sample events = .ok () ∧
    appendEvent .sample (some Event.registered.text) .rotated = .ok (event, after) ∧
    ¬Extends .sample (some Event.registered.text) events event after := by
  obtain ⟨value, hStands, hPosition, hLink⟩ := Event.registered_stands .sample
  obtain ⟨fields, rfl, -⟩ := Object.json_dict.mp hStands.json
  rw [hStands.text_eq]
  obtain ⟨event, hRead, hEvent⟩ :=
    @readEvents_line .sample _ (Object.json_normal hStands.json) hStands.inProfile
  have hChain : verifyChain .sample [event.object] = .ok () :=
    (verifyFrom_cons hEvent).mpr ⟨hPosition, hLink, rfl⟩
  have hPrevious : lastHash .sample [event.object] = .ok (some ((eventChain .sample).hash _)) :=
    congrArg (Except.map some) hEvent.hashEvent_eq
  obtain ⟨next, hNext⟩ := EventDraft.rotated_stands .sample 1 (Or.inr rfl)
    (some ((eventChain .sample).hash _))
  have hEvents : eventsOf .sample (some (jsonText _)) = .ok [event.object] := hRead
  have hPrepare := prepareEvent_of_stands hEvents hChain hPrevious hNext
  refine ⟨_, _, _, hEvents, hChain, appendEvent_eq_ok.mpr ⟨_, hPrepare, rfl⟩, ?_⟩
  intro hExtends
  obtain ⟨last, hAfter, -⟩ := hExtends.reads
  obtain ⟨written, rfl, -⟩ := Object.json_dict.mp hNext.json
  exact readEvents_glued hRead (not_endsInSpaces_line hStands.inProfile) hNext.inProfile _ hAfter

end Tfws.Python
