import Tfws.Data.Merkle
import Tfws.Python.TamperEvidence

/-! The Merkle root of an event log binds the log: equal roots over as many
events, or over logs that are accepted, have the same events. -/
namespace Tfws.Python

open Fallible

/-- `b"TFWS3-MERKLE-NODE\x00"`, in front of which no text of an event can stand: such
a text opens with a brace. -/
def merkleNodeTag : Bytes := Utf8.encode "TFWS3-MERKLE-NODE" ++ [0x00]

/-- What is hashed for a node: the tag and the two children, with no lengths between
them. -/
def merkleMessage (children : Bytes × Bytes) : Bytes := merkleNodeTag ++ children.1 ++ children.2

/-- The digest over two nodes, under a tag that no leaf begins with. -/
def merkleNode (runtime : EventRuntime) (children : Bytes × Bytes) : Bytes :=
  runtime.sha256 (merkleMessage children)

/-- `bytes.fromhex(hash_event(event))`, the leaf of an event: the digest itself, not
its digits. -/
def merkleLeaf (runtime : EventRuntime) (event : Object) : Result Bytes := do
  let hash ← hashEvent runtime event
  fromHex hash

/-- The node that is left of the leaves. There is none only if there are no
leaves, and the digest of nothing then stands for it. -/
def merkleTop (runtime : EventRuntime) (leaves : List Bytes) : Bytes :=
  (Merkle.root (merkleNode runtime) leaves).getD (runtime.sha256 [])

/-- `merkle_root`, in hexadecimal digits. The order of the events counts. -/
def merkleRoot (runtime : EventRuntime) (events : List Object) : Result String := do
  let leaves ← events.mapM (merkleLeaf runtime)
  .ok (hexdigest (merkleTop runtime leaves))

/-- The messages that are hashed for a root, given the texts of the events. -/
def hashedMessages (runtime : EventRuntime) (texts : List Bytes) : List Bytes :=
  if texts = [] then [[]]
  else texts ++
    (Merkle.hashedPairs (merkleNode runtime) (texts.map runtime.sha256)).map merkleMessage

/-- The messages that `merkle_root` hashes: the texts of the events, the nodes, and
nothing where there are no events. -/
def merkleMessages (runtime : EventRuntime) (events : List Object) : List Bytes :=
  hashedMessages runtime (events.filterMap fun event => (canonicalize event).toOption)

section Leaves

variable {runtime : EventRuntime} {event : Event} {events : List Event}

/-- The leaf of an event is the digest of its canonical text; it exists exactly where
the text does. -/
theorem merkleLeaf_eq_ok {leaf : Bytes} : merkleLeaf runtime event.object = .ok leaf ↔
    ∃ text, canonicalize event.object = .ok text ∧ leaf = runtime.sha256 text := by
  rw [merkleLeaf, hashEvent]
  cases canonicalize event.object with
  | error exception => simp
  | ok text => simp [eq_comm]

/-- The leaves of events are the digests of their texts, in the order of the log. -/
theorem leaves_eq_ok {leaves : List Bytes}
    (h : (events.map Event.object).mapM (merkleLeaf runtime) = .ok leaves) :
    ∃ values, List.Forall₂ Event.Stands events values ∧
      leaves = (values.map jsonText).map runtime.sha256 := by
  induction events generalizing leaves with
  | nil =>
      obtain rfl := Except.ok.inj h
      exact ⟨[], .nil, rfl⟩
  | cons event rest ih =>
      rw [List.map_cons, List.mapM_cons] at h
      obtain ⟨leaf, hLeaf, h⟩ := bind_eq_ok.mp h
      obtain ⟨others, hOthers, h⟩ := bind_eq_ok.mp h
      obtain rfl := Except.ok.inj h
      obtain ⟨text, hText, rfl⟩ := merkleLeaf_eq_ok.mp hLeaf
      obtain ⟨value, hStands⟩ := Event.exists_stands hText
      obtain ⟨values, hValues, rfl⟩ := ih hOthers
      obtain rfl := Except.ok.inj (hStands.text.symm.trans hText)
      exact ⟨value :: values, .cons hStands hValues, rfl⟩

theorem texts_eq {values : List Json.Value} (h : List.Forall₂ Event.Stands events values) :
    ((events.map Event.object).filterMap fun event => (canonicalize event).toOption) =
      values.map jsonText := by
  induction h with
  | nil => rfl
  | cons hStands _ ih =>
      rw [List.map_cons, List.filterMap_cons, hStands.text, ih]
      rfl

/-- Events with texts have a root, also if there are none: the empty log has the
digest of nothing. -/
theorem merkleRoot_of_stands {values : List Json.Value}
    (h : List.Forall₂ Event.Stands events values) :
    merkleRoot runtime (events.map Event.object) =
      .ok (hexdigest (merkleTop runtime ((values.map jsonText).map runtime.sha256))) := by
  have hLeaves : (events.map Event.object).mapM (merkleLeaf runtime) =
      .ok ((values.map jsonText).map runtime.sha256) := by
    induction h with
    | nil => rfl
    | cons hStands _ ih =>
        rw [List.map_cons, List.mapM_cons, merkleLeaf_eq_ok.mpr ⟨_, hStands.text, rfl⟩, ih]
        rfl
  rw [merkleRoot, hLeaves]
  rfl

/-- A root is that of the texts of the events, and no event is without one. -/
theorem merkleRoot_eq_ok {root : String}
    (h : merkleRoot runtime (events.map Event.object) = .ok root) :
    ∃ values, List.Forall₂ Event.Stands events values ∧
      merkleMessages runtime (events.map Event.object) =
        hashedMessages runtime (values.map jsonText) ∧
      root = hexdigest (merkleTop runtime ((values.map jsonText).map runtime.sha256)) := by
  obtain ⟨leaves, hLeaves, hRoot⟩ := bind_eq_ok.mp h
  obtain ⟨values, hValues, rfl⟩ := leaves_eq_ok hLeaves
  refine ⟨values, hValues, ?_, (Except.ok.inj hRoot).symm⟩
  rw [merkleMessages, texts_eq hValues]

end Leaves

section Messages

variable {runtime : EventRuntime} {texts others : List Bytes} {messages : Set Bytes}

/-- A text that opens with a brace, as that of an object does. -/
def Braced (text : Bytes) : Prop := ∃ rest, text = 0x7B :: rest

/-- The message of a node is no text of an event, which opens with a brace. -/
theorem merkleMessage_ne_braced {children : Bytes × Bytes} {text : Bytes} (h : Braced text) :
    merkleMessage children ≠ text := by
  obtain ⟨rest, rfl⟩ := h
  intro hSame
  cases congrArg List.head? hSame

/-- Nodes as long as digests are told from their message, for the border between them
is known. -/
theorem merkleMessage_injective {first second : Bytes × Bytes} {length : Nat}
    (hFirst : first.1.length = length) (hSecond : second.1.length = length)
    (h : merkleMessage first = merkleMessage second) : first = second := by
  rw [merkleMessage, merkleMessage, List.append_assoc, List.append_assoc] at h
  obtain ⟨hLeft, hRight⟩ :=
    List.append_inj (List.append_cancel_left h) (hFirst.trans hSecond.symm)
  exact Prod.ext hLeft hRight

theorem mem_of_text (h : ∀ message ∈ hashedMessages runtime texts, message ∈ messages) :
    ∀ text ∈ texts, text ∈ messages := by
  intro text hText
  refine h text ?_
  rw [hashedMessages, if_neg (List.ne_nil_of_mem hText)]
  exact List.mem_append_left _ hText

theorem mem_of_pair (h : ∀ message ∈ hashedMessages runtime texts, message ∈ messages) :
    ∀ pair ∈ Merkle.hashedPairs (merkleNode runtime) (texts.map runtime.sha256),
      merkleMessage pair ∈ messages := by
  intro pair hPair
  cases texts with
  | nil => cases hPair
  | cons text rest =>
      refine h _ ?_
      rw [hashedMessages, if_neg (List.cons_ne_nil _ _)]
      exact List.mem_append_right _ (List.mem_map_of_mem hPair)

variable (hInjective : Set.InjOn runtime.sha256 messages)
include hInjective

/-- The digest of nothing is not the top of a tree, because nothing that is hashed for
a tree is empty. -/
theorem eq_nil_of_merkleTop (hTexts : ∀ message ∈ hashedMessages runtime texts, message ∈ messages)
    (hEmpty : [] ∈ messages) (hBraced : ∀ text ∈ texts, Braced text)
    (hTop : merkleTop runtime (texts.map runtime.sha256) = runtime.sha256 []) : texts = [] := by
  by_contra hSome
  have hLeaves : texts.map runtime.sha256 ≠ [] := by simpa using hSome
  obtain ⟨top, hRoot⟩ := @Merkle.exists_root _ _ (merkleNode runtime) hLeaves
  rw [merkleTop, hRoot, Option.getD_some] at hTop
  obtain hLeaf | ⟨pair, hPair, hNode⟩ := Merkle.root_mem hRoot
  · obtain ⟨text, hText, hDigest⟩ := List.mem_map.mp hLeaf
    have hNil := hInjective (mem_of_text hTexts text hText) hEmpty (hDigest.trans hTop)
    obtain ⟨rest, hRest⟩ := hBraced text hText
    cases hNil.symm.trans hRest
  · have hNil := hInjective (mem_of_pair hTexts pair hPair) hEmpty (hNode.trans hTop)
    cases congrArg List.head? hNil

/-- The nodes over texts do not collide, if the messages do not. This is what the
general result on trees asks for. -/
theorem merkleNode_injOn :
    Set.InjOn (merkleNode runtime) {pair | pair.1.length = 32 ∧ merkleMessage pair ∈ messages} :=
  fun _ hFirst _ hSecond hSame => merkleMessage_injective hFirst.1 hSecond.1
    (hInjective hFirst.2 hSecond.2 hSame)

omit hInjective in
theorem pairs_mem (hLength : ∀ message, (runtime.sha256 message).length = 32)
    (hTexts : ∀ message ∈ hashedMessages runtime texts, message ∈ messages) :
    ∀ pair ∈ Merkle.hashedPairs (merkleNode runtime) (texts.map runtime.sha256),
      pair ∈ {pair : Bytes × Bytes | pair.1.length = 32 ∧ merkleMessage pair ∈ messages} := by
  intro pair hPair
  have hChildren := @Merkle.forall_mem_hashed _ _ _ (fun node => node.length = 32)
    (fun pair => hLength (merkleMessage pair)) _
    (List.forall_mem_map.mpr fun text _ => hLength text) pair hPair
  exact ⟨hChildren.1, mem_of_pair hTexts pair hPair⟩

theorem nodup_leaves (hTexts : ∀ text ∈ texts, text ∈ messages) (h : texts.Nodup) :
    (texts.map runtime.sha256).Nodup :=
  h.map_on fun first hFirst second hSecond => hInjective (hTexts first hFirst) (hTexts second hSecond)

/-- A leaf is not a node, for their messages differ in the first octet. -/
theorem leaf_ne_node (hTexts : ∀ text ∈ texts, text ∈ messages)
    (hBraced : ∀ text ∈ texts, Braced text) :
    ∀ leaf ∈ texts.map runtime.sha256,
      ∀ pair ∈ {pair : Bytes × Bytes | pair.1.length = 32 ∧ merkleMessage pair ∈ messages},
        merkleNode runtime pair ≠ leaf := by
  intro leaf hLeaf pair hPair hSame
  obtain ⟨text, hText, rfl⟩ := List.mem_map.mp hLeaf
  exact merkleMessage_ne_braced (hBraced text hText)
    (hInjective hPair.2 (hTexts text hText) hSame)

/-- Texts with the same top are the same, if they are as many, or different ones. A
repeated last text could otherwise go unnoticed. -/
theorem texts_eq_of_merkleTop (hLength : ∀ message, (runtime.sha256 message).length = 32)
    (hTexts : ∀ message ∈ hashedMessages runtime texts, message ∈ messages)
    (hOthers : ∀ message ∈ hashedMessages runtime others, message ∈ messages)
    (hBraced : ∀ text ∈ texts, Braced text) (hOtherBraced : ∀ text ∈ others, Braced text)
    (hKind : Merkle.Alike texts others)
    (hTop : merkleTop runtime (texts.map runtime.sha256) =
      merkleTop runtime (others.map runtime.sha256)) : texts = others := by
  cases texts with
  | nil =>
      exact (eq_nil_of_merkleTop hInjective hOthers (hTexts [] (List.mem_singleton_self _))
        hOtherBraced hTop.symm).symm
  | cons text rest =>
      cases others with
      | nil =>
          exact eq_nil_of_merkleTop hInjective hTexts (hOthers [] (List.mem_singleton_self _))
            hBraced hTop
      | cons other others =>
          have hNode := merkleNode_injOn hInjective
          have hPairs := pairs_mem hLength hTexts
          have hOtherPairs := pairs_mem hLength hOthers
          have hTexts := mem_of_text hTexts
          have hOthers := mem_of_text hOthers
          obtain ⟨top, hRoot⟩ := @Merkle.exists_root _ _ (merkleNode runtime)
            (List.cons_ne_nil (runtime.sha256 text) (rest.map runtime.sha256))
          obtain ⟨peak, hPeak⟩ := @Merkle.exists_root _ _ (merkleNode runtime)
            (List.cons_ne_nil (runtime.sha256 other) (others.map runtime.sha256))
          rw [List.map_cons, List.map_cons, merkleTop, merkleTop, hRoot, hPeak] at hTop
          obtain rfl : top = peak := hTop
          refine Traversal.eq_of_map hInjective hTexts hOthers ?_
          cases hKind with
          | inl hMany =>
              exact Merkle.eq_of_root_of_length hNode (by simpa using hMany) hPairs hOtherPairs
                hRoot hPeak
          | inr hNodup =>
              exact Merkle.eq_of_root_of_nodup hNode (nodup_leaves hInjective hTexts hNodup.1)
                (nodup_leaves hInjective hOthers hNodup.2) hPairs hOtherPairs
                (leaf_ne_node hInjective hTexts hBraced)
                (leaf_ne_node hInjective hOthers hOtherBraced) hRoot hPeak

end Messages

theorem texts_braced {events : List Event} {values : List Json.Value}
    (h : List.Forall₂ Event.Stands events values) : ∀ text ∈ values.map jsonText, Braced text := by
  refine List.forall_mem_map.mpr fun value hValue => ?_
  obtain ⟨event, -, hStands⟩ := Traversal.exists_left h hValue
  exact hStands.text_eq_cons

theorem plain_of_stands {events : List Event} {values : List Json.Value}
    (h : List.Forall₂ Event.Stands events values) : ∀ value ∈ values, value.Plain := by
  intro value hValue
  obtain ⟨event, -, hStands⟩ := Traversal.exists_left h hValue
  exact hStands.inProfile.plain

theorem jsonText_injOn : Set.InjOn jsonText {value | value.Plain} :=
  fun _ hFirst _ hSecond hSame => jsonText_injective hFirst hSecond hSame

/-- The texts of an accepted log are different, since every event names its place. So
logs of different lengths have different roots. -/
theorem texts_nodup {runtime : EventRuntime} {events : List Event} {values : List Json.Value}
    (hValues : List.Forall₂ Event.Stands events values)
    (h : verifyChain runtime (events.map Event.object) = .ok ()) :
    (values.map jsonText).Nodup := by
  obtain ⟨others, hOthers, hLinked⟩ := verifyChain_eq_ok.mp h
  obtain rfl : values = others := by
    have hSame : (values.map jsonText) = others.map jsonText :=
      (texts_eq hValues).symm.trans (texts_eq hOthers)
    exact Traversal.eq_of_map jsonText_injOn (plain_of_stands hValues) (plain_of_stands hOthers) hSame
  have hPlain := plain_of_stands hValues
  exact hLinked.nodup.map_on fun first hFirst second hSecond =>
    jsonText_injOn (hPlain first hFirst) (hPlain second hSecond)

/-- A root binds the events. No digests of 32 octets are injective on all messages:
those that the two roots hash do not collide. The number of events need not be the
same, if both logs are accepted. -/
theorem merkleRoot_binding (runtime : EventRuntime)
    (hLength : ∀ message, (runtime.sha256 message).length = 32) (log other : List Event)
    (hInjective : Set.InjOn runtime.sha256 {message |
      message ∈ merkleMessages runtime (log.map Event.object) ∨
        message ∈ merkleMessages runtime (other.map Event.object)})
    (root : String) (hLog : merkleRoot runtime (log.map Event.object) = .ok root)
    (hOther : merkleRoot runtime (other.map Event.object) = .ok root)
    (hKind : log.length = other.length ∨
      verifyChain runtime (log.map Event.object) = .ok () ∧
        verifyChain runtime (other.map Event.object) = .ok ()) :
    List.Forall₂ Event.SameValue log other := by
  obtain ⟨values, hValues, hMessages, rfl⟩ := merkleRoot_eq_ok hLog
  obtain ⟨others, hOthers, hOtherMessages, hTop⟩ := merkleRoot_eq_ok hOther
  rw [hMessages, hOtherMessages] at hInjective
  have hAlike : Merkle.Alike (values.map jsonText) (others.map jsonText) := by
    cases hKind with
    | inl hMany => exact Or.inl (by simpa [hValues.length_eq, hOthers.length_eq] using hMany)
    | inr hChains =>
        exact Or.inr ⟨texts_nodup hValues hChains.1, texts_nodup hOthers hChains.2⟩
  have hTexts := texts_eq_of_merkleTop hInjective hLength (fun _ => Or.inl) (fun _ => Or.inr)
    (texts_braced hValues) (texts_braced hOthers) hAlike (hexdigest_injective hTop)
  have hSame := Traversal.eq_of_map jsonText_injOn (plain_of_stands hValues)
    (plain_of_stands hOthers) hTexts
  exact sameValues_of_stands hValues (hSame ▸ hOthers)

section Sample

variable {message : Bytes} {digits : String} {table : List (Bytes × String)}

theorem EventRuntime.ofTable_self :
    (EventRuntime.ofTable ((message, digits) :: table)).sha256 message = octetsOf digits := by
  simp [ofTable]

theorem EventRuntime.ofTable_of_ne {other : Bytes} (h : message ≠ other) :
    (EventRuntime.ofTable ((message, digits) :: table)).sha256 other =
      (EventRuntime.ofTable table).sha256 other := by
  simp [ofTable, h]

theorem EventRuntime.length_ofTable (h : ∀ row ∈ table, (octetsOf row.2).length = 32) :
    ((EventRuntime.ofTable table).sha256 message).length = 32 := by
  induction table with
  | nil => rfl
  | cons row rest ih =>
      obtain ⟨hRow, hRest⟩ := List.forall_mem_cons.mp h
      by_cases hSame : row.1 = message
      · subst hSame
        rw [ofTable_self]
        exact hRow
      · rw [ofTable_of_ne hSame]
        exact ih hRest

def treeHash : String := "552c4a34960bf2978b91e686c12d81844d743d072aba8ba872f11ad32c8a9085"

/-- The message of the node over the two events. -/
def treeMessage : Bytes := merkleMessage (octetsOf registeredHash, octetsOf rotatedHash)

/-- A runtime with the digests of the two events and of the node over them. -/
def EventRuntime.tree : EventRuntime :=
  .ofTable [(Event.registered.text, registeredHash), (Event.rotated.text, rotatedHash),
    (treeMessage, treeHash)]

theorem EventRuntime.length_tree (message : Bytes) :
    (EventRuntime.tree.sha256 message).length = 32 := by
  refine length_ofTable ?_
  simp only [List.forall_mem_cons]
  exact ⟨by decide, by decide, by decide, List.forall_mem_nil _⟩

theorem EventRuntime.tree_registered :
    EventRuntime.tree.sha256 Event.registered.text = octetsOf registeredHash :=
  ofTable_self

theorem EventRuntime.tree_rotated :
    EventRuntime.tree.sha256 Event.rotated.text = octetsOf rotatedHash :=
  (ofTable_of_ne Event.registered_text_ne.1).trans ofTable_self

theorem EventRuntime.tree_treeMessage :
    EventRuntime.tree.sha256 treeMessage = octetsOf treeHash := by
  obtain ⟨first, hFirst, -⟩ := Event.registered_stands .sample
  obtain ⟨second, hSecond, -⟩ := Event.rotated_stands .sample
  have hRegistered : Event.registered.text ≠ treeMessage :=
    hFirst.text_eq ▸ (merkleMessage_ne_braced hFirst.text_eq_cons).symm
  have hRotated : Event.rotated.text ≠ treeMessage :=
    hSecond.text_eq ▸ (merkleMessage_ne_braced hSecond.text_eq_cons).symm
  exact (ofTable_of_ne hRegistered).trans ((ofTable_of_ne hRotated).trans ofTable_self)

/-- The three messages for the root of the two events. -/
theorem merkleMessages_events :
    merkleMessages .tree ([Event.registered, Event.rotated].map Event.object) =
      [Event.registered.text, Event.rotated.text, treeMessage] := by
  obtain ⟨first, hFirst, -⟩ := Event.registered_stands .sample
  obtain ⟨second, hSecond, -⟩ := Event.rotated_stands .sample
  rw [merkleMessages, texts_eq (.cons hFirst (.cons hSecond .nil)), hashedMessages,
    if_neg (by simp), Merkle.hashedPairs]
  simp only [List.map_cons, List.map_nil, ← hFirst.text_eq, ← hSecond.text_eq,
    EventRuntime.tree_registered, EventRuntime.tree_rotated]
  rfl

/-- No two of them have the same digest. -/
theorem EventRuntime.tree_injOn : Set.InjOn EventRuntime.tree.sha256 {message |
    message ∈ merkleMessages .tree ([Event.registered, Event.rotated].map Event.object) ∨
      message ∈ merkleMessages .tree ([Event.registered, Event.rotated].map Event.object)} := by
  have hNodup : ([Event.registered.text, Event.rotated.text, treeMessage].map
      EventRuntime.tree.sha256).Nodup := by
    simp only [List.map_cons, List.map_nil, tree_registered, tree_rotated, tree_treeMessage]
    decide
  intro first hFirst second hSecond hSame
  rw [merkleMessages_events] at hFirst hSecond
  exact List.inj_on_of_nodup_map hNodup (or_self_iff.mp hFirst) (or_self_iff.mp hSecond) hSame

theorem merkleRoot_events : ∃ root,
    merkleRoot .tree ([Event.registered, Event.rotated].map Event.object) = .ok root := by
  obtain ⟨first, hFirst, -⟩ := Event.registered_stands .sample
  obtain ⟨second, hSecond, -⟩ := Event.rotated_stands .sample
  exact ⟨_, merkleRoot_of_stands (.cons hFirst (.cons hSecond .nil))⟩

/-- An accepted log of two events, and itself: the three messages of its tree do not
collide. -/
theorem merkleRoot_binding_sample :
    List.Forall₂ Event.SameValue [Event.registered, Event.rotated]
      [Event.registered, Event.rotated] := by
  obtain ⟨root, hRoot⟩ := merkleRoot_events
  have hChain := verifyChain_events EventRuntime.tree_registered
  exact merkleRoot_binding .tree EventRuntime.length_tree [Event.registered, Event.rotated]
    [Event.registered, Event.rotated] EventRuntime.tree_injOn root hRoot hRoot
    (Or.inr ⟨hChain, hChain⟩)

end Sample

end Tfws.Python
