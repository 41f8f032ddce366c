import Mathlib.Data.List.Induction
import Mathlib.Data.List.Nodup
import Mathlib.Data.Nat.Log
import Tfws.Data.Traversal

/-! Merkle trees, layer by layer: neighbours are hashed in pairs, and the last
node of an odd layer is its own neighbour. The root determines the leaves as
long as the nodes do not collide, if the number of leaves is known, or if no
leaf occurs twice and none is a node. -/
namespace Merkle

universe u v

variable {α : Type u} {layer first second : List α}

/-- A layer of even length: an odd one gets its last node again. -/
def padded (layer : List α) : List α :=
  if layer.length % 2 = 1 then layer ++ layer.getLast?.toList else layer

/-- Neighbours two by two. A last node without a neighbour is dropped here, which
padding has made sure does not occur. -/
def pairs : List α → List (α × α)
  | left :: right :: rest => (left, right) :: pairs rest
  | _ => []

/-- The neighbours of a layer, the last node of an odd layer together with itself. -/
def joined (layer : List α) : List (α × α) := pairs (padded layer)

@[simp] theorem joined_nil : joined ([] : List α) = [] := rfl

@[simp] theorem joined_singleton (node : α) : joined [node] = [(node, node)] := rfl

theorem padded_cons_cons (left right : α) :
    padded (left :: right :: layer) = left :: right :: padded layer := by
  have hParity : (left :: right :: layer).length % 2 = layer.length % 2 := by
    simp only [List.length_cons]
    omega
  rw [padded, padded, hParity]
  split_ifs with hOdd
  · cases layer with
    | nil => cases hOdd
    | cons next rest => rw [List.getLast?_cons_cons, List.getLast?_cons_cons]; rfl
  · rfl

@[simp] theorem joined_cons_cons (left right : α) :
    joined (left :: right :: layer) = (left, right) :: joined layer := by
  rw [joined, padded_cons_cons]
  rfl

/-- A layer halves, rounding up, so that the number of layers is a logarithm. -/
theorem length_joined : (joined layer).length = (layer.length + 1) / 2 := by
  induction layer using List.twoStepInduction with
  | nil => simp
  | singleton node => simp
  | cons_cons left right rest ih _ =>
      rw [joined_cons_cons, List.length_cons, ih, List.length_cons, List.length_cons]
      omega

/-- Every other node comes first in a pair, in the order of the layer and with nothing
added. -/
theorem fst_joined_sublist : ((joined layer).map Prod.fst).Sublist layer := by
  induction layer using List.twoStepInduction with
  | nil => exact List.Sublist.slnil
  | singleton node => exact List.Sublist.refl _
  | cons_cons left right rest ih _ =>
      rw [joined_cons_cons, List.map_cons]
      exact (ih.cons right).cons_cons left

/-- Padding brings in no node that the layer does not have. -/
theorem mem_joined {pair : α × α} (h : pair ∈ joined layer) : pair.1 ∈ layer ∧ pair.2 ∈ layer := by
  induction layer using List.twoStepInduction with
  | nil => cases h
  | singleton node =>
      obtain rfl := List.mem_singleton.mp h
      exact ⟨List.mem_cons_self .., List.mem_cons_self ..⟩
  | cons_cons left right rest ih _ =>
      rw [joined_cons_cons, List.mem_cons] at h
      obtain rfl | hRest := h
      · exact ⟨List.mem_cons_self .., List.mem_cons_of_mem _ (List.mem_cons_self ..)⟩
      · exact (ih hRest).imp (fun hLeft => List.mem_cons_of_mem _ (List.mem_cons_of_mem _ hLeft))
          fun hRight => List.mem_cons_of_mem _ (List.mem_cons_of_mem _ hRight)

/-- In a layer without repetition no two pairs are the same. -/
theorem nodup_joined (h : layer.Nodup) : (joined layer).Nodup :=
  (h.sublist fst_joined_sublist).of_map Prod.fst

/-- Two layers that padding cannot make the same: as long as each other, or without
repetitions. -/
def Alike (first second : List α) : Prop :=
  first.length = second.length ∨ first.Nodup ∧ second.Nodup

/-- A pair of different nodes is not that of a last one, which is paired with
itself. -/
theorem Alike.cons_cons_ne_singleton {left right node : α}
    (h : Alike (left :: right :: layer) [node]) :
    joined (left :: right :: layer) ≠ joined [node] := by
  intro hSame
  rw [joined_cons_cons, joined_singleton] at hSame
  cases h with
  | inl hLength => simp at hLength
  | inr hNodup =>
      obtain ⟨hPair, -⟩ := List.cons.inj hSame
      obtain ⟨rfl, rfl⟩ := Prod.mk.inj hPair
      simp at hNodup

theorem Alike.symm (h : Alike first second) : Alike second first :=
  h.imp Eq.symm And.symm

theorem Alike.tail {left right other node : α}
    (h : Alike (left :: right :: first) (other :: node :: second)) : Alike first second := by
  cases h with
  | inl hLength => exact Or.inl (by simpa using hLength)
  | inr hNodup =>
      exact Or.inr ⟨(List.nodup_cons.mp (List.nodup_cons.mp hNodup.1).2).2,
        (List.nodup_cons.mp (List.nodup_cons.mp hNodup.2).2).2⟩

/-- The neighbours determine the layer, once it is known how layers of different
parity are told apart. Without that, an odd layer and the one with its last node
written twice have the same neighbours. -/
theorem Alike.eq_of_joined (hAlike : Alike first second) (h : joined first = joined second) :
    first = second := by
  induction first using List.twoStepInduction generalizing second with
  | nil =>
      cases second using List.twoStepInduction with
      | nil => rfl
      | singleton node => cases h
      | cons_cons left right rest => simp at h
  | singleton node =>
      cases second using List.twoStepInduction with
      | nil => cases h
      | singleton other =>
          obtain ⟨hPair, -⟩ := List.cons.inj h
          rw [(Prod.mk.inj hPair).1]
      | cons_cons left right rest => exact absurd h.symm hAlike.symm.cons_cons_ne_singleton
  | cons_cons left right rest ih _ =>
      cases second using List.twoStepInduction with
      | nil => simp at h
      | singleton node => exact absurd h hAlike.cons_cons_ne_singleton
      | cons_cons other node others =>
          rw [joined_cons_cons, joined_cons_cons] at h
          obtain ⟨hPair, hRest⟩ := List.cons.inj h
          obtain ⟨rfl, rfl⟩ := Prod.mk.inj hPair
          rw [ih hAlike.tail hRest]

variable (node : α × α → α)

/-- The nodes over a layer, each computed from the pair under it. -/
def up (layer : List α) : List α := (joined layer).map node

/-- Layer over layer, until a single node is left. The fuel bounds their number. -/
def climb : Nat → List α → Option α
  | _, [] => none
  | _, [root] => some root
  | 0, _ => none
  | fuel + 1, layer => climb fuel (up node layer)

/-- The root over a layer. There are fewer layers over it than nodes in it. -/
def root (layer : List α) : Option α := climb node layer.length layer

/-- The pairs that are hashed for so many layers, from the leaves up. -/
def hashed : Nat → List α → List (α × α)
  | 0, _ => []
  | depth + 1, layer => joined layer ++ hashed depth (up node layer)

/-- The pairs that are hashed for the root: those of all the layers. -/
def hashedPairs (layer : List α) : List (α × α) := hashed node (Nat.clog 2 layer.length) layer

variable {node}

theorem length_up : (up node layer).length = (layer.length + 1) / 2 := by
  rw [up, List.length_map, length_joined]

/-- The depth of a tree, as its number of leaves tells it, is one more than that of
the layer above. -/
theorem clog_length (h : 1 < layer.length) :
    Nat.clog 2 layer.length = Nat.clog 2 (up node layer).length + 1 := by
  rw [length_up]
  exact Nat.clog_of_one_lt Nat.one_lt_two h

/-- What is left is the layer at the depth that the number of nodes tells. The fuel
has no part in it. -/
theorem iterate_of_climb {fuel : Nat} {root : α} (h : climb node fuel layer = some root) :
    (up node)^[Nat.clog 2 layer.length] layer = [root] := by
  induction fuel generalizing layer with
  | zero =>
      cases layer using List.twoStepInduction with
      | nil => cases h
      | singleton only =>
          obtain rfl := Option.some.inj h
          simp
      | cons_cons left right rest => cases h
  | succ fuel ih =>
      cases layer using List.twoStepInduction with
      | nil => cases h
      | singleton only =>
          obtain rfl := Option.some.inj h
          simp
      | cons_cons left right rest =>
          have hMany : 1 < (left :: right :: rest).length := by simp
          rw [@clog_length _ _ node hMany, Function.iterate_succ_apply]
          exact ih h

/-- The layers come to a single node as soon as the fuel is not less than the number
of nodes over one. -/
theorem exists_climb {fuel : Nat} (hSome : layer ≠ []) (hFuel : layer.length ≤ fuel + 1) :
    ∃ root, climb node fuel layer = some root := by
  induction fuel generalizing layer with
  | zero =>
      cases layer using List.twoStepInduction with
      | nil => exact absurd rfl hSome
      | singleton only => exact ⟨only, rfl⟩
      | cons_cons left right rest => simp at hFuel
  | succ fuel ih =>
      cases layer using List.twoStepInduction with
      | nil => exact absurd rfl hSome
      | singleton only => exact ⟨only, rfl⟩
      | cons_cons left right rest =>
          refine ih ?_ ?_
          · rw [up, joined_cons_cons]
            exact List.cons_ne_nil _ _
          · rw [length_up]
            simp only [List.length_cons] at hFuel ⊢
            omega

/-- Every list of leaves that is not empty has a root. -/
theorem exists_root (h : layer ≠ []) : ∃ top, root node layer = some top :=
  exists_climb h (Nat.le_succ _)

theorem hashed_add (front back : Nat) : hashed node (front + back) layer =
    hashed node front layer ++ hashed node back ((up node)^[front] layer) := by
  induction front generalizing layer with
  | zero => rw [Nat.zero_add]; rfl
  | succ front ih =>
      rw [Nat.succ_add, hashed, hashed, ih, List.append_assoc, Function.iterate_succ_apply]

/-- What holds of the leaves and of all nodes holds of what is hashed, at every
depth. -/
theorem forall_mem_hashed {good : α → Prop} (hNode : ∀ pair, good (node pair)) {depth : Nat}
    (hLayer : ∀ leaf ∈ layer, good leaf) :
    ∀ pair ∈ hashed node depth layer, good pair.1 ∧ good pair.2 := by
  induction depth generalizing layer with
  | zero => exact List.forall_mem_nil _
  | succ depth ih =>
      refine List.forall_mem_append.mpr ⟨fun pair hPair => ?_, ih (List.forall_mem_map.mpr ?_)⟩
      · exact (mem_joined hPair).imp (hLayer _) (hLayer _)
      · exact fun pair _ => hNode pair

/-- The root is a leaf, which happens where there is one leaf alone, or a node that
was hashed. -/
theorem root_mem {top : α} (h : root node layer = some top) :
    top ∈ layer ∨ ∃ pair ∈ hashedPairs node layer, node pair = top := by
  have hTop := iterate_of_climb h
  rw [hashedPairs]
  cases hDepth : Nat.clog 2 layer.length with
  | zero =>
      rw [hDepth] at hTop
      exact Or.inl (by simp [show layer = [top] from hTop])
  | succ depth =>
      rw [hDepth, Function.iterate_succ_apply'] at hTop
      have hMem : top ∈ up node ((up node)^[depth] layer) := hTop ▸ List.mem_singleton_self top
      obtain ⟨pair, hPair, hSame⟩ := List.mem_map.mp hMem
      refine Or.inr ⟨pair, ?_, hSame⟩
      rw [hashed_add]
      exact List.mem_append_right _ (List.mem_append_left _ hPair)

section Binding

variable {messages : Set (α × α)} (hNode : Set.InjOn node messages)
include hNode

/-- Nodes over a layer without repetition do not repeat, for as long as the messages
hashed do not collide. -/
theorem nodup_up (hMessages : ∀ pair ∈ joined layer, pair ∈ messages) (h : layer.Nodup) :
    (up node layer).Nodup :=
  (nodup_joined h).map_on fun _ hFirst _ hSecond hSame =>
    hNode (hMessages _ hFirst) (hMessages _ hSecond) hSame

theorem Alike.up (hAlike : Alike first second)
    (hFirst : ∀ pair ∈ joined first, pair ∈ messages)
    (hSecond : ∀ pair ∈ joined second, pair ∈ messages) :
    Alike (up node first) (up node second) := by
  cases hAlike with
  | inl hLength => exact Or.inl (by rw [length_up, length_up, hLength])
  | inr hNodup => exact Or.inr ⟨nodup_up hNode hFirst hNodup.1, nodup_up hNode hSecond hNodup.2⟩

/-- Layers are the same if those at some height over them are: the collisions that
could spoil it are among the messages hashed on the way. -/
theorem Alike.eq_of_iterate {depth : Nat} (hAlike : Alike first second)
    (hFirst : ∀ pair ∈ hashed node depth first, pair ∈ messages)
    (hSecond : ∀ pair ∈ hashed node depth second, pair ∈ messages)
    (h : (Merkle.up node)^[depth] first = (Merkle.up node)^[depth] second) : first = second := by
  induction depth generalizing first second with
  | zero => exact h
  | succ depth ih =>
      obtain ⟨hFirstJoined, hFirst⟩ := List.forall_mem_append.mp hFirst
      obtain ⟨hSecondJoined, hSecond⟩ := List.forall_mem_append.mp hSecond
      have hUp := ih (hAlike.up hNode hFirstJoined hSecondJoined) hFirst hSecond h
      exact hAlike.eq_of_joined (Traversal.eq_of_map hNode hFirstJoined hSecondJoined hUp)

theorem nodup_iterate {depth : Nat} (hMessages : ∀ pair ∈ hashed node depth layer, pair ∈ messages)
    (h : layer.Nodup) : ((Merkle.up node)^[depth] layer).Nodup := by
  induction depth generalizing layer with
  | zero => exact h
  | succ depth ih =>
      obtain ⟨hJoined, hRest⟩ := List.forall_mem_append.mp hMessages
      exact ih hRest (nodup_up hNode hJoined h)

/-- As many leaves with the same root are the same. Nothing is asked of the leaves,
which may repeat or be nodes. -/
theorem eq_of_root_of_length {top : α} (hLength : first.length = second.length)
    (hFirst : ∀ pair ∈ hashedPairs node first, pair ∈ messages)
    (hSecond : ∀ pair ∈ hashedPairs node second, pair ∈ messages)
    (hTop : root node first = some top) (hOther : root node second = some top) :
    first = second := by
  rw [hashedPairs, ← hLength] at hSecond
  have hTop := iterate_of_climb hTop
  have hOther := iterate_of_climb hOther
  rw [← hLength] at hOther
  exact Alike.eq_of_iterate hNode (Or.inl hLength) hFirst hSecond (hTop.trans hOther.symm)

/-- Different leaves, none of which is a node over the others, with the same root as
leaves that are not deeper under it. The shorter tree would otherwise end where the
deeper one still has a node to hash. -/
theorem eq_of_root_of_le {top : α} (hFirstNodup : first.Nodup) (hSecondNodup : second.Nodup)
    (hFirst : ∀ pair ∈ hashedPairs node first, pair ∈ messages)
    (hSecond : ∀ pair ∈ hashedPairs node second, pair ∈ messages)
    (hLeaf : ∀ leaf ∈ first, ∀ pair ∈ hashedPairs node second, node pair ≠ leaf)
    (hTop : root node first = some top) (hOther : root node second = some top)
    (hDepth : Nat.clog 2 first.length ≤ Nat.clog 2 second.length) : first = second := by
  obtain ⟨extra, hExtra⟩ := Nat.exists_eq_add_of_le' hDepth
  rw [hashedPairs, hExtra, hashed_add] at hSecond hLeaf
  obtain ⟨hBelow, hAbove⟩ := List.forall_mem_append.mp hSecond
  have hSame : first = (Merkle.up node)^[extra] second := by
    refine Alike.eq_of_iterate hNode (Or.inr ⟨hFirstNodup, nodup_iterate hNode hBelow hSecondNodup⟩)
      hFirst hAbove ?_
    rw [← Function.iterate_add_apply, Nat.add_comm, ← hExtra]
    exact (iterate_of_climb hTop).trans (iterate_of_climb hOther).symm
  cases extra with
  | zero => exact hSame
  | succ extra =>
      -- the leaves are then nodes of a layer over the other leaves
      rw [Function.iterate_succ_apply'] at hSame
      cases first with
      | nil => cases hTop
      | cons leaf rest =>
          have hMem : leaf ∈ Merkle.up node ((Merkle.up node)^[extra] second) :=
            hSame ▸ List.mem_cons_self ..
          obtain ⟨pair, hPair, hNodeLeaf⟩ := List.mem_map.mp hMem
          have hHashed : pair ∈ hashed node (extra + 1) second := by
            rw [hashed_add]
            refine List.mem_append_right _ ?_
            rw [hashed]
            exact List.mem_append_left _ hPair
          exact absurd hNodeLeaf
            (hLeaf leaf (List.mem_cons_self ..) pair (List.mem_append_left _ hHashed))

/-- Different leaves with the same root, none of which is a node, are the same. Their
number need not be known beforehand. -/
theorem eq_of_root_of_nodup {top : α} (hFirstNodup : first.Nodup) (hSecondNodup : second.Nodup)
    (hFirst : ∀ pair ∈ hashedPairs node first, pair ∈ messages)
    (hSecond : ∀ pair ∈ hashedPairs node second, pair ∈ messages)
    (hFirstLeaf : ∀ leaf ∈ first, ∀ pair ∈ messages, node pair ≠ leaf)
    (hSecondLeaf : ∀ leaf ∈ second, ∀ pair ∈ messages, node pair ≠ leaf)
    (hTop : root node first = some top) (hOther : root node second = some top) :
    first = second := by
  obtain hDepth | hDepth := Nat.le_total (Nat.clog 2 first.length) (Nat.clog 2 second.length)
  · exact eq_of_root_of_le hNode hFirstNodup hSecondNodup hFirst hSecond
      (fun leaf hLeaf pair hPair => hFirstLeaf leaf hLeaf pair (hSecond pair hPair))
      hTop hOther hDepth
  · exact (eq_of_root_of_le hNode hSecondNodup hFirstNodup hSecond hFirst
      (fun leaf hLeaf pair hPair => hSecondLeaf leaf hLeaf pair (hFirst pair hPair))
      hOther hTop hDepth).symm

end Binding

end Merkle
