import Mathlib.Data.List.Sort
import Mathlib.Order.Defs.Unbundled

/-! Sorting members by a key under a three-way comparison. Members with
different keys have one ascending arrangement, and sorting finds it. -/
namespace Sorting

universe u v

variable {α : Type u} {β : Type v} {order : α → α → Ordering} {key : β → α}
  {items sorted : List β}

/-- The keys of the members strictly increase. In particular no two of them compare as
equal. -/
def Ascending (order : α → α → Ordering) (key : β → α) (items : List β) : Prop :=
  items.Pairwise fun first second => order (key first) (key second) = .lt

/-- No two members have keys that compare equal, so that an order of the keys is one
of the members. -/
def Distinct (order : α → α → Ordering) (key : β → α) (items : List β) : Prop :=
  items.Pairwise fun first second => order (key first) (key second) ≠ .eq

/-- The members in ascending order of their keys. Members with equal keys keep their
order, as with the sorting that the sources call. -/
def sortBy (order : α → α → Ordering) (key : β → α) (items : List β) : List β :=
  items.mergeSort fun first second => (order (key first) (key second)).isLE

theorem Ascending.distinct (h : Ascending order key items) : Distinct order key items :=
  h.imp fun hLt hEq => by rw [hLt] at hEq; cases hEq

/-- Sorting neither adds a member nor loses one, whatever the order is. -/
theorem sortBy_perm (items : List β) : (sortBy order key items).Perm items :=
  List.mergeSort_perm _ _

section Transitive

variable [Std.TransCmp order]

theorem ne_eq_symm {a b : α} (h : order a b ≠ .eq) : order b a ≠ .eq := by
  have hSwap : order b a = (order a b).swap := Std.OrientedCmp.eq_swap
  rwa [hSwap, ne_eq, Ordering.swap_eq_eq]

theorem lt_asymm {a b : α} (h : order a b = .lt) : order b a ≠ .lt := by
  have hSwap : order b a = (order a b).swap := Std.OrientedCmp.eq_swap
  rw [hSwap, h]
  decide

theorem pairwise_sortBy (items : List β) :
    (sortBy order key items).Pairwise fun first second =>
      (order (key first) (key second)).isLE := by
  apply List.pairwise_mergeSort
  · intro first second third
    exact Std.TransCmp.isLE_trans
  · intro first second
    rw [Bool.or_eq_true]
    cases h : order (key first) (key second) with
    | lt | eq => exact Or.inl rfl
    | gt =>
        right
        have hSwap : order (key second) (key first) = (order (key first) (key second)).swap :=
          Std.OrientedCmp.eq_swap
        rw [hSwap, h]
        rfl

/-- Members that the comparison tells apart are sorted into strictly ascending
order. -/
theorem Distinct.ascending_sortBy (h : Distinct order key items) :
    Ascending order key (sortBy order key items) := by
  have hDistinct : Distinct order key (sortBy order key items) :=
    ((sortBy_perm items).pairwise_iff ne_eq_symm).mpr h
  refine (pairwise_sortBy items).imp₂ (fun first second hLe hNe => ?_) hDistinct
  cases hCompare : order (key first) (key second) with
  | lt => rfl
  | eq => exact absurd hCompare hNe
  | gt => rw [hCompare] at hLe; cases hLe

/-- Ascending members are the only ascending arrangement of themselves, so that
sorting has one result. -/
theorem Ascending.eq_of_perm (h : Ascending order key items) (hSorted : Ascending order key sorted)
    (hPerm : items.Perm sorted) : items = sorted :=
  hPerm.eq_of_pairwise
    (fun first second _ _ hLt hGt =>
      absurd (show order (key second) (key first) = .lt from hGt) (lt_asymm hLt)) h hSorted

/-- Sorting finds the ascending arrangement and there is no other. A reader can
therefore check the order instead of sorting again. -/
theorem ascending_iff_eq_sortBy (h : Distinct order key items) (hPerm : sorted.Perm items) :
    Ascending order key sorted ↔ sorted = sortBy order key items := by
  constructor
  · intro hSorted
    exact hSorted.eq_of_perm h.ascending_sortBy (hPerm.trans (sortBy_perm items).symm)
  · intro hEq
    rw [hEq]
    exact h.ascending_sortBy

/-- It is enough to compare every member with the one before it, for the comparison is
transitive. -/
theorem ascending_of_isChain
    (h : items.IsChain fun first second => order (key first) (key second) = .lt) :
    Ascending order key items := by
  have hTrans : IsTrans β fun first second => order (key first) (key second) = .lt :=
    ⟨fun _ _ _ => Std.TransCmp.lt_trans⟩
  exact List.isChain_iff_pairwise.mp h

end Transitive

/-- A transitive comparison that tells different keys apart is a strict order on them,
and no two are left incomparable. -/
theorem isStrictTotalOrder [Std.TransCmp order] [Std.LawfulEqCmp order] :
    IsStrictTotalOrder α fun first second => order first second = .lt where
  irrefl a := by
    have hSelf : order a a = .eq := Std.ReflCmp.compare_self
    rw [hSelf]
    decide
  trans a b c := Std.TransCmp.lt_trans
  trichotomous a b hLeft hRight := by
    cases h : order a b with
    | lt => exact absurd h hLeft
    | eq => exact Std.LawfulEqCmp.eq_of_compare h
    | gt => exact absurd (Std.OrientedCmp.lt_of_gt h) hRight

end Sorting
