import Mathlib.Data.List.Sort

/-! Arrays sorted by a comparator: a number for two elements, negative where the
first one goes in front and positive where it goes behind. The sort is stable. -/
namespace Ironsight.Comparators

variable {α : Type*} {compare : α → α → Int}

/-- `Array.prototype.sort`. -/
def sort (compare : α → α → Int) (items : List α) : List α := items.insertionSort fun a b => compare a b ≤ 0

/-- What the sort asks of a comparator. -/
structure Consistent (compare : α → α → Int) : Prop where
  total : ∀ a b, compare a b ≤ 0 ∨ compare b a ≤ 0
  trans : ∀ a b c, compare a b ≤ 0 → compare b c ≤ 0 → compare a c ≤ 0

theorem consistent_by (key : α → Int) : Consistent fun a b => key a - key b where
  total a b := by omega
  trans a b c first second := by omega

theorem sort_perm (items : List α) : (sort compare items).Perm items := List.perm_insertionSort _ _

theorem sort_sorted (consistent : Consistent compare) (items : List α) :
    (sort compare items).Pairwise fun a b => compare a b ≤ 0 := by
  have : Std.Total fun a b => compare a b ≤ 0 := ⟨consistent.total⟩
  have : IsTrans α fun a b => compare a b ≤ 0 := ⟨consistent.trans⟩
  exact List.pairwise_insertionSort _ items

theorem sort_of_sorted {items : List α} (sorted : items.Pairwise fun a b => compare a b ≤ 0) :
    sort compare items = items :=
  sorted.insertionSort_eq

/-- Where no two elements are equal the order is the only one. -/
theorem sort_eq (consistent : Consistent compare) {items target : List α} (perm : items.Perm target)
    (sorted : target.Pairwise fun a b => compare a b ≤ 0)
    (apart : ∀ a ∈ target, ∀ b ∈ target, compare a b ≤ 0 → compare b a ≤ 0 → a = b) : sort compare items = target := by
  have all : (sort compare items).Perm target := (sort_perm items).trans perm
  refine List.Perm.eq_of_pairwise (fun a b one two before after => ?_) (sort_sorted consistent items) sorted all
  exact apart a (all.subset one) b two before after

end Ironsight.Comparators
