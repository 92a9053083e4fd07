import Mathlib.Algebra.Order.Ring.Int
import Mathlib.Data.List.Pairwise

/-! Times, durations and sorting as the standard library has them. A time is a number of
nanoseconds, and a duration one of 64 bits. -/
namespace Ironsight.Durations

/-- 1 January of the year 1, which `IsZero` takes for a time that was never set. -/
def zeroTime : Int := -62135596800000000000

/-- `time.Second`. -/
def second : Int := 1000000000

/-- `time.Minute`. -/
def minute : Int := 60 * second

/-- What `Sub` makes of a difference. -/
def saturated (nanos : Int) : Int := max (-2 ^ 63) (min (2 ^ 63 - 1) nanos)

/-- The least duration is its own negation. -/
def negated (duration : Int) : Int := if duration = -2 ^ 63 then duration else -duration

/-! ## Sorting -/

/-- What a `less` function has to be for `sort.Slice`. -/
structure StrictWeak {α : Type} (less : α → α → Bool) : Prop where
  asymm : ∀ a b, less a b = true → less b a = false
  negTrans : ∀ a b c, less b a = false → less c b = false → less c a = false

/-- `sort.Slice`, which may put equal elements in any order. -/
structure SortSlice where
  slice : {α : Type} → (α → α → Bool) → List α → List α
  perm : ∀ {α : Type} (less : α → α → Bool) (items : List α), (slice less items).Perm items
  sorted : ∀ {α : Type} {less : α → α → Bool}, StrictWeak less → ∀ items : List α,
    (slice less items).Pairwise fun a b => less b a = false

/-- `sort.SliceStable`. -/
def sliceStable {α : Type} (less : α → α → Bool) (items : List α) : List α := items.mergeSort fun a b => !less b a

variable {α : Type} {less : α → α → Bool}

theorem SortSlice.slice_singleton (sorts : SortSlice) (less : α → α → Bool) (item : α) :
    sorts.slice less [item] = [item] :=
  List.perm_singleton.mp (sorts.perm less [item])

/-- Where no two elements are equal the order is the only one. -/
theorem SortSlice.slice_eq (sorts : SortSlice) (weak : StrictWeak less) {items target : List α} (perm : items.Perm target)
    (ordered : target.Pairwise fun a b => less a b = true) : sorts.slice less items = target := by
  refine List.Perm.eq_of_pairwise (fun a b one two notAfter notBefore => ?_) (sorts.sorted weak items)
    (ordered.imp (weak.asymm _ _)) ((sorts.perm less items).trans perm)
  by_contra other
  have held : a ∈ target := ((sorts.perm less items).trans perm).subset one
  have apart : target.Pairwise fun a b => less a b = true ∨ less b a = true := ordered.imp .inl
  have : Std.Symm fun a b => less a b = true ∨ less b a = true := ⟨fun _ _ => Or.symm⟩
  rcases apart.forall held two other with before | after
  · rw [notBefore] at before
    cases before
  · rw [notAfter] at after
    cases after

theorem strictWeak_by (key : α → Int) : StrictWeak fun a b => decide (key a < key b) where
  asymm a b before := by
    rw [decide_eq_false_iff_not]
    have := of_decide_eq_true before
    omega
  negTrans a b c first second := by
    rw [decide_eq_false_iff_not] at first second ⊢
    omega

private theorem notLess_trans (weak : StrictWeak less) (a b c : α) (first : (!less b a) = true) (second : (!less c b) = true) :
    (!less c a) = true := by
  rw [Bool.not_eq_true'] at first second ⊢
  exact weak.negTrans a b c first second

private theorem notLess_total (weak : StrictWeak less) (a b : α) : (!less b a || !less a b) = true := by
  cases before : less a b with
  | false => simp
  | true => simp [weak.asymm a b before]

theorem sliceStable_sorted (weak : StrictWeak less) (items : List α) :
    (sliceStable less items).Pairwise fun a b => less b a = false :=
  (List.pairwise_mergeSort (notLess_trans weak) (notLess_total weak) items).imp fun kept => by rwa [Bool.not_eq_true'] at kept

/-- The stable sort is one of them. -/
def stableSort : SortSlice where
  slice := sliceStable
  perm _ items := List.mergeSort_perm items _
  sorted := sliceStable_sorted

/-- Two elements that need not change places do not. -/
theorem sliceStable_keeps (weak : StrictWeak less) {items : List α} {a b : α} (before : List.Sublist [a, b] items)
    (kept : less b a = false) : List.Sublist [a, b] (sliceStable less items) :=
  List.pair_sublist_mergeSort (notLess_trans weak) (notLess_total weak) (by rw [kept]; rfl) before

end Ironsight.Durations
