import Mathlib.Data.List.Sort
import Mathlib.Order.Basic

/-! Keyset pagination: pages of a sorted selection, each taken after the key of
the last row of the page before. When no two rows share a key, the pages cut the
sorted selection without gap or overlap. -/
namespace Ironsight.Paging

variable {ρ κ : Type*} [LinearOrder κ] {key : ρ → κ}

/-- `WHERE key > cursor`. -/
def after (key : ρ → κ) (cursor : Option κ) (row : ρ) : Bool := cursor.all fun bound => bound < key row

/-- The rows still to come, `ORDER BY key`. -/
def remaining (key : ρ → κ) (rows : List ρ) (cursor : Option κ) : List ρ :=
  (rows.filter (after key cursor)).insertionSort fun first second => key first ≤ key second

/-- `WHERE key > cursor ORDER BY key LIMIT size`. -/
def page (key : ρ → κ) (rows : List ρ) (cursor : Option κ) (size : Nat) : List ρ :=
  (remaining key rows cursor).take size

theorem mem_remaining {rows : List ρ} {cursor : Option κ} {row : ρ} :
    row ∈ remaining key rows cursor ↔ row ∈ rows ∧ ∀ bound ∈ cursor, bound < key row := by
  cases cursor <;> simp [remaining, after]

theorem remaining_none (rows : List ρ) :
    remaining key rows none = rows.insertionSort fun first second => key first ≤ key second := by
  have all : rows.filter (after key none) = rows := List.filter_eq_self.mpr fun _ _ => rfl
  rw [remaining, all]

theorem remaining_sorted {rows : List ρ} {cursor : Option κ} (distinct : (rows.map key).Nodup) :
    (remaining key rows cursor).Pairwise fun first second => key first < key second := by
  have sorted : (remaining key rows cursor).Pairwise fun first second => key first ≤ key second :=
    List.pairwise_insertionSort _ _
  have different : (remaining key rows cursor).Pairwise fun first second => key first ≠ key second := by
    have kept : ((rows.filter (after key cursor)).map key).Nodup := distinct.sublist (List.filter_sublist.map key)
    exact List.pairwise_map.mp (((List.perm_insertionSort _ _).map key).nodup_iff.mpr kept)
  exact sorted.imp₂ (fun _ _ lower differs => lt_of_le_of_ne lower differs) different

/-- Rows sorted by a key are determined by their members. -/
private theorem eq_of_sorted {first second : List ρ} (left : first.Pairwise fun a b => key a < key b)
    (right : second.Pairwise fun a b => key a < key b) (same : ∀ row, row ∈ first ↔ row ∈ second) :
    first = second := by
  have noLeft : first.Nodup := left.imp fun lower same => lower.ne (congrArg key same)
  have noRight : second.Nodup := right.imp fun lower same => lower.ne (congrArg key same)
  exact ((List.perm_ext_iff_of_nodup noLeft noRight).mpr same).eq_of_pairwise
    (fun a b _ _ lower higher => absurd lower higher.not_gt) left right

/-- After a page, what remains is what the page left. -/
theorem remaining_page {rows : List ρ} {cursor : Option κ} {size : Nat} {last : ρ} (distinct : (rows.map key).Nodup)
    (ends : (page key rows cursor size).getLast? = some last) :
    remaining key rows (some (key last)) = (remaining key rows cursor).drop size := by
  have sorted : (remaining key rows cursor).Pairwise fun first second => key first < key second :=
    remaining_sorted distinct
  have cut := List.take_append_drop size (remaining key rows cursor)
  rw [← cut] at sorted
  obtain ⟨inPage, inRest, across⟩ := List.pairwise_append.mp sorted
  refine eq_of_sorted (remaining_sorted distinct) inRest fun row => ?_
  obtain ⟨front, split⟩ := List.getLast?_eq_some_iff.mp ends
  rw [page] at split
  have lastIn : last ∈ (remaining key rows cursor).take size := by
    rw [split]
    exact List.mem_append_right _ List.mem_cons_self
  constructor
  · intro later
    obtain ⟨held, beyond⟩ := mem_remaining.mp later
    have beyond := beyond _ rfl
    have started := (mem_remaining.mp (List.mem_of_mem_take lastIn)).2
    have still : row ∈ remaining key rows cursor :=
      mem_remaining.mpr ⟨held, fun bound given => (started bound given).trans beyond⟩
    rw [← cut] at still
    rcases List.mem_append.mp still with early | late
    · rw [split] at early inPage
      rcases List.mem_append.mp early with before | same
      · have lower := (List.pairwise_append.mp inPage).2.2 row before last List.mem_cons_self
        exact absurd beyond lower.not_gt
      · rw [List.mem_singleton.mp same] at beyond
        exact absurd beyond (lt_irrefl _)
    · exact late
  · intro late
    refine mem_remaining.mpr ⟨(mem_remaining.mp (List.mem_of_mem_drop late)).1, fun bound given => ?_⟩
    cases given
    exact across last lastIn row late

/-- A page and what remains after it are what remained before it. -/
theorem page_append_remaining {rows : List ρ} {cursor : Option κ} {size : Nat} {last : ρ}
    (distinct : (rows.map key).Nodup) (ends : (page key rows cursor size).getLast? = some last) :
    page key rows cursor size ++ remaining key rows (some (key last)) = remaining key rows cursor := by
  rw [remaining_page distinct ends, page, List.take_append_drop]

/-- Only a page that has nothing left to show is empty. -/
theorem remaining_of_page_nil {rows : List ρ} {cursor : Option κ} {size : Nat} (positive : 0 < size)
    (empty : page key rows cursor size = []) : remaining key rows cursor = [] :=
  (List.take_eq_nil_iff.mp empty).resolve_left positive.ne'

end Ironsight.Paging
