import Mathlib.Algebra.Order.Field.Basic
import Mathlib.Algebra.Ring.Parity
import Mathlib.Analysis.Convex.Segment
import Mathlib.Data.List.Rotate
import Mathlib.Tactic.FieldSimp
import Mathlib.Tactic.Linarith

/-! Closed polygons over an ordered field and the ray that runs from a point to the
right: which edges it crosses, and what the parity of the crossings does not depend on.
An edge holds its lower end and not its upper one, so that a corner at the height of the
ray belongs to one side only. -/
namespace Ironsight.RayCrossing

/-! ## Edges -/

section Edges
variable {α : Type*}

/-- The steps of a path from corner to corner. -/
def links : List α → List (α × α)
  | [] => []
  | [_] => []
  | first :: second :: rest => (first, second) :: links (second :: rest)

/-- The edges of the closed polygon, the one that closes it first. -/
def edges (corners : List α) : List (α × α) := links (corners.getLast?.toList ++ corners)

@[simp] theorem links_cons_cons (first second : α) (rest : List α) :
    links (first :: second :: rest) = (first, second) :: links (second :: rest) := rfl

theorem links_append (first : List α) (middle : α) (last : List α) :
    links (first ++ middle :: last) = links (first ++ [middle]) ++ links (middle :: last) := by
  induction first with
  | nil => rfl
  | cons corner rest ih =>
    cases rest with
    | nil => rfl
    | cons next rest => exact congrArg ((corner, next) :: ·) ih

theorem links_reverse (path : List α) : links path.reverse = ((links path).map Prod.swap).reverse := by
  induction path with
  | nil => rfl
  | cons corner rest ih =>
    cases rest with
    | nil => rfl
    | cons next rest =>
      rw [List.reverse_cons, List.reverse_cons, List.append_assoc, List.singleton_append, links_append,
        ← List.reverse_cons, ih, links_cons_cons corner next rest, List.map_cons, List.reverse_cons]
      rfl

theorem mem_of_mem_links {path : List α} {edge : α × α} (member : edge ∈ links path) :
    edge.1 ∈ path ∧ edge.2 ∈ path := by
  induction path with
  | nil => cases member
  | cons corner rest ih =>
    cases rest with
    | nil => cases member
    | cons next rest =>
      rcases List.mem_cons.mp member with rfl | member
      · simp
      · obtain ⟨left, right⟩ := ih member
        exact ⟨List.mem_cons_of_mem _ left, List.mem_cons_of_mem _ right⟩

theorem edges_concat (corners : List α) (last : α) :
    edges (corners ++ [last]) = links (last :: (corners ++ [last])) := by
  simp [edges]

theorem mem_of_mem_edges {corners : List α} {edge : α × α} (member : edge ∈ edges corners) :
    edge.1 ∈ corners ∧ edge.2 ∈ corners := by
  rcases List.eq_nil_or_concat corners with rfl | ⟨front, last, rfl⟩
  · cases member
  · rw [List.concat_eq_append] at member ⊢
    rw [edges_concat] at member
    have covered : ∀ corner ∈ last :: (front ++ [last]), corner ∈ front ++ [last] := by simp
    exact (mem_of_mem_links member).imp (covered _) (covered _)

theorem edges_append (front : List α) (corner : α) (back : List α) (last : α) :
    edges ((front ++ [corner]) ++ (back ++ [last])) =
      links (last :: (front ++ [corner])) ++ links (corner :: (back ++ [last])) := by
  rw [← List.append_assoc, edges_concat]
  simpa using links_append (last :: front) corner (back ++ [last])

/-- Beginning at another corner permutes the edges. -/
theorem edges_rotate (front back : List α) : (edges (front ++ back)).Perm (edges (back ++ front)) := by
  rcases List.eq_nil_or_concat front with rfl | ⟨front, corner, rfl⟩
  · simp
  · rcases List.eq_nil_or_concat back with rfl | ⟨back, last, rfl⟩
    · simp
    · simp only [List.concat_eq_append, edges_append]
      exact List.perm_append_comm

theorem edges_of_isRotated {corners turned : List α} (rotated : corners.IsRotated turned) :
    (edges corners).Perm (edges turned) := by
  obtain ⟨n, rfl⟩ := rotated
  rw [List.rotate_eq_drop_append_take_mod]
  conv_lhs => rw [← List.take_append_drop (n % corners.length) corners]
  exact edges_rotate _ _

/-- The other winding runs through every edge the other way. -/
theorem edges_reverse (corners : List α) : (edges corners.reverse).Perm ((edges corners).map Prod.swap) := by
  cases corners with
  | nil => rfl
  | cons head rest =>
    have turned : (edges (head :: rest)).Perm (links (head :: (rest ++ [head]))) := by
      rw [← edges_concat]
      exact edges_rotate [head] rest
    have back : edges (head :: rest).reverse = links (head :: (rest ++ [head])).reverse := by
      rw [List.reverse_cons, edges_concat]
      simp
    rw [back, links_reverse]
    exact (List.reverse_perm _).trans (turned.symm.map _)

/-- Along a path a property of corners changes an odd number of times exactly when its
ends differ. -/
theorem odd_changes_links (holds : α → Bool) (first : α) (rest : List α) :
    Odd ((links (first :: rest)).countP fun edge => holds edge.1 != holds edge.2) ↔
      holds first ≠ holds ((first :: rest).getLast (List.cons_ne_nil _ _)) := by
  induction rest generalizing first with
  | nil => simp [links]
  | cons next rest ih =>
    rw [links_cons_cons, List.countP_cons, List.getLast_cons (List.cons_ne_nil _ _)]
    cases same : holds first != holds next with
    | false => simpa [eq_of_beq (by simpa using same : (holds first == holds next) = true)] using ih next
    | true =>
      have differ : holds first = !holds next := Bool.eq_not_of_ne (by simpa using same)
      simp only [if_true, Nat.odd_add_one, ih next, differ]
      cases holds next <;> simp

/-- Round a closed polygon it changes an even number of times. -/
theorem even_changes_edges (holds : α → Bool) (corners : List α) :
    Even ((edges corners).countP fun edge => holds edge.1 != holds edge.2) := by
  rcases List.eq_nil_or_concat corners with rfl | ⟨front, last, rfl⟩
  · exact ⟨0, rfl⟩
  · rw [List.concat_eq_append, edges_concat, ← Nat.not_odd_iff_even, odd_changes_links]
    simp

end Edges
/-! ## The ray -/

section Heights
variable {K : Type*} [LinearOrder K]

/-- The edge runs from the height of the point or below it to above it. -/
def Rises (p a b : K × K) : Prop := a.2 ≤ p.2 ∧ p.2 < b.2

instance (p a b : K × K) : Decidable (Rises p a b) := inferInstanceAs (Decidable (_ ∧ _))

theorem Rises.slanted {p a b : K × K} (rises : Rises p a b) : a.2 ≠ b.2 :=
  (rises.1.trans_lt rises.2).ne

/-- The ends of an edge are on two sides of the height exactly when it rises one way. -/
theorem passes_iff {p a b : K × K} : ¬ (p.2 < a.2 ↔ p.2 < b.2) ↔ Rises p a b ∨ Rises p b a := by
  rw [Rises, Rises, ← not_lt, ← not_lt]
  tauto

end Heights

section Ray
variable {K : Type*} [Field K]

/-- Twice the signed area of the triangle, positive for a left turn. -/
def cross (a b c : K × K) : K := (b.1 - a.1) * (c.2 - a.2) - (b.2 - a.2) * (c.1 - a.1)

/-- Where the line through two corners meets the height of the point. -/
def abscissa (p a b : K × K) : K := (b.1 - a.1) * (p.2 - a.2) / (b.2 - a.2) + a.1

theorem abscissa_swap {p a b : K × K} (slanted : a.2 ≠ b.2) : abscissa p a b = abscissa p b a := by
  have up : b.2 - a.2 ≠ 0 := sub_ne_zero.mpr slanted.symm
  have down : a.2 - b.2 ≠ 0 := sub_ne_zero.mpr slanted
  rw [abscissa, abscissa]
  field_simp
  ring

variable [LinearOrder K]

/-- The edge meets the ray. -/
def Crosses (p : K × K) (edge : (K × K) × (K × K)) : Prop :=
  (Rises p edge.1 edge.2 ∨ Rises p edge.2 edge.1) ∧ p.1 < abscissa p edge.1 edge.2

instance (p : K × K) (edge : (K × K) × (K × K)) : Decidable (Crosses p edge) := inferInstanceAs (Decidable (_ ∧ _))

/-- The ray crosses the closed polygon an odd number of times. -/
def Inside (p : K × K) (corners : List (K × K)) : Prop := Odd ((edges corners).countP fun edge => Crosses p edge)

instance (p : K × K) (corners : List (K × K)) : Decidable (Inside p corners) :=
  inferInstanceAs (Decidable (Odd _))

theorem crosses_swap {p : K × K} {edge : (K × K) × (K × K)} : Crosses p edge.swap ↔ Crosses p edge := by
  obtain ⟨a, b⟩ := edge
  simp only [Crosses, Prod.swap_prod_mk, or_comm (a := Rises p b a)]
  refine and_congr_right fun side => ?_
  rw [abscissa_swap (side.elim (·.slanted) (·.slanted.symm))]

theorem inside_of_isRotated {p : K × K} {corners turned : List (K × K)} (rotated : corners.IsRotated turned) :
    Inside p turned ↔ Inside p corners := by
  rw [Inside, Inside, (edges_of_isRotated rotated).countP_eq]

theorem inside_reverse {p : K × K} {corners : List (K × K)} : Inside p corners.reverse ↔ Inside p corners := by
  rw [Inside, Inside, (edges_reverse corners).countP_eq, List.countP_map]
  simp only [Function.comp_def, crosses_swap]

/-- A path that does not pass the height of the point misses the ray. -/
theorem countP_links_of_level {p : K × K} {path : List (K × K)}
    (level : ∀ first ∈ path, ∀ second ∈ path, p.2 < first.2 ↔ p.2 < second.2) :
    (links path).countP (fun edge => Crosses p edge) = 0 := by
  refine List.countP_eq_zero.mpr fun edge member => ?_
  obtain ⟨first, second⟩ := mem_of_mem_links member
  rw [decide_eq_true_eq]
  rintro ⟨rises | rises, -⟩
  · exact absurd ((level _ first _ second).mpr rises.2) rises.1.not_gt
  · exact absurd ((level _ first _ second).mp rises.2) rises.1.not_gt

/-- Whether the edges that pass the height of the point meet the ray is all or none:
then the ray meets an even number of them. -/
theorem not_inside_of_uniform {p : K × K} {corners : List (K × K)}
    (uniform : ∀ edge ∈ edges corners, ∀ other ∈ edges corners, Crosses p edge →
      (Rises p other.1 other.2 ∨ Rises p other.2 other.1) → Crosses p other) : ¬ Inside p corners := by
  rw [Inside, Nat.not_odd_iff_even]
  by_cases met : ∃ edge ∈ edges corners, Crosses p edge
  · obtain ⟨edge, member, crosses⟩ := met
    have passing := even_changes_edges (fun corner : K × K => decide (p.2 < corner.2)) corners
    rwa [List.countP_congr fun other present => ?_] at passing
    rw [bne_iff_ne, ne_eq, decide_eq_decide, decide_eq_true_eq]
    exact ⟨fun change => uniform edge member other present crosses (passes_iff.mp change),
      fun met => passes_iff.mpr met.1⟩
  · rw [List.countP_eq_zero.mpr fun edge member => by simpa using fun crosses => met ⟨edge, member, crosses⟩]
    exact ⟨0, rfl⟩

variable [IsStrictOrderedRing K]

/-- A rising edge meets the ray exactly when the point is to its left. -/
theorem Rises.left_iff {p a b : K × K} (rises : Rises p a b) : p.1 < abscissa p a b ↔ 0 < cross a b p := by
  have height : 0 < b.2 - a.2 := sub_pos.mpr (rises.1.trans_lt rises.2)
  rw [abscissa, ← sub_lt_iff_lt_add, lt_div_iff₀ height, cross, sub_pos, mul_comm (b.2 - a.2)]

/-- The points where edges pass the height of `p` lie on them. -/
theorem Rises.mem_segment {p a b : K × K} (rises : Rises p a b) : (abscissa p a b, p.2) ∈ segment K a b := by
  have height : 0 < b.2 - a.2 := sub_pos.mpr (rises.1.trans_lt rises.2)
  refine ⟨(b.2 - p.2) / (b.2 - a.2), (p.2 - a.2) / (b.2 - a.2), ?_, ?_, ?_, ?_⟩
  · exact div_nonneg (sub_nonneg.mpr rises.2.le) height.le
  · exact div_nonneg (sub_nonneg.mpr rises.1) height.le
  · rw [← add_div, div_eq_one_iff_eq height.ne']
    ring
  · ext
    · simp only [abscissa, Prod.fst_add, Prod.smul_fst, smul_eq_mul]
      field_simp
      ring
    · simp only [Prod.snd_add, Prod.smul_snd, smul_eq_mul]
      field_simp
      ring

end Ray
end Ironsight.RayCrossing
