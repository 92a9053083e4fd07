import Mathlib.Analysis.Convex.Hull
import Mathlib.Tactic.LinearCombination
import Mathlib.Topology.Algebra.Order.Field
import Mathlib.Topology.Order.DenselyOrdered
import Ironsight.RayCrossing

/-! The crossing parity against the convex hull of the corners: it is even outside the
hull of any polygon, and odd in the interior of a convex one. -/
namespace Ironsight.ConvexPolygons
open RayCrossing

section Hull
variable {K : Type*} [Field K] [LinearOrder K]

/-- The region of a polygon: the convex hull of its corners. -/
def hull (corners : List (K × K)) : Set (K × K) := convexHull K {corner | corner ∈ corners}

theorem hull_congr {corners others : List (K × K)} (same : ∀ corner, corner ∈ corners ↔ corner ∈ others) :
    hull corners = hull others :=
  congrArg (convexHull K) (Set.ext fun corner => same corner)

theorem mem_hull_of_mem {corners : List (K × K)} {corner : K × K} (member : corner ∈ corners) : corner ∈ hull corners :=
  subset_convexHull K {corner | corner ∈ corners} member

variable [IsStrictOrderedRing K]

/-- A half plane with every corner in it holds the region. -/
theorem cross_nonneg_of_mem_hull {corners : List (K × K)} {a b p : K × K}
    (held : ∀ corner ∈ corners, 0 ≤ cross a b corner) (member : p ∈ hull corners) : 0 ≤ cross a b p := by
  have half : Convex K {q : K × K | 0 ≤ cross a b q} := by
    intro first left second right s t hs ht total
    have mixed : cross a b (s • first + t • second) = s * cross a b first + t * cross a b second := by
      simp only [cross, Prod.fst_add, Prod.snd_add, Prod.smul_fst, Prod.smul_snd, smul_eq_mul]
      linear_combination ((b.1 - a.1) * a.2 - (b.2 - a.2) * a.1) * total
    change 0 ≤ cross a b (s • first + t • second)
    rw [mixed]
    exact add_nonneg (mul_nonneg hs left) (mul_nonneg ht right)
  exact convexHull_min (fun corner => held corner) half member

/-- Between two points of the region at one height lies only the region. -/
theorem mem_hull_of_between {corners : List (K × K)} {left right : K} {p : K × K}
    (first : (left, p.2) ∈ hull corners) (second : (right, p.2) ∈ hull corners) (after : left ≤ p.1)
    (before : p.1 < right) : p ∈ hull corners := by
  refine (convex_convexHull K _).segment_subset first second ?_
  have width : 0 < right - left := sub_pos.mpr (after.trans_lt before)
  refine ⟨(right - p.1) / (right - left), (p.1 - left) / (right - left), ?_, ?_, ?_, ?_⟩
  · exact div_nonneg (sub_nonneg.mpr before.le) width.le
  · exact div_nonneg (sub_nonneg.mpr after) width.le
  · rw [← add_div, div_eq_one_iff_eq width.ne']
    ring
  · ext
    · simp only [Prod.fst_add, Prod.smul_fst, smul_eq_mul]
      field_simp
      ring
    · simp only [Prod.snd_add, Prod.smul_snd, smul_eq_mul]
      field_simp
      ring

/-- An edge that passes the height of the point does so within the region. -/
theorem mem_hull_of_passes {corners : List (K × K)} {p : K × K} {edge : (K × K) × (K × K)}
    (member : edge ∈ edges corners) (passes : Rises p edge.1 edge.2 ∨ Rises p edge.2 edge.1) :
    (abscissa p edge.1 edge.2, p.2) ∈ hull corners := by
  obtain ⟨first, second⟩ := mem_of_mem_edges member
  rcases passes with rises | rises
  · exact (convex_convexHull K _).segment_subset (mem_hull_of_mem first) (mem_hull_of_mem second) rises.mem_segment
  · rw [abscissa_swap rises.slanted.symm]
    exact (convex_convexHull K _).segment_subset (mem_hull_of_mem second) (mem_hull_of_mem first) rises.mem_segment

/-- Outside the region all passing edges lie on one side of the point. -/
theorem not_inside_of_not_mem_hull {corners : List (K × K)} {p : K × K} (outside : p ∉ hull corners) :
    ¬ Inside p corners := by
  refine not_inside_of_uniform fun edge member other present crosses passes => ⟨passes, ?_⟩
  by_contra left
  exact outside (mem_hull_of_between (mem_hull_of_passes present passes) (mem_hull_of_passes member crosses.1)
    (not_lt.mp left) crosses.2)

end Hull
/-! ## Interior points -/

section Interior
variable {K : Type*} [Field K] [LinearOrder K] [IsStrictOrderedRing K] [TopologicalSpace K] [OrderTopology K]

/-- From an interior point there is room in every direction. -/
theorem exists_step_of_mem_interior {region : Set (K × K)} {p : K × K} (inner : p ∈ interior region)
    (direction : K × K) : ∃ t : K, 0 < t ∧ p + t • direction ∈ region := by
  have path : Continuous fun t : K => p + t • direction := by fun_prop
  have near : ∀ᶠ t : K in nhds 0, p + t • direction ∈ region :=
    path.tendsto' 0 p (by simp) (mem_interior_iff_mem_nhds.mp inner)
  obtain ⟨t, inside, positive⟩ :=
    ((near.filter_mono nhdsWithin_le_nhds).and (self_mem_nhdsWithin (a := (0 : K)) (s := Set.Ioi 0))).exists
  exact ⟨t, positive, inside⟩

/-- A line that has the corners on its left has the interior strictly there. -/
theorem cross_pos_of_mem_interior {corners : List (K × K)} {a b p : K × K}
    (supports : ∀ corner ∈ corners, 0 ≤ cross a b corner) (distinct : a ≠ b) (inner : p ∈ interior (hull corners)) :
    0 < cross a b p := by
  -- one step to the right of the line would leave the half plane
  obtain ⟨t, positive, inside⟩ := exists_step_of_mem_interior inner (b.2 - a.2, -(b.1 - a.1))
  have kept := cross_nonneg_of_mem_hull supports inside
  have moved : cross a b (p + t • (b.2 - a.2, -(b.1 - a.1))) =
      cross a b p - t * ((b.1 - a.1) * (b.1 - a.1) + (b.2 - a.2) * (b.2 - a.2)) := by
    simp only [cross, Prod.fst_add, Prod.snd_add, Prod.smul_fst, Prod.smul_snd, smul_eq_mul]
    ring
  have length : 0 < (b.1 - a.1) * (b.1 - a.1) + (b.2 - a.2) * (b.2 - a.2) := by
    rcases ne_or_eq a.1 b.1 with apart | same
    · exact add_pos_of_pos_of_nonneg (mul_self_pos.mpr (sub_ne_zero.mpr apart.symm)) (mul_self_nonneg _)
    · have apart : a.2 ≠ b.2 := fun level => distinct (Prod.ext same level)
      exact add_pos_of_nonneg_of_pos (mul_self_nonneg _) (mul_self_pos.mpr (sub_ne_zero.mpr apart.symm))
  rw [moved] at kept
  exact (mul_pos positive length).trans_le (sub_nonneg.mp kept)

/-- Through an interior point no line has all corners on one side. -/
theorem exists_corner_right {corners : List (K × K)} {b p : K × K} (inner : p ∈ interior (hull corners))
    (distinct : p ≠ b) : ∃ corner ∈ corners, cross p b corner < 0 := by
  by_contra none
  simp only [not_exists, not_and, not_lt] at none
  have left := cross_pos_of_mem_interior none distinct inner
  simp [cross] at left

theorem exists_above {corners : List (K × K)} {p : K × K} (inner : p ∈ interior (hull corners)) :
    ∃ corner ∈ corners, p.2 < corner.2 := by
  obtain ⟨corner, member, right⟩ := exists_corner_right (b := (p.1 - 1, p.2)) inner fun same =>
    (sub_one_lt p.1).ne (congrArg Prod.fst same).symm
  exact ⟨corner, member, by simpa [cross] using right⟩

theorem exists_below {corners : List (K × K)} {p : K × K} (inner : p ∈ interior (hull corners)) :
    ∃ corner ∈ corners, corner.2 < p.2 := by
  obtain ⟨corner, member, right⟩ := exists_corner_right (b := (p.1 + 1, p.2)) inner fun same =>
    (lt_add_one p.1).ne (congrArg Prod.fst same)
  exact ⟨corner, member, by simpa [cross] using right⟩

end Interior

/-! ## Convex position -/

section Winding
variable {K : Type*} [Field K]

theorem cross_rotate (a b c : K × K) : cross b c a = cross a b c := by
  rw [cross, cross]
  ring

theorem cross_swap (a b c : K × K) : cross b a c = -cross a b c := by
  simp only [cross]
  ring

/-- Of four points each is weighed by the triangle of the others. -/
theorem cross_weights (a b c d : K × K) (level : K) :
    cross b c d * (a.2 - level) + cross a b d * (c.2 - level) =
      cross a c d * (b.2 - level) + cross a b c * (d.2 - level) := by
  simp only [cross]
  ring

/-- Seen from any point, the parts of one line are as their heights. -/
theorem cross_of_collinear {a b u v : K × K} (first : cross a b u = 0) (second : cross a b v = 0) (e : K × K) :
    (b.2 - a.2) * cross u v e = (v.2 - u.2) * cross a b e := by
  have split : (b.2 - a.2) * cross u v e =
      (v.2 - u.2) * cross a b e + (e.2 - v.2) * cross a b u - (e.2 - u.2) * cross a b v := by
    simp only [cross]
    ring
  rw [split, first, second]
  ring

variable [LinearOrder K]

/-- The corners are listed with the region to their left: no three of them, in the order
of the list, turn to the right. -/
def Counterclockwise (corners : List (K × K)) : Prop :=
  ∀ a b c, [a, b, c].Sublist corners → 0 ≤ cross a b c

theorem Counterclockwise.rotate {front back : List (K × K)} (winding : Counterclockwise (front ++ back)) :
    Counterclockwise (back ++ front) := by
  intro a b c listed
  obtain ⟨last, first, parts, later, earlier⟩ := List.sublist_append_iff.mp listed
  have turned := earlier.append later
  rcases last with _ | ⟨x, _ | ⟨y, _ | ⟨z, last⟩⟩⟩
  · cases parts
    exact winding a b c (by simpa using turned)
  · cases parts
    exact cross_rotate a b c ▸ winding b c a turned
  · cases parts
    exact cross_rotate c a b ▸ winding c a b turned
  · have parts : a = x ∧ b = y ∧ c = z ∧ last = [] ∧ first = [] := by simpa using parts
    obtain ⟨rfl, rfl, rfl, rfl, rfl⟩ := parts
    exact winding a b c turned

theorem Counterclockwise.of_isRotated {corners turned : List (K × K)} (winding : Counterclockwise corners)
    (rotated : corners.IsRotated turned) : Counterclockwise turned := by
  obtain ⟨n, rfl⟩ := rotated
  rw [List.rotate_eq_drop_append_take_mod]
  rw [← List.take_append_drop (n % corners.length) corners] at winding
  exact winding.rotate

theorem Counterclockwise.of_sublist {part whole : List (K × K)} (winding : Counterclockwise whole)
    (listed : part.Sublist whole) : Counterclockwise part :=
  fun a b c chosen => winding a b c (chosen.trans listed)

/-- The edge that closes the polygon has the corners on its left. -/
theorem Counterclockwise.closing_left {first last : K × K} {middle : List (K × K)}
    (winding : Counterclockwise (first :: (middle ++ [last]))) :
    ∀ corner ∈ first :: (middle ++ [last]), 0 ≤ cross last first corner := by
  intro corner member
  rcases List.mem_cons.mp member with rfl | member
  · exact le_of_eq (by rw [cross]; ring)
  rcases List.mem_append.mp member with between | ending
  · obtain ⟨before, after, rfl⟩ := List.append_of_mem between
    exact cross_rotate last first corner ▸ winding first corner last (by simp)
  · rw [List.mem_singleton.mp ending]
    simp [cross]

/-- Every further corner has its place among some of the corners. -/
theorem sublist_insert {α : Type*} {part whole : List α} {e : α} (listed : part.Sublist whole) (member : e ∈ whole) :
    e ∈ part ∨ ∃ before after, part = before ++ after ∧ (before ++ e :: after).Sublist whole := by
  induction listed with
  | slnil => cases member
  | cons other listed ih =>
    rcases List.mem_cons.mp member with rfl | member
    · exact .inr ⟨[], _, rfl, listed.cons_cons _⟩
    · rcases ih member with held | ⟨before, after, parts, longer⟩
      · exact .inl held
      · exact .inr ⟨before, after, parts, longer.cons _⟩
  | cons_cons other listed ih =>
    rcases List.mem_cons.mp member with rfl | member
    · exact .inl List.mem_cons_self
    · rcases ih member with held | ⟨before, after, rfl, longer⟩
      · exact .inl (List.mem_cons_of_mem _ held)
      · exact .inr ⟨other :: before, after, rfl, longer.cons_cons _⟩

variable [IsStrictOrderedRing K]

/-- Four corners whose heights alternate about a level lie on one line. -/
theorem Counterclockwise.collinear_of_alternation {a b c d : K × K} {level : K} (quad : Counterclockwise [a, b, c, d])
    (ha : level < a.2) (hb : b.2 ≤ level) (hc : level < c.2) (hd : d.2 ≤ level) :
    cross a b c = 0 ∧ cross a b d = 0 := by
  have abc : 0 ≤ cross a b c := quad a b c (by simp)
  have abd : 0 ≤ cross a b d := quad a b d (by simp)
  have acd : 0 ≤ cross a c d := quad a c d (by simp)
  have bcd : 0 ≤ cross b c d := quad b c d (by simp)
  have weights := cross_weights a b c d level
  have low : cross a c d * (b.2 - level) + cross a b c * (d.2 - level) ≤ 0 :=
    add_nonpos (mul_nonpos_of_nonneg_of_nonpos acd (sub_nonpos.mpr hb))
      (mul_nonpos_of_nonneg_of_nonpos abc (sub_nonpos.mpr hd))
  have first := mul_nonneg bcd (sub_nonneg.mpr ha.le)
  have second := mul_nonneg abd (sub_nonneg.mpr hc.le)
  have bcd_zero : cross b c d = 0 :=
    (mul_eq_zero_iff_right (sub_pos.mpr ha).ne').mp (by linarith)
  have abd_zero : cross a b d = 0 :=
    (mul_eq_zero_iff_right (sub_pos.mpr hc).ne').mp (by linarith)
  have total : cross b c d + cross a b d = cross a c d + cross a b c := by
    simp only [cross]
    ring
  exact ⟨by linarith, abd_zero⟩

/-- On one line, a part that rises where another falls turns the other way. -/
private theorem turn_of_collinear {a b u v e : K × K} (falls : b.2 < a.2) (first : cross a b u = 0)
    (second : cross a b v = 0) (left : 0 ≤ cross u v e) : (v.2 - u.2) * cross a b e ≤ 0 := by
  rw [← cross_of_collinear first second]
  exact mul_nonpos_of_nonpos_of_nonneg (sub_nonpos.mpr falls.le) left

/-- If the heights of four corners alternate, no corner lies off their line. -/
theorem Counterclockwise.cross_of_alternation {corners : List (K × K)} {a b c d e : K × K} {level : K}
    (winding : Counterclockwise corners) (listed : [a, b, c, d].Sublist corners) (ha : level < a.2)
    (hb : b.2 ≤ level) (hc : level < c.2) (hd : d.2 ≤ level) (member : e ∈ corners) : cross a b e = 0 := by
  obtain ⟨abc, abd⟩ := (winding.of_sublist listed).collinear_of_alternation ha hb hc hd
  have falls : b.2 < a.2 := hb.trans_lt ha
  have aba : cross a b a = 0 := by simp [cross]
  have abb : cross a b b = 0 := by
    rw [cross]
    ring
  -- the two parts of the zigzag next to the further corner turn opposite ways
  have rising : 0 ≤ cross b c e → cross a b e ≤ 0 := fun left =>
    nonpos_of_mul_nonpos_right (turn_of_collinear falls abb abc left) (sub_pos.mpr (hb.trans_lt hc))
  have falling : 0 ≤ cross c d e → 0 ≤ cross a b e := fun left =>
    nonneg_of_mul_nonpos_right (turn_of_collinear falls abc abd left) (sub_neg.mpr (hd.trans_lt hc))
  have closing : 0 ≤ cross a e d → cross a b e ≤ 0 := fun left =>
    nonpos_of_mul_nonpos_right (turn_of_collinear falls abd aba (cross_rotate d a e ▸ left)) (sub_pos.mpr (hd.trans_lt ha))
  rcases sublist_insert listed member with held | ⟨before, after, parts, longer⟩
  · rcases List.mem_cons.mp held with rfl | held
    · exact aba
    rcases List.mem_cons.mp held with rfl | held
    · exact abb
    rcases List.mem_cons.mp held with rfl | held
    · exact abc
    · rw [List.mem_singleton.mp held]
      exact abd
  · have five := winding.of_sublist longer
    rcases before with _ | ⟨w, _ | ⟨x, _ | ⟨y, _ | ⟨z, before⟩⟩⟩⟩
    · cases parts
      exact le_antisymm (rising (cross_rotate e b c ▸ five e b c (by simp)))
        (cross_rotate e a b ▸ five e a b (by simp))
    · cases parts
      exact le_antisymm (rising (cross_rotate e b c ▸ five e b c (by simp)))
        (falling (cross_rotate e c d ▸ five e c d (by simp)))
    · cases parts
      exact le_antisymm (closing (five a e d (by simp))) (falling (cross_rotate e c d ▸ five e c d (by simp)))
    · cases parts
      exact le_antisymm (closing (five a e d (by simp))) (five a b e (by simp))
    · obtain ⟨rfl, rfl, rfl, rfl, rfl, rfl⟩ : a = w ∧ b = x ∧ c = y ∧ d = z ∧ before = [] ∧ after = [] := by
        simpa using parts
      exact le_antisymm (rising (five b c e (by simp))) (five a b e (by simp))

end Winding

section Convex
variable {K : Type*} [Field K] [LinearOrder K] [IsStrictOrderedRing K] [TopologicalSpace K] [OrderTopology K]
  {corners : List (K × K)} {p : K × K}

/-- A region with interior points does not lie on one line. -/
theorem exists_corner_off {a b : K × K} (distinct : a ≠ b) (inner : p ∈ interior (hull corners)) :
    ∃ corner ∈ corners, cross a b corner ≠ 0 := by
  by_contra none
  simp only [not_exists, not_and, not_not] at none
  have left := cross_pos_of_mem_interior (fun corner member => (none corner member).ge) distinct inner
  have right := cross_pos_of_mem_interior (fun corner member => by rw [cross_swap, none corner member, neg_zero])
    distinct.symm inner
  rw [cross_swap] at right
  linarith

theorem exists_first {α : Type*} (holds : α → Prop) [DecidablePred holds] {corners : List α}
    (some : ∃ corner ∈ corners, holds corner) :
    ∃ before corner after, corners = before ++ corner :: after ∧ (∀ other ∈ before, ¬ holds other) ∧ holds corner := by
  obtain ⟨corner, member, held⟩ := some
  cases found : corners.find? fun other => holds other with
  | none => exact absurd held (by simpa using List.find?_eq_none.mp found corner member)
  | some corner =>
    obtain ⟨held, before, after, parts, earlier⟩ := List.find?_eq_some_iff_append.mp found
    exact ⟨before, corner, after, parts, fun other member => by simpa using earlier other member, by simpa using held⟩

/-- Corners of two kinds can be listed from one of the first kind to one of the second. -/
theorem exists_rotation {α : Type*} (holds : α → Prop) [DecidablePred holds] {corners : List α}
    (some : ∃ corner ∈ corners, holds corner) (other : ∃ corner ∈ corners, ¬ holds corner) :
    ∃ head middle last, corners.IsRotated (head :: (middle ++ [last])) ∧ holds head ∧ ¬ holds last := by
  obtain ⟨low, member, failing⟩ := other
  obtain ⟨front, back, rfl⟩ := List.append_of_mem member
  have held : ∃ corner ∈ back ++ front, holds corner := by
    obtain ⟨corner, member, held⟩ := some
    have apart : corner ≠ low := fun same => failing (same ▸ held)
    exact ⟨corner, by simpa [apart, or_comm] using member, held⟩
  obtain ⟨lead, head, rest, parts, earlier, held⟩ := exists_first holds held
  have turned : (front ++ low :: back).IsRotated (head :: (rest ++ low :: lead)) := by
    have first : (front ++ low :: back).IsRotated (low :: (back ++ front)) := by
      have around : (front ++ low :: back).IsRotated (low :: back ++ front) := List.isRotated_append
      simpa using around
    refine first.trans ?_
    rw [parts]
    have around : (low :: lead ++ head :: rest).IsRotated (head :: rest ++ low :: lead) := List.isRotated_append
    simpa using around
  rcases List.eq_nil_or_concat (low :: lead) with empty | ⟨tail, last, ends⟩
  · cases empty
  · rw [List.concat_eq_append] at ends
    have final : last ∈ low :: lead := by simp [ends]
    refine ⟨head, rest ++ tail, last, ?_, held, ?_⟩
    · rwa [List.append_assoc, ← ends]
    · rcases List.mem_cons.mp final with rfl | member
      · exact failing
      · exact earlier last member

/-- Seen from an interior point, a convex polygon has one run of corners above and one
run at its height or below. -/
theorem Counterclockwise.exists_halves (winding : Counterclockwise corners) (inner : p ∈ interior (hull corners)) :
    ∃ upper lower, corners.IsRotated (upper ++ lower) ∧ upper ≠ [] ∧ lower ≠ [] ∧
      (∀ corner ∈ upper, p.2 < corner.2) ∧ ∀ corner ∈ lower, corner.2 ≤ p.2 := by
  have below : ∃ corner ∈ corners, ¬ p.2 < corner.2 :=
    (exists_below inner).imp fun corner low => ⟨low.1, low.2.not_gt⟩
  obtain ⟨head, middle, last, turned, head_above, last_below⟩ :=
    exists_rotation (fun corner : K × K => p.2 < corner.2) (exists_above inner) below
  obtain ⟨upper, next, later, split, upper_above, next_below⟩ :=
    exists_first (fun corner : K × K => ¬ p.2 < corner.2) ⟨last, List.mem_append_right middle List.mem_cons_self, last_below⟩
  have wound := winding.of_isRotated turned
  rw [hull_congr fun corner => turned.mem_iff] at inner
  rw [split] at wound inner turned
  refine ⟨head :: upper, next :: later, turned, List.cons_ne_nil _ _, List.cons_ne_nil _ _, ?_, ?_⟩
  · intro corner member
    rcases List.mem_cons.mp member with rfl | member
    · exact head_above
    · exact not_not.mp (upper_above corner member)
  · intro corner member
    rcases List.mem_cons.mp member with rfl | member
    · exact not_lt.mp next_below
    by_contra above
    -- the list ends below, so a second rise makes the heights alternate
    obtain ⟨before, after, rfl⟩ := List.append_of_mem member
    rcases List.eq_nil_or_concat after with rfl | ⟨after, final, rfl⟩
    · have ends : middle ++ [last] = (upper ++ next :: before) ++ [corner] := by simpa using split
      obtain rfl : last = corner := List.singleton_injective (List.append_inj_right' ends rfl)
      exact last_below (not_le.mp above)
    · have ends : middle ++ [last] = (upper ++ next :: (before ++ corner :: after)) ++ [final] := by simpa using split
      obtain rfl : last = final := List.singleton_injective (List.append_inj_right' ends rfl)
      have alternating : [head, next, corner, last].Sublist
          (head :: (upper ++ next :: (before ++ corner :: after.concat last))) := by simp
      have apart : head ≠ next := fun same => next_below (same ▸ head_above)
      obtain ⟨off, present, turn⟩ := exists_corner_off apart inner
      exact turn (wound.cross_of_alternation alternating head_above (not_lt.mp next_below) (not_le.mp above)
        (not_lt.mp last_below) present)

/-- The edge that closes the polygon meets the ray from an interior point if it rises. -/
theorem Counterclockwise.crosses_closing {first last : K × K} {middle : List (K × K)}
    (winding : Counterclockwise (first :: (middle ++ [last]))) (inner : p ∈ interior (hull (first :: (middle ++ [last]))))
    (rises : Rises p last first) : Crosses p (last, first) := by
  have apart : last ≠ first := fun same => rises.slanted (congrArg Prod.snd same)
  exact ⟨.inl rises, rises.left_iff.mpr (cross_pos_of_mem_interior winding.closing_left apart inner)⟩

/-- It misses the ray if it falls. -/
theorem Counterclockwise.not_crosses_closing {first last : K × K} {middle : List (K × K)}
    (winding : Counterclockwise (first :: (middle ++ [last]))) (inner : p ∈ interior (hull (first :: (middle ++ [last]))))
    (rises : Rises p first last) : ¬ Crosses p (last, first) := by
  have apart : last ≠ first := fun same => rises.slanted (congrArg Prod.snd same.symm)
  have left := cross_pos_of_mem_interior winding.closing_left apart inner
  rintro ⟨-, met⟩
  rw [abscissa_swap rises.slanted.symm, rises.left_iff, cross_swap] at met
  linarith

/-- The ray from an interior point leaves a convex polygon once. -/
theorem Counterclockwise.inside_of_mem_interior (winding : Counterclockwise corners)
    (inner : p ∈ interior (hull corners)) : Inside p corners := by
  obtain ⟨upper, lower, turned, some, others, above, below⟩ := winding.exists_halves inner
  have wound := winding.of_isRotated turned
  rw [← inside_of_isRotated turned]
  rw [hull_congr fun corner => turned.mem_iff] at inner
  have back : p ∈ interior (hull (lower ++ upper)) := by
    have around : (lower ++ upper).IsRotated (upper ++ lower) := List.isRotated_append
    rwa [hull_congr fun corner => around.mem_iff]
  obtain ⟨head, rest, heads⟩ := List.exists_cons_of_ne_nil some
  obtain ⟨next, later, nexts⟩ := List.exists_cons_of_ne_nil others
  obtain ⟨front, corner, corners⟩ := (List.eq_nil_or_concat upper).resolve_left some
  obtain ⟨tail, last, lasts⟩ := (List.eq_nil_or_concat lower).resolve_left others
  rw [List.concat_eq_append] at corners lasts
  have rising : Crosses p (last, head) := by
    have closing : upper ++ lower = head :: ((rest ++ tail) ++ [last]) := by
      rw [heads, lasts]
      simp
    rw [closing] at wound inner
    exact wound.crosses_closing inner ⟨below last (by simp [lasts]), above head (by simp [heads])⟩
  have falling : ¬ Crosses p (corner, next) := by
    have closing : lower ++ upper = next :: ((later ++ front) ++ [corner]) := by
      rw [nexts, corners]
      simp
    have wound := wound.rotate
    rw [closing] at wound back
    exact wound.not_crosses_closing back ⟨below next (by simp [nexts]), above corner (by simp [corners])⟩
  have steps : edges (upper ++ lower) = links (last :: upper) ++ links (corner :: lower) := by
    rw [corners, lasts, edges_append]
  have upper_level : (links upper).countP (fun edge => Crosses p edge) = 0 := countP_links_of_level
    fun first member second present => iff_of_true (above first member) (above second present)
  have lower_level : (links lower).countP (fun edge => Crosses p edge) = 0 := countP_links_of_level
    fun first member second present => iff_of_false (below first member).not_gt (below second present).not_gt
  rw [Inside, steps, List.countP_append]
  rw [heads] at upper_level ⊢
  rw [nexts] at lower_level ⊢
  rw [links_cons_cons, links_cons_cons, List.countP_cons, List.countP_cons, upper_level, lower_level]
  simp [rising, falling]

/-- Corners listed so that the region keeps to one side of the way round. -/
def ConvexPolygon (corners : List (K × K)) : Prop := Counterclockwise corners ∨ Counterclockwise corners.reverse

theorem ConvexPolygon.inside_of_mem_interior (convex : ConvexPolygon corners) (inner : p ∈ interior (hull corners)) :
    Inside p corners := by
  rcases convex with winding | winding
  · exact winding.inside_of_mem_interior inner
  · rw [hull_congr fun corner => List.mem_reverse.symm] at inner
    exact inside_reverse.mp (winding.inside_of_mem_interior inner)

end Convex
end Ironsight.ConvexPolygons
