import Mathlib.Analysis.Convex.Combination
import Mathlib.Analysis.Normed.Field.Lemmas
import Ironsight.ConvexPolygons

/-! The two tests whether a point lies in a zone: the compliance engine's, which decides
about alarms, and the zone editor's, which finds the zone under a click. Numbers are
rationals, and a division by zero ends a test without an answer. -/
namespace Ironsight.PolygonTest
open RayCrossing ConvexPolygons

/-- A vertex, with exact coordinates. -/
structure Point where
  x : ℚ
  y : ℚ
  deriving DecidableEq

def Point.pos (point : Point) : ℚ × ℚ := (point.x, point.y)

def quotient (numerator denominator : ℚ) : Option ℚ :=
  if denominator = 0 then none else some (numerator / denominator)

namespace Engine

/-- The loop body: `j` and `inside` as they come to corner `i`. -/
def turn (px py : ℚ) (polygon : List Point) (state : Nat × Bool) (i : Nat) : Option (Nat × Bool) := do
  let (j, inside) := state
  let current ← polygon[i]?
  let previous ← polygon[j]?
  let (xi, yi) := (current.x, current.y)
  let (xj, yj) := (previous.x, previous.y)
  let intersect ← (
    if decide (yi > py) != decide (yj > py) then
      (quotient ((xj - xi) * (py - yi)) (yj - yi)).map fun along => decide (px < along + xi)
    else some false)
  return (i, if intersect then !inside else inside)

/-- `pointInPolygon` of the engine. -/
def pointInPolygon (px py : ℚ) (polygon : List Point) : Option Bool :=
  let n := polygon.length
  ((List.range n).foldlM (turn px py polygon) (n - 1, false)).map Prod.snd

end Engine

namespace Editor

/-- The `for` loop from corner `i` on, `j` being the corner before. -/
def loop (x y : ℚ) (polygon : List Point) (i j : Nat) (inside : Bool) : Option Bool :=
  if i < polygon.length then do
    let current ← polygon[i]?
    let previous ← polygon[j]?
    let (xi, yi) := (current.x, current.y)
    let (xj, yj) := (previous.x, previous.y)
    let intersect ← (
      if decide (yi > y) != decide (yj > y) then
        (quotient ((xj - xi) * (y - yi)) (yj - yi)).map fun along => decide (x < along + xi)
      else some false)
    loop x y polygon (i + 1) i (if intersect then !inside else inside)
  else some inside
termination_by polygon.length - i

/-- `pointInPolygon` of the editor. -/
def pointInPolygon (x y : ℚ) (polygon : List Point) : Option Bool := loop x y polygon 0 (polygon.length - 1) false

end Editor

/-! ## The loops -/

/-- What both loop bodies compute for an edge: no division by zero, and whether the edge
meets the ray. -/
theorem intersect_exact (p current previous : Point) :
    (if decide (current.y > p.y) != decide (previous.y > p.y) then
      (quotient ((previous.x - current.x) * (p.y - current.y)) (previous.y - current.y)).map fun along =>
        decide (p.x < along + current.x)
    else some false) = some (decide (Crosses p.pos (previous.pos, current.pos))) := by
  have turned : Crosses p.pos (previous.pos, current.pos) ↔ Crosses p.pos (current.pos, previous.pos) := by
    rw [← crosses_swap, Prod.swap_prod_mk]
  have sides : (decide (current.y > p.y) != decide (previous.y > p.y)) = true ↔
      Rises p.pos current.pos previous.pos ∨ Rises p.pos previous.pos current.pos := by
    rw [← passes_iff, bne_iff_ne, ne_eq, decide_eq_decide]
    rfl
  simp only [turned]
  by_cases passes : Rises p.pos current.pos previous.pos ∨ Rises p.pos previous.pos current.pos
  · have slanted : previous.y - current.y ≠ 0 :=
      sub_ne_zero.mpr (passes.elim (·.slanted.symm) (·.slanted))
    rw [if_pos (sides.mpr passes), quotient, if_neg slanted, Option.map_some, Option.some_inj, decide_eq_decide]
    exact (and_iff_right passes).symm
  · rw [if_neg (mt sides.mp passes), Option.some_inj, eq_comm, decide_eq_false_iff_not]
    exact fun crosses => passes crosses.1

/-- The parity of the crossings along a path, begun with `inside`. -/
def along (p : Point) (path : List Point) (inside : Bool) : Bool :=
  inside ^^ decide (Odd ((links (path.map Point.pos)).countP fun edge => Crosses p.pos edge))

theorem along_cons (p previous current : Point) (rest : List Point) (inside : Bool) :
    along p (current :: rest) (if decide (Crosses p.pos (previous.pos, current.pos)) then !inside else inside) =
      along p (previous :: current :: rest) inside := by
  rw [along, along, List.map_cons, List.map_cons, List.map_cons, links_cons_cons, List.countP_cons]
  by_cases crosses : Crosses p.pos (previous.pos, current.pos)
  · simp only [crosses, decide_true, if_true, Nat.odd_add_one, decide_not, Bool.not_xor, Bool.xor_not]
  · simp [crosses]

theorem Engine.turn_exact {p : Point} {polygon : List Point} {i j : Nat} {current previous : Point} (inside : Bool)
    (this : polygon[i]? = some current) (before : polygon[j]? = some previous) :
    turn p.x p.y polygon (j, inside) i =
      some (i, if decide (Crosses p.pos (previous.pos, current.pos)) then !inside else inside) := by
  simp only [turn, this, before, Option.bind_eq_bind, Option.bind_some, intersect_exact]
  rfl

theorem Engine.turns_exact {p : Point} {polygon : List Point} (m : Nat) {i j : Nat} {previous : Point} {inside : Bool}
    (left : i + m = polygon.length) (before : polygon[j]? = some previous) :
    ((List.range' i m).foldlM (turn p.x p.y polygon) (j, inside)).map Prod.snd =
      some (along p (previous :: polygon.drop i) inside) := by
  induction m generalizing i j previous inside with
  | zero =>
    rw [List.drop_eq_nil_of_le (by omega)]
    simp [along, links]
  | succ m ih =>
    have bound : i < polygon.length := by omega
    have this := List.getElem?_eq_getElem bound
    rw [List.range'_succ, List.foldlM_cons, turn_exact inside this before, List.drop_eq_getElem_cons bound,
      ← along_cons]
    exact ih (by omega) this

theorem Editor.loop_exact {p : Point} {polygon : List Point} (m : Nat) {i j : Nat} {previous : Point} {inside : Bool}
    (left : i + m = polygon.length) (before : polygon[j]? = some previous) :
    loop p.x p.y polygon i j inside = some (along p (previous :: polygon.drop i) inside) := by
  induction m generalizing i j previous inside with
  | zero =>
    rw [loop, if_neg (by omega), List.drop_eq_nil_of_le (by omega)]
    simp [along, links]
  | succ m ih =>
    have bound : i < polygon.length := by omega
    have this := List.getElem?_eq_getElem bound
    rw [loop, if_pos bound, List.drop_eq_getElem_cons bound, ← along_cons]
    simp only [this, before, Option.bind_eq_bind, Option.bind_some, intersect_exact]
    exact ih (by omega) this

/-- Round the whole polygon the loops start from its last corner. -/
theorem along_edges (p last : Point) (front : List Point) :
    along p (last :: (front ++ [last])) false = decide (Inside p.pos ((front ++ [last]).map Point.pos)) := by
  rw [along, Bool.false_xor, decide_eq_decide, Inside, List.map_cons, List.map_append, List.map_singleton, edges_concat]

theorem Engine.pointInPolygon_exact (p : Point) (polygon : List Point) :
    pointInPolygon p.x p.y polygon = some (decide (Inside p.pos (polygon.map Point.pos))) := by
  rcases List.eq_nil_or_concat polygon with rfl | ⟨front, last, rfl⟩
  · rfl
  · rw [List.concat_eq_append, ← along_edges, pointInPolygon, List.range_eq_range']
    exact turns_exact _ (Nat.zero_add _) (by simp)

theorem Editor.pointInPolygon_exact (p : Point) (polygon : List Point) :
    pointInPolygon p.x p.y polygon = some (decide (Inside p.pos (polygon.map Point.pos))) := by
  rcases List.eq_nil_or_concat polygon with rfl | ⟨front, last, rfl⟩
  · rw [pointInPolygon, loop]
    rfl
  · rw [List.concat_eq_append, ← along_edges, pointInPolygon]
    exact loop_exact (front ++ [last]).length (Nat.zero_add _) (by simp)

/-! ## The tests -/

/-- The closed region of a zone. -/
def region (polygon : List Point) : Set (ℚ × ℚ) := hull (polygon.map Point.pos)

/-- No three corners, in the order of the list or else in its reverse, turn to the right. -/
def Convex (polygon : List Point) : Prop := ConvexPolygon (polygon.map Point.pos)

/-- Both tests answer the same for every point and polygon, whichever corner the list
begins with and whichever way it goes round; for a convex polygon the answer is yes inside
and no outside. -/
theorem pointInPolygon_correct :
    (∀ (point : Point) (polygon : List Point), ∃ answer,
      Engine.pointInPolygon point.x point.y polygon = some answer ∧
      Editor.pointInPolygon point.x point.y polygon = some answer ∧
      (∀ turned, polygon.IsRotated turned → Engine.pointInPolygon point.x point.y turned = some answer) ∧
      Engine.pointInPolygon point.x point.y polygon.reverse = some answer) ∧
    ∀ polygon, Convex polygon → ∀ point : Point,
      (point.pos ∈ interior (region polygon) → Engine.pointInPolygon point.x point.y polygon = some true) ∧
      (point.pos ∉ region polygon → Engine.pointInPolygon point.x point.y polygon = some false) := by
  simp only [Engine.pointInPolygon_exact, Editor.pointInPolygon_exact, Option.some_inj]
  constructor
  · intro point polygon
    refine ⟨_, rfl, rfl, fun turned rotated => ?_, ?_⟩
    · exact decide_eq_decide.mpr (inside_of_isRotated (rotated.map Point.pos))
    · rw [List.map_reverse]
      exact decide_eq_decide.mpr inside_reverse
  · intro polygon convex point
    constructor
    · intro inner
      exact decide_eq_true (convex.inside_of_mem_interior inner)
    · intro outside
      exact decide_eq_false (not_inside_of_not_mem_hull outside)

/-- A triangle, clockwise, a point in it and a point beyond its long side. -/
theorem pointInPolygon_triangle :
    Engine.pointInPolygon 1 1 [⟨0, 4⟩, ⟨4, 0⟩, ⟨0, 0⟩] = some true ∧
      Engine.pointInPolygon 3 3 [⟨0, 4⟩, ⟨4, 0⟩, ⟨0, 0⟩] = some false := by
  have convex : Convex [⟨0, 4⟩, ⟨4, 0⟩, ⟨0, 0⟩] := by
    refine .inr fun a b c listed => ?_
    obtain ⟨rfl, rfl, rfl⟩ : a = (0, 0) ∧ b = (4, 0) ∧ c = (0, 4) := by
      simpa [Point.pos] using listed.eq_of_length rfl
    norm_num [cross]
  have inner : (Point.mk 1 1).pos ∈ interior (region [⟨0, 4⟩, ⟨4, 0⟩, ⟨0, 0⟩]) := by
    refine mem_interior.mpr ⟨{q | 0 < q.1 ∧ 0 < q.2 ∧ q.1 + q.2 < 4}, ?_, ?_, by norm_num [Point.pos]⟩
    · rintro ⟨x, y⟩ ⟨right, up, near⟩
      have mixed : (x, y) = ∑ i : Fin 3, ![y / 4, x / 4, 1 - (x + y) / 4] i • ![((0, 4) : ℚ × ℚ), (4, 0), (0, 0)] i := by
        simp [Fin.sum_univ_three]
      rw [mixed]
      refine (convex_convexHull ℚ _).sum_mem (fun i _ => ?_) ?_ fun i _ => mem_hull_of_mem ?_
      · fin_cases i <;> simp <;> linarith
      · simp [Fin.sum_univ_three]
        ring
      · fin_cases i <;> simp [Point.pos]
    · exact (isOpen_lt continuous_const continuous_fst).inter
        ((isOpen_lt continuous_const continuous_snd).inter
          (isOpen_lt (continuous_fst.add continuous_snd) continuous_const))
  have outside : (Point.mk 3 3).pos ∉ region [⟨0, 4⟩, ⟨4, 0⟩, ⟨0, 0⟩] := fun member => by
    have left := cross_nonneg_of_mem_hull (a := (4, 0)) (b := (0, 4)) (by norm_num [Point.pos, cross]) member
    norm_num [Point.pos, cross] at left
  exact ⟨(pointInPolygon_correct.2 _ convex ⟨1, 1⟩).1 inner, (pointInPolygon_correct.2 _ convex ⟨3, 3⟩).2 outside⟩

end Ironsight.PolygonTest
