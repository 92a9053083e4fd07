import Ironsight.Binary64
import Ironsight.VcaPull

/-! A coordinate of a VCA rule there and back, in doubles: the push writes it on a grid of
ten thousand, the pull reads the number on a grid of a thousand, and the comparison allows
for a tolerance. Each operation rounds. -/
namespace Ironsight.VcaCoordinates
open Binary64 VcaPush VcaPull

/-! ## The operations -/

/-- `v * 10000`, rounded. -/
instance doubleScale : GridScale Double := ⟨fun v => (v.mul (.ofRat 10000)).value⟩

/-- Differences are rounded, and the tolerance is the double nearest to two hundredths. -/
instance doubleCoordinate : Coordinate Double where
  ofBits bits := .ofRat (PpeWorker.double bits)
  sub := Double.sub
  less x y := x.value < y.value
  tolerance := .ofRat 0.02
  self_close x := by
    have same : (Double.sub x x).value = 0 := by
      change nearest (x.value - x.value) = 0
      rw [sub_self, nearest_zero]
    have tolerance : (0 : ℤ) ≤ (Double.ofRat 0.02).value := int_le_nearest (by norm_num) (by norm_num)
    rw [same, decide_eq_false_iff_not, not_lt]
    exact_mod_cast tolerance

def milesightPolygonGrid : Double := .ofRat 1000

/-- A slot on the unit square, cut off at its edge. -/
def normalise (slot : Int) : Double :=
  let x := (Double.ofRat slot).div milesightPolygonGrid
  if (Double.ofRat 1).value < x.value then .ofRat 1 else x

/-- The coordinates that come back: from the corner, where ten times as much is still within
the tolerance, and from the far edge, where everything is cut off. Both are compared as doubles. -/
def AtCornerOrEdge (v : Double) : Prop := v.value < (Double.ofRat 0.0023).value ∨ (Double.ofRat 0.98).value < v.value

/-! ## Literals -/

theorem value_tolerance : (Double.ofRat 0.02).value = 5764607523034235 / 2 ^ 58 := by
  have near := nearest_eq (x := 0.02) (k := -6) (m := 5764607523034235) (by norm_num) (by norm_num [abs_of_pos])
    (by norm_num [abs_of_pos]) (by norm_num [abs_lt])
  rw [Double.value_ofRat, near]
  norm_num

theorem value_edge : (Double.ofRat 0.98).value = 8827055269646172 / 2 ^ 53 := by
  have near := nearest_eq (x := 0.98) (k := -1) (m := 8827055269646172) (by norm_num) (by norm_num [abs_of_pos])
    (by norm_num [abs_of_pos]) (by norm_num [abs_lt])
  rw [Double.value_ofRat, near]
  norm_num

theorem value_corner : (Double.ofRat 0.0023).value = 5303438921191496 / 2 ^ 61 := by
  have near := nearest_eq (x := 0.0023) (k := -9) (m := 5303438921191496) (by norm_num) (by norm_num [abs_of_pos])
    (by norm_num [abs_of_pos]) (by norm_num [abs_lt])
  rw [Double.value_ofRat, near]
  norm_num

section Coordinate
variable {v : Double}

/-! ## There -/

theorem scaled_eq (v : Double) : scaled v = nearest (v.value * 10000) := by
  have whole : (Double.ofRat 10000).value = 10000 := by exact_mod_cast Double.ofRat_intCast (n := 10000) (by norm_num)
  change nearest (v.value * (Double.ofRat 10000).value) = _
  rw [whole]

theorem scaled_error (square : 0 ≤ v.value ∧ v.value ≤ 1) : |scaled v - v.value * 10000| ≤ 1 / 2 ^ 40 := by
  have small : |v.value * 10000| < 2 ^ (13 + 1 : ℤ) := by
    rw [abs_of_nonneg (by linarith [square.1])]
    norm_num
    linarith [square.2]
  rw [scaled_eq]
  exact (nearest_error (by norm_num) small).trans (by norm_num)

theorem small_product (square : 0 ≤ v.value ∧ v.value ≤ 1) : |v.value * 10000| < 2 ^ (53 : ℤ) := by
  rw [abs_of_nonneg (by linarith [square.1])]
  norm_num
  linarith [square.2]

theorem int_scaled_eq (square : 0 ≤ v.value ∧ v.value ≤ 1) : int (scaled v) = ⌊scaled v⌋ := by
  have nonneg : ((0 : ℤ) : ℚ) ≤ scaled v := by
    rw [scaled_eq]
    exact int_le_nearest (small_product square) (by push_cast; linarith [square.1])
  exact (int_eq_floor _).mpr (.inl (by exact_mod_cast nonneg))

/-- What the push writes is on the grid, and at most one number too high or low. -/
theorem int_scaled_bounds (square : 0 ≤ v.value ∧ v.value ≤ 1) :
    (0 ≤ int (scaled v) ∧ int (scaled v) ≤ 10000) ∧
      (int (scaled v) : ℚ) ≤ v.value * 10000 + 1 / 2 ^ 40 ∧ v.value * 10000 < int (scaled v) + 1 := by
  have small := small_product square
  have nonneg : ((0 : ℤ) : ℚ) ≤ scaled v := by
    rw [scaled_eq]
    exact int_le_nearest small (by push_cast; linarith [square.1])
  have most : scaled v ≤ (10000 : ℤ) := by
    rw [scaled_eq]
    exact nearest_le_int small (by push_cast; linarith [square.2])
  rw [int_scaled_eq square]
  obtain ⟨-, above⟩ := abs_le.mp (scaled_error square)
  refine ⟨⟨Int.le_floor.mpr nonneg, by exact_mod_cast (Int.floor_le _).trans most⟩, ?_, ?_⟩
  · linarith [Int.floor_le (scaled v)]
  · -- A coordinate at the next number would have been written as that number.
    by_contra beyond
    have next : ((⌊scaled v⌋ + 1 : ℤ) : ℚ) ≤ scaled v := by
      conv_rhs => rw [scaled_eq]
      exact int_le_nearest small (by push_cast; linarith)
    have floor := Int.lt_floor_add_one (scaled v)
    push_cast at next
    linarith

/-- The product is less than twenty-three below the double `0.0023`, whose product is rounded up to it. -/
theorem scaled_lt (square : 0 ≤ v.value ∧ v.value ≤ 1) : scaled v < 23 ↔ v.value < (Double.ofRat 0.0023).value := by
  rw [scaled_eq, value_corner]
  have product : 0 ≤ v.value * 10000 := by linarith [square.1]
  by_cases low : v.value * 10000 < 16
  · have below := nearest_le_int (n := 16) (small_product square) (by push_cast; exact low.le)
    push_cast at below
    exact iff_of_true (by linarith) (by linarith)
  by_cases high : 32 ≤ v.value * 10000
  · have above := int_le_nearest (n := 32) (small_product square) (by push_cast; exact high)
    push_cast at above
    exact iff_of_false (by linarith) (by linarith)
  have binade : |v.value * 10000| < 2 ^ (4 + 1 : ℤ) := by
    rw [abs_of_nonneg product]
    norm_num
    linarith
  obtain ⟨below, above⟩ := abs_le.mp (nearest_error (by norm_num) binade)
  norm_num at below above
  constructor
  · -- A product less than twenty-three is a last place below it, further than this one is.
    intro less
    by_contra beyond
    have whole : (Double.ofRat 23).value = 23 := by exact_mod_cast Double.ofRat_intCast (n := 23) (by norm_num)
    have apart := Double.add_le_of_lt (x := .ofRat (v.value * 10000)) (y := .ofRat 23) (k := -48)
      (by rw [Double.value_ofRat]; norm_num; linarith) (by rwa [whole, Double.value_ofRat])
    rw [whole, Double.value_ofRat] at apart
    norm_num at apart
    linarith
  · -- So is a coordinate below this one, and ten thousand times that is more than a rounding.
    intro less
    have corner := value_corner
    have apart := Double.add_le_of_lt (x := v) (y := .ofRat 0.0023) (k := -62) (by norm_num; linarith) (by rwa [corner])
    rw [corner] at apart
    norm_num at apart
    linarith

/-! ## Back -/

theorem quotient_eq {n : ℤ} (nonneg : 0 ≤ n) (most : n ≤ 10000) :
    ((Double.ofRat n).div milesightPolygonGrid).value = nearest (n / 1000) := by
  have slot : (Double.ofRat n).value = n := Double.ofRat_intCast (abs_le.mpr ⟨by linarith, by linarith⟩)
  have grid : milesightPolygonGrid.value = 1000 := by exact_mod_cast Double.ofRat_intCast (n := 1000) (by norm_num)
  change nearest ((Double.ofRat n).value / milesightPolygonGrid.value) = _
  rw [slot, grid]

theorem value_one : (Double.ofRat 1).value = 1 := by exact_mod_cast Double.ofRat_intCast (n := 1) (by norm_num)

theorem normalise_error {n : ℤ} (nonneg : 0 ≤ n) (few : n ≤ 1000) : |(normalise n).value - n / 1000| ≤ 1 / 2 ^ 53 := by
  have nonneg' : (0 : ℚ) ≤ n := by exact_mod_cast nonneg
  have few' : (n : ℚ) ≤ 1000 := by exact_mod_cast few
  have size : |(n / 1000 : ℚ)| ≤ 1 := by
    rw [abs_of_nonneg (by positivity)]
    linarith
  have inside : nearest (n / 1000) ≤ (1 : ℤ) :=
    nearest_le_int (lt_of_le_of_lt size (by norm_num)) (by push_cast; exact (le_abs_self _).trans size)
  have error := nearest_error (x := n / 1000) (k := 0) (by norm_num) (lt_of_le_of_lt size (by norm_num))
  rw [normalise, value_one, quotient_eq nonneg (by omega), if_neg (by exact_mod_cast not_lt.mpr inside), quotient_eq nonneg (by omega)]
  exact error.trans (by norm_num)

theorem normalise_beyond {n : ℤ} (many : 1000 < n) (most : n ≤ 10000) : (normalise n).value = 1 := by
  have many' : (1001 : ℚ) ≤ n := by exact_mod_cast many
  have most' : (n : ℚ) ≤ 10000 := by exact_mod_cast most
  have small : |(n / 1000 : ℚ)| < 2 ^ (3 + 1 : ℤ) := by
    rw [abs_of_nonneg (by positivity)]
    norm_num
    linarith
  obtain ⟨below, -⟩ := abs_le.mp (nearest_error (by norm_num) small)
  norm_num at below
  rw [normalise, value_one, quotient_eq (by omega) most, if_pos (by linarith), value_one]

/-! ## The tolerance -/

/-- The comparison sees the rounded distance. -/
theorem apart_iff (a b : Double) : apart a b = true ↔ (Double.ofRat 0.02).value < nearest |a.value - b.value| := by
  have less (x y : Double) : Coordinate.less x y = decide (x.value < y.value) := rfl
  have distance : (absDelta a b).value = nearest |a.value - b.value| := by
    rw [absDelta, less]
    by_cases above : b.value < a.value
    · rw [if_pos (by simpa using above), abs_of_pos (by linarith)]
      rfl
    · rw [if_neg (by simpa using above), abs_of_nonpos (by linarith), neg_sub]
      rfl
  rw [apart, less, distance, decide_eq_true_iff]
  rfl

theorem not_apart_of_le {a b : Double} (near : |a.value - b.value| ≤ 199 / 10000) : apart a b = false := by
  rw [← Bool.not_eq_true, apart_iff, value_tolerance, not_lt]
  have small : |(|a.value - b.value|)| < 2 ^ (0 + 1 : ℤ) := by
    rw [abs_abs]
    norm_num
    linarith
  obtain ⟨-, above⟩ := abs_le.mp (nearest_error (by norm_num) small)
  norm_num at above
  linarith

theorem apart_of_le {a b : Double} (far : 201 / 10000 ≤ |a.value - b.value|) (most : |a.value - b.value| ≤ 1) :
    apart a b = true := by
  rw [apart_iff, value_tolerance]
  have small : |(|a.value - b.value|)| < 2 ^ (0 + 1 : ℤ) := by
    rw [abs_abs]
    norm_num
    linarith
  obtain ⟨below, -⟩ := abs_le.mp (nearest_error (by norm_num) small)
  norm_num at below
  linarith

/-- At the far edge the double `0.98` itself is still too far away. -/
theorem apart_edge (square : 0 ≤ v.value ∧ v.value ≤ 1) {edge : Double} (one : edge.value = 1) :
    apart v edge = false ↔ (Double.ofRat 0.98).value < v.value := by
  have distance : |v.value - edge.value| = 1 - v.value := by
    rw [one, abs_of_nonpos (by linarith [square.2]), neg_sub]
  by_cases near : v.value ≤ 31 / 32
  · have far := apart_of_le (by rw [distance]; linarith) (by rw [distance]; linarith [square.1])
    rw [far, value_edge]
    exact iff_of_false (by decide) (by linarith)
  have binade : |1 - v.value| < 2 ^ (-6 + 1 : ℤ) := by
    rw [abs_of_nonneg (by linarith [square.2])]
    norm_num
    linarith
  obtain ⟨below, above⟩ := abs_le.mp (nearest_error (by norm_num) binade)
  norm_num at below above
  rw [← Bool.not_eq_true, apart_iff, distance, value_tolerance, not_lt]
  constructor
  · intro close
    by_contra before
    rw [value_edge] at before
    linarith
  · intro behind
    have edge_eq := value_edge
    have apart := Double.add_le_of_lt (x := .ofRat 0.98) (y := v) (k := -53) (by rw [edge_eq]; norm_num) behind
    rw [edge_eq] at apart
    norm_num at apart
    linarith

/-- A coordinate comes back ten times as large, cut off at the edge. -/
theorem apart_normalise (square : 0 ≤ v.value ∧ v.value ≤ 1) :
    apart v (normalise (int (scaled v))) = false ↔ AtCornerOrEdge v := by
  obtain ⟨⟨nonneg, most⟩, above, below⟩ := int_scaled_bounds square
  have corner : int (scaled v) < 23 ↔ v.value < (Double.ofRat 0.0023).value := by
    rw [int_scaled_eq square, Int.floor_lt, ← scaled_lt square]
    norm_num
  rw [AtCornerOrEdge, ← corner, value_edge]
  generalize int (scaled v) = n at *
  have nonneg' : (0 : ℚ) ≤ n := by exact_mod_cast nonneg
  by_cases many : 1000 < n
  · have many' : (1001 : ℚ) ≤ n := by exact_mod_cast many
    rw [apart_edge square (normalise_beyond many most), value_edge]
    exact ⟨.inr, fun either => either.resolve_left (by omega)⟩
  · obtain ⟨low, high⟩ := abs_le.mp (normalise_error nonneg (not_lt.mp many))
    have few' : (n : ℚ) ≤ 1000 := by exact_mod_cast not_lt.mp many
    by_cases few : n < 23
    · have few'' : (n : ℚ) ≤ 22 := by exact_mod_cast Int.lt_add_one_iff.mp few
      refine iff_of_true (not_apart_of_le (abs_le.mpr ⟨?_, ?_⟩)) (.inl few) <;> norm_num at * <;> linarith
    · have several : (23 : ℚ) ≤ n := by exact_mod_cast not_lt.mp few
      have far : apart v (normalise n) = true := by
        have order : v.value ≤ (normalise n).value := by norm_num at *; linarith
        have distance : |v.value - (normalise n).value| = (normalise n).value - v.value := by
          rw [abs_of_nonpos (by linarith), neg_sub]
        refine apart_of_le (by rw [distance]; norm_num at *; linarith) (by rw [distance]; norm_num at *; linarith [square.1])
      rw [far]
      exact iff_of_false (by decide) (by rintro (low | high) <;> norm_num at * <;> linarith)

end Coordinate

end Ironsight.VcaCoordinates
