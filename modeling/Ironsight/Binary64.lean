import Mathlib.Data.Int.Log
import Mathlib.Data.Rat.Floor
import Mathlib.Tactic.FieldSimp
import Mathlib.Tactic.Linarith
import Mathlib.Tactic.NormNum

/-! Doubles: the rationals that binary64 represents, and rounding to the nearest of them,
ties to even. There is no largest double here; a computation that stays below `2 ^ 1024`
does not tell the difference, and no zero with a sign. -/
namespace Ironsight.Binary64

/-! ## Whole numbers -/

/-- The nearest whole number, of two the even one. -/
def nearestEven (x : ℚ) : ℤ :=
  if x - ⌊x⌋ < 1 / 2 then ⌊x⌋
  else if 1 / 2 < x - ⌊x⌋ then ⌊x⌋ + 1
  else if ⌊x⌋ % 2 = 0 then ⌊x⌋
  else ⌊x⌋ + 1

theorem nearestEven_le {x : ℚ} {n : ℤ} (le : x ≤ n) : nearestEven x ≤ n := by
  have floor_le : ⌊x⌋ ≤ n := Int.floor_le_iff.mpr (by linarith)
  by_cases whole : ⌊x⌋ = n
  · have exactly : x - ⌊x⌋ < 1 / 2 := by
      rw [whole]
      linarith
    rw [nearestEven, if_pos exactly]
    exact floor_le
  · have below : ⌊x⌋ + 1 ≤ n := by omega
    rw [nearestEven]
    split_ifs <;> omega

theorem le_nearestEven {x : ℚ} {n : ℤ} (le : n ≤ x) : n ≤ nearestEven x := by
  have le_floor : n ≤ ⌊x⌋ := Int.le_floor.mpr le
  rw [nearestEven]
  split_ifs <;> omega

theorem nearestEven_intCast (n : ℤ) : nearestEven n = n :=
  le_antisymm (nearestEven_le le_rfl) (le_nearestEven le_rfl)

theorem nearestEven_eq {x : ℚ} {n : ℤ} (near : |x - n| < 1 / 2) : nearestEven x = n := by
  obtain ⟨low, high⟩ := abs_lt.mp near
  have floor : ⌊x⌋ = n ∨ ⌊x⌋ = n - 1 := by
    have below : ⌊x⌋ < n + 1 := Int.floor_lt.mpr (by push_cast; linarith)
    have above : n - 1 ≤ ⌊x⌋ := Int.le_floor.mpr (by push_cast; linarith)
    omega
  rw [nearestEven]
  obtain same | less := floor
  · rw [if_pos (by rw [same]; exact high), same]
  · have fraction : x - ⌊x⌋ > 1 / 2 := by rw [less]; push_cast; linarith
    rw [if_neg (by linarith), if_pos fraction, less, Int.sub_add_cancel]

theorem abs_nearestEven_sub (x : ℚ) : |nearestEven x - x| ≤ 1 / 2 := by
  have below := Int.floor_le x
  have above := Int.lt_floor_add_one x
  rw [nearestEven, abs_le]
  split_ifs <;> push_cast <;> constructor <;> linarith

/-! ## Rounding -/

/-- The exponent of the last place: fifty-two places behind the first, not below the least. -/
def exponent (x : ℚ) : ℤ := max (Int.log 2 |x| - 52) (-1074)

/-- The unit in the last place. -/
def ulp (x : ℚ) : ℚ := 2 ^ exponent x

/-- The double nearest to a rational. -/
def nearest (x : ℚ) : ℚ := nearestEven (x / ulp x) * ulp x

theorem ulp_pos (x : ℚ) : 0 < ulp x := zpow_pos (by norm_num) _

theorem exponent_le {x : ℚ} {k : ℤ} (nonzero : x ≠ 0) (normal : -1022 ≤ k) (small : |x| < 2 ^ (k + 1)) : exponent x ≤ k - 52 := by
  have log := (Int.lt_zpow_iff_log_lt (b := 2) (by norm_num) (abs_pos.mpr nonzero)).mp (by exact_mod_cast small)
  exact max_le (by omega) (by omega)

theorem le_exponent {x : ℚ} {k : ℤ} (large : 2 ^ k ≤ |x|) : k - 52 ≤ exponent x := by
  have pos : 0 < |x| := lt_of_lt_of_le (zpow_pos (by norm_num) k) large
  have log := (Int.zpow_le_iff_le_log (b := 2) (by norm_num) pos).mp (by exact_mod_cast large)
  exact le_max_of_le_left (by omega)

/-- Multiples of a power that is no smaller are multiples of the last place. -/
theorem multiple_of_le {e k : ℤ} (le : e ≤ k) (n : ℤ) : ∃ m : ℤ, (n : ℚ) * 2 ^ k = m * 2 ^ e := by
  refine ⟨n * 2 ^ (k - e).toNat, ?_⟩
  push_cast
  rw [← zpow_natCast, Int.toNat_of_nonneg (by omega), mul_assoc, ← zpow_add₀ (by norm_num), Int.sub_add_cancel]

theorem nearest_le_of_le {x : ℚ} {k n : ℤ} (coarse : exponent x ≤ k) (le : x ≤ n * 2 ^ k) : nearest x ≤ n * 2 ^ k := by
  obtain ⟨m, same⟩ := multiple_of_le coarse n
  rw [same] at le ⊢
  have whole := nearestEven_le ((div_le_iff₀ (ulp_pos x)).mpr le)
  exact mul_le_mul_of_nonneg_right (by exact_mod_cast whole) (ulp_pos x).le

theorem le_nearest_of_le {x : ℚ} {k n : ℤ} (coarse : exponent x ≤ k) (le : n * 2 ^ k ≤ x) : n * 2 ^ k ≤ nearest x := by
  obtain ⟨m, same⟩ := multiple_of_le coarse n
  rw [same] at le ⊢
  have whole := le_nearestEven ((le_div_iff₀ (ulp_pos x)).mpr le)
  exact mul_le_mul_of_nonneg_right (by exact_mod_cast whole) (ulp_pos x).le

/-- What the places hold is not rounded. -/
theorem nearest_eq_self {x : ℚ} {k n : ℤ} (coarse : exponent x ≤ k) (same : x = n * 2 ^ k) : nearest x = x :=
  le_antisymm (by rw [same] at coarse ⊢; exact nearest_le_of_le coarse le_rfl)
    (by rw [same] at coarse ⊢; exact le_nearest_of_le coarse le_rfl)

@[simp] theorem nearest_zero : nearest 0 = 0 := by
  rw [nearest, zero_div, show nearestEven 0 = 0 from nearestEven_intCast 0, Int.cast_zero, zero_mul]

theorem nearest_error {x : ℚ} {k : ℤ} (normal : -1022 ≤ k) (small : |x| < 2 ^ (k + 1)) : |nearest x - x| ≤ 2 ^ (k - 53) := by
  by_cases nonzero : x = 0
  · rw [nonzero, nearest_zero, sub_zero, abs_zero]
    exact (zpow_pos (by norm_num) _).le
  · have places : ulp x ≤ 2 ^ (k - 52) := zpow_le_zpow_right₀ (by norm_num) (exponent_le nonzero normal small)
    have half : (2 : ℚ) ^ (k - 52) = 2 ^ (k - 53) * 2 := by
      rw [show k - 52 = k - 53 + 1 by ring, zpow_add₀ (by norm_num), zpow_one]
    calc |nearest x - x| = |(nearestEven (x / ulp x) - x / ulp x) * ulp x| := by
            rw [nearest, sub_mul, div_mul_cancel₀ x (ulp_pos x).ne']
      _ = |nearestEven (x / ulp x) - x / ulp x| * ulp x := by rw [abs_mul, abs_of_pos (ulp_pos x)]
      _ ≤ 1 / 2 * ulp x := mul_le_mul_of_nonneg_right (abs_nearestEven_sub _) (ulp_pos x).le
      _ ≤ 2 ^ (k - 53) := by linarith

/-- A rational of a binade goes to the number of places that is less than half a place away. -/
theorem nearest_eq {x : ℚ} {k m : ℤ} (normal : -1022 ≤ k) (large : 2 ^ k ≤ |x|) (small : |x| < 2 ^ (k + 1))
    (near : |x - m * 2 ^ (k - 52)| < 2 ^ (k - 53)) : nearest x = m * 2 ^ (k - 52) := by
  have nonzero : x ≠ 0 := abs_pos.mp (lt_of_lt_of_le (zpow_pos (by norm_num) k) large)
  have places : exponent x = k - 52 := le_antisymm (exponent_le nonzero normal small) (le_exponent large)
  have pos : (0 : ℚ) < 2 ^ (k - 52) := zpow_pos (by norm_num) _
  have half : (2 : ℚ) ^ (k - 53) = 1 / 2 * 2 ^ (k - 52) := by
    rw [show k - 52 = k - 53 + 1 by ring, zpow_add₀ (by norm_num), zpow_one]
    ring
  have scaled : |x / 2 ^ (k - 52) - m| < 1 / 2 := by
    rw [← mul_lt_mul_iff_left₀ pos, ← abs_of_pos pos, ← abs_mul, sub_mul, abs_of_pos pos, div_mul_cancel₀ x pos.ne', ← half]
    exact near
  rw [nearest, ulp, places, nearestEven_eq scaled]

/-- Where whole numbers are represented, rounding does not pass one. -/
theorem nearest_le_int {x : ℚ} {n : ℤ} (small : |x| < 2 ^ (53 : ℤ)) (le : x ≤ n) : nearest x ≤ n := by
  by_cases nonzero : x = 0
  · rwa [nonzero, nearest_zero, ← nonzero]
  · have coarse := exponent_le nonzero (k := 52) (by decide) small
    simpa using nearest_le_of_le (k := 0) coarse (by simpa using le)

theorem int_le_nearest {x : ℚ} {n : ℤ} (small : |x| < 2 ^ (53 : ℤ)) (le : n ≤ x) : n ≤ nearest x := by
  by_cases nonzero : x = 0
  · rwa [nonzero, nearest_zero, ← nonzero]
  · have coarse := exponent_le nonzero (k := 52) (by decide) small
    simpa using le_nearest_of_le (k := 0) coarse (by simpa using le)

theorem abs_lt_places {x : ℚ} (nonzero : x ≠ 0) : |x| ≤ (2 ^ 53 : ℤ) * 2 ^ exponent x := by
  have log := (Int.lt_zpow_iff_log_lt (b := 2) (x := Int.log 2 |x| + 1) (by norm_num) (abs_pos.mpr nonzero)).mpr (by omega)
  have places : Int.log 2 |x| + 1 ≤ 53 + exponent x := by
    have := le_max_left (Int.log 2 |x| - 52) (-1074)
    rw [← exponent] at this
    omega
  calc |x| ≤ 2 ^ (Int.log 2 |x| + 1) := by exact_mod_cast log.le
    _ ≤ 2 ^ (53 + exponent x) := zpow_le_zpow_right₀ (by norm_num) places
    _ = (2 ^ 53 : ℤ) * 2 ^ exponent x := by rw [zpow_add₀ (by norm_num)]; norm_num

/-- A number of fifty-three places is a double. -/
theorem nearest_places {e m : ℤ} (least : -1074 ≤ e) (places : |m| ≤ 2 ^ 53) : nearest (m * 2 ^ e) = m * 2 ^ e := by
  by_cases nonzero : (m : ℚ) * 2 ^ e = 0
  · rw [nonzero, nearest_zero]
  have size : |(m : ℚ) * 2 ^ e| = |m| * 2 ^ e := by
    rw [abs_mul, abs_of_pos (a := (2 : ℚ) ^ e) (zpow_pos (by norm_num) e), Int.cast_abs]
  by_cases full : |m| = 2 ^ 53
  · -- The place that is too many holds a zero.
    have ends : m = 2 ^ 53 ∨ m = -2 ^ 53 := (abs_eq (by norm_num)).mp full
    obtain ⟨half, rfl⟩ : ∃ half, m = half * 2 := ⟨m / 2, by omega⟩
    have same : ((half * 2 : ℤ) : ℚ) * 2 ^ e = half * 2 ^ (e + 1) := by
      rw [zpow_add₀ (by norm_num), zpow_one]
      push_cast
      ring
    refine nearest_eq_self (k := e + 1) ?_ same
    have := exponent_le nonzero (k := e + 53) (by omega) (by
      rw [size, full, show e + 53 + 1 = 54 + e by ring, zpow_add₀ (by norm_num)]
      exact mul_lt_mul_of_pos_right (by norm_num) (zpow_pos (by norm_num) e))
    omega
  · refine nearest_eq_self (k := e) ?_ rfl
    have below : |m| < 2 ^ 53 := lt_of_le_of_ne places full
    have := exponent_le nonzero (k := e + 52) (by omega) (by
      rw [size, show e + 52 + 1 = 53 + e by ring, zpow_add₀ (by norm_num)]
      exact mul_lt_mul_of_pos_right (by exact_mod_cast below) (zpow_pos (by norm_num) e))
    omega

/-- What is rounded is a double. -/
theorem nearest_nearest (x : ℚ) : nearest (nearest x) = nearest x := by
  by_cases nonzero : x = 0
  · rw [nonzero, nearest_zero, nearest_zero]
  · have size : |x / ulp x| ≤ (2 ^ 53 : ℤ) := by
      rw [abs_div, abs_of_pos (ulp_pos x), div_le_iff₀ (ulp_pos x)]
      exact abs_lt_places nonzero
    obtain ⟨low, high⟩ := abs_le.mp size
    refine nearest_places (le_max_right _ _) (abs_le.mpr ⟨le_nearestEven ?_, nearestEven_le high⟩)
    rwa [Int.cast_neg]

/-- What is not rounded is a multiple of every power that is no larger than its last place. -/
theorem exists_multiple {x : ℚ} {k : ℤ} (rounded : nearest x = x) (large : 2 ^ (k + 52) ≤ |x|) : ∃ m : ℤ, x = m * 2 ^ k := by
  have fine := le_exponent large
  obtain ⟨m, same⟩ := multiple_of_le (show k ≤ exponent x by omega) (nearestEven (x / ulp x))
  exact ⟨m, rounded.symm.trans same⟩

/-! ## Doubles -/

structure Double where
  value : ℚ
  rounded : nearest value = value

namespace Double

/-- The double nearest to a rational, as a literal stands for it. -/
def ofRat (x : ℚ) : Double := ⟨nearest x, nearest_nearest x⟩

theorem value_ofRat (x : ℚ) : (ofRat x).value = nearest x := rfl

def sub (x y : Double) : Double := ofRat (x.value - y.value)

def mul (x y : Double) : Double := ofRat (x.value * y.value)

def div (x y : Double) : Double := ofRat (x.value / y.value)

theorem ofRat_places {e m : ℤ} (least : -1074 ≤ e) (places : |m| ≤ 2 ^ 53) : (ofRat (m * 2 ^ e)).value = m * 2 ^ e :=
  nearest_places least places

theorem ofRat_intCast {n : ℤ} (places : |n| ≤ 2 ^ 53) : (ofRat n).value = n := by
  simpa using ofRat_places (e := 0) (by decide) places

/-- The next double is a last place away. -/
theorem add_le_of_lt {x y : Double} {k : ℤ} (large : 2 ^ (k + 52) ≤ x.value) (less : x.value < y.value) :
    x.value + 2 ^ k ≤ y.value := by
  have pos : (0 : ℚ) < 2 ^ k := zpow_pos (by norm_num) k
  obtain ⟨m, same⟩ := exists_multiple x.rounded (large.trans (le_abs_self _))
  obtain ⟨n, same'⟩ := exists_multiple y.rounded ((large.trans less.le).trans (le_abs_self _))
  rw [same, same'] at less ⊢
  have below : m + 1 ≤ n := by exact_mod_cast lt_of_mul_lt_mul_right less pos.le
  calc (m : ℚ) * 2 ^ k + 2 ^ k = (m + 1 : ℤ) * 2 ^ k := by push_cast; ring
    _ ≤ n * 2 ^ k := mul_le_mul_of_nonneg_right (by exact_mod_cast below) pos.le

end Double

end Ironsight.Binary64
