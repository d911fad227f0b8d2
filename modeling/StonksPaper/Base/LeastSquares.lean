import StonksPaper.Base.Averages

/-!
# Least squares

The line through the averages of two quantities whose slope is their covariance over the variance of
the first, or zero where that is constant. Its residuals sum to zero, also when each is weighted by
the distance of its abscissa from the average, so every other line has the squares of its residuals
and of its distance from this one.
-/

namespace LeastSquares

open Averages

set_option linter.unusedSectionVars false

variable {α K : Type*} [Field K] [LinearOrder K] [IsStrictOrderedRing K]
  (x y : α → K) (points : List α)

def variation : K := (points.map fun i => (x i - average (points.map x)) ^ 2).sum

def covariation : K :=
  (points.map fun i => (x i - average (points.map x)) * (y i - average (points.map y))).sum

def slope : K := if variation x points = 0 then 0 else covariation x y points / variation x points

def intercept : K := average (points.map y) - slope x y points * average (points.map x)

/-- The sum of the squared residuals of a line. -/
def squares (a b : K) : K := (points.map fun i => (y i - (a + b * x i)) ^ 2).sum

/-- The residual of a point. -/
def residual (i : α) : K := y i - (intercept x y points + slope x y points * x i)

variable {x y points}

theorem residual_eq (i : α) : residual x y points i =
    (y i - average (points.map y)) - slope x y points * (x i - average (points.map x)) := by
  rw [residual, intercept]
  ring

theorem sum_sub_average (f : α → K) (points : List α) :
    (points.map fun i => f i - average (points.map f)).sum = 0 := by
  have hlength := length_mul_average (points.map f)
  rw [List.length_map] at hlength
  rw [sum_map_sub, List.map_const', List.sum_replicate, nsmul_eq_mul, hlength, sub_self]

theorem sum_residual : (points.map (residual x y points)).sum = 0 := by
  rw [List.map_congr_left fun i _ => residual_eq i, sum_map_sub, List.sum_map_mul_left,
    sum_sub_average, sum_sub_average, mul_zero, sub_zero]

/-- Where the abscissas vary not at all, they are all the average. -/
theorem eq_average_of_variation (h : variation x points = 0) {i : α} (hi : i ∈ points) :
    x i - average (points.map x) = 0 := by
  have hle := List.single_le_sum (l := points.map fun i => (x i - average (points.map x)) ^ 2)
    (by
      intro z hz
      obtain ⟨j, -, rfl⟩ := List.mem_map.mp hz
      exact sq_nonneg _)
    ((x i - average (points.map x)) ^ 2) (List.mem_map_of_mem hi)
  have hzero : (x i - average (points.map x)) ^ 2 = 0 :=
    le_antisymm (hle.trans_eq h) (sq_nonneg _)
  exact pow_eq_zero_iff two_ne_zero |>.mp hzero

theorem sum_residual_mul :
    (points.map fun i => residual x y points i * (x i - average (points.map x))).sum = 0 := by
  by_cases hvaries : variation x points = 0
  · refine List.sum_eq_zero fun z hz => ?_
    obtain ⟨i, hi, rfl⟩ := List.mem_map.mp hz
    rw [eq_average_of_variation hvaries hi, mul_zero]
  · have hterm : ∀ i, residual x y points i * (x i - average (points.map x)) =
        (x i - average (points.map x)) * (y i - average (points.map y)) -
          slope x y points * (x i - average (points.map x)) ^ 2 := by
      intro i
      rw [residual_eq]
      ring
    rw [List.map_congr_left fun i _ => hterm i, sum_map_sub, List.sum_map_mul_left]
    show covariation x y points - slope x y points * variation x points = 0
    rw [slope, if_neg hvaries, div_mul_cancel₀ _ hvaries, sub_self]

/-- No line has smaller squares. -/
theorem squares_le (a b : K) :
    squares x y points (intercept x y points) (slope x y points) ≤ squares x y points a b := by
  let e := slope x y points - b
  let d := intercept x y points - a + e * average (points.map x)
  have hterm : ∀ i, (y i - (a + b * x i)) ^ 2 = residual x y points i ^ 2 +
      (2 * d * residual x y points i +
        (2 * e * (residual x y points i * (x i - average (points.map x))) +
          (d + e * (x i - average (points.map x))) ^ 2)) := by
    intro i
    simp only [residual, d, e]
    ring
  have hrest : 0 ≤ (points.map fun i => (d + e * (x i - average (points.map x))) ^ 2).sum := by
    refine List.sum_nonneg fun z hz => ?_
    obtain ⟨i, -, rfl⟩ := List.mem_map.mp hz
    exact sq_nonneg _
  calc squares x y points (intercept x y points) (slope x y points)
      = (points.map fun i => residual x y points i ^ 2).sum := rfl
    _ ≤ (points.map fun i => residual x y points i ^ 2).sum +
          (points.map fun i => (d + e * (x i - average (points.map x))) ^ 2).sum := by linarith
    _ = squares x y points a b := by
        rw [squares, List.map_congr_left fun i _ => hterm i, List.sum_map_add, List.sum_map_add,
          List.sum_map_add, List.sum_map_mul_left, List.sum_map_mul_left, sum_residual_mul,
          show (points.map fun i => residual x y points i).sum = 0 from sum_residual]
        ring

/-! ## A shift of the ordinates -/

theorem average_add_const (h : points ≠ []) (f : α → K) (c : K) :
    average (points.map fun i => f i + c) = average (points.map f) + c := by
  have hlength : (points.length : K) ≠ 0 := by
    have hpos := List.length_pos_iff.mpr h
    exact_mod_cast hpos.ne'
  rw [average, average, List.length_map, List.length_map, List.sum_map_add, List.map_const',
    List.sum_replicate, nsmul_eq_mul]
  field_simp

theorem slope_add_const (h : points ≠ []) (c : K) :
    slope x (fun i => y i + c) points = slope x y points := by
  have hcov : covariation x (fun i => y i + c) points = covariation x y points := by
    simp only [covariation, average_add_const h, add_sub_add_right_eq_sub]
  rw [slope, slope, hcov]

theorem intercept_add_const (h : points ≠ []) (c : K) :
    intercept x (fun i => y i + c) points = intercept x y points + c := by
  rw [intercept, intercept, slope_add_const h, average_add_const h]
  ring

end LeastSquares
