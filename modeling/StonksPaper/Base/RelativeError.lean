import Mathlib.Algebra.Order.Ring.Pow
import StonksPaper.Base.Context

/-!
# Relative errors

A kept result is off by at most a unit of its context, as a part of the exact one. The bounds carry
from one result to the sum of a list, addition by addition, and to numbers that are rounded up to a
quantum.
-/

namespace Context

/-- How far a kept result can be off, as a part of it. -/
def unit : Context → ℚ
  | exact => 0
  | significant digits => 10 ^ (1 - digits : ℤ)

section

variable {context : Context} {x q : ℚ}

theorem unit_nonneg (context : Context) : 0 ≤ context.unit := by
  cases context with
  | exact => exact le_rfl
  | significant digits => exact zpow_nonneg (by norm_num) _

theorem unit_le_one (context : Context) : context.unit ≤ 1 := by
  cases context with
  | exact => exact zero_le_one
  | significant digits =>
      have hexponent : (1 - (digits : ℕ) : ℤ) ≤ 0 := by
        have hpos := digits.pos
        omega
      calc (10 : ℚ) ^ (1 - (digits : ℕ) : ℤ) ≤ 10 ^ (0 : ℤ) :=
            zpow_le_zpow_right₀ (by norm_num) hexponent
        _ = 1 := zpow_zero _

theorem abs_round_sub_le (context : Context) (x : ℚ) :
    |context.round x - x| ≤ |x| * context.unit := by
  cases context with
  | exact => simp [round, unit]
  | significant digits => exact Significant.abs_round_sub_le digits x

theorem round_le_mul (context : Context) (hx : 0 ≤ x) :
    context.round x ≤ (1 + context.unit) * x := by
  have herror := context.abs_round_sub_le x
  rw [abs_of_nonneg hx] at herror
  linarith [(abs_le.mp herror).2]

theorem mul_le_round (context : Context) (hx : 0 ≤ x) :
    (1 - context.unit) * x ≤ context.round x := by
  have herror := context.abs_round_sub_le x
  rw [abs_of_nonneg hx] at herror
  linarith [(abs_le.mp herror).1]

/-! ## Sums -/

/-- Each addition of a running total loses a unit at most. -/
theorem mul_le_foldl (context : Context) {xs : List ℚ} {start : ℚ} (hstart : 0 ≤ start)
    (hxs : ∀ x ∈ xs, 0 ≤ x) :
    (1 - context.unit) ^ xs.length * (start + xs.sum) ≤
      xs.foldl (fun total x => context.round (total + x)) start := by
  induction xs generalizing start with
  | nil => simp
  | cons x xs ih =>
      have hx : 0 ≤ x := hxs x List.mem_cons_self
      have hrest : ∀ y ∈ xs, 0 ≤ y := fun y hy => hxs y (List.mem_cons_of_mem _ hy)
      have hless : 0 ≤ 1 - context.unit := sub_nonneg.mpr context.unit_le_one
      have hsum : 0 ≤ xs.sum := List.sum_nonneg hrest
      have hround := context.mul_le_round (add_nonneg hstart hx)
      have hstep : (1 - context.unit) * (start + (x + xs.sum)) ≤
          context.round (start + x) + xs.sum := by
        have hkeeps := mul_le_of_le_one_left hsum (sub_le_self 1 context.unit_nonneg)
        linarith
      rw [List.foldl_cons, List.length_cons, List.sum_cons, pow_succ, mul_assoc]
      exact (mul_le_mul_of_nonneg_left hstep (pow_nonneg hless _)).trans
        (ih (round_nonneg (add_nonneg hstart hx)) hrest)

theorem mul_le_sum (context : Context) {xs : List ℚ} (hxs : ∀ x ∈ xs, 0 ≤ x) :
    (1 - context.unit) ^ xs.length * xs.sum ≤ context.sum xs := by
  have hfold := context.mul_le_foldl le_rfl hxs
  rwa [zero_add] at hfold

/-! ## Rounding up to a quantum -/

theorem ceilTo_le_mul (context : Context) (hq : 0 < q) (hx : 0 ≤ x) :
    context.ceilTo x q ≤ (1 + context.unit) * ((1 + context.unit) * x + q) := by
  have hquanta : 0 ≤ context.round (x / q) := round_nonneg (div_nonneg hx hq.le)
  have hceil : (⌈context.round (x / q)⌉ : ℚ) * q ≤ (1 + context.unit) * x + q := by
    have hlt := (Int.ceil_lt_add_one (context.round (x / q))).le
    have hround := context.round_le_mul (div_nonneg hx hq.le)
    calc (⌈context.round (x / q)⌉ : ℚ) * q ≤ ((1 + context.unit) * (x / q) + 1) * q :=
          mul_le_mul_of_nonneg_right (by linarith) hq.le
      _ = (1 + context.unit) * x + q := by field_simp
  have hnonneg : (0 : ℚ) ≤ ⌈context.round (x / q)⌉ * q :=
    mul_nonneg (by exact_mod_cast Int.ceil_nonneg hquanta) hq.le
  have hup : 0 ≤ 1 + context.unit := add_nonneg zero_le_one context.unit_nonneg
  exact (context.round_le_mul hnonneg).trans (mul_le_mul_of_nonneg_left hceil hup)

/-- Numbers that are rounded up one by one pass their sum by a quantum each, and by the errors. -/
theorem sum_ceilTo_le (context : Context) (hq : 0 < q) {xs : List ℚ} (hxs : ∀ x ∈ xs, 0 ≤ x) :
    (xs.map (context.ceilTo · q)).sum ≤
      (1 + context.unit) * ((1 + context.unit) * xs.sum + xs.length * q) := by
  induction xs with
  | nil => simp
  | cons x xs ih =>
      have hhead := context.ceilTo_le_mul hq (hxs x List.mem_cons_self)
      have htail := ih fun y hy => hxs y (List.mem_cons_of_mem _ hy)
      rw [List.map_cons, List.sum_cons, List.sum_cons, List.length_cons]
      push_cast
      linarith

end

end Context
