import Mathlib.Algebra.Order.Floor.Ring
import Mathlib.Algebra.Order.Field.Basic
import Mathlib.Data.Rat.Floor
import Mathlib.Order.Bounds.Basic
import Mathlib.Tactic.Linarith
import Mathlib.Tactic.FieldSimp
import Mathlib.Tactic.Ring

/-!
# Amounts on a quantum

A quantum `q > 0` cuts the field into the multiples of `q`. `IsQuantized x q` says that `x` is one
of them, and `floorTo`, `ceilTo` and `halfEvenTo` round any amount to one. The closure facts and
the sandwich `floorTo ≤ x ≤ ceilTo` are what reasoning about rounded money needs; everything is
stated over an arbitrary ordered field with a floor.
-/

namespace Quantum

set_option linter.unusedSectionVars false

variable {K : Type*} [Field K] [LinearOrder K] [IsStrictOrderedRing K] [FloorRing K]

/-- `x` is a whole number of quanta, and the quantum is positive. -/
def IsQuantized (x q : K) : Prop := 0 < q ∧ (⌊x / q⌋ : K) * q = x

instance (x q : K) : Decidable (IsQuantized x q) := inferInstanceAs (Decidable (_ ∧ _))

theorem isQuantized_iff {x q : K} : IsQuantized x q ↔ 0 < q ∧ ∃ n : ℤ, (n : K) * q = x := by
  constructor
  · rintro ⟨hq, h⟩
    exact ⟨hq, _, h⟩
  · rintro ⟨hq, n, rfl⟩
    refine ⟨hq, ?_⟩
    rw [mul_div_cancel_right₀ _ hq.ne', Int.floor_intCast]

namespace IsQuantized

variable {x y q : K}

theorem pos (h : IsQuantized x q) : 0 < q := h.1

theorem of_int (hq : 0 < q) (n : ℤ) : IsQuantized ((n : K) * q) q :=
  isQuantized_iff.mpr ⟨hq, n, rfl⟩

theorem zero (hq : 0 < q) : IsQuantized 0 q := by simpa using of_int hq 0

theorem self (hq : 0 < q) : IsQuantized q q := by simpa using of_int hq 1

theorem add (hx : IsQuantized x q) (hy : IsQuantized y q) : IsQuantized (x + y) q := by
  obtain ⟨hq, n, rfl⟩ := isQuantized_iff.mp hx
  obtain ⟨-, m, rfl⟩ := isQuantized_iff.mp hy
  exact isQuantized_iff.mpr ⟨hq, n + m, by push_cast; ring⟩

theorem sub (hx : IsQuantized x q) (hy : IsQuantized y q) : IsQuantized (x - y) q := by
  obtain ⟨hq, n, rfl⟩ := isQuantized_iff.mp hx
  obtain ⟨-, m, rfl⟩ := isQuantized_iff.mp hy
  exact isQuantized_iff.mpr ⟨hq, n - m, by push_cast; ring⟩

theorem min (hx : IsQuantized x q) (hy : IsQuantized y q) : IsQuantized (Min.min x y) q := by
  rcases min_choice x y with h | h <;> rw [h] <;> assumption

theorem max (hx : IsQuantized x q) (hy : IsQuantized y q) : IsQuantized (Max.max x y) q := by
  rcases max_choice x y with h | h <;> rw [h] <;> assumption

end IsQuantized

/-! ## Rounding -/

/-- The largest multiple of `q` that is at most `x`. -/
def floorTo (x q : K) : K := (⌊x / q⌋ : K) * q

/-- The smallest multiple of `q` that is at least `x`. -/
def ceilTo (x q : K) : K := (⌈x / q⌉ : K) * q

/-- The integer nearest to `x`; of two equally near ones the even one. -/
def halfEven (x : K) : ℤ :=
  if x - ⌊x⌋ < 1 / 2 then ⌊x⌋
  else if 1 / 2 < x - ⌊x⌋ then ⌊x⌋ + 1
  else if ⌊x⌋ % 2 = 0 then ⌊x⌋ else ⌊x⌋ + 1

/-- The multiple of `q` nearest to `x`; of two equally near ones the even one. -/
def halfEvenTo (x q : K) : K := (halfEven (x / q) : K) * q

variable {x y q : K}

theorem isQuantized_floorTo (hq : 0 < q) : IsQuantized (floorTo x q) q := .of_int hq _

theorem isQuantized_ceilTo (hq : 0 < q) : IsQuantized (ceilTo x q) q := .of_int hq _

theorem isQuantized_halfEvenTo (hq : 0 < q) : IsQuantized (halfEvenTo x q) q := .of_int hq _

theorem floorTo_le (hq : 0 < q) : floorTo x q ≤ x :=
  (le_div_iff₀ hq).mp (Int.floor_le _)

theorem le_ceilTo (hq : 0 < q) : x ≤ ceilTo x q :=
  (div_le_iff₀ hq).mp (Int.le_ceil _)

theorem ceilTo_lt_add (hq : 0 < q) : ceilTo x q < x + q := by
  have h : (⌈x / q⌉ : K) * q < (x / q + 1) * q := mul_lt_mul_of_pos_right (Int.ceil_lt_add_one _) hq
  rwa [add_mul, div_mul_cancel₀ _ hq.ne', one_mul] at h

theorem ceilTo_le (hy : IsQuantized y q) (h : x ≤ y) : ceilTo x q ≤ y := by
  obtain ⟨hq, n, rfl⟩ := isQuantized_iff.mp hy
  have hn : ⌈x / q⌉ ≤ n := Int.ceil_le.mpr ((div_le_iff₀ hq).mpr h)
  exact mul_le_mul_of_nonneg_right (by exact_mod_cast hn) hq.le

theorem le_floorTo (hy : IsQuantized y q) (h : y ≤ x) : y ≤ floorTo x q := by
  obtain ⟨hq, n, rfl⟩ := isQuantized_iff.mp hy
  have hn : n ≤ ⌊x / q⌋ := Int.le_floor.mpr ((le_div_iff₀ hq).mpr h)
  exact mul_le_mul_of_nonneg_right (by exact_mod_cast hn) hq.le

theorem isGreatest_floorTo (hq : 0 < q) :
    IsGreatest {y : K | IsQuantized y q ∧ y ≤ x} (floorTo x q) :=
  ⟨⟨isQuantized_floorTo hq, floorTo_le hq⟩, fun _ h => le_floorTo h.1 h.2⟩

theorem sub_lt_floorTo (hq : 0 < q) : x - q < floorTo x q := by
  have hlt := Int.lt_floor_add_one (x / q)
  rw [div_lt_iff₀ hq, add_mul, one_mul] at hlt
  rw [floorTo]
  linarith

theorem ceilTo_pos (hq : 0 < q) (hx : 0 < x) : 0 < ceilTo x q := hx.trans_le (le_ceilTo hq)

theorem ceilTo_nonneg (hq : 0 < q) (hx : 0 ≤ x) : 0 ≤ ceilTo x q := hx.trans (le_ceilTo hq)

theorem floorTo_nonneg (hq : 0 < q) (hx : 0 ≤ x) : 0 ≤ floorTo x q :=
  le_floorTo (.zero hq) hx

theorem halfEven_le_ceil (x : K) : halfEven x ≤ ⌈x⌉ := by
  have hle : ⌊x⌋ ≤ ⌈x⌉ := Int.floor_le_ceil x
  have hup : ¬ x - ⌊x⌋ < 1 / 2 → ⌊x⌋ + 1 ≤ ⌈x⌉ := by
    intro h
    have hlt : (⌊x⌋ : K) < x := by linarith
    exact Int.add_one_le_iff.mpr (by exact_mod_cast hlt.trans_le (Int.le_ceil x))
  unfold halfEven
  split
  · exact hle
  · rename_i h
    split
    · exact hup h
    · split
      · exact hle
      · exact hup h

theorem floor_le_halfEven (x : K) : ⌊x⌋ ≤ halfEven x := by
  unfold halfEven
  split
  · exact le_rfl
  · split
    · omega
    · split <;> omega

theorem halfEvenTo_le_ceilTo (hq : 0 < q) : halfEvenTo x q ≤ ceilTo x q :=
  mul_le_mul_of_nonneg_right (by exact_mod_cast halfEven_le_ceil _) hq.le

theorem floorTo_le_halfEvenTo (hq : 0 < q) : floorTo x q ≤ halfEvenTo x q :=
  mul_le_mul_of_nonneg_right (by exact_mod_cast floor_le_halfEven _) hq.le

theorem halfEvenTo_le (hy : IsQuantized y q) (h : x ≤ y) : halfEvenTo x q ≤ y :=
  (halfEvenTo_le_ceilTo hy.pos).trans (ceilTo_le hy h)

theorem halfEvenTo_nonneg (hq : 0 < q) (hx : 0 ≤ x) : 0 ≤ halfEvenTo x q :=
  (floorTo_nonneg hq hx).trans (floorTo_le_halfEvenTo hq)

/-- Half of one still rounds to zero, and anything more does not. -/
theorem halfEven_pos {x : K} (hx : 0 ≤ x) : 0 < halfEven x ↔ 1 / 2 < x := by
  have hfloor : 0 ≤ ⌊x⌋ := Int.floor_nonneg.mpr hx
  constructor
  · intro h
    by_contra hle
    have hzero : ⌊x⌋ = 0 := Int.floor_eq_zero_iff.mpr ⟨hx, by linarith⟩
    unfold halfEven at h
    rw [hzero, Int.cast_zero, sub_zero, if_neg hle] at h
    simp at h
  · intro h
    have hle := floor_le_halfEven x
    by_cases hone : 1 ≤ ⌊x⌋
    · omega
    · have hzero : ⌊x⌋ = 0 := by omega
      unfold halfEven
      rw [hzero, Int.cast_zero, sub_zero, if_neg (not_lt.mpr h.le), if_pos h]
      decide

theorem halfEvenTo_pos (hq : 0 < q) (hx : 0 ≤ x) : 0 < halfEvenTo x q ↔ q < 2 * x := by
  unfold halfEvenTo
  rw [mul_pos_iff_of_pos_right hq, Int.cast_pos, halfEven_pos (div_nonneg hx hq.le),
    lt_div_iff₀ hq]
  constructor <;> intro h <;> linarith

theorem IsQuantized.le_of_pos (h : IsQuantized x q) (hx : 0 < x) : q ≤ x := by
  obtain ⟨hq, n, rfl⟩ := isQuantized_iff.mp h
  have hn : 0 < n := by
    rw [mul_pos_iff_of_pos_right hq] at hx
    exact_mod_cast hx
  have hone : (1 : K) ≤ n := by exact_mod_cast hn
  exact le_mul_of_one_le_left hq.le hone

theorem IsQuantized.le_of_lt_add (hx : IsQuantized x q) (hy : IsQuantized y q) (h : x < y + q) :
    x ≤ y := by
  by_contra hlt
  have hstep : q ≤ x - y := (hx.sub hy).le_of_pos (by linarith)
  linarith

theorem IsQuantized.trans {z : K} (hx : IsQuantized x y) (hy : IsQuantized y z) :
    IsQuantized x z := by
  obtain ⟨-, n, rfl⟩ := isQuantized_iff.mp hx
  obtain ⟨hz, m, rfl⟩ := isQuantized_iff.mp hy
  exact isQuantized_iff.mpr ⟨hz, n * m, by push_cast; ring⟩

/-! ## Sums of rounded amounts -/

theorem isQuantized_sum {xs : List K} (hq : 0 < q) (h : ∀ x ∈ xs, IsQuantized x q) :
    IsQuantized xs.sum q := by
  induction xs with
  | nil => exact .zero hq
  | cons x xs ih =>
      rw [List.sum_cons]
      exact (h x (List.mem_cons_self ..)).add (ih fun y hy => h y (List.mem_cons_of_mem _ hy))

theorem sum_ceilTo_le (hq : 0 < q) (xs : List K) :
    (xs.map (ceilTo · q)).sum ≤ xs.sum + xs.length * q := by
  induction xs with
  | nil => simp
  | cons x xs ih =>
      have hx : ceilTo x q < x + q := ceilTo_lt_add hq
      simp only [List.map_cons, List.sum_cons, List.length_cons, Nat.cast_add, Nat.cast_one]
      linarith

/-! ## The last decimal place -/

/-- The last place of the shortest positional notation of `q`: one hundredth for 0.05. A number
without such a notation is its own. -/
def lastPlace (q : ℚ) : ℚ :=
  match (List.range (q.den.log2 + 1)).find? (q.den ∣ 10 ^ ·) with
  | some places => 1 / 10 ^ places
  | none => q

section lastPlace

variable {q : ℚ}

/-- The notation of a quantum ends at its last place. -/
theorem isQuantized_lastPlace (hq : 0 < q) : IsQuantized q (lastPlace q) := by
  unfold lastPlace
  split
  · rename_i places hfind
    have hdvd : q.den ∣ 10 ^ places := by simpa using List.find?_some hfind
    obtain ⟨c, hc⟩ := hdvd
    refine isQuantized_iff.mpr ⟨by positivity, q.num * c, ?_⟩
    have hpow : (10 : ℚ) ^ places = q.den * c := by exact_mod_cast hc
    have hden : (q.den : ℚ) ≠ 0 := by exact_mod_cast q.den_nz
    have hc0 : (c : ℚ) ≠ 0 := by
      intro hzero
      rw [hzero, mul_zero] at hpow
      exact absurd hpow (by positivity)
    rw [hpow]
    push_cast
    calc (q.num : ℚ) * c * (1 / (q.den * c)) = q.num / q.den := by field_simp
      _ = q := Rat.num_div_den q
  · exact .self hq

end lastPlace

end Quantum
