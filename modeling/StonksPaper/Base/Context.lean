import Mathlib.Algebra.Order.BigOperators.Group.List
import Mathlib.Data.List.Induction
import Mathlib.Data.PNat.Defs
import StonksPaper.Base.Significant

/-!
# Arithmetic in a context

A result is kept whole, or rounded to so many significant digits. Either way rounding is monotone
and keeps zero, so a chain of sums, products by factors that are not negative and quotients by
divisors that are not negative is monotone in every context.
-/

/-- How the results of an arithmetic are kept. -/
inductive Context where
  | exact
  | significant (digits : ℕ+)
deriving DecidableEq

namespace Context

open Quantum

/-- The result that is kept. -/
def round : Context → ℚ → ℚ
  | exact, x => x
  | significant digits, x => Significant.round digits x

/-- The second power, which is kept with three digits more before it is rounded. -/
def square : Context → ℚ → ℚ
  | exact, x => x * x
  | significant digits, x => Significant.round digits (Significant.round (digits + 3) (x * x))

/-- An integer that has no more digits than the context keeps. -/
def Holds : Context → ℤ → Prop
  | exact, _ => True
  | significant digits, n => |n| < 10 ^ (digits : ℕ)

instance decidableHolds : (context : Context) → (n : ℤ) → Decidable (context.Holds n)
  | exact, _ => .isTrue trivial
  | significant digits, n => inferInstanceAs (Decidable (|n| < 10 ^ (digits : ℕ)))

/-- A number that a bounded context computed is below the bound. -/
def Below : Context → ℚ → ℚ → Prop
  | exact, _, _ => True
  | significant _, bound, x => |x| < bound

instance decidableBelow : (context : Context) → (bound x : ℚ) → Decidable (context.Below bound x)
  | exact, _, _ => .isTrue trivial
  | significant _, bound, x => inferInstanceAs (Decidable (|x| < bound))

/-- The sum that starts at zero and keeps the result of every addition. -/
def sum (context : Context) (xs : List ℚ) : ℚ :=
  xs.foldl (fun total x => context.round (total + x)) 0

section

variable {context : Context} {x y z : ℚ}

@[simp] theorem round_exact (x : ℚ) : exact.round x = x := rfl

@[simp] theorem square_exact (x : ℚ) : exact.square x = x * x := rfl

@[simp] theorem holds_exact (n : ℤ) : exact.Holds n := trivial

@[simp] theorem below_exact (bound x : ℚ) : exact.Below bound x := trivial

@[simp] theorem holds_zero : context.Holds 0 := by
  cases context with
  | exact => trivial
  | significant digits =>
      change |(0 : ℤ)| < 10 ^ (digits : ℕ)
      positivity

theorem below_zero {bound : ℚ} (h : 0 < bound) : context.Below bound 0 := by
  cases context with
  | exact => trivial
  | significant digits => rwa [Below, abs_zero]

theorem round_mono (context : Context) : Monotone context.round := by
  cases context with
  | exact => exact monotone_id
  | significant digits => exact Significant.round_mono digits.pos

@[simp] theorem round_zero (context : Context) : context.round 0 = 0 := by
  cases context with
  | exact => rfl
  | significant digits => simp [round, Significant.round]

theorem round_nonneg (h : 0 ≤ x) : 0 ≤ context.round x := by
  have hmono := context.round_mono h
  rwa [round_zero] at hmono

theorem round_nonpos (h : x ≤ 0) : context.round x ≤ 0 := by
  have hmono := context.round_mono h
  rwa [round_zero] at hmono

theorem round_mul_mono (hz : 0 ≤ z) (h : x ≤ y) : context.round (x * z) ≤ context.round (y * z) :=
  context.round_mono (mul_le_mul_of_nonneg_right h hz)

theorem round_div_mono (hz : 0 ≤ z) (h : x ≤ y) : context.round (x / z) ≤ context.round (y / z) :=
  context.round_mono (div_le_div_of_nonneg_right h hz)

theorem round_add_mono (h : x ≤ y) : context.round (z + x) ≤ context.round (z + y) :=
  context.round_mono (add_le_add_right h z)

theorem round_sub_mono (h : x ≤ y) : context.round (x - z) ≤ context.round (y - z) :=
  context.round_mono (sub_le_sub_right h z)

theorem foldl_round_mono {xs ys : List ℚ} (h : List.Forall₂ (· ≤ ·) xs ys) (hxy : x ≤ y) :
    xs.foldl (fun total x => context.round (total + x)) x ≤
      ys.foldl (fun total x => context.round (total + x)) y := by
  induction h generalizing x y with
  | nil => exact hxy
  | cons hhead _ ih => exact ih (context.round_mono (add_le_add hxy hhead))

theorem sum_mono {xs ys : List ℚ} (h : List.Forall₂ (· ≤ ·) xs ys) :
    context.sum xs ≤ context.sum ys := foldl_round_mono h le_rfl

theorem sum_exact (xs : List ℚ) : exact.sum xs = xs.sum := (List.sum_eq_foldl).symm

@[simp] theorem round_one (context : Context) : context.round 1 = 1 := by
  cases context with
  | exact => rfl
  | significant digits =>
      refine Significant.round_of_hasDigits ⟨1, 0, ?_, by simp⟩
      rw [abs_one]
      exact one_lt_pow₀ (by norm_num) digits.pos.ne'

theorem round_pos (h : 0 < x) : 0 < context.round x := by
  cases context with
  | exact => exact h
  | significant digits => exact Significant.round_pos digits.pos h

@[simp] theorem round_pos_iff : 0 < context.round x ↔ 0 < x :=
  ⟨fun h => not_le.mp fun hle => absurd h (not_lt.mpr (round_nonpos hle)), round_pos⟩

theorem round_neg_eq (x : ℚ) : context.round (-x) = -context.round x := by
  cases context with
  | exact => rfl
  | significant digits => exact Significant.round_neg_eq x

@[simp] theorem round_nonneg_iff : 0 ≤ context.round x ↔ 0 ≤ x := by
  have hneg : 0 < context.round (-x) ↔ 0 < -x := round_pos_iff
  rw [round_neg_eq, neg_pos, neg_pos] at hneg
  rw [← not_lt, ← not_lt, hneg]

@[simp] theorem round_eq_zero : context.round x = 0 ↔ x = 0 := by
  constructor
  · intro h
    have hnonneg := round_nonneg_iff.mp h.ge
    have hpos := mt round_pos_iff.mpr (not_lt.mpr h.le)
    exact le_antisymm (not_lt.mp hpos) hnonneg
  · rintro rfl
    exact round_zero context

theorem round_round (x : ℚ) : context.round (context.round x) = context.round x := by
  cases context with
  | exact => rfl
  | significant digits => exact Significant.round_round digits.pos x

/-! ## Amounts on a quantum -/

/-- The amounts on the quantum up to the bound, written to the last decimal place of the quantum,
have no more digits than the context keeps. -/
def Fits : Context → ℚ → ℚ → Prop
  | exact, _, _ => True
  | significant digits, q, bound =>
      ∃ k : ℤ, IsQuantized q (10 ^ k) ∧ bound < 10 ^ ((digits : ℕ) + k)

variable {q bound : ℚ}

@[simp] theorem fits_exact : exact.Fits q bound := trivial

theorem Fits.mono (h : context.Fits q bound) (hle : x ≤ bound) : context.Fits q x := by
  cases context with
  | exact => trivial
  | significant digits =>
      obtain ⟨k, hquantum, hbound⟩ := h
      exact ⟨k, hquantum, hle.trans_lt hbound⟩

theorem Fits.round_eq (h : context.Fits q bound) (hx : IsQuantized x q) (hle : |x| ≤ bound) :
    context.round x = x := by
  cases context with
  | exact => rfl
  | significant digits =>
      obtain ⟨k, hquantum, hbound⟩ := h
      exact Significant.round_of_hasDigits
        (Significant.hasDigits_of_isQuantized (hx.trans hquantum) (hle.trans_lt hbound))

/-- What is rounded to an amount within the bound was not rounded. -/
theorem Fits.eq_of_round_le (h : context.Fits q bound) (hx : IsQuantized x q) (hnonneg : 0 ≤ x)
    (hle : context.round x ≤ bound) : context.round x = x := by
  cases context with
  | exact => rfl
  | significant digits =>
      by_cases hwithin : x ≤ bound
      · exact h.round_eq hx (by rwa [abs_of_nonneg hnonneg])
      obtain ⟨k, hquantum, hbound⟩ := h
      by_cases hdigits : x < 10 ^ ((digits : ℕ) + k)
      · refine Significant.round_of_hasDigits
          (Significant.hasDigits_of_isQuantized (hx.trans hquantum) ?_)
        rwa [abs_of_nonneg hnonneg]
      · -- the first number with too many digits is a power of ten, above the bound
        have hone : Significant.HasDigits (digits : ℕ) ((10 : ℚ) ^ (((digits : ℕ) : ℤ) + k)) := by
          have hcount := digits.pos
          refine ⟨1, digits + k, ?_, by simp⟩
          rw [abs_one]
          exact one_lt_pow₀ (by norm_num) (by omega)
        have hmono := Significant.round_mono digits.pos (not_lt.mp hdigits)
        rw [Significant.round_of_hasDigits hone] at hmono
        exact absurd (hbound.trans_le hmono) (not_lt.mpr hle)

/-- A number of quanta fits when the amount does. -/
theorem Fits.round_div (h : context.Fits q bound) (hx : IsQuantized x q) (hle : |x| ≤ bound) :
    context.round (x / q) = x / q := by
  cases context with
  | exact => rfl
  | significant digits =>
      obtain ⟨k, hquantum, hbound⟩ := h
      obtain ⟨hq, n, rfl⟩ := isQuantized_iff.mp hx
      have hpow : (0 : ℚ) < 10 ^ k := hquantum.pos
      have hcount : |(n : ℚ)| < 10 ^ ((digits : ℕ) : ℤ) := by
        have hlt := hle.trans_lt hbound
        rw [abs_mul, abs_of_pos hq, zpow_add₀ (by norm_num)] at hlt
        have hquanta : |(n : ℚ)| * 10 ^ k ≤ |(n : ℚ)| * q :=
          mul_le_mul_of_nonneg_left (hquantum.le_of_pos hq) (abs_nonneg _)
        exact lt_of_mul_lt_mul_right (hquanta.trans_lt hlt) hpow.le
      rw [mul_div_cancel_right₀ _ hq.ne']
      refine Significant.round_of_hasDigits ⟨n, 0, ?_, by simp⟩
      rw [zpow_natCast] at hcount
      exact_mod_cast hcount

/-- One quantum less is rounded to half a quantum less at least, or to nothing. -/
theorem Fits.round_sub_le (h : context.Fits q bound) (hq : 0 < q) (hle : x ≤ bound) :
    context.round (x - q) ≤ max 0 (x - q / 2) := by
  by_cases hneg : x - q ≤ 0
  · exact le_max_of_le_left (round_nonpos hneg)
  refine le_max_of_le_right ?_
  cases context with
  | exact =>
      change x - q ≤ x - q / 2
      linarith
  | significant digits =>
      obtain ⟨k, hquantum, hbound⟩ := h
      have hquantumLe : (10 : ℚ) ^ k ≤ q := hquantum.le_of_pos hq
      have hmove := Significant.abs_round_sub_le_half (digits : ℕ) (x - q) (e := k) <| by
        rw [abs_of_pos (not_le.mp hneg)]
        linarith
      have hup := (le_abs_self _).trans hmove
      change Significant.round (digits : ℕ) (x - q) ≤ x - q / 2
      linarith

/-! ## Sums -/

theorem le_foldl_round {xs : List ℚ} (hxs : ∀ x ∈ xs, 0 ≤ x) (hy : context.round y = y) :
    y ≤ xs.foldl (fun total x => context.round (total + x)) y := by
  induction xs generalizing y with
  | nil => exact le_rfl
  | cons x xs ih =>
      have hhead : y ≤ context.round (y + x) := by
        have hmono := context.round_mono (le_add_of_nonneg_right (a := y) (hxs x (by simp)))
        rwa [hy] at hmono
      exact hhead.trans (ih (fun z hz => hxs z (List.mem_cons_of_mem _ hz)) (round_round _))

@[simp] theorem round_sum (xs : List ℚ) : context.round (context.sum xs) = context.sum xs := by
  suffices hfold : ∀ y, context.round y = y →
      context.round (xs.foldl (fun total x => context.round (total + x)) y) =
        xs.foldl (fun total x => context.round (total + x)) y from hfold 0 (round_zero _)
  induction xs with
  | nil => exact fun y hy => hy
  | cons x xs ih => exact fun y _ => ih _ (round_round _)

/-- A sum of amounts on the quantum is not rounded when its result fits. -/
theorem Fits.foldl_eq (h : context.Fits q bound) {xs : List ℚ}
    (hxs : ∀ x ∈ xs, 0 ≤ x ∧ IsQuantized x q) (hy : IsQuantized y q) (hnonneg : 0 ≤ y)
    (hle : xs.foldl (fun total x => context.round (total + x)) y ≤ bound) :
    xs.foldl (fun total x => context.round (total + x)) y = y + xs.sum := by
  induction xs generalizing y with
  | nil => simp
  | cons x xs ih =>
      obtain ⟨hxnonneg, hx⟩ := hxs x (by simp)
      have htail : ∀ z ∈ xs, 0 ≤ z ∧ IsQuantized z q := fun z hz =>
          hxs z (List.mem_cons_of_mem _ hz)
      have hwithin : context.round (y + x) ≤ bound :=
        (le_foldl_round (fun z hz => (htail z hz).1) (round_round _)).trans hle
      have hhead := h.eq_of_round_le (hy.add hx) (add_nonneg hnonneg hxnonneg) hwithin
      rw [List.foldl_cons, hhead] at hle ⊢
      rw [ih htail (hy.add hx) (add_nonneg hnonneg hxnonneg) hle, List.sum_cons, add_assoc]

theorem Fits.sum_eq (h : context.Fits q bound) (hq : 0 < q) {xs : List ℚ}
    (hxs : ∀ x ∈ xs, 0 ≤ x ∧ IsQuantized x q) (hle : context.sum xs ≤ bound) :
    context.sum xs = xs.sum := by
  rw [sum, h.foldl_eq hxs (.zero hq) le_rfl hle, zero_add]

/-- A sum that fits is computed as it is, in whatever order. -/
theorem Fits.sum_eq_of_le (h : context.Fits q bound) (hq : 0 < q) {xs : List ℚ}
    (hxs : ∀ x ∈ xs, 0 ≤ x ∧ IsQuantized x q) (hle : xs.sum ≤ bound) : context.sum xs = xs.sum := by
  suffices hfold : ∀ y, IsQuantized y q → 0 ≤ y → y + xs.sum ≤ bound →
      xs.foldl (fun total x => context.round (total + x)) y = y + xs.sum by
    rw [sum, hfold 0 (.zero hq) le_rfl (by rwa [zero_add]), zero_add]
  clear hle
  induction xs with
  | nil => simp
  | cons x xs ih =>
      intro y hy hnonneg hle
      obtain ⟨hxnonneg, hx⟩ := hxs x (by simp)
      have htail : ∀ z ∈ xs, 0 ≤ z ∧ IsQuantized z q := fun z hz =>
          hxs z (List.mem_cons_of_mem _ hz)
      have hrest : 0 ≤ xs.sum := List.sum_nonneg fun z hz => (htail z hz).1
      rw [List.sum_cons] at hle
      have hhead : context.round (y + x) = y + x := by
        refine h.round_eq (hy.add hx) ?_
        rw [abs_of_nonneg (add_nonneg hnonneg hxnonneg)]
        linarith
      rw [List.foldl_cons, hhead, ih htail (y + x) (hy.add hx) (add_nonneg hnonneg hxnonneg)
        (by linarith), List.sum_cons, add_assoc]

/-- A sum of which no partial sum is rounded is the sum. -/
theorem sum_eq_of_prefixes {xs : List ℚ}
    (h : ∀ summed, summed <+: xs → context.round summed.sum = summed.sum) :
    context.sum xs = xs.sum := by
  induction xs using List.reverseRecOn with
  | nil => rfl
  | append_singleton xs x ih =>
      have hinit := ih fun summed hsummed => h summed (hsummed.trans (List.prefix_append xs [x]))
      have hlast := h (xs ++ [x]) (List.prefix_refl _)
      rw [List.sum_append, List.sum_singleton] at hlast ⊢
      rw [sum, List.foldl_append, List.foldl_cons, List.foldl_nil]
      change context.round (context.sum xs + x) = _
      rw [hinit, hlast]

/-! ## Rounding to a quantum -/

/-- The multiple of the quantum below, as far as the context keeps quotient and product. -/
def floorTo (context : Context) (x q : ℚ) : ℚ := context.round (⌊context.round (x / q)⌋ * q)

/-- The multiple of the quantum above, as far as the context keeps quotient and product. -/
def ceilTo (context : Context) (x q : ℚ) : ℚ := context.round (⌈context.round (x / q)⌉ * q)

theorem floorTo_mono (hq : 0 < q) (h : x ≤ y) : context.floorTo x q ≤ context.floorTo y q := by
  have hquotient : context.round (x / q) ≤ context.round (y / q) := round_div_mono hq.le h
  have hfloor := Int.floor_le_floor hquotient
  exact round_mul_mono hq.le (by exact_mod_cast hfloor)

theorem ceilTo_mono (hq : 0 < q) (h : x ≤ y) : context.ceilTo x q ≤ context.ceilTo y q := by
  have hquotient : context.round (x / q) ≤ context.round (y / q) := round_div_mono hq.le h
  have hceil := Int.ceil_le_ceil hquotient
  exact round_mul_mono hq.le (by exact_mod_cast hceil)

theorem ceilTo_nonneg (hq : 0 < q) (hx : 0 ≤ x) : 0 ≤ context.ceilTo x q := by
  have hceil : 0 ≤ ⌈context.round (x / q)⌉ := Int.ceil_nonneg (round_nonneg (div_nonneg hx hq.le))
  exact round_nonneg (mul_nonneg (by exact_mod_cast hceil) hq.le)

theorem ceilTo_pos (hq : 0 < q) (hx : 0 < x) : 0 < context.ceilTo x q := by
  have hceil : 0 < ⌈context.round (x / q)⌉ := Int.ceil_pos.mpr (round_pos (div_pos hx hq))
  exact round_pos (mul_pos (by exact_mod_cast hceil) hq)

theorem floorTo_pos_iff (hq : 0 < q) : 0 < context.floorTo x q ↔ 1 ≤ context.round (x / q) := by
  rw [floorTo, round_pos_iff, mul_pos_iff_of_pos_right hq, Int.cast_pos, Int.floor_pos]

theorem Fits.ceilTo_eq (h : context.Fits q bound) (hx : IsQuantized x q) (hle : |x| ≤ bound) :
    context.ceilTo x q = x := by
  have hround := h.round_eq hx hle
  rw [ceilTo, h.round_div hx hle]
  obtain ⟨hq, n, rfl⟩ := isQuantized_iff.mp hx
  rwa [mul_div_cancel_right₀ _ hq.ne', Int.ceil_intCast]

theorem Fits.ceilTo_le (h : context.Fits q bound) (hx : IsQuantized x q) (hle : |x| ≤ bound)
    (hyx : y ≤ x) : context.ceilTo y q ≤ x := by
  have hmono : context.ceilTo y q ≤ context.ceilTo x q := ceilTo_mono hx.pos hyx
  rwa [h.ceilTo_eq hx hle] at hmono

/-- Rounding down reaches an amount on the quantum when the number of quanta does. -/
theorem Fits.le_floorTo_iff (h : context.Fits q x) (hx : IsQuantized x q) (hnonneg : 0 ≤ x) :
    x ≤ context.floorTo y q ↔ x / q ≤ context.round (y / q) := by
  have hround : context.round x = x := h.round_eq hx (abs_of_nonneg hnonneg).le
  obtain ⟨hq, n, rfl⟩ := isQuantized_iff.mp hx
  rw [mul_div_cancel_right₀ _ hq.ne']
  constructor
  · intro hle
    by_contra hless
    have hfloor : ⌊context.round (y / q)⌋ + 1 ≤ n := Int.floor_lt.mpr (not_le.mp hless)
    have hstep : (⌊context.round (y / q)⌋ : ℚ) * q ≤ n * q - q := by
      have hcast : (⌊context.round (y / q)⌋ : ℚ) + 1 ≤ n := by exact_mod_cast hfloor
      have hmul := mul_le_mul_of_nonneg_right hcast hq.le
      linarith
    have hdown : 0 ≤ (⌊context.round (y / q)⌋ : ℚ) * q :=
      round_nonneg_iff.mp (hnonneg.trans hle)
    have hwithin : |(n : ℚ) * q - q| ≤ n * q := by
      rw [abs_of_nonneg (hdown.trans hstep)]
      linarith
    have hmono := context.round_mono hstep
    rw [h.round_eq (hx.sub (.self hq)) hwithin] at hmono
    exact absurd (hle.trans hmono) (by linarith)
  · intro hle
    have hfloor : n ≤ ⌊context.round (y / q)⌋ := Int.le_floor.mpr hle
    have hmono := context.round_mono
      (mul_le_mul_of_nonneg_right (Int.cast_le (R := ℚ).mpr hfloor) hq.le)
    rwa [hround] at hmono

theorem Fits.isQuantized_floorTo (h : context.Fits q bound) (hq : 0 < q) (hx : 0 ≤ x)
    (hle : context.floorTo x q ≤ bound) : IsQuantized (context.floorTo x q) q := by
  have hfloor : 0 ≤ ⌊context.round (x / q)⌋ :=
    Int.floor_nonneg.mpr (round_nonneg (div_nonneg hx hq.le))
  have hquantized := IsQuantized.of_int hq ⌊context.round (x / q)⌋
  rw [floorTo, h.eq_of_round_le hquantized (mul_nonneg (by exact_mod_cast hfloor) hq.le) hle]
  exact hquantized

theorem Fits.isQuantized_ceilTo (h : context.Fits q bound) (hq : 0 < q) (hx : 0 ≤ x)
    (hle : context.ceilTo x q ≤ bound) : IsQuantized (context.ceilTo x q) q := by
  have hceil : 0 ≤ ⌈context.round (x / q)⌉ := Int.ceil_nonneg (round_nonneg (div_nonneg hx hq.le))
  have hquantized := IsQuantized.of_int hq ⌈context.round (x / q)⌉
  rw [ceilTo, h.eq_of_round_le hquantized (mul_nonneg (by exact_mod_cast hceil) hq.le) hle]
  exact hquantized

end

end Context
