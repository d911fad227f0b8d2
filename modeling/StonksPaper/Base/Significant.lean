import Mathlib.Data.Int.Log
import StonksPaper.Base.Quantum

/-!
# Significant digits

A number is rounded to a fixed count of significant decimal digits: to the nearest multiple of the
power of ten that its last digit counts. The quantum depends on the number, and rounding is monotone
all the same, because it never leaves the decade of the number.
-/

namespace Quantum

variable {K : Type*} [Field K] [LinearOrder K] [IsStrictOrderedRing K] [FloorRing K]

/-! ## Rounding to a fixed quantum -/

section

variable {x y q : K}

omit [IsStrictOrderedRing K] in
theorem halfEven_le_floor_add_one (x : K) : halfEven x ≤ ⌊x⌋ + 1 := by
  unfold halfEven
  split_ifs <;> omega

theorem halfEven_mono (h : x ≤ y) : halfEven x ≤ halfEven y := by
  rcases (Int.floor_le_floor h).lt_or_eq with hlt | heq
  · have hx := halfEven_le_floor_add_one x
    have hy := floor_le_halfEven y
    omega
  · unfold halfEven
    rw [← heq]
    split_ifs with hx hy hy' hx' <;> first | omega | (exfalso; linarith)

theorem halfEvenTo_mono (hq : 0 < q) (h : x ≤ y) : halfEvenTo x q ≤ halfEvenTo y q := by
  have hdiv : x / q ≤ y / q := div_le_div_of_nonneg_right h hq.le
  have hcast : (halfEven (x / q) : K) ≤ halfEven (y / q) := by exact_mod_cast halfEven_mono hdiv
  exact mul_le_mul_of_nonneg_right hcast hq.le

theorem halfEven_of_lt (h : x < ⌊x⌋ + 1 / 2) : halfEven x = ⌊x⌋ := by
  rw [halfEven, if_pos (by linarith)]

theorem halfEven_of_gt (h : ⌊x⌋ + 1 / 2 < x) : halfEven x = ⌊x⌋ + 1 := by
  rw [halfEven, if_neg (by linarith), if_pos (by linarith)]

theorem halfEven_of_eq (h : x = ⌊x⌋ + 1 / 2) :
    halfEven x = if ⌊x⌋ % 2 = 0 then ⌊x⌋ else ⌊x⌋ + 1 := by
  rw [halfEven, if_neg (by linarith), if_neg (by linarith)]

@[simp] theorem halfEven_intCast (n : ℤ) : halfEven (n : K) = n := by
  rw [halfEven_of_lt (by rw [Int.floor_intCast]; linarith), Int.floor_intCast]

/-- Rounding to the nearest is symmetric. -/
theorem halfEven_neg (x : K) : halfEven (-x) = -halfEven x := by
  by_cases hint : (⌊x⌋ : K) = x
  · rw [← hint, ← Int.cast_neg, halfEven_intCast, halfEven_intCast]
  · have hlow : (⌊x⌋ : K) < x := lt_of_le_of_ne (Int.floor_le x) hint
    have hhigh : x < ⌊x⌋ + 1 := Int.lt_floor_add_one x
    have hfloor : ⌊-x⌋ = -⌊x⌋ - 1 := by
      rw [Int.floor_eq_iff]
      push_cast
      constructor <;> linarith
    have hcast : ((⌊-x⌋ : ℤ) : K) = -⌊x⌋ - 1 := by rw [hfloor]; push_cast; ring
    rcases lt_trichotomy x (⌊x⌋ + 1 / 2) with h | h | h
    · rw [halfEven_of_lt h, halfEven_of_gt (by rw [hcast]; linarith), hfloor]
      ring
    · rw [halfEven_of_eq h, halfEven_of_eq (by rw [hcast]; linarith), hfloor]
      split_ifs <;> omega
    · rw [halfEven_of_gt h, halfEven_of_lt (by rw [hcast]; linarith), hfloor]
      ring

theorem halfEvenTo_of_isQuantized (h : IsQuantized x q) : halfEvenTo x q = x := by
  obtain ⟨hq, n, rfl⟩ := isQuantized_iff.mp h
  rw [halfEvenTo, mul_div_cancel_right₀ _ hq.ne', halfEven_intCast]

theorem le_halfEvenTo (hx : IsQuantized x q) (h : x ≤ y) : x ≤ halfEvenTo y q := by
  have hmono := halfEvenTo_mono hx.pos h
  rwa [halfEvenTo_of_isQuantized hx] at hmono

/-- Rounding to the nearest moves by half of one at most. -/
theorem abs_sub_halfEven_le (x : K) : |x - halfEven x| ≤ 1 / 2 := by
  have hlow := Int.floor_le x
  have hhigh := Int.lt_floor_add_one x
  rw [abs_le]
  rcases lt_trichotomy x (⌊x⌋ + 1 / 2) with h | h | h
  · rw [halfEven_of_lt h]
    constructor <;> linarith
  · rw [halfEven_of_eq h]
    split_ifs <;> push_cast <;> constructor <;> linarith
  · rw [halfEven_of_gt h]
    push_cast
    constructor <;> linarith

/-- An integer nearer than half of one is the nearest. -/
theorem halfEven_eq_of_abs_lt {n : ℤ} (h : |x - n| < 1 / 2) : halfEven x = n := by
  obtain ⟨hlow, hhigh⟩ := abs_lt.mp h
  by_cases hle : (n : K) ≤ x
  · have hfloor : ⌊x⌋ = n := Int.floor_eq_iff.mpr ⟨hle, by linarith⟩
    rw [halfEven_of_lt (by rw [hfloor]; linarith), hfloor]
  · have hfloor : ⌊x⌋ = n - 1 := by
      rw [Int.floor_eq_iff]
      push_cast
      constructor <;> linarith
    rw [halfEven_of_gt (by rw [hfloor]; push_cast; linarith), hfloor, sub_add_cancel]

theorem abs_sub_halfEvenTo_le (hq : 0 < q) (x : K) : |x - halfEvenTo x q| ≤ q / 2 := by
  have hfactor : x - halfEvenTo x q = (x / q - halfEven (x / q)) * q := by
    rw [halfEvenTo, sub_mul, div_mul_cancel₀ _ hq.ne']
  rw [hfactor, abs_mul, abs_of_pos hq]
  calc |x / q - halfEven (x / q)| * q ≤ 1 / 2 * q :=
        mul_le_mul_of_nonneg_right (abs_sub_halfEven_le _) hq.le
    _ = q / 2 := by ring

/-- A sum and the sum of two rounded amounts are rounded apart by one quantum at most, when the
results are on the quantum. -/
theorem abs_halfEvenTo_add_sub_le {place place' : K} (hplace : IsQuantized q place)
    (hplace' : IsQuantized q place') (hsum : IsQuantized (halfEvenTo (x + y) place) q)
    (hx : IsQuantized (halfEvenTo x place) q) (hy : IsQuantized (halfEvenTo y place') q) :
    |halfEvenTo (x + y) place - halfEvenTo x place - halfEvenTo y place'| ≤ q := by
  have hq := hsum.pos
  have hlt := hplace.le_of_pos hq
  have hlt' := hplace'.le_of_pos hq
  obtain ⟨hsum₁, hsum₂⟩ := abs_le.mp (abs_sub_halfEvenTo_le hplace.pos (x + y))
  obtain ⟨hx₁, hx₂⟩ := abs_le.mp (abs_sub_halfEvenTo_le hplace.pos x)
  obtain ⟨hy₁, hy₂⟩ := abs_le.mp (abs_sub_halfEvenTo_le hplace'.pos y)
  -- the difference is on the quantum and less than two of them
  have hdifference := (hsum.sub hx).sub hy
  have hnegated : IsQuantized (-(halfEvenTo (x + y) place - halfEvenTo x place -
      halfEvenTo y place')) q := by
    rw [← zero_sub]
    exact (IsQuantized.zero hq).sub hdifference
  exact abs_le'.mpr ⟨hdifference.le_of_lt_add (.self hq) (by linarith),
    hnegated.le_of_lt_add (.self hq) (by linarith)⟩

end

/-- What is rounded to a place of a quantum and lands on the quantum is rounded to the quantum. -/
theorem halfEvenTo_eq_halfEvenTo {x place q : ℚ} (hquantum : IsQuantized q place)
    (h : IsQuantized (halfEvenTo x place) q) : halfEvenTo x place = halfEvenTo x q := by
  have hq := h.pos
  have hplace := hquantum.pos
  by_cases hsame : place = q
  · rw [hsame]
  obtain ⟨-, n, hn⟩ := isQuantized_iff.mp hquantum
  have hlt : place < q := lt_of_le_of_ne (hquantum.le_of_pos hq) hsame
  have htwo : (2 : ℚ) ≤ n := by
    have hone : (1 : ℚ) < n := by
      by_contra hle
      have hmul := mul_le_mul_of_nonneg_right (not_lt.mp hle) hplace.le
      linarith
    have hone' : 1 < n := by exact_mod_cast hone
    have htwo' : 2 ≤ n := by omega
    exact_mod_cast htwo'
  have hhalf : 2 * place ≤ q := by
    have hmul := mul_le_mul_of_nonneg_right htwo hplace.le
    linarith
  obtain ⟨-, m, hm⟩ := isQuantized_iff.mp h
  have hnear : |x - m * q| ≤ place / 2 := by
    have hmove := abs_sub_halfEven_le (x / place)
    have hscaled := mul_le_mul_of_nonneg_right hmove hplace.le
    rw [← abs_of_pos hplace, ← abs_mul, abs_of_pos hplace, sub_mul, div_mul_cancel₀ _ hplace.ne']
      at hscaled
    rw [hm, halfEvenTo]
    linarith
  have hround : halfEven (x / q) = m := by
    apply halfEven_eq_of_abs_lt
    have hscaled : |x / q - m| * q = |x - m * q| := by
      rw [← abs_of_pos hq, ← abs_mul, abs_of_pos hq, sub_mul, div_mul_cancel₀ _ hq.ne']
    have hbound : |x / q - m| * q < 1 / 2 * q := by
      rw [hscaled]
      linarith
    exact lt_of_mul_lt_mul_right hbound hq.le
  calc halfEvenTo x place = m * q := hm.symm
    _ = halfEvenTo x q := by rw [← hround, halfEvenTo]

end Quantum

namespace Significant

set_option linter.unusedSectionVars false

open Quantum

variable {K : Type*} [Field K] [LinearOrder K] [IsStrictOrderedRing K] [FloorRing K]

/-- The exponent of the first digit. -/
def exponent (x : K) : ℤ := Int.log 10 |x|

/-- The nearest number with so many significant digits; of two equally near ones the even one. -/
def round (digits : ℕ) (x : K) : K :=
  if x = 0 then 0 else halfEvenTo x (10 ^ (exponent x - digits + 1))

variable {x y : K} {digits : ℕ}

theorem zpow_exponent_le (hx : x ≠ 0) : (10 : K) ^ exponent x ≤ |x| := by
  have h := Int.zpow_log_le_self (b := 10) (r := |x|) (by norm_num) (abs_pos.mpr hx)
  exact_mod_cast h

theorem lt_zpow_exponent (x : K) : |x| < (10 : K) ^ (exponent x + 1) := by
  have h := Int.lt_zpow_succ_log_self (b := 10) (by norm_num) |x|
  exact_mod_cast h

theorem exponent_le_of_abs_le (hx : x ≠ 0) (h : |x| ≤ |y|) : exponent x ≤ exponent y := by
  have hlt : (10 : K) ^ exponent x < 10 ^ (exponent y + 1) :=
    (zpow_exponent_le hx).trans_lt (h.trans_lt (lt_zpow_exponent y))
  have hexp := (zpow_lt_zpow_iff_right₀ (by norm_num : (1 : K) < 10)).mp hlt
  omega

theorem isQuantized_zpow {e f : ℤ} (h : f ≤ e) : IsQuantized ((10 : K) ^ e) (10 ^ f) := by
  have hpos : (0 : K) < 10 ^ f := zpow_pos (by norm_num) f
  obtain ⟨n, rfl⟩ := Int.le.dest h
  refine isQuantized_iff.mpr ⟨hpos, 10 ^ n, ?_⟩
  push_cast
  rw [zpow_add₀ (by norm_num), zpow_natCast, mul_comm]

theorem isQuantized_neg_zpow {e f : ℤ} (h : f ≤ e) : IsQuantized (-(10 : K) ^ e) (10 ^ f) := by
  have hzero := IsQuantized.zero (isQuantized_zpow (K := K) h).pos
  have hsub := hzero.sub (isQuantized_zpow h)
  rwa [zero_sub] at hsub

theorem round_pos_bounds (hdigits : 1 ≤ digits) (hx : 0 < x) :
    (10 : K) ^ exponent x ≤ round digits x ∧ round digits x ≤ 10 ^ (exponent x + 1) := by
  have hlow := zpow_exponent_le hx.ne'
  have hhigh := lt_zpow_exponent x
  rw [abs_of_pos hx] at hlow hhigh
  rw [round, if_neg hx.ne']
  exact ⟨le_halfEvenTo (isQuantized_zpow (by omega)) hlow,
    halfEvenTo_le (isQuantized_zpow (by omega)) hhigh.le⟩

theorem round_neg_bounds (hdigits : 1 ≤ digits) (hx : x < 0) :
    -(10 : K) ^ (exponent x + 1) ≤ round digits x ∧ round digits x ≤ -10 ^ exponent x := by
  have hlow := zpow_exponent_le hx.ne
  have hhigh := lt_zpow_exponent x
  rw [abs_of_neg hx] at hlow hhigh
  rw [round, if_neg hx.ne]
  exact ⟨le_halfEvenTo (isQuantized_neg_zpow (by omega)) (by linarith),
    halfEvenTo_le (isQuantized_neg_zpow (by omega)) (by linarith)⟩

theorem round_pos (hdigits : 1 ≤ digits) (hx : 0 < x) : 0 < round digits x :=
  (zpow_pos (by norm_num) _).trans_le (round_pos_bounds hdigits hx).1

theorem round_neg (hdigits : 1 ≤ digits) (hx : x < 0) : round digits x < 0 := by
  have hpow : (0 : K) < 10 ^ exponent x := zpow_pos (by norm_num) _
  have hle := (round_neg_bounds hdigits hx).2
  linarith

theorem round_mono_of_exponent_eq (h : x ≤ y) (hx : x ≠ 0) (hy : y ≠ 0)
    (hexp : exponent x = exponent y) : round digits x ≤ round digits y := by
  rw [round, round, if_neg hx, if_neg hy, hexp]
  exact halfEvenTo_mono (zpow_pos (by norm_num) _) h

theorem round_mono (hdigits : 1 ≤ digits) : Monotone (round digits : K → K) := by
  intro x y h
  rcases lt_trichotomy x 0 with hx | rfl | hx
  · rcases lt_trichotomy y 0 with hy | rfl | hy
    · have habs : |y| ≤ |x| := by
        rw [abs_of_neg hx, abs_of_neg hy]
        linarith
      rcases (exponent_le_of_abs_le hy.ne habs).lt_or_eq with hlt | heq
      · have hpow : (10 : K) ^ (exponent y + 1) ≤ 10 ^ exponent x :=
          zpow_le_zpow_right₀ (by norm_num) (by omega)
        have hleft := (round_neg_bounds hdigits hx).2
        have hright := (round_neg_bounds hdigits hy).1
        linarith
      · exact round_mono_of_exponent_eq h hx.ne hy.ne heq.symm
    · rw [round, round, if_pos rfl, ← round]
      exact (round_neg hdigits hx).le
    · exact ((round_neg hdigits hx).trans (round_pos hdigits hy)).le
  · rcases h.lt_or_eq with hy | rfl
    · rw [round, if_pos rfl]
      exact (round_pos hdigits hy).le
    · exact le_rfl
  · have hy : 0 < y := hx.trans_le h
    have habs : |x| ≤ |y| := by
      rw [abs_of_pos hx, abs_of_pos hy]
      exact h
    rcases (exponent_le_of_abs_le hx.ne' habs).lt_or_eq with hlt | heq
    · have hpow : (10 : K) ^ (exponent x + 1) ≤ 10 ^ exponent y :=
        zpow_le_zpow_right₀ (by norm_num) (by omega)
      have hleft := (round_pos_bounds hdigits hx).2
      have hright := (round_pos_bounds hdigits hy).1
      exact hleft.trans (hpow.trans hright)
    · exact round_mono_of_exponent_eq h hx.ne' hy.ne' heq

/-- Rounding moves a number by less than one in its last digit. -/
theorem abs_round_sub_le (digits : ℕ) (x : K) :
    |round digits x - x| ≤ |x| * 10 ^ (1 - digits : ℤ) := by
  by_cases hx : x = 0
  · simp [round, hx]
  · have hpow : (0 : K) < 10 ^ (exponent x - digits + 1) := zpow_pos (by norm_num) _
    have hsplit : (10 : K) ^ (exponent x - digits + 1) =
        10 ^ exponent x * 10 ^ (1 - digits : ℤ) := by
      rw [← zpow_add₀ (by norm_num)]
      congr 1
      omega
    have hquantum : (10 : K) ^ (exponent x - digits + 1) ≤ |x| * 10 ^ (1 - digits : ℤ) := by
      rw [hsplit]
      exact mul_le_mul_of_nonneg_right (zpow_exponent_le hx) (zpow_pos (by norm_num) _).le
    have hmove := mul_le_mul_of_nonneg_right
      (abs_sub_halfEven_le (x / 10 ^ (exponent x - digits + 1))) hpow.le
    rw [← abs_of_pos hpow, ← abs_mul, abs_of_pos hpow, sub_mul, div_mul_cancel₀ _ hpow.ne',
      abs_sub_comm, ← halfEvenTo] at hmove
    rw [round, if_neg hx]
    linarith

/-- Rounding moves a number by half of one in its last digit at most. -/
theorem abs_round_sub_le_half (digits : ℕ) (x : K) {e : ℤ} (hx : |x| < 10 ^ (digits + e)) :
    |round digits x - x| ≤ 10 ^ e / 2 := by
  have hplace : (0 : K) < 10 ^ e := zpow_pos (by norm_num) e
  by_cases hzero : x = 0
  · rw [round, if_pos hzero, hzero, sub_zero, abs_zero]
    positivity
  · have hpow : (0 : K) < 10 ^ (exponent x - digits + 1) := zpow_pos (by norm_num) _
    have hexp : exponent x < digits + e :=
      (zpow_lt_zpow_iff_right₀ (by norm_num : (1 : K) < 10)).mp
        ((zpow_exponent_le hzero).trans_lt hx)
    have hquantum : (10 : K) ^ (exponent x - digits + 1) ≤ 10 ^ e :=
      zpow_le_zpow_right₀ (by norm_num) (by omega)
    have hmove := mul_le_mul_of_nonneg_right
      (abs_sub_halfEven_le (x / 10 ^ (exponent x - digits + 1))) hpow.le
    rw [← abs_of_pos hpow, ← abs_mul, abs_of_pos hpow, sub_mul, div_mul_cancel₀ _ hpow.ne',
      abs_sub_comm, ← halfEvenTo] at hmove
    rw [round, if_neg hzero]
    linarith

/-! ## Numbers of few digits -/

/-- The number is written with at most so many digits. -/
def HasDigits (digits : ℕ) (x : K) : Prop :=
  ∃ c e : ℤ, |c| < 10 ^ digits ∧ x = c * 10 ^ e

theorem HasDigits.mul {m n : ℕ} (hx : HasDigits m x) (hy : HasDigits n y) :
    HasDigits (m + n) (x * y) := by
  obtain ⟨c, e, hc, rfl⟩ := hx
  obtain ⟨d, f, hd, rfl⟩ := hy
  refine ⟨c * d, e + f, ?_, ?_⟩
  · rw [abs_mul, pow_add]
    exact mul_lt_mul'' hc hd (abs_nonneg _) (abs_nonneg _)
  · rw [zpow_add₀ (by norm_num)]
    push_cast
    ring

theorem HasDigits.mono {m n : ℕ} (hx : HasDigits m x) (h : m ≤ n) : HasDigits n x := by
  obtain ⟨c, e, hc, rfl⟩ := hx
  exact ⟨c, e, hc.trans_le (pow_le_pow_right₀ (by norm_num) h), rfl⟩

theorem hasDigits_one (hdigits : 1 ≤ digits) : HasDigits digits (1 : K) := by
  refine ⟨1, 0, ?_, by simp⟩
  rw [abs_one]
  exact one_lt_pow₀ (by norm_num) (by omega)

/-- What fits into the digits is not rounded. -/
theorem round_of_hasDigits (h : HasDigits digits x) : round digits x = x := by
  by_cases hx : x = 0
  · rw [round, if_pos hx, hx]
  · obtain ⟨c, e, hc, rfl⟩ := h
    have hten : (1 : K) < 10 := by norm_num
    have hpow : (0 : K) < 10 ^ e := zpow_pos (by norm_num) _
    have hlt : |(c : K) * 10 ^ e| < 10 ^ ((digits : ℤ) + e) := by
      have hcast : |(c : K)| < 10 ^ (digits : ℤ) := by
        rw [zpow_natCast]
        exact_mod_cast hc
      rw [abs_mul, abs_of_pos hpow, zpow_add₀ (by norm_num)]
      exact mul_lt_mul_of_pos_right hcast hpow
    have hexp : exponent ((c : K) * 10 ^ e) < digits + e :=
      (zpow_lt_zpow_iff_right₀ hten).mp ((zpow_exponent_le hx).trans_lt hlt)
    have hquantum := isQuantized_zpow (K := K)
      (show exponent ((c : K) * 10 ^ e) - digits + 1 ≤ e by omega)
    obtain ⟨hpos, n, hn⟩ := isQuantized_iff.mp hquantum
    rw [round, if_neg hx]
    refine halfEvenTo_of_isQuantized (isQuantized_iff.mpr ⟨hpos, c * n, ?_⟩)
    rw [Int.cast_mul, mul_assoc, hn]

theorem round_neg_eq (x : K) : round digits (-x) = -round digits x := by
  by_cases hx : x = 0
  · simp [round, hx]
  · have hexp : exponent (-x) = exponent x := by rw [exponent, exponent, abs_neg]
    rw [round, round, if_neg hx, if_neg (neg_ne_zero.mpr hx), hexp, halfEvenTo, halfEvenTo, neg_div,
      halfEven_neg]
    push_cast
    ring

theorem abs_round_le (hdigits : 1 ≤ digits) (x : K) :
    |round digits x| ≤ 10 ^ (exponent x + 1) := by
  rcases lt_trichotomy x 0 with hx | rfl | hx
  · rw [abs_of_neg (round_neg hdigits hx)]
    have hbounds := (round_neg_bounds hdigits hx).1
    linarith
  · rw [round, if_pos rfl, abs_zero]
    exact (zpow_pos (by norm_num) _).le
  · rw [abs_of_pos (round_pos hdigits hx)]
    exact (round_pos_bounds hdigits hx).2

/-- What is rounded fits into the digits. -/
theorem hasDigits_round (hdigits : 1 ≤ digits) (x : K) : HasDigits digits (round digits x) := by
  by_cases hx : x = 0
  · refine ⟨0, 0, ?_, by simp [round, hx]⟩
    rw [abs_zero]
    positivity
  · have hle := abs_round_le hdigits x
    have hround : round digits x =
        halfEven (x / 10 ^ (exponent x - digits + 1)) * 10 ^ (exponent x - digits + 1) := by
      rw [round, if_neg hx, halfEvenTo]
    generalize halfEven (x / 10 ^ (exponent x - digits + 1)) = c at hround
    have hpow : (0 : K) < 10 ^ (exponent x - digits + 1) := zpow_pos (by norm_num) _
    have hsplit : (10 : K) ^ (exponent x + 1) = 10 ^ digits * 10 ^ (exponent x - digits + 1) := by
      rw [← zpow_natCast, ← zpow_add₀ (by norm_num)]
      congr 1
      omega
    rw [hround, abs_mul, abs_of_pos hpow, hsplit, mul_le_mul_iff_left₀ hpow] at hle
    have hc : |c| ≤ 10 ^ digits := by exact_mod_cast hle
    rcases hc.lt_or_eq with hlt | heq
    · exact ⟨c, _, hlt, hround⟩
    · -- the carry: ten to the number of digits has one digit
      have hone : |(Int.sign c : ℤ)| < 10 ^ digits := by
        have hsign : |Int.sign c| ≤ 1 := by
          rcases lt_trichotomy c 0 with h | h | h
          · simp [Int.sign_eq_neg_one_of_neg h]
          · simp [h]
          · simp [Int.sign_eq_one_of_pos h]
        exact hsign.trans_lt (one_lt_pow₀ (by norm_num) (by omega))
      refine ⟨Int.sign c, exponent x + 1, hone, ?_⟩
      have hsigned : (c : K) = Int.sign c * 10 ^ digits := by
        have hint : c = Int.sign c * 10 ^ digits := by
          rw [← heq]
          exact (Int.sign_mul_abs c).symm
        exact_mod_cast hint
      rw [hround, hsplit, hsigned, mul_assoc]

theorem round_round (hdigits : 1 ≤ digits) (x : K) :
    round digits (round digits x) = round digits x :=
  round_of_hasDigits (hasDigits_round hdigits x)

/-! ## Numbers on a decimal place -/

theorem HasDigits.exists_place (h : HasDigits digits x) :
    ∃ k : ℤ, IsQuantized x (10 ^ k) ∧ |x| < 10 ^ (digits + k) := by
  obtain ⟨c, e, hc, rfl⟩ := h
  have hpow : (0 : K) < 10 ^ e := zpow_pos (by norm_num) e
  have hcast : |(c : K)| < 10 ^ (digits : ℤ) := by
    rw [zpow_natCast]
    exact_mod_cast hc
  refine ⟨e, .of_int hpow c, ?_⟩
  rw [abs_mul, abs_of_pos hpow, zpow_add₀ (by norm_num)]
  exact mul_lt_mul_of_pos_right hcast hpow

theorem hasDigits_of_isQuantized {k : ℤ} (h : IsQuantized x (10 ^ k))
    (hlt : |x| < 10 ^ (digits + k)) :
    HasDigits digits x := by
  obtain ⟨hpow, n, rfl⟩ := isQuantized_iff.mp h
  refine ⟨n, k, ?_, rfl⟩
  rw [abs_mul, abs_of_pos hpow, zpow_add₀ (by norm_num), mul_lt_mul_iff_left₀ hpow,
    zpow_natCast] at hlt
  exact_mod_cast hlt

/-- A quotient is not rounded across an integer where its operands are on one place. -/
theorem floor_round_div {k : ℤ} (hdigits : 1 ≤ digits) (hx : IsQuantized x (10 ^ k))
    (hy : IsQuantized y (10 ^ k)) (hnonneg : 0 ≤ x) (hlt : x < 10 ^ (digits - 1 + k))
    (hpos : 0 < y) :
    ⌊round digits (x / y)⌋ = ⌊x / y⌋ := by
  have hplace : (0 : K) < 10 ^ k := hx.pos
  have hscale : x * 10 ^ (1 - digits : ℤ) < 10 ^ k := by
    have hmul := mul_lt_mul_of_pos_right hlt
        (zpow_pos (by norm_num : (0 : K) < 10) (1 - digits : ℤ))
    rw [← zpow_add₀ (by norm_num)] at hmul
    have hexponent : (digits - 1 + k + (1 - digits) : ℤ) = k := by ring
    rwa [hexponent] at hmul
  rw [Int.floor_eq_iff]
  constructor
  · have hfloor : (⌊x / y⌋ : K) ≤ x / y := Int.floor_le _
    have hfloorNonneg : 0 ≤ ⌊x / y⌋ := Int.floor_nonneg.mpr (div_nonneg hnonneg hpos.le)
    have hquotient : x / y < 10 ^ (digits : ℤ) := by
      have hle := hy.le_of_pos hpos
      rw [div_lt_iff₀ hpos]
      have hstep : (10 : K) ^ (digits - 1 + k : ℤ) ≤ 10 ^ (digits : ℤ) * 10 ^ k := by
        rw [← zpow_add₀ (by norm_num)]
        exact zpow_le_zpow_right₀ (by norm_num) (by omega)
      exact hlt.trans_le (hstep.trans (mul_le_mul_of_nonneg_left hle (zpow_pos (by norm_num) _).le))
    have hshort : HasDigits digits ((⌊x / y⌋ : ℤ) : K) := by
      refine ⟨⌊x / y⌋, 0, ?_, by simp⟩
      rw [abs_of_nonneg hfloorNonneg]
      have hcast := hfloor.trans_lt hquotient
      rw [zpow_natCast] at hcast
      exact_mod_cast hcast
    have hmono := round_mono hdigits hfloor
    rwa [round_of_hasDigits hshort] at hmono
  · have hgap : (10 : K) ^ k ≤ (⌊x / y⌋ + 1) * y - x := by
      have hmultiple : IsQuantized ((⌊x / y⌋ + 1 : K) * y) y := by
        exact_mod_cast IsQuantized.of_int hpos (⌊x / y⌋ + 1)
      refine ((hmultiple.trans hy).sub hx).le_of_pos ?_
      have hfloor := Int.lt_floor_add_one (x / y)
      rw [div_lt_iff₀ hpos] at hfloor
      linarith
    have hmove := abs_round_sub_le digits (x / y)
    rw [abs_of_nonneg (div_nonneg hnonneg hpos.le)] at hmove
    have hup : round digits (x / y) ≤ x / y + x / y * 10 ^ (1 - digits : ℤ) := by
      have hle := (le_abs_self _).trans hmove
      linarith
    refine hup.trans_lt ?_
    rw [← mul_lt_mul_iff_left₀ hpos, add_mul, mul_right_comm, div_mul_cancel₀ _ hpos.ne']
    linarith

end Significant
