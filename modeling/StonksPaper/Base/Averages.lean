import Mathlib.Algebra.BigOperators.Fin
import Mathlib.Algebra.Order.BigOperators.Group.List
import Mathlib.Algebra.Order.Chebyshev
import Mathlib.Tactic.Abel
import Mathlib.Tactic.FieldSimp
import Mathlib.Tactic.Linarith

/-!
# Averages over a list that is cut into groups

The average of a list, and the gap between two quantities of its members when each group is seen
only by its averages. Averaging inside a group can only hide a difference, so the gap is at most the
average difference, and its square at most the average square.
-/

namespace Averages

set_option linter.unusedSectionVars false

variable {α K : Type*} [Field K] [LinearOrder K] [IsStrictOrderedRing K]

/-- The average, which is zero for an empty list. -/
def average (xs : List K) : K := xs.sum / xs.length

theorem length_mul_average (xs : List K) : xs.length * average xs = xs.sum := by
  by_cases hnil : xs = []
  · simp [hnil]
  · have hlength : (xs.length : K) ≠ 0 := by
      have hpos := List.length_pos_iff.mpr hnil
      exact_mod_cast hpos.ne'
    rw [average]
    field_simp

theorem average_perm {xs ys : List K} (h : xs.Perm ys) : average xs = average ys := by
  rw [average, average, h.sum_eq, h.length_eq]

theorem average_mono {xs : List α} {f g : α → K} (h : ∀ x ∈ xs, f x ≤ g x) :
    average (xs.map f) ≤ average (xs.map g) := by
  have hsum : (xs.map f).sum ≤ (xs.map g).sum := List.sum_le_sum h
  rw [average, average, List.length_map, List.length_map]
  exact div_le_div_of_nonneg_right hsum (Nat.cast_nonneg _)

theorem average_const {xs : List α} (h : xs ≠ []) (c : K) : average (xs.map fun _ => c) = c := by
  have hlength : (xs.length : K) ≠ 0 := by
    have hpos := List.length_pos_iff.mpr h
    exact_mod_cast hpos.ne'
  rw [average, List.map_const', List.sum_replicate, List.length_replicate, nsmul_eq_mul]
  field_simp

theorem average_unit {xs : List K} (h : ∀ x ∈ xs, 0 ≤ x ∧ x ≤ 1) :
    0 ≤ average xs ∧ average xs ≤ 1 := by
  by_cases hnil : xs = []
  · simp [hnil, average]
  · have hlow := average_mono (f := fun _ => (0 : K)) (g := id) fun x hx => (h x hx).1
    have hhigh := average_mono (f := id) (g := fun _ => (1 : K)) fun x hx => (h x hx).2
    rw [average_const hnil, List.map_id] at hlow hhigh
    exact ⟨hlow, hhigh⟩

/-- The square of an average is at most the average of the squares. -/
theorem sq_average_le (xs : List K) : average xs ^ 2 ≤ average (xs.map (· ^ 2)) := by
  have hsum : ∀ f : K → K, (xs.map f).sum = ∑ i, f (xs.get i) := by
    intro f
    have hlist := List.map_ofFn (f := xs.get) (g := f)
    rw [List.ofFn_get] at hlist
    rw [hlist, List.sum_ofFn]
    rfl
  have hplain := hsum id
  rw [List.map_id] at hplain
  have hcauchy := sum_div_card_sq_le_sum_sq_div_card (s := Finset.univ) (f := xs.get)
  rw [Finset.card_univ, Fintype.card_fin] at hcauchy
  rw [average, average, List.length_map, hplain, hsum (· ^ 2)]
  exact hcauchy

theorem sum_map_sub (xs : List α) (f g : α → K) :
    (xs.map fun x => f x - g x).sum = (xs.map f).sum - (xs.map g).sum := by
  induction xs with
  | nil => simp
  | cons x xs ih =>
      simp only [List.map_cons, List.sum_cons, ih]
      ring

/-! ## Weighted sums -/

section weights

variable {xs : List α} {w f g : α → K} {b : K}

theorem weighted_le (hw : ∀ x ∈ xs, 0 ≤ w x) (hone : (xs.map w).sum = 1) (h : ∀ x ∈ xs, f x ≤ b) :
    (xs.map fun x => w x * f x).sum ≤ b := by
  have hterm : ∀ x ∈ xs, w x * f x ≤ w x * b :=
    fun x hx => mul_le_mul_of_nonneg_left (h x hx) (hw x hx)
  calc (xs.map fun x => w x * f x).sum ≤ (xs.map fun x => w x * b).sum := List.sum_le_sum hterm
    _ = b := by rw [List.sum_map_mul_right, hone, one_mul]

theorem abs_weighted_sub_le (hw : ∀ x ∈ xs, 0 ≤ w x) (hone : (xs.map w).sum = 1)
    (h : ∀ x ∈ xs, |f x - g x| ≤ b) :
    |(xs.map fun x => w x * f x).sum - (xs.map fun x => w x * g x).sum| ≤ b := by
  have hsub : ∀ f g : α → K, (xs.map fun x => w x * f x).sum - (xs.map fun x => w x * g x).sum =
      (xs.map fun x => w x * (f x - g x)).sum := by
    intro f g
    rw [← sum_map_sub]
    simp only [mul_sub]
  have habove := weighted_le hw hone fun x hx => (abs_le.mp (h x hx)).2
  have hother : ∀ x ∈ xs, g x - f x ≤ b := by
    intro x hx
    linarith [(abs_le.mp (h x hx)).1]
  have hbelow := weighted_le hw hone hother
  rw [← hsub] at habove hbelow
  rw [abs_le]
  constructor <;> linarith

end weights

/-! ## Groups -/

section groups

variable {xs : List α} {group : α → ℕ} {n : ℕ}

/-- The members of a group. -/
def members (group : α → ℕ) (xs : List α) (i : ℕ) : List α := xs.filter (group · = i)

theorem sum_members (h : ∀ x ∈ xs, group x < n) (f : α → K) :
    ((List.range n).map fun i => ((members group xs i).map f).sum).sum = (xs.map f).sum := by
  induction xs with
  | nil => simp [members]
  | cons x xs ih =>
      obtain ⟨hx, hxs⟩ := List.forall_mem_cons.mp h
      have hcons : ∀ i, ((members group (x :: xs) i).map f).sum =
          (if i = group x then f x else 0) + ((members group xs i).map f).sum := by
        intro i
        by_cases hi : group x = i
        · simp [members, hi]
        · simp [members, hi, Ne.symm hi]
      have hone : ((List.range n).map fun i => if i = group x then f x else 0).sum = f x := by
        rw [List.sum_map_ite_eq, List.count_eq_one_of_mem List.nodup_range (List.mem_range.mpr hx),
          one_nsmul]
        simp
      rw [List.map_congr_left fun i _ => hcons i, List.sum_map_add, hone, ih hxs, List.map_cons,
        List.sum_cons]

theorem length_members (h : ∀ x ∈ xs, group x < n) :
    ((List.range n).map fun i => (members group xs i).length).sum = xs.length := by
  have hsum := sum_members (K := ℚ) h fun _ => 1
  have hcount : ∀ ys : List α, (ys.map fun _ => (1 : ℚ)).sum = ys.length := by simp
  simp only [hcount] at hsum
  have hcast : (((List.range n).map fun i => (members group xs i).length).sum : ℚ) =
      ((List.range n).map fun i => ((members group xs i).length : ℚ)).sum := by
    rw [Nat.cast_list_sum, List.map_map]
    rfl
  exact_mod_cast hcast.trans hsum

/-- The difference of two quantities that is left between the averages of the groups, in the
proportion of their members. -/
def gap (group : α → ℕ) (n : ℕ) (f g : α → K) (xs : List α) : K :=
  ((List.range n).map fun i => (members group xs i).length / xs.length *
    |average ((members group xs i).map f) - average ((members group xs i).map g)|).sum

theorem length_mul_abs_le (xs : List α) (f g : α → K) :
    xs.length * |average (xs.map f) - average (xs.map g)| ≤ (xs.map fun x => |f x - g x|).sum := by
  have hlength : ∀ f : α → K, xs.length * average (xs.map f) = (xs.map f).sum := by
    intro f
    have hsum := length_mul_average (xs.map f)
    rwa [List.length_map] at hsum
  have hsub : xs.length * (average (xs.map f) - average (xs.map g)) =
      (xs.map fun x => f x - g x).sum := by
    rw [mul_sub, hlength, hlength, sum_map_sub]
  have habs : |(xs.map fun x => f x - g x).sum| ≤ (xs.map fun x => |f x - g x|).sum := by
    have hmulti := Multiset.abs_sum_le_sum_abs (s := (xs.map fun x => f x - g x : Multiset K))
    simpa [Function.comp_def] using hmulti
  calc xs.length * |average (xs.map f) - average (xs.map g)|
      = |xs.length * (average (xs.map f) - average (xs.map g))| := by
        rw [abs_mul, Nat.abs_cast]
    _ ≤ (xs.map fun x => |f x - g x|).sum := by rwa [hsub]

theorem gap_nonneg (group : α → ℕ) (n : ℕ) (f g : α → K) (xs : List α) :
    0 ≤ gap group n f g xs := by
  refine List.sum_nonneg fun y hy => ?_
  obtain ⟨i, -, rfl⟩ := List.mem_map.mp hy
  positivity

/-- Averaging inside the groups hides differences, and adds none. -/
theorem gap_le (h : ∀ x ∈ xs, group x < n) (f g : α → K) :
    gap group n f g xs ≤ average (xs.map fun x => |f x - g x|) := by
  have hterm : ∀ i ∈ List.range n, (members group xs i).length / xs.length *
      |average ((members group xs i).map f) - average ((members group xs i).map g)| ≤
        ((members group xs i).map fun x => |f x - g x|).sum * (xs.length : K)⁻¹ := by
    intro i _
    have hle := length_mul_abs_le (members group xs i) f g
    have hinv : (0 : K) ≤ (xs.length : K)⁻¹ := by positivity
    calc _ = (members group xs i).length *
          |average ((members group xs i).map f) - average ((members group xs i).map g)| *
            (xs.length : K)⁻¹ := by ring
      _ ≤ _ := mul_le_mul_of_nonneg_right hle hinv
  calc gap group n f g xs
      ≤ ((List.range n).map fun i =>
          ((members group xs i).map fun x => |f x - g x|).sum * (xs.length : K)⁻¹).sum :=
        List.sum_le_sum hterm
    _ = (xs.map fun x => |f x - g x|).sum * (xs.length : K)⁻¹ := by
        rw [List.sum_map_mul_right, sum_members h]
    _ = average (xs.map fun x => |f x - g x|) := by
        rw [average, List.length_map, div_eq_mul_inv]

/-- The square of the gap is at most the average of the squared differences. -/
theorem sq_gap_le (h : ∀ x ∈ xs, group x < n) (f g : α → K) :
    gap group n f g xs ^ 2 ≤ average (xs.map fun x => (f x - g x) ^ 2) := by
  have hgap := gap_le h f g
  have hsquares := sq_average_le (xs.map fun x => |f x - g x|)
  rw [List.map_map] at hsquares
  have habs : ((· ^ 2) ∘ fun x => |f x - g x|) = fun x => (f x - g x) ^ 2 := by
    funext x
    exact sq_abs _
  rw [habs] at hsquares
  calc gap group n f g xs ^ 2 ≤ average (xs.map fun x => |f x - g x|) ^ 2 :=
        pow_le_pow_left₀ (gap_nonneg group n f g xs) hgap 2
    _ ≤ _ := hsquares

theorem members_perm {ys : List α} (h : xs.Perm ys) (i : ℕ) :
    (members group xs i).Perm (members group ys i) := h.filter _

end groups

end Averages
