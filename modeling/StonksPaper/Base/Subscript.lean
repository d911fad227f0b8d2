import Mathlib.Data.List.Basic
import Mathlib.Order.Interval.Set.Basic
import Mathlib.Data.Int.Init

/-!
# Subscripts and slices

`xs[k]` and `xs[a:b]` of a language in which a negative position counts from the end. On positions
that are not negative they are the usual ones, and a slice depends only on what lies between its
bounds.
-/

namespace Subscript

variable {α : Type*} {xs ys : List α} {x : α} {a b n : ℕ}

/-- `xs[k]`, if there is such an element. -/
def get (xs : List α) (k : ℤ) : Option α :=
  if 0 ≤ k then xs[k.toNat]? else if -xs.length ≤ k then xs[(xs.length + k).toNat]? else none

@[simp] theorem get_natCast : get xs n = xs[n]? := by simp [get]

/-- The place of a bound of a slice. -/
def bound (length : ℕ) (k : ℤ) : ℕ := if 0 ≤ k then min k.toNat length else (length + k).toNat

/-- `xs[start:stop]`. -/
def slice (xs : List α) (start stop : ℤ) : List α :=
  (xs.take (bound xs.length stop)).drop (bound xs.length start)

theorem slice_natCast : slice xs a b = (xs.take b).drop a := by
  have htake : xs.take (min b xs.length) = xs.take b := by
    rw [← List.take_take, List.take_length]
  simp only [slice, bound, Int.natCast_nonneg, if_true, Int.toNat_natCast, htake]
  by_cases ha : a ≤ xs.length
  · rw [min_eq_left ha]
  · have hshort : (xs.take b).length ≤ xs.length := by
      rw [List.length_take]
      exact min_le_right b xs.length
    rw [min_eq_right (by omega), List.drop_of_length_le hshort, List.drop_of_length_le (by omega)]

theorem getElem?_slice : (slice xs a b)[n]? = if a + n < b then xs[a + n]? else none := by
  rw [slice_natCast, List.getElem?_drop, List.getElem?_take]

theorem mem_slice : x ∈ slice xs a b ↔ ∃ k, a ≤ k ∧ k < b ∧ xs[k]? = some x := by
  rw [List.mem_iff_getElem?]
  constructor
  · intro h
    obtain ⟨n, hn⟩ := h
    rw [getElem?_slice] at hn
    split at hn
    · exact ⟨a + n, Nat.le_add_right a n, by assumption, hn⟩
    · cases hn
  · intro h
    obtain ⟨k, hak, hkb, hk⟩ := h
    refine ⟨k - a, ?_⟩
    rw [getElem?_slice, Nat.add_sub_cancel' hak, if_pos hkb, hk]

theorem slice_congr (h : ∀ k, a ≤ k → k < b → xs[k]? = ys[k]?) : slice xs a b = slice ys a b := by
  apply List.ext_getElem?
  intro n
  simp only [getElem?_slice]
  split
  · exact h (a + n) (Nat.le_add_right a n) (by assumption)
  · rfl

end Subscript
