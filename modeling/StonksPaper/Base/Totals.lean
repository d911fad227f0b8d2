import Mathlib.Algebra.BigOperators.Group.List.Basic
import StonksPaper.Base.Table

/-!
# Totals of a table

What the rows of one key add up to. An update that keeps the keys moves a total by what it adds to
the one row it finds, so two tables that are written together keep the same totals.
-/

namespace Table

universe u v w

variable {α : Type u} {κ : Type v} {M : Type w} [DecidableEq κ] [AddCommGroup M]

/-- The values of the rows with a key, added up. -/
def total (key : α → κ) (value : α → M) (rows : List α) (k : κ) : M :=
  ((rows.filter (key · = k)).map value).sum

variable {key : α → κ} {value : α → M} {rows : List α} {k : κ}

@[simp] theorem total_nil : total key value [] k = 0 := rfl

theorem total_cons {r : α} :
    total key value (r :: rows) k =
    (if key r = k then value r else 0) + total key value rows k := by
  unfold total
  by_cases h : key r = k
  · simp [h]
  · simp [h]

theorem total_append (xs ys : List α) :
    total key value (xs ++ ys) k = total key value xs k + total key value ys k := by
  simp [total]

theorem total_map {β : Type u} {f : β → α} (xs : List β) :
    total key value (xs.map f) k = total (fun b => key (f b)) (fun b => value (f b)) xs k := by
  induction xs with
  | nil => rfl
  | cons x xs ih => rw [List.map_cons, total_cons, total_cons, ih]

theorem total_eq_sum :
    total key value rows k = (rows.map fun r => if key r = k then value r else 0).sum := by
  induction rows with
  | nil => rfl
  | cons r rows ih => rw [total_cons, ih, List.map_cons, List.sum_cons]

theorem total_congr {value' : α → M} (h : ∀ r ∈ rows, value r = value' r) :
    total key value rows k = total key value' rows k := by
  unfold total
  exact congrArg List.sum (List.map_congr_left fun r hr => h r (List.mem_of_mem_filter hr))

theorem total_eq_zero (h : ∀ r ∈ rows, key r = k → value r = 0) : total key value rows k = 0 := by
  induction rows with
  | nil => rfl
  | cons r rows ih =>
      rw [total_cons, ih fun x hx => h x (List.mem_cons_of_mem _ hx), add_zero]
      by_cases hr : key r = k
      · rw [if_pos hr, h r (List.mem_cons_self ..) hr]
      · rw [if_neg hr]

theorem total_fresh (h : Fresh key k rows) : total key value rows k = 0 := by
  have hnone : rows.filter (key · = k) = [] := by simpa [Fresh] using h
  rw [total, hnone]
  rfl

theorem total_of_mem (hunique : Unique key rows) {x : α} (hx : x ∈ rows) :
    total key value rows (key x) = value x := by
  rw [total, hunique.filter_eq hx]
  simp

section update

variable {p : α → Prop} [DecidablePred p] {f : α → α}

/-- An update of neither key nor value leaves the totals. -/
theorem total_update_of_kept (hkey : ∀ r, p r → key (f r) = key r)
    (hvalue : ∀ r, p r → value (f r) = value r) :
    total key value (update p f rows) k = total key value rows k := by
  induction rows with
  | nil => rfl
  | cons r rows ih =>
      rw [update, List.map_cons, ← update, total_cons, total_cons, ih]
      by_cases hp : p r
      · rw [if_pos hp, hkey r hp, hvalue r hp]
      · rw [if_neg hp]

/-- An update of the one row it finds moves the total of that row's key. -/
theorem total_update {x : α} {k' : κ} {d : M} (hunique : Unique key rows) (hx : x ∈ rows) (hp : p x)
    (hfound : ∀ r, p r → key r = k') (hkey : ∀ r, p r → key (f r) = key r)
    (hvalue : ∀ r, p r → value (f r) = value r + d) :
    total key value (update p f rows) k =
      total key value rows k + if k' = k then d else 0 := by
  induction rows with
  | nil => cases hx
  | cons r rows ih =>
      have hnodup := List.nodup_cons.mp hunique
      rw [update, List.map_cons, ← update, total_cons, total_cons]
      by_cases hr : p r
      · -- the other rows have other keys, so the update does not find them
        have hrest : update p f rows = rows := by
          refine update_eq_self fun y hy hpy => hnodup.1 ?_
          rw [hfound r hr, ← hfound y hpy]
          exact List.mem_map_of_mem hy
        rw [if_pos hr, hrest, hkey r hr, hvalue r hr, hfound r hr]
        by_cases hk : k' = k
        · simp only [if_pos hk]
          abel
        · simp only [if_neg hk]
          abel
      · have hlater : x ∈ rows := by
          rcases List.mem_cons.mp hx with rfl | hx
          · exact absurd hp hr
          · exact hx
        rw [if_neg hr, ih hnodup.2 hlater, add_assoc]

end update

/-! ## Keys of two parts -/

/-- A table whose rows are unique for each first part of a key is unique. -/
theorem Unique.of_parts {κ' : Type v} (first : α → κ) (second : α → κ')
    (h : ∀ a, Unique second (rows.filter (first · = a))) :
    Unique (fun r => (first r, second r)) rows := by
  induction rows with
  | nil => exact unique_nil
  | cons r rows ih =>
      refine List.nodup_cons.mpr ⟨fun hmem => ?_, ih fun a => ?_⟩
      · obtain ⟨y, hy, hsame⟩ := List.mem_map.mp hmem
        have hparts := Prod.ext_iff.mp hsame
        have hr := h (first r)
        rw [List.filter_cons_of_pos (by simp)] at hr
        refine (List.nodup_cons.mp hr).1 ?_
        have hsecond : second y = second r := hparts.2
        rw [← hsecond]
        exact List.mem_map_of_mem (List.mem_filter.mpr ⟨hy, decide_eq_true hparts.1⟩)
      · have ha := h a
        by_cases hr : first r = a
        · rw [List.filter_cons_of_pos (by simpa using hr)] at ha
          exact (List.nodup_cons.mp ha).2
        · rwa [List.filter_cons_of_neg (by simpa using hr)] at ha

end Table
