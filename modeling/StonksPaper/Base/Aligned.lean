import Mathlib.Data.List.Forall2

/-!
# Lists in step

Two lists of one length whose entries are related one by one. What the relation says of a pair of
entries holds of the lists as wholes.
-/

namespace List.Forall₂

variable {α β γ : Type*} {R : α → β → Prop} {xs : List α} {ys : List β}

theorem map_eq {f : α → γ} {g : β → γ} (h : List.Forall₂ R xs ys) (hfg : ∀ x y, R x y → f x = g y) :
    xs.map f = ys.map g := by
  induction h with
  | nil => rfl
  | cons hxy _ ih => rw [List.map_cons, List.map_cons, hfg _ _ hxy, ih]

theorem forall_mem_iff {p : α → Prop} {q : β → Prop} (h : List.Forall₂ R xs ys)
    (hpq : ∀ x y, R x y → (p x ↔ q y)) : (∀ x ∈ xs, p x) ↔ ∀ y ∈ ys, q y := by
  induction h with
  | nil => simp
  | cons hxy _ ih => rw [List.forall_mem_cons, List.forall_mem_cons, hpq _ _ hxy, ih]

theorem exists_right (h : List.Forall₂ R xs ys) {x : α} (hx : x ∈ xs) : ∃ y ∈ ys, R x y := by
  induction h with
  | nil => cases hx
  | @cons a b as bs hab _ ih =>
      rcases List.mem_cons.mp hx with rfl | hmem
      · exact ⟨b, List.mem_cons_self, hab⟩
      · obtain ⟨y, hy, hxy⟩ := ih hmem
        exact ⟨y, List.mem_cons_of_mem _ hy, hxy⟩

theorem exists_left (h : List.Forall₂ R xs ys) {y : β} (hy : y ∈ ys) : ∃ x ∈ xs, R x y :=
  h.flip.exists_right hy

theorem join {S : α → γ → Prop} {T : β → γ → Prop} {zs : List γ} (h : List.Forall₂ R xs ys)
    (hs : List.Forall₂ S xs zs) (ht : ∀ x y z, R x y → S x z → T y z) : List.Forall₂ T ys zs := by
  induction h generalizing zs with
  | nil =>
      cases hs
      exact .nil
  | cons hxy _ ih =>
      cases hs with
      | cons hxz hs => exact .cons (ht _ _ _ hxy hxz) (ih hs)

theorem exists_of_forall (h : ∀ x ∈ xs, ∃ y, R x y) : ∃ ys, List.Forall₂ R xs ys := by
  induction xs with
  | nil => exact ⟨[], .nil⟩
  | cons x xs ih =>
      obtain ⟨y, hy⟩ := h x List.mem_cons_self
      obtain ⟨ys, hys⟩ := ih fun z hz => h z (List.mem_cons_of_mem x hz)
      exact ⟨y :: ys, .cons hy hys⟩

/-- A loop that collects succeeds when each of its rounds does. -/
theorem mapM_eq_some {f : α → Option β} :
    xs.mapM f = some ys ↔ List.Forall₂ (fun x y => f x = some y) xs ys := by
  induction xs generalizing ys with
  | nil => simp [eq_comm]
  | cons x xs ih =>
      simp only [List.mapM_cons, Option.bind_eq_bind, Option.pure_def, Option.bind_eq_some_iff,
        Option.some.injEq, List.forall₂_cons_left_iff]
      constructor
      · intro h
        obtain ⟨y, hy, zs, hzs, rfl⟩ := h
        exact ⟨y, zs, hy, ih.mp hzs, rfl⟩
      · intro h
        obtain ⟨y, zs, hy, hzs, rfl⟩ := h
        exact ⟨y, hy, zs, ih.mpr hzs, rfl⟩

theorem mapM_eq {f : α → Option γ} {g : β → Option γ} (h : List.Forall₂ R xs ys)
    (hfg : ∀ x y, R x y → f x = g y) : xs.mapM f = ys.mapM g := by
  induction h with
  | nil => rfl
  | cons hxy _ ih => rw [List.mapM_cons, List.mapM_cons, hfg _ _ hxy, ih]

end List.Forall₂
