import Mathlib.Algebra.BigOperators.Group.List.Basic
import Mathlib.Data.List.Nodup
import Mathlib.Tactic.Abel

/-!
# Tables

A table is the list of its rows in the order of their insertion. A key is any function of a row;
that it is unique is an invariant (`Unique`), which an insertion keeps when the new row's key is
fresh. `update` is the statement that changes the rows a condition selects, and nothing else.
-/

universe u v w

namespace Table

variable {α : Type u} {κ : Type v}

/-- `update ... set f where p`. -/
def update (p : α → Prop) [DecidablePred p] (f : α → α) (rows : List α) : List α :=
  rows.map fun r => if p r then f r else r

section update

variable {p q : α → Prop} [DecidablePred p] [DecidablePred q] {f : α → α} {rows : List α} {x : α}

theorem mem_update : x ∈ update p f rows ↔ ∃ r ∈ rows, x = if p r then f r else r := by
  simp only [update, List.mem_map, eq_comm]

theorem forall_mem_update {P : α → Prop} (hkept : ∀ r ∈ rows, ¬ p r → P r)
    (hset : ∀ r ∈ rows, p r → P (f r)) : ∀ x ∈ update p f rows, P x := by
  intro x hx
  obtain ⟨r, hr, rfl⟩ := mem_update.mp hx
  by_cases hp : p r
  · rw [if_pos hp]
    exact hset r hr hp
  · rw [if_neg hp]
    exact hkept r hr hp

theorem exists_mem_update {P : α → Prop} (hset : ∀ r ∈ rows, p r → P r → P (f r))
    (h : ∃ r ∈ rows, P r) : ∃ x ∈ update p f rows, P x := by
  obtain ⟨r, hr, hP⟩ := h
  refine ⟨_, mem_update.mpr ⟨r, hr, rfl⟩, ?_⟩
  by_cases hp : p r
  · rw [if_pos hp]
    exact hset r hr hp hP
  · rw [if_neg hp]
    exact hP

theorem update_append (xs ys : List α) :
    update p f (xs ++ ys) = update p f xs ++ update p f ys := List.map_append

theorem map_update {β : Type w} {g : α → β} (h : ∀ r, p r → g (f r) = g r) :
    (update p f rows).map g = rows.map g := by
  rw [update, List.map_map]
  refine List.map_congr_left fun r _ => ?_
  simp only [Function.comp]
  split
  · rename_i hp; exact h r hp
  · rfl

theorem update_update_const {y : α} (hx : p x) :
    update p (fun _ => y) (update p (fun _ => x) rows) = update p (fun _ => y) rows := by
  rw [update, update, update, List.map_map]
  refine List.map_congr_left fun r _ => ?_
  by_cases hr : p r
  · simp [hr, hx]
  · simp [hr]

theorem update_of_fixed (h : ∀ r ∈ rows, p r → f r = r) : update p f rows = rows := by
  rw [update, List.map_congr_left (g := id) fun r hr => ?_, List.map_id]
  by_cases hp : p r
  · simp [hp, h r hr hp]
  · simp [hp]

theorem update_eq_self (h : ∀ r ∈ rows, ¬ p r) : update p f rows = rows := by
  rw [update, List.map_congr_left (g := id) fun r hr => by simp [h r hr], List.map_id]

theorem filter_update (h : ∀ r, p r → (q (f r) ↔ q r)) :
    (update p f rows).filter (q ·) = update p f (rows.filter (q ·)) := by
  rw [update, update, List.filter_map]
  congr 1
  refine List.filter_congr fun r _ => ?_
  simp only [Function.comp]
  split
  · rename_i hp; simpa using h r hp
  · rfl

theorem filter_update_of_disjoint (h : ∀ r, p r → (q (f r) ↔ q r)) (hdisjoint : ∀ r, q r → ¬ p r) :
    (update p f rows).filter (q ·) = rows.filter (q ·) := by
  rw [filter_update h]
  exact update_eq_self fun r hr => hdisjoint r (by simpa using (List.mem_filter.mp hr).2)

theorem forall_key_update_append (key : α → κ) (P : κ → Prop) {new : List α}
    (hkey : ∀ r, p r → key (f r) = key r) (hrows : ∀ r ∈ rows, P (key r))
    (hnew : ∀ r ∈ new, P (key r)) : ∀ r ∈ update p f rows ++ new, P (key r) := by
  refine List.forall_mem_append.mpr ⟨forall_mem_update (fun r hr _ => hrows r hr) ?_, hnew⟩
  intro r hr hp
  rw [hkey r hp]
  exact hrows r hr

theorem filter_update_append_other [DecidableEq κ] {key : α → κ} {k : κ} {new : List α}
    (hkey : ∀ r, p r → key (f r) = key r) (hother : ∀ r, p r → key r ≠ k)
    (hnew : ∀ r ∈ new, key r ≠ k) :
    (update p f rows ++ new).filter (key · = k) = rows.filter (key · = k) := by
  have hnone : new.filter (key · = k) = [] := by simpa using hnew
  rw [List.filter_append, hnone, List.append_nil]
  exact filter_update_of_disjoint (fun r hp => by rw [hkey r hp]) fun r hr hp => hother r hp hr

/-- A selection that excludes the updated rows, before and after, does not see the update. -/
theorem filter_update_of_excluded (h : ∀ r ∈ rows, p r → ¬ q r ∧ ¬ q (f r)) :
    (update p f rows).filter (q ·) = rows.filter (q ·) := by
  induction rows with
  | nil => rfl
  | cons r rows ih =>
      have hrest := ih fun x hx => h x (List.mem_cons_of_mem _ hx)
      rw [update] at hrest
      rw [update, List.map_cons, List.filter_cons, List.filter_cons, hrest]
      by_cases hp : p r
      · obtain ⟨hbefore, hafter⟩ := h r (List.mem_cons_self ..) hp
        simp [hp, hbefore, hafter]
      · simp [hp]

/-- A relation that the update respects row by row relates the tables. -/
theorem forall₂_update {R : α → α → Prop} (hrefl : ∀ r, R r r) (h : ∀ r, p r → R r (f r)) :
    List.Forall₂ R rows (update p f rows) := by
  induction rows with
  | nil => exact .nil
  | cons r rows ih =>
      rw [update, List.map_cons]
      refine .cons ?_ ih
      by_cases hp : p r
      · rw [if_pos hp]
        exact h r hp
      · rw [if_neg hp]
        exact hrefl r

end update

/-! ## Unique keys -/

/-- No two rows share a key. -/
def Unique (key : α → κ) (rows : List α) : Prop := (rows.map key).Nodup

/-- No row has the key yet. -/
def Fresh (key : α → κ) (k : κ) (rows : List α) : Prop := ∀ r ∈ rows, key r ≠ k

instance [DecidableEq κ] (key : α → κ) (k : κ) (rows : List α) : Decidable (Fresh key k rows) :=
  inferInstanceAs (Decidable (∀ _ ∈ _, _))

section unique

variable {key : α → κ} {rows : List α} {x y : α}

theorem unique_nil : Unique key ([] : List α) := List.nodup_nil

theorem Unique.concat (h : Unique key rows) (hfresh : Fresh key (key x) rows) :
    Unique key (rows ++ [x]) := by
  unfold Unique
  rw [List.map_append, List.map_singleton]
  exact h.append (List.nodup_singleton _) (by
    simpa [List.Disjoint] using fun r hr => hfresh r hr)

theorem Unique.update {p : α → Prop} [DecidablePred p] {f : α → α} (h : Unique key rows)
    (hkey : ∀ r, p r → key (f r) = key r) : Unique key (update p f rows) := by
  unfold Unique
  rw [map_update hkey]
  exact h

theorem Unique.eq (h : Unique key rows) (hx : x ∈ rows) (hy : y ∈ rows) (hkey : key x = key y) :
    x = y := List.inj_on_of_nodup_map h hx hy hkey

/-- The rows that share a row's key are that row alone. -/
theorem Unique.filter_eq [DecidableEq κ] (h : Unique key rows) (hx : x ∈ rows) :
    rows.filter (key · = key x) = [x] := by
  have hnodup : (rows.filter (key · = key x)).Nodup := (List.Nodup.of_map key h).filter _
  refine List.perm_singleton.mp ((List.perm_ext_iff_of_nodup hnodup (List.nodup_singleton x)).mpr
    fun y => ?_)
  rw [List.mem_filter, List.mem_singleton]
  constructor
  · rintro ⟨hy, hkey⟩
    exact h.eq hy hx (of_decide_eq_true hkey)
  · rintro rfl
    exact ⟨hx, decide_eq_true rfl⟩

theorem Unique.filter (h : Unique key rows) (p : α → Bool) : Unique key (rows.filter p) :=
  List.Nodup.sublist (List.Sublist.map key List.filter_sublist) h

/-- Rows of a table, with the other rows of it, are the whole table. -/
theorem complete_perm [DecidableEq κ] (ys : List α) (hrows : Unique key rows) (hys : Unique key ys)
    (hsub : ∀ y ∈ ys, y ∈ rows) :
    (ys ++ rows.filter fun x => key x ∉ ys.map key).Perm rows := by
  have hfiltered : (rows.filter fun x => key x ∉ ys.map key).Nodup :=
    (List.Nodup.of_map key hrows).filter _
  have hdisjoint : List.Disjoint ys (rows.filter fun x => key x ∉ ys.map key) := by
    intro x hx hx'
    have hfresh := (List.mem_filter.mp hx').2
    exact absurd (List.mem_map_of_mem hx) (of_decide_eq_true hfresh)
  refine (List.perm_ext_iff_of_nodup ((List.Nodup.of_map key hys).append hfiltered hdisjoint)
    (List.Nodup.of_map key hrows)).mpr fun x => ?_
  rw [List.mem_append, List.mem_filter]
  constructor
  · rintro (hx | hx)
    · exact hsub x hx
    · exact hx.1
  · intro hx
    by_cases hkey : key x ∈ ys.map key
    · obtain ⟨y, hy, hxy⟩ := List.mem_map.mp hkey
      rw [← hrows.eq (hsub y hy) hx hxy]
      exact .inl hy
    · exact .inr ⟨hx, by simpa using hkey⟩

end unique

/-! ## Reading one row -/

variable [DecidableEq κ] (key : α → κ)

/-- `session.get(Row, k)`. -/
def get (rows : List α) (k : κ) : Option α := rows.find? (key · = k)

variable {key} {rows : List α} {k : κ} {x : α}

theorem mem_of_get (h : get key rows k = some x) : x ∈ rows := List.mem_of_find?_eq_some h

theorem key_of_get (h : get key rows k = some x) : key x = k := by
  simpa using List.find?_some h

theorem get_eq_none : get key rows k = none ↔ Fresh key k rows := by
  simp [get, Fresh]

theorem get_of_mem (hunique : Unique key rows) (hx : x ∈ rows) : get key rows (key x) = some x := by
  cases h : get key rows (key x) with
  | none => exact absurd rfl (get_eq_none.mp h x hx)
  | some y => rw [hunique.eq (mem_of_get h) hx (key_of_get h)]

theorem get_append {xs ys : List α} :
    get key (xs ++ ys) k = (get key xs k).or (get key ys k) := List.find?_append

theorem get_of_perm {ys : List α} (hunique : Unique key rows) (hperm : ys.Perm rows) :
    get key ys k = get key rows k := by
  have hys : Unique key ys := (hperm.map key).nodup_iff.mpr hunique
  cases h : get key rows k with
  | none => exact get_eq_none.mpr fun x hx => get_eq_none.mp h x (hperm.mem_iff.mp hx)
  | some x =>
      have hx := get_of_mem hys (hperm.mem_iff.mpr (mem_of_get h))
      rwa [key_of_get h] at hx

theorem get_concat_self (hfresh : Fresh key (key x) rows) :
    get key (rows ++ [x]) (key x) = some x := by
  rw [get, List.find?_append, show rows.find? (key · = key x) = none from get_eq_none.mpr hfresh]
  simp

theorem get_concat_of_some {y : α} (h : get key rows k = some y) :
    get key (rows ++ [x]) k = some y := by
  rw [get, List.find?_append, show rows.find? (key · = k) = some y from h]
  rfl

theorem get_concat_of_ne (h : key x ≠ k) : get key (rows ++ [x]) k = get key rows k := by
  rw [get, List.find?_append]
  simp [h, get]

/-- Reading after an update that keeps the keys. -/
theorem get_update {p : α → Prop} [DecidablePred p] {f : α → α}
    (hkey : ∀ r, p r → key (f r) = key r) :
    get key (update p f rows) k = (get key rows k).map fun r => if p r then f r else r := by
  rw [get, update, List.find?_map, get]
  have hcomp : ((fun r => decide (key r = k)) ∘ fun r => if p r then f r else r) =
      fun r => decide (key r = k) := by
    funext r
    simp only [Function.comp]
    split
    · rename_i hp; rw [hkey r hp]
    · rfl
  rw [hcomp]

theorem get_update_of_ne {p : α → Prop} [DecidablePred p] {f : α → α}
    (hkey : ∀ r, p r → key (f r) = key r) (hother : ∀ r, p r → key r ≠ k) :
    get key (update p f rows) k = get key rows k := by
  rw [get_update hkey]
  cases h : get key rows k with
  | none => rfl
  | some r =>
      have hnot : ¬ p r := fun hp => hother r hp (key_of_get h)
      rw [Option.map_some, if_neg hnot]

theorem get_update_self {y : α} (hstored : get key rows k = some x) (hy : key y = k) :
    get key (update (key · = k) (fun _ => y) rows) k = some y := by
  rw [get_update fun r hr => hy.trans hr.symm, hstored, Option.map_some,
    if_pos (key_of_get hstored)]

/-- A sum over the rows moves with the one row that is updated. -/
theorem sum_map_update {M : Type w} [AddCommGroup M] {g : α → M} {f : α → α}
    (hunique : Unique key rows) (hstored : get key rows k = some x) :
    ((update (key · = k) f rows).map g).sum = (rows.map g).sum + (g (f x) - g x) := by
  induction rows with
  | nil => cases hstored
  | cons r rows ih =>
      have hnodup := List.nodup_cons.mp hunique
      rw [update, List.map_cons, List.map_cons, List.map_cons, List.sum_cons, List.sum_cons,
        ← update]
      by_cases hr : key r = k
      · have hfirst : r = x := by simpa [get, hr] using hstored
        have hrest : update (key · = k) f rows = rows := by
          apply update_eq_self
          intro y hy hkey
          exact hnodup.1 (hr.trans hkey.symm ▸ List.mem_map_of_mem hy)
        rw [if_pos hr, hrest, ← hfirst]
        abel
      · have hlater : get key rows k = some x := by simpa [get, hr] using hstored
        rw [if_neg hr, ih hnodup.2 hlater]
        abel

/-- The rows of one key are the one row that a lookup finds. -/
theorem sum_filter_key {M : Type w} [AddMonoid M] (hunique : Unique key rows) (value : α → M)
    (k : κ) : ((rows.filter (key · = k)).map value).sum = ((get key rows k).map value).getD 0 := by
  cases hget : get key rows k with
  | none =>
      have hnone : rows.filter (key · = k) = [] := by
        simpa [Fresh] using get_eq_none.mp hget
      rw [hnone]
      rfl
  | some x =>
      obtain rfl : key x = k := key_of_get hget
      rw [hunique.filter_eq (mem_of_get hget)]
      simp

end Table
