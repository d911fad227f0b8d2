import Mathlib.Algebra.BigOperators.Group.List.Basic
import Mathlib.Algebra.GroupWithZero.Nat
import Mathlib.Data.Int.Init
import Mathlib.Data.List.Forall2
import Mathlib.Order.Basic

/-!
# Measuring against a budget

A measure is told how much of a budget remains. It is exact when it finds its size within any budget
that covers the size, and refuses every other one. Exact measures compose: one after the other on
what the first has left, and in a loop with a running total. A check that spends a budget passes on
what it leaves; checks that cost a fixed amount add up.
-/

namespace Budget

variable {ε ι : Type} {f g : ℤ → Except ε ℤ} {m n : ℕ} {remaining : ℤ}

/-- The measure finds the size `n` in a budget that covers it, and refuses a smaller one. -/
def Measures (f : ℤ → Except ε ℤ) (n : ℕ) : Prop :=
  ∀ remaining : ℤ, (n ≤ remaining → f remaining = .ok n) ∧
    (remaining < n → ∃ e, f remaining = .error e)

/-- The measure refuses every budget. -/
def Refuses (f : ℤ → Except ε ℤ) : Prop := ∀ remaining : ℤ, ∃ e, f remaining = .error e

/-- The exceptions of the measure have the property. -/
def Raises (E : ε → Prop) (f : ℤ → Except ε ℤ) : Prop := ∀ remaining e, f remaining = .error e → E e

/-- A size that is known. -/
def within (error : ε) (size remaining : ℤ) : Except ε ℤ :=
  if size > remaining then .error error else .ok size

/-- One measure, and then another on what is left. -/
def seq (f g : ℤ → Except ε ℤ) (remaining : ℤ) : Except ε ℤ := do
  let first ← f remaining
  let second ← g (remaining - first)
  return first + second

/-- A loop of measures over a running total. -/
def total (f : ι → ℤ → Except ε ℤ) (xs : List ι) (start remaining : ℤ) : Except ε ℤ :=
  xs.foldlM (fun total x => do
    let size ← f x (remaining - total)
    return total + size) start

theorem measures_within (error : ε) (n : ℕ) : Measures (within error n) n := by
  intro remaining
  constructor
  · intro hle
    exact if_neg (by omega)
  · intro hlt
    exact ⟨error, if_pos (by omega)⟩

theorem Measures.seq (hf : Measures f m) (hg : Measures g n) : Measures (seq f g) (m + n) := by
  intro remaining
  unfold Budget.seq
  by_cases hm : (m : ℤ) ≤ remaining
  · rw [(hf remaining).1 hm]
    constructor
    · intro hle
      have hsecond := (hg (remaining - m)).1 (by push_cast at hle; omega)
      simp only [hsecond, bind, Except.bind, pure, Except.pure, Int.natCast_add]
    · intro hlt
      obtain ⟨e, hsecond⟩ := (hg (remaining - m)).2 (by push_cast at hlt; omega)
      exact ⟨e, by simp only [hsecond, bind, Except.bind]⟩
  · obtain ⟨e, hfirst⟩ := (hf remaining).2 (by omega)
    rw [hfirst]
    constructor
    · intro hle
      push_cast at hle
      omega
    · intro _
      exact ⟨e, rfl⟩

theorem Refuses.seq (hf : Refuses f) : Refuses (seq f g) := by
  intro remaining
  obtain ⟨e, h⟩ := hf remaining
  exact ⟨e, by simp only [Budget.seq, h, bind, Except.bind]⟩

theorem Refuses.seq_right (hg : Refuses g) : Refuses (Budget.seq f g) := by
  intro remaining
  unfold Budget.seq
  cases f remaining with
  | error e => exact ⟨e, rfl⟩
  | ok first =>
      obtain ⟨e, h⟩ := hg (remaining - first)
      exact ⟨e, by simp only [h, bind, Except.bind]⟩

theorem Raises.seq {E : ε → Prop} (hf : Raises E f) (hg : Raises E g) : Raises E (seq f g) := by
  intro remaining e h
  unfold Budget.seq at h
  cases hfirst : f remaining with
  | error e' =>
      rw [hfirst] at h
      cases h
      exact hf remaining _ hfirst
  | ok first =>
      rw [hfirst] at h
      cases hsecond : g (remaining - first) with
      | error e' =>
          simp only [hsecond, bind, Except.bind] at h
          cases h
          exact hg _ _ hsecond
      | ok second =>
          simp only [hsecond, bind, Except.bind] at h
          cases h

/-! ## Loops -/

section

variable {F : ι → ℤ → Except ε ℤ} {xs : List ι} {sizes : List ℕ} {x : ι}

theorem total_cons (start : ℤ) : total F (x :: xs) start remaining =
    F x (remaining - start) >>= fun size => total F xs (start + size) remaining := by
  simp only [total, List.foldlM_cons]
  cases F x (remaining - start) <;> rfl

/-- A loop of exact measures is exact, from any total that the budget still covers. -/
theorem total_measures (h : List.Forall₂ (fun x n => Measures (F x) n) xs sizes) {start : ℕ}
    (hstart : start ≤ remaining) :
    ((start + sizes.sum : ℕ) ≤ remaining →
      total F xs start remaining = .ok ((start + sizes.sum : ℕ) : ℤ)) ∧
    (remaining < (start + sizes.sum : ℕ) → ∃ e, total F xs start remaining = .error e) := by
  induction h generalizing start with
  | nil =>
      simp only [List.sum_nil, Nat.add_zero]
      exact ⟨fun _ => rfl, fun hlt => absurd hstart (by omega)⟩
  | @cons x n xs sizes hx _ ih =>
      rw [total_cons, List.sum_cons]
      by_cases hn : (n : ℤ) ≤ remaining - start
      · have hnext : ((start + n : ℕ) : ℤ) ≤ remaining := by push_cast; omega
        rw [(hx (remaining - start)).1 hn]
        show (_ → total F xs (start + n) remaining = _) ∧
          (_ → ∃ e, total F xs (start + n) remaining = .error e)
        rw [← Nat.add_assoc, ← Int.natCast_add]
        exact ih hnext
      · obtain ⟨e, he⟩ := (hx (remaining - start)).2 (by omega)
        rw [he]
        constructor
        · intro hle
          omega
        · intro _
          exact ⟨e, rfl⟩

/-- One refusal ends the loop. -/
theorem total_refuses (hx : x ∈ xs) (h : Refuses (F x)) (start : ℤ) :
    ∃ e, total F xs start remaining = .error e := by
  induction xs generalizing start with
  | nil => cases hx
  | cons y ys ih =>
      rw [total_cons]
      cases hy : F y (remaining - start) with
      | error e => exact ⟨e, rfl⟩
      | ok size =>
          rcases List.mem_cons.mp hx with rfl | hmem
          · obtain ⟨e, he⟩ := h (remaining - start)
            rw [he] at hy
            cases hy
          · exact ih hmem (start + size)

theorem total_raises {E : ε → Prop} (h : ∀ x ∈ xs, Raises E (F x)) (start : ℤ) {e : ε}
    (he : total F xs start remaining = .error e) : E e := by
  induction xs generalizing start with
  | nil => cases he
  | cons y ys ih =>
      rw [total_cons] at he
      cases hy : F y (remaining - start) with
      | error e' =>
          rw [hy] at he
          cases he
          exact h y List.mem_cons_self _ _ hy
      | ok size =>
          rw [hy] at he
          exact ih (fun z hz => h z (List.mem_cons_of_mem y hz)) (start + size) he

/-- A size that is known, and then a loop from it. -/
def framed (error : ε) (size : ℤ) (f : ι → ℤ → Except ε ℤ) (xs : List ι) (remaining : ℤ) :
    Except ε ℤ :=
  within error size remaining >>= fun start => total f xs start remaining

theorem measures_framed (error : ε) (n : ℕ)
    (h : List.Forall₂ (fun x n => Measures (F x) n) xs sizes) :
    Measures (framed error n F xs) (n + sizes.sum) := by
  intro remaining
  unfold framed
  by_cases hn : (n : ℤ) ≤ remaining
  · rw [(measures_within error n remaining).1 hn]
    exact total_measures h hn
  · obtain ⟨e, he⟩ := (measures_within error n remaining).2 (by omega)
    rw [he]
    constructor
    · intro hle
      omega
    · intro _
      exact ⟨e, rfl⟩

theorem refuses_framed (error : ε) (size : ℤ) (hx : x ∈ xs) (h : Refuses (F x)) :
    Refuses (framed error size F xs) := by
  intro remaining
  unfold framed
  cases within error size remaining with
  | error e => exact ⟨e, rfl⟩
  | ok start => exact total_refuses hx h start

theorem raises_within {E : ε → Prop} {error : ε} (h : E error) (size : ℤ) :
    Raises E (within error size) := by
  intro remaining e he
  unfold within at he
  split at he
  · cases he
    exact h
  · cases he

theorem raises_framed {E : ε → Prop} {error : ε} (herror : E error) (size : ℤ)
    (h : ∀ x ∈ xs, Raises E (F x)) : Raises E (framed error size F xs) := by
  intro remaining e he
  unfold framed at he
  cases hstart : within error size remaining with
  | error e' =>
      rw [hstart] at he
      cases he
      exact raises_within herror size remaining _ hstart
  | ok start =>
      rw [hstart] at he
      exact total_raises h start he

end

/-! ## Checks that spend a budget -/

section

variable {P Q : Prop} {f g : ℕ → Except ε ℕ} {F : ι → ℕ → Except ε ℕ} {κ : Type} {p : κ → Prop}
  {cost : κ → ℕ} {xs : List ι} {ys : List κ}

/-- The check passes if it may and the budget covers its cost, and passes on the rest. -/
def Spends (f : ℕ → Except ε ℕ) (P : Prop) (cost : ℕ) : Prop :=
  ∀ remaining left, f remaining = .ok left ↔ P ∧ cost + left = remaining

theorem spends_ok : Spends (.ok : ℕ → Except ε ℕ) True 0 := by
  intro remaining left
  simp only [Except.ok.injEq, true_and, Nat.zero_add]
  exact eq_comm

theorem spends_error (error : ε) (hP : ¬ P) (n : ℕ) :
    Spends (fun _ => .error error) P n := by
  intro remaining left
  simp only [reduceCtorEq, hP, false_and]

theorem spends_if [Decidable P] (error : ε) :
    Spends (fun remaining => if P then .ok remaining else .error error) P 0 := by
  intro remaining left
  by_cases hP : P <;> simp [hP, eq_comm]

theorem Spends.congr (h : Spends f P m) (hPQ : P ↔ Q) (hmn : m = n) : Spends f Q n := by
  intro remaining left
  rw [h, hPQ, hmn]

theorem Spends.andThen (hf : Spends f P m) (hg : Spends g Q n) :
    Spends (fun remaining => f remaining >>= g) (P ∧ Q) (m + n) := by
  intro remaining left
  show Except.bind (f remaining) g = .ok left ↔ _
  constructor
  · intro h
    cases hfirst : f remaining with
    | error e =>
        rw [hfirst] at h
        cases h
    | ok middle =>
        rw [hfirst] at h
        obtain ⟨hP, hm⟩ := (hf _ _).mp hfirst
        obtain ⟨hQ, hn⟩ := (hg _ _).mp h
        exact ⟨⟨hP, hQ⟩, by omega⟩
  · intro h
    obtain ⟨⟨hP, hQ⟩, hsum⟩ := h
    have hfirst : f remaining = .ok (n + left) := (hf _ _).mpr ⟨hP, by omega⟩
    rw [hfirst]
    exact (hg _ _).mpr ⟨hQ, rfl⟩

theorem Spends.foldlM (h : List.Forall₂ (fun x y => Spends (F x) (p y) (cost y)) xs ys) :
    Spends (fun remaining => xs.foldlM (fun remaining x => F x remaining) remaining)
      (∀ y ∈ ys, p y) (ys.map cost).sum := by
  induction h with
  | nil => exact spends_ok.congr (by simp) rfl
  | @cons x y xs ys hxy _ ih =>
      simp only [List.foldlM_cons]
      exact (hxy.andThen ih).congr List.forall_mem_cons.symm (by rw [List.map_cons, List.sum_cons])

end

end Budget
