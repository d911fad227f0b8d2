import Mathlib.Data.List.Basic

/-!
# Runs of a state machine

A machine is a total step function; a command that is refused is a step that changes nothing. A
run is the list of its commands. `Meets` says of a condition on a command and the state it starts
from that every command of the run meets it, and `Meets.invariant` is the induction that turns a
fact about one such step into a fact about the whole run.
-/

universe u v

namespace Run

variable {σ : Type u} {ι : Type v} (step : σ → ι → σ)

/-- The state after the commands. -/
def run (s : σ) (commands : List ι) : σ := commands.foldl step s

@[simp] theorem run_nil (s : σ) : run step s [] = s := rfl

@[simp] theorem run_cons (s : σ) (c : ι) (cs : List ι) :
    run step s (c :: cs) = run step (step s c) cs := rfl

theorem run_append (s : σ) (cs ds : List ι) :
    run step s (cs ++ ds) = run step (run step s cs) ds := List.foldl_append

/-- Each command meets the condition in the state that it starts from. -/
def Meets (C : σ → ι → Prop) : σ → List ι → Prop
  | _, [] => True
  | s, c :: cs => C s c ∧ Meets C (step s c) cs

instance decidableMeets (C : σ → ι → Prop) [∀ s c, Decidable (C s c)] :
    ∀ (s : σ) (cs : List ι), Decidable (Meets step C s cs)
  | _, [] => isTrue trivial
  | s, c :: cs =>
      have := decidableMeets C (step s c) cs
      inferInstanceAs (Decidable (_ ∧ _))

variable {step} {C : σ → ι → Prop} {s : σ} {c : ι} {cs ds : List ι}

@[simp] theorem meets_nil : Meets step C s [] := trivial

@[simp] theorem meets_cons :
    Meets step C s (c :: cs) ↔ C s c ∧ Meets step C (step s c) cs := Iff.rfl

theorem meets_append :
    Meets step C s (cs ++ ds) ↔ Meets step C s cs ∧ Meets step C (run step s cs) ds := by
  induction cs generalizing s with
  | nil => simp
  | cons c cs ih => simp [ih, and_assoc]

theorem Meets.mono {D : σ → ι → Prop} (hmono : ∀ s c, C s c → D s c) (h : Meets step C s cs) :
    Meets step D s cs := by
  induction cs generalizing s with
  | nil => trivial
  | cons c cs ih => exact ⟨hmono _ _ h.1, ih h.2⟩

theorem meets_of_forall {P : ι → Prop} (h : ∀ c ∈ cs, P c) : Meets step (fun _ c => P c) s cs := by
  induction cs generalizing s with
  | nil => trivial
  | cons c cs ih =>
      exact ⟨h c (List.mem_cons_self ..), ih fun d hd => h d (List.mem_cons_of_mem _ hd)⟩

theorem Meets.invariant {I : σ → Prop} (hstep : ∀ s c, I s → C s c → I (step s c)) (hs : I s)
    (h : Meets step C s cs) : I (run step s cs) := by
  induction cs generalizing s with
  | nil => exact hs
  | cons c cs ih => exact ih (hstep s c hs h.1) h.2

theorem Meets.strengthen {I : σ → Prop} {D : σ → ι → Prop}
    (hstep : ∀ s c, I s → C s c → I (step s c)) (himp : ∀ s c, I s → C s c → D s c) (hs : I s)
    (h : Meets step C s cs) : Meets step D s cs := by
  induction cs generalizing s with
  | nil => trivial
  | cons c cs ih => exact ⟨himp s c hs h.1, ih (hstep s c hs h.1) h.2⟩

/-- The condition holds of each command in the state that the commands before it leave. -/
theorem meets_iff : Meets step C s cs ↔
    ∀ before command after, cs = before ++ command :: after → C (run step s before) command := by
  induction cs generalizing s with
  | nil => simp
  | cons c cs ih =>
      rw [meets_cons, ih]
      constructor
      · intro h before command after heq
        cases before with
        | nil =>
            obtain ⟨rfl, -⟩ := List.cons.inj heq
            exact h.1
        | cons d before =>
            obtain ⟨rfl, hrest⟩ := List.cons.inj heq
            exact h.2 before command after hrest
      · intro h
        refine ⟨h [] c cs rfl, fun before command after heq => ?_⟩
        exact h (c :: before) command after (by rw [heq, List.cons_append])

theorem invariant_run {I : σ → Prop} (hstep : ∀ s c, I s → I (step s c)) (hs : I s)
    (cs : List ι) : I (run step s cs) :=
  Meets.invariant (fun s c hi (_ : True) => hstep s c hi) hs (meets_of_forall fun _ _ => trivial)

end Run
