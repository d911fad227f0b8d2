import Mathlib.Data.List.Forall2

/-!
# Stateful computations in step

A computation that can fail is in step with one that records what it does when it fails exactly
where the record says so, and otherwise both leave the same state, from every one, and their results
are related. Sequences and loops of computations in step are in step. Dictionaries that are filled
under the same keys in step stay in step.
-/

universe u

section

variable {σ ε β γ β' γ' ι : Type u} {fails : β → Prop} {fails' : β' → Prop} {R : β → γ → Prop}
  {S : β' → γ' → Prop}

/-- The second computation fails where the record of the first says so, and otherwise leaves the
same state and a related result. -/
def InStep (fails : β → Prop) (R : β → γ → Prop) (x : StateM σ β) (y : StateT σ (Except ε) γ) :
    Prop :=
  ∀ s, (fails (x.run s).1 → ∃ e, y.run s = .error e) ∧
    (¬ fails (x.run s).1 → ∃ c, y.run s = .ok (c, (x.run s).2) ∧ R (x.run s).1 c)

theorem InStep.pure {b : β} {c : γ} (hb : ¬ fails b) (h : R b c) :
    InStep fails R (pure b : StateM σ β) (pure c : StateT σ (Except ε) γ) :=
  fun _ => ⟨fun hfails => absurd hfails hb, fun _ => ⟨c, rfl, h⟩⟩

theorem InStep.bind {x : StateM σ β} {y : StateT σ (Except ε) γ} {f : β → StateM σ β'}
    {g : γ → StateT σ (Except ε) γ'} (h : InStep fails R x y)
    (hfails : ∀ b s, fails b → fails' ((f b).run s).1)
    (hfg : ∀ b c, ¬ fails b → R b c → InStep fails' S (f b) (g c)) :
    InStep fails' S (x >>= f) (y >>= g) := by
  intro s
  obtain ⟨hstop, hgo⟩ := h s
  have hrecord : (x >>= f).run s = (f (x.run s).1).run (x.run s).2 := rfl
  rw [hrecord, StateT.run_bind]
  by_cases hfailed : fails (x.run s).1
  · obtain ⟨e, he⟩ := hstop hfailed
    rw [he]
    exact ⟨fun _ => ⟨e, rfl⟩, fun hnot => absurd (hfails _ _ hfailed) hnot⟩
  · obtain ⟨c, hc, hR⟩ := hgo hfailed
    rw [hc]
    exact hfg _ _ hfailed hR _

/-- Loops whose rounds are in step. -/
theorem InStep.mapM {f : ι → StateM σ β} {g : ι → StateT σ (Except ε) γ} {xs : List ι}
    (h : ∀ x ∈ xs, InStep fails R (f x) (g x)) :
    InStep (fun bs => ∃ b ∈ bs, fails b) (List.Forall₂ R) (xs.mapM f) (xs.mapM g) := by
  induction xs with
  | nil => exact InStep.pure (by simp) .nil
  | cons x xs ih =>
      rw [List.mapM_cons, List.mapM_cons]
      have hrest := ih fun y hy => h y (List.mem_cons_of_mem x hy)
      refine (h x List.mem_cons_self).bind (fun b s hb => ⟨b, List.mem_cons_self, hb⟩) ?_
      intro b c hb hbc
      refine hrest.bind (fun bs s hbs => ?_) fun bs cs hbs hbcs => InStep.pure ?_ (.cons hbc hbcs)
      · obtain ⟨b', hmem, hb'⟩ := hbs
        exact ⟨b', List.mem_cons_of_mem b hmem, hb'⟩
      · rintro ⟨b', hmem, hb'⟩
        rcases List.mem_cons.mp hmem with rfl | hmem
        · exact hb hb'
        · exact hbs ⟨b', hmem, hb'⟩

end

/-! ## Dictionaries -/

namespace Dict

variable {κ β γ : Type u} [DecidableEq κ] {Q : κ → β → γ → Prop}

/-- `entries[key] = value`: a key that is there keeps its place. -/
def setItem (key : κ) (value : β) : List (κ × β) → List (κ × β)
  | [] => [(key, value)]
  | entry :: entries =>
      if entry.1 = key then (key, value) :: entries else entry :: setItem key value entries

/-- The dictionary that the entries, set one after the other, make. -/
def ofEntries (entries : List (κ × β)) : List (κ × β) :=
  entries.foldl (fun result entry => setItem entry.1 entry.2 result) []

/-- The entries have the same key, and values that are related under it. -/
def Entries (Q : κ → β → γ → Prop) (entry : κ × β) (entry' : κ × γ) : Prop :=
  entry.1 = entry'.1 ∧ Q entry.1 entry.2 entry'.2

theorem setItem_inStep {key : κ} {value : β} {value' : γ} {entries : List (κ × β)}
    {entries' : List (κ × γ)} (hvalue : Q key value value')
    (h : List.Forall₂ (Entries Q) entries entries') :
    List.Forall₂ (Entries Q) (setItem key value entries) (setItem key value' entries') := by
  induction h with
  | nil => exact .cons ⟨rfl, hvalue⟩ .nil
  | @cons entry entry' entries entries' hentry hrest ih =>
      unfold setItem
      rw [← hentry.1]
      by_cases hkey : entry.1 = key
      · rw [if_pos hkey, if_pos hkey]
        exact .cons ⟨rfl, hvalue⟩ hrest
      · rw [if_neg hkey, if_neg hkey]
        exact .cons hentry ih

theorem ofEntries_inStep {entries : List (κ × β)} {entries' : List (κ × γ)}
    (h : List.Forall₂ (Entries Q) entries entries') :
    List.Forall₂ (Entries Q) (ofEntries entries) (ofEntries entries') := by
  have hfold : ∀ {result : List (κ × β)} {result' : List (κ × γ)},
      List.Forall₂ (Entries Q) result result' →
      List.Forall₂ (Entries Q) (entries.foldl (fun result e => setItem e.1 e.2 result) result)
        (entries'.foldl (fun result e => setItem e.1 e.2 result) result') := by
    induction h with
    | nil => exact id
    | @cons entry entry' entries entries' hentry _ ih =>
        intro result result' hresult
        rw [List.foldl_cons, List.foldl_cons, ← hentry.1]
        exact ih (setItem_inStep hentry.2 hresult)
  exact hfold .nil

end Dict
