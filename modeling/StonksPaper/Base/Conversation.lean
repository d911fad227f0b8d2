import Mathlib.Data.List.Basic
import StonksPaper.Base.Program

/-!
# Runs of a program and what they ensure

A run of a program is the list of its exchanges, each a request with the answer that it got, and
its result. `Ensures` says that every run of a call ends in its postcondition, whatever the
answers are; the rules below follow a `do` block forwards.
-/

universe u

namespace Program

variable {ρ : Type} {Answer : ρ → Type} {α β : Type u}

/-- Requests with the answers that they got, the first one first. -/
abbrev Exchanges (ρ : Type) (Answer : ρ → Type) := List (Sigma Answer)

/-- The program ends with the result after the exchanges. -/
inductive RunsTo : Program ρ Answer α → Exchanges ρ Answer → α → Prop where
  | done (a : α) : RunsTo (done a) [] a
  | ask {r : ρ} {next : Answer r → Program ρ Answer α} {log : Exchanges ρ Answer} {a : α}
      (answer : Answer r) (h : RunsTo (next answer) log a) :
      RunsTo (ask r next) (⟨r, answer⟩ :: log) a

variable {p : Program ρ Answer α} {f : α → Program ρ Answer β} {log : Exchanges ρ Answer}
  {a b : α} {r : ρ} {next : Answer r → Program ρ Answer α}

theorem runsTo_done : RunsTo (done a : Program ρ Answer α) log b ↔ log = [] ∧ b = a := by
  constructor
  · intro h
    cases h
    exact ⟨rfl, rfl⟩
  · intro h
    obtain ⟨rfl, rfl⟩ := h
    exact .done _

theorem runsTo_ask : RunsTo (ask r next) log b ↔
    ∃ answer rest, log = ⟨r, answer⟩ :: rest ∧ RunsTo (next answer) rest b := by
  constructor
  · intro h
    cases h with
    | ask answer h => exact ⟨answer, _, rfl, h⟩
  · intro h
    obtain ⟨answer, rest, rfl, h⟩ := h
    exact .ask answer h

/-- A run of two programs in sequence is a run of the first and then one of the second. -/
theorem runsTo_bind {c : β} : RunsTo (bind f p) log c ↔
    ∃ first a rest, RunsTo p first a ∧ RunsTo (f a) rest c ∧ log = first ++ rest := by
  induction p generalizing log with
  | done a =>
      constructor
      · intro h
        exact ⟨[], a, log, .done a, h, rfl⟩
      · intro h
        obtain ⟨first, a', rest, hfirst, hrest, rfl⟩ := h
        obtain ⟨rfl, rfl⟩ := runsTo_done.mp hfirst
        exact hrest
  | ask r next ih =>
      rw [bind, runsTo_ask]
      constructor
      · intro h
        obtain ⟨answer, rest, rfl, h⟩ := h
        obtain ⟨first, a, rest, hfirst, hrest, rfl⟩ := (ih answer).mp h
        exact ⟨⟨r, answer⟩ :: first, a, rest, runsTo_ask.mpr ⟨answer, first, rfl, hfirst⟩, hrest,
          rfl⟩
      · intro h
        obtain ⟨first, a, rest, hfirst, hrest, rfl⟩ := h
        obtain ⟨answer, tail, rfl, htail⟩ := runsTo_ask.mp hfirst
        exact ⟨answer, tail ++ rest, rfl, (ih answer).mpr ⟨tail, a, rest, htail, hrest, rfl⟩⟩

/-! ## Postconditions of calls -/

section

variable {φ ε : Type} {x : Remote ρ Answer φ ε α}
  {Q Q' : Exchanges ρ Answer → Attempt φ ε α → Prop}

/-- Every run of the call ends in the postcondition. -/
def Ensures (x : Remote ρ Answer φ ε α)
    (Q : Exchanges ρ Answer → Attempt φ ε α → Prop) : Prop :=
  ∀ log end_, RunsTo x log end_ → Q log end_

theorem Ensures.mono (h : Ensures x Q) (hQ : ∀ log end_, Q log end_ → Q' log end_) :
    Ensures x Q' := fun log end_ hrun => hQ log end_ (h log end_ hrun)

theorem Ensures.and (h : Ensures x Q) (h' : Ensures x Q') :
    Ensures x fun log end_ => Q log end_ ∧ Q' log end_ :=
  fun log end_ hrun => ⟨h log end_ hrun, h' log end_ hrun⟩

@[simp] theorem ensures_ofAttempt {y : Attempt φ ε α} : Ensures (ofAttempt y) Q ↔ Q [] y := by
  constructor
  · intro h
    exact h [] y (.done y)
  · intro h log end_ hrun
    obtain ⟨rfl, rfl⟩ := runsTo_done.mp hrun
    exact h

@[simp] theorem ensures_pure {a : α} :
    Ensures (pure a : Remote ρ Answer φ ε α) Q ↔ Q [] (.success a) := ensures_ofAttempt

@[simp] theorem ensures_request {read : Answer r → Attempt φ ε α} :
    Ensures (request r read) Q ↔ ∀ answer, Q [⟨r, answer⟩] (read answer) := by
  constructor
  · intro h answer
    exact h _ _ (.ask answer (.done _))
  · intro h log end_ hrun
    obtain ⟨answer, rest, rfl, hrest⟩ := runsTo_ask.mp hrun
    obtain ⟨rfl, rfl⟩ := runsTo_done.mp hrest
    exact h answer

/-- The first call ends the sequence unless it succeeds. -/
theorem ensures_bind {f : α → Remote ρ Answer φ ε β}
    {R : Exchanges ρ Answer → Attempt φ ε β → Prop} : Ensures (x >>= f) R ↔
      Ensures x fun log end_ => match end_ with
        | .success a => Ensures (f a) fun rest end_ => R (log ++ rest) end_
        | .failure e => R log (.failure e)
        | .raised e => R log (.raised e) := by
  rw [bind_eq]
  constructor
  · intro h log end_ hrun
    cases end_ with
    | success a =>
        intro rest end_ hrest
        exact h _ _ (runsTo_bind.mpr ⟨log, .success a, rest, hrun, hrest, rfl⟩)
    | failure e =>
        have hall := h _ _ (runsTo_bind.mpr ⟨log, .failure e, [], hrun, .done _, rfl⟩)
        rwa [List.append_nil] at hall
    | raised e =>
        have hall := h _ _ (runsTo_bind.mpr ⟨log, .raised e, [], hrun, .done _, rfl⟩)
        rwa [List.append_nil] at hall
  · intro h log end_ hrun
    obtain ⟨first, end₁, rest, hfirst, hrest, rfl⟩ := runsTo_bind.mp hrun
    have hend := h first end₁ hfirst
    cases end₁ with
    | success a => exact hend rest end_ hrest
    | failure e =>
        obtain ⟨rfl, rfl⟩ := runsTo_done.mp hrest
        rwa [List.append_nil]
    | raised e =>
        obtain ⟨rfl, rfl⟩ := runsTo_done.mp hrest
        rwa [List.append_nil]

/-- Sequencing with a postcondition of the first call that is already known. -/
theorem Ensures.bind {f : α → Remote ρ Answer φ ε β}
    {R : Exchanges ρ Answer → Attempt φ ε β → Prop} (h : Ensures x Q)
    (hsuccess : ∀ log a, Q log (.success a) → Ensures (f a) fun rest end_ => R (log ++ rest) end_)
    (hfailure : ∀ log e, Q log (.failure e) → R log (.failure e))
    (hraised : ∀ log e, Q log (.raised e) → R log (.raised e)) : Ensures (x >>= f) R := by
  refine ensures_bind.mpr (h.mono fun log end_ hQ => ?_)
  cases end_ with
  | success a => exact hsuccess log a hQ
  | failure e => exact hfailure log e hQ
  | raised e => exact hraised log e hQ

theorem ensures_ofAttempt_bind {y : Attempt φ ε α} {f : α → Remote ρ Answer φ ε β}
    {R : Exchanges ρ Answer → Attempt φ ε β → Prop} : Ensures (ofAttempt y >>= f) R ↔
      match y with
        | .success a => Ensures (f a) R
        | .failure e => R [] (.failure e)
        | .raised e => R [] (.raised e) := by
  rw [ensures_bind, ensures_ofAttempt]
  cases y <;> simp

end

/-! ## What is kept however a call ends -/

section

variable {φ ε : Type} {x : Remote ρ Answer φ ε α} {S S' : Exchanges ρ Answer → Prop}
  {T T' : Exchanges ρ Answer → α → Prop}

/-- Every run of the call keeps `S` of its exchanges, and `T` of its value if it succeeds. -/
def Maintains (x : Remote ρ Answer φ ε α) (S : Exchanges ρ Answer → Prop)
    (T : Exchanges ρ Answer → α → Prop) : Prop :=
  Ensures x fun log end_ => S log ∧ ∀ a, end_ = .success a → T log a

theorem Maintains.mono (h : Maintains x S T) (hS : ∀ log, S log → S' log)
    (hT : ∀ log a, S log → T log a → T' log a) : Maintains x S' T' :=
  Ensures.mono h fun log _ hkept => ⟨hS log hkept.1, fun a ha => hT log a hkept.1 (hkept.2 a ha)⟩

theorem maintains_ofAttempt {y : Attempt φ ε α} :
    Maintains (ofAttempt y : Remote ρ Answer φ ε α) S T ↔ S [] ∧ ∀ a, y = .success a → T [] a :=
  ensures_ofAttempt

theorem maintains_pure {a : α} :
    Maintains (pure a : Remote ρ Answer φ ε α) S T ↔ S [] ∧ T [] a := by
  refine maintains_ofAttempt.trans (and_congr_right fun _ => ?_)
  simp

theorem maintains_request {read : Answer r → Attempt φ ε α} : Maintains (request r read) S T ↔
    ∀ answer, S [⟨r, answer⟩] ∧ ∀ a, read answer = .success a → T [⟨r, answer⟩] a :=
  ensures_request

/-- The second call goes on from the exchanges of the first; if the first does not succeed, they
are all there are. -/
theorem Maintains.bind {f : α → Remote ρ Answer φ ε β} {T' : Exchanges ρ Answer → β → Prop}
    (h : Maintains x S T) (hS : ∀ log, S log → S' log)
    (hnext : ∀ log a, S log → T log a →
      Maintains (f a) (fun rest => S' (log ++ rest)) fun rest b => T' (log ++ rest) b) :
    Maintains (x >>= f) S' T' := by
  refine Ensures.bind h ?_ ?_ ?_
  · intro log a hkept
    exact hnext log a hkept.1 (hkept.2 a rfl)
  · intro log e hkept
    exact ⟨hS log hkept.1, fun b hb => by cases hb⟩
  · intro log e hkept
    exact ⟨hS log hkept.1, fun b hb => by cases hb⟩

theorem maintains_ofAttempt_bind {y : Attempt φ ε α} {f : α → Remote ρ Answer φ ε β}
    {T' : Exchanges ρ Answer → β → Prop} (hS : S [])
    (hnext : ∀ a, y = .success a → Maintains (f a) S T') : Maintains (ofAttempt y >>= f) S T' := by
  have hfirst : Maintains (ofAttempt y : Remote ρ Answer φ ε α) (· = []) fun _ a =>
      y = .success a :=
    maintains_ofAttempt.mpr ⟨rfl, fun a ha => ha⟩
  refine hfirst.bind ?_ ?_
  · intro log hlog
    rwa [hlog]
  · intro log a hlog ha
    rw [hlog]
    exact hnext a ha

end

/-! ## Calls that return if their exchanges are benign -/

section

variable {φ ε : Type} {x : Remote ρ Answer φ ε α} {benign : Sigma Answer → Prop}

/-- Every run of the call whose exchanges are all benign returns. -/
def Calm (benign : Sigma Answer → Prop) (x : Remote ρ Answer φ ε α) : Prop :=
  Ensures x fun log end_ => (∀ e ∈ log, benign e) → end_.Returns

theorem Calm.bind {f : α → Remote ρ Answer φ ε β} {T : Exchanges ρ Answer → α → Prop}
    (h : Calm benign x) (hT : Ensures x fun log end_ => ∀ a, end_ = .success a → T log a)
    (hf : ∀ log a, (∀ e ∈ log, benign e) → T log a → Calm benign (f a)) :
    Calm benign (x >>= f) := by
  refine (h.and hT).bind ?_ ?_ ?_
  · intro log a hkept rest end_ hrun hbenign
    obtain ⟨hlog, hrest⟩ := List.forall_mem_append.mp hbenign
    exact hf log a hlog (hkept.2 a rfl) rest end_ hrun hrest
  · intro log e _ _
    exact Attempt.returns_failure e
  · intro log e hkept hbenign
    exact absurd (hkept.1 hbenign) (Attempt.not_returns_raised e)

theorem Calm.andThen {f : α → Remote ρ Answer φ ε β} (h : Calm benign x)
    (hf : ∀ a, Calm benign (f a)) : Calm benign (x >>= f) :=
  h.bind (T := fun _ _ => True) (fun _ _ _ _ _ => trivial) fun _ a _ _ => hf a

theorem calm_ofAttempt {y : Attempt φ ε α} (h : y.Returns) :
    Calm benign (ofAttempt y : Remote ρ Answer φ ε α) := ensures_ofAttempt.mpr fun _ => h

theorem calm_pure (a : α) : Calm benign (pure a : Remote ρ Answer φ ε α) :=
  calm_ofAttempt (Attempt.returns_success a)

theorem calm_ofAttempt_bind {y : Attempt φ ε α} {f : α → Remote ρ Answer φ ε β} (h : y.Returns)
    (hf : ∀ a, y = .success a → Calm benign (f a)) : Calm benign (ofAttempt y >>= f) :=
  (calm_ofAttempt h).bind (T := fun _ a => y = .success a)
    (ensures_ofAttempt.mpr fun _ ha => ha) fun _ a _ ha => hf a ha

theorem calm_request {read : Answer r → Attempt φ ε α}
    (h : ∀ answer, benign ⟨r, answer⟩ → (read answer).Returns) :
    Calm benign (request r read) :=
  ensures_request.mpr fun answer hbenign => h answer (hbenign _ (List.mem_singleton_self _))

end

/-! ## Runs that are played -/

section

variable {φ ε : Type} {x : Remote ρ Answer φ ε α} {a : α}

theorem RunsTo.andThen {f : α → Remote ρ Answer φ ε β} {rest : Exchanges ρ Answer}
    {end_ : Attempt φ ε β} (h : RunsTo x log (.success a)) (hrest : RunsTo (f a) rest end_) :
    RunsTo (x >>= f : Remote ρ Answer φ ε β) (log ++ rest) end_ := by
  rw [bind_eq]
  exact runsTo_bind.mpr ⟨log, .success a, rest, h, hrest, rfl⟩

theorem RunsTo.ofAttempt {y : Attempt φ ε α} (h : y = .success a) :
    RunsTo (Program.ofAttempt y : Remote ρ Answer φ ε α) [] (.success a) := h ▸ .done _

theorem RunsTo.request {read : Answer r → Attempt φ ε α} (answer : Answer r)
    (h : read answer = .success a) :
    RunsTo (Program.request r read) [⟨r, answer⟩] (.success a) := .ask answer (h ▸ .done _)

end

/-- The exchanges and the result when the n-th request is answered as the script says. -/
def play (script : ℕ → (r : ρ) → Answer r) : ℕ → Program ρ Answer α → Exchanges ρ Answer × α
  | _, done a => ([], a)
  | n, ask r next =>
      let rest := play script (n + 1) (next (script n r))
      (⟨r, script n r⟩ :: rest.1, rest.2)

theorem runsTo_play (script : ℕ → (r : ρ) → Answer r) (n : ℕ) (p : Program ρ Answer α) :
    RunsTo p (play script n p).1 (play script n p).2 := by
  induction p generalizing n with
  | done a => exact .done a
  | ask r next ih => exact .ask (script n r) (ih (script n r) (n + 1))

theorem answer_of_mem_play {script : ℕ → (r : ρ) → Answer r} {n : ℕ} {p : Program ρ Answer α}
    {e : Sigma Answer} (h : e ∈ (play script n p).1) : ∃ k, e = ⟨e.1, script k e.1⟩ := by
  induction p generalizing n with
  | done a => cases h
  | ask r next ih =>
      rcases List.mem_cons.mp h with rfl | h
      · exact ⟨n, rfl⟩
      · exact ih (script n r) h

end Program
