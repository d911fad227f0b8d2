import Mathlib.Logic.Function.Basic
import StonksPaper.Base.Attempt
import StonksPaper.Base.Run

/-!
# Programs that make requests

A sequential program has returned or waits for the answer to one request. A service answers one
request at a time; the environment chooses how, and may answer any of several programs next. What
a program needs of its environment is its `rely`, by the request that it waits for; what it owes is
its `guard`. `Program.Safe` is the obligation of one program, and `Protocol.run_safe` is the
induction over every interleaving of safe programs.
-/

universe u v

/-- A program that has returned, or that waits for the answer to a request. -/
inductive Program (ρ : Type) (Answer : ρ → Type) (α : Type u) : Type u where
  | done (result : α)
  | ask (request : ρ) (next : Answer request → Program ρ Answer α)

namespace Program

variable {ρ : Type} {Answer : ρ → Type} {α β : Type u}

def bind (f : α → Program ρ Answer β) : Program ρ Answer α → Program ρ Answer β
  | done a => f a
  | ask request next => ask request fun answer => bind f (next answer)

def map (f : α → β) (p : Program ρ Answer α) : Program ρ Answer β := p.bind fun a => done (f a)

/-- The request that the program waits for. -/
def pending : Program ρ Answer α → Option ρ
  | done _ => none
  | ask request _ => some request

def result : Program ρ Answer α → Option α
  | done a => some a
  | ask _ _ => none

/-! ## Programs whose results are attempts -/

section

variable {φ ε : Type} {α β : Type u}

/-- A call that makes requests, and returns, reports or raises. -/
def Remote (ρ : Type) (Answer : ρ → Type) (φ ε : Type) (α : Type u) : Type u :=
  Program ρ Answer (Attempt φ ε α)

/-- Continue with the value of a call that succeeds. -/
def andThen (f : α → Remote ρ Answer φ ε β) : Attempt φ ε α → Remote ρ Answer φ ε β
  | .success a => f a
  | .failure e => done (.failure e)
  | .raised e => done (.raised e)

instance : Monad (Remote ρ Answer φ ε) where
  pure a := done (.success a)
  bind x f := Program.bind (andThen f) x

/-- A call that makes no request. -/
def ofAttempt (x : Attempt φ ε α) : Remote ρ Answer φ ε α := done x

theorem bind_eq (x : Remote ρ Answer φ ε α) (f : α → Remote ρ Answer φ ε β) :
    (x >>= f) = Program.bind (andThen f) x := rfl

theorem bind_bind {γ : Type u} (p : Program ρ Answer α) (f : α → Program ρ Answer β)
    (g : β → Program ρ Answer γ) : bind g (bind f p) = bind (fun a => bind g (f a)) p := by
  induction p with
  | done a => rfl
  | ask r next ih => exact congrArg (ask r) (funext ih)

theorem bind_done (p : Program ρ Answer α) : bind done p = p := by
  induction p with
  | done a => rfl
  | ask r next ih => exact congrArg (ask r) (funext ih)

theorem andThen_pure : (andThen pure : Attempt φ ε α → Remote ρ Answer φ ε α) = done := by
  funext a
  cases a <;> rfl

theorem bind_andThen {γ : Type u} (f : α → Remote ρ Answer φ ε β)
    (g : β → Remote ρ Answer φ ε γ) :
    (fun a => Program.bind (andThen g) (andThen f a)) = andThen fun a => f a >>= g := by
  funext a
  cases a <;> rfl

instance : LawfulMonad (Remote ρ Answer φ ε) := LawfulMonad.mk' _
  (fun x => (congrArg (fun k => Program.bind k x) andThen_pure).trans (bind_done x))
  (fun _ _ => rfl)
  (fun x f g => (bind_bind x (andThen f) (andThen g)).trans
    (congrArg (fun k => Program.bind k x) (bind_andThen f g)))

@[simp] theorem ofAttempt_success_bind {a : α} {f : α → Remote ρ Answer φ ε β} :
    (ofAttempt (.success a) >>= f) = f a := rfl

/-- Make one request and read its answer. -/
def request (r : ρ) (read : Answer r → Attempt φ ε α) : Remote ρ Answer φ ε α :=
  ask r fun answer => done (read answer)

/-- The end of a call as a value. -/
def observe (x : Remote ρ Answer φ ε α) : Remote ρ Answer φ ε (Attempt φ ε α) :=
  Program.map .success x

end

/-! ## One program alone -/

section

variable {σ : Type v} {ω : Type}

/-- Run the program; the n-th request is answered as the n-th choice says. -/
def exec (serve : ω → σ → (r : ρ) → Answer r × σ) :
    (ℕ → ω) → Program ρ Answer α → σ → α × σ
  | _, done a, s => (a, s)
  | choices, ask r next, s =>
      exec serve (fun n => choices (n + 1)) (next (serve (choices 0) s r).1)
        (serve (choices 0) s r).2

/-- The result when the n-th request is answered in the n-th state. -/
def along (answer : σ → (r : ρ) → Answer r) : (ℕ → σ) → Program ρ Answer α → α
  | _, done a => a
  | states, ask r next =>
      along answer (fun n => states (n + 1)) (next (answer (states 0) r))

theorem along_request_bind {φ ε : Type} (answer : σ → (r : ρ) → Answer r) (states : ℕ → σ) (r : ρ)
    (read : Answer r → Attempt φ ε α) (f : α → Remote ρ Answer φ ε β) :
    along answer states (show Remote ρ Answer φ ε β from request r read >>= f) =
      along answer (fun n => states (n + 1)) (andThen f (read (answer (states 0) r))) := rfl

end

end Program

/-- The service, what a program that waits for a request (or has returned) relies on the others
for, the invariant of the service, and what a program guarantees when its request is served. -/
structure Protocol (ρ : Type) (Answer : ρ → Type) (σ : Type v) (ω : Type) where
  serve : ω → σ → (r : ρ) → Answer r × σ
  /-- The choices after which the program has its true answer. -/
  answers : ω → Bool
  rely : Option ρ → σ → σ → Prop
  invariant : σ → Prop
  guard : ρ → σ → Prop
  rely_refl : ∀ r s, rely r s s
  rely_trans : ∀ r s t u, rely r s t → rely r t u → rely r s u

namespace Program

variable {ρ : Type} {Answer : ρ → Type} {σ : Type v} {ω : Type} {α β : Type u}

/-- Whatever the others do within its rely, the program guards each of its requests and ends with
the postcondition. The flag says whether all its answers were true so far. -/
def Safe (P : Protocol ρ Answer σ ω) (post : Bool → α → σ → Prop) :
    Bool → Program ρ Answer α → σ → Prop
  | flag, done a, s => ∀ t, P.rely none s t → post flag a t
  | flag, ask r next, s => ∀ t, P.rely (some r) s t → P.invariant t → P.guard r t ∧
      ∀ choice, P.invariant (P.serve choice t r).2 →
        Safe P post (flag && P.answers choice) (next (P.serve choice t r).1) (P.serve choice t r).2

variable {P : Protocol ρ Answer σ ω} {post post' : Bool → α → σ → Prop} {flag : Bool}
  {p : Program ρ Answer α} {s t : σ}

theorem Safe.mono (h : Safe P post flag p s) (hpost : ∀ flag a t, post flag a t → post' flag a t) :
    Safe P post' flag p s := by
  induction p generalizing flag s with
  | done a => exact fun t ht => hpost flag a t (h t ht)
  | ask r next ih =>
      intro t hrely hinvariant
      obtain ⟨hguard, hnext⟩ := h t hrely hinvariant
      exact ⟨hguard, fun choice hserved => ih _ (hnext choice hserved)⟩

theorem Safe.of_rely (h : Safe P post flag p s) (hrely : P.rely p.pending s t) :
    Safe P post flag p t := by
  cases p with
  | done a => exact fun u hu => h u (P.rely_trans _ _ _ _ hrely hu)
  | ask r next => exact fun u hu => h u (P.rely_trans _ _ _ _ hrely hu)

theorem Safe.bind {f : α → Program ρ Answer β} {post : Bool → β → σ → Prop}
    (h : Safe P (fun flag a t => Safe P post flag (f a) t) flag p s) :
    Safe P post flag (Program.bind f p) s := by
  induction p generalizing flag s with
  | done a => exact h s (P.rely_refl _ s)
  | ask r next ih =>
      intro t hrely hinvariant
      obtain ⟨hguard, hnext⟩ := h t hrely hinvariant
      exact ⟨hguard, fun choice hserved => ih _ (hnext choice hserved)⟩

/-- What everyone keeps at every step is kept from the start of a program to its end. -/
theorem Safe.frame {K : σ → σ → Prop} (htrans : ∀ s t u, K s t → K t u → K s u)
    (hrely : ∀ r s t, P.rely r s t → K s t)
    (hserve : ∀ choice r t, P.invariant t → P.guard r t → K t (P.serve choice t r).2)
    (h : Safe P post flag p s) : Safe P (fun flag a t => post flag a t ∧ K s t) flag p s := by
  induction p generalizing flag s with
  | done a => exact fun t ht => ⟨h t ht, hrely _ s t ht⟩
  | ask r next ih =>
      intro t ht hinvariant
      obtain ⟨hguard, hnext⟩ := h t ht hinvariant
      refine ⟨hguard, fun choice hserved => (ih _ (hnext choice hserved)).mono ?_⟩
      intro flag a u hu
      have hstep := hserve choice r t hinvariant hguard
      exact ⟨hu.1, htrans _ _ _ (htrans _ _ _ (hrely _ s t ht) hstep) hu.2⟩

theorem Safe.map {f : α → β} {post : Bool → β → σ → Prop}
    (h : Safe P (fun flag a t => ∀ u, P.rely none t u → post flag (f a) u) flag p s) :
    Safe P post flag (Program.map f p) s :=
  Safe.bind h

end Program

/-! ## Many programs -/

/-- The service's state, and for each process its program and whether its answers were all true. -/
structure System (ρ : Type) (Answer : ρ → Type) (σ : Type v) (ι : Type) (α : ι → Type) where
  state : σ
  program : (i : ι) → Program ρ Answer (α i)
  undisturbed : ι → Bool

/-- A process has its request served, or the environment acts. -/
inductive Event (ι ω τ : Type) where
  | serve (process : ι) (choice : ω)
  | act (action : τ)

namespace System

open Program

variable {ρ : Type} {Answer : ρ → Type} {σ : Type v} {ω ι τ : Type} {α : ι → Type} [DecidableEq ι]

/-- One event. A process that has returned stays as it is. -/
def step (serve : ω → σ → (r : ρ) → Answer r × σ) (answers : ω → Bool) (act : τ → σ → σ)
    (S : System ρ Answer σ ι α) : Event ι ω τ → System ρ Answer σ ι α
  | .act action => { S with state := act action S.state }
  | .serve i choice =>
      match S.program i with
      | done _ => S
      | ask r next =>
          { state := (serve choice S.state r).2
            program := Function.update S.program i (next (serve choice S.state r).1)
            undisturbed := Function.update S.undisturbed i (S.undisturbed i && answers choice) }

theorem step_of_ask {serve : ω → σ → (r : ρ) → Answer r × σ} {answers : ω → Bool}
    {act : τ → σ → σ} {S : System ρ Answer σ ι α} {i : ι} {r : ρ}
    {next : Answer r → Program ρ Answer (α i)} (h : S.program i = ask r next) (choice : ω) :
    S.step serve answers act (.serve i choice) =
      { state := (serve choice S.state r).2
        program := Function.update S.program i (next (serve choice S.state r).1)
        undisturbed := Function.update S.undisturbed i (S.undisturbed i && answers choice) } := by
  simp only [step, h]

/-- What the process returned. -/
def result (S : System ρ Answer σ ι α) (i : ι) : Option (α i) := (S.program i).result

/-- What a process has returned stays. -/
theorem result_run {serve : ω → σ → (r : ρ) → Answer r × σ} {answers : ω → Bool}
    {act : τ → σ → σ} {S : System ρ Answer σ ι α} {i : ι} {a : α i} (h : S.result i = some a)
    (events : List (Event ι ω τ)) : (Run.run (step serve answers act) S events).result i =
    some a := by
  refine Run.invariant_run (I := fun T : System ρ Answer σ ι α => T.result i = some a)
    (fun S event hS => ?_) h events
  cases event with
  | act action => exact hS
  | serve j choice =>
      cases hprogram : S.program j with
      | done b => simpa only [step, hprogram] using hS
      | ask r next =>
          rw [step_of_ask hprogram]
          by_cases hj : i = j
          · subst hj
            rw [result, hprogram] at hS
            cases hS
          · simpa only [result, Function.update_of_ne hj] using hS

end System

namespace Protocol

open Program

variable {ρ : Type} {Answer : ρ → Type} {σ : Type v} {ω ι τ : Type} {α : ι → Type} [DecidableEq ι]
  (P : Protocol ρ Answer σ ω) (act : τ → σ → σ)

/-- The invariant holds, and every program is safe. -/
structure Secure (post : (i : ι) → Bool → α i → σ → Prop) (S : System ρ Answer σ ι α) : Prop where
  invariant : P.invariant S.state
  safe : ∀ i, Safe P (post i) (S.undisturbed i) (S.program i) S.state

/-- A served request keeps the invariant, and stays within what the other processes rely on. -/
def Harmless (S : System ρ Answer σ ι α) : Event ι ω τ → Prop
  | .act action => P.invariant (act action S.state) ∧
      ∀ i, P.rely (S.program i).pending S.state (act action S.state)
  | .serve i choice => ∀ r, (S.program i).pending = some r → P.guard r S.state →
      P.invariant (P.serve choice S.state r).2 ∧
        ∀ j, j ≠ i → P.rely (S.program j).pending S.state (P.serve choice S.state r).2

variable {P act} {post : (i : ι) → Bool → α i → σ → Prop} {S : System ρ Answer σ ι α}
  {event : Event ι ω τ} {events : List (Event ι ω τ)}

theorem Secure.step (h : P.Secure post S) (hharmless : P.Harmless act S event) :
    P.Secure post (S.step P.serve P.answers act event) := by
  cases event with
  | act action =>
      exact ⟨hharmless.1, fun i => (h.safe i).of_rely (hharmless.2 i)⟩
  | serve i choice =>
      cases hprogram : S.program i with
      | done a => simpa only [System.step, hprogram] using h
      | ask r next =>
          have hsafe := h.safe i
          rw [hprogram] at hsafe
          obtain ⟨hguard, hnext⟩ := hsafe S.state (P.rely_refl _ _) h.invariant
          obtain ⟨hinvariant, hothers⟩ := hharmless r (by rw [hprogram]; rfl) hguard
          simp only [System.step, hprogram]
          refine ⟨hinvariant, fun j => ?_⟩
          by_cases hj : j = i
          · subst hj
            simp only [Function.update_self]
            exact hnext choice hinvariant
          · simp only [Function.update_of_ne hj]
            exact (h.safe j).of_rely (hothers j hj)

theorem run_safe (h : P.Secure post S)
    (hrun : Run.Meets (System.step P.serve P.answers act)
      (fun S event => P.Secure post S → P.Harmless act S event) S events) :
    P.Secure post (Run.run (System.step P.serve P.answers act) S events) :=
  Run.Meets.invariant (fun _ _ hS hharmless => hS.step (hharmless hS)) h hrun

omit [DecidableEq ι] in
/-- A process of a secure system that has returned ended with its postcondition. -/
theorem Secure.returned (h : P.Secure post S) {i : ι} {a : α i} (hdone : S.result i = some a) :
    post i (S.undisturbed i) a S.state := by
  have hsafe := h.safe i
  rw [System.result] at hdone
  cases hprogram : S.program i with
  | done b =>
      rw [hprogram] at hdone hsafe
      cases hdone
      exact hsafe S.state (P.rely_refl _ _)
  | ask r next =>
      rw [hprogram] at hdone
      cases hdone

end Protocol
