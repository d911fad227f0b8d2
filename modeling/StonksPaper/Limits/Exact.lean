import StonksPaper.Limits.Stores

/-!
# The limiters are exact and bounded

Over a run from an empty store, of any calls: the heap is the ends of the windows, which are all to
come; a window of a key allows its limit and counts down; and a key sees the others only in the
largest clock and in the room for a new window.
-/

namespace StonksPaper.Limits

open FixedWindow

namespace Limiter

variable {C T : Type} [LinearOrder T]

/-- What the two stores have in common: the request is the call's, and only what is allowed is
answered so. -/
structure Lawful (limiter : Limiter C T) : Prop where
  accepts : ∀ {call request}, limiter.accept call = .success request → request.key = call.key ∧
    (request.limit : ℤ) = call.limit ∧ (request.seconds : ℤ) = call.windowSeconds ∧
    0 < request.limit ∧ 0 < request.seconds
  allows : ∀ request remaining,
    limiter.decision request (.allowed remaining) = .success ⟨true, remaining, 0⟩
  denies : ∀ request outcome, (∀ remaining, outcome ≠ .allowed remaining) →
    ∃ retry, 1 ≤ retry ∧ limiter.decision request outcome = .success ⟨false, 0, retry⟩

def logOf (self : Limiter C T) (maxKeys : ℕ) (calls : List (Consume C)) (key : String) :
    List (Sighting C T × Call Decision) :=
  (self.log (empty maxKeys) calls).filter (·.1.call.key = key)

/-- The fixed windows are exact and bounded, along every run from a store of `maxKeys`. -/
structure Exact (limiter : Limiter C T) (maxKeys : ℕ) : Prop where
  bounded : ∀ calls, (limiter.after (empty maxKeys) calls).windows.length ≤ maxKeys
  keys : ∀ calls, Table.Unique Prod.fst (limiter.after (empty maxKeys) calls).windows
  /-- One entry of the heap for each window, with its key, identifier and end. -/
  heap : ∀ calls, (limiter.after (empty maxKeys) calls).expirations.Perm
    ((limiter.after (empty maxKeys) calls).windows.map entryOf)
  latest : ∀ calls, (limiter.after (empty maxKeys) calls).latest =
    (calls.filterMap limiter.clock).max?
  alive : ∀ calls call, ∀ now ∈ limiter.clock call,
    (∀ latest ∈ (limiter.after (empty maxKeys) calls).latest, latest ≤ now) →
    ∀ held ∈ (limiter.after (empty maxKeys) (calls ++ [call])).windows, now < held.2.expiresAt
  /-- A window allows `m` calls of a key, at most its limit, and each says what remains. -/
  counts : ∀ calls key seconds k, ∃ limit m : ℕ, m ≤ limit ∧
    (limiter.log (empty maxKeys) calls).filterMap (limiter.allowedIn key seconds k) =
      (List.range m).map fun i : ℕ => ((limit : ℤ), (limit - 1 - i : ℤ))
  /-- Two runs in which the calls of a key see the same give them the same results. -/
  independent : ∀ calls others key maxKeys',
    (limiter.logOf maxKeys calls key).map Prod.fst =
      (limiter.logOf maxKeys' others key).map Prod.fst →
      (limiter.logOf maxKeys calls key).map Prod.snd =
        (limiter.logOf maxKeys' others key).map Prod.snd

variable {self : Limiter C T} {store : Store String T} {call : Consume C} {calls : List (Consume C)}
  {request : Request String T}

theorem consume_accepted (h : self.accept call = .success request) : self.consume store call =
    ((FixedWindow.consume self.grid store request).1,
      self.decision request (FixedWindow.consume self.grid store request).2) := by
  simp only [Limiter.consume, h]

theorem consume_refused (h : ∀ request, self.accept call ≠ .success request) :
    (self.consume store call).1 = store := by
  unfold Limiter.consume
  cases haccept : self.accept call with
  | success request => exact absurd haccept (h request)
  | failure error => rfl
  | raised error => rfl

theorem clock_accepted (h : self.accept call = .success request) :
    self.clock call = some request.now := by
  simp only [Limiter.clock, h, Attempt.toOption_success, Option.map_some]

theorem clock_refused (h : ∀ request, self.accept call ≠ .success request) :
    self.clock call = none := by
  unfold Limiter.clock
  cases haccept : self.accept call with
  | success request => exact absurd haccept (h request)
  | failure error => rfl
  | raised error => rfl

theorem accepted_or_refused (self : Limiter C T) (call : Consume C) :
    (∃ request, self.accept call = .success request) ∨
      ∀ request, self.accept call ≠ .success request := by
  by_cases h : ∃ request, self.accept call = .success request
  · exact .inl h
  · exact .inr fun request haccept => h ⟨request, haccept⟩

theorem after_cons (rest : List (Consume C)) :
    self.after store (call :: rest) = self.after (self.consume store call).1 rest := rfl

theorem wellFormed_after (hlaw : self.Lawful) (h : WellFormed self.grid store)
    (calls : List (Consume C)) : WellFormed self.grid (self.after store calls) := by
  induction calls generalizing store with
  | nil => exact h
  | cons call rest ih =>
      rcases self.accepted_or_refused call with haccepted | hrefused
      · obtain ⟨request, haccept⟩ := haccepted
        obtain ⟨-, -, -, -, hseconds⟩ := hlaw.accepts haccept
        rw [after_cons, consume_accepted haccept]
        exact ih (wellFormed_consume h hseconds)
      · rw [after_cons, consume_refused hrefused]
        exact ih h

theorem maxKeys_after (self : Limiter C T) (store : Store String T) (calls : List (Consume C)) :
    (self.after store calls).maxKeys = store.maxKeys := by
  induction calls generalizing store with
  | nil => rfl
  | cons call rest ih =>
      rw [after_cons, ih]
      rcases self.accepted_or_refused call with haccepted | hrefused
      · obtain ⟨request, haccept⟩ := haccepted
        rw [consume_accepted haccept]
        exact maxKeys_consume store request
      · rw [consume_refused hrefused]

theorem latest_after (self : Limiter C T) (store : Store String T) (calls : List (Consume C)) :
    (self.after store calls).latest =
      (store.latest.toList ++ calls.filterMap self.clock).max? := by
  induction calls generalizing store with
  | nil =>
      cases hlatest : store.latest with
      | none => simpa [after] using hlatest
      | some latest => simpa [after] using hlatest
  | cons call rest ih =>
      rw [after_cons, ih]
      rcases self.accepted_or_refused call with haccepted | hrefused
      · obtain ⟨request, haccept⟩ := haccepted
        rw [consume_accepted haccept, latest_consume, List.filterMap_cons, clock_accepted haccept]
        cases store.latest with
        | none => rfl
        | some latest => rfl
      · rw [consume_refused hrefused, List.filterMap_cons, clock_refused hrefused]

theorem after_concat (calls : List (Consume C)) (call : Consume C) :
    self.after store (calls ++ [call]) = (self.consume (self.after store calls) call).1 := by
  rw [after, List.foldl_append]
  rfl

/-! ## The countdown of a window -/

theorem allowedIn_eq (hlaw : self.Lawful) (haccept : self.accept call = .success request)
    (key : String) (seconds k : ℤ) (outcome : Outcome T) (latest : Option T) (noRoom : Bool) :
    self.allowedIn key seconds k (⟨call, latest, noRoom⟩, self.decision request outcome) =
      (if call.windowSeconds = seconds then
        servedBy self.grid key seconds.toNat k request outcome else none).map
        fun served => ((served.1 : ℤ), (served.2 : ℤ)) := by
  obtain ⟨hkey, hlimit, hseconds, -, -⟩ := hlaw.accepts haccept
  have hclock := clock_accepted haccept
  by_cases hlength : call.windowSeconds = seconds
  · have hasked : request.seconds = seconds.toNat := by omega
    rw [if_pos hlength]
    by_cases hin : request.key = key ∧ InWindow self.grid seconds.toNat k request.now
    · have hcall : call.key = key ∧ call.windowSeconds = seconds ∧
          ∃ now ∈ self.clock call, InWindow self.grid seconds.toNat k now :=
        ⟨hkey ▸ hin.1, hlength, request.now, hclock, hin.2⟩
      rw [allowedIn, if_pos hcall]
      by_cases hallowed : ∃ remaining, outcome = .allowed remaining
      · obtain ⟨remaining, rfl⟩ := hallowed
        have hserved := servedBy_eq_some hasked hin.2 (rfl : Outcome.allowed remaining = _)
        rw [hlaw.allows, ← hin.1, hserved]
        simp [hlimit]
      · have hdenied : ∀ remaining, outcome ≠ .allowed remaining :=
          fun remaining h => hallowed ⟨remaining, h⟩
        obtain ⟨retry, -, hdecision⟩ := hlaw.denies request outcome hdenied
        rw [hdecision, servedBy_eq_none hdenied]
        rfl
    · have hcall : ¬ (call.key = key ∧ call.windowSeconds = seconds ∧
          ∃ now ∈ self.clock call, InWindow self.grid seconds.toNat k now) := by
        intro hall
        obtain ⟨hcallKey, -, now, hnow, hwithin⟩ := hall
        obtain rfl : request.now = now := Option.some.inj (hclock.symm.trans hnow)
        exact hin ⟨hkey.trans hcallKey, hwithin⟩
      have hserved : servedBy self.grid key seconds.toNat k request outcome = none :=
        if_neg fun hall => hin ⟨hall.1, hall.2.2⟩
      rw [allowedIn, if_neg hcall, hserved]
      rfl
  · rw [if_neg hlength, allowedIn, if_neg fun hall => hlength hall.2.1]
    rfl

theorem allowedIn_refused (hrefused : ∀ request, self.accept call ≠ .success request)
    (key : String) (seconds k : ℤ) (result : Call Decision) (latest : Option T) (noRoom : Bool) :
    self.allowedIn key seconds k (⟨call, latest, noRoom⟩, result) = none := by
  refine if_neg fun hall => ?_
  obtain ⟨-, -, now, hnow, -⟩ := hall
  rw [clock_refused hrefused] at hnow
  cases hnow

theorem tally_log (hlaw : self.Lawful) {key : String} {seconds k : ℤ} {served : List (ℕ × ℕ)}
    (h : WellFormed self.grid store) (htally : Tally self.grid store key seconds.toNat k served)
    (calls : List (Consume C)) : ∃ limit m : ℕ, m ≤ limit ∧
      served.map (fun entry => ((entry.1 : ℤ), (entry.2 : ℤ))) ++
        (self.log store calls).filterMap (self.allowedIn key seconds k) =
      (countdown limit m).map fun entry => ((entry.1 : ℤ), (entry.2 : ℤ)) := by
  induction calls generalizing store served with
  | nil =>
      obtain ⟨limit, m, hm, rfl⟩ := htally.exists_countdown
      exact ⟨limit, m, hm, List.append_nil _⟩
  | cons call rest ih =>
      rcases self.accepted_or_refused call with haccepted | hrefused
      · obtain ⟨request, haccept⟩ := haccepted
        obtain ⟨-, -, hlength, hlimit, hseconds⟩ := hlaw.accepts haccept
        have hafter := wellFormed_consume h hseconds
        have hstep := htally.consume h hseconds hlimit
        have hentry := allowedIn_eq hlaw haccept key seconds k
          (FixedWindow.consume self.grid store request).2 store.latest
            (self.sight store call).noRoom
        have hserved : (if call.windowSeconds = seconds then
            servedBy self.grid key seconds.toNat k request
              (FixedWindow.consume self.grid store request).2 else none) =
            servedBy self.grid key seconds.toNat k request
              (FixedWindow.consume self.grid store request).2 := by
          by_cases hasked : call.windowSeconds = seconds
          · exact if_pos hasked
          · rw [if_neg hasked]
            exact (if_neg fun hall => hasked (by omega)).symm
        rw [hserved] at hentry
        obtain ⟨limit, m, hm, hlog⟩ := ih hafter hstep
        refine ⟨limit, m, hm, ?_⟩
        rw [← hlog, log, consume_accepted haccept, List.filterMap_cons]
        have hsight : self.sight store call =
            ⟨call, store.latest, (self.sight store call).noRoom⟩ :=
          rfl
        rw [hsight, hentry]
        cases servedBy self.grid key seconds.toNat k request
          (FixedWindow.consume self.grid store request).2 <;> simp
      · have hentry := allowedIn_refused hrefused key seconds k (self.consume store call).2
          store.latest (self.sight store call).noRoom
        obtain ⟨limit, m, hm, hlog⟩ := ih h htally
        refine ⟨limit, m, hm, ?_⟩
        have hsight : self.sight store call =
            ⟨call, store.latest, (self.sight store call).noRoom⟩ :=
          rfl
        rw [← hlog, log, List.filterMap_cons, hsight, hentry, consume_refused hrefused]

/-! ## One key -/

/-- The results of the calls of a key, from what they see alone. -/
def results (self : Limiter C T) : Option (Window T) → List (Sighting C T) → List (Call Decision)
  | _, [] => []
  | held, seen :: rest =>
      match self.accept seen.call with
      | .success request =>
          self.decision request (alone self.grid seen.latest seen.noRoom request held).2 ::
            self.results (alone self.grid seen.latest seen.noRoom request held).1 rest
      | .failure error => .failure error :: self.results held rest
      | .raised error => .raised error :: self.results held rest

theorem log_own {rest : List (Consume C)} {key : String} (hkey : call.key = key) :
    (self.log store (call :: rest)).filter (·.1.call.key = key) =
      (self.sight store call, (self.consume store call).2) ::
        (self.log (self.consume store call).1 rest).filter (·.1.call.key = key) :=
  List.filter_cons_of_pos (decide_eq_true hkey)

theorem log_other {rest : List (Consume C)} {key : String} (hkey : call.key ≠ key) :
    (self.log store (call :: rest)).filter (·.1.call.key = key) =
      (self.log (self.consume store call).1 rest).filter (·.1.call.key = key) :=
  List.filter_cons_of_neg (by simp [sight, hkey])

theorem results_log (hlaw : self.Lawful) {key : String} {held : Option (Window T)}
    (h : WellFormed self.grid store) (hheld : Holds store key held) (calls : List (Consume C)) :
    ((self.log store calls).filter (·.1.call.key = key)).map Prod.snd =
      self.results held (((self.log store calls).filter (·.1.call.key = key)).map Prod.fst) := by
  induction calls generalizing store held with
  | nil => rfl
  | cons call rest ih =>
      by_cases hkey : call.key = key
      · rw [log_own hkey, List.map_cons, List.map_cons]
        cases haccept : self.accept call with
        | success request =>
            obtain ⟨hsame, -, -, -, hseconds⟩ := hlaw.accepts haccept
            obtain rfl := hsame.trans hkey
            obtain ⟨hnext, hanswer⟩ := hheld.own h hseconds
            have hlater := ih (wellFormed_consume h hseconds) hnext
            have hroom : (self.sight store call).noRoom = noRoom store request := by
              simp only [sight, haccept]
            have hcall : self.accept (self.sight store call).call = .success request := haccept
            rw [results, hcall, hroom, consume_accepted haccept, hlater, hanswer]
            rfl
        | failure error =>
            have hlater := ih h hheld
            have hcall : self.accept (self.sight store call).call = .failure error := haccept
            have hconsume : self.consume store call = (store, .failure error) := by
              simp only [Limiter.consume, haccept]
            rw [results, hcall, hconsume, hlater]
        | raised error =>
            have hlater := ih h hheld
            have hcall : self.accept (self.sight store call).call = .raised error := haccept
            have hconsume : self.consume store call = (store, .raised error) := by
              simp only [Limiter.consume, haccept]
            rw [results, hcall, hconsume, hlater]
      · rw [log_other hkey]
        rcases self.accepted_or_refused call with haccepted | hrefused
        · obtain ⟨request, haccept⟩ := haccepted
          obtain ⟨hsame, -, -, -, hseconds⟩ := hlaw.accepts haccept
          have hne : request.key ≠ key := fun heq => hkey (hsame.symm.trans heq)
          rw [consume_accepted haccept]
          exact ih (wellFormed_consume h hseconds) (hheld.other h hseconds hne)
        · rw [consume_refused hrefused]
          exact ih h hheld

theorem Lawful.exact (hlaw : self.Lawful) (maxKeys : ℕ) : self.Exact maxKeys := by
  have hempty (maxKeys : ℕ) : WellFormed self.grid (empty maxKeys : Store String T) :=
    wellFormed_empty maxKeys
  have hafter (calls : List (Consume C)) := wellFormed_after hlaw (hempty maxKeys) calls
  refine ⟨fun calls => ?_, fun calls => (hafter calls).unique, fun calls => (hafter calls).entries,
    fun calls => ?_, fun calls call now hnow hforward => ?_, fun calls key seconds k => ?_,
    fun calls others key maxKeys' hsame => ?_⟩
  · have hbound := (hafter calls).bounded
    rw [maxKeys_after] at hbound
    exact hbound
  · rw [latest_after]
    rfl
  · rcases self.accepted_or_refused call with haccepted | hrefused
    · obtain ⟨request, haccept⟩ := haccepted
      obtain ⟨-, -, -, -, hseconds⟩ := hlaw.accepts haccept
      obtain rfl : request.now = now := Option.some.inj ((clock_accepted haccept).symm.trans hnow)
      have hnotBack : Forward (self.after (empty maxKeys) calls) request.now := by
        intro hback
        obtain ⟨latest, hlatest, hlt⟩ := hback
        exact absurd (hforward latest hlatest) (not_le.mpr hlt)
      rw [after_concat, consume_accepted haccept]
      exact alive_consume (hafter calls) hnotBack hseconds
    · rw [clock_refused hrefused] at hnow
      cases hnow
  · have htally : Tally self.grid (empty maxKeys : Store String T) key seconds.toNat k [] :=
      tally_empty maxKeys seconds.toNat k
    obtain ⟨limit, m, hm, hlog⟩ := tally_log hlaw (hempty maxKeys) htally calls
    refine ⟨limit, m, hm, ?_⟩
    rw [List.map_nil, List.nil_append] at hlog
    rw [hlog, countdown, List.map_map]
    refine List.map_congr_left fun i hi => ?_
    have hbound := List.mem_range.mp hi
    have hremaining : ((limit - 1 - i : ℕ) : ℤ) = limit - 1 - i := by omega
    rw [Function.comp_apply, hremaining]
  · have hown := results_log hlaw (hempty maxKeys) (holds_empty maxKeys key) calls
    have hother := results_log hlaw (hempty maxKeys') (holds_empty maxKeys' key) others
    rw [logOf, logOf, hown, hother]
    exact congrArg _ hsame

end Limiter

/-! ## The two stores -/

theorem InMemoryRateLimitStore.denied_secondsUntil (expiresAt now : ℤ) :
    ∃ retry, 1 ≤ retry ∧ denied (secondsUntil expiresAt now) = .success ⟨false, 0, retry⟩ := by
  have hretry : 1 ≤ secondsUntil expiresAt now := le_max_left _ _
  refine ⟨_, hretry, ?_⟩
  have hbound : 0 ≤ secondsUntil expiresAt now := by omega
  have hpositive : ¬ secondsUntil expiresAt now < 1 := not_lt.mpr hretry
  simp [denied, rateLimitDecision, raiseUnless_of, hbound, hpositive]

theorem inMemoryRateLimitStore_lawful : inMemoryRateLimitStore.Lawful where
  accepts := by
    intro call request h
    obtain ⟨key, now, limit, windowSeconds⟩ := call
    have haccept : InMemoryRateLimitStore.accept _ = .success request := h
    unfold InMemoryRateLimitStore.accept at haccept
    obtain ⟨-, -, haccept⟩ := Attempt.bind_eq_success.mp haccept
    cases now with
    | naive _ => cases haccept
    | aware micros =>
        obtain ⟨_, hlimit, haccept⟩ := Attempt.bind_eq_success.mp haccept
        obtain ⟨_, hseconds, haccept⟩ := Attempt.bind_eq_success.mp haccept
        obtain ⟨-, -, haccept⟩ := Attempt.bind_eq_success.mp haccept
        have hlimits := (raiseUnless_eq_success.mp hlimit).1
        have hlengths := (raiseUnless_eq_success.mp hseconds).1
        cases haccept
        dsimp only at hlimits hlengths ⊢
        exact ⟨rfl, by omega, by omega, by omega, by omega⟩
  allows request remaining := by
    show InMemoryRateLimitStore.rateLimitDecision true remaining 0 = _
    simp [InMemoryRateLimitStore.rateLimitDecision, raiseUnless_of]
  denies request outcome h := by
    cases outcome with
    | allowed remaining => exact absurd rfl (h remaining)
    | regressed expiresAt => exact InMemoryRateLimitStore.denied_secondsUntil _ _
    | full expiresAt => exact InMemoryRateLimitStore.denied_secondsUntil _ _
    | mismatched expiresAt => exact InMemoryRateLimitStore.denied_secondsUntil _ _
    | exceeded expiresAt held => exact InMemoryRateLimitStore.denied_secondsUntil _ _

theorem fixedWindowAdmissionStore_lawful : fixedWindowAdmissionStore.Lawful where
  accepts := by
    intro call request h
    obtain ⟨key, now, limit, windowSeconds⟩ := call
    have haccept : FixedWindowAdmissionStore.accept _ = .success request := h
    unfold FixedWindowAdmissionStore.accept at haccept
    obtain ⟨-, -, haccept⟩ := Attempt.bind_eq_success.mp haccept
    cases now with
    | none => cases haccept
    | some now =>
        obtain ⟨-, -, haccept⟩ := Attempt.bind_eq_success.mp haccept
        obtain ⟨_, hlimit, haccept⟩ := Attempt.bind_eq_success.mp haccept
        obtain ⟨_, hseconds, haccept⟩ := Attempt.bind_eq_success.mp haccept
        have hlimits := (raiseUnless_eq_success.mp hlimit).1
        have hlengths := (raiseUnless_eq_success.mp hseconds).1
        cases haccept
        dsimp only at hlimits hlengths ⊢
        exact ⟨rfl, by omega, by omega, by omega, by omega⟩
  allows _ _ := rfl
  denies request outcome h := by
    cases outcome with
    | allowed remaining => exact absurd rfl (h remaining)
    | regressed expiresAt => exact ⟨_, le_max_left _ _, rfl⟩
    | full expiresAt => exact ⟨_, le_max_left _ _, rfl⟩
    | mismatched expiresAt => exact ⟨_, le_max_left _ _, rfl⟩
    | exceeded expiresAt held => exact ⟨_, le_max_left _ _, rfl⟩

/-- Both stores, of any size, along every run of any calls. -/
theorem fixedWindow_stores_exact (maxKeys : ℕ) :
    inMemoryRateLimitStore.Exact maxKeys ∧ fixedWindowAdmissionStore.Exact maxKeys :=
  ⟨inMemoryRateLimitStore_lawful.exact maxKeys, fixedWindowAdmissionStore_lawful.exact maxKeys⟩

end StonksPaper.Limits
