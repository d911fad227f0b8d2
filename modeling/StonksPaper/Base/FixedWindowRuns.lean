import StonksPaper.Base.FixedWindow

/-!
# Runs over fixed windows

What a key sees of the calls of the others is the largest clock and whether there is room for a
new window (`Holds.own`, `Holds.other`), and the calls that one window allows count down from its
limit (`Tally.consume`).
-/

namespace FixedWindow

universe u v

set_option linter.unusedSectionVars false

variable {κ : Type v} {T : Type u} [LinearOrder κ] [LinearOrder T]

variable (grid : Grid T)

/-- What a call does to the window that its key held, with the largest clock before it. -/
def alone (latest : Option T) (full : Bool) (request : Request κ T) (held : Option (Window T)) :
    Option (Window T) × Outcome T :=
  if ∃ last ∈ latest, request.now < last then
    (held, .regressed (grid.expiresAt request.seconds
      (grid.identifier request.seconds request.now)))
  else
    grant grid full request (held.filter fun window => decide (request.now < window.expiresAt))

/-- The clock of the call is in the window. -/
def InWindow (seconds : ℕ) (k : ℤ) (now : T) : Prop :=
  grid.expiresAt seconds (k - 1) ≤ now ∧ now < grid.expiresAt seconds k

instance (seconds : ℕ) (k : ℤ) (now : T) : Decidable (InWindow grid seconds k now) :=
  inferInstanceAs (Decidable (_ ∧ _))

/-- The limit and what remains, for a call of the key that the window allows. -/
def servedBy (key : κ) (seconds : ℕ) (k : ℤ) (request : Request κ T) (answer : Outcome T) :
    Option (ℕ × ℕ) :=
  if request.key = key ∧ request.seconds = seconds ∧ InWindow grid seconds k request.now then
    match answer with
    | .allowed remaining => some (request.limit, remaining)
    | _ => none
  else none

def countdown (limit m : ℕ) : List (ℕ × ℕ) := (List.range m).map fun i => (limit, limit - 1 - i)

variable {grid} {store : Store κ T} {request : Request κ T} {key : κ}

/-! ## The store -/

theorem maxKeys_consume (store : Store κ T) (request : Request κ T) :
    (consume grid store request).1.maxKeys = store.maxKeys := by
  unfold consume
  dsimp only
  split
  · rfl
  · split
    · split <;> rfl
    · split <;> rfl

/-- The clock of the store is the largest one seen. -/
theorem latest_consume (store : Store κ T) (request : Request κ T) :
    (consume grid store request).1.latest =
      some (store.latest.elim request.now fun latest => max latest request.now) := by
  by_cases hforward : Forward store request.now
  · have hnow : (consume grid store request).1.latest = some request.now := by
      unfold consume
      dsimp only
      rw [if_neg hforward]
      split
      · split <;> rfl
      · split <;> rfl
    rw [hnow]
    cases hlatest : store.latest with
    | none => rfl
    | some latest => rw [Option.elim_some, max_eq_right (hforward.le hlatest)]
  · rw [consume_regressed hforward]
    obtain ⟨latest, hlatest, hlt⟩ := not_not.mp hforward
    show store.latest = _
    rw [Option.mem_def.mp hlatest, Option.elim_some, max_eq_left hlt.le]

theorem alive_consume (h : WellFormed grid store) (hforward : Forward store request.now)
    (hseconds : 0 < request.seconds) :
    ∀ held ∈ (consume grid store request).1.windows, request.now < held.2.expiresAt := by
  have hconsumed := consume_spec h hforward hseconds
  exact fun held hheld => hconsumed.wellFormed.alive hheld _ hconsumed.latest

/-! ## One key -/

/-- What a store holds for a key, as far as it is not over. -/
def Holds (store : Store κ T) (key : κ) (held : Option (Window T)) : Prop :=
  store.window key =
    held.filter fun window => decide (∀ latest ∈ store.latest, latest < window.expiresAt)

theorem Holds.expire (h : WellFormed grid store) {held : Option (Window T)}
    (hheld : Holds store key held) {now : T} (hforward : Forward store now) :
    (store.expire now).window key =
      held.filter fun window => decide (now < window.expiresAt) := by
  rw [window_expire h, hheld, Option.filter_filter]
  congr 1
  funext window
  by_cases halive : now < window.expiresAt
  · have hbefore : ∀ latest ∈ store.latest, latest < window.expiresAt :=
      fun latest hlatest => (hforward.le hlatest).trans_lt halive
    simp [halive]
    exact hbefore
  · simp [halive]

theorem holds_of_window (h : WellFormed grid store) (key : κ) :
    Holds store key (store.window key) := by
  unfold Holds
  cases hwindow : store.window key with
  | none => rfl
  | some window =>
      have halive := h.alive (mem_of_window hwindow)
      rw [Option.filter_some, if_pos (decide_eq_true halive)]

/-- A call of the key sees the others only in the largest clock and whether there is room. -/
theorem Holds.own (h : WellFormed grid store) (hseconds : 0 < request.seconds)
    {held : Option (Window T)} (hheld : Holds store request.key held) :
    Holds (consume grid store request).1 request.key
        (alone grid store.latest (noRoom store request) request held).1 ∧
      (consume grid store request).2 =
        (alone grid store.latest (noRoom store request) request held).2 := by
  have hafter := wellFormed_consume h hseconds
  by_cases hforward : Forward store request.now
  · have hown := (consume_spec h hforward hseconds).own
    rw [hheld.expire h hforward] at hown
    have halone : alone grid store.latest (noRoom store request) request held = grant grid _ _ _ :=
      if_neg hforward
    rw [halone, ← hown]
    exact ⟨holds_of_window hafter request.key, rfl⟩
  · have hsame : consume grid store request = _ := consume_regressed hforward
    have halone : alone grid store.latest (noRoom store request) request held = (held, _) :=
      if_pos (not_not.mp hforward)
    rw [halone, hsame]
    exact ⟨hheld, rfl⟩

/-- A call of another key only moves the clock. -/
theorem Holds.other (h : WellFormed grid store) (hseconds : 0 < request.seconds)
    (hkey : request.key ≠ key) {held : Option (Window T)} (hheld : Holds store key held) :
    Holds (consume grid store request).1 key held := by
  by_cases hforward : Forward store request.now
  · have hconsumed := consume_spec h hforward hseconds
    have hwindow := hconsumed.other key (Ne.symm hkey)
    unfold Holds
    rw [hwindow, hheld.expire h hforward, hconsumed.latest]
    simp
  · rw [consume_regressed hforward]
    exact hheld

/-! ## One window -/

theorem countdown_succ (limit m : ℕ) :
    countdown limit (m + 1) = countdown limit m ++ [(limit, limit - 1 - m)] := by
  rw [countdown, List.range_succ, List.map_append]
  rfl

/-- How far a window of a key has counted down: it is to come, it is held, or it is over. -/
inductive Tally (grid : Grid T) (store : Store κ T) (key : κ) (seconds : ℕ) (k : ℤ) :
    List (ℕ × ℕ) → Prop
  | untouched (h : ∀ window ∈ store.window key, window.seconds = seconds → window.identifier ≠ k) :
      Tally grid store key seconds k []
  | counting {window : Window T} (hwindow : store.window key = some window)
      (hseconds : window.seconds = seconds) (hidentifier : window.identifier = k)
      (m : ℕ) (hm : m = min window.count window.limit) :
      Tally grid store key seconds k (countdown window.limit m)
  | finished {latest : T} (hlatest : latest ∈ store.latest)
      (hends : grid.expiresAt seconds k ≤ latest) {limit m : ℕ} (hm : m ≤ limit) : Tally grid store
      key seconds k (countdown limit m)

theorem Tally.exists_countdown {seconds : ℕ} {k : ℤ} {served : List (ℕ × ℕ)}
    (h : Tally grid store key seconds k served) :
    ∃ limit m, m ≤ limit ∧ served = countdown limit m := by
  cases h with
  | untouched _ => exact ⟨0, 0, le_rfl, rfl⟩
  | counting _ _ _ m hm => exact ⟨_, m, hm ▸ min_le_right _ _, rfl⟩
  | finished _ _ hm => exact ⟨_, _, hm, rfl⟩

/-- The time passes to the clock of a call, and nothing is counted. -/
theorem Tally.expire (h : WellFormed grid store) {now : T} (hforward : Forward store now)
    {seconds : ℕ} {k : ℤ} {served : List (ℕ × ℕ)} (htally : Tally grid store key seconds k served) :
    Tally grid (store.expire now) key seconds k served := by
  have hwindow := window_expire h key now
  cases htally with
  | untouched huntouched =>
      refine .untouched fun window hheld => huntouched window ?_
      rw [Option.mem_def, hwindow] at hheld
      exact (Option.mem_filter_iff.mp hheld).1
  | @counting window hheld hseconds hidentifier m hm =>
      by_cases halive : now < window.expiresAt
      · refine .counting ?_ hseconds hidentifier m hm
        rw [hwindow, hheld, Option.filter_some, if_pos (decide_eq_true halive)]
      · obtain ⟨-, hends, -⟩ := h.stamped _ (mem_of_window hheld)
        refine .finished rfl ?_ (hm ▸ min_le_right _ _)
        rw [← hseconds, ← hidentifier, ← hends]
        exact not_lt.mp halive
  | finished hlatest hends hm => exact .finished rfl (hends.trans (hforward.le hlatest)) hm

theorem Tally.congr {after : Store κ T} {seconds : ℕ} {k : ℤ} {served : List (ℕ × ℕ)}
    (htally : Tally grid store key seconds k served) (hwindow : after.window key = store.window key)
    (hlatest : after.latest = store.latest) : Tally grid after key seconds k served := by
  cases htally with
  | untouched h => exact .untouched (hwindow ▸ h)
  | counting hheld hseconds hidentifier m hm =>
      exact .counting (hwindow.trans hheld) hseconds hidentifier m hm
  | finished hpast hends hm => exact .finished (hlatest ▸ hpast) hends hm

theorem servedBy_eq_none {seconds : ℕ} {k : ℤ} {answer : Outcome T}
    (h : ∀ remaining, answer ≠ .allowed remaining) :
    servedBy grid key seconds k request answer = none := by
  unfold servedBy
  split
  · cases answer with
    | allowed remaining => exact absurd rfl (h remaining)
    | regressed _ => rfl
    | full _ => rfl
    | mismatched _ => rfl
    | exceeded _ _ => rfl
  · rfl

theorem servedBy_eq_some {seconds : ℕ} {k : ℤ} {answer : Outcome T} {remaining : ℕ}
    (hseconds : request.seconds = seconds) (hwithin : InWindow grid seconds k request.now)
    (h : answer = .allowed remaining) :
    servedBy grid request.key seconds k request answer = some (request.limit, remaining) := by
  rw [h]
  exact if_pos ⟨rfl, hseconds, hwithin⟩

section

variable {seconds : ℕ} {k : ℤ} {served : List (ℕ × ℕ)} {after : Store κ T} {full : Bool}
  {answer : Outcome T}

/-- The clock of a call is in the window that the call names. -/
theorem inWindow_iff (hseconds : 0 < request.seconds) (hsame : request.seconds = seconds) :
    InWindow grid seconds k request.now ↔ grid.identifier seconds request.now = k :=
  (grid.identifier_eq_iff (hsame ▸ hseconds) request.now k).symm

theorem servedBy_elsewhere (hseconds : 0 < request.seconds)
    (hne : request.seconds = seconds → grid.identifier seconds request.now ≠ k) :
    servedBy grid request.key seconds k request answer = none :=
  if_neg fun hall => hne hall.2.1 ((inWindow_iff hseconds hall.2.1).mp hall.2.2)

theorem Tally.grant_absent (hseconds : 0 < request.seconds) (hlimit : 0 < request.limit)
    (hown : (after.window request.key, answer) = FixedWindow.grant grid full request none) :
    Tally grid after request.key seconds k
      (servedBy grid request.key seconds k request answer).toList := by
  rw [FixedWindow.grant] at hown
  split at hown
  · obtain ⟨hwindow, hanswer⟩ := Prod.mk.inj hown
    rw [servedBy_eq_none (by simp [hanswer])]
    exact .untouched (by simp [hwindow])
  · obtain ⟨hwindow, hanswer⟩ := Prod.mk.inj hown
    by_cases hhere : request.seconds = seconds ∧ grid.identifier seconds request.now = k
    · obtain ⟨hsame, hidentifier⟩ := hhere
      have hserved := servedBy_eq_some hsame ((inWindow_iff hseconds hsame).mpr hidentifier) hanswer
      have hmade : (opened grid request).identifier = k := by
        rw [← hidentifier, ← hsame]
        rfl
      rw [hserved]
      exact .counting hwindow hsame hmade 1 (min_eq_left hlimit).symm
    · rw [servedBy_elsewhere hseconds fun hsame hidentifier => hhere ⟨hsame, hidentifier⟩]
      refine .untouched fun window hmade hsame hidentifier => ?_
      rw [hwindow] at hmade
      obtain rfl := Option.some.inj hmade
      have hsame' : request.seconds = seconds := hsame
      exact hhere ⟨hsame', hsame' ▸ hidentifier⟩

/-- A call that a held window counts is not in the window in question, if that is another. -/
theorem Tally.grant_other {window : Window T} (hseconds : 0 < request.seconds)
    (hidentifier : grid.identifier window.seconds request.now = window.identifier)
    (hother : window.seconds = seconds → window.identifier ≠ k)
    (hown : (after.window request.key, answer) =
      FixedWindow.grant grid full request (some window)) :
    Tally grid after request.key seconds k
      (servedBy grid request.key seconds k request answer).toList := by
  rw [FixedWindow.grant] at hown
  split at hown
  · obtain ⟨hwindow, hanswer⟩ := Prod.mk.inj hown
    rw [servedBy_eq_none (by simp [hanswer])]
    exact .untouched fun held hheld => by
      rw [hwindow] at hheld
      obtain rfl := Option.some.inj hheld
      exact hother
  · rename_i hmatch
    obtain ⟨hwindow, hanswer⟩ := Prod.mk.inj hown
    have hout : request.seconds = seconds → grid.identifier seconds request.now ≠ k := by
      intro hsame hk
      have hsecondsHeld : window.seconds = seconds := by
        by_contra hne
        exact hmatch (.inr (hsame ▸ hne))
      exact hother hsecondsHeld (by rw [← hidentifier, ← hk, hsecondsHeld])
    rw [servedBy_elsewhere hseconds hout]
    exact .untouched fun held hheld => by
      rw [hwindow] at hheld
      obtain rfl := Option.some.inj hheld
      exact hother

/-- The held window counts a call that it has room for. -/
theorem Tally.grant_held {window : Window T} {m : ℕ} (hseconds : 0 < request.seconds)
    (hstamped : grid.identifier window.seconds request.now = window.identifier)
    (hsame : window.seconds = seconds) (hidentifier : window.identifier = k)
    (hm : m = min window.count window.limit)
    (hown : (after.window request.key, answer) =
      FixedWindow.grant grid full request (some window)) :
    Tally grid after request.key seconds k (countdown window.limit m ++
      (servedBy grid request.key seconds k request answer).toList) := by
  rw [FixedWindow.grant] at hown
  split at hown
  · obtain ⟨hwindow, hanswer⟩ := Prod.mk.inj hown
    rw [servedBy_eq_none (by simp [hanswer])]
    simpa using Tally.counting hwindow hsame hidentifier m hm
  · rename_i hmatch
    have hlimits : window.limit = request.limit := by
      by_contra hne
      exact hmatch (.inl hne)
    have hlengths : window.seconds = request.seconds := by
      by_contra hne
      exact hmatch (.inr hne)
    obtain ⟨hwindow, hanswer⟩ := Prod.mk.inj hown
    by_cases hover : request.limit < window.count + 1
    · rw [if_pos hover] at hanswer
      rw [servedBy_eq_none (by simp [hanswer])]
      have hfull : m = min (window.count + 1) window.limit := by omega
      simpa using Tally.counting hwindow hsame hidentifier m hfull
    · rw [if_neg hover] at hanswer
      have hasked := hlengths.symm.trans hsame
      have hwithinNow := (inWindow_iff hseconds hasked).mpr
        (by rw [← hsame, hstamped, hidentifier])
      have hserved := servedBy_eq_some hasked hwithinNow hanswer
      have hlast : window.limit - 1 - m = request.limit - (window.count + 1) := by omega
      have hmore : m + 1 = min (window.count + 1) window.limit := by omega
      have hnext : Tally grid after request.key seconds k (countdown window.limit (m + 1)) :=
        .counting hwindow hsame hidentifier (m + 1) hmore
      rw [countdown_succ] at hnext
      rw [hserved, ← hlast, ← hlimits]
      exact hnext

/-- A call of a key whose held window is the one in question, or none is. -/
theorem Tally.grant (h : WellFormed grid store) (hlatest : store.latest = some request.now)
    (hseconds : 0 < request.seconds) (hlimit : 0 < request.limit)
    (htally : Tally grid store request.key seconds k served)
    (hafter : after.latest = some request.now)
    (hown : (after.window request.key, answer) =
      FixedWindow.grant grid full request (store.window request.key)) :
    Tally grid after request.key seconds k
      (served ++ (servedBy grid request.key seconds k request answer).toList) := by
  have hstamp {window : Window T} (hheld : store.window request.key = some window) :
      grid.identifier window.seconds request.now = window.identifier := by
    obtain ⟨-, -, latest, hnow, hidentifier⟩ := h.stamped _ (mem_of_window hheld)
    obtain rfl : latest = request.now := Option.some.inj (hnow.symm.trans hlatest)
    exact hidentifier
  cases htally with
  | untouched huntouched =>
      cases hheld : store.window request.key with
      | none => exact Tally.grant_absent hseconds hlimit (hheld ▸ hown)
      | some window =>
          exact Tally.grant_other hseconds (hstamp hheld) (huntouched window hheld) (hheld ▸ hown)
  | @counting window hheld hsame hidentifier m hm =>
      exact Tally.grant_held hseconds (hstamp hheld) hsame hidentifier hm (hheld ▸ hown)
  | finished hpast hends hm =>
      obtain rfl := Option.some.inj (hpast.symm.trans hlatest)
      have hafterEnd : ¬ InWindow grid seconds k request.now := fun hin => not_lt.mpr hends hin.2
      have hserved : servedBy grid request.key seconds k request answer = none :=
        if_neg fun hall => hafterEnd hall.2.2
      rw [hserved]
      simpa using Tally.finished hafter hends hm

end

theorem Tally.consume (h : WellFormed grid store) (hseconds : 0 < request.seconds)
    (hlimit : 0 < request.limit) {seconds : ℕ} {k : ℤ} {served : List (ℕ × ℕ)}
    (htally : Tally grid store key seconds k served) :
    Tally grid (FixedWindow.consume grid store request).1 key seconds k
      (served ++ (servedBy grid key seconds k request
        (FixedWindow.consume grid store request).2).toList) := by
  by_cases hforward : Forward store request.now
  · have hconsumed := consume_spec h hforward hseconds
    have hexpired := htally.expire h hforward
    by_cases hkey : request.key = key
    · subst hkey
      exact hexpired.grant (wellFormed_expire h hforward) rfl hseconds hlimit hconsumed.latest
        hconsumed.own
    · have hserved : servedBy grid key seconds k request
          (FixedWindow.consume grid store request).2 = none := if_neg fun hall => hkey hall.1
      rw [hserved]
      simpa using hexpired.congr (hconsumed.other key (Ne.symm hkey)) hconsumed.latest
  · have hsame : FixedWindow.consume grid store request = _ := consume_regressed hforward
    rw [hsame, servedBy_eq_none (by simp)]
    simpa using htally

theorem tally_empty (maxKeys : ℕ) (seconds : ℕ) (k : ℤ) :
    Tally grid (⟨maxKeys, [], [], none⟩ : Store κ T) key seconds k [] :=
  .untouched (by simp [Store.window, Table.get])

theorem holds_empty (maxKeys : ℕ) (key : κ) :
    Holds (⟨maxKeys, [], [], none⟩ : Store κ T) key none := rfl

end FixedWindow
