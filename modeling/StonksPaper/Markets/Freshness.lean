import StonksPaper.Domain.Calendar

/-!
# The freshness of market data

`market_freshness.py`: the latest event is compared with the open session, or with the latest
completed one. The verdict reads the event only after the regime is settled, so two events checked
at one time are judged in one regime. While the market is closed an event after the close is stale,
and a daily one is fresh however old it is.
-/

namespace StonksPaper

namespace Markets

inductive BarInterval where
  | minute
  | twoMinute
  | fiveMinute
  | fifteenMinute
  | thirtyMinute
  | ninetyMinute
  | hour
  | day
  | week
  | month
  | year
deriving DecidableEq, Repr

inductive MarketDataFreshness where
  | current
  | marketClosed
  | delayed
  | stale
  | unknown
deriving DecidableEq, Repr

/-- `_CURRENT_AGE_SECONDS` and `_DELAYED_AGE_SECONDS` of an intraday interval. -/
def ageSeconds : BarInterval → Option (ℤ × ℤ)
  | .minute => some (180, 900)
  | .twoMinute => some (300, 1200)
  | .fiveMinute => some (480, 1800)
  | .fifteenMinute => some (1080, 3600)
  | .thirtyMinute => some (2100, 7200)
  | .ninetyMinute => some (5700, 14400)
  | .hour => some (3900, 7200)
  | .day | .week | .month | .year => none

def BarInterval.isIntraday (self : BarInterval) : Bool := (ageSeconds self).isSome

theorem ageSeconds_ordered {interval : BarInterval} {ages : ℤ × ℤ}
    (h : ageSeconds interval = some ages) : ages.1 ≤ ages.2 := by
  cases interval <;> cases h <;> decide

structure ExchangeMarketFreshnessPolicy where
  calendar : ExchangeCalendar
  validFrom : Date
  validThrough : Date
  window : validFrom < validThrough

/-- `int((checked - event).total_seconds())`, for an event that is not later. -/
def ageOf (event checked : UTCDateTime) : ℤ := (checked - event) / 1000000

def openSessionFreshness (interval : BarInterval) (event checked : UTCDateTime) :
    MarketDataFreshness :=
  match ageSeconds interval with
  | none => .delayed
  | some ages =>
      if ageOf event checked ≤ ages.1 then .current
      else if ageOf event checked ≤ ages.2 then .delayed
      else .stale

def closedSessionFreshness (interval : BarInterval) (event : UTCDateTime)
    (completed : MarketSession) : MarketDataFreshness :=
  if interval.isIntraday = false then
    if dateOf event ≤ completed.sessionDate then .marketClosed else .stale
  else if completed.opensAt ≤ event ∧ event ≤ completed.closesAt then .marketClosed
  else .stale

/-- The latest session of some dates, newest first, that is completed. -/
def completedOn (calendar : ExchangeCalendar) (checked : UTCDateTime) :
    List Date → Call (Option MarketSession)
  | [] => return none
  | date :: dates => do
      let session ← calendar.sessionFor date
      match session.filter fun session => session.closesAt ≤ checked with
      | some completed => return some completed
      | none => completedOn calendar checked dates

def latestCompletedSession (calendar : ExchangeCalendar) (checked : UTCDateTime)
    (localDate : Date) : Call (Option MarketSession) :=
  completedOn calendar checked ((List.range 10).map fun offset => localDate - offset)

/-- `assess`. A time that is not aware of its time zone is none. -/
def ExchangeMarketFreshnessPolicy.assess (self : ExchangeMarketFreshnessPolicy)
    (interval : BarInterval) (latestEventTime checkedAt : Option UTCDateTime) :
    Call MarketDataFreshness :=
  match latestEventTime, checkedAt with
  | some event, some checked => do
      if checked < event then return .unknown
      else
        let localDate := self.calendar.timezone.localDate checked
        if ¬ (self.validFrom ≤ localDate ∧ localDate < self.validThrough) then return .unknown
        else
          let session ← self.calendar.sessionFor localDate
          if ∃ today ∈ session, today.IsOpenAt checked then
            return openSessionFreshness interval event checked
          else
            let completed ← latestCompletedSession self.calendar checked localDate
            match completed with
            | none => return .unknown
            | some completed => return closedSessionFreshness interval event completed
  | _, _ => return .unknown

/-! ## Regimes -/

/-- What a time says about the market, before any event is looked at. -/
inductive Regime where
  | unverified
  | opened
  | closed (completed : MarketSession)
deriving DecidableEq

/-- The regime at a time. -/
def ExchangeMarketFreshnessPolicy.regime (self : ExchangeMarketFreshnessPolicy)
    (checked : UTCDateTime) : Call Regime := do
  let localDate := self.calendar.timezone.localDate checked
  if ¬ (self.validFrom ≤ localDate ∧ localDate < self.validThrough) then return .unverified
  else
    let session ← self.calendar.sessionFor localDate
    if ∃ today ∈ session, today.IsOpenAt checked then return .opened
    else
      let completed ← latestCompletedSession self.calendar checked localDate
      return completed.elim .unverified .closed

/-- The verdict on an event in a regime. -/
def Regime.freshness (interval : BarInterval) (event checked : UTCDateTime) :
    Regime → MarketDataFreshness
  | .unverified => .unknown
  | .opened => openSessionFreshness interval event checked
  | .closed completed => closedSessionFreshness interval event completed

variable {policy : ExchangeMarketFreshnessPolicy} {interval : BarInterval}
  {event newer checked : UTCDateTime} {verdict : MarketDataFreshness}

/-- The regime is settled first, and then the event is judged in it. -/
theorem assess_eq (h : event ≤ checked) : policy.assess interval (some event) (some checked) =
    policy.regime checked >>= fun regime => .success (regime.freshness interval event checked) := by
  simp only [ExchangeMarketFreshnessPolicy.assess, ExchangeMarketFreshnessPolicy.regime,
    if_neg (not_lt.mpr h)]
  split
  · rfl
  · cases policy.calendar.sessionFor (policy.calendar.timezone.localDate checked) with
    | failure _ => rfl
    | raised _ => rfl
    | success session =>
        simp only [Attempt.success_bind]
        split
        · rfl
        · cases latestCompletedSession policy.calendar checked
              (policy.calendar.timezone.localDate checked) with
          | failure _ => rfl
          | raised _ => rfl
          | success completed => cases completed <;> rfl

theorem assess_eq_success (h : event ≤ checked) :
    policy.assess interval (some event) (some checked) = .success verdict ↔
      ∃ regime, policy.regime checked = .success regime ∧
        regime.freshness interval event checked = verdict := by
  rw [assess_eq h]
  simp only [Attempt.bind_eq_success, Attempt.success.injEq]

/-- The market is closed after the latest completed session. -/
theorem regime_closed {completed : MarketSession}
    (h : policy.regime checked = .success (.closed completed)) :
    latestCompletedSession policy.calendar checked (policy.calendar.timezone.localDate checked) =
      .success (some completed) := by
  simp only [ExchangeMarketFreshnessPolicy.regime] at h
  split at h
  · cases h
  · simp only [Attempt.bind_eq_success] at h
    obtain ⟨session, -, h⟩ := h
    split at h
    · cases h
    · simp only [Attempt.bind_eq_success, Attempt.pure_eq, Attempt.success.injEq] at h
      obtain ⟨latest, hlatest, hregime⟩ := h
      cases latest with
      | none => cases hregime
      | some _ =>
          obtain rfl := Regime.closed.inj hregime
          exact hlatest

/-! ## Newer events -/

theorem ageOf_anti (h : event ≤ newer) : ageOf newer checked ≤ ageOf event checked :=
  Int.ediv_le_ediv (by omega) (sub_le_sub_left h checked)

def Fresh (verdict : MarketDataFreshness) : Prop :=
  verdict = .current ∨ verdict = .delayed ∨ verdict = .marketClosed

def Ordered (verdict newerVerdict : MarketDataFreshness) : Prop :=
  (newerVerdict = .stale → ¬ Fresh verdict) ∧ (newerVerdict = .delayed → verdict ≠ .current)

/-- While the market is closed: the event is of the completed session, and the newer one is not. -/
def PastClose (interval : BarInterval) (event newer : UTCDateTime) (completed : MarketSession) :
    Prop :=
  if interval.isIntraday = true then
    (completed.opensAt ≤ event ∧ event ≤ completed.closesAt) ∧ completed.closesAt < newer
  else dateOf event ≤ completed.sessionDate ∧ completed.sessionDate < dateOf newer

theorem ordered_opened (h : event ≤ newer) :
    Ordered (openSessionFreshness interval event checked)
      (openSessionFreshness interval newer checked) := by
  have hage : ageOf newer checked ≤ ageOf event checked := ageOf_anti h
  unfold openSessionFreshness
  cases hages : ageSeconds interval with
  | none => simp [Ordered]
  | some ages =>
      have hordered := ageSeconds_ordered hages
      show Ordered (if _ then _ else if _ then _ else _) (if _ then _ else if _ then _ else _)
      by_cases hcurrent : ageOf newer checked ≤ ages.1
      · rw [if_pos hcurrent]
        simp [Ordered]
      · have hlater : ¬ ageOf event checked ≤ ages.1 := by omega
        rw [if_neg hcurrent, if_neg hlater]
        by_cases hdelayed : ageOf newer checked ≤ ages.2
        · rw [if_pos hdelayed]
          split <;> simp [Ordered]
        · rw [if_neg hdelayed, if_neg (by omega)]
          simp [Ordered, Fresh]

theorem ordered_closed {completed : MarketSession} (h : event ≤ newer) :
    Ordered (closedSessionFreshness interval event completed)
      (closedSessionFreshness interval newer completed) ↔
        ¬ PastClose interval event newer completed := by
  have hfresh : Ordered .marketClosed .marketClosed ∧ ¬ Ordered .marketClosed .stale ∧
      ∀ verdict, Ordered .stale verdict := by
    refine ⟨?_, ?_, fun verdict => ?_⟩ <;> simp [Ordered, Fresh]
  unfold closedSessionFreshness PastClose
  cases interval.isIntraday with
  | false =>
      have hdate := dateOf_mono h
      simp only [Bool.false_eq_true, if_true, if_false]
      by_cases hevent : dateOf event ≤ completed.sessionDate
      · rw [if_pos hevent]
        by_cases hnewer : dateOf newer ≤ completed.sessionDate
        · rw [if_pos hnewer]
          simp [hfresh.1, hnewer.not_gt]
        · rw [if_neg hnewer]
          simp [hfresh.2.1, hevent, not_le.mp hnewer]
      · rw [if_neg hevent]
        simp [hfresh.2.2, hevent]
  | true =>
      simp only [Bool.true_eq_false, if_true, if_false]
      by_cases hevent : completed.opensAt ≤ event ∧ event ≤ completed.closesAt
      · rw [if_pos hevent]
        have hopen : completed.opensAt ≤ newer := hevent.1.trans h
        by_cases hnewer : newer ≤ completed.closesAt
        · rw [if_pos ⟨hopen, hnewer⟩]
          simp [hfresh.1, hnewer.not_gt]
        · rw [if_neg fun hinside => hnewer hinside.2]
          simp [hfresh.2.1, hevent, not_le.mp hnewer]
      · rw [if_neg hevent]
        simp only [hfresh.2.2, hevent, false_and, not_false_eq_true]

/-! ## Events of an earlier session -/

def DatedBefore (calendar : ExchangeCalendar) (event : UTCDateTime) (completed : MarketSession) :
    Prop :=
  dateOf event < completed.sessionDate ∧ calendar.timezone.localDate event < completed.sessionDate

/-- The interval is intraday, and the event is older than the delay that is accepted, or outside the
hours of the completed session. -/
def SeenStale (interval : BarInterval) (event checked : UTCDateTime) : Regime → Prop
  | .unverified => True
  | .opened => ∃ ages, ageSeconds interval = some ages ∧ ages.2 < ageOf event checked
  | .closed completed => interval.isIntraday = true ∧
      ¬ (completed.opensAt ≤ event ∧ event ≤ completed.closesAt)

theorem seenStale_iff {regime : Regime}
    (hdated : ∀ completed, regime = .closed completed → dateOf event < completed.sessionDate) :
    (regime.freshness interval event checked = .stale ∨
      regime.freshness interval event checked =
      .unknown) ↔ SeenStale interval event checked regime := by
  cases regime with
  | unverified => simp [Regime.freshness, SeenStale]
  | opened =>
      simp only [Regime.freshness, openSessionFreshness, SeenStale]
      cases hages : ageSeconds interval with
      | none => simp
      | some ages =>
          have hordered := ageSeconds_ordered hages
          simp only [Option.some.injEq, exists_eq_left']
          split
          · simp
            omega
          · split
            · simp
              omega
            · simp
              omega
  | closed completed =>
      have hbefore := hdated completed rfl
      simp only [Regime.freshness, closedSessionFreshness, SeenStale]
      cases interval.isIntraday with
      | false => simp [hbefore.le]
      | true =>
          simp only [Bool.true_eq_false, if_false, true_and]
          split
          · rename_i hinside
            simp [hinside]
          · rename_i hinside
            simp [hinside]

/-! ## The policy -/

/-- What freshness promises of two events that are checked at one time. -/
structure NeverStaler (policy : ExchangeMarketFreshnessPolicy) (interval : BarInterval)
    (event newer checked : UTCDateTime) : Prop where
  ordered : ∀ verdict newerVerdict,
    policy.assess interval (some event) (some checked) = .success verdict →
    policy.assess interval (some newer) (some checked) = .success newerVerdict →
    Ordered verdict newerVerdict
  dated : ∀ completed verdict,
    latestCompletedSession policy.calendar checked (policy.calendar.timezone.localDate checked) =
      .success (some completed) →
    DatedBefore policy.calendar event completed →
    policy.assess interval (some event) (some checked) = .success verdict →
    verdict = .stale ∨ verdict = .unknown

/-- When it keeps the promise. -/
structure KeepsOrder (policy : ExchangeMarketFreshnessPolicy) (interval : BarInterval)
    (event newer checked : UTCDateTime) : Prop where
  close : ∀ completed, policy.regime checked = .success (.closed completed) →
    ¬ PastClose interval event newer completed
  dated : ∀ completed regime,
    latestCompletedSession policy.calendar checked (policy.calendar.timezone.localDate checked) =
      .success (some completed) →
    DatedBefore policy.calendar event completed → policy.regime checked = .success regime →
    SeenStale interval event checked regime

theorem neverStaler_iff (h : event ≤ newer) (hchecked : newer ≤ checked) :
    NeverStaler policy interval event newer checked ↔
      KeepsOrder policy interval event newer checked := by
  have hevent : event ≤ checked := h.trans hchecked
  have hdated : ∀ {completed : MarketSession} {regime : Regime},
      latestCompletedSession policy.calendar checked
        (policy.calendar.timezone.localDate checked) = .success (some completed) →
      DatedBefore policy.calendar event completed → policy.regime checked = .success regime →
      ∀ other, regime = .closed other → dateOf event < other.sessionDate := by
    intro completed regime hlatest hbefore hregime other hother
    have hsame := (regime_closed (hother ▸ hregime)).symm.trans hlatest
    obtain rfl := Option.some.inj (Attempt.success.inj hsame)
    exact hbefore.1
  constructor
  · intro hstaler
    refine ⟨fun completed hregime => ?_, fun completed regime hlatest hbefore hregime => ?_⟩
    · exact (ordered_closed h).mp (hstaler.ordered _ _
        (assess_eq_success hevent |>.mpr ⟨_, hregime, rfl⟩)
        (assess_eq_success hchecked |>.mpr ⟨_, hregime, rfl⟩))
    · exact (seenStale_iff (hdated hlatest hbefore hregime)).mp (hstaler.dated completed _ hlatest
        hbefore (assess_eq_success hevent |>.mpr ⟨_, hregime, rfl⟩))
  · intro hkeeps
    refine ⟨fun verdict newerVerdict hverdict hnewer => ?_,
      fun completed verdict hlatest hbefore hverdict => ?_⟩
    · obtain ⟨regime, hregime, rfl⟩ := (assess_eq_success hevent).mp hverdict
      obtain ⟨other, hother, rfl⟩ := (assess_eq_success hchecked).mp hnewer
      obtain rfl := Attempt.success.inj (hregime.symm.trans hother)
      cases regime with
      | unverified => simp [Regime.freshness, Ordered]
      | opened => exact ordered_opened h
      | closed completed => exact (ordered_closed h).mpr (hkeeps.close completed hregime)
    · obtain ⟨regime, hregime, rfl⟩ := (assess_eq_success hevent).mp hverdict
      exact (seenStale_iff (hdated hlatest hbefore hregime)).mpr
        (hkeeps.dated completed regime hlatest hbefore hregime)

end Markets

namespace MarketsScenario

open Markets

theorem weekdays_days : ([0, 1, 2, 3, 4] : List ℤ) ≠ [] ∧
    ∀ day ∈ ([0, 1, 2, 3, 4] : List ℤ), 0 ≤ day ∧ day ≤ 6 := by decide

/-- From half past nine to four. -/
def template : SessionTemplate where
  openTime := 34200000000
  closeTime := 57600000000
  weekdays := [0, 1, 2, 3, 4]
  breakTimes := none
  weekdays_valid := weekdays_days
  break_inside := fun _ h => nomatch h

theorem xnas_mic : isMic "XNAS" = true := by decide

def calendar : ExchangeCalendar where
  mic := "XNAS"
  timezone := .universal
  default := template
  holidays := []
  overrides := []
  mic_pattern := xnas_mic
  overrides_unique := List.nodup_nil

theorem first_year : (0 : ℤ) < 365 := by decide

def policy : ExchangeMarketFreshnessPolicy where
  calendar := calendar
  validFrom := 0
  validThrough := 365
  window := first_year

def evening : UTCDateTime := 13 * 86400000000 + 72000000000

/-- An event of the first day is as fresh as one of the session, for daily bars; and of two events
of the evening before and after the close the newer one is stale. -/
theorem closed_market_inverts :
    (latestCompletedSession calendar evening (dateOf evening) =
        .success (some (calendar.session 13 template)) ∧
      DatedBefore calendar 0 (calendar.session 13 template) ∧
      policy.assess .day (some 0) (some evening) = .success .marketClosed) ∧
    policy.assess .minute (some (13 * 86400000000 + 57600000000)) (some evening) =
      .success .marketClosed ∧
    policy.assess .minute (some (13 * 86400000000 + 57660000000)) (some evening) =
      .success .stale := by
  refine ⟨⟨by decide +kernel, ⟨by decide, by decide⟩, by decide +kernel⟩, by decide +kernel,
    by decide +kernel⟩

theorem neverStaler_iff_evening :
    ¬ NeverStaler policy .day 0 evening evening := by
  have hiff : NeverStaler policy .day 0 evening evening ↔
      KeepsOrder policy .day 0 evening evening := neverStaler_iff (by decide) (by decide)
  rw [hiff]
  intro hkeeps
  have hseen := hkeeps.dated (calendar.session 13 template) (.closed (calendar.session 13 template))
    (by decide +kernel) ⟨by decide, by decide⟩ (by decide +kernel)
  exact absurd hseen.1 (by decide)

end MarketsScenario

end StonksPaper
