import StonksPaper.Domain.Common

/-!
# The calendar of an exchange

`calendar.py`. A date is the number of days since the epoch, a time of day the number of
microseconds since midnight. The data of the time zones is a parameter.
-/

namespace StonksPaper

abbrev Date := ℤ

/-- `datetime.date()` of a time in UTC. -/
def dateOf (at_ : UTCDateTime) : Date := at_ / 86400000000

theorem dateOf_mono {earlier later : UTCDateTime} (h : earlier ≤ later) :
    dateOf earlier ≤ dateOf later := Int.ediv_le_ediv (by omega) h

/-- `date.weekday()`: the epoch was a Thursday. -/
def weekday (date : Date) : ℤ := (date + 3) % 7

/-- A `ZoneInfo`. -/
structure Zone where
  /-- `datetime.combine(date, time, zone).astimezone(UTC)`. -/
  utc : Date → ℤ → UTCDateTime
  /-- `value.astimezone(zone).date()`. -/
  localDate : UTCDateTime → Date

/-- `ZoneInfo("UTC")`. -/
def Zone.universal : Zone := ⟨fun date time => date * 86400000000 + time, dateOf⟩

structure SessionTemplate where
  openTime : ℤ
  closeTime : ℤ
  weekdays : List ℤ
  /-- The start and the end of the break. -/
  breakTimes : Option (ℤ × ℤ)
  weekdays_valid : weekdays ≠ [] ∧ ∀ day ∈ weekdays, 0 ≤ day ∧ day ≤ 6
  break_inside : ∀ times ∈ breakTimes,
    openTime < times.1 ∧ times.1 < times.2 ∧ times.2 < closeTime

structure SessionOverride where
  sessionDate : Date
  template : Option SessionTemplate

/-! ## Sessions -/

/-- `^[A-Z0-9]{4}$`. -/
def isMic (mic : String) : Bool :=
  mic.length == 4 && mic.toList.all fun c => ('A' ≤ c && c ≤ 'Z') || ('0' ≤ c && c ≤ '9')

/-- One trading session; a date is a day number. -/
structure MarketSession where
  mic : String
  sessionDate : ℤ
  opensAt : UTCDateTime
  closesAt : UTCDateTime
  breakStart : Option UTCDateTime
  breakEnd : Option UTCDateTime
deriving DecidableEq

def MarketSession.validate (self : MarketSession) : Call Unit := do
  raiseUnless (isMic self.mic = true) "String should match the MIC pattern"
  raiseUnless (self.opensAt < self.closesAt) "session close must be after open"

def MarketSession.IsOpenAt (self : MarketSession) (moment : UTCDateTime) : Prop :=
  (self.opensAt ≤ moment ∧ moment < self.closesAt) ∧
    ¬ ∃ start ∈ self.breakStart, ∃ stop ∈ self.breakEnd, start ≤ moment ∧ moment < stop

instance (self : MarketSession) (moment : UTCDateTime) : Decidable (self.IsOpenAt moment) :=
  inferInstanceAs (Decidable (_ ∧ _))

structure ExchangeCalendar where
  mic : String
  timezone : Zone
  default : SessionTemplate
  holidays : List Date
  overrides : List SessionOverride
  mic_pattern : isMic mic = true
  overrides_unique : (overrides.map (·.sessionDate)).Nodup

def ExchangeCalendar.templateFor (self : ExchangeCalendar) (sessionDate : Date) :
    Option SessionTemplate :=
  match self.overrides.find? (·.sessionDate = sessionDate) with
  | some item => item.template
  | none =>
      if sessionDate ∈ self.holidays ∨ weekday sessionDate ∉ self.default.weekdays then none
      else some self.default

/-- The session that a template makes on a date. -/
def ExchangeCalendar.session (self : ExchangeCalendar) (sessionDate : Date)
    (template : SessionTemplate) : MarketSession where
  mic := self.mic
  sessionDate := sessionDate
  opensAt := self.timezone.utc sessionDate template.openTime
  closesAt := self.timezone.utc
    (if template.closeTime ≤ template.openTime then sessionDate + 1 else sessionDate)
    template.closeTime
  breakStart := template.breakTimes.map fun times => self.timezone.utc sessionDate times.1
  breakEnd := template.breakTimes.map fun times => self.timezone.utc sessionDate times.2

def ExchangeCalendar.sessionFor (self : ExchangeCalendar) (sessionDate : Date) :
    Call (Option MarketSession) :=
  match self.templateFor sessionDate with
  | none => return none
  | some template => do
      let session ← modelValidate MarketSession.validate (self.session sessionDate template)
      return some session

end StonksPaper
