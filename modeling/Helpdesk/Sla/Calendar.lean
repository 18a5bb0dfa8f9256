/-
  File:      Helpdesk/Sla/Calendar.lean
  Subject:   Business-time arithmetic (apps/api/app/sla/calendar.py).

  `addBusinessSeconds` and `businessSecondsBetween` walk the local dates of the
  calendar's zone; `intervals` gives the open intervals of one date and
  `localBoundary` resolves a local time to an instant. A raised error is an
  `.error` with the source's message.
-/
import Mathlib.Data.List.Sort
import Helpdesk.Lib.Fallible
import Helpdesk.Sla.Models

namespace Helpdesk.Sla

open Helpdesk.Python

/-- What a calendar or the SLA service raises. -/
inductive Failure where
  /-- `CalendarConfigurationError` -/
  | calendar (message : String)
  /-- `SlaConfigurationError` -/
  | configuration (message : String)
  /-- `ValueError` -/
  | value (message : String)
  /-- `RuntimeError` of a stale row version -/
  | runtime (message : String)
  /-- a violated constraint of the database -/
  | constraint (name : String)
  /-- the `TypeError` of a rule -/
  | type
  deriving DecidableEq, Repr

abbrev Interval := Instant × Instant

/-! ## 1. Local boundaries -/

/-- The instants that show `naive` on the local clock, one for each `fold`. -/
def boundaryCandidates (zone : ZoneInfo) (naive : LocalDatetime) : List Instant :=
  [false, true].filterMap fun fold =>
    let utcValue := zone.toUtc fold naive
    if zone.astimezone utcValue = naive then some utcValue else none

/-- The minute-by-minute probe for the first valid local time after a gap. -/
def probeBoundary (zone : ZoneInfo) : Nat → LocalDatetime → Except Failure Instant
  | 0, _ => .error (.calendar "Calendar contains an unresolvable local time.")
  | steps + 1, naive =>
      let probe := naive + 60 * second
      let utcValue := zone.toUtc false probe
      if zone.astimezone utcValue = probe then .ok utcValue else probeBoundary zone steps probe

/-- `_local_boundary`: an ambiguous time is its later instant at the end of an
    interval and its earlier one otherwise. -/
def localBoundary (zone : ZoneInfo) (naive : LocalDatetime) (isEnd : Bool) :
    Except Failure Instant :=
  match boundaryCandidates zone naive with
  | [] => probeBoundary zone 180 naive
  | first :: rest => .ok (rest.foldl (if isEnd then max else min) first)

/-! ## 2. The intervals of a date -/

/-- `_merge_intervals` on the sorted intervals; `merged` holds the result so far,
    its last interval first. -/
def mergeSorted : List Interval → List Interval → List Interval
  | merged, [] => merged.reverse
  | [], interval :: rest => mergeSorted [interval] rest
  | (first, last) :: merged, (start, finish) :: rest =>
      if last < start then mergeSorted ((start, finish) :: (first, last) :: merged) rest
      else mergeSorted ((first, max last finish) :: merged) rest

/-- The order of pairs. -/
def Interval.le (a b : Interval) : Prop := a.1 < b.1 ∨ a.1 = b.1 ∧ a.2 ≤ b.2

instance : DecidableRel Interval.le := fun _ _ => inferInstanceAs (Decidable (_ ∨ _))

/-- `_merge_intervals`: empty intervals drop out, touching and overlapping ones
    become one. -/
def mergeIntervals (intervals : List Interval) : List Interval :=
  mergeSorted [] ((intervals.filter fun i => i.1 < i.2).insertionSort Interval.le)

structure BusinessCalendar where
  version : BusinessCalendarVersion
  timezone : ZoneInfo
  /-- the validated periods of a weekday, by their start -/
  periods : Int → List WorkingPeriod
  exceptions : Date → List CalendarException

namespace BusinessCalendar

/-- Midnight, the `time.min` of the source. -/
def midnight : TimeOfDay := ⟨0, by decide⟩

/-- The first instant of a local date. -/
def dayStart (calendar : BusinessCalendar) (date : Date) : Except Failure Instant :=
  localBoundary calendar.timezone (combine date midnight) false

/-- One period of a date, mapped to instants. -/
def resolvePeriod (calendar : BusinessCalendar) (date : Date) (period : WorkingPeriod) :
    Except Failure Interval := do
  let start ← localBoundary calendar.timezone (combine date period.startLocalTime) false
  let finish ← localBoundary calendar.timezone (combine date period.endLocalTime) true
  return (start, finish)

/-- The periods of a date: custom hours replace the weekday's. -/
def periodsOf (calendar : BusinessCalendar) (date : Date) : List WorkingPeriod :=
  let custom := (calendar.exceptions date).filterMap fun item =>
    if item.exceptionType = .customHours then
      some ⟨isoweekday date, item.startLocalTime.getD midnight, item.endLocalTime.getD midnight⟩
    else none
  if custom.isEmpty then calendar.periods (isoweekday date) else custom

/-- `_intervals`. -/
def intervals (calendar : BusinessCalendar) (date : Date) : Except Failure (List Interval) :=
  if calendar.version.twentyFourSeven then do
    let start ← calendar.dayStart date
    let finish ← localBoundary calendar.timezone (combine (date + 1) midnight) true
    return [(start, finish)]
  else if (calendar.exceptions date).any fun item => item.exceptionType = .closed then
    return []
  else do
    let resolved ← (calendar.periodsOf date).mapM (calendar.resolvePeriod date)
    return mergeIntervals resolved

/-! ## 3. The two walks -/

/-- One date of `add_business_seconds`: the instant reached inside its intervals,
    or the seconds still to go after them. -/
def consume (current : Instant) : Int → List Interval → Instant ⊕ Int
  | remaining, [] => .inr remaining
  | remaining, (start, finish) :: rest =>
      let cursor := max current start
      if finish ≤ cursor then consume current remaining rest
      else
        let available := wholeSeconds (finish - cursor)
        if remaining ≤ available then .inl (cursor + remaining * second)
        else consume current (remaining - available) rest

/-- The loop of `add_business_seconds` over the dates that are left to search. -/
def addFrom (calendar : BusinessCalendar) :
    Nat → Date → Instant → Int → Except Failure Instant
  | 0, _, _, _ => .error (.calendar "Business-time calculation exceeds ten years.")
  | days + 1, date, current, remaining => do
      match consume current remaining (← calendar.intervals date) with
      | .inl reached => return reached
      | .inr remaining => addFrom calendar days (date + 1) (← calendar.dayStart (date + 1)) remaining

def maxSearchDays : Nat := 3660

/-- `add_business_seconds`. -/
def addBusinessSeconds (calendar : BusinessCalendar) (start : Instant) (seconds : Int) :
    Except Failure Instant :=
  if seconds < 0 then .error (.value "Business seconds cannot be negative.")
  else if seconds = 0 then .ok start
  else addFrom calendar maxSearchDays (calendar.timezone.localDate start) start seconds

/-- The whole seconds of the intervals that lie in `[lower, upper)`. -/
def overlapSeconds (lower upper : Instant) (intervals : List Interval) : Int :=
  (intervals.map fun i =>
    if max lower i.1 < min upper i.2 then wholeSeconds (min upper i.2 - max lower i.1) else 0).sum

/-- The loop of `business_seconds_between` over `days` dates. -/
def betweenFrom (calendar : BusinessCalendar) (lower upper : Instant) :
    Nat → Date → Except Failure Int
  | 0, _ => .ok 0
  | days + 1, date => do
      let here := overlapSeconds lower upper (← calendar.intervals date)
      return here + (← betweenFrom calendar lower upper days (date + 1))

/-- `business_seconds_between`. -/
def businessSecondsBetween (calendar : BusinessCalendar) (lower upper : Instant) :
    Except Failure Int :=
  if upper ≤ lower then .ok 0
  else
    let first := calendar.timezone.localDate lower
    let last := calendar.timezone.localDate upper
    betweenFrom calendar lower upper (last + 1 - first).toNat first

/-! ## 4. The constructor -/

/-- The checks of one period in `_validated_periods`. -/
def validatePeriod (period : WorkingPeriod) : Except Failure Unit := do
  if ¬ (1 ≤ period.isoDayOfWeek ∧ period.isoDayOfWeek ≤ 7) then
    throw (.calendar "Working-period day is invalid.")
  if period.endLocalTime ≤ period.startLocalTime then
    throw (.calendar "Working-period bounds are invalid.")

/-- The periods of one weekday, by their start. -/
def periodsOn (periods : List WorkingPeriod) (weekday : Int) : List WorkingPeriod :=
  (periods.filter fun p => p.isoDayOfWeek = weekday).insertionSort
    fun a b => a.startLocalTime ≤ b.startLocalTime

/-- Some period ends after the next one starts. -/
def overlapping : List WorkingPeriod → Bool
  | previous :: current :: rest =>
      decide (current.startLocalTime < previous.endLocalTime) || overlapping (current :: rest)
  | _ => false

/-- `_validated_periods`. -/
def validatedPeriods (periods : List WorkingPeriod) : Except Failure (Int → List WorkingPeriod) := do
  periods.forM validatePeriod
  if [1, 2, 3, 4, 5, 6, 7].any fun weekday => overlapping (periodsOn periods weekday) then
    throw (.calendar "Working periods overlap.")
  return periodsOn periods

/-- The checks of one exception in `_validated_exceptions`. -/
def validateException (item : CalendarException) : Except Failure Unit :=
  match item.exceptionType, item.startLocalTime, item.endLocalTime with
  | .customHours, some start, some finish =>
      if finish ≤ start then .error (.calendar "Custom calendar hours are invalid.") else .ok ()
  | .customHours, _, _ => .error (.calendar "Custom calendar hours are invalid.")
  | .closed, none, none => .ok ()
  | .closed, _, _ => .error (.calendar "Closed calendar exceptions cannot have hours.")

/-- `_validated_exceptions`. -/
def validatedExceptions (items : List CalendarException) :
    Except Failure (Date → List CalendarException) := do
  items.forM validateException
  return fun date => items.filter fun item => item.exceptionDate = date

/-- `BusinessCalendar(version)`, over the zones the time zone database knows. -/
def construct (zones : String → Option ZoneInfo) (version : BusinessCalendarVersion) :
    Except Failure BusinessCalendar := do
  let timezone ← match zones version.timezoneName with
    | some zone => pure zone
    | none => throw (.calendar "Business calendar timezone is unknown.")
  let periods ← validatedPeriods version.workingPeriods
  let exceptions ← validatedExceptions version.exceptions
  return { version, timezone, periods, exceptions }

end BusinessCalendar

end Helpdesk.Sla
