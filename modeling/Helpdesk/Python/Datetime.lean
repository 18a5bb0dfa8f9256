/-
  File:      Helpdesk/Python/Datetime.lean
  Subject:   Instants, local times and time zones (Python's `datetime` and `zoneinfo`).

  An aware datetime is its instant: microseconds since 1970-01-01T00:00Z. A naive
  datetime is the same count read off a local clock, a date is a count of days,
  a time of day a count of microseconds below one day. The years 1 to 9999, to
  which Python restricts a datetime, are not enforced.

  * `ZoneInfo.utcoffset`: the offset in force at an instant (`fromutc`);
  * `ZoneInfo.wallOffset`: the offset `zoneinfo` picks for a naive local time and
    a `fold`, by the transition times shifted to the local clock.

  A zone is the finite list of its offset changes: the rule that a zone file ends
  with only adds changes up to the year 9999.
-/
import Mathlib.Data.Fin.Basic
import Mathlib.Tactic.Common

namespace Helpdesk.Python

/-- Microseconds since the epoch. -/
abbrev Instant := Int

/-- Microseconds of a local clock since 1970-01-01T00:00. -/
abbrev LocalDatetime := Int

/-- Days since 1970-01-01. -/
abbrev Date := Int

/-- Microseconds since midnight. -/
abbrev TimeOfDay := Fin 86400000000

/-- Microseconds in a second. -/
def second : Int := 1000000

/-- Microseconds in a day. -/
def day : Int := 86400000000

/-- `int(delta.total_seconds())` of a positive delta. -/
def wholeSeconds (delta : Int) : Int := delta / second

theorem wholeSeconds_nonneg {delta : Int} (h : 0 ≤ delta) : 0 ≤ wholeSeconds delta := by
  unfold wholeSeconds second
  omega

theorem wholeSeconds_nonpos {delta : Int} (h : delta ≤ 0) : wholeSeconds delta ≤ 0 := by
  unfold wholeSeconds second
  omega

/-- `datetime.combine(date, time)`. -/
def combine (date : Date) (time : TimeOfDay) : LocalDatetime := date * day + time.val

/-- `date()` of a local datetime. -/
def dateOf (naive : LocalDatetime) : Date := naive / day

/-- `isoweekday()`: Monday is 1; the epoch was a Thursday. -/
def isoweekday (date : Date) : Int := (date + 3) % 7 + 1

/-! ## Zones -/

structure Transition where
  /-- the UTC second of the change -/
  utc : Int
  /-- the offset from then on, in seconds -/
  offset : Int
  deriving DecidableEq, Repr

structure ZoneInfo where
  /-- the offset before the first change -/
  before : Int
  transitions : List Transition
  deriving DecidableEq, Repr

namespace ZoneInfo

/-- The offset (in seconds) in force at an instant: the one of the last change at
    or before it. -/
def utcoffset (zone : ZoneInfo) (at_ : Instant) : Int :=
  zone.transitions.foldl (fun offset t => if t.utc * second ≤ at_ then t.offset else offset)
    zone.before

/-- `value.astimezone(zone)`, as the local clock shows it. -/
def astimezone (zone : ZoneInfo) (at_ : Instant) : LocalDatetime :=
  at_ + zone.utcoffset at_ * second

/-- The local time from which a change counts: `zoneinfo` keeps one list of them
    for `fold=0` (the change seen from the larger offset) and one for `fold=1`
    (from the smaller). -/
def wallTime (fold : Bool) (offset : Int) (t : Transition) : LocalDatetime :=
  (t.utc + if fold then min offset t.offset else max offset t.offset) * second

/-- The offset of a naive local time: that of the last change whose local time is
    at or before it. -/
def wallOffset (zone : ZoneInfo) (fold : Bool) (naive : LocalDatetime) : Int :=
  (zone.transitions.foldl
    (fun state t => (t.offset, if wallTime fold state.1 t ≤ naive then t.offset else state.2))
    (zone.before, zone.before)).2

/-- `naive.replace(tzinfo=zone, fold=fold).astimezone(UTC)`. -/
def toUtc (zone : ZoneInfo) (fold : Bool) (naive : LocalDatetime) : Instant :=
  naive - zone.wallOffset fold naive * second

/-- The local date at an instant. -/
def localDate (zone : ZoneInfo) (at_ : Instant) : Date := dateOf (zone.astimezone at_)

/-- The zone `UTC` has no changes. -/
def utc : ZoneInfo := ⟨0, []⟩

end ZoneInfo

/-! ## Text -/

/-- Year, month and day of a date (the proleptic Gregorian calendar, by 400-year
    eras that begin on March 1st). -/
def civil (date : Date) : Int × Int × Int :=
  let shifted := date + 719468
  let era := shifted / 146097
  let dayOfEra := shifted % 146097
  let yearOfEra := (dayOfEra - dayOfEra / 1460 + dayOfEra / 36524 - dayOfEra / 146096) / 365
  let dayOfYear := dayOfEra - (365 * yearOfEra + yearOfEra / 4 - yearOfEra / 100)
  let marchMonth := (5 * dayOfYear + 2) / 153
  let month := if marchMonth < 10 then marchMonth + 3 else marchMonth - 9
  let year := yearOfEra + era * 400 + if month ≤ 2 then 1 else 0
  (year, month, dayOfYear - (153 * marchMonth + 2) / 5 + 1)

/-- A number padded with zeros on the left. -/
def padded (width : Nat) (n : Int) : String :=
  let digits := toString n.natAbs
  String.ofList (List.replicate (width - digits.length) '0') ++ digits

/-- `value.isoformat()` of an aware UTC datetime. -/
def isoformat (at_ : Instant) : String :=
  let (year, month, dayOfMonth) := civil (dateOf at_)
  let micros := at_ % day
  let seconds := micros / second
  let fraction := micros % second
  padded 4 year ++ "-" ++ padded 2 month ++ "-" ++ padded 2 dayOfMonth ++ "T" ++
    padded 2 (seconds / 3600) ++ ":" ++ padded 2 (seconds / 60 % 60) ++ ":" ++
    padded 2 (seconds % 60) ++ (if fraction = 0 then "" else "." ++ padded 6 fraction) ++ "+00:00"

end Helpdesk.Python
