import Mathlib.Data.Finset.Basic
import Mathlib.Order.Interval.Finset.Nat
import Mathlib.Tactic.Ring
import QaPlatform.Base.Guard
import QaPlatform.Core

/-!
# Cron expressions

`CronExpression` of `app/automation/cron.py`. Texts are lists of characters
while they are parsed. What a time zone does is a function from instants to the
fields of the local wall clock; which zones there are is a parameter, as it is
the time zone database that knows.
-/

namespace QaPlatform.Automation

/-- The message of an `AutomationValidationError`. -/
abbrev AutomationValidationError := String

/-! ## Integers -/

/-- The zeros of the decimal digits of Unicode 13. -/
def decimalZeros : List Nat :=
  [0x30, 0x660, 0x6f0, 0x7c0, 0x966, 0x9e6, 0xa66, 0xae6, 0xb66, 0xbe6, 0xc66, 0xce6, 0xd66, 0xde6,
    0xe50, 0xed0, 0xf20, 0x1040, 0x1090, 0x17e0, 0x1810, 0x1946, 0x19d0, 0x1a80, 0x1a90, 0x1b50,
    0x1bb0, 0x1c40, 0x1c50, 0xa620, 0xa8d0, 0xa900, 0xa9d0, 0xa9f0, 0xaa50, 0xabf0, 0xff10,
    0x104a0, 0x10d30, 0x11066, 0x110f0, 0x11136, 0x111d0, 0x112f0, 0x11450, 0x114d0, 0x11650,
    0x116c0, 0x11730, 0x118e0, 0x11950, 0x11c50, 0x11d50, 0x11da0, 0x16a60, 0x16b50, 0x1d7ce,
    0x1d7d8, 0x1d7e2, 0x1d7ec, 0x1d7f6, 0x1e140, 0x1e2f0, 0x1e950, 0x1fbf0]

/-- The value of a decimal digit, of whatever script. -/
def decimal (c : Char) : Option Nat :=
  (decimalZeros.find? fun z => z ≤ c.toNat ∧ c.toNat < z + 10).map (c.toNat - ·)

/-- Decimal digits; an underscore may stand between two of them. -/
def intDigits : List Char → Option (List Nat)
  | [] => none
  | [c] => (decimal c).map ([·])
  | c :: '_' :: text => do return (← decimal c) :: (← intDigits text)
  | c :: d :: text => do return (← decimal c) :: (← intDigits (d :: text))

/-- `int` of a text that has no blanks; longer than 4300 digits is a `ValueError` too. -/
def int (text : List Char) : Option Int :=
  let value (text : List Char) : Option Int := do
    let digits ← intDigits text
    if 4300 < digits.length then none
    else return (digits.foldl (fun n d => 10 * n + d) 0 : Nat)
  match text with
  | '+' :: text => value text
  | '-' :: text => (value text).map (- ·)
  | text => value text

/-! ## Fields -/

/-- `_CronField`: its values, and whether they are all that the field may have. -/
structure CronField where
  values : Finset Nat
  wildcard : Bool

/-- `range(start, end + 1, step)`. -/
def steppedRange (start stop step : Nat) : List Nat :=
  List.range' start ((stop - start) / step + 1) step

/-- One item of the comma separated list. -/
def CronField.parsePart (minimum maximum : Nat) (sundayAlias : Bool) (part : List Char) :
    Except AutomationValidationError (Finset Nat) := do
  refuse (part = []) "cron field contains an empty item"
  let base := part.takeWhile (· ≠ '/')
  let separator := '/' ∈ part
  let step ←
    if separator then demand "cron step is invalid" (int ((part.dropWhile (· ≠ '/')).drop 1))
    else .ok 1
  refuse (step < 1) "cron step must be positive"
  let (start, stop) ←
    if base = ['*'] then .ok ((minimum : Int), (maximum : Int))
    else if '-' ∈ base then do
      let start ← demand "cron range is invalid" (int (base.takeWhile (· ≠ '-')))
      let stop ← demand "cron range is invalid" (int ((base.dropWhile (· ≠ '-')).drop 1))
      .ok (start, stop)
    else do
      let start ← demand "cron value is invalid" (int base)
      .ok (start, if separator then (maximum : Int) else start)
  let aliasMaximum := if sundayAlias then 7 else maximum
  refuse (start < minimum ∨ aliasMaximum < stop ∨ stop < start)
    "cron value is outside its field range"
  return ((steppedRange start.toNat stop.toNat step.toNat).map
    fun item => if sundayAlias ∧ item = 7 then 0 else item).toFinset

/-- `_CronField.parse`: the parts between the commas, each added to the values. -/
def CronField.parse (expression : List Char) (minimum maximum : Nat) (sundayAlias : Bool) :
    Except AutomationValidationError CronField := do
  let parts ← (expression.splitOn ',').mapM (CronField.parsePart minimum maximum sundayAlias)
  let values := parts.foldl (· ∪ ·) ∅
  return ⟨values, values = Finset.Icc minimum maximum⟩

/-! ## Expressions -/

/-- The wall clock fields that cron looks at; Monday is weekday 0. -/
structure LocalTime where
  minute : Nat
  hour : Nat
  day : Nat
  month : Nat
  weekday : Nat

/-- A `ZoneInfo`. -/
abbrev Zone := Instant → LocalTime

/-- The time zone database: the zone of a name, if there is one. -/
abbrev Zones := String → Option Zone

/-- `CronExpression`, the five fields in the order of the text. -/
structure CronExpression where
  minute : CronField
  hour : CronField
  dayOfMonth : CronField
  month : CronField
  dayOfWeek : CronField

/-- `_MAXIMUM_DAY_BY_MONTH`: the longest that a month can be. -/
def maximumDayByMonth (month : Nat) : Nat :=
  if month = 2 then 29 else if month ∈ [4, 6, 9, 11] then 30 else 31

namespace CronExpression

/-- Some day of the month exists in some of the months. -/
def Feasible (c : CronExpression) : Prop :=
  c.dayOfMonth.wildcard = true ∨ c.dayOfWeek.wildcard = false
    ∨ ∃ month ∈ c.month.values, ∃ day ∈ c.dayOfMonth.values, day ≤ maximumDayByMonth month

instance (c : CronExpression) : Decidable c.Feasible := by
  unfold Feasible
  infer_instance

/-- `str.split`. -/
def fields (expression : String) : List (List Char) :=
  (expression.toList.splitOnP (isSpace ·)).filter (· ≠ [])

/-- `CronExpression.parse`: five fields, of which the days and months must have a date together. -/
def parse (expression : String) : Except AutomationValidationError CronExpression :=
  match fields expression with
  | [minute, hour, dayOfMonth, month, dayOfWeek] => do
    let parsed : CronExpression :=
      { minute := ← CronField.parse minute 0 59 false
        hour := ← CronField.parse hour 0 23 false
        dayOfMonth := ← CronField.parse dayOfMonth 1 31 false
        month := ← CronField.parse month 1 12 false
        dayOfWeek := ← CronField.parse dayOfWeek 0 6 true }
    refuse (¬ parsed.Feasible) "cron day-of-month never exists in the selected months"
    return parsed
  | _ => .error "cron expression must contain five fields"

/-- `_matches_in_zone`. -/
def matchesInZone (c : CronExpression) (zone : Zone) (instant : Instant) : Bool :=
  let time := zone instant
  let dayOfMonthMatch := time.day ∈ c.dayOfMonth.values
  let dayOfWeekMatch := (time.weekday + 1) % 7 ∈ c.dayOfWeek.values
  let dayMatch :=
    if c.dayOfMonth.wildcard then dayOfWeekMatch
    else if c.dayOfWeek.wildcard then dayOfMonthMatch
    else dayOfMonthMatch ∨ dayOfWeekMatch
  time.minute ∈ c.minute.values ∧ time.hour ∈ c.hour.values ∧ time.month ∈ c.month.values
    ∧ dayMatch

/-- A minute, in microseconds. -/
def minuteLength : Int := 60000000

/-- The instant with its seconds and microseconds cut off. -/
def floorMinute (instant : Instant) : Instant := instant - instant % minuteLength

/-- `max_search_minutes`, at its default of five years of 366 days. -/
def maxSearchMinutes : Nat := 5 * 366 * 24 * 60

/-- The first of `fuel` candidates, `step` apart, that matches. -/
def search (matching : Instant → Bool) (step : Int) : Nat → Instant → Option Instant
  | 0, _ => none
  | fuel + 1, candidate =>
    if matching candidate then some candidate else search matching step fuel (candidate + step)

/-- The error of a search that finds nothing in its window. -/
def noFireTime : AutomationValidationError := "cron expression has no fire time in search window"

/-- `_zone`: the time zone of a schedule, or the error for a name that is not known. -/
def zoneOf (zones : Zones) (name : String) : Except AutomationValidationError Zone :=
  demand "schedule timezone is unknown" (zones name)

/-- `next_after`: the first matching minute after the instant, within the search window. -/
def nextAfter (c : CronExpression) (zones : Zones) (instant : Instant) (timezoneName : String) :
    Except AutomationValidationError Instant := do
  let zone ← zoneOf zones timezoneName
  demand noFireTime (search (c.matchesInZone zone) minuteLength maxSearchMinutes
    (floorMinute instant + minuteLength))

/-- `previous_at_or_before`: the last matching minute up to the instant, within the window. -/
def previousAtOrBefore (c : CronExpression) (zones : Zones) (instant : Instant)
    (timezoneName : String) : Except AutomationValidationError Instant := do
  let zone ← zoneOf zones timezoneName
  demand noFireTime
    (search (c.matchesInZone zone) (-minuteLength) maxSearchMinutes (floorMinute instant))

/-! ## Searches -/

/-- What a search returns is one of its candidates, and matches. -/
theorem search_some {matching : Instant → Bool} {step : Int} {fuel : Nat}
    {candidate found : Instant} (h : search matching step fuel candidate = some found) :
    matching found = true ∧ ∃ i : Nat, found = candidate + i * step := by
  induction fuel generalizing candidate with
  | zero => simp [search] at h
  | succ fuel ih =>
    unfold search at h
    split at h
    · next hmatching =>
      obtain rfl := Option.some.inj h
      exact ⟨hmatching, 0, by simp⟩
    · obtain ⟨hmatching, i, hfound⟩ := ih h
      refine ⟨hmatching, i + 1, ?_⟩
      rw [hfound]
      push_cast
      ring

theorem floorMinute_le (instant : Int) : floorMinute instant ≤ instant := by
  have hseconds : 0 ≤ instant % 60000000 := Int.emod_nonneg instant (by decide)
  show instant - instant % 60000000 ≤ instant
  omega

theorem lt_floorMinute_add (instant : Int) :
    instant < floorMinute instant + minuteLength := by
  have hseconds : instant % 60000000 < 60000000 := Int.emod_lt_of_pos instant (by decide)
  show instant < instant - instant % 60000000 + 60000000
  omega

/-- The next fire time is later. -/
theorem lt_nextAfter {c : CronExpression} {zones : Zones} {instant next : Instant}
    {timezoneName : String} (h : c.nextAfter zones instant timezoneName = .ok next) :
    instant < next := by
  obtain ⟨zone, -, hsearch⟩ := bind_eq_ok.mp h
  obtain ⟨-, i, rfl⟩ := search_some (demand_eq_ok.mp hsearch)
  have hlater := lt_floorMinute_add instant
  have hsteps : (0 : Int) ≤ i * minuteLength := by
    show (0 : Int) ≤ i * 60000000
    omega
  exact lt_of_lt_of_le hlater (le_add_of_nonneg_right hsteps)

theorem previousAtOrBefore_le {c : CronExpression} {zones : Zones} {instant previous : Instant}
    {timezoneName : String} (h : c.previousAtOrBefore zones instant timezoneName = .ok previous) :
    previous ≤ instant := by
  obtain ⟨zone, -, hsearch⟩ := bind_eq_ok.mp h
  obtain ⟨-, i, rfl⟩ := search_some (demand_eq_ok.mp hsearch)
  have hfloor := floorMinute_le instant
  have hsteps : (i : Int) * -minuteLength ≤ 0 := by
    show (i : Int) * -60000000 ≤ 0
    omega
  exact le_trans (add_le_of_nonpos_right hsteps) hfloor

end CronExpression

end QaPlatform.Automation
