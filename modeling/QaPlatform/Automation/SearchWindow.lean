import Mathlib.Data.Int.LeastGreatest
import QaPlatform.Automation.CronGrammar
import QaPlatform.Automation.Occurrences
import QaPlatform.Base.Calendar

/-!
# The search window

How far the next run of an accepted expression may lie ahead in UTC. Two leap days are mostly
four years apart, which the window covers, but eight years around a century that is no leap year.

An expression that has been accepted selects a day of every year, unless 29 February is the only
day that it selects (`LeapDayOnly`). A day of next year is within the window of 1829 days and so
is a leap day four years ahead; one that is eight years ahead is not. `exists_nextRun_iff` says
for which instants that is so.
-/

namespace QaPlatform.Automation

open Calendar

/-! ## UTC -/

/-- The number of 1 January 1970. -/
def epochDay : Int := 719162

example : ordinal ⟨1970, 1, 1⟩ = epochDay := by decide

/-- `ZoneInfo("UTC")`. -/
def utc : Zone := fun instant =>
  let minutes := instant / CronExpression.minuteLength
  let day := minutes / 1440 + epochDay
  { minute := (minutes % 60).toNat
    hour := (minutes / 60 % 24).toNat
    day := (dateOf day).day
    month := (dateOf day).month
    weekday := weekday day }

/-- A minute of a day. -/
def minuteOf (day : Int) (hour minute : Nat) : Int :=
  ((day - epochDay) * 1440 + hour * 60 + minute) * CronExpression.minuteLength

theorem utc_minuteOf (day : Int) {hour minute : Nat} (hhour : hour < 24) (hminute : minute < 60) :
    utc (minuteOf day hour minute)
      = ⟨minute, hour, (dateOf day).day, (dateOf day).month, weekday day⟩ := by
  have hminutes : minuteOf day hour minute / 60000000
      = (day - epochDay) * 1440 + hour * 60 + minute := Int.mul_ediv_cancel _ (by decide)
  have hday : ((day - epochDay) * 1440 + hour * 60 + minute) / 1440 + epochDay = day := by
    omega
  unfold utc CronExpression.minuteLength
  simp only [hminutes, hday]
  congr 1
  · omega
  · omega

/-- Every whole minute is one of a day. -/
theorem exists_minuteOf {instant : Int} (h : instant % CronExpression.minuteLength = 0) :
    ∃ day hour minute, hour < 24 ∧ minute < 60 ∧ instant = minuteOf day hour minute := by
  obtain ⟨k, rfl⟩ := CronExpression.exists_minute h
  refine ⟨k / 1440 + epochDay, (k / 60 % 24).toNat, (k % 60).toNat, by omega, by omega, ?_⟩
  have hk : k = (k / 1440 + epochDay - epochDay) * 1440 + (k / 60 % 24).toNat * 60
      + (k % 60).toNat := by omega
  exact congrArg (· * CronExpression.minuteLength) hk

/-! ## Accepted expressions -/

/-- The values of a field that has been parsed: at least one, and all within the bounds. -/
structure CronField.Within (minimum maximum : Nat) (field : CronField) : Prop where
  nonempty : field.values.Nonempty
  range : ∀ v ∈ field.values, minimum ≤ v ∧ v ≤ maximum

namespace CronExpression

/-- Every field has values, each within the bounds of its unit. -/
structure WellFormed (c : CronExpression) : Prop where
  minute : c.minute.Within 0 59
  hour : c.hour.Within 0 23
  month : c.month.Within 1 12
  dayOfMonth : c.dayOfMonth.Within 1 31
  dayOfWeek : c.dayOfWeek.Within 0 6
  feasible : c.Feasible

end CronExpression

section
variable {minimum maximum : Nat} {sundayAlias : Bool}

theorem denoted_within {start stop step : Int} (hmin : (minimum : Int) ≤ start)
    (horder : start ≤ stop)
    (hmax : stop ≤ lastValue maximum sundayAlias)
    (halias : sundayAlias = true → minimum = 0 ∧ maximum = 6) :
    (denoted sundayAlias start stop step).Nonempty
      ∧ ∀ v ∈ denoted sundayAlias start stop step, minimum ≤ v ∧ v ≤ maximum := by
  unfold denoted
  constructor
  · refine Finset.Nonempty.image ⟨start.toNat, ?_⟩ _
    rw [Finset.mem_filter, Finset.mem_Icc, Int.toNat_of_nonneg (by omega), Int.sub_self]
    exact ⟨⟨le_rfl, by omega⟩, Int.dvd_zero step⟩
  · intro v hv
    obtain ⟨v', hv', rfl⟩ := Finset.mem_image.mp hv
    have hbounds := Finset.mem_Icc.mp (Finset.mem_filter.mp hv').1
    unfold lastValue at hmax
    cases sundayAlias with
    | false =>
      simp only [Bool.false_eq_true, if_false, false_and] at hmax ⊢
      omega
    | true =>
      obtain ⟨rfl, rfl⟩ := halias rfl
      simp only [if_true, true_and] at hmax ⊢
      split
      · omega
      · omega

theorem FieldOf.within {numeral : List Char → Int → Prop} {text : List Char} {field : CronField}
    (h : FieldOf numeral minimum maximum sundayAlias text field)
    (halias : sundayAlias = true → minimum = 0 ∧ maximum = 6) : field.Within minimum maximum := by
  have hitem : ∀ {part values}, Item numeral minimum maximum sundayAlias part values →
      values.Nonempty ∧ ∀ v ∈ values, minimum ≤ v ∧ v ≤ maximum := by
    intro part values hitem
    cases hitem with
    | plain _ hmin horder hmax => exact denoted_within hmin horder hmax halias
    | stepped _ hmin horder hmax _ _ => exact denoted_within hmin horder hmax halias
  have hitems : ∀ {text values}, Items numeral minimum maximum sundayAlias text values →
      values.Nonempty ∧ ∀ v ∈ values, minimum ≤ v ∧ v ≤ maximum := by
    intro text values hitems
    induction hitems with
    | one h => exact hitem h
    | more h _ ih =>
      refine ⟨(hitem h).1.mono Finset.subset_union_left, fun v hv => ?_⟩
      exact (Finset.mem_union.mp hv).elim ((hitem h).2 v) (ih.2 v)
  exact ⟨(hitems h.values).1, (hitems h.values).2⟩

end

namespace CronExpression

theorem wellFormed_of_parse {expression : String} {c : CronExpression}
    (h : parse expression = .ok c) : c.WellFormed := by
  obtain ⟨_, _, _, _, _, -, hminute, hhour, hdayOfMonth, hmonth, hdayOfWeek, hfeasible⟩ :=
    parse_eq_ok.mp h
  exact {
    minute := hminute.within (nomatch ·)
    hour := hhour.within (nomatch ·)
    month := hmonth.within (nomatch ·)
    dayOfMonth := hdayOfMonth.within (nomatch ·)
    dayOfWeek := hdayOfWeek.within fun _ => ⟨rfl, rfl⟩
    feasible := hfeasible }

/-! ## Selected days -/

/-- The expression selects a day. -/
def SelectsDay (c : CronExpression) (day : Int) : Prop :=
  (dateOf day).month ∈ c.month.values ∧
    if c.dayOfMonth.wildcard then (weekday day + 1) % 7 ∈ c.dayOfWeek.values
    else if c.dayOfWeek.wildcard then (dateOf day).day ∈ c.dayOfMonth.values
    else (dateOf day).day ∈ c.dayOfMonth.values ∨ (weekday day + 1) % 7 ∈ c.dayOfWeek.values

/-- The only days there are among the selected ones are 29 February. -/
def LeapDayOnly (c : CronExpression) : Prop :=
  c.dayOfMonth.wildcard = false ∧ c.dayOfWeek.wildcard = true
    ∧ ∀ month ∈ c.month.values, ∀ day ∈ c.dayOfMonth.values, day ≤ maximumDayByMonth month →
      month = 2 ∧ day = 29

instance (c : CronExpression) : Decidable c.LeapDayOnly := inferInstanceAs (Decidable (_ ∧ _))

section
variable {c : CronExpression} {zones : Zones} {instant : Int}

theorem matches_minuteOf {day : Int} {hour minute : Nat} (hhour : hour < 24)
    (hminute : minute < 60) :
    c.matchesInZone utc (minuteOf day hour minute) = true ↔
      minute ∈ c.minute.values ∧ hour ∈ c.hour.values ∧ c.SelectsDay day := by
  unfold matchesInZone SelectsDay
  rw [utc_minuteOf day hhour hminute]
  simp only [decide_eq_true_eq]

theorem exists_nextAfter_utc (hc : c.WellFormed) (hzone : zones "UTC" = some utc) :
    (∃ next, c.nextAfter zones instant "UTC" = .ok next) ↔
      ∃ day, c.SelectsDay day ∧ ∃ hour ∈ c.hour.values, ∃ minute ∈ c.minute.values,
        instant < minuteOf day hour minute
          ∧ minuteOf day hour minute ≤ floorMinute instant + maxSearchMinutes * minuteLength := by
  rw [exists_nextAfter_iff hzone]
  constructor
  · rintro ⟨p, ⟨hwhole, hmatching⟩, hwindow⟩
    obtain ⟨day, hour, minute, hhour, hminute, rfl⟩ := exists_minuteOf hwhole
    obtain ⟨hm, hh, hday⟩ := (matches_minuteOf hhour hminute).mp hmatching
    exact ⟨day, hday, hour, hh, minute, hm, hwindow⟩
  · rintro ⟨day, hday, hour, hh, minute, hm, hwindow⟩
    have hhour := (hc.hour.range hour hh).2
    have hminute := (hc.minute.range minute hm).2
    refine ⟨_, ⟨Int.mul_emod_left _ _, ?_⟩, hwindow⟩
    exact (matches_minuteOf (by omega) (by omega)).mpr ⟨hm, hh, hday⟩

theorem selectsDay_ordinal {date : Date} (h : date.Valid) : c.SelectsDay (ordinal date) ↔
    date.month ∈ c.month.values ∧
      if c.dayOfMonth.wildcard then (weekday (ordinal date) + 1) % 7 ∈ c.dayOfWeek.values
      else if c.dayOfWeek.wildcard then date.day ∈ c.dayOfMonth.values
      else date.day ∈ c.dayOfMonth.values
        ∨ (weekday (ordinal date) + 1) % 7 ∈ c.dayOfWeek.values := by
  unfold SelectsDay
  rw [dateOf_ordinal h]

/-- A weekday falls on one of the first seven days of a selected month. -/
theorem exists_selectedWeekday (hc : c.WellFormed) (year : Int) :
    ∃ date : Date, date.Valid ∧ date.year = year ∧ date.month ∈ c.month.values
      ∧ (weekday (ordinal date) + 1) % 7 ∈ c.dayOfWeek.values := by
  obtain ⟨month, hmonth⟩ := hc.month.nonempty
  obtain ⟨w, hw⟩ := hc.dayOfWeek.nonempty
  have hw7 := (hc.dayOfWeek.range w hw).2
  obtain ⟨i, hi, hweekday⟩ := exists_weekday (ordinal ⟨year, month, 1⟩)
    (w := (w + 6) % 7) (Nat.mod_lt _ (by decide))
  have hordinal : ordinal ⟨year, month, i + 1⟩ = ordinal ⟨year, month, 1⟩ + i := by
    unfold ordinal
    simp only
    omega
  have hshort : ∀ leap, ∀ month, 7 ≤ daysInMonth leap month := by
    intro leap month
    unfold daysInMonth
    split
    · cases leap <;> decide
    · split <;> decide
  refine ⟨⟨year, month, i + 1⟩, ?_, rfl, hmonth, ?_⟩
  · exact ⟨hc.month.range month hmonth, by show 1 ≤ i + 1; omega,
      Nat.le_trans hi (hshort (isLeap year) month)⟩
  · rw [hordinal, hweekday]
    have hsame : ((w + 6) % 7 + 1) % 7 = w := by omega
    rw [hsame]
    exact hw

/-- A day of a month that is not 29 February is there in every year. -/
theorem inMonth_of_ne_leapDay (leap : Bool) {month day : Nat} (hmonth : 1 ≤ month ∧ month ≤ 12)
    (hday : 1 ≤ day) (hmax : day ≤ maximumDayByMonth month) (hne : ¬ (month = 2 ∧ day = 29)) :
    InMonth leap month day := by
  refine ⟨hmonth, hday, ?_⟩
  unfold maximumDayByMonth at hmax
  unfold daysInMonth
  by_cases h₂ : month = 2
  · rw [if_pos h₂] at hmax ⊢
    have hday' : day ≠ 29 := fun h => hne ⟨h₂, h⟩
    cases leap
    · show day ≤ 28
      omega
    · exact hmax
  · rwa [if_neg h₂] at hmax ⊢

/-- Any other expression selects a day of every year. -/
theorem exists_selectedDay (hc : c.WellFormed) (hother : ¬ c.LeapDayOnly) (year : Int) :
    ∃ date : Date, date.Valid ∧ date.year = year ∧ c.SelectsDay (ordinal date) := by
  by_cases hweekday : c.dayOfMonth.wildcard = false ∧ c.dayOfWeek.wildcard = true
  · obtain ⟨hdom, hdow⟩ := hweekday
    obtain ⟨month, hmonth, day, hday, hmax, hne⟩ : ∃ month ∈ c.month.values,
        ∃ day ∈ c.dayOfMonth.values, day ≤ maximumDayByMonth month ∧ ¬ (month = 2 ∧ day = 29) := by
      by_contra hnone
      refine hother ⟨hdom, hdow, fun month hmonth day hday hmax => ?_⟩
      by_contra hne
      exact hnone ⟨month, hmonth, day, hday, hmax, hne⟩
    have hvalid : (⟨year, month, day⟩ : Date).Valid :=
      inMonth_of_ne_leapDay _ (hc.month.range month hmonth)
        (hc.dayOfMonth.range day hday).1 hmax hne
    refine ⟨⟨year, month, day⟩, hvalid, rfl, (selectsDay_ordinal hvalid).mpr ⟨hmonth, ?_⟩⟩
    rw [hdom, hdow]
    exact hday
  · obtain ⟨date, hvalid, hyear, hmonth, hselected⟩ := exists_selectedWeekday hc year
    refine ⟨date, hvalid, hyear, (selectsDay_ordinal hvalid).mpr ⟨hmonth, ?_⟩⟩
    cases hdom : c.dayOfMonth.wildcard with
    | true => simpa using hselected
    | false =>
      have hdow : c.dayOfWeek.wildcard = false := by
        by_contra hdow
        exact hweekday ⟨hdom, Bool.of_not_eq_false hdow⟩
      rw [hdow]
      simpa using Or.inr hselected

/-- The days of a leap day expression are the leap days. -/
theorem selectsDay_of_leapDayOnly (hc : c.WellFormed) (hleap : c.LeapDayOnly) {day : Int} :
    c.SelectsDay day ↔ ∃ year, isLeap year = true ∧ day = ordinal (leapDay year) := by
  obtain ⟨hdom, hdow, honly⟩ := hleap
  constructor
  · rintro ⟨hmonth, hday⟩
    rw [hdom, hdow] at hday
    obtain ⟨hvalid, hordinal⟩ := valid_dateOf day
    have hmax : (dateOf day).day ≤ maximumDayByMonth (dateOf day).month := by
      have hlength := hvalid.2.2
      unfold daysInMonth at hlength
      unfold maximumDayByMonth
      split at hlength
      · next h₂ =>
        rw [if_pos h₂]
        cases hyear : isLeap (dateOf day).year <;> rw [hyear] at hlength
          <;> simp at hlength <;> omega
      · next h₂ => rwa [if_neg h₂]
    obtain ⟨h₂, h₂₉⟩ := honly _ hmonth _ hday hmax
    have hdate : dateOf day = leapDay (dateOf day).year := by
      unfold leapDay
      rw [← h₂, ← h₂₉]
    refine ⟨(dateOf day).year, ?_, ?_⟩
    · rw [← valid_leapDay, ← hdate]
      exact hvalid
    · rw [← hdate, hordinal]
  · rintro ⟨year, hyear, rfl⟩
    rw [selectsDay_ordinal (valid_leapDay.mpr hyear), hdom, hdow]
    obtain hfeasible | hfeasible | ⟨month, hmonth, day, hday, hmax⟩ := hc.feasible
    · rw [hdom] at hfeasible
      cases hfeasible
    · rw [hdow] at hfeasible
      cases hfeasible
    · obtain ⟨rfl, rfl⟩ := honly month hmonth day hday hmax
      exact ⟨hmonth, hday⟩

end

/-! ## The window -/

/-- The instant lies before a leap day that comes eight years after the one before: every run of
that one is over, and every run of the next is beyond the window. -/
def SkipsLeapDay (c : CronExpression) (instant : Instant) : Prop :=
  ∃ century : Int, century % 100 = 0 ∧ century % 400 ≠ 0
    ∧ ∀ hour ∈ c.hour.values, ∀ minute ∈ c.minute.values,
      minuteOf (ordinal (leapDay (century - 4))) hour minute ≤ instant
        ∧ floorMinute instant + maxSearchMinutes * minuteLength
          < minuteOf (ordinal (leapDay (century + 4))) hour minute

/-- The number of the day of an instant. -/
def dayOf (instant : Int) : Int := instant / 86400000000 + epochDay

theorem dayOf_le {instant : Int} : (dayOf instant - epochDay) * 86400000000 ≤ instant
    ∧ instant < (dayOf instant - epochDay + 1) * 86400000000 := by
  unfold dayOf
  omega

theorem minuteOf_mem {day : Int} {hour minute : Nat} (hhour : hour ≤ 23) (hminute : minute ≤ 59) :
    (day - epochDay) * 86400000000 ≤ minuteOf day hour minute
      ∧ minuteOf day hour minute ≤ (day - epochDay + 1) * 86400000000 - 60000000 := by
  show (day - epochDay) * 86400000000 ≤ ((day - epochDay) * 1440 + hour * 60 + minute) * 60000000
    ∧ ((day - epochDay) * 1440 + hour * 60 + minute) * 60000000
      ≤ (day - epochDay + 1) * 86400000000 - 60000000
  omega

theorem minuteOf_mono {day day' : Int} (h : day ≤ day') (hour minute : Nat) :
    minuteOf day hour minute ≤ minuteOf day' hour minute := by
  show ((day - epochDay) * 1440 + hour * 60 + minute) * 60000000
    ≤ ((day' - epochDay) * 1440 + hour * 60 + minute) * 60000000
  omega

theorem minuteOf_add (day n : Int) (hour minute : Nat) :
    minuteOf (day + n) hour minute = minuteOf day hour minute + n * 86400000000 := by
  show ((day + n - epochDay) * 1440 + hour * 60 + minute) * 60000000
    = ((day - epochDay) * 1440 + hour * 60 + minute) * 60000000 + n * 86400000000
  omega

/-- A minute that is less than 1829 days later is in the window. -/
theorem le_window {instant p : Int} (h : p ≤ instant + 1829 * 86400000000) :
    p ≤ floorMinute instant + maxSearchMinutes * minuteLength := by
  show p ≤ instant - instant % 60000000 + 2635200 * 60000000
  omega

section
variable {c : CronExpression} {instant : Int}

/-- A day of next year is in the window. -/
theorem exists_of_not_leapDayOnly (hc : c.WellFormed) (hother : ¬ c.LeapDayOnly) :
    ∃ day, c.SelectsDay day ∧ ∃ hour ∈ c.hour.values, ∃ minute ∈ c.minute.values,
      instant < minuteOf day hour minute
        ∧ minuteOf day hour minute ≤ floorMinute instant + maxSearchMinutes * minuteLength := by
  obtain ⟨hour, hhour⟩ := hc.hour.nonempty
  obtain ⟨minute, hminute⟩ := hc.minute.nonempty
  obtain ⟨date, hvalid, hyear, hselected⟩ :=
    exists_selectedDay hc hother (yearOf (dayOf instant) + 1)
  obtain ⟨hlow, hhigh⟩ := yearOf_spec (dayOf instant)
  have hfirst := year_le_ordinal date
  have hlast := ordinal_lt hvalid
  have hlength := daysBeforeYear_succ (yearOf (dayOf instant))
  have hlength' := daysBeforeYear_succ (yearOf (dayOf instant) + 1)
  have hdays : ∀ leap, daysInYear leap ≤ 366 := by decide
  have hdays₁ := hdays (isLeap (yearOf (dayOf instant)))
  have hdays₂ := hdays (isLeap (yearOf (dayOf instant) + 1))
  rw [hyear] at hfirst hlast
  obtain ⟨hday, hday'⟩ := @dayOf_le instant
  obtain ⟨hafter, hbefore⟩ := @minuteOf_mem (ordinal date) hour minute (hc.hour.range hour hhour).2
    (hc.minute.range minute hminute).2
  refine ⟨ordinal date, hselected, hour, hhour, minute, hminute, ?_, le_window ?_⟩
  · omega
  · omega

/-- The first leap day that has a run after the instant. -/
theorem exists_nextLeapDay (hc : c.WellFormed) (instant : Int) :
    ∃ year, isLeap year = true
      ∧ (∃ hour ∈ c.hour.values, ∃ minute ∈ c.minute.values,
        instant < minuteOf (ordinal (leapDay year)) hour minute)
      ∧ ∀ earlier, isLeap earlier = true → earlier < year → ∀ hour ∈ c.hour.values,
        ∀ minute ∈ c.minute.values, minuteOf (ordinal (leapDay earlier)) hour minute ≤ instant := by
  obtain ⟨hlow, hhigh⟩ := yearOf_spec (dayOf instant)
  obtain ⟨hday, hday'⟩ := @dayOf_le instant
  -- the leap days of earlier years are over, and some year with number divisible by 400 is later
  have hbounded : ∃ b : Int, ∀ year, (isLeap year = true ∧ ∃ hour ∈ c.hour.values,
      ∃ minute ∈ c.minute.values, instant < minuteOf (ordinal (leapDay year)) hour minute) →
      b ≤ year := by
    refine ⟨yearOf (dayOf instant), fun year ⟨hleap, hour, hhour, minute, hminute, hlater⟩ => ?_⟩
    by_contra hlt
    have hlast := ordinal_lt (valid_leapDay.mpr hleap)
    have hmono := daysBeforeYear_mono (Int.not_le.mp hlt)
    have hbefore := (@minuteOf_mem (ordinal (leapDay year)) hour minute
      (hc.hour.range hour hhour).2 (hc.minute.range minute hminute).2).2
    have hyear : (leapDay year).year = year := rfl
    rw [hyear] at hlast
    omega
  have hinhabited : ∃ year, isLeap year = true ∧ ∃ hour ∈ c.hour.values,
      ∃ minute ∈ c.minute.values, instant < minuteOf (ordinal (leapDay year)) hour minute := by
    obtain ⟨hour, hhour⟩ := hc.hour.nonempty
    obtain ⟨minute, hminute⟩ := hc.minute.nonempty
    refine ⟨400 * (yearOf (dayOf instant) / 400 + 1), isLeap_iff.mpr (by omega), hour,
      hhour, minute,
      hminute, ?_⟩
    have hfirst := year_le_ordinal (leapDay (400 * (yearOf (dayOf instant) / 400 + 1)))
    have hmono : daysBeforeYear (yearOf (dayOf instant) + 1)
        ≤ daysBeforeYear (400 * (yearOf (dayOf instant) / 400 + 1)) :=
      daysBeforeYear_mono (by omega)
    have hafter := (@minuteOf_mem (ordinal (leapDay (400 * (yearOf (dayOf instant) / 400 + 1))))
      hour minute (hc.hour.range hour hhour).2 (hc.minute.range minute hminute).2).1
    have hyear : ∀ year, (leapDay year).year = year := fun _ => rfl
    rw [hyear] at hfirst
    omega
  obtain ⟨year, ⟨hleap, hrun⟩, hleast⟩ := @Int.exists_least_of_bdd
    (fun year => isLeap year = true ∧ ∃ hour ∈ c.hour.values, ∃ minute ∈ c.minute.values,
      instant < minuteOf (ordinal (leapDay year)) hour minute) hbounded hinhabited
  refine ⟨year, hleap, hrun, fun earlier hearlier hlt hour hhour minute hminute => ?_⟩
  by_contra hlater
  have hle := hleast earlier ⟨hearlier, hour, hhour, minute, hminute, Int.not_le.mp hlater⟩
  omega

/-- The days between two leap days. -/
theorem ordinal_leapDay_add_four (year : Int) (h : year % 4 = 0) :
    ordinal (leapDay (year + 4))
      = ordinal (leapDay year) + if isLeap year = true then 1461 else 1460 := by
  rw [ordinal_leapDay, ordinal_leapDay]
  simp only [isLeap_iff]
  unfold daysBeforeYear
  split
  · omega
  · omega

theorem ordinal_leapDay_mono {year year' : Int} (h : year ≤ year') :
    ordinal (leapDay year) ≤ ordinal (leapDay year') := by
  have hmono := daysBeforeYear_mono h
  rw [ordinal_leapDay, ordinal_leapDay]
  omega

theorem exists_of_leapDayOnly (hc : c.WellFormed) (hleap : c.LeapDayOnly) :
    (∃ day, c.SelectsDay day ∧ ∃ hour ∈ c.hour.values, ∃ minute ∈ c.minute.values,
      instant < minuteOf day hour minute
        ∧ minuteOf day hour minute ≤ floorMinute instant + maxSearchMinutes * minuteLength) ↔
      ¬ c.SkipsLeapDay instant := by
  simp only [selectsDay_of_leapDayOnly hc hleap]
  constructor
  · rintro ⟨_, ⟨year, hyear, rfl⟩, hour, hhour, minute, hminute, hlater, hwindow⟩
      ⟨century, h₁₀₀, h₄₀₀, hskip⟩
    obtain ⟨hover, hbeyond⟩ := hskip hour hhour minute hminute
    rw [isLeap_iff] at hyear
    obtain hle | hle : year ≤ century - 4 ∨ century + 4 ≤ year := by omega
    · have hmono := minuteOf_mono (ordinal_leapDay_mono hle) hour minute
      exact absurd (le_trans hmono hover) (not_le.mpr hlater)
    · have hmono := minuteOf_mono (ordinal_leapDay_mono hle) hour minute
      exact absurd (le_trans hmono hwindow) (not_le.mpr hbeyond)
  · intro hskip
    obtain ⟨year, hyear, ⟨hour, hhour, minute, hminute, hlater⟩, hover⟩ :=
      exists_nextLeapDay hc instant
    by_cases hprevious : isLeap (year - 4) = true
    · have hpast := hover (year - 4) hprevious (by omega) hour hhour minute hminute
      have hfour : (year - 4) % 4 = 0 := (isLeap_iff.mp hprevious).1
      have hgap := ordinal_leapDay_add_four (year - 4) hfour
      rw [if_pos hprevious, Int.sub_add_cancel] at hgap
      rw [hgap] at hlater
      refine ⟨_, ⟨year, hyear, rfl⟩, hour, hhour, minute, hminute, ?_, le_window ?_⟩
      · rwa [hgap]
      · rw [hgap, minuteOf_add]
        omega
    · rw [isLeap_iff] at hyear hprevious
      -- the window has a run of this leap day, of those after the instant or of an earlier hour
      obtain ⟨hour', hhour', minute', hminute', hwindow⟩ : ∃ hour' ∈ c.hour.values,
          ∃ minute' ∈ c.minute.values, minuteOf (ordinal (leapDay year)) hour' minute'
            ≤ floorMinute instant + maxSearchMinutes * minuteLength := by
        by_contra hnone
        refine hskip ⟨year - 4, by omega, by omega, fun hour' hhour' minute' hminute' => ⟨?_, ?_⟩⟩
        · exact hover _ (isLeap_iff.mpr (by omega)) (by omega) hour' hhour' minute' hminute'
        · rw [Int.sub_add_cancel]
          by_contra hle
          exact hnone ⟨hour', hhour', minute', hminute', not_lt.mp hle⟩
      by_cases hlater' : instant < minuteOf (ordinal (leapDay year)) hour' minute'
      · exact ⟨_, ⟨year, isLeap_iff.mpr hyear, rfl⟩, hour', hhour', minute', hminute', hlater',
          hwindow⟩
      · refine ⟨_, ⟨year, isLeap_iff.mpr hyear, rfl⟩, hour, hhour, minute, hminute, hlater,
          le_window ?_⟩
        have hday :=
          (@minuteOf_mem (ordinal (leapDay year)) hour minute (hc.hour.range hour hhour).2
          (hc.minute.range minute hminute).2).2
        have hday' := (@minuteOf_mem (ordinal (leapDay year)) hour' minute'
          (hc.hour.range hour' hhour').2 (hc.minute.range minute' hminute').2).1
        omega

/-- In UTC a next run is found unless the expression has leap days only and the instant lies before
a century's long gap. -/
theorem exists_nextAfter_iff_of_wellFormed {zones : Zones} (hc : c.WellFormed)
    (hzone : zones "UTC" = some utc) :
    (∃ next, c.nextAfter zones instant "UTC" = .ok next) ↔
      ¬ (c.LeapDayOnly ∧ c.SkipsLeapDay instant) := by
  rw [exists_nextAfter_utc hc hzone]
  by_cases hleap : c.LeapDayOnly
  · rw [exists_of_leapDayOnly hc hleap, and_iff_right hleap]
  · exact iff_of_true (exists_of_not_leapDayOnly hc hleap) fun h => hleap h.1

/-- Which accepted expressions have a next run. -/
theorem exists_nextRun_iff {expression : String} {zones : Zones}
    (hparse : parse expression = .ok c) (hzone : zones "UTC" = some utc) (instant : Instant) :
    (∃ next, c.nextAfter zones instant "UTC" = .ok next) ↔
      ¬ (c.LeapDayOnly ∧ c.SkipsLeapDay instant) :=
  exists_nextAfter_iff_of_wellFormed (wellFormed_of_parse hparse) hzone

end

/-- On 1 March 2096 the next 29 February is eight years away. -/
theorem no_nextRun : (parse "0 0 29 2 *").isOk = true
    ∧ (parse "0 0 29 2 *" >>= fun c => c.nextAfter (fun _ => some utc) 3981398400000000 "UTC")
      = .error noFireTime := by
  have hfields : ((parse "0 0 29 2 *").map fun c =>
      decide (c.hour.values = {0} ∧ c.minute.values = {0} ∧ c.LeapDayOnly)) = .ok true := by
    decide +kernel
  cases hparse : parse "0 0 29 2 *" with
  | error e =>
    rw [hparse] at hfields
    cases hfields
  | ok c =>
    rw [hparse] at hfields
    obtain ⟨hhour, hminute, hleap⟩ := of_decide_eq_true (Except.ok.inj hfields)
    refine ⟨rfl, ?_⟩
    have hskips : c.SkipsLeapDay 3981398400000000 := by
      refine ⟨2100, by decide, by decide, ?_⟩
      rw [hhour, hminute]
      decide +kernel
    have hnone : ¬ ∃ next, c.nextAfter (fun _ => some utc) 3981398400000000 "UTC" = .ok next :=
      fun h => (exists_nextAfter_iff_of_wellFormed (wellFormed_of_parse hparse) rfl).mp h
        ⟨hleap, hskips⟩
    rw [ok_bind]
    exact nextAfter_eq_error rfl hnone

/-- From August 2026 the next 29 February is less than two years away. -/
theorem exists_nextRun_iff_leapDay : ∃ c, parse "0 0 29 2 *" = .ok c
    ∧ ∃ next, c.nextAfter (fun _ => some utc) 1787788800000000 "UTC" = .ok next := by
  have hfields : ((parse "0 0 29 2 *").map fun c =>
      decide (c.hour.values = {0} ∧ c.minute.values = {0})) = .ok true := by
    decide +kernel
  cases hparse : parse "0 0 29 2 *" with
  | error e =>
    rw [hparse] at hfields
    cases hfields
  | ok c =>
    rw [hparse] at hfields
    obtain ⟨hhour, hminute⟩ := of_decide_eq_true (Except.ok.inj hfields)
    refine ⟨c, rfl, (exists_nextRun_iff hparse rfl _).mpr ?_⟩
    rintro ⟨-, century, h₁₀₀, h₄₀₀, hskip⟩
    obtain ⟨hover, hbeyond⟩ := hskip 0 (by rw [hhour]; decide) 0 (by rw [hminute]; decide)
    rw [ordinal_leapDay] at hover hbeyond
    have hover' : ((daysBeforeYear (century - 4) + 59 - 719162) * 1440 + (0 : Nat) * 60 + (0 : Nat))
        * 60000000 ≤ (1787788800000000 : Int) := hover
    have hbeyond' : (1787788800000000 : Int) - 1787788800000000 % 60000000 + 2635200 * 60000000
        < ((daysBeforeYear (century + 4) + 59 - 719162) * 1440 + (0 : Nat) * 60 + (0 : Nat))
          * 60000000 := hbeyond
    unfold daysBeforeYear at hover' hbeyond'
    omega

end CronExpression

end QaPlatform.Automation
