import Mathlib.Data.List.Basic

/-!
# The proleptic Gregorian calendar

Days are numbered from 1 January of year 1, a Monday. Every day number has exactly one valid
date.
-/

namespace QaPlatform.Calendar

/-! ## Years -/

/-- The Gregorian rule. -/
def isLeap (year : Int) : Bool := year % 4 = 0 ∧ (year % 100 ≠ 0 ∨ year % 400 = 0)

theorem isLeap_iff {year : Int} :
    isLeap year = true ↔ year % 4 = 0 ∧ (year % 100 ≠ 0 ∨ year % 400 = 0) := decide_eq_true_iff

/-- The days before 1 January. -/
def daysBeforeYear (year : Int) : Int :=
  (year - 1) * 365 + (year - 1) / 4 - (year - 1) / 100 + (year - 1) / 400

/-- 365 days, or 366. -/
def daysInYear (leap : Bool) : Nat := if leap then 366 else 365

theorem daysBeforeYear_succ (year : Int) :
    daysBeforeYear (year + 1) = daysBeforeYear year + daysInYear (isLeap year) := by
  unfold daysBeforeYear daysInYear isLeap
  simp only [decide_eq_true_eq]
  split
  · omega
  · omega

theorem daysBeforeYear_mono {y y' : Int} (h : y ≤ y') : daysBeforeYear y ≤ daysBeforeYear y' := by
  unfold daysBeforeYear
  omega

/-- The average year is 146097 / 400 days long. -/
def yearOf (n : Int) : Int :=
  let y := 400 * n / 146097
  if n < daysBeforeYear (y + 1) then y
  else if n < daysBeforeYear (y + 2) then y + 1
  else y + 2

theorem yearOf_spec (n : Int) :
    daysBeforeYear (yearOf n) ≤ n ∧ n < daysBeforeYear (yearOf n + 1) := by
  have hlow : daysBeforeYear (400 * n / 146097) ≤ n := by
    unfold daysBeforeYear
    omega
  have hhigh : n < daysBeforeYear (400 * n / 146097 + 3) := by
    unfold daysBeforeYear
    omega
  unfold yearOf
  by_cases h₁ : n < daysBeforeYear (400 * n / 146097 + 1)
  · rw [if_pos h₁]
    exact ⟨hlow, h₁⟩
  · rw [if_neg h₁]
    by_cases h₂ : n < daysBeforeYear (400 * n / 146097 + 2)
    · rw [if_pos h₂, Int.add_assoc]
      exact ⟨Int.not_lt.mp h₁, h₂⟩
    · rw [if_neg h₂, Int.add_assoc]
      exact ⟨Int.not_lt.mp h₂, hhigh⟩

theorem yearOf_eq {n year : Int} (hlow : daysBeforeYear year ≤ n)
    (hhigh : n < daysBeforeYear (year + 1)) : yearOf n = year := by
  obtain ⟨hlow', hhigh'⟩ := yearOf_spec n
  by_contra hne
  obtain hlt | hlt : yearOf n + 1 ≤ year ∨ year + 1 ≤ yearOf n := by omega
  · have hmono := daysBeforeYear_mono hlt
    omega
  · have hmono := daysBeforeYear_mono hlt
    omega

/-! ## Months -/

/-- The length of a month, counted from 1. -/
def daysInMonth (leap : Bool) (month : Nat) : Nat :=
  if month = 2 then if leap then 29 else 28 else if month ∈ [4, 6, 9, 11] then 30 else 31

/-- The days of a year before the first of a month. -/
def daysBeforeMonth (leap : Bool) (month : Nat) : Nat :=
  ((List.range' 1 (month - 1)).map (daysInMonth leap)).foldr (· + ·) 0

/-- The month and the day of the `n`th day of a year, of months of these lengths. -/
def monthDay : List Nat → Nat → Nat × Nat
  | [], n => (1, n + 1)
  | length :: lengths, n =>
    if n < length then (1, n + 1)
    else ((monthDay lengths (n - length)).1 + 1, (monthDay lengths (n - length)).2)

/-- The lengths of the twelve months. -/
def monthLengths (leap : Bool) : List Nat := (List.range' 1 12).map (daysInMonth leap)

/-- A month and one of its days. -/
def InMonth (leap : Bool) (month day : Nat) : Prop :=
  (1 ≤ month ∧ month ≤ 12) ∧ 1 ≤ day ∧ day ≤ daysInMonth leap month

instance (leap : Bool) (month day : Nat) : Decidable (InMonth leap month day) :=
  inferInstanceAs (Decidable (_ ∧ _))

theorem daysInMonth_le (leap : Bool) (month : Nat) : daysInMonth leap month ≤ 31 := by
  unfold daysInMonth
  split
  · cases leap <;> decide
  · split <;> decide

theorem monthDay_of_inMonth {leap : Bool} {month day : Nat} (h : InMonth leap month day) :
    daysBeforeMonth leap month + day ≤ daysInYear leap
      ∧ monthDay (monthLengths leap) (daysBeforeMonth leap month + day - 1) = (month, day) := by
  have hall : ∀ leap, ∀ month < 13, ∀ day < 32, InMonth leap month day →
      daysBeforeMonth leap month + day ≤ daysInYear leap
        ∧ monthDay (monthLengths leap) (daysBeforeMonth leap month + day - 1) = (month, day) := by
    decide +kernel
  have hday := daysInMonth_le leap month
  exact hall leap month (Nat.lt_succ_of_le h.1.2) day (by have := h.2.2; omega) h

theorem inMonth_monthDay {leap : Bool} {n : Nat} (h : n < daysInYear leap) :
    InMonth leap (monthDay (monthLengths leap) n).1 (monthDay (monthLengths leap) n).2
      ∧ daysBeforeMonth leap (monthDay (monthLengths leap) n).1
        + (monthDay (monthLengths leap) n).2 = n + 1 := by
  have hall : ∀ leap, ∀ n < 366, n < daysInYear leap →
      InMonth leap (monthDay (monthLengths leap) n).1 (monthDay (monthLengths leap) n).2
        ∧ daysBeforeMonth leap (monthDay (monthLengths leap) n).1
          + (monthDay (monthLengths leap) n).2 = n + 1 := by
    decide +kernel
  refine hall leap n (Nat.lt_of_lt_of_le h ?_) h
  cases leap <;> decide

/-! ## Dates -/

/-- A date, which need not be one of the calendar. -/
structure Date where
  year : Int
  month : Nat
  day : Nat
  deriving DecidableEq

/-- The date is in the calendar. -/
def Date.Valid (date : Date) : Prop := InMonth (isLeap date.year) date.month date.day

/-- The number of a day. -/
def ordinal (date : Date) : Int :=
  daysBeforeYear date.year + (daysBeforeMonth (isLeap date.year) date.month + date.day - 1 : Nat)

/-- The date of a day number. -/
def dateOf (n : Int) : Date :=
  let year := yearOf n
  let monthAndDay := monthDay (monthLengths (isLeap year)) (n - daysBeforeYear year).toNat
  ⟨year, monthAndDay.1, monthAndDay.2⟩

/-- The day of the week of a day number, Monday first. -/
def weekday (n : Int) : Nat := (n % 7).toNat

theorem year_le_ordinal (date : Date) : daysBeforeYear date.year ≤ ordinal date :=
  Int.le_add_of_nonneg_right (Int.natCast_nonneg _)

theorem ordinal_lt {date : Date} (h : date.Valid) :
    ordinal date < daysBeforeYear (date.year + 1) := by
  have hday := (monthDay_of_inMonth h).1
  have hfirst := h.2.1
  rw [daysBeforeYear_succ]
  unfold ordinal
  omega

theorem dateOf_ordinal {date : Date} (h : date.Valid) : dateOf (ordinal date) = date := by
  have hyear := yearOf_eq (year_le_ordinal date) (ordinal_lt h)
  have hoffset : (ordinal date - daysBeforeYear date.year).toNat
      = daysBeforeMonth (isLeap date.year) date.month + date.day - 1 := by
    unfold ordinal
    omega
  unfold dateOf
  simp only [hyear, hoffset, (monthDay_of_inMonth h).2]

theorem valid_dateOf (n : Int) : (dateOf n).Valid ∧ ordinal (dateOf n) = n := by
  obtain ⟨hlow, hhigh⟩ := yearOf_spec n
  rw [daysBeforeYear_succ] at hhigh
  obtain ⟨hvalid, hsum⟩ := @inMonth_monthDay (isLeap (yearOf n))
    (n - daysBeforeYear (yearOf n)).toNat (by omega)
  refine ⟨hvalid, ?_⟩
  unfold ordinal dateOf
  simp only [hsum]
  omega

/-! ## Leap days -/

/-- 29 February of a year. -/
def leapDay (year : Int) : Date := ⟨year, 2, 29⟩

theorem valid_leapDay {year : Int} : (leapDay year).Valid ↔ isLeap year = true := by
  have hall : ∀ leap, InMonth leap 2 29 ↔ leap = true := by decide
  exact hall (isLeap year)

theorem ordinal_leapDay (year : Int) : ordinal (leapDay year) = daysBeforeYear year + 59 := by
  unfold ordinal leapDay
  cases isLeap year <;> rfl

/-! ## Weekdays -/

/-- Every weekday falls on one of the first seven days of a month. -/
theorem exists_weekday (first : Int) {w : Nat} (hw : w < 7) :
    ∃ i : Nat, i < 7 ∧ weekday (first + i) = w := by
  unfold weekday
  refine ⟨((w - first) % 7).toNat, ?_, ?_⟩
  · omega
  · omega

end QaPlatform.Calendar
