import Mathlib.Tactic.Common
import Mathlib.Tactic.IntervalCases
import Mathlib.Tactic.Linarith

/-! The Gregorian calendar from 1970 on: the date of a day by going from one day to the
next, and the number of the day by counting years, leap days and months.
-/

namespace Calendar

/-- Every fourth year is a leap year, of the centuries only every fourth one. -/
def IsLeap (year : Nat) : Prop := year % 4 = 0 ∧ (year % 100 ≠ 0 ∨ year % 400 = 0)

instance (year : Nat) : Decidable (IsLeap year) :=
  inferInstanceAs (Decidable (_ ∧ _))

def daysInMonth (year month : Nat) : Nat :=
  if month = 2 then
    if IsLeap year then 29 else 28
  else if month = 4 ∨ month = 6 ∨ month = 9 ∨ month = 11 then 30 else 31

structure Date where
  year : Nat
  month : Nat
  day : Nat
  deriving DecidableEq, Repr

namespace Date

/-- The calendar has this date. -/
structure Valid (d : Date) : Prop where
  monthFrom : 1 ≤ d.month
  monthTo : d.month ≤ 12
  dayFrom : 1 ≤ d.day
  dayTo : d.day ≤ daysInMonth d.year d.month

/-- The day after. -/
def next (d : Date) : Date :=
  if d.day < daysInMonth d.year d.month then
    { d with day := d.day + 1 }
  else if d.month < 12 then
    { d with month := d.month + 1, day := 1 }
  else
    { year := d.year + 1, month := 1, day := 1 }

end Date

/-- The date of day `n` after the first of January 1970. -/
def dateOfDay : Nat → Date
  | 0 => { year := 1970, month := 1, day := 1 }
  | n + 1 => (dateOfDay n).next

/-- The leap days of the years before. -/
def leapDaysBefore (year : Nat) : Int :=
  ((year : Int) - 1) / 4 - ((year : Int) - 1) / 100 + ((year : Int) - 1) / 400

/-- The days of the months before, in a year without a leap day. -/
def daysBeforeMonth (month : Nat) : Nat :=
  [0, 31, 59, 90, 120, 151, 181, 212, 243, 273, 304, 334].getD (month - 1) 0

/-- The leap day, for the months after February. -/
def leapDay (year month : Nat) : Nat := if 2 < month ∧ IsLeap year then 1 else 0

theorem daysBeforeMonth_le (month : Nat) : daysBeforeMonth month ≤ 334 := by
  unfold daysBeforeMonth
  generalize month - 1 = index
  rcases lt_or_ge index 12 with inYear | outside
  · interval_cases index <;> decide
  · rw [List.getD_eq_getElem?_getD, List.getElem?_eq_none outside]
    exact Nat.zero_le _

theorem Date.Valid.day_le {d : Date} (valid : d.Valid) : d.day ≤ 31 := by
  have day := valid.dayTo
  unfold daysInMonth at day
  split_ifs at day <;> omega

/-- The number of the day, 0 for the first of January 1970. -/
def Date.dayNumber (d : Date) : Int :=
  365 * ((d.year : Int) - 1970) + (leapDaysBefore d.year - 477)
    + (daysBeforeMonth d.month + leapDay d.year d.month) + (d.day - 1)

theorem leapDaysBefore_succ (year : Nat)
    : leapDaysBefore (year + 1) = leapDaysBefore year + leapDay year 12 := by
  unfold leapDaysBefore leapDay IsLeap
  split_ifs with leap <;> push_cast <;> omega

theorem daysBeforeMonth_succ (year : Nat) {month : Nat} (first : 1 ≤ month) (last : month < 12)
    : daysBeforeMonth (month + 1) + leapDay year (month + 1)
      = daysBeforeMonth month + leapDay year month + daysInMonth year month := by
  unfold leapDay daysInMonth
  interval_cases month <;> by_cases leap : IsLeap year <;> simp [daysBeforeMonth, leap]

/-- The day after has the next number. -/
theorem Date.dayNumber_next {d : Date} (valid : d.Valid)
    : d.next.dayNumber = d.dayNumber + 1 := by
  unfold Date.next
  split_ifs with inMonth inYear
  · simp only [Date.dayNumber]
    omega
  · have month := daysBeforeMonth_succ d.year valid.monthFrom inYear
    have last : d.day = daysInMonth d.year d.month := le_antisymm valid.dayTo (not_lt.mp inMonth)
    simp only [Date.dayNumber]
    omega
  · have december : d.month = 12 := le_antisymm valid.monthTo (not_lt.mp inYear)
    have last : d.day = 31 := by
      have last : d.day = daysInMonth d.year d.month :=
        le_antisymm valid.dayTo (not_lt.mp inMonth)
      rw [last, december]
      rfl
    have leaps := leapDaysBefore_succ d.year
    have january : leapDay (d.year + 1) 1 = 0 := by simp [leapDay]
    simp only [Date.dayNumber, december, last, leaps, january, daysBeforeMonth]
    simp
    omega

theorem Date.Valid.next {d : Date} (valid : d.Valid) : d.next.Valid := by
  have someDay (year month : Nat) : 1 ≤ daysInMonth year month := by
    unfold daysInMonth
    split_ifs <;> omega
  unfold Date.next
  split_ifs with inMonth inYear
  · exact ⟨valid.monthFrom, valid.monthTo, Nat.le_add_left 1 _, inMonth⟩
  · exact ⟨Nat.le_add_left 1 _, inYear, le_rfl, someDay _ _⟩
  · exact ⟨le_rfl, Nat.le_add_left 1 11, le_rfl, someDay _ _⟩

theorem dateOfDay_valid (n : Nat) : (dateOfDay n).Valid := by
  induction n with
  | zero => exact ⟨by decide, by decide, by decide, by decide⟩
  | succ n ih => exact ih.next

@[simp]
theorem dayNumber_dateOfDay (n : Nat) : (dateOfDay n).dayNumber = n := by
  induction n with
  | zero => decide
  | succ n ih =>
      rw [dateOfDay, Date.dayNumber_next (dateOfDay_valid n), ih]
      rfl

theorem dateOfDay_injective : Function.Injective dateOfDay := by
  intro n m same
  have numbers := congrArg Date.dayNumber same
  simpa using numbers

/-- Dates from 1970 on have numbers from 0 on. -/
theorem Date.dayNumber_nonneg {d : Date} (valid : d.Valid) (since : 1970 ≤ d.year)
    : 0 ≤ d.dayNumber := by
  have day := valid.dayFrom
  unfold Date.dayNumber leapDaysBefore
  rcases eq_or_lt_of_le since with first | later <;> omega

/-- Every other date from 1970 on is the day after one. -/
theorem Date.exists_next_eq {d : Date} (valid : d.Valid) (since : 1970 ≤ d.year)
    (later : d ≠ dateOfDay 0)
    : ∃ p : Date, p.Valid ∧ 1970 ≤ p.year ∧ p.next = d := by
  obtain ⟨year, month, day⟩ := d
  obtain ⟨monthFrom, monthTo, dayFrom, dayTo⟩ := valid
  dsimp only at monthFrom monthTo dayFrom dayTo since
  by_cases firstDay : day = 1
  · by_cases january : month = 1
    · subst firstDay january
      have notFirst : year ≠ 1970 := by
        intro first
        subst first
        exact later rfl
      have year' : year - 1 + 1 = year := by omega
      refine ⟨⟨year - 1, 12, 31⟩, ⟨by simp, le_rfl, by simp, le_rfl⟩, ?_, ?_⟩
      · dsimp only
        omega
      · simp [Date.next, daysInMonth, year']
    · have month' : month - 1 + 1 = month := by omega
      refine ⟨⟨year, month - 1, daysInMonth year (month - 1)⟩,
        ⟨by dsimp; omega, by dsimp; omega, ?_, le_rfl⟩, since, ?_⟩
      · dsimp [daysInMonth]
        split_ifs <;> omega
      · simp only [Date.next, lt_irrefl, if_false, month', firstDay]
        rw [if_pos (by omega)]
  · have day' : day - 1 + 1 = day := by omega
    refine ⟨⟨year, month, day - 1⟩, ⟨monthFrom, monthTo, by dsimp; omega, by dsimp; omega⟩,
      since, ?_⟩
    simp only [Date.next, day']
    rw [if_pos (by omega)]

/-- The date of its own number, by induction on the number. -/
theorem dateOfDay_eq {n : Nat} {d : Date} (valid : d.Valid) (since : 1970 ≤ d.year)
    (number : d.dayNumber = n)
    : dateOfDay n = d := by
  induction n generalizing d with
  | zero =>
      by_contra later
      obtain ⟨p, pValid, pSince, rfl⟩ := Date.exists_next_eq valid since (Ne.symm later)
      have before := Date.dayNumber_nonneg pValid pSince
      rw [Date.dayNumber_next pValid] at number
      omega
  | succ n ih =>
      have later : d ≠ dateOfDay 0 := by
        intro first
        rw [first, dayNumber_dateOfDay] at number
        omega
      obtain ⟨p, pValid, pSince, rfl⟩ := Date.exists_next_eq valid since later
      rw [Date.dayNumber_next pValid] at number
      rw [dateOfDay, ih pValid pSince (by omega)]

/-- A year has 365 days at least. -/
theorem year_le (n : Nat) : 365 * ((dateOfDay n).year : Int) ≤ 365 * 1970 + n := by
  have number := dayNumber_dateOfDay n
  have day := (dateOfDay_valid n).dayFrom
  unfold Date.dayNumber leapDaysBefore at number
  by_contra late
  omega

theorem le_year (n : Nat) : 1970 ≤ (dateOfDay n).year := by
  induction n with
  | zero => decide
  | succ n ih =>
      rw [dateOfDay, Date.next]
      split_ifs
      · exact ih
      · exact ih
      · exact ih.trans (Nat.le_succ _)

/-- The order of dates: by the year, then the month, then the day. -/
def Date.Before (d d' : Date) : Prop :=
  d.year < d'.year
  ∨ d.year = d'.year ∧ (d.month < d'.month ∨ d.month = d'.month ∧ d.day < d'.day)

theorem Date.Before.trans {d d' d'' : Date} (first : d.Before d') (second : d'.Before d'')
    : d.Before d'' := by
  unfold Date.Before at *
  omega

theorem Date.before_next (d : Date) : d.Before d.next := by
  unfold Date.next
  split_ifs
  · exact .inr ⟨rfl, .inr ⟨rfl, Nat.lt_succ_self _⟩⟩
  · exact .inr ⟨rfl, .inl (Nat.lt_succ_self _)⟩
  · exact .inl (Nat.lt_succ_self _)

/-- Days follow each other as their dates do. -/
theorem dateOfDay_before {n m : Nat} (earlier : n < m) : (dateOfDay n).Before (dateOfDay m) := by
  induction earlier with
  | refl => exact Date.before_next _
  | step _ ih => exact ih.trans (Date.before_next _)

end Calendar
