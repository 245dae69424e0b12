import Sparcs.Ftp.Gmtime
import Sparcs.Library.Calendar
import Sparcs.Library.IntExpr

/-! `gmtime`, and `_mkgmtime` as its inverse: the `int` arithmetic counts the days of the
calendar as long as the seconds fit an `int`, and no part of it overflows.
-/

namespace Sparcs.Ftp

open Calendar SignedArithmetic

/-- `gmtime`, for the times from 1970 on. -/
def gmtime (rawtime : Nat) : Tm :=
  let date := dateOfDay (rawtime / 86400)
  { sec := Int32.ofNat (rawtime % 60)
    min := Int32.ofNat (rawtime % 3600 / 60)
    hour := Int32.ofNat (rawtime % 86400 / 3600)
    mday := Int32.ofNat date.day
    mon := Int32.ofNat (date.month - 1)
    year := Int32.ofInt (date.year - 1900) }

/-- The calendar time that the fields stand for, the month in range. -/
structure Tm.Writes (tm : Tm) (date : Date) (hour min sec : Nat) : Prop where
  year : tm.year.toInt = date.year - 1900
  mon : tm.mon.toInt = date.month - 1
  mday : tm.mday.toInt = date.day
  hour : tm.hour.toInt = hour
  min : tm.min.toInt = min
  sec : tm.sec.toInt = sec

/-- The fields of a calendar time whose month is written `q` years late, and whose year is
written as many years early.
-/
structure Tm.WritesLate (tm : Tm) (date : Date) (hour min sec : Nat) (q : Int) : Prop where
  year : tm.year.toInt = date.year - 1900 - q
  mon : tm.mon.toInt = date.month - 1 + 12 * q
  mday : tm.mday.toInt = date.day
  hour : tm.hour.toInt = hour
  min : tm.min.toInt = min
  sec : tm.sec.toInt = sec

theorem Tm.Writes.writesLate {tm : Tm} {date : Date} {hour min sec : Nat}
    (written : tm.Writes date hour min sec)
    : tm.WritesLate date hour min sec 0 where
  year := by rw [written.year, sub_zero]
  mon := by rw [written.mon, mul_zero, add_zero]
  mday := written.mday
  hour := written.hour
  min := written.min
  sec := written.sec

/-- The `int` expression of `mkgmtimeInt`. -/
def secondsExpr (tm : Tm) (month year : IntExpr) : IntExpr :=
  let yearForLeap := if month.eval > 1 then year + 1 else year
  let sec : IntExpr := tm.sec
  let min : IntExpr := tm.min
  let hour : IntExpr := tm.hour
  let mday : IntExpr := tm.mday
  sec
    + 60 * (min
      + 60 * (hour
        + 24 * (.entry monthDay month + mday - 1
          + 365 * (year - 70)
          + (yearForLeap - 69) / 4
          - (yearForLeap - 1) / 100
          + (yearForLeap + 299) / 400)))

/-- Every `int` expression that `_mkgmtime` evaluates is part of this one. -/
def mkgmtimeExpr (tm : Tm) : IntExpr :=
  let mon : IntExpr := tm.mon
  let month := mon % 12
  let year := tm.year + mon / 12
  if month.eval < 0 then secondsExpr tm (month + 12) (year - 1) else secondsExpr tm month year

theorem eval_secondsExpr (tm : Tm) (month year : IntExpr)
    : (secondsExpr tm month year).eval = mkgmtimeInt tm month.eval year.eval := by
  unfold secondsExpr mkgmtimeInt
  split_ifs <;> rfl

/-- The seconds are those of the expression. -/
theorem mkgmtime_eq_eval (tm : Tm)
    : mkgmtime tm
      = if (mkgmtimeExpr tm).eval.toInt64 < 0 then -1 else (mkgmtimeExpr tm).eval.toInt64 := by
  have same : (mkgmtimeExpr tm).eval
      = if tm.mon % 12 < 0 then mkgmtimeInt tm (tm.mon % 12 + 12) (tm.year + tm.mon / 12 - 1)
        else mkgmtimeInt tm (tm.mon % 12) (tm.year + tm.mon / 12) := by
    rw [mkgmtimeExpr, apply_ite IntExpr.eval, eval_secondsExpr, eval_secondsExpr]
    rfl
  rw [same]
  rfl

theorem monthDay_getD {date : Date} (valid : date.Valid)
    : (monthDay.getD ((date.month : Int) - 1).toNat 0).toInt = daysBeforeMonth date.month := by
  have from1 := valid.monthFrom
  have to12 := valid.monthTo
  generalize date.month = m at from1 to12
  interval_cases m <;> rfl

/-- The leap days of the calendar, as the code counts them from its three quotients. -/
theorem leapDays_eq {date : Date} {y : Int}
    (yearForLeap
      : y = if 2 < date.month then (date.year : Int) - 1900 + 1 else date.year - 1900)
    : (y - 69) / 4 - (y - 1) / 100 + (y + 299) / 400
      = leapDaysBefore date.year - 477 + leapDay date.year date.month := by
  subst yearForLeap
  unfold leapDaysBefore leapDay IsLeap
  split_ifs <;> push_cast <;> omega

/-- The seconds of a later year do not fit an `int`. -/
theorem year_lt_of_dayNumber {date : Date} (valid : date.Valid)
    (small : date.dayNumber < 24856)
    : date.year < 2040 := by
  have day := valid.dayFrom
  unfold Date.dayNumber leapDaysBefore at small
  omega

section Seconds

variable {date : Date} {month year : IntExpr}

/-- A year without its first one or two months counts towards the leap day. -/
theorem yearForLeap_hasValue (mon : month.HasValue (date.month - 1))
    (yr : year.HasValue (date.year - 1900)) (small : date.year < 2040)
    : (if month.eval > 1 then year + 1 else year).HasValue
        (if 2 < date.month then (date.year : Int) - 1900 + 1 else date.year - 1900) := by
  have after : month.eval > 1 ↔ 2 < date.month := by
    rw [gt_iff_lt, Int32.lt_iff_toInt_lt, mon.toInt_eval]
    change 1 < _ ↔ _
    omega
  simp only [after]
  split_ifs
  · exact yr.add (.of_toInt rfl) (by omega) (by omega)
  · exact yr

/-- The seconds of `_mkgmtime` are those since 1970, and no part of them overflows. -/
theorem secondsExpr_hasValue {tm : Tm} {hour min sec : Nat} (valid : date.Valid)
    (since : 1970 ≤ date.year) (mon : month.HasValue (date.month - 1))
    (yr : year.HasValue (date.year - 1900))
    (mday : tm.mday.toInt = date.day) (hr : tm.hour.toInt = hour) (mn : tm.min.toInt = min)
    (sc : tm.sec.toInt = sec)
    (small : 86400 * date.dayNumber + 3600 * hour + 60 * min + sec < 2147483648)
    : (secondsExpr tm month year).HasValue
        (86400 * date.dayNumber + 3600 * hour + 60 * min + sec) := by
  have number := Date.dayNumber_nonneg valid since
  have late := year_lt_of_dayNumber valid (by omega)
  have leap := yearForLeap_hasValue mon yr late
  obtain ⟨yearForLeap, leapYear⟩ : ∃ y : Int, y
      = if 2 < date.month then (date.year : Int) - 1900 + 1 else date.year - 1900 := ⟨_, rfl⟩
  have leaps := leapDays_eq leapYear
  have bounds : 70 ≤ yearForLeap ∧ yearForLeap < 141 := by
    rw [leapYear]
    split_ifs <;> omega
  rw [← leapYear] at leap
  have monthFrom := valid.monthFrom
  have monthTo := valid.monthTo
  have months : IntExpr.HasValue (.entry monthDay month) (daysBeforeMonth date.month) := by
    rw [← monthDay_getD valid]
    exact mon.entry (by omega) (by change _ < 12; omega)
  have few := daysBeforeMonth_le date.month
  have day := valid.day_le
  have days : date.dayNumber
      = daysBeforeMonth date.month + date.day - 1 + 365 * (date.year - 1900 - 70)
        + (yearForLeap - 69) / 4 - (yearForLeap - 1) / 100 + (yearForLeap + 299) / 400 := by
    rw [Date.dayNumber]
    omega
  have literal (n : Nat) (small : n < 1000) : (OfNat.ofNat n : IntExpr).HasValue n :=
    .of_toInt (Int32.toInt_ofNat_of_lt (by omega))
  -- The sum, term by term.
  have quarter := (leap.sub (literal 69 (by decide)) (by omega) (by omega)).div
    (literal 4 (by decide)) (by omega) (by decide) (by omega)
  have century := (leap.sub (literal 1 (by decide)) (by omega) (by omega)).div
    (literal 100 (by decide)) (by omega) (by decide) (by omega)
  have era := (leap.add (literal 299 (by decide)) (by omega) (by omega)).div
    (literal 400 (by decide)) (by omega) (by decide) (by omega)
  have inYear := months.add (.of_toInt mday) (by omega) (by omega)
  have sinceNewYear := inYear.sub (literal 1 (by decide)) (by omega) (by omega)
  have years := yr.sub (literal 70 (by decide)) (by omega) (by omega)
  have yearDays := (literal 365 (by decide)).mul years (by omega) (by omega)
  have common := sinceNewYear.add yearDays (by omega) (by omega)
  have withFours := common.add quarter (by omega) (by omega)
  have withoutCenturies := withFours.sub century (by omega) (by omega)
  have withEras := withoutCenturies.add era (by omega) (by omega)
  have dayHours := (literal 24 (by decide)).mul withEras (by omega) (by omega)
  have hours := (IntExpr.HasValue.of_toInt hr).add dayHours (by omega) (by omega)
  have hourMinutes := (literal 60 (by decide)).mul hours (by omega) (by omega)
  have minutes := (IntExpr.HasValue.of_toInt mn).add hourMinutes (by omega) (by omega)
  have minuteSeconds := (literal 60 (by decide)).mul minutes (by omega) (by omega)
  have seconds := (IntExpr.HasValue.of_toInt sc).add minuteSeconds (by omega) (by omega)
  refine ⟨seconds.inRange, seconds.exact_eq.trans ?_⟩
  omega

/-- Quotient and remainder of a month that is `q` years late. Those of a negative one are
rounded up, except in January.
-/
theorem late_tdiv_tmod {m : Int} (q : Int) (lower : 0 ≤ m) (upper : m < 12)
    : ((m + 12 * q).tdiv 12 = q ∧ (m + 12 * q).tmod 12 = m)
      ∨ ((m + 12 * q).tdiv 12 = q + 1 ∧ (m + 12 * q).tmod 12 = m - 12 ∧ 0 < m) := by
  rcases lt_or_ge (m + 12 * q) 0 with negative | nonneg
  · rcases eq_or_lt_of_le lower with january | later
    · left
      grind
    · right
      grind
  · left
    rw [Int.tdiv_eq_ediv_of_nonneg nonneg, Int.tmod_eq_emod_of_nonneg nonneg]
    omega

/-- The code finds the month in range and the year. -/
theorem mkgmtimeExpr_eq {tm : Tm} {hour min sec : Nat} {q : Int} (valid : date.Valid)
    (since : 1970 ≤ date.year) (late : date.year < 2040)
    (written : tm.WritesLate date hour min sec q)
    : ∃ month year : IntExpr, mkgmtimeExpr tm = secondsExpr tm month year
        ∧ month.HasValue (date.month - 1) ∧ year.HasValue (date.year - 1900) := by
  have monthFrom := valid.monthFrom
  have monthTo := valid.monthTo
  have mon := IntExpr.HasValue.of_toInt written.mon
  have yr := IntExpr.HasValue.of_toInt written.year
  have twelve : (12 : IntExpr).HasValue 12 := .of_toInt rfl
  have fits := And.intro tm.mon.le_toInt tm.mon.toInt_lt
  rw [written.mon] at fits
  have negative (month : IntExpr) {m : Int} (value : month.HasValue m)
      : month.eval < 0 ↔ m < 0 := by
    rw [Int32.lt_iff_toInt_lt, value.toInt_eval]
    rfl
  rcases late_tdiv_tmod (m := date.month - 1) q (by omega) (by omega) with
    ⟨quotient, remainder⟩ | ⟨quotient, remainder, february⟩
  · have month := mon.tmod twelve (by decide) (by omega) (by omega)
    have year := yr.add (mon.tdiv twelve (by decide) (by omega) (by omega)) (by omega) (by omega)
    rw [remainder] at month
    rw [quotient, sub_add_cancel] at year
    refine ⟨_, _, if_neg ?_, month, year⟩
    rw [negative _ month]
    omega
  · have month := mon.tmod twelve (by decide) (by omega) (by omega)
    have year := yr.add (mon.tdiv twelve (by decide) (by omega) (by omega)) (by omega) (by omega)
    rw [remainder] at month
    rw [quotient] at year
    have month' := month.add twelve (by omega) (by omega)
    have year' := year.sub (b := 1) (n := 1) (.of_toInt rfl) (by omega) (by omega)
    refine ⟨_, _, if_pos ?_, ⟨month'.inRange, ?_⟩, ⟨year'.inRange, ?_⟩⟩
    · rw [negative _ month]
      omega
    · rw [month'.exact_eq]
      omega
    · rw [year'.exact_eq]
      omega

end Seconds

/-- `_mkgmtime` gives the seconds since 1970 of a calendar time, however late its month is
written, and no part of its arithmetic overflows.
-/
theorem mkgmtime_writesLate {tm : Tm} {date : Date} {hour min sec : Nat} {q : Int}
    (valid : date.Valid) (since : 1970 ≤ date.year) (written : tm.WritesLate date hour min sec q)
    (small : 86400 * date.dayNumber + 3600 * hour + 60 * min + sec < 2147483648)
    : (mkgmtimeExpr tm).InRange
      ∧ (mkgmtime tm).toInt = 86400 * date.dayNumber + 3600 * hour + 60 * min + sec := by
  have number := Date.dayNumber_nonneg valid since
  have late := year_lt_of_dayNumber valid (by omega)
  obtain ⟨month, year, expr, mon, yr⟩ := mkgmtimeExpr_eq valid since late written
  have seconds := secondsExpr_hasValue valid since mon yr written.mday written.hour written.min
    written.sec small
  rw [← expr] at seconds
  refine ⟨seconds.inRange, ?_⟩
  have nonneg : ¬(mkgmtimeExpr tm).eval.toInt64 < 0 := by
    rw [Int64.lt_iff_toInt_lt, Int32.toInt_toInt64, seconds.toInt_eval]
    change ¬_ < 0
    omega
  rw [mkgmtime_eq_eval, if_neg nonneg, Int32.toInt_toInt64, seconds.toInt_eval]

/-- `_mkgmtime` gives the seconds since 1970 of a calendar time whose month is in range. -/
theorem mkgmtime_toInt {tm : Tm} {date : Date} {hour min sec : Nat}
    (valid : date.Valid) (since : 1970 ≤ date.year) (written : tm.Writes date hour min sec)
    (small : 86400 * date.dayNumber + 3600 * hour + 60 * min + sec < 2147483648)
    : (mkgmtime tm).toInt = 86400 * date.dayNumber + 3600 * hour + 60 * min + sec :=
  (mkgmtime_writesLate valid since written.writesLate small).2

/-- `_mkgmtime` is the calendar function: for the fields of any second from 1970 on that an
`int` holds, whose days are counted one by one, in every way to write the month.
-/
theorem mkgmtime_isCalendar (rawtime : Nat) (small : rawtime < 2147483648) (q : Int) {tm : Tm}
    (written
      : tm.WritesLate (dateOfDay (rawtime / 86400)) (rawtime % 86400 / 3600)
          (rawtime % 3600 / 60) (rawtime % 60) q)
    : (mkgmtime tm).toInt = rawtime ∧ (mkgmtimeExpr tm).InRange := by
  obtain ⟨inRange, seconds⟩ := mkgmtime_writesLate (dateOfDay_valid _) (le_year _) written (by
    rw [dayNumber_dateOfDay]
    omega)
  refine ⟨seconds.trans ?_, inRange⟩
  rw [dayNumber_dateOfDay]
  omega

/-- The first of March 1970 as month -10 of the year after. -/
theorem mkgmtime_isCalendar_march
    : (mkgmtime ⟨7, 6, 5, 1, -10, 71⟩).toInt = 5115967
      ∧ (mkgmtimeExpr ⟨7, 6, 5, 1, -10, 71⟩).InRange :=
  mkgmtime_isCalendar 5115967 (by decide) (-1)
    ⟨by decide +kernel, by decide +kernel, by decide +kernel, rfl, rfl, rfl⟩

end Sparcs.Ftp
