import Sparcs.Library.Calendar
import Sparcs.Library.SignedArithmetic

/-! `dataFileInstance`: the hours from a dawn to a sunset horizon, one call of `incTimeSpec`
after the other.
-/

namespace Sparcs.Discovery

open Calendar SignedArithmetic

/-- The year, month, day and hour of one of the horizons or of the current time. -/
structure TimeSpec where
  yr : Int32
  mon : Int32
  day : Int32
  hr : Int32
  deriving DecidableEq, Repr

/-- `dataFileInstance`. Each call of `incTimeSpec` sets its `temp` fields before it reads them. -/
structure DataFileInstance where
  dawn : TimeSpec
  sunset : TimeSpec
  curr : TimeSpec
  deriving DecidableEq, Repr

/-- The fields after `setDawnTimeHoriz` and `setSunsetTimeHoriz`. -/
def DataFileInstance.ofHorizons (dawn sunset : TimeSpec) : DataFileInstance :=
  { dawn, sunset, curr := dawn }

/-- What `incTimeSpec` makes of its `temp` fields. -/
def TimeSpec.incremented (temp : TimeSpec) : TimeSpec :=
  if temp.hr < 23 then
    { temp with hr := temp.hr + 1 }
  else if temp.day < 32 then
    { temp with hr := 0, day := temp.day + 1 }
  else if temp.mon < 13 then
    { temp with hr := 0, day := 1, mon := temp.mon + 1 }
  else
    { hr := 0, day := 1, mon := 1, yr := temp.yr + 1 }

/-- `isValidTimeSpec` -/
def DataFileInstance.isValidTimeSpec (d : DataFileInstance) (temp : TimeSpec) : Bool :=
  if d.dawn.yr < temp.yr then true
  else if temp.yr < d.dawn.yr then false
  else true

/-- `incTimeSpec` -/
def DataFileInstance.incTimeSpec (d : DataFileInstance) : Bool × DataFileInstance :=
  let temp := d.curr.incremented
  if d.isValidTimeSpec temp then (true, { d with curr := temp }) else (false, d)

/-- The instance after `n` calls. -/
def DataFileInstance.after (d : DataFileInstance) : Nat → DataFileInstance
  | 0 => d
  | n + 1 => (d.after n).incTimeSpec.2

-----------------------------------------------------------------------------------------
-- What the calls are for
-----------------------------------------------------------------------------------------

namespace TimeSpec

def date (t : TimeSpec) : Date :=
  ⟨t.yr.toInt.toNat, t.mon.toInt.toNat, t.day.toInt.toNat⟩

/-- The calendar has this hour. -/
structure OnCalendar (t : TimeSpec) : Prop where
  year : 0 ≤ t.yr.toInt
  date : t.date.Valid
  hourFrom : 0 ≤ t.hr.toInt
  hourTo : t.hr.toInt < 24

/-- The order of hours: by the year, the month, the day and the hour. -/
def Before (t t' : TimeSpec) : Prop :=
  t.date.Before t'.date ∨ t.date = t'.date ∧ t.hr.toInt < t'.hr.toInt

/-- `t'` is one hour after `t`. -/
def NextHour (t t' : TimeSpec) : Prop :=
  t'.date = t.date ∧ t'.hr.toInt = t.hr.toInt + 1
  ∨ t'.date = t.date.next ∧ t.hr.toInt = 23 ∧ t'.hr.toInt = 0

end TimeSpec

namespace DataFileInstance

/-- A call at the sunset horizon returns false and changes nothing; before it a call goes on
by one hour on the calendar, and not beyond the horizon.
-/
def CallFollows (d : DataFileInstance) : Prop :=
  if d.curr = d.sunset then
    d.incTimeSpec.1 = false ∧ d.incTimeSpec.2.curr = d.curr
  else
    d.incTimeSpec.2.curr.OnCalendar
    ∧ d.curr.NextHour d.incTimeSpec.2.curr
    ∧ ¬d.sunset.Before d.incTimeSpec.2.curr

/-- The first `n` calls follow the calendar from dawn to sunset. -/
def Follows (d : DataFileInstance) (n : Nat) : Prop :=
  ∀ k < n, (d.after k).CallFollows

/-- The calls end inside the month of the dawn, and not behind the sunset. -/
def InDawnsMonth (dawn sunset : TimeSpec) (n : Nat) : Prop :=
  (n : Int) ≤ 24 * (daysInMonth dawn.date.year dawn.date.month - dawn.day.toInt)
      + (23 - dawn.hr.toInt)
  ∧ (sunset.date.year = dawn.date.year → sunset.date.month = dawn.date.month →
      (n : Int) ≤ 24 * (sunset.day.toInt - dawn.day.toInt) + (sunset.hr.toInt - dawn.hr.toInt))

end DataFileInstance

-----------------------------------------------------------------------------------------
-- One call inside a month
-----------------------------------------------------------------------------------------

/-- The hour of the month. -/
def TimeSpec.monthHour (t : TimeSpec) : Int :=
  24 * (t.day.toInt - 1) + t.hr.toInt

/-- The time lies in the same month as `dawn`, `n` hours after it. The day may be one that no
month has.
-/
structure TimeSpec.HoursAfter (dawn : TimeSpec) (n : Nat) (t : TimeSpec) : Prop where
  yr : t.yr = dawn.yr
  mon : t.mon = dawn.mon
  hourFrom : 0 ≤ t.hr.toInt
  hourTo : t.hr.toInt < 24
  dayFrom : 1 ≤ t.day.toInt
  monthHour : t.monthHour = dawn.monthHour + n

section Call

variable {dawn t : TimeSpec} {n : Nat}

theorem TimeSpec.HoursAfter.incremented (after : dawn.HoursAfter n t) (inMonth : t.day.toInt < 32)
    : dawn.HoursAfter (n + 1) t.incremented := by
  obtain ⟨yr, mon, hourFrom, hourTo, dayFrom, monthHour⟩ := after
  simp only [TimeSpec.monthHour] at monthHour
  have twentyThree : (23 : Int32).toInt = 23 := rfl
  have thirtyTwo : (32 : Int32).toInt = 32 := rfl
  have hour : (t.hr < 23) ↔ t.hr.toInt < 23 := Int32.lt_iff_toInt_lt
  have day : t.day < 32 := Int32.lt_iff_toInt_lt.mpr inMonth
  unfold TimeSpec.incremented
  split_ifs with early
  · have next : (t.hr + 1).toInt = t.hr.toInt + 1 :=
      toInt_add32_of rfl rfl (by omega) (by have := hour.mp early; omega)
    have early' := hour.mp early
    refine ⟨yr, mon, ?_, ?_, dayFrom, ?_⟩
    · simp only
      omega
    · simp only
      omega
    · simp only [TimeSpec.monthHour]
      push_cast
      omega
  · have late : ¬t.hr.toInt < 23 := fun early' => early (hour.mpr early')
    have next : (t.day + 1).toInt = t.day.toInt + 1 :=
      toInt_add32_of rfl rfl (by omega) (by omega)
    have midnight : (0 : Int32).toInt = 0 := rfl
    refine ⟨yr, mon, ?_, ?_, ?_, ?_⟩
    · simp only
      omega
    · simp only
      omega
    · simp only
      omega
    · simp only [TimeSpec.monthHour]
      push_cast
      omega

/-- The days of the hours up to the last one of day `days`. -/
theorem TimeSpec.HoursAfter.day_le (after : dawn.HoursAfter n t) {days : Int}
    (within : (n : Int) ≤ 24 * (days - dawn.day.toInt) + (23 - dawn.hr.toInt))
    : t.day.toInt ≤ days := by
  have monthHour := after.monthHour
  have hourFrom := after.hourFrom
  rw [TimeSpec.monthHour, TimeSpec.monthHour] at monthHour
  omega

/-- A day of the month is on the calendar with every hour. -/
theorem TimeSpec.HoursAfter.onCalendar (after : dawn.HoursAfter n t) (valid : dawn.OnCalendar)
    (inMonth : t.day.toInt ≤ daysInMonth dawn.date.year dawn.date.month)
    : t.OnCalendar := by
  obtain ⟨yr, mon, hourFrom, hourTo, dayFrom, _⟩ := after
  refine ⟨yr ▸ valid.year, ⟨?_, ?_, ?_, ?_⟩, hourFrom, hourTo⟩
  · have from_ := valid.date.monthFrom
    rw [TimeSpec.date] at from_ ⊢
    rwa [mon]
  · have to_ := valid.date.monthTo
    rw [TimeSpec.date] at to_ ⊢
    rwa [mon]
  · simp only [TimeSpec.date]
    omega
  · simp only [TimeSpec.date, yr, mon] at inMonth ⊢
    omega

/-- Two times of one month, an hour apart. -/
theorem TimeSpec.HoursAfter.nextHour {t' : TimeSpec}
    (after : dawn.HoursAfter n t) (after' : dawn.HoursAfter (n + 1) t')
    (inMonth : t'.day.toInt ≤ daysInMonth dawn.date.year dawn.date.month)
    : t.NextHour t' := by
  obtain ⟨yr, mon, hourFrom, hourTo, dayFrom, monthHour⟩ := after
  obtain ⟨yr', mon', hourFrom', hourTo', dayFrom', monthHour'⟩ := after'
  simp only [TimeSpec.monthHour] at monthHour monthHour'
  push_cast at monthHour'
  by_cases last : t.hr.toInt = 23
  · have day : t'.day.toInt = t.day.toInt + 1 := by omega
    have more : t.date.day < daysInMonth t.date.year t.date.month := by
      simp only [TimeSpec.date, yr, mon] at inMonth ⊢
      omega
    refine Or.inr ⟨?_, last, by omega⟩
    rw [Date.next, if_pos more]
    simp only [TimeSpec.date, yr, yr', mon, mon', day]
    congr 1
    omega
  · have day : t'.day.toInt = t.day.toInt := by omega
    refine Or.inl ⟨?_, by omega⟩
    simp only [TimeSpec.date, yr, yr', mon, mon', day]

/-- The fields of an hour on the calendar are its numbers. -/
theorem TimeSpec.OnCalendar.fields (valid : t.OnCalendar)
    : (t.date.year : Int) = t.yr.toInt
      ∧ (t.date.month : Int) = t.mon.toInt
      ∧ (t.date.day : Int) = t.day.toInt := by
  have year := valid.year
  have month := valid.date.monthFrom
  have day := valid.date.dayFrom
  simp only [TimeSpec.date] at month day ⊢
  omega

variable {sunset : TimeSpec}

/-- A time in the month of the dawn is the sunset if that lies as many hours after the dawn. -/
theorem TimeSpec.HoursAfter.eq_iff (valid : dawn.OnCalendar) (validSunset : sunset.OnCalendar)
    (after : dawn.HoursAfter n t)
    : t = sunset
      ↔ sunset.date.year = dawn.date.year
        ∧ sunset.date.month = dawn.date.month
        ∧ (n : Int) = 24 * (sunset.day.toInt - dawn.day.toInt)
          + (sunset.hr.toInt - dawn.hr.toInt) := by
  obtain ⟨yr, mon, hourFrom, hourTo, dayFrom, monthHour⟩ := after
  obtain ⟨dawnYear, dawnMonth, _⟩ := valid.fields
  obtain ⟨sunsetYear, sunsetMonth, sunsetDay⟩ := validSunset.fields
  simp only [TimeSpec.monthHour] at monthHour
  constructor
  · rintro rfl
    simp only [TimeSpec.date, yr, mon, true_and]
    omega
  · rintro ⟨sameYear, sameMonth, hours⟩
    have hourFrom' := validSunset.hourFrom
    have hourTo' := validSunset.hourTo
    have year : t.yr = sunset.yr := Int32.toInt_inj.mp (by rw [yr]; omega)
    have month : t.mon = sunset.mon := Int32.toInt_inj.mp (by rw [mon]; omega)
    have day : t.day = sunset.day := Int32.toInt_inj.mp (by omega)
    have hour : t.hr = sunset.hr := Int32.toInt_inj.mp (by omega)
    cases t
    cases sunset
    simp_all

/-- A time in the month of the dawn is not behind a sunset in another month, and in the same
month not if it is at most as many hours after the dawn.
-/
theorem TimeSpec.HoursAfter.not_before (valid : dawn.OnCalendar)
    (validSunset : sunset.OnCalendar) (later : dawn.Before sunset) (after : dawn.HoursAfter n t)
    (onCalendar : t.OnCalendar)
    (within
      : sunset.date.year = dawn.date.year → sunset.date.month = dawn.date.month →
          (n : Int) ≤ 24 * (sunset.day.toInt - dawn.day.toInt)
            + (sunset.hr.toInt - dawn.hr.toInt))
    : ¬sunset.Before t := by
  obtain ⟨yr, mon, hourFrom, hourTo, dayFrom, monthHour⟩ := after
  obtain ⟨year, month, day⟩ := onCalendar.fields
  obtain ⟨dawnYear, dawnMonth, dawnDay⟩ := valid.fields
  obtain ⟨sunsetYear, sunsetMonth, sunsetDay⟩ := validSunset.fields
  have hourFrom' := validSunset.hourFrom
  have hourTo' := validSunset.hourTo
  simp only [TimeSpec.monthHour] at monthHour
  rw [yr] at year
  rw [mon] at month
  intro beyond
  by_cases sameMonth : sunset.date.year = dawn.date.year ∧ sunset.date.month = dawn.date.month
  · have hours := within sameMonth.1 sameMonth.2
    rcases beyond with beyond | ⟨sameDate, beyond⟩
    · unfold Date.Before at beyond
      omega
    · have sameDay := congrArg Date.day sameDate
      omega
  · have sunsetLater : dawn.date.year < sunset.date.year
        ∨ dawn.date.year = sunset.date.year ∧ dawn.date.month < sunset.date.month := by
      rcases later with later | ⟨sameDate, _⟩
      · unfold Date.Before at later
        omega
      · rw [sameDate] at sameMonth
        exact absurd ⟨rfl, rfl⟩ sameMonth
    rcases beyond with beyond | ⟨sameDate, _⟩
    · unfold Date.Before at beyond
      omega
    · rw [sameDate] at sunsetLater
      omega

end Call

theorem daysInMonth_le (year month : Nat) : daysInMonth year month ≤ 31 := by
  unfold daysInMonth
  split_ifs <;> omega

-----------------------------------------------------------------------------------------
-- The calls
-----------------------------------------------------------------------------------------

namespace DataFileInstance

variable {d : DataFileInstance} {dawn sunset : TimeSpec} {n : Nat}

/-- No call is refused while the year is the dawn's. -/
theorem incTimeSpec_accepted (sameYear : d.curr.incremented.yr = d.dawn.yr)
    : d.incTimeSpec = (true, { d with curr := d.curr.incremented }) := by
  have valid : d.isValidTimeSpec d.curr.incremented = true := by
    rw [isValidTimeSpec, sameYear]
    split_ifs with later
    · rfl
    · rfl
  simp only [incTimeSpec, valid, if_true]

/-- The state after calls that stay in the month of the dawn, or in its first day too many. -/
structure InMonth (dawn sunset : TimeSpec) (n : Nat) (d : DataFileInstance) : Prop where
  isDawn : d.dawn = dawn
  isSunset : d.sunset = sunset
  curr : dawn.HoursAfter n d.curr

theorem InMonth.call (inMonth : InMonth dawn sunset n d) (day : d.curr.day.toInt < 32)
    : d.incTimeSpec.1 = true ∧ InMonth dawn sunset (n + 1) d.incTimeSpec.2 := by
  obtain ⟨isDawn, isSunset, curr⟩ := inMonth
  have next := curr.incremented day
  rw [incTimeSpec_accepted (next.yr.trans (congrArg TimeSpec.yr isDawn.symm))]
  exact ⟨rfl, isDawn, isSunset, next⟩

theorem InMonth.first (valid : dawn.OnCalendar)
    : InMonth dawn sunset 0 (ofHorizons dawn sunset) := by
  have day := valid.date.dayFrom
  refine ⟨rfl, rfl, rfl, rfl, valid.hourFrom, valid.hourTo, ?_, (Int.add_zero _).symm⟩
  simp only [TimeSpec.date] at day
  simp only [ofHorizons]
  omega

/-- The hours from the dawn to the last one of its month. -/
theorem InMonth.after (valid : dawn.OnCalendar)
    (within
      : (n : Int) ≤ 24 * (daysInMonth dawn.date.year dawn.date.month - dawn.day.toInt)
          + (23 - dawn.hr.toInt))
    : InMonth dawn sunset n ((ofHorizons dawn sunset).after n) := by
  induction n with
  | zero => exact InMonth.first valid
  | succ n ih =>
      push_cast at within
      have earlier := ih (by omega)
      have days := daysInMonth_le dawn.date.year dawn.date.month
      have day : ((ofHorizons dawn sunset).after n).curr.day.toInt
          ≤ daysInMonth dawn.date.year dawn.date.month :=
        earlier.curr.day_le (by omega)
      exact (earlier.call (by omega)).2

/-- While the calls end inside the month of the dawn, and not behind the sunset, each of them
follows the calendar.
-/
theorem InDawnsMonth.follows (valid : dawn.OnCalendar) (validSunset : sunset.OnCalendar)
    (later : dawn.Before sunset) (bound : InDawnsMonth dawn sunset n)
    : (ofHorizons dawn sunset).Follows n := by
  obtain ⟨inMonth, notBehind⟩ := bound
  intro k earlier
  have days := daysInMonth_le dawn.date.year dawn.date.month
  have state : InMonth dawn sunset k ((ofHorizons dawn sunset).after k) :=
    InMonth.after valid (by omega)
  have day : ((ofHorizons dawn sunset).after k).curr.day.toInt
      ≤ daysInMonth dawn.date.year dawn.date.month :=
    state.curr.day_le (by omega)
  have next := (state.call (by omega)).2.curr
  have nextDay : ((ofHorizons dawn sunset).after k).incTimeSpec.2.curr.day.toInt
      ≤ daysInMonth dawn.date.year dawn.date.month :=
    next.day_le (by push_cast; omega)
  have onCalendar := next.onCalendar valid (by omega)
  have notSunset : ((ofHorizons dawn sunset).after k).curr
      ≠ ((ofHorizons dawn sunset).after k).sunset := by
    rw [state.isSunset, Ne, state.curr.eq_iff valid validSunset]
    rintro ⟨year, month, hours⟩
    have := notBehind year month
    omega
  rw [CallFollows, if_neg notSunset]
  refine ⟨onCalendar, state.curr.nextHour next (by omega), ?_⟩
  rw [state.isSunset]
  refine next.not_before valid validSunset later onCalendar ?_
  intro year month
  have := notBehind year month
  push_cast
  omega

/-- A sunset in the month of the dawn is hours after it, and in that month. -/
theorem hours_to_sunset (valid : dawn.OnCalendar) (validSunset : sunset.OnCalendar)
    (later : dawn.Before sunset) (year : sunset.date.year = dawn.date.year)
    (month : sunset.date.month = dawn.date.month)
    : 0 < 24 * (sunset.day.toInt - dawn.day.toInt) + (sunset.hr.toInt - dawn.hr.toInt)
      ∧ sunset.day.toInt ≤ daysInMonth dawn.date.year dawn.date.month := by
  obtain ⟨_, _, dawnDay⟩ := valid.fields
  obtain ⟨_, _, sunsetDay⟩ := validSunset.fields
  have hourFrom := validSunset.hourFrom
  have hourTo := valid.hourTo
  have dayTo := validSunset.date.dayTo
  rw [year, month] at dayTo
  constructor
  · rcases later with later | ⟨sameDate, later⟩
    · unfold Date.Before at later
      omega
    · have sameDay := congrArg Date.day sameDate
      omega
  · omega

/-- At the sunset, and at the end of the month of the dawn, a call does not follow the
calendar.
-/
theorem Follows.inDawnsMonth (valid : dawn.OnCalendar) (validSunset : sunset.OnCalendar)
    (later : dawn.Before sunset) (follows : (ofHorizons dawn sunset).Follows n)
    : InDawnsMonth dawn sunset n := by
  have days := daysInMonth_le dawn.date.year dawn.date.month
  obtain ⟨_, _, dawnDay⟩ := valid.fields
  have dawnDayTo := valid.date.dayTo
  have dawnHourTo := valid.hourTo
  have untilSunset (year : sunset.date.year = dawn.date.year)
      (month : sunset.date.month = dawn.date.month)
      : (n : Int) ≤ 24 * (sunset.day.toInt - dawn.day.toInt)
          + (sunset.hr.toInt - dawn.hr.toInt) := by
    by_contra beyond
    obtain ⟨positive, inMonth⟩ := hours_to_sunset valid validSunset later year month
    have hourTo := validSunset.hourTo
    obtain ⟨k, hours⟩ := Int.eq_ofNat_of_zero_le positive.le
    have state : InMonth dawn sunset k ((ofHorizons dawn sunset).after k) :=
      InMonth.after valid (by omega)
    have day : ((ofHorizons dawn sunset).after k).curr.day.toInt
        ≤ daysInMonth dawn.date.year dawn.date.month :=
      state.curr.day_le (by omega)
    have atSunset : ((ofHorizons dawn sunset).after k).curr
        = ((ofHorizons dawn sunset).after k).sunset := by
      rw [state.isSunset, state.curr.eq_iff valid validSunset]
      exact ⟨year, month, hours.symm⟩
    have call := follows k (by omega)
    rw [CallFollows, if_pos atSunset, (state.call (by omega)).1] at call
    exact absurd call.1 (by decide)
  refine ⟨?_, untilSunset⟩
  by_contra beyond
  have nonneg : 0 ≤ 24 * (daysInMonth dawn.date.year dawn.date.month - dawn.day.toInt)
      + (23 - dawn.hr.toInt) := by
    omega
  obtain ⟨k, hours⟩ := Int.eq_ofNat_of_zero_le nonneg
  have state : InMonth dawn sunset k ((ofHorizons dawn sunset).after k) :=
    InMonth.after valid (by omega)
  have day : ((ofHorizons dawn sunset).after k).curr.day.toInt
      ≤ daysInMonth dawn.date.year dawn.date.month :=
    state.curr.day_le (by omega)
  have next := (state.call (by omega)).2.curr
  have notSunset : ((ofHorizons dawn sunset).after k).curr
      ≠ ((ofHorizons dawn sunset).after k).sunset := by
    rw [state.isSunset, Ne, state.curr.eq_iff valid validSunset]
    rintro ⟨year, month, atSunset⟩
    have := untilSunset year month
    omega
  have call := follows k (by omega)
  rw [CallFollows, if_neg notSunset] at call
  -- The day behind the last one of the month is on no calendar.
  have dayTo := call.1.date.dayTo
  obtain ⟨_, _, nextDay⟩ := call.1.fields
  have sameYear : ((ofHorizons dawn sunset).after k).incTimeSpec.2.curr.date.year
      = dawn.date.year := by
    simp only [TimeSpec.date, next.yr]
  have sameMonth : ((ofHorizons dawn sunset).after k).incTimeSpec.2.curr.date.month
      = dawn.date.month := by
    simp only [TimeSpec.date, next.mon]
  rw [sameYear, sameMonth] at dayTo
  have monthHour := next.monthHour
  have hourTo := next.hourTo
  simp only [TimeSpec.monthHour] at monthHour
  push_cast at monthHour
  omega

/-- For every dawn before a sunset the first `n` calls follow the calendar if and only if they
end inside the month of the dawn and not behind the sunset.
-/
theorem follows_iff (valid : dawn.OnCalendar) (validSunset : sunset.OnCalendar)
    (later : dawn.Before sunset) (n : Nat)
    : (ofHorizons dawn sunset).Follows n ↔ InDawnsMonth dawn sunset n :=
  ⟨fun follows => follows.inDawnsMonth valid validSunset later,
    fun bound => bound.follows valid validSunset later⟩

/-- With the horizons of the repository's test, the calls follow the calendar up to the end of
December.
-/
theorem follows_iff_test
    : (ofHorizons ⟨2015, 12, 1, 0⟩ ⟨2016, 1, 28, 23⟩).Follows 743
      ∧ ¬(ofHorizons ⟨2015, 12, 1, 0⟩ ⟨2016, 1, 28, 23⟩).Follows 744 := by
  have valid : TimeSpec.OnCalendar ⟨2015, 12, 1, 0⟩ :=
    ⟨by decide, ⟨by decide, by decide, by decide, by decide⟩, by decide, by decide⟩
  have validSunset : TimeSpec.OnCalendar ⟨2016, 1, 28, 23⟩ :=
    ⟨by decide, ⟨by decide, by decide, by decide, by decide⟩, by decide, by decide⟩
  have follows := follows_iff valid validSunset (Or.inl (Or.inl (by decide)))
  rw [follows, follows, InDawnsMonth, InDawnsMonth]
  decide

/-- For no horizons all calls follow the calendar. -/
theorem not_follows (valid : dawn.OnCalendar) (validSunset : sunset.OnCalendar)
    (later : dawn.Before sunset)
    : ∃ n, ¬(ofHorizons dawn sunset).Follows n := by
  obtain ⟨_, _, dawnDay⟩ := valid.fields
  have days := daysInMonth_le dawn.date.year dawn.date.month
  have dayFrom := valid.date.dayFrom
  have hourFrom := valid.hourFrom
  refine ⟨24 * 31, ?_⟩
  intro follows
  have inMonth := (follows.inDawnsMonth valid validSunset later).1
  push_cast at inMonth
  omega

/-- After the last hour of 2015 comes the 32nd of December. -/
theorem test_not_follows
    : ¬∀ (dawn sunset : TimeSpec), dawn.OnCalendar → sunset.OnCalendar → dawn.Before sunset →
        ∀ n, (ofHorizons dawn sunset).Follows n := by
  intro follows
  have call := follows ⟨2015, 12, 31, 23⟩ ⟨2016, 1, 28, 23⟩
    ⟨by decide, ⟨by decide, by decide, by decide, by decide⟩, by decide, by decide⟩
    ⟨by decide, ⟨by decide, by decide, by decide, by decide⟩, by decide, by decide⟩
    (Or.inl (Or.inl (by decide))) 1 0 (by decide)
  rw [CallFollows, if_neg (by decide)] at call
  exact absurd call.1.date.dayTo (by decide)

end DataFileInstance

end Sparcs.Discovery
