import Sparcs.Discovery.UpmuFtpAccess

/-! Hour directories against the calendar: what the names, the times, the present test and
the step to the next directory mean for the hours counted from 1970.
-/

namespace Sparcs.Discovery

open Calendar SignedArithmetic
open Ftp (Tm gmtime mkgmtime)

/-- Leading blanks and zeros do not change a number. -/
theorem ofDigitChars_setw {width : Nat} {fill : Char} (n : UInt32) (low : fill.toNat ≤ 48)
    : Nat.ofDigitChars 10 (setw width fill n) 0 = n.toNat := by
  have filled (k : Nat) : Nat.ofDigitChars 10 (List.replicate k fill) 0 = 0 := by
    induction k with
    | zero => rfl
    | succ k ih =>
        rw [List.replicate_succ, Nat.ofDigitChars_cons]
        have zero : fill.toNat - '0'.toNat = 0 := Nat.sub_eq_zero_of_le low
        rw [zero, ih]
  rw [setw, List.leftpad, Nat.ofDigitChars_append, filled, Nat.ofDigitChars_ten_toDigits]

theorem setw_inj {width : Nat} {fill : Char} {n m : UInt32} (low : fill.toNat ≤ 48)
    (same : setw width fill n = setw width fill m)
    : n = m := by
  rw [← UInt32.toNat_inj, ← ofDigitChars_setw n low, same, ofDigitChars_setw m low]

theorem slash_notMem_setw {width : Nat} {fill : Char} (n : UInt32) (other : fill ≠ '/')
    : '/' ∉ setw width fill n := by
  intro member
  rw [setw, List.leftpad, List.mem_append] at member
  rcases member with filled | digit
  · exact other (List.eq_of_mem_replicate filled).symm
  · exact absurd (Nat.isDigit_of_mem_toDigits (by decide) (by decide) digit) (by decide)

/-- The first separator ends the same text in both lists, by induction on the one before it. -/
theorem append_cons_inj_of_first {α : Type} {separator : α} {text text' rest rest' : List α}
    (first : separator ∉ text) (first' : separator ∉ text')
    (same : text ++ separator :: rest = text' ++ separator :: rest')
    : text = text' ∧ rest = rest' := by
  induction text generalizing text' with
  | nil =>
      cases text' with
      | nil => simpa using same
      | cons c text' => exact absurd (List.cons.inj same).1 (List.ne_of_not_mem_cons first')
  | cons c text ih =>
      cases text' with
      | nil =>
          exact absurd (List.cons.inj same).1.symm (List.ne_of_not_mem_cons first)
      | cons c' text' =>
          obtain ⟨rfl, tails⟩ := List.cons.inj same
          obtain ⟨rfl, rest⟩ := ih (List.not_mem_of_not_mem_cons first)
            (List.not_mem_of_not_mem_cons first') tails
          exact ⟨rfl, rest⟩

/-- Different hours have different names. -/
theorem createDirNameYrMonDayHr_inj {dd dd' : DataDir}
    (same : createDirNameYrMonDayHr dd = createDirNameYrMonDayHr dd')
    : dd.year = dd'.year ∧ dd.month = dd'.month ∧ dd.day = dd'.day ∧ dd.hour = dd'.hour := by
  have blank (n : UInt32) : '/' ∉ setw 4 ' ' n := slash_notMem_setw n (by decide)
  have zero (n : UInt32) : '/' ∉ setw 2 '0' n := slash_notMem_setw n (by decide)
  have texts := String.ofList_injective same
  have month : "/Month_".toList = '/' :: "Month_".toList := rfl
  have day : "/Day_".toList = '/' :: "Day_".toList := rfl
  have hour : "/Hour_".toList = '/' :: "Hour_".toList := rfl
  have last : "/".toList = ['/'] := rfl
  simp only [month, day, hour, last, List.append_assoc, List.cons_append,
    List.append_cancel_left_eq] at texts
  obtain ⟨year, texts⟩ := append_cons_inj_of_first (blank _) (blank _) texts
  rw [List.append_cancel_left_eq] at texts
  obtain ⟨month, texts⟩ := append_cons_inj_of_first (zero _) (zero _) texts
  rw [List.append_cancel_left_eq] at texts
  obtain ⟨day, texts⟩ := append_cons_inj_of_first (zero _) (zero _) texts
  rw [List.append_cancel_left_eq] at texts
  obtain ⟨hour, _⟩ := append_cons_inj_of_first (zero _) (zero _) texts
  exact ⟨setw_inj (by decide) year, setw_inj (by decide) month, setw_inj (by decide) day,
    setw_inj (by decide) hour⟩

/-- The directory is the one of hour `h`, counted from 1970. -/
structure DataDir.OnHour (d : DataDir) (h : Nat) : Prop where
  year : d.year.toNat = (dateOfDay (h / 24)).year
  month : d.month.toNat = (dateOfDay (h / 24)).month
  day : d.day.toNat = (dateOfDay (h / 24)).day
  hour : d.hour.toNat = h % 24

/-- The day number and the name fit the hour as well. -/
structure DataDir.Consistent (d : DataDir) (h : Nat) : Prop extends d.OnHour h where
  epochDay : d.epochDay.toNat = h / 24
  dirName : d.dirName = createDirNameYrMonDayHr d

namespace DataDir.OnHour

variable {d d' : DataDir} {h h' : Nat}

theorem date (on : d.OnHour h)
    : (⟨d.year.toNat, d.month.toNat, d.day.toNat⟩ : Date) = dateOfDay (h / 24) := by
  rw [on.year, on.month, on.day]

theorem unique (on : d.OnHour h) (on' : d.OnHour h') : h = h' := by
  have day : h / 24 = h' / 24 := dateOfDay_injective (on.date.symm.trans on'.date)
  have hour : h % 24 = h' % 24 := on.hour.symm.trans on'.hour
  omega

theorem of_name (on : d.OnHour h)
    (same : createDirNameYrMonDayHr d = createDirNameYrMonDayHr d')
    : d'.OnHour h := by
  obtain ⟨year, month, day, hour⟩ := createDirNameYrMonDayHr_inj same
  exact ⟨year ▸ on.year, month ▸ on.month, day ▸ on.day, hour ▸ on.hour⟩

/-- The time of a directory is the start of its hour, while an `int` holds it. -/
theorem createTimeFromDataDir_toNat (on : d.OnHour h) (small : 3600 * h < 2147483648)
    : (createTimeFromDataDir d).toNat = 3600 * h := by
  have valid := dateOfDay_valid (h / 24)
  have since := le_year (h / 24)
  have late := year_le (h / 24)
  have monthFrom := valid.monthFrom
  have monthTo := valid.monthTo
  have dayTo := valid.day_le
  have day := on.day
  have month := on.month
  have hour := on.hour
  have year := on.year
  have nineteen : (d.year - 1900).toNat = d.year.toNat - 1900 :=
    UInt32.toNat_sub_of_le _ _ (UInt32.le_iff_toNat_le.mpr (by change 1900 ≤ _; omega))
  have january : (d.month - 1).toNat = d.month.toNat - 1 :=
    UInt32.toNat_sub_of_le _ _ (UInt32.le_iff_toNat_le.mpr (by change 1 ≤ _; omega))
  have written : Ftp.Tm.Writes ⟨0, 0, d.hour.toInt32, d.day.toInt32, (d.month - 1).toInt32,
      (d.year - 1900).toInt32⟩ (dateOfDay (h / 24)) (h % 24) 0 0 :=
    { year := by
        dsimp only
        rw [toInt_toInt32 (by omega)]
        omega
      mon := by
        dsimp only
        rw [toInt_toInt32 (by omega)]
        omega
      mday := by
        dsimp only
        rw [toInt_toInt32 (by omega)]
        omega
      hour := by
        dsimp only
        rw [toInt_toInt32 (by omega)]
        omega
      min := rfl
      sec := rfl }
  have seconds := Ftp.mkgmtime_toInt valid since written (by
    rw [dayNumber_dateOfDay]
    omega)
  rw [dayNumber_dateOfDay] at seconds
  rw [createTimeFromDataDir, toNat_toUInt32_of_toInt seconds] <;> omega

end DataDir.OnHour

section Gmtime

variable {rawtime : Nat}

theorem gmtime_year (small : rawtime < 4295030400)
    : ((gmtime rawtime).year + 1900).toUInt32.toNat = (dateOfDay (rawtime / 86400)).year := by
  have since := le_year (rawtime / 86400)
  have late := year_le (rawtime / 86400)
  have year : (gmtime rawtime).year.toInt = ((dateOfDay (rawtime / 86400)).year : Int) - 1900 :=
    Int32.toInt_ofInt_of_le (by omega) (by omega)
  refine toNat_toUInt32 ((toInt_add32_of (n := 1900) year rfl (by omega) (by omega)).trans ?_)
  omega

theorem gmtime_mon
    : ((gmtime rawtime).mon + 1).toUInt32.toNat = (dateOfDay (rawtime / 86400)).month := by
  have valid := dateOfDay_valid (rawtime / 86400)
  have monthFrom := valid.monthFrom
  have monthTo := valid.monthTo
  have mon : (gmtime rawtime).mon.toInt = ((dateOfDay (rawtime / 86400)).month - 1 : Nat) :=
    Int32.toInt_ofNat_of_lt (by omega)
  refine toNat_toUInt32 ((toInt_add32_of (n := 1) mon rfl (by omega) (by omega)).trans ?_)
  omega

theorem gmtime_mday
    : (gmtime rawtime).mday.toUInt32.toNat = (dateOfDay (rawtime / 86400)).day := by
  have dayTo := (dateOfDay_valid (rawtime / 86400)).day_le
  exact toNat_toUInt32 (Int32.toInt_ofNat_of_lt (by omega))

theorem gmtime_hour
    : (gmtime rawtime).hour.toUInt32.toNat = rawtime / 3600 % 24 := by
  refine toNat_toUInt32 ((Int32.toInt_ofNat_of_lt (by omega)).trans ?_)
  omega

end Gmtime

namespace DataDir

variable {d : DataDir} {h rawtime : Nat}

/-- The present test compares hours. -/
theorem OnHour.isDataDirAtPresent_iff (on : d.OnHour h) (small : rawtime < 4295030400)
    : isDataDirAtPresent d rawtime = true ↔ h = rawtime / 3600 := by
  have day : rawtime / 86400 = rawtime / 3600 / 24 := by omega
  simp only [isDataDirAtPresent, Bool.and_eq_true, decide_eq_true_eq, ← UInt32.toNat_inj,
    gmtime_year small, gmtime_mon, gmtime_mday, gmtime_hour, day]
  constructor
  · intro same
    obtain ⟨⟨⟨year, month⟩, day⟩, hour⟩ := same
    exact on.unique ⟨year, month, day, hour⟩
  · intro present
    subst present
    exact ⟨⟨⟨on.year, on.month⟩, on.day⟩, on.hour⟩

/-- A directory that is not the present one is the one of another hour. -/
theorem OnHour.ne_present (on : d.OnHour h) (small : rawtime < 4295030400)
    (elsewhere : isDataDirAtPresent d rawtime = false)
    : h ≠ rawtime / 3600 := by
  intro same
  rw [(on.isDataDirAtPresent_iff small).mpr same] at elsewhere
  cases elsewhere

/-- A directory in another state, or under another id. -/
theorem Consistent.withState (consistent : d.Consistent h) (dbID : Nat) (state : DataDirState)
    : Consistent { d with dbID, state } h :=
  ⟨⟨consistent.year, consistent.month, consistent.day, consistent.hour⟩, consistent.epochDay,
    consistent.dirName⟩

/-- From an hour to the next one, while the seconds of the day fit an unsigned int. -/
theorem Consistent.incDataDir (consistent : d.Consistent h) (small : h + 1 < 1193064)
    : (incDataDir d).Consistent (h + 1) := by
  have hour : ((d.hour + 1) % 24).toNat = (h + 1) % 24 := by
    have hour := consistent.hour
    rw [UInt32.toNat_mod, UInt32.toNat_add]
    change (d.hour.toNat + 1) % 4294967296 % 24 = _
    omega
  have midnight : (d.hour + 1) % 24 = 0 ↔ (h + 1) % 24 = 0 := by
    rw [← UInt32.toNat_inj, hour]
    rfl
  have epochDay
      : (if (d.hour + 1) % 24 = 0 then d.epochDay + 1 else d.epochDay).toNat = (h + 1) / 24 := by
    have day := consistent.epochDay
    simp only [midnight]
    split_ifs with new
    · rw [UInt32.toNat_add, day]
      change (h / 24 + 1) % 4294967296 = _
      omega
    · rw [day]
      omega
  have et (epochDay : UInt32) (day : epochDay.toNat = (h + 1) / 24)
      : (epochDay * 86400).toNat = 86400 * ((h + 1) / 24) := by
    rw [UInt32.toNat_mul, day]
    change (h + 1) / 24 * 86400 % 4294967296 = _
    omega
  have seconds := et _ epochDay
  have day : (((if (d.hour + 1) % 24 = 0 then d.epochDay + 1 else d.epochDay) * 86400).toNat)
      / 86400 = (h + 1) / 24 := by
    rw [seconds]
    omega
  unfold Discovery.incDataDir
  exact {
    year := (gmtime_year (by omega)).trans (by rw [day])
    month := gmtime_mon.trans (by rw [day])
    day := gmtime_mday.trans (by rw [day])
    hour := hour
    epochDay := epochDay
    dirName := (createDirNameYrMonDayHr_dirName _ _).symm }

/-- The hour is one of a day, and the date is the one of the day number. -/
structure Dated (d : DataDir) : Prop where
  hour : d.hour.toNat < 24
  date : (⟨d.year.toNat, d.month.toNat, d.day.toNat⟩ : Date) = dateOfDay d.epochDay.toNat

/-- The time at which the hour begins. -/
def seconds (d : DataDir) : Nat := 86400 * d.epochDay.toNat + 3600 * d.hour.toNat

namespace Dated

theorem onHour (dated : d.Dated) : d.OnHour (24 * d.epochDay.toNat + d.hour.toNat) := by
  obtain ⟨hour, date⟩ := dated
  have day : (24 * d.epochDay.toNat + d.hour.toNat) / 24 = d.epochDay.toNat := by omega
  obtain ⟨year, month, day⟩ := Date.mk.inj (date.trans (congrArg dateOfDay day.symm))
  exact ⟨year, month, day, by omega⟩

theorem of_consistent (consistent : d.Consistent h) : d.Dated where
  hour := by
    rw [consistent.hour]
    omega
  date := by rw [consistent.date, consistent.epochDay]

theorem createTimeFromDataDir_toNat (dated : d.Dated) (small : d.seconds < 2147483648)
    : (createTimeFromDataDir d).toNat = d.seconds := by
  rw [seconds] at small ⊢
  rw [dated.onHour.createTimeFromDataDir_toNat (by omega)]
  omega

/-- One hour further. The old name does not matter. -/
theorem incDataDir (dated : d.Dated) (small : d.seconds + 3600 < 2147483648)
    : (incDataDir d).Dated ∧ (incDataDir d).seconds = d.seconds + 3600
      ∧ (incDataDir d).dirName = createDirNameYrMonDayHr (incDataDir d) := by
  have hour := dated.hour
  have onHour := dated.onHour
  have epochDay : d.epochDay.toNat = (24 * d.epochDay.toNat + d.hour.toNat) / 24 := by omega
  have named : Consistent { d with dirName := createDirNameYrMonDayHr d }
      (24 * d.epochDay.toNat + d.hour.toNat) :=
    ⟨⟨onHour.year, onHour.month, onHour.day, onHour.hour⟩, epochDay,
      (createDirNameYrMonDayHr_dirName _ _).symm⟩
  rw [seconds] at small
  have next : (Discovery.incDataDir d).Consistent (24 * d.epochDay.toNat + d.hour.toNat + 1) := by
    have next := named.incDataDir (by omega)
    rwa [incDataDir_dirName] at next
  refine ⟨of_consistent next, ?_, next.dirName⟩
  rw [seconds, seconds, next.epochDay, next.hour]
  omega

end Dated

end DataDir

/-- Calls of `incDataDir`, one of them for example, each advance the directory by exactly one
hour, through any day, month and year.
-/
theorem incDataDir_iterate {d : DataDir} (dated : d.Dated) (k : Nat)
    (small : d.seconds + 3600 * k < 2147483648)
    : (incDataDir^[k] d).Dated
      ∧ (createTimeFromDataDir (incDataDir^[k] d)).toNat
        = (createTimeFromDataDir d).toNat + 3600 * k
      ∧ (0 < k → (incDataDir^[k] d).dirName = createDirNameYrMonDayHr (incDataDir^[k] d)) := by
  have advanced
      : (incDataDir^[k] d).Dated ∧ (incDataDir^[k] d).seconds = d.seconds + 3600 * k
        ∧ (0 < k → (incDataDir^[k] d).dirName = createDirNameYrMonDayHr (incDataDir^[k] d)) := by
    induction k with
    | zero => exact ⟨dated, rfl, fun first => absurd first (lt_irrefl 0)⟩
    | succ k ih =>
        have earlier : d.seconds + 3600 * k + 3600 < 2147483648 := by
          rwa [Nat.mul_succ, ← Nat.add_assoc] at small
        obtain ⟨dated', seconds, _⟩ := ih (lt_of_le_of_lt (Nat.le_add_right _ _) earlier)
        obtain ⟨next, later, name⟩ := dated'.incDataDir (seconds ▸ earlier)
        rw [Function.iterate_succ_apply']
        exact ⟨next, later.trans (by rw [seconds, Nat.mul_succ, Nat.add_assoc]), fun _ => name⟩
  obtain ⟨dated', seconds, name⟩ := advanced
  refine ⟨dated', ?_, name⟩
  rw [dated'.createTimeFromDataDir_toNat (by omega), dated.createTimeFromDataDir_toNat (by omega),
    seconds]

/-- From the last hour of February 1970 to the second hour of March. -/
theorem incDataDir_iterate_march
    : (incDataDir^[2] { year := 1970, month := 2, day := 28, hour := 23, epochDay := 58 }).Dated
      ∧ (createTimeFromDataDir
          (incDataDir^[2]
            { year := 1970, month := 2, day := 28, hour := 23, epochDay := 58 })).toNat
        = (createTimeFromDataDir
          { year := 1970, month := 2, day := 28, hour := 23, epochDay := 58 }).toNat + 3600 * 2
      ∧ (0 < 2 →
          (incDataDir^[2]
            { year := 1970, month := 2, day := 28, hour := 23, epochDay := 58 }).dirName
          = createDirNameYrMonDayHr
            (incDataDir^[2]
              { year := 1970, month := 2, day := 28, hour := 23, epochDay := 58 })) :=
  incDataDir_iterate ⟨by decide, by decide +kernel⟩ 2 (by decide)

end Sparcs.Discovery
