import Sparcs.Ftp.Archivers

/-! The query by which the server reads archived seconds, and the rows that it selects. -/

namespace Sparcs.Query

open SignedArithmetic

theorem toInt_succ {i dayend : Int32} (before : i < dayend)
    : (i + 1).toInt = i.toInt + 1 := by
  have before := Int32.lt_iff_toInt_lt.mp before
  have lower := i.le_toInt
  have upper := dayend.toInt_lt
  exact toInt_add32 ⟨by simp; omega, by simp; omega⟩

/-- The numbers `i + 1` that the loop over the days appends. -/
def daysAfter (i dayend : Int32) : List Int32 :=
  if before : i < dayend then
    (i + 1) :: daysAfter (i + 1) dayend
  else
    []
termination_by (dayend.toInt - i.toInt).toNat
decreasing_by
  have next := toInt_succ before
  have before := Int32.lt_iff_toInt_lt.mp before
  omega

/-- What the query is made of besides the texts of the request, and the number that its end is. -/
structure ServerQuery where
  daystart : Int32
  /-- The days that the loop appends. -/
  laterDays : List Int32
  timestampstart : UInt64
  timestampend : UInt64

/-- `tmp` and `tmp2` are the numbers that the request holds. -/
def serverQuery (tmp tmp2 : UInt64) : ServerQuery :=
  let daystart := ((tmp - 999) / 86400000).toUInt32.toInt32
  let dayend := (tmp2 / 86400000).toUInt32.toInt32
  { daystart
    laterDays := daysAfter daystart dayend
    timestampstart := tmp - 999
    timestampend := tmp2 }

def ServerQuery.days (q : ServerQuery) : List Int32 := q.daystart :: q.laterDays

/-- The days as they are written into the query. -/
def ServerQuery.day (q : ServerQuery) : String :=
  q.laterDays.foldl (fun day next => day ++ ("," ++ toString next)) (toString q.daystart)

/-- `querystr` for a device. The end stands in it as it is written in the request. -/
def ServerQuery.querystr (q : ServerQuery) (timestampend device : String) : String :=
  "SELECT * FROM upmu_devel.upmu_data WHERE device =  '" ++ device ++ "'  AND day in ("
    ++ q.day ++ ") AND timestamp_msec >= " ++ toString q.timestampstart
    ++ " AND timestamp_msec < " ++ timestampend ++ " ALLOW FILTERING"

/-- The text lists the days between commas. -/
theorem ServerQuery.day_eq (q : ServerQuery)
    : q.day = ",".intercalate (q.days.map toString) := by
  rw [ServerQuery.day, ServerQuery.days, List.map_cons]
  generalize toString q.daystart = written
  induction q.laterDays generalizing written with
  | nil => simp
  | cons next rest ih =>
      rw [List.foldl_cons, ih, List.map_cons, String.intercalate_cons_cons,
        ← String.intercalate_cons_append, String.append_assoc]

/-- The columns of an archived row that the query compares. -/
structure Row where
  timestampMsec : Int64
  day : Int64
  deriving DecidableEq, Repr

/-- The database finds the row. -/
def ServerQuery.Selects (q : ServerQuery) (row : Row) : Prop :=
  row.day.toInt ∈ q.days.map Int32.toInt
  ∧ (q.timestampstart.toNat : Int) ≤ row.timestampMsec.toInt
  ∧ row.timestampMsec.toInt < q.timestampend.toNat

/-- The row of second `e`. -/
structure Row.IsSecond (row : Row) (e : Int) : Prop where
  timestampMsec : row.timestampMsec.toInt = 1000 * e
  day : row.day.toInt = e.tdiv 86400

/-- What the archiver for C37 buffers writes. -/
def c37Row (dataBuffer : Blocks.Block) : Row :=
  let secData := Archiver.ServiceDataArchiver.readData dataBuffer
  let row := Archiver.ServiceDataArchiver.cassandraDataArchive secData.epochTimeMsec
    secData.epochDay
  { timestampMsec := row.timestampMsec, day := row.day }

/-- What the archiver of the FTP gateway writes. -/
def ftpRow (secPtr : Ftp.SyncOutput) : Row :=
  let row := Ftp.ServiceDataArchiver.archiveSecond secPtr
  { timestampMsec := row.timestampMsec, day := row.day }

theorem c37Row_isSecond (dataBuffer : Blocks.Block)
    : (c37Row dataBuffer).IsSecond
        (Archiver.ServiceDataArchiver.readData dataBuffer).epochTime.toNat := by
  obtain ⟨msec, day⟩ := Archiver.ServiceDataArchiver.cassandraDataArchive_readData dataBuffer
  refine ⟨msec, day.trans ?_⟩
  rw [Int.tdiv_eq_ediv_of_nonneg (by omega)]

/-- The times that `_mkgmtime` returns are `int` values that are not below -1. -/
theorem mkgmtime_bounds (tm : Ftp.Tm)
    : -1 ≤ (Ftp.mkgmtime tm).toInt ∧ (Ftp.mkgmtime tm).toInt < 2147483648 := by
  have bounds (rt : Int32) (notNegative : ¬rt.toInt64 < 0)
      : 0 ≤ rt.toInt64.toInt ∧ rt.toInt64.toInt < 2147483648 := by
    rw [Int64.lt_iff_toInt_lt] at notNegative
    rw [Int32.toInt_toInt64] at notNegative ⊢
    exact ⟨by simpa using notNegative, rt.toInt_lt⟩
  have result (rt : Int32)
      : -1 ≤ (if rt.toInt64 < 0 then -1 else rt.toInt64).toInt
        ∧ (if rt.toInt64 < 0 then -1 else rt.toInt64).toInt < 2147483648 := by
    split_ifs with negative
    · decide
    · obtain ⟨lower, upper⟩ := bounds rt negative
      exact ⟨by omega, upper⟩
  exact result _

theorem ftpRow_isSecond (secPtr : Ftp.SyncOutput)
    : (ftpRow secPtr).IsSecond (Ftp.mkgmtime secPtr.tm).toInt := by
  obtain ⟨lower, upper⟩ := mkgmtime_bounds secPtr.tm
  constructor
  · change ((Ftp.mkgmtime secPtr.tm).toUInt64 * 1000).toInt64.toInt = _
    rw [UInt64.toInt64_mul, Int64.toInt64_toUInt64, toInt_mul64]
    · simp [mul_comm]
    · simp; omega
    · simp; omega
  · change (Ftp.mkgmtime secPtr.tm / 86400).toUInt64.toInt64.toInt = _
    rw [Int64.toInt64_toUInt64, Int64.toInt_div_of_ne_right _ _ (by decide)]
    rfl

/-- The loop appends the days up to the last one, by induction over its turns. -/
theorem mem_daysAfter (i dayend : Int32) (x : Int)
    : x ∈ (daysAfter i dayend).map Int32.toInt ↔ i.toInt < x ∧ x ≤ dayend.toInt := by
  fun_induction daysAfter i dayend with
  | case1 i before ih =>
      have next := toInt_succ before
      have before := Int32.lt_iff_toInt_lt.mp before
      rw [List.map_cons, List.mem_cons, ih, next]
      omega
  | case2 i before =>
      rw [Int32.lt_iff_toInt_lt] at before
      simp
      omega

/-- A day number that an `int` holds. -/
theorem toInt_day {msec : UInt64} (small : msec.toNat < 2147483648 * 86400000)
    : (msec / 86400000).toUInt32.toInt32.toInt = msec.toNat / 86400000 := by
  have day : (msec / 86400000).toNat = msec.toNat / 86400000 := UInt64.toNat_div _ _
  have word : (msec / 86400000).toUInt32.toNat = msec.toNat / 86400000 := by
    rw [UInt64.toNat_toUInt32, day]
    omega
  rw [toInt_toInt32 (by omega), word]
  rfl

/-- The day numbers of the list. -/
theorem mem_days {tmp tmp2 : UInt64} (early : 999 ≤ tmp) (ordered : tmp ≤ tmp2)
    (late : tmp2.toNat < 2147483648 * 86400000) (x : Int)
    : x ∈ (serverQuery tmp tmp2).days.map Int32.toInt
      ↔ ((tmp - 999).toNat : Int) / 86400000 ≤ x ∧ x ≤ tmp2.toNat / 86400000 := by
  have shifted : (tmp - 999).toNat = tmp.toNat - 999 := UInt64.toNat_sub_of_le _ _ early
  rw [UInt64.le_iff_toNat_le] at ordered
  have first : ((tmp - 999) / 86400000).toUInt32.toInt32.toInt = _ := toInt_day (by omega)
  have last := toInt_day late
  rw [ServerQuery.days, List.map_cons, List.mem_cons, serverQuery, mem_daysAfter, first, last]
  omega

/-- For every interval, the query selects every archived second that overlaps it, as both
archivers write it, and lists no day outside.
-/
theorem serverQuery_selects (tmp tmp2 : UInt64) (early : 999 ≤ tmp) (ordered : tmp ≤ tmp2)
    (late : tmp2.toNat < 2147483648 * 86400000)
    : (∀ (row : Row) (e : Int), row.IsSecond e →
        1000 * e < tmp2.toNat → (tmp.toNat : Int) < 1000 * e + 1000 →
        (serverQuery tmp tmp2).Selects row)
      ∧ (∀ dataBuffer, (c37Row dataBuffer).IsSecond
          (Archiver.ServiceDataArchiver.readData dataBuffer).epochTime.toNat)
      ∧ (∀ secPtr, (ftpRow secPtr).IsSecond (Ftp.mkgmtime secPtr.tm).toInt)
      ∧ ∀ day ∈ (serverQuery tmp tmp2).days,
          (tmp - 999).toNat / 86400000 ≤ day.toInt ∧ day.toInt ≤ tmp2.toNat / 86400000 := by
  have shifted : (tmp - 999).toNat = tmp.toNat - 999 := UInt64.toNat_sub_of_le _ _ early
  have shift : 999 ≤ tmp.toNat := UInt64.le_iff_toNat_le.mp early
  refine ⟨?_, c37Row_isSecond, ftpRow_isSecond, ?_⟩
  · intro row e second ends begins
    refine ⟨?_, ?_, ?_⟩
    · rw [mem_days early ordered late, second.day, Int.tdiv_eq_ediv_of_nonneg (by omega)]
      omega
    · rw [second.timestampMsec]
      change ((tmp - 999).toNat : Int) ≤ _
      omega
    · rw [second.timestampMsec]
      exact ends
  · intro day member
    exact (mem_days early ordered late day.toInt).mp (List.mem_map_of_mem member)

/-- An interval that ends inside the first second of a day. -/
theorem serverQuery_selects_midnight
    : (serverQuery 86398500 86400500).Selects { timestampMsec := 86400000, day := 1 } :=
  (serverQuery_selects 86398500 86400500 (by decide) (by decide) (by decide)).1 _ 86400
    ⟨by decide, by decide⟩ (by decide) (by decide)

end Sparcs.Query
