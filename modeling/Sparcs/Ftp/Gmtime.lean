import Mathlib.Data.List.Basic

/-! The calendar time of a uPMU as seconds since 1970, in the `int` arithmetic of the code:
overflow wraps around, quotients are rounded towards zero.
-/

namespace Sparcs.Ftp

/-- `struct tm`, as far as it is used. -/
structure Tm where
  sec : Int32
  min : Int32
  hour : Int32
  mday : Int32
  mon : Int32
  year : Int32
  deriving DecidableEq, Repr

/-- The days before each month of a year without a leap day. -/
def monthDay : List Int32 := [0, 31, 59, 90, 120, 151, 181, 212, 243, 273, 304, 334]

/-- The `int` arithmetic of `_mkgmtime` for a month in range. -/
def mkgmtimeInt (tm : Tm) (month year : Int32) : Int32 :=
  let yearForLeap := if month > 1 then year + 1 else year
  tm.sec
    + 60 * (tm.min
      + 60 * (tm.hour
        + 24 * (monthDay.getD month.toNatClampNeg 0 + tm.mday - 1
          + 365 * (year - 70)
          + (yearForLeap - 69) / 4
          - (yearForLeap - 1) / 100
          + (yearForLeap + 299) / 400)))

/-- `_mkgmtime` -/
def mkgmtime (tm : Tm) : Int64 :=
  let month := tm.mon % 12
  let year := tm.year + tm.mon / 12
  -- Negative values % 12 are still negative.
  let rt := if month < 0 then mkgmtimeInt tm (month + 12) (year - 1) else mkgmtimeInt tm month year
  if rt.toInt64 < 0 then -1 else rt.toInt64

end Sparcs.Ftp
