import Sparcs.Ftp.UnixTime
import Sparcs.Library.NumberText
import Sparcs.Library.TextSearch

/-! The hour directories of a uPMU and its data files: their names, their times, and the
step from one hour to the next.
-/

namespace Sparcs.Discovery

open Ftp (Tm gmtime mkgmtime)
open NumberText (stoi)
open TextSearch (firstFrom)

/-- `DATA_DIR_STATE` -/
inductive DataDirState where
  | current
  | proposed
  | abandoned
  | processed
  | unknown
  deriving DecidableEq, Repr

/-- `DATA_DIR`; a new one is filled with zeros. -/
structure DataDir where
  year : UInt32 := 0
  month : UInt32 := 0
  day : UInt32 := 0
  hour : UInt32 := 0
  dirName : String := ""
  epochDay : UInt32 := 0
  dbID : Nat := 0
  state : DataDirState := .current
  deriving DecidableEq, Repr

/-- What `verifyDataDirPresent` answers. -/
inductive Presence where
  | dirPresent
  | dirNotPresent
  | ftpNotResp
  deriving DecidableEq, Repr

/-- What `getCurrentDirectory` and `getCurrentDataFileSet` return. -/
inductive DataDirStatus where
  | dataDirOk
  | dataDirError
  | noDataDir
  deriving DecidableEq, Repr

/-- A number written through `std::setw` and `std::setfill`. -/
def setw (width : Nat) (fill : Char) (n : UInt32) : List Char :=
  (Nat.toDigits 10 n.toNat).leftpad width fill

/-- `createDirName_YrMonDayHr`, under `DIRECTORY_PREFIX`. The fill character is a blank until
it is set for the month.
-/
def createDirNameYrMonDayHr (dd : DataDir) : String :=
  .ofList ("/upmu_data/".toList ++ setw 4 ' ' dd.year
    ++ "/Month_".toList ++ setw 2 '0' dd.month
    ++ "/Day_".toList ++ setw 2 '0' dd.day
    ++ "/Hour_".toList ++ setw 2 '0' dd.hour ++ "/".toList)

/-- The name does not depend on the name before. -/
theorem createDirNameYrMonDayHr_dirName (dd : DataDir) (dirName : String)
    : createDirNameYrMonDayHr { dd with dirName } = createDirNameYrMonDayHr dd := rfl

/-- `createTimeFromDataDir` -/
def createTimeFromDataDir (dataDir : DataDir) : UInt32 :=
  (mkgmtime
    { sec := 0
      min := 0
      hour := dataDir.hour.toInt32
      mday := dataDir.day.toInt32
      mon := (dataDir.month - 1).toInt32
      year := (dataDir.year - 1900).toInt32 }).toUInt64.toUInt32

/-- `std::string::erase` of a position and a number of characters. -/
def erase (text : List Char) (position count : Nat) : List Char :=
  text.take position ++ text.drop (position + count)

/-- `createTimeFromDataFileName`, `none` where an exception leaves it or a token is read that
is not there. The characters stand for the bytes of the name.
-/
def createTimeFromDataFileName (dataFileName : String) : Option UInt32 :=
  let name := dataFileName.toList
  -- Without an underscore the position after `npos` is 0, and nothing is erased.
  let name := match firstFrom ['_'] name 0 with
    | some n => erase name 0 (n + 1)
    | none => name
  match firstFrom ".dat".toList name 0 with
  | none => none
  | some n =>
      let name := erase name n (name.length - 1)
      let tokens := (name.splitOn '-').filter fun token => !token.isEmpty
      match (tokens.take 6).mapM fun token => (stoi token).toOption with
      | some [year, mon, mday, hour, min, sec] =>
          some (mkgmtime
            { sec
              min
              hour
              mday
              mon := mon - 1
              year := year - 1900 }).toUInt64.toUInt32
      | _ => none

/-- `isDataDirAtPresent` answers `DATA_DIR_AT_PRESENT`. -/
@[irreducible]
def isDataDirAtPresent (dataDir : DataDir) (rawtime : Nat) : Bool :=
  let t := gmtime rawtime
  dataDir.year = (t.year + 1900).toUInt32
    && dataDir.month = (t.mon + 1).toUInt32
    && dataDir.day = t.mday.toUInt32
    && dataDir.hour = t.hour.toUInt32

@[simp]
theorem isDataDirAtPresent_state (dataDir : DataDir) (state : DataDirState) (rawtime : Nat)
    : isDataDirAtPresent { dataDir with state } rawtime
      = isDataDirAtPresent dataDir rawtime := by
  unfold isDataDirAtPresent
  rfl

/-- What `incDataDir` does before it asks `isDataDirAtPresent`. -/
@[irreducible]
def incDataDir (dataDir : DataDir) : DataDir :=
  let hour := (dataDir.hour + 1) % 24
  let epochDay := if hour = 0 then dataDir.epochDay + 1 else dataDir.epochDay
  -- The product is one of unsigned ints.
  let et := (epochDay * 86400).toNat
  let t := gmtime et
  let dataDir :=
    { dataDir with
      hour
      epochDay
      year := (t.year + 1900).toUInt32
      month := (t.mon + 1).toUInt32
      day := t.mday.toUInt32
      state := .proposed }
  { dataDir with dirName := createDirNameYrMonDayHr dataDir }

@[simp]
theorem incDataDir_state (dataDir : DataDir) : (incDataDir dataDir).state = .proposed := by
  unfold incDataDir
  rfl

theorem incDataDir_dirName (dataDir : DataDir) (dirName : String)
    : incDataDir { dataDir with dirName } = incDataDir dataDir := by
  unfold incDataDir
  rfl

example : createDirNameYrMonDayHr { year := 2018, month := 7, day := 5, hour := 22 }
    = "/upmu_data/2018/Month_07/Day_05/Hour_22/" := by
  decide

end Sparcs.Discovery
