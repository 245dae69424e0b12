import Sparcs.Discovery.UpmuFtpAccess
import Sparcs.Discovery.BufferSharing
import Sparcs.Library.SerialTable
import Sparcs.Library.CallRuns
import Mathlib.Data.Finset.Max
import Mathlib.Data.List.MinMax
import Mathlib.Data.String.Basic

/-! The thread that discovers data files. What the database, the uPMU and the clock answer
comes from records of answers; a statement that fails has no effect.
-/

namespace Sparcs.Discovery

open CallRuns FuelLoop

-----------------------------------------------------------------------------------------
-- State
-----------------------------------------------------------------------------------------

/-- A row of `upmu_data_directory`; the numbers are those that `as<int>` reads. -/
structure DirectoryRow where
  year : Int32
  month : Int32
  day : Int32
  hour : Int32
  dirName : String
  state : DataDirState
  deriving DecidableEq, Repr

/-- `file_state` -/
inductive FileState where
  | abandoned
  | processing
  | released
  deriving DecidableEq, Repr

/-- A row of `upmu_data_file`. -/
structure FileRow where
  fileName : String
  directory : Nat
  state : FileState
  deriving DecidableEq, Repr

/-- What the thread has done with the uPMU, the other services and a directory's row. -/
inductive Event where
  | checked (dirName : String) (sts : Presence)
  /-- `getDataFileList`, with the names that it reads if it succeeds. -/
  | listed (dirName : String) (names : Option (Finset String))
  /-- A buffer offered under the names of the accepting services. After a failed download
  the buffer is whatever the pointer shows.
  -/
  | offered (dirName fileName : String) (data : Option (List UInt8)) (services : List String)
  /-- `release_dir_record` executed, with the set of processed files at the time. -/
  | releasedDir (dirName : String) (dataFilesProcessed : Finset String)
  /-- `incDataDir` leaves a directory. -/
  | left (dirName : String) (state : DataDirState)
  deriving DecidableEq

/-- Where the thread is. -/
inductive ServicePoint where
  | gettingDirectory
  | running
  | stopped
  deriving DecidableEq, Repr

/-- The thread's variables, the tables, and what has happened, the latest event first. -/
structure ServiceDataDiscovery where
  dataDir : DataDir := {}
  dataDirValid : Bool := false
  dataDirAccessInProgress : Bool := false
  mostRecentDataFileLength : UInt32 := 0
  dataFilesInDir : Finset String := ∅
  dataFilesProcessed : Finset String := ∅
  upmuDataDirectory : SerialTable DirectoryRow := {}
  upmuDataFile : SerialTable FileRow := {}
  /-- The names of the services and `serviceAcceptsData`. -/
  services : List (String × Bool) := []
  point : ServicePoint := .gettingDirectory
  /-- The clock when the last step was over. -/
  now : Nat := 0
  history : List Event := []

namespace ServiceDataDiscovery

/-- A service before its start, over the tables that it finds. -/
def new (upmuDataDirectory : SerialTable DirectoryRow) (upmuDataFile : SerialTable FileRow)
    (services : List (String × Bool))
    : ServiceDataDiscovery :=
  { upmuDataDirectory, upmuDataFile, services }

def acceptingServices (s : ServiceDataDiscovery) : List String :=
  (s.services.filter Prod.snd).map Prod.fst

/-- `incDataDir`, which reads the clock as its last act. -/
def stepOn (clock : Nat) (s : ServiceDataDiscovery) : ServiceDataDiscovery :=
  { s with
    dataDir := incDataDir s.dataDir
    now := clock
    history := .left s.dataDir.dirName s.dataDir.state :: s.history }

@[simp]
theorem stepOn_dataDir (clock : Nat) (s : ServiceDataDiscovery)
    : (s.stepOn clock).dataDir = incDataDir s.dataDir := by
  rw [stepOn]

theorem stepOn_state (clock : Nat) (s : ServiceDataDiscovery)
    : (s.stepOn clock).dataDir.state = .proposed := by
  rw [stepOn_dataDir, incDataDir_state]

@[simp]
theorem stepOn_dataDirValid (clock : Nat) (s : ServiceDataDiscovery)
    : (s.stepOn clock).dataDirValid = s.dataDirValid := by
  rw [stepOn]

@[simp]
theorem stepOn_upmuDataDirectory (clock : Nat) (s : ServiceDataDiscovery)
    : (s.stepOn clock).upmuDataDirectory = s.upmuDataDirectory := by
  rw [stepOn]

/-- `verifyDataDirPresent` has answered. -/
def check (sts : Presence) (s : ServiceDataDiscovery) : ServiceDataDiscovery :=
  { s with history := .checked s.dataDir.dirName sts :: s.history }

/-- The row that `add_dir_record` inserts. -/
def addDirRecord (s : ServiceDataDiscovery) : ServiceDataDiscovery :=
  { s with
    upmuDataDirectory := s.upmuDataDirectory.insert
      { year := s.dataDir.year.toInt32
        month := s.dataDir.month.toInt32
        day := s.dataDir.day.toInt32
        hour := s.dataDir.hour.toInt32
        dirName := s.dataDir.dirName
        state := .current } }

/-- `release_dir_record` and `abandon_dir_record` set the state of the directory's row. -/
def setDirRecord (state : DataDirState) (s : ServiceDataDiscovery) : ServiceDataDiscovery :=
  { s with
    upmuDataDirectory := s.upmuDataDirectory.update s.dataDir.dbID fun row => { row with state } }

-----------------------------------------------------------------------------------------
-- getCurrentDirectory
-----------------------------------------------------------------------------------------

/-- The rows whose state is `current`. -/
def currentRows (directories : SerialTable DirectoryRow) : List (Nat × DirectoryRow) :=
  directories.rows.filter fun row => row.2.state = .current

/-- `dataDir` from a row of the table, `error` where a number is out of range. -/
def readDirectory (state : DataDirState) (row : Nat × DirectoryRow) (dataDir : DataDir)
    : Except DataDir DataDir :=
  let dataDir :=
    { dataDir with
      year := row.2.year.toUInt32
      month := row.2.month.toUInt32 }
  if dataDir.month < 1 ∨ dataDir.month > 12 then .error dataDir
  else
    let dataDir := { dataDir with day := row.2.day.toUInt32 }
    if dataDir.day ≤ 0 then .error dataDir
    else
      let dataDir := { dataDir with hour := row.2.hour.toUInt32, dbID := row.1 }
      .ok { dataDir with dirName := createDirNameYrMonDayHr dataDir, state }

/-- The directory to start from: the current one, else the processed one with the highest
id, else the default.
-/
def startingDirectory (directories : SerialTable DirectoryRow) (dataDir : DataDir)
    : Except DataDir DataDir :=
  match currentRows directories with
  | [row] => readDirectory .current row dataDir
  | _ =>
      match (directories.rows.filter fun row => row.2.state = .processed).argmax Prod.fst with
      | some row => readDirectory .processed row dataDir
      | none =>
          let dataDir := { dataDir with year := 2018, month := 7, day := 5, hour := 22 }
          .ok { dataDir with dirName := createDirNameYrMonDayHr dataDir, state := .proposed }

/-- The answers to one turn of the loop that looks for the current directory. -/
structure TurnAnswers where
  /-- When `incDataDir` asks for the present, before the check and after it. -/
  firstClock : Nat := 0
  clock : Nat := 0
  verifyDataDirPresent : Presence := .dirPresent
  addDirRecord : Bool := true
  /-- The rows with state `current` are read again. -/
  selectCurrent : Bool := true
  abandonDirRecord : Bool := true

/-- The end of a turn for a directory that is not there. -/
def absentTurn (a : TurnAnswers) (s : ServiceDataDiscovery)
    : Turn ServiceDataDiscovery (DataDirStatus × ServiceDataDiscovery) :=
  if isDataDirAtPresent (s.stepOn a.clock).dataDir a.clock then
    .leave (.dataDirOk, { s.stepOn a.clock with dataDirValid := false })
  else .again (s.stepOn a.clock)

/-- The turn from the check on. -/
def checkTurn (a : TurnAnswers) (s : ServiceDataDiscovery)
    : Turn ServiceDataDiscovery (DataDirStatus × ServiceDataDiscovery) :=
  let s := s.check a.verifyDataDirPresent
  match a.verifyDataDirPresent with
  | .ftpNotResp => .leave (.dataDirOk, { s with dataDirValid := false })
  | .dirPresent =>
      if s.dataDir.state = .proposed then
        if a.addDirRecord then
          let s := s.addDirRecord
          match a.selectCurrent, currentRows s.upmuDataDirectory with
          | true, row :: _ =>
              .leave (.dataDirOk,
                { s with
                  dataDir := { s.dataDir with dbID := row.1, state := .current }
                  dataDirValid := true })
          | _, _ => .leave (.noDataDir, s)
        else .leave (.noDataDir, s)
      else .leave (.dataDirOk, { s with dataDirValid := true })
  | .dirNotPresent =>
      if s.dataDir.state = .current then
        if a.abandonDirRecord then (s.setDirRecord .abandoned).absentTurn a
        else .leave (.noDataDir, s)
      else s.absentTurn a

/-- One turn of the loop. A processed directory is left before anything is checked. -/
def walkTurn (a : TurnAnswers) (s : ServiceDataDiscovery)
    : Turn ServiceDataDiscovery (DataDirStatus × ServiceDataDiscovery) :=
  if s.dataDir.state = .processed then
    let s := s.stepOn a.firstClock
    if isDataDirAtPresent s.dataDir a.firstClock then
      .leave (.noDataDir, { s with dataDirValid := false })
    else s.checkTurn a
  else s.checkTurn a

/-- The loop for as many turns as there are answers; no status while it is not over. -/
def walk : List TurnAnswers → ServiceDataDiscovery → Option DataDirStatus × ServiceDataDiscovery
  | [], s => (none, s)
  | a :: rest, s =>
      match s.walkTurn a with
      | .again s => walk rest s
      | .leave (sts, s) => (some sts, s)

/-- The answers to `initService`. -/
structure StartAnswers where
  /-- The clock at the start. -/
  clock : Nat := 0
  dbConn : Bool := true
  selectDirectory : Bool := true
  turns : List TurnAnswers := []
  searchDataRecord : Bool := true

/-- The state before the first turn. -/
def beginWalk (dataDir : DataDir) (s : ServiceDataDiscovery) : ServiceDataDiscovery :=
  let et := createTimeFromDataDir dataDir
  { s with
    dataDir := { dataDir with epochDay := et / 86400 }
    dataDirValid := false }

/-- `getCurrentDirectory` -/
def getCurrentDirectory (a : StartAnswers) (s : ServiceDataDiscovery)
    : Option DataDirStatus × ServiceDataDiscovery :=
  if a.selectDirectory then
    match startingDirectory s.upmuDataDirectory s.dataDir with
    | .error dataDir => (some .dataDirError, { s with dataDir })
    | .ok dataDir => walk a.turns (s.beginWalk dataDir)
  else (some .noDataDir, s)

/-- `getCurrentDataFileSet` -/
def getCurrentDataFileSet (searchDataRecord : Bool) (s : ServiceDataDiscovery)
    : DataDirStatus × ServiceDataDiscovery :=
  let r := s.upmuDataFile.rows.filter fun row => row.2.directory = s.dataDir.dbID
  if searchDataRecord then
    if r.isEmpty then (.dataDirOk, { s with dataDirAccessInProgress := false })
    else
      let dealtWith := r.filter fun row =>
        row.2.state = .abandoned ∨ row.2.state = .released
      (.dataDirOk,
        { s with
          dataDirAccessInProgress := true
          dataFilesInDir := ∅
          dataFilesProcessed := (dealtWith.map fun row => row.2.fileName).toFinset })
  else (.dataDirError, s)

/-- What `initService` sets before it looks for the directory. -/
def beginService (clock : Nat) (s : ServiceDataDiscovery) : ServiceDataDiscovery :=
  { s with mostRecentDataFileLength := 0, dataDir := {}, now := clock }

/-- What follows the search for the directory. -/
def endService (searchDataRecord : Bool)
    : Option DataDirStatus × ServiceDataDiscovery → ServiceDataDiscovery
  | (none, s) => s
  | (some .dataDirOk, s) =>
      match s.getCurrentDataFileSet searchDataRecord with
      | (.dataDirOk, s) => { s with point := .running }
      | (_, s) => { s with point := .stopped }
  | (some _, s) => { s with point := .stopped }

/-- `initService`; where it returns false, the thread ends. -/
def initService (a : StartAnswers) (s : ServiceDataDiscovery) : ServiceDataDiscovery :=
  if a.dbConn then
    endService a.searchDataRecord (getCurrentDirectory a (s.beginService a.clock))
  else { s with point := .stopped }

-----------------------------------------------------------------------------------------
-- processUPMUdata
-----------------------------------------------------------------------------------------

/-- The answers to a call of `processUPMUdata`. -/
structure CallAnswers where
  getDataFileList : Option (Finset String) := none
  sharedInMemDataBufferCnt : UInt32 := 0
  /-- When `dataFileComplete` reads the clock. -/
  completeClock : Nat := 0
  /-- `(unsigned int)fileLength`, if `getDataFileLength` succeeds. -/
  getDataFileLength : Option UInt32 := none
  addDataRecord : Bool := true
  getDataRecordKey : Bool := true
  getDataFile : Option (List UInt8) := none
  releaseDataRecord : Bool := true
  /-- When the age of the directory is taken. -/
  ageClock : Nat := 0
  releaseDirRecord : Bool := true
  /-- When `isDataDirAtPresent` reads the clock. -/
  presentClock : Nat := 0
  verifyDataDirPresent : Presence := .dirPresent
  addDirRecord : Bool := true
  getDirRecordKey : Bool := true

/-- The first call for a directory clears the sets. -/
def enterDataDir (s : ServiceDataDiscovery) : ServiceDataDiscovery :=
  if s.dataDirAccessInProgress then s
  else
    { s with
      dataDirAccessInProgress := true
      dataFilesInDir := ∅
      dataFilesProcessed := ∅ }

/-- `getDataFileList` adds the names that are not processed. -/
def listDataFiles (names : Option (Finset String)) (s : ServiceDataDiscovery)
    : ServiceDataDiscovery :=
  { s with
    dataFilesInDir := s.dataFilesInDir ∪ names.getD ∅ \ s.dataFilesProcessed
    history := .listed s.dataDir.dirName names :: s.history }

/-- The call up to the point where `dataFilesInDir` has been filled. -/
def scanDataDir (a : CallAnswers) (s : ServiceDataDiscovery) : ServiceDataDiscovery :=
  let s := s.enterDataDir
  if s.dataFilesInDir = ∅ then s.listDataFiles a.getDataFileList else s

/-- `dataFileComplete`, `none` where an exception leaves it. -/
def dataFileComplete (a : CallAnswers) (dataFile : String) (s : ServiceDataDiscovery)
    : Option Bool :=
  (createTimeFromDataFileName dataFile).map fun dft =>
    if UInt32.ofNat a.completeClock - dft > 200 then true
    else
      match a.getDataFileLength with
      | none => false
      | some fileSize => ¬fileSize < s.mostRecentDataFileLength

/-- The file that the call takes out of the set. An exception ends the thread. -/
def nextDataFile (a : CallAnswers) (s : ServiceDataDiscovery)
    : Except ServiceDataDiscovery (Option String) :=
  if files : s.dataFilesInDir.Nonempty then
    if a.sharedInMemDataBufferCnt ≤ maxOutstandingMemBuf then
      let dataFile := s.dataFilesInDir.min' files
      match s.dataFileComplete a dataFile with
      | none => .error { s with point := .stopped }
      | some true => .ok (some dataFile)
      | some false => .ok none
    else .ok none
  else .ok none

/-- The file is moved from one set to the other. -/
def takeDataFile (dataFile : String) (s : ServiceDataDiscovery) : ServiceDataDiscovery :=
  { s with
    dataFilesProcessed := insert dataFile s.dataFilesProcessed
    dataFilesInDir := s.dataFilesInDir.erase dataFile }

/-- The row that `add_data_record` inserts. -/
def addDataRecord (dataFile : String) (s : ServiceDataDiscovery) : ServiceDataDiscovery :=
  { s with
    upmuDataFile := s.upmuDataFile.insert
      { fileName := dataFile, directory := s.dataDir.dbID, state := .processing } }

/-- `getDataFile` and `postProcessUPMUdata`. The error code of a failed download is taken for
a length.
-/
def offerDataFile (dataFile : String) (data : Option (List UInt8)) (s : ServiceDataDiscovery)
    : ServiceDataDiscovery :=
  { s with
    mostRecentDataFileLength := match data with
      | some bytes => UInt32.ofNat bytes.length
      | none => -1
    history := .offered s.dataDir.dirName dataFile data s.acceptingServices :: s.history }

/-- `release_data_record` of the row with an id. -/
def releaseDataRecord (dataRecordID : Nat) (s : ServiceDataDiscovery) : ServiceDataDiscovery :=
  { s with
    upmuDataFile := s.upmuDataFile.update dataRecordID fun row =>
      { row with state := .released } }

/-- What is done with a file that is taken. -/
def processDataFile (a : CallAnswers) (dataFile : String) (s : ServiceDataDiscovery)
    : Except ServiceDataDiscovery ServiceDataDiscovery := do
  let s := s.takeDataFile dataFile
  orReturn a.addDataRecord s
  let s := s.addDataRecord dataFile
  orReturn a.getDataRecordKey s
  let dataRecordID := s.upmuDataFile.last
  let s := s.offerDataFile dataFile a.getDataFile
  orReturn a.releaseDataRecord s
  .ok (s.releaseDataRecord dataRecordID)

/-- A directory without files to process is given up one hour after it began. -/
def giveUpDataDir (a : CallAnswers) (s : ServiceDataDiscovery) : ServiceDataDiscovery :=
  if s.dataFilesInDir = ∅
      ∧ UInt32.ofNat a.ageClock - createTimeFromDataDir s.dataDir > 60 * 60 then
    { s with dataDirValid := false, dataDirAccessInProgress := false }
  else s

/-- The part of the call for the data files. -/
def processNextFile (a : CallAnswers) (s : ServiceDataDiscovery)
    : Except ServiceDataDiscovery ServiceDataDiscovery := do
  match ← s.nextDataFile a with
  | some dataFile => s.processDataFile a dataFile
  | none => .ok s

/-- The part of the call for a valid directory. -/
def processDataDir (a : CallAnswers) (s : ServiceDataDiscovery)
    : Except ServiceDataDiscovery ServiceDataDiscovery :=
  if s.dataDirValid then do
    let s ← (s.scanDataDir a).processNextFile a
    .ok (s.giveUpDataDir a)
  else .ok s

/-- A current directory is closed. -/
def releaseDataDir (a : CallAnswers) (s : ServiceDataDiscovery)
    : Except ServiceDataDiscovery ServiceDataDiscovery := do
  if s.dataDir.state = .current then
    let s :=
      { s with history := .releasedDir s.dataDir.dirName s.dataFilesProcessed :: s.history }
    orReturn a.releaseDirRecord s
    let s := s.setDirRecord .processed
    .ok
      { s with
        dataDir := { s.dataDir with state := .unknown }
        dataDirAccessInProgress := false }
  else .ok s

/-- `addCurrentDirectoryRecord` keeps its exceptions to itself. -/
def addCurrentDirectoryRecord (a : CallAnswers) (s : ServiceDataDiscovery)
    : ServiceDataDiscovery :=
  if a.addDirRecord then
    let s := s.addDirRecord
    if a.getDirRecordKey then
      { s with dataDir := { s.dataDir with dbID := s.upmuDataDirectory.last } }
    else s
  else s

/-- To the next directory, unless this is the present one, and whether it is there. -/
def nextDataDir (a : CallAnswers) (s : ServiceDataDiscovery) : ServiceDataDiscovery :=
  let s := if isDataDirAtPresent s.dataDir a.presentClock then s else s.stepOn a.presentClock
  let s := s.check a.verifyDataDirPresent
  if a.verifyDataDirPresent = .dirPresent then
    let s := s.addCurrentDirectoryRecord a
    { s with dataDir := { s.dataDir with state := .current }, dataDirValid := true }
  else s

/-- The part of the call for a directory that is not valid, or no longer. -/
def leaveDataDir (a : CallAnswers) (s : ServiceDataDiscovery)
    : Except ServiceDataDiscovery ServiceDataDiscovery :=
  if s.dataDirValid then .ok s
  else do
    let s ← s.releaseDataDir a
    .ok (s.nextDataDir a)

/-- The body of `processUPMUdata`. -/
def processBody (a : CallAnswers) (s : ServiceDataDiscovery)
    : Except ServiceDataDiscovery ServiceDataDiscovery := do
  let s ← s.processDataDir a
  s.leaveDataDir a

/-- `processUPMUdata`, as long as the thread runs. -/
def processUPMUdata (a : CallAnswers) (s : ServiceDataDiscovery) : ServiceDataDiscovery :=
  if s.point = .running then { leaves (s.processBody a) with now := a.presentClock } else s

/-- `initService` and any number of calls of `processUPMUdata`. -/
def service (start : StartAnswers) (calls : List CallAnswers) (s : ServiceDataDiscovery)
    : ServiceDataDiscovery :=
  run processUPMUdata calls (s.initService start)

/-- A table with one current directory. -/
def oneDataDir : SerialTable DirectoryRow :=
  SerialTable.insert {}
    { year := 1970
      month := 1
      day := 2
      hour := 3
      dirName := "/upmu_data/1970/Month_01/Day_02/Hour_03/"
      state := .current }

/-- A directory in which one file is to be taken. -/
def oneDataFile : ServiceDataDiscovery :=
  { dataDir := { year := 1970, month := 1, day := 1, dirName := "/upmu_data/1970/" }
    dataDirValid := true
    dataDirAccessInProgress := true
    dataFilesInDir := {"upmu_1970-01-01-00-10-00.dat"}
    services := [("serviceDataArchiver", true)]
    point := .running }

end ServiceDataDiscovery

end Sparcs.Discovery
