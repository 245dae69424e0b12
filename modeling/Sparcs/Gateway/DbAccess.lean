import Sparcs.Library.Loop
import Sparcs.Library.LockedCalls
import Sparcs.Discovery.UpmuFtpAccess

/-! The functions that take the lock on the database connection themselves. A statement, a
commit and the reading of a field throw where their answers say so.
-/

namespace Sparcs.Gateway

open Discovery FuelLoop
open Locked

/-- The answers to one statement in a transaction of its own. -/
structure Statement (α : Type) where
  opens : Bool := true
  /-- `none` where the statement throws. -/
  exec : Option α
  commits : Bool := true

/-- The transaction is opened, the statement executed and committed. -/
def Statement.run {α : Type} (statement : Statement α) : Locked α := do
  throwUnless statement.opens
  let r ← call statement.exec
  throwUnless statement.commits
  return r

def Statement.Succeeds {α : Type} (statement : Statement α) : Prop :=
  statement.opens = true ∧ statement.exec.isSome = true ∧ statement.commits = true

/-- The fields of a row of `upmu_data_directory`, `none` where reading one throws. -/
structure DirectoryFields where
  year : Option Int32
  month : Option Int32
  day : Option Int32
  hour : Option Int32
  id : Option Nat

/-- The answers to one turn of the loop. -/
structure DirectoryTurn where
  /-- When `incDataDir` asks for the present, before the check and after it. -/
  firstClock : Nat := 0
  clock : Nat := 0
  verifyDataDirPresent : Presence := .dirPresent
  addDirRecord : Statement Unit := { exec := some () }
  selectCurrent : Statement (List DirectoryFields) := { exec := some [] }
  abandonDirRecord : Statement Unit := { exec := some () }

/-- The answers to `getCurrentDirectory`. -/
structure DirectoryAnswers where
  opens : Bool := true
  selectCurrent : Option (List DirectoryFields)
  selectProcessed : Option (List DirectoryFields) := none
  commits : Bool := true
  turns : List DirectoryTurn := []

/-- The end of the first transaction. -/
def closeTransaction (commits : Bool) : Locked Unit := do
  throwUnless commits
  release

/-- `dataDir` from a row; where a number is out of range, the transaction is closed. -/
def readDataDir (commits : Bool) (state : DataDirState) (row : DirectoryFields)
    (dataDir : DataDir)
    : Locked (Option DataDir) := do
  let year ← call row.year
  let month ← call row.month
  if month.toUInt32 < 1 ∨ month.toUInt32 > 12 then
    closeTransaction commits
    return none
  else
    let day ← call row.day
    if day.toUInt32 ≤ 0 then
      closeTransaction commits
      return none
    else
      let hour ← call row.hour
      let id ← call row.id
      let dataDir :=
        { dataDir with
          year := year.toUInt32
          month := month.toUInt32
          day := day.toUInt32
          hour := hour.toUInt32
          dbID := id }
      closeTransaction commits
      return some { dataDir with dirName := createDirNameYrMonDayHr dataDir, state }

/-- The directory to start from, with `none` for `DATA_DIR_ERROR`. -/
def selectDataDir (a : DirectoryAnswers) (dataDir : DataDir) : Locked (Option DataDir) := do
  acquire
  throwUnless a.opens
  match ← call a.selectCurrent with
  | [row] => readDataDir a.commits .current row dataDir
  | _ =>
      match ← call a.selectProcessed with
      | [row] => readDataDir a.commits .processed row dataDir
      | _ =>
          let dataDir := { dataDir with year := 2018, month := 7, day := 5, hour := 22 }
          closeTransaction a.commits
          return some
            { dataDir with dirName := createDirNameYrMonDayHr dataDir, state := .proposed }

/-- A proposed directory becomes the current one. Without a row there is no `id` to read. -/
def addDataDir (a : DirectoryTurn) : Locked Unit := do
  acquire
  a.addDirRecord.run
  let r ← a.selectCurrent.run
  let _ ← call (r.head?.bind DirectoryFields.id)
  release

/-- A current directory that is not there is given up. -/
def abandonDataDir (a : DirectoryTurn) : Locked Unit := do
  acquire
  a.abandonDirRecord.run
  release

/-- To the next directory, unless that is the present one. -/
def leaveDataDir (a : DirectoryTurn) (dataDir : DataDir) : Turn DataDir DataDirStatus :=
  let dataDir := incDataDir dataDir
  if isDataDirAtPresent dataDir a.clock then .leave .dataDirOk else .again dataDir

/-- The turn from the check on. -/
def checkDataDir (a : DirectoryTurn) (dataDir : DataDir) : Locked (Turn DataDir DataDirStatus) :=
  match a.verifyDataDirPresent with
  | .ftpNotResp => return .leave .dataDirOk
  | .dirPresent => do
      if dataDir.state = .proposed then addDataDir a
      return .leave .dataDirOk
  | .dirNotPresent => do
      if dataDir.state = .current then abandonDataDir a
      return leaveDataDir a dataDir

def directoryTurn (a : DirectoryTurn) (dataDir : DataDir) : Locked (Turn DataDir DataDirStatus) :=
  if dataDir.state = .processed then
    let dataDir := incDataDir dataDir
    if isDataDirAtPresent dataDir a.firstClock then return .leave .noDataDir
    else checkDataDir a dataDir
  else checkDataDir a dataDir

/-- The loop for as many turns as there are answers; no status while it is not over. -/
def directoryLoop : List DirectoryTurn → DataDir → Locked (Option DataDirStatus)
  | [], _ => return none
  | a :: rest, dataDir => do
      match ← directoryTurn a dataDir with
      | .again dataDir => directoryLoop rest dataDir
      | .leave sts => return some sts

/-- The body of the `try` block. -/
def findDirectory (a : DirectoryAnswers) (dataDir : DataDir) : Locked (Option DataDirStatus) := do
  match ← selectDataDir a dataDir with
  | none => return some .dataDirError
  | some dataDir =>
      let et := createTimeFromDataDir dataDir
      directoryLoop a.turns { dataDir with epochDay := et / 86400 }

/-- `getCurrentDirectory` -/
def getCurrentDirectory (a : DirectoryAnswers) (dataDir : DataDir)
    : Locked (Option DataDirStatus) :=
  catching (findDirectory a dataDir) (return some .noDataDir)

/-- The fields of a row of `upmu_data_file`. -/
structure FileFields where
  state : Option String
  fileName : Option String

/-- The loop over the rows: the names of the files that have been dealt with. -/
def readProcessed : List FileFields → Locked (List String)
  | [] => return []
  | row :: rows => do
      let s ← call row.state
      if s = "abandoned" ∨ s = "released" then
        let t ← call row.fileName
        return t :: (← readProcessed rows)
      else readProcessed rows

/-- `getCurrentDataFileSet`, with the names that it puts into `dataFilesProcessed`. Its
handler gives the lock back.
-/
def getCurrentDataFileSet (search : Statement (List FileFields))
    : Locked (DataDirStatus × Option (List String)) :=
  catching
    (do
      acquire
      let r ← search.run
      if r.isEmpty then
        release
        return (.dataDirOk, none)
      else
        let dataFilesProcessed ← readProcessed r
        release
        return (.dataDirOk, some dataFilesProcessed))
    (do
      release
      return (.dataDirError, none))

/-- A configuration row is read under the lock. For a missing row there is no result, which
the callers return on early, and the lock is kept.
-/
def selectOneRow {ρ γ : Type} (opens : Bool) (select : Option (List ρ)) (read : ρ → Option γ)
    (commits : Bool)
    : Locked (Option γ) := do
  acquire
  throwUnless opens
  match ← call select with
  | [row] =>
      let config ← call (read row)
      throwUnless commits
      release
      return some config
  | _ => return none

/-- The fields of a row of the table `cassandra`. -/
structure CassandraFields where
  keyspace : Option String
  dataTable : Option String
  metadataTable : Option String
  configurationTable : Option String
  annotationsTable : Option String
  operationsTable : Option String
  ipAddress : Option String
  port : Option Int32
  archivingEnabled : Option Bool

/-- The global variables that hold them. -/
structure CassandraConfig where
  cassKeyspace : String
  cassDataTable : String
  cassMetadataTable : String
  cassConfigurationTable : String
  cassAnnotationsTable : String
  cassOperationsTable : String
  cassIpAddress : String
  cassPort : Int32
  cassArchivingEnabled : Bool
  deriving DecidableEq, Repr

/-- The fields one after the other. -/
def CassandraFields.read (row : CassandraFields) : Option CassandraConfig := do
  return {
    cassKeyspace := ← row.keyspace
    cassDataTable := ← row.dataTable
    cassMetadataTable := ← row.metadataTable
    cassConfigurationTable := ← row.configurationTable
    cassAnnotationsTable := ← row.annotationsTable
    cassOperationsTable := ← row.operationsTable
    cassIpAddress := ← row.ipAddress
    cassPort := ← row.port
    cassArchivingEnabled := ← row.archivingEnabled }

/-- The answers to `cassandraInit`. -/
structure CassandraAnswers where
  opens : Bool := true
  select : Option (List CassandraFields)
  commits : Bool := true
  cassandraConnect : Int := 0

/-- `cassandraInit` -/
def cassandraInit (a : CassandraAnswers) : Locked Int := do
  let cassConnected ← catching
    (do
      let config ← selectOneRow a.opens a.select CassandraFields.read a.commits
      return config.map fun config => config.cassArchivingEnabled && 0 ≤ a.cassandraConnect)
    (return some false)
  match cassConnected with
  | some true => return 0
  | some false => return -1
  | none => return -1

/-- The fields of a row of the table `rabbitmq`. -/
structure RabbitmqFields where
  routekey : Option String
  exchange : Option String
  vhost : Option String
  dbUser : Option String
  passwd : Option String
  ipAddress : Option String
  port : Option Int32
  location : Option String
  archivingEnabled : Option Bool

/-- The service's variables that hold them. -/
structure RabbitmqConfig where
  rabbitmqRoutekey : String
  rabbitmqExchange : String
  rabbitmqVhost : String
  rabbitmqUser : String
  rabbitmqPasswd : String
  rabbitmqIpAddress : String
  rabbitmqPort : Int32
  rabbitmqlocation : String
  rabbitmqArchivingEnabled : Bool
  deriving DecidableEq, Repr

/-- The fields one after the other; the serial number of the uPMU ends the routing key. -/
def RabbitmqFields.read (upmuSerialNumber : String) (row : RabbitmqFields)
    : Option RabbitmqConfig := do
  return {
    rabbitmqRoutekey := (← row.routekey) ++ upmuSerialNumber
    rabbitmqExchange := ← row.exchange
    rabbitmqVhost := ← row.vhost
    rabbitmqUser := ← row.dbUser
    rabbitmqPasswd := ← row.passwd
    rabbitmqIpAddress := ← row.ipAddress
    rabbitmqPort := ← row.port
    rabbitmqlocation := ← row.location
    rabbitmqArchivingEnabled := ← row.archivingEnabled }

/-- `createStringOperationsRecord`, whose handler gives the lock back too. -/
def createStringOperationsRecord (add : Statement Unit) : Locked Unit := do
  acquire
  catching
    (do
      add.run
      release)
    release

/-- The answers to `initService` of the RabbitMQ archiver. -/
structure RabbitmqAnswers where
  dbConn : Bool := true
  upmuSerialNumber : String := ""
  opens : Bool := true
  select : Option (List RabbitmqFields)
  commits : Bool := true
  startupRecord : Statement Unit := { exec := some () }
  majorRecord : Statement Unit := { exec := some () }
  minorRecord : Statement Unit := { exec := some () }

/-- `initService`. Its early return for a missing row is `-1`, which is true; creating the
channel has a handler of its own.
-/
def initService (a : RabbitmqAnswers) : Locked Bool := do
  if a.dbConn then
    let goesOn ← catching
      (do
        let config ←
          selectOneRow a.opens a.select (RabbitmqFields.read a.upmuSerialNumber) a.commits
        return config.isSome)
      (return true)
    if goesOn then
      createStringOperationsRecord a.startupRecord
      createStringOperationsRecord a.majorRecord
      createStringOperationsRecord a.minorRecord
    return true
  else return false

end Sparcs.Gateway
