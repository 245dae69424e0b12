import Sparcs.Discovery.Service
import Sparcs.Gateway.LockBalance

/-! `getCurrentDirectory` and `getCurrentDataFileSet` as steps of the discovery thread and as
programs that take the lock on the database connection: over the answers of the thread's tables,
both come to the same.
-/

namespace Sparcs.Gateway

open Discovery Discovery.ServiceDataDiscovery FuelLoop
open Locked

-----------------------------------------------------------------------------------------
-- The answers of the tables
-----------------------------------------------------------------------------------------

def fieldsOf (row : Nat × DirectoryRow) : DirectoryFields where
  year := some row.2.year
  month := some row.2.month
  day := some row.2.day
  hour := some row.2.hour
  id := some row.1

/-- The answers to a turn that checks the directory of `s`. -/
def turnAnswers (a : TurnAnswers) (s : ServiceDataDiscovery) : DirectoryTurn where
  firstClock := a.firstClock
  clock := a.clock
  verifyDataDirPresent := a.verifyDataDirPresent
  addDirRecord := { exec := if a.addDirRecord then some () else none }
  selectCurrent :=
    { exec :=
        if a.selectCurrent then
          some ((currentRows s.addDirRecord.upmuDataDirectory).map fieldsOf)
        else none }
  abandonDirRecord := { exec := if a.abandonDirRecord then some () else none }

/-- The state whose directory a turn checks. -/
def checkedBy (a : TurnAnswers) (s : ServiceDataDiscovery) : ServiceDataDiscovery :=
  if s.dataDir.state = .processed then s.stepOn a.firstClock else s

/-- The answers to the turns of the loop, up to the one that leaves it. -/
def loopAnswers : List TurnAnswers → ServiceDataDiscovery → List DirectoryTurn
  | [], _ => []
  | a :: rest, s =>
      turnAnswers a (checkedBy a s)
        :: match s.walkTurn a with
          | .again next => loopAnswers rest next
          | .leave _ => []

/-- The answers to `getCurrentDirectory`. -/
def searchAnswers (a : StartAnswers) (s : ServiceDataDiscovery) : DirectoryAnswers where
  selectCurrent :=
    if a.selectDirectory then some ((currentRows s.upmuDataDirectory).map fieldsOf) else none
  selectProcessed :=
    some
      (((s.upmuDataDirectory.rows.filter fun row => row.2.state = .processed).argmax
        Prod.fst).toList.map fieldsOf)
  turns :=
    match startingDirectory s.upmuDataDirectory s.dataDir with
    | .error _ => []
    | .ok dataDir => loopAnswers a.turns (s.beginWalk dataDir)

-----------------------------------------------------------------------------------------
-- The first transaction
-----------------------------------------------------------------------------------------

theorem readDataDir_fieldsOf (state : DataDirState) (row : Nat × DirectoryRow)
    (dataDir : DataDir)
    : (readDataDir true state (fieldsOf row) dataDir).result
      = some (readDirectory state row dataDir).toOption := by
  unfold readDataDir readDirectory fieldsOf
  simp only [call_some_bind]
  split_ifs <;> rfl

theorem selectDataDir_searchAnswers (a : StartAnswers) (s : ServiceDataDiscovery)
    (dataDir : DataDir)
    : (selectDataDir (searchAnswers a s) dataDir).result
      = if a.selectDirectory then some (startingDirectory s.upmuDataDirectory dataDir).toOption
        else none := by
  unfold selectDataDir searchAnswers startingDirectory
  cases a.selectDirectory with
  | false => rfl
  | true =>
      rcases currentRows s.upmuDataDirectory with _ | ⟨row, _ | ⟨row', rest⟩⟩
      case cons.nil => exact readDataDir_fieldsOf .current row dataDir
      all_goals
        cases (s.upmuDataDirectory.rows.filter fun row => row.2.state = .processed).argmax
            Prod.fst with
        | none => rfl
        | some row => exact readDataDir_fieldsOf .processed row dataDir

-----------------------------------------------------------------------------------------
-- The loop
-----------------------------------------------------------------------------------------

/-- What a turn of the thread decides about its directory. -/
def decision
    : Turn ServiceDataDiscovery (DataDirStatus × ServiceDataDiscovery)
      → Turn DataDir DataDirStatus
  | .again s => .again s.dataDir
  | .leave (sts, _) => .leave sts

theorem addDataDir_turnAnswers (a : TurnAnswers) (s : ServiceDataDiscovery)
    : (addDataDir (turnAnswers a s)).result
      = if a.addDirRecord ∧ a.selectCurrent
            ∧ currentRows s.addDirRecord.upmuDataDirectory ≠ [] then some ()
        else none := by
  unfold addDataDir turnAnswers Statement.run
  cases a.addDirRecord with
  | false => rfl
  | true =>
      cases a.selectCurrent with
      | false => rfl
      | true => cases currentRows s.addDirRecord.upmuDataDirectory <;> rfl

theorem abandonDataDir_turnAnswers (a : TurnAnswers) (s : ServiceDataDiscovery)
    : (abandonDataDir (turnAnswers a s)).result = if a.abandonDirRecord then some () else none := by
  unfold abandonDataDir turnAnswers Statement.run
  cases a.abandonDirRecord <;> rfl

theorem leaveDataDir_turnAnswers (a : TurnAnswers) (s s' : ServiceDataDiscovery)
    (same : s'.dataDir = s.dataDir)
    : leaveDataDir (turnAnswers a s) s.dataDir = decision (s'.absentTurn a) := by
  unfold leaveDataDir absentTurn turnAnswers
  rw [stepOn_dataDir, same]
  dsimp only
  split_ifs
  · rfl
  · rw [decision, stepOn_dataDir, same]

/-- An exception in a check is `NO_DATA_DIR` to the thread. -/
theorem checkDataDir_turnAnswers (a : TurnAnswers) (s : ServiceDataDiscovery)
    : (checkDataDir (turnAnswers a s) s.dataDir).result.getD (.leave .noDataDir)
      = decision (s.checkTurn a) := by
  have asked : (turnAnswers a s).verifyDataDirPresent = a.verifyDataDirPresent := rfl
  unfold checkDataDir checkTurn
  rw [asked]
  cases a.verifyDataDirPresent with
  | ftpNotResp => rfl
  | dirPresent =>
      dsimp only
      by_cases proposed : s.dataDir.state = .proposed
      · rw [if_pos proposed, if_pos (by exact proposed), result_bind, addDataDir_turnAnswers]
        cases a.addDirRecord with
        | false => rfl
        | true =>
            cases a.selectCurrent with
            | false => rfl
            | true =>
                have rows
                    : currentRows (s.check .dirPresent).addDirRecord.upmuDataDirectory
                      = currentRows s.addDirRecord.upmuDataDirectory :=
                  rfl
                rw [rows]
                cases currentRows s.addDirRecord.upmuDataDirectory <;> rfl
      · rw [if_neg proposed, if_neg (by exact proposed)]
        rfl
  | dirNotPresent =>
      dsimp only
      by_cases current : s.dataDir.state = .current
      · rw [if_pos current, if_pos (by exact current), result_bind, abandonDataDir_turnAnswers]
        cases a.abandonDirRecord with
        | false => rfl
        | true => exact leaveDataDir_turnAnswers a s _ rfl
      · rw [if_neg current, if_neg (by exact current)]
        exact leaveDataDir_turnAnswers a s _ rfl

theorem directoryTurn_turnAnswers (a : TurnAnswers) (s : ServiceDataDiscovery)
    : (directoryTurn (turnAnswers a (checkedBy a s)) s.dataDir).result.getD (.leave .noDataDir)
      = decision (s.walkTurn a) := by
  unfold directoryTurn walkTurn checkedBy
  by_cases processed : s.dataDir.state = .processed
  · simp only [processed, if_true]
    have present : isDataDirAtPresent (incDataDir s.dataDir)
        (turnAnswers a (s.stepOn a.firstClock)).firstClock
      = isDataDirAtPresent (s.stepOn a.firstClock).dataDir a.firstClock := by
      rw [stepOn_dataDir]
      rfl
    rw [present]
    split_ifs
    · rfl
    · rw [← checkDataDir_turnAnswers, stepOn_dataDir]
  · simp only [processed, if_false]
    exact checkDataDir_turnAnswers a s

/-- The loops come to the same, by induction over the turns. -/
theorem directoryLoop_loopAnswers (turns : List TurnAnswers) (s : ServiceDataDiscovery)
    : (directoryLoop (loopAnswers turns s) s.dataDir).result.getD (some .noDataDir)
      = (walk turns s).1 := by
  induction turns generalizing s with
  | nil => rfl
  | cons a rest ih =>
      have same := directoryTurn_turnAnswers a s
      rw [loopAnswers, directoryLoop, walk, result_bind]
      cases outcome : (directoryTurn (turnAnswers a (checkedBy a s)) s.dataDir).result with
      | none =>
          rw [outcome, Option.getD_none] at same
          cases turn : s.walkTurn a with
          | again next => rw [turn] at same; cases same
          | leave result =>
              rw [turn] at same
              exact congrArg some (Turn.leave.inj same)
      | some decided =>
          rw [outcome, Option.getD_some] at same
          subst same
          cases s.walkTurn a with
          | again next => exact ih next
          | leave result => rfl

/-- Over the answers of the tables, the program returns what the thread comes to. -/
theorem getCurrentDirectory_searchAnswers (a : StartAnswers) (s : ServiceDataDiscovery)
    : (Gateway.getCurrentDirectory (searchAnswers a s) s.dataDir).result
      = some (ServiceDataDiscovery.getCurrentDirectory a s).1 := by
  rw [Gateway.getCurrentDirectory, result_catching, findDirectory, result_bind,
    selectDataDir_searchAnswers, ServiceDataDiscovery.getCurrentDirectory]
  cases a.selectDirectory with
  | false => rfl
  | true =>
      cases start : startingDirectory s.upmuDataDirectory s.dataDir with
      | error dataDir => rfl
      | ok dataDir =>
          have turns : (searchAnswers a s).turns = loopAnswers a.turns (s.beginWalk dataDir) := by
            simp only [searchAnswers, start]
          have same := directoryLoop_loopAnswers a.turns (s.beginWalk dataDir)
          simp only [if_true, Except.toOption, Option.bind_some, turns]
          exact congrArg some same

/-- A search with which the thread goes on gives the lock back. -/
theorem givesBack_of_dataDirOk {a : StartAnswers} {s : ServiceDataDiscovery}
    (found : (ServiceDataDiscovery.getCurrentDirectory a s).1 = some .dataDirOk)
    : GivesBack (Gateway.getCurrentDirectory (searchAnswers a s) s.dataDir) := by
  have same := getCurrentDirectory_searchAnswers a s
  rw [found, Gateway.getCurrentDirectory, result_catching, Option.some.injEq] at same
  rw [Gateway.getCurrentDirectory, (leaves_findDirectory _ _).givesBack_catching_iff]
  cases outcome : (findDirectory (searchAnswers a s) s.dataDir).result with
  | none =>
      rw [outcome, Option.getD_none] at same
      cases same
  | some sts => rfl

-----------------------------------------------------------------------------------------
-- The data files
-----------------------------------------------------------------------------------------

/-- `file_state` as it is written in the table. -/
def stateText : FileState → String
  | .abandoned => "abandoned"
  | .processing => "processing"
  | .released => "released"

def fileFieldsOf (row : Nat × FileRow) : FileFields where
  state := some (stateText row.2.state)
  fileName := some row.2.fileName

/-- The answers to `getCurrentDataFileSet`. -/
def fileAnswers (searchDataRecord : Bool) (s : ServiceDataDiscovery)
    : Statement (List FileFields) where
  exec :=
    if searchDataRecord then
      some
        ((s.upmuDataFile.rows.filter fun row => row.2.directory = s.dataDir.dbID).map fileFieldsOf)
    else none

/-- The names of the files that have been dealt with. -/
def dealtWith (rows : List (Nat × FileRow)) : List String :=
  (rows.filter fun row => row.2.state = .abandoned ∨ row.2.state = .released).map
    fun row => row.2.fileName

/-- These names are read, by induction over the rows. -/
theorem readProcessed_fileFieldsOf (rows : List (Nat × FileRow))
    : (readProcessed (rows.map fileFieldsOf)).result = some (dealtWith rows) := by
  induction rows with
  | nil => rfl
  | cons row rows ih =>
      rw [List.map_cons, readProcessed]
      cases state : row.2.state with
      | processing =>
          rw [dealtWith, List.filter_cons_of_neg (by simp [state]), ← dealtWith, ← ih, fileFieldsOf,
            state]
          rfl
      | abandoned | released =>
          rw [dealtWith, List.filter_cons_of_pos (by simp [state]), List.map_cons, ← dealtWith,
            fileFieldsOf, state]
          simp [stateText, ih]

/-- The program returns what the thread comes to, and reads the names that the thread keeps. -/
theorem getCurrentDataFileSet_fileAnswers (searchDataRecord : Bool) (s : ServiceDataDiscovery)
    : ∃ dataFilesProcessed,
        (Gateway.getCurrentDataFileSet (fileAnswers searchDataRecord s)).result
          = some ((s.getCurrentDataFileSet searchDataRecord).1, dataFilesProcessed)
        ∧ ∀ names ∈ dataFilesProcessed,
            (s.getCurrentDataFileSet searchDataRecord).2.dataFilesProcessed = names.toFinset := by
  unfold Gateway.getCurrentDataFileSet ServiceDataDiscovery.getCurrentDataFileSet fileAnswers
  cases searchDataRecord with
  | false => exact ⟨none, rfl, by simp⟩
  | true =>
      generalize s.upmuDataFile.rows.filter (fun row => row.2.directory = s.dataDir.dbID) = r
      cases r with
      | nil => exact ⟨none, rfl, by simp⟩
      | cons row rows =>
          refine ⟨some (dealtWith (row :: rows)), ?_, fun names member => ?_⟩
          · have names := readProcessed_fileFieldsOf (row :: rows)
            rw [List.map_cons] at names
            simp [Locked.catching, Statement.run, throwUnless, names]
          · rw [← Option.some.inj member]
            rfl

end Sparcs.Gateway
