import Sparcs.Discovery.Rules

/-! The directory table under failing statements: one current row at most, and the thread
holds the key of the row that describes its directory.
-/

namespace Sparcs.Discovery

open CallRuns FuelLoop

/-- The row is the one of the directory's hour. -/
def DirectoryRow.Describes (row : DirectoryRow) (dataDir : DataDir) : Prop :=
  row.year = dataDir.year.toInt32 ∧ row.month = dataDir.month.toInt32
  ∧ row.day = dataDir.day.toInt32 ∧ row.hour = dataDir.hour.toInt32

namespace ServiceDataDiscovery

/-- The key that the thread holds is that of a row for its directory. -/
def HoldsRow (s : ServiceDataDiscovery) : Prop :=
  ∃ row, (s.dataDir.dbID, row) ∈ s.upmuDataDirectory.rows ∧ row.Describes s.dataDir

/-- One row at most is current, and a valid directory's key is that of its row. -/
structure ConsistentTable (s : ServiceDataDiscovery) : Prop where
  oneCurrent : (currentRows s.upmuDataDirectory).length ≤ 1
  describes : s.dataDirValid = true → s.HoldsRow

/-- The call comes to `addCurrentDirectoryRecord`. -/
def AddsDirectory (a : CallAnswers) (s : ServiceDataDiscovery) : Prop :=
  s.point = .running ∧ a.verifyDataDirPresent = .dirPresent
  ∧ ∃ processed released, s.processDataDir a = .ok processed ∧ processed.dataDirValid = false
    ∧ processed.releaseDataDir a = .ok released

/-- The statements of `addCurrentDirectoryRecord` succeed if the call comes to them. -/
def AddSucceeds (a : CallAnswers) (s : ServiceDataDiscovery) : Prop :=
  s.AddsDirectory a → a.addDirRecord = true ∧ a.getDirRecordKey = true

/-- A current row is the one whose key the thread holds, for a current directory. -/
def HoldsCurrent (s : ServiceDataDiscovery) : Prop :=
  ∀ row ∈ currentRows s.upmuDataDirectory,
    s.dataDir.state = .current ∧ row.1 = s.dataDir.dbID

/-- The table is consistent and, as long as the thread runs, it holds the current row. -/
structure Held (s : ServiceDataDiscovery) : Prop extends s.ConsistentTable where
  current : s.point = .running → s.HoldsCurrent

variable {a : CallAnswers} {s next : ServiceDataDiscovery}

theorem mem_currentRows {directories : SerialTable DirectoryRow} {row : Nat × DirectoryRow}
    : row ∈ currentRows directories ↔ row ∈ directories.rows ∧ row.2.state = .current := by
  simp [currentRows]

/-- Current rows that share their key are one at most. -/
theorem HoldsCurrent.oneCurrent (holds : s.HoldsCurrent)
    : (currentRows s.upmuDataDirectory).length ≤ 1 := by
  have keys : ((currentRows s.upmuDataDirectory).map Prod.fst).Nodup :=
    s.upmuDataDirectory.keys.sublist (List.filter_sublist.map Prod.fst)
  cases rows : currentRows s.upmuDataDirectory with
  | nil => simp
  | cons row rest =>
      cases rest with
      | nil => simp
      | cons row' rest =>
          have first := (holds row (by simp [rows])).2
          have second := (holds row' (by simp [rows])).2
          simp [rows, first, second] at keys

/-- Without a current directory no row is current. -/
theorem HoldsCurrent.currentRows_eq_nil (holds : s.HoldsCurrent)
    (notCurrent : s.dataDir.state ≠ .current)
    : currentRows s.upmuDataDirectory = [] := by
  apply List.eq_nil_iff_forall_not_mem.mpr
  intro row member
  exact notCurrent (holds row member).1

theorem HoldsCurrent.of_nil (noCurrent : currentRows s.upmuDataDirectory = [])
    : s.HoldsCurrent := by
  intro row member
  rw [noCurrent] at member
  cases member

/-- Closing the row whose key is held leaves no current row. -/
theorem HoldsCurrent.setDirRecord_eq_nil (holds : s.HoldsCurrent) {state : DataDirState}
    (closed : state ≠ .current)
    : currentRows (s.setDirRecord state).upmuDataDirectory = [] := by
  apply List.eq_nil_iff_forall_not_mem.mpr
  intro row member
  obtain ⟨member, isCurrent⟩ := mem_currentRows.mp member
  rcases SerialTable.mem_update.mp member with ⟨other, stored⟩ | ⟨-, old, -, updated⟩
  · exact other (holds row (mem_currentRows.mpr ⟨stored, isCurrent⟩)).2
  · rw [updated] at isCurrent
    exact closed isCurrent

/-- The row of a new directory becomes the only current one. -/
theorem currentRows_addDirRecord (noCurrent : currentRows s.upmuDataDirectory = [])
    : ∃ row, currentRows s.addDirRecord.upmuDataDirectory = [(s.upmuDataDirectory.last + 1, row)]
      ∧ row.Describes s.dataDir := by
  let row : DirectoryRow :=
    { year := s.dataDir.year.toInt32
      month := s.dataDir.month.toInt32
      day := s.dataDir.day.toInt32
      hour := s.dataDir.hour.toInt32
      dirName := s.dataDir.dirName
      state := .current }
  refine ⟨row, ?_, ⟨rfl, rfl, rfl, rfl⟩⟩
  have added
      : s.addDirRecord.upmuDataDirectory.rows
        = s.upmuDataDirectory.rows ++ [(s.upmuDataDirectory.last + 1, row)] := rfl
  unfold currentRows at noCurrent ⊢
  rw [added, List.filter_append, noCurrent]
  simp [row]

/-- The row that has just been added, under its key, describes the directory. -/
theorem HoldsCurrent.of_added {t : ServiceDataDiscovery} {id : Nat} {row : DirectoryRow}
    (only : currentRows t.upmuDataDirectory = [(id, row)]) (key : t.dataDir.dbID = id)
    (current : t.dataDir.state = .current) (describes : row.Describes t.dataDir)
    : t.HoldsCurrent ∧ t.HoldsRow := by
  constructor
  · intro held member
    rw [only, List.mem_singleton] at member
    exact ⟨current, by rw [member, key]⟩
  · refine ⟨row, ?_, describes⟩
    rw [key]
    exact (mem_currentRows.mp (by rw [only]; exact List.mem_singleton_self _)).1

theorem readDirectory_ok {state : DataDirState} {row : Nat × DirectoryRow}
    {dataDir read : DataDir} (found : readDirectory state row dataDir = .ok read)
    : read.dbID = row.1 ∧ read.state = state ∧ row.2.Describes read := by
  simp only [readDirectory] at found
  split_ifs at found
  obtain rfl := Except.ok.inj found
  exact ⟨rfl, rfl, ⟨by simp, by simp, by simp, by simp⟩⟩

/-- The search starts from the current row, or there is none. -/
theorem startingDirectory_ok {directories : SerialTable DirectoryRow} {dataDir : DataDir}
    (oneCurrent : (currentRows directories).length ≤ 1)
    (found : startingDirectory directories {} = .ok dataDir)
    : (∃ row, currentRows directories = [(dataDir.dbID, row)] ∧ row.Describes dataDir
        ∧ dataDir.state = .current)
      ∨ (currentRows directories = []
        ∧ (dataDir.state = .processed ∨ dataDir.state = .proposed)) := by
  unfold startingDirectory at found
  split at found
  next row only =>
    obtain ⟨key, state, describes⟩ := readDirectory_ok found
    exact .inl ⟨row.2, by rw [only, key], describes, state⟩
  next notOne =>
    have noCurrent : currentRows directories = [] := by
      cases rows : currentRows directories with
      | nil => rfl
      | cons row rest =>
          rw [rows] at oneCurrent notOne
          obtain rfl : rest = [] := List.length_eq_zero_iff.mp (by simpa using oneCurrent)
          exact absurd rfl (notOne row)
    refine .inr ⟨noCurrent, ?_⟩
    split at found
    next row latest =>
      exact .inl (readDirectory_ok found).2.1
    next =>
      obtain rfl := Except.ok.inj found
      exact .inr rfl

/-- While the current directory is looked for. -/
structure Searching (s : ServiceDataDiscovery) : Prop where
  current : s.HoldsCurrent
  invalid : s.dataDirValid = false
  state
    : s.dataDir.state = .current ∧ s.HoldsRow ∨ s.dataDir.state = .processed
      ∨ s.dataDir.state = .proposed

/-- The search is over; where it ends well, the current row is held. -/
def Searched (sts : DataDirStatus) (s : ServiceDataDiscovery) : Prop :=
  s.ConsistentTable ∧ (sts = .dataDirOk → s.HoldsCurrent)

theorem searched_of_invalid (sts : DataDirStatus) (current : s.HoldsCurrent)
    (invalid : s.dataDirValid = false)
    : Searched sts s :=
  ⟨⟨current.oneCurrent, by simp [invalid]⟩, fun _ => current⟩

theorem searched_of_holdsRow {sts : DataDirStatus} (current : s.HoldsCurrent)
    (describes : s.HoldsRow)
    : Searched sts s :=
  ⟨⟨current.oneCurrent, fun _ => describes⟩, fun _ => current⟩

/-- A step to the next hour is part of the search once no row is current. -/
theorem stepOn_searching (noCurrent : currentRows s.upmuDataDirectory = [])
    (invalid : s.dataDirValid = false) (clock : Nat)
    : (s.stepOn clock).Searching where
  current := .of_nil (by rw [stepOn_upmuDataDirectory, noCurrent])
  invalid := by rw [stepOn_dataDirValid, invalid]
  state := .inr (.inr (stepOn_state clock s))

/-- The search may end without a directory. -/
theorem Searching.searched (searching : s.Searching)
    : Searched .dataDirOk { s with dataDirValid := false } :=
  searched_of_invalid _ searching.current rfl

/-- Once no row is current, the next hour is looked for, or it is the present one. -/
theorem absentTurn_searching {a : TurnAnswers} (noCurrent : currentRows s.upmuDataDirectory = [])
    (invalid : s.dataDirValid = false)
    : (s.absentTurn a).Spec Searching (fun result => Searched result.1 result.2) := by
  have stepped := stepOn_searching noCurrent invalid a.clock
  unfold absentTurn
  split_ifs
  · exact stepped.searched
  · exact stepped

/-- The check of a directory that is not a processed one. -/
theorem Searching.checkTurn (searching : s.Searching) (notProcessed : s.dataDir.state ≠ .processed)
    (a : TurnAnswers)
    : (s.checkTurn a).Spec Searching (fun result => Searched result.1 result.2) := by
  obtain ⟨current, invalid, state⟩ := searching
  unfold ServiceDataDiscovery.checkTurn
  cases a.verifyDataDirPresent with
  | ftpNotResp => exact searched_of_invalid _ current rfl
  | dirPresent =>
      dsimp only
      split_ifs with proposed adds
      · have notCurrent : s.dataDir.state ≠ .current := by
          change s.dataDir.state = .proposed at proposed
          rw [proposed]
          decide
        have noCurrent := current.currentRows_eq_nil notCurrent
        obtain ⟨row, only, describes⟩ :=
          currentRows_addDirRecord (s := s.check .dirPresent) noCurrent
        rw [only]
        cases a.selectCurrent with
        | false =>
            exact ⟨⟨by rw [only]; simp,
              fun valid => absurd (invalid.symm.trans valid) (by decide)⟩, nofun⟩
        | true =>
            obtain ⟨current, holds⟩ := @HoldsCurrent.of_added
              { (s.check .dirPresent).addDirRecord with
                dataDir := { s.dataDir with dbID := _, state := .current }
                dataDirValid := true }
              _ row only rfl rfl describes
            exact searched_of_holdsRow current holds
      · exact searched_of_invalid _ current invalid
      · have holds : s.HoldsRow := by
          rcases state with ⟨-, holds⟩ | isProcessed | isProposed
          · exact holds
          · exact absurd isProcessed notProcessed
          · exact absurd isProposed proposed
        exact searched_of_holdsRow current holds
  | dirNotPresent =>
      dsimp only
      split_ifs with isCurrent
      · exact absentTurn_searching
          (HoldsCurrent.setDirRecord_eq_nil (s := s.check .dirNotPresent) current (by decide))
          invalid
      · exact searched_of_invalid _ current invalid
      · exact absentTurn_searching (current.currentRows_eq_nil isCurrent) invalid

theorem Searching.walkTurn (searching : s.Searching) (a : TurnAnswers)
    : (s.walkTurn a).Spec Searching (fun result => Searched result.1 result.2) := by
  have noCurrent (processed : s.dataDir.state = .processed)
      : currentRows s.upmuDataDirectory = [] :=
    searching.current.currentRows_eq_nil (by rw [processed]; decide)
  apply walkTurn_spec
  · intro processed _
    have stepped := stepOn_searching (noCurrent processed) searching.invalid a.firstClock
    exact searched_of_invalid _ stepped.current rfl
  · intro processed _
    have stepped := stepOn_searching (noCurrent processed) searching.invalid a.firstClock
    exact stepped.checkTurn (by simp) a
  · intro notProcessed
    exact searching.checkTurn notProcessed a

/-- From a table with one current row at most, the start leaves it consistent and held,
whichever statement fails.
-/
theorem initService_held (start : StartAnswers)
    (oneCurrent : (currentRows s.upmuDataDirectory).length ≤ 1)
    (invalid : s.dataDirValid = false)
    : (s.initService start).Held := by
  have stopped (t : ServiceDataDiscovery) (consistent : t.ConsistentTable)
      : Held { t with point := .stopped } :=
    ⟨⟨consistent.oneCurrent, consistent.describes⟩, nofun⟩
  refine @initService_spec s Held start (fun _ => Searching) Searched ?_ ?_ ?_ ?_ ?_ ?_ ?_ ?_
  · exact stopped s ⟨oneCurrent, by simp [invalid]⟩
  · intro dataDir _
    exact ⟨⟨oneCurrent, fun valid => absurd (invalid.symm.trans valid) (by decide)⟩, nofun⟩
  · intro dataDir _ found
    rcases startingDirectory_ok oneCurrent found with
      ⟨row, only, describes, current⟩ | ⟨noCurrent, state⟩
    · obtain ⟨holdsCurrent, holds⟩ := @HoldsCurrent.of_added
        ((s.beginService start.clock).beginWalk dataDir) _ row only rfl current describes
      exact ⟨holdsCurrent, rfl, .inl ⟨current, holds⟩⟩
    · exact ⟨.of_nil noCurrent, rfl, .inr state⟩
  · intro a rest t searching
    exact searching.walkTurn a
  · intro t searching
    exact ⟨(searched_of_invalid .dataDirOk searching.current searching.invalid).1,
      fun _ => searching.current⟩
  · intro sts t searched
    exact stopped t searched.1
  · intro t searched
    exact ⟨⟨searched.1.oneCurrent, searched.1.describes⟩, fun _ => searched.2 rfl⟩
  · intro t dataFilesProcessed searched _
    exact ⟨⟨searched.1.oneCurrent, searched.1.describes⟩, fun _ => searched.2 rfl⟩

/-- The part of the call for the data files leaves the directory and its table alone. -/
structure SameDirectory (s next : ServiceDataDiscovery) : Prop where
  dataDir : next.dataDir = s.dataDir
  upmuDataDirectory : next.upmuDataDirectory = s.upmuDataDirectory
  valid : next.dataDirValid = true → s.dataDirValid = true

theorem scanDataDir_sameDirectory (a : CallAnswers) (s : ServiceDataDiscovery)
    : SameDirectory s (s.scanDataDir a) :=
  @scanDataDir_spec a s (SameDirectory s) (fun _ _ => ⟨rfl, rfl, id⟩)
    (fun _ _ => ⟨rfl, rfl, id⟩) (fun _ => ⟨rfl, rfl, id⟩)

theorem SameDirectory.trans {t : ServiceDataDiscovery} (first : SameDirectory s next)
    (second : SameDirectory next t)
    : SameDirectory s t :=
  ⟨second.dataDir.trans first.dataDir,
    second.upmuDataDirectory.trans first.upmuDataDirectory,
    fun valid => first.valid (second.valid valid)⟩

theorem processDataFile_sameDirectory (a : CallAnswers) (dataFile : String)
    (s : ServiceDataDiscovery)
    : Spec (SameDirectory s) (SameDirectory s) (s.processDataFile a dataFile) := by
  have taken : SameDirectory s (s.takeDataFile dataFile) := ⟨rfl, rfl, id⟩
  have added (t : ServiceDataDiscovery) : SameDirectory t (t.addDataRecord dataFile) :=
    ⟨rfl, rfl, id⟩
  have offered (t : ServiceDataDiscovery) (data : Option (List UInt8))
      : SameDirectory t (t.offerDataFile dataFile data) :=
    ⟨rfl, rfl, id⟩
  have released (t : ServiceDataDiscovery) (id : Nat)
      : SameDirectory t (t.releaseDataRecord id) :=
    ⟨rfl, rfl, fun valid => valid⟩
  apply processDataFile_spec
  · exact fun _ => taken
  · exact fun _ _ => taken.trans (added _)
  · exact fun _ _ _ => (taken.trans (added _)).trans (offered _ _)
  · exact fun _ _ _ => ((taken.trans (added _)).trans (offered _ _)).trans (released _ _)

theorem processDataDir_sameDirectory (a : CallAnswers) (s : ServiceDataDiscovery)
    : Spec (SameDirectory s) (SameDirectory s) (s.processDataDir a) := by
  have scanned := scanDataDir_sameDirectory a s
  unfold processDataDir
  split_ifs with isValid
  · refine @Spec.bind _ _ _ _ (SameDirectory s) _ _ _ ?_ ?_
    · apply processNextFile_spec
      · exact scanned.trans ⟨rfl, rfl, id⟩
      · exact scanned
      · intro dataFile _ _
        have file := processDataFile_sameDirectory a dataFile (s.scanDataDir a)
        exact Spec.mono file (fun _ => scanned.trans) (fun _ => scanned.trans)
    · intro t tried
      change SameDirectory s (t.giveUpDataDir a)
      unfold giveUpDataDir
      split_ifs
      · exact tried.trans ⟨rfl, rfl, nofun⟩
      · exact tried
  · exact ⟨rfl, rfl, id⟩

theorem Held.of_sameDirectory (held : s.Held) (running : s.point = .running)
    (same : SameDirectory s next)
    : next.ConsistentTable ∧ next.HoldsCurrent := by
  have current := held.current running
  unfold HoldsCurrent at current
  rw [← same.dataDir, ← same.upmuDataDirectory] at current
  refine ⟨⟨HoldsCurrent.oneCurrent current, fun valid => ?_⟩, current⟩
  have holds := held.describes (same.valid valid)
  unfold HoldsRow at holds ⊢
  rwa [same.dataDir, same.upmuDataDirectory]

/-- A directory that is not valid, once closed, leaves no current row; if its row cannot be
closed, the thread still holds it.
-/
theorem releaseDataDir_held (a : CallAnswers) (current : s.HoldsCurrent)
    (invalid : s.dataDirValid = false)
    : Spec Held (fun t => currentRows t.upmuDataDirectory = [] ∧ t.dataDirValid = false)
        (s.releaseDataDir a) := by
  apply releaseDataDir_spec
  · intro notCurrent
    exact ⟨current.currentRows_eq_nil notCurrent, invalid⟩
  · intro _ _
    exact ⟨⟨current.oneCurrent, fun valid => absurd (invalid.symm.trans valid) (by decide)⟩,
      fun _ => current⟩
  · intro _ _
    exact ⟨current.setDirRecord_eq_nil (by decide), invalid⟩

/-- The next directory is not there, or both statements for its row have succeeded. -/
theorem nextDataDir_held (noCurrent : currentRows s.upmuDataDirectory = [])
    (invalid : s.dataDirValid = false)
    (adds : a.verifyDataDirPresent = .dirPresent →
      a.addDirRecord = true ∧ a.getDirRecordKey = true)
    : (s.nextDataDir a).Held := by
  simp only [nextDataDir]
  generalize reached : (if isDataDirAtPresent s.dataDir a.presentClock = true then s
    else s.stepOn a.presentClock) = t
  have unchanged : currentRows t.upmuDataDirectory = [] ∧ t.dataDirValid = false := by
    subst reached
    split_ifs
    · exact ⟨noCurrent, invalid⟩
    · rw [stepOn_upmuDataDirectory, stepOn_dataDirValid]
      exact ⟨noCurrent, invalid⟩
  split_ifs with there
  · obtain ⟨adds, key⟩ := adds there
    rw [addCurrentDirectoryRecord, if_pos adds, if_pos key]
    obtain ⟨row, only, describes⟩ :=
      currentRows_addDirRecord (s := t.check a.verifyDataDirPresent) unchanged.1
    obtain ⟨current, holds⟩ := @HoldsCurrent.of_added
      { (t.check a.verifyDataDirPresent).addDirRecord with
        dataDir := { t.dataDir with dbID := _, state := .current }
        dataDirValid := true }
      _ row only rfl rfl describes
    exact ⟨⟨current.oneCurrent, fun _ => holds⟩, fun _ => current⟩
  · have current : HoldsCurrent (t.check a.verifyDataDirPresent) := .of_nil unchanged.1
    exact ⟨⟨current.oneCurrent, fun valid => absurd (unchanged.2.symm.trans valid) (by decide)⟩,
      fun _ => current⟩

/-- A call keeps the table consistent and the current row held, unless a statement of
`addCurrentDirectoryRecord` fails.
-/
theorem Held.processUPMUdata (held : s.Held) (adds : s.AddSucceeds a)
    : (s.processUPMUdata a).Held := by
  by_cases running : s.point = .running
  · have body : Spec Held Held (s.processBody a) := by
      have processed := processDataDir_sameDirectory a s
      unfold processBody
      cases first : s.processDataDir a with
      | error t =>
          rw [first] at processed
          obtain ⟨consistent, current⟩ := held.of_sameDirectory running processed
          exact ⟨consistent, fun _ => current⟩
      | ok t =>
          rw [first] at processed
          obtain ⟨consistent, current⟩ := held.of_sameDirectory running processed
          change Spec Held Held (t.leaveDataDir a)
          unfold leaveDataDir
          split_ifs with valid
          · exact ⟨consistent, fun _ => current⟩
          · have invalid : t.dataDirValid = false := by simpa using valid
            have released := releaseDataDir_held a current invalid
            cases second : t.releaseDataDir a with
            | error u =>
                rw [second] at released
                exact released
            | ok u =>
                rw [second] at released
                exact nextDataDir_held released.1 released.2
                  (fun there => adds ⟨running, there, t, u, first, invalid, second⟩)
    have left := body.leaves
    rw [ServiceDataDiscovery.processUPMUdata, if_pos running]
    exact ⟨⟨left.oneCurrent, left.describes⟩, left.current⟩
  · rw [ServiceDataDiscovery.processUPMUdata, if_neg running]
    exact held

/-- In every run in which `add_dir_record` and `get_dir_record_key` succeed whenever
`addCurrentDirectoryRecord` executes them, whatever else fails, one row at most is current,
and a valid directory's key is that of the row for its hour.
-/
theorem service_consistentTable (start : StartAnswers) (calls : List CallAnswers)
    (upmuDataDirectory : SerialTable DirectoryRow) (upmuDataFile : SerialTable FileRow)
    (services : List (String × Bool))
    (oneCurrent : (currentRows upmuDataDirectory).length ≤ 1)
    (adds : Meets processUPMUdata AddSucceeds calls
      ((new upmuDataDirectory upmuDataFile services).initService start))
    : (service start calls (new upmuDataDirectory upmuDataFile services)).ConsistentTable :=
  (adds.invariant (fun _ _ held adds => held.processUPMUdata adds)
    (initService_held start oneCurrent rfl)).toConsistentTable

theorem service_consistentTable_one
    : (service { turns := [{}] }
        [{ getDataFileList := some ∅, ageClock := 104400, presentClock := 104400 }]
        (new oneDataDir {} [])).ConsistentTable :=
  service_consistentTable { turns := [{}] }
    [{ getDataFileList := some ∅, ageClock := 104400, presentClock := 104400 }]
    oneDataDir {} [] (by decide) ⟨fun _ => ⟨rfl, rfl⟩, trivial⟩

/-- The insertion of the next hour's row fails: the directory is valid all the same, under
the key of the hour before.
-/
theorem service_keeps_stale_key
    : ¬(service { turns := [{}] }
        [{ getDataFileList := some ∅
           ageClock := 104400
           presentClock := 104400
           addDirRecord := false }]
        (new oneDataDir {} [])).ConsistentTable := by
  intro consistent
  obtain ⟨row, stored, -, -, -, hour⟩ := consistent.describes (by decide +kernel)
  have only
      : (service { turns := [{}] }
          [{ getDataFileList := some ∅
             ageClock := 104400
             presentClock := 104400
             addDirRecord := false }]
          (new oneDataDir {} [])).upmuDataDirectory.rows.map (fun row => row.2.hour) = [3] := by
    decide +kernel
  have stored := List.mem_map_of_mem (f := fun row : Nat × DirectoryRow => row.2.hour) stored
  rw [only, List.mem_singleton] at stored
  rw [stored] at hour
  exact absurd hour (by decide +kernel)

end ServiceDataDiscovery

end Sparcs.Discovery
