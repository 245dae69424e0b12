import Sparcs.Discovery.Service

/-! Rules for the discovery thread: what has to be shown of the parts of a call, and of a turn
of the loop, so that something holds after it.
-/

namespace Sparcs.Discovery

open CallRuns FuelLoop

namespace ServiceDataDiscovery

variable {a : CallAnswers} {s : ServiceDataDiscovery}
  {tried invalid released post : ServiceDataDiscovery → Prop}

-----------------------------------------------------------------------------------------
-- processUPMUdata
-----------------------------------------------------------------------------------------

theorem scanDataDir_spec
    (inProgress : s.dataDirAccessInProgress = true → s.dataFilesInDir ≠ ∅ → post s)
    (again
      : s.dataDirAccessInProgress = true → s.dataFilesInDir = ∅ →
          post (s.listDataFiles a.getDataFileList))
    (first
      : s.dataDirAccessInProgress = false →
          post
            (listDataFiles a.getDataFileList
              { s with
                dataDirAccessInProgress := true
                dataFilesInDir := ∅
                dataFilesProcessed := ∅ }))
    : post (s.scanDataDir a) := by
  by_cases entered : s.dataDirAccessInProgress = true
  · simp only [scanDataDir, enterDataDir, if_pos entered]
    split_ifs with files
    · exact again entered files
    · exact inProgress entered files
  · simp only [scanDataDir, enterDataDir, if_neg entered]
    exact first (by simpa using entered)

theorem scanDataDir_dataDirValid (a : CallAnswers) (s : ServiceDataDiscovery)
    : (s.scanDataDir a).dataDirValid = s.dataDirValid :=
  @scanDataDir_spec a s (fun scanned => scanned.dataDirValid = s.dataDirValid)
    (fun _ _ => rfl) (fun _ _ => rfl) (fun _ => rfl)

/-- A taken file, up to the statement that fails. -/
theorem processDataFile_spec {dataFile : String}
    (notAdded : a.addDataRecord = false → post (s.takeDataFile dataFile))
    (noKey
      : a.addDataRecord = true → a.getDataRecordKey = false →
          post ((s.takeDataFile dataFile).addDataRecord dataFile))
    (offered
      : a.addDataRecord = true → a.getDataRecordKey = true → a.releaseDataRecord = false →
          post
            (((s.takeDataFile dataFile).addDataRecord dataFile).offerDataFile dataFile
              a.getDataFile))
    (finished
      : a.addDataRecord = true → a.getDataRecordKey = true → a.releaseDataRecord = true →
          tried
            ((((s.takeDataFile dataFile).addDataRecord dataFile).offerDataFile dataFile
              a.getDataFile).releaseDataRecord (s.upmuDataFile.last + 1)))
    : Spec post tried (s.processDataFile a dataFile) := by
  refine (spec_orReturn notAdded).bind fun _ added => ?_
  refine (spec_orReturn (noKey added)).bind fun _ key => ?_
  refine (spec_orReturn (offered added key)).bind fun _ release => ?_
  exact finished added key release

/-- The directory is closed if it is a current one. -/
theorem releaseDataDir_spec
    (other : s.dataDir.state ≠ .current → released s)
    (fails
      : s.dataDir.state = .current → a.releaseDirRecord = false →
          post
            { s with
              history := .releasedDir s.dataDir.dirName s.dataFilesProcessed :: s.history })
    (closes
      : s.dataDir.state = .current → a.releaseDirRecord = true →
          released
            { s.setDirRecord .processed with
              history := .releasedDir s.dataDir.dirName s.dataFilesProcessed :: s.history
              dataDir := { s.dataDir with state := .unknown }
              dataDirAccessInProgress := false })
    : Spec post released (s.releaseDataDir a) := by
  unfold releaseDataDir
  split_ifs with current
  · refine (spec_orReturn (fails current)).bind fun _ release => ?_
    exact closes current release
  · exact other current

/-- The directory stays or is left, and is checked. -/
theorem nextDataDir_spec (arrived : ServiceDataDiscovery → Prop)
    (stays : isDataDirAtPresent s.dataDir a.presentClock = true → arrived s)
    (steps
      : isDataDirAtPresent s.dataDir a.presentClock = false →
          arrived (s.stepOn a.presentClock))
    (absent
      : ∀ s, arrived s → a.verifyDataDirPresent ≠ .dirPresent →
          post (s.check a.verifyDataDirPresent))
    (present
      : ∀ s, arrived s → a.verifyDataDirPresent = .dirPresent →
          ∀ dbID upmuDataDirectory,
            post
              { s.check .dirPresent with
                dataDir := { s.dataDir with dbID, state := .current }
                dataDirValid := true
                upmuDataDirectory })
    : post (s.nextDataDir a) := by
  simp only [nextDataDir]
  generalize reached : (if isDataDirAtPresent s.dataDir a.presentClock = true then s
    else s.stepOn a.presentClock) = t
  have arrived : arrived t := by
    subst reached
    split_ifs with atPresent
    · exact stays atPresent
    · exact steps (by simpa using atPresent)
  split_ifs with there
  · rw [there]
    unfold addCurrentDirectoryRecord
    split_ifs
    · exact present t arrived there _ _
    · exact present t arrived there t.dataDir.dbID _
    · exact present t arrived there t.dataDir.dbID t.upmuDataDirectory
  · exact absent t arrived there

/-- An exception, no file, or one of the set. -/
theorem nextDataFile_cases (a : CallAnswers) (s : ServiceDataDiscovery)
    : s.nextDataFile a = .error { s with point := .stopped }
      ∨ s.nextDataFile a = .ok none
      ∨ ∃ dataFile ∈ s.dataFilesInDir, s.nextDataFile a = .ok (some dataFile) := by
  unfold nextDataFile
  split_ifs with files few
  · dsimp only
    cases s.dataFileComplete a (s.dataFilesInDir.min' files) with
    | none => exact .inl rfl
    | some complete =>
        cases complete with
        | false => exact .inr (.inl rfl)
        | true => exact .inr (.inr ⟨_, s.dataFilesInDir.min'_mem files, rfl⟩)
  · exact .inr (.inl rfl)
  · exact .inr (.inl rfl)

theorem processNextFile_spec
    (throws : post { s with point := .stopped })
    (skip : tried s)
    (take
      : ∀ dataFile ∈ s.dataFilesInDir, s.nextDataFile a = .ok (some dataFile) →
          Spec post tried (s.processDataFile a dataFile))
    : Spec post tried (s.processNextFile a) := by
  unfold processNextFile
  rcases nextDataFile_cases a s with thrown | noFile | ⟨dataFile, member, taken⟩
  · rw [thrown]
    exact throws
  · rw [noFile]
    exact skip
  · rw [taken]
    exact take dataFile member taken

/-- The parts of a call, one after the other. -/
theorem processBody_spec (scanned tried invalid released : ServiceDataDiscovery → Prop)
    (scan : s.dataDirValid = true → scanned (s.scanDataDir a))
    (throws : ∀ s, scanned s → post { s with point := .stopped })
    (skip : ∀ s, scanned s → tried s)
    (take
      : ∀ s, scanned s → ∀ dataFile ∈ s.dataFilesInDir,
          s.nextDataFile a = .ok (some dataFile) →
          Spec post tried (s.processDataFile a dataFile))
    (stay : ∀ s, tried s → s.dataDirValid = true ∧ post s)
    (giveUp
      : ∀ s, tried s → s.dataFilesInDir = ∅ →
          UInt32.ofNat a.ageClock - createTimeFromDataDir s.dataDir > 60 * 60 →
          invalid { s with dataDirValid := false, dataDirAccessInProgress := false })
    (start : s.dataDirValid = false → invalid s)
    (release : ∀ s, invalid s → s.dataDirValid = false ∧ Spec post released (s.releaseDataDir a))
    (next : ∀ s, released s → post (s.nextDataDir a))
    : Spec post post (s.processBody a) := by
  have files : Spec post (fun s => s.dataDirValid = true ∧ post s ∨ invalid s)
      (s.processDataDir a) := by
    unfold processDataDir
    split_ifs with isValid
    · have scanned := scan isValid
      refine (processNextFile_spec (throws _ scanned) (skip _ scanned) (take _ scanned)).bind
        fun s done => ?_
      change _ ∨ invalid (s.giveUpDataDir a)
      unfold giveUpDataDir
      split_ifs with late
      · exact .inr (giveUp s done late.1 late.2)
      · exact .inl (stay s done)
    · exact .inr (start (by simpa using isValid))
  refine files.bind fun s reached => ?_
  unfold leaveDataDir
  rcases reached with ⟨isValid, done⟩ | closing
  · rw [if_pos isValid]
    exact done
  · obtain ⟨notValid, closes⟩ := release s closing
    rw [if_neg (by simp [notValid])]
    exact closes.bind next

-----------------------------------------------------------------------------------------
-- initService
-----------------------------------------------------------------------------------------

/-- The ends of a turn from the check on. -/
theorem checkTurn_spec {a : TurnAnswers} {again : ServiceDataDiscovery → Prop}
    {leave : DataDirStatus → ServiceDataDiscovery → Prop}
    (notResp
      : a.verifyDataDirPresent = .ftpNotResp →
          leave .dataDirOk { s.check .ftpNotResp with dataDirValid := false })
    (present
      : a.verifyDataDirPresent = .dirPresent → s.dataDir.state ≠ .proposed →
          leave .dataDirOk { s.check .dirPresent with dataDirValid := true })
    (added
      : a.verifyDataDirPresent = .dirPresent → s.dataDir.state = .proposed →
          ∀ dbID upmuDataDirectory,
            leave .dataDirOk
              { s.check .dirPresent with
                upmuDataDirectory
                dataDir := { s.dataDir with dbID, state := .current }
                dataDirValid := true })
    (fails
      : ∀ upmuDataDirectory,
          leave .noDataDir { s.check a.verifyDataDirPresent with upmuDataDirectory })
    (atPresent
      : a.verifyDataDirPresent = .dirNotPresent →
          isDataDirAtPresent (incDataDir s.dataDir) a.clock = true →
          ∀ upmuDataDirectory,
            leave .dataDirOk
              { stepOn a.clock { s.check .dirNotPresent with upmuDataDirectory } with
                dataDirValid := false })
    (goesOn
      : a.verifyDataDirPresent = .dirNotPresent →
          isDataDirAtPresent (incDataDir s.dataDir) a.clock = false →
          ∀ upmuDataDirectory,
            again (stepOn a.clock { s.check .dirNotPresent with upmuDataDirectory }))
    : (s.checkTurn a).Spec again (fun result => leave result.1 result.2) := by
  unfold checkTurn
  cases answer : a.verifyDataDirPresent with
  | ftpNotResp => exact notResp answer
  | dirPresent =>
      dsimp only
      split_ifs with proposed adds
      · cases a.selectCurrent with
        | false =>
            have failed := fails (s.check .dirPresent).addDirRecord.upmuDataDirectory
            rw [answer] at failed
            exact failed
        | true =>
            split
            · exact added answer proposed _ _
            · have failed := fails (s.check .dirPresent).addDirRecord.upmuDataDirectory
              rw [answer] at failed
              exact failed
      · have failed := fails s.upmuDataDirectory
        rw [answer] at failed
        exact failed
      · exact present answer proposed
  | dirNotPresent =>
      have absent (upmuDataDirectory : SerialTable DirectoryRow)
          : (absentTurn a { s.check .dirNotPresent with upmuDataDirectory }).Spec again
              (fun result => leave result.1 result.2) := by
        unfold absentTurn
        split_ifs with present
        · exact atPresent answer present upmuDataDirectory
        · exact goesOn answer (Bool.eq_false_of_not_eq_true present) upmuDataDirectory
      have failed := fails s.upmuDataDirectory
      rw [answer] at failed
      dsimp only
      split_ifs
      · exact absent ((s.check .dirNotPresent).setDirRecord .abandoned).upmuDataDirectory
      · exact failed
      · exact absent s.upmuDataDirectory

/-- A turn begins with a check, after the step from a processed directory. -/
theorem walkTurn_spec {a : TurnAnswers} {again : ServiceDataDiscovery → Prop}
    {leave : DataDirStatus → ServiceDataDiscovery → Prop}
    (atPresent
      : s.dataDir.state = .processed →
          isDataDirAtPresent (incDataDir s.dataDir) a.firstClock = true →
          leave .noDataDir { s.stepOn a.firstClock with dataDirValid := false })
    (stepped
      : s.dataDir.state = .processed →
          isDataDirAtPresent (incDataDir s.dataDir) a.firstClock = false →
          ((s.stepOn a.firstClock).checkTurn a).Spec again
            (fun result => leave result.1 result.2))
    (check
      : s.dataDir.state ≠ .processed →
          (s.checkTurn a).Spec again (fun result => leave result.1 result.2))
    : (s.walkTurn a).Spec again (fun result => leave result.1 result.2) := by
  simp only [walkTurn]
  split_ifs with processed present
  · exact atPresent processed present
  · exact stepped processed (Bool.eq_false_of_not_eq_true present)
  · exact check processed

/-- The loop does not touch the files. -/
structure SameFiles (s next : ServiceDataDiscovery) : Prop where
  dataDirAccessInProgress : next.dataDirAccessInProgress = s.dataDirAccessInProgress
  dataFilesInDir : next.dataFilesInDir = s.dataFilesInDir
  dataFilesProcessed : next.dataFilesProcessed = s.dataFilesProcessed
  upmuDataFile : next.upmuDataFile = s.upmuDataFile
  point : next.point = s.point

theorem SameFiles.trans {s t u : ServiceDataDiscovery} (first : SameFiles s t)
    (second : SameFiles t u)
    : SameFiles s u where
  dataDirAccessInProgress :=
    second.dataDirAccessInProgress.trans first.dataDirAccessInProgress
  dataFilesInDir := second.dataFilesInDir.trans first.dataFilesInDir
  dataFilesProcessed := second.dataFilesProcessed.trans first.dataFilesProcessed
  upmuDataFile := second.upmuDataFile.trans first.upmuDataFile
  point := second.point.trans first.point

theorem SameFiles.stepOn {t : ServiceDataDiscovery} (same : SameFiles s t) (clock : Nat)
    : SameFiles s (t.stepOn clock) :=
  same.trans (by constructor <;> rw [ServiceDataDiscovery.stepOn])

theorem walkTurn_sameFiles (a : TurnAnswers) (s : ServiceDataDiscovery)
    : (s.walkTurn a).Spec (SameFiles s) (fun result => SameFiles s result.2) := by
  have check (t : ServiceDataDiscovery) (same : SameFiles s t)
      : (t.checkTurn a).Spec (SameFiles s) (fun result => SameFiles s result.2) :=
    @checkTurn_spec t a (SameFiles s) (fun _ => SameFiles s)
      (fun _ => same.trans ⟨rfl, rfl, rfl, rfl, rfl⟩)
      (fun _ _ => same.trans ⟨rfl, rfl, rfl, rfl, rfl⟩)
      (fun _ _ _ _ => same.trans ⟨rfl, rfl, rfl, rfl, rfl⟩)
      (fun _ => same.trans ⟨rfl, rfl, rfl, rfl, rfl⟩)
      (fun _ _ upmuDataDirectory =>
        (SameFiles.stepOn (t := { t.check .dirNotPresent with upmuDataDirectory })
          (same.trans ⟨rfl, rfl, rfl, rfl, rfl⟩) a.clock).trans ⟨rfl, rfl, rfl, rfl, rfl⟩)
      (fun _ _ upmuDataDirectory =>
        SameFiles.stepOn (t := { t.check .dirNotPresent with upmuDataDirectory })
          (same.trans ⟨rfl, rfl, rfl, rfl, rfl⟩) a.clock)
  have start : SameFiles s s := ⟨rfl, rfl, rfl, rfl, rfl⟩
  exact @walkTurn_spec s a (SameFiles s) (fun _ => SameFiles s)
    (fun _ _ => (start.stepOn a.firstClock).trans ⟨rfl, rfl, rfl, rfl, rfl⟩)
    (fun _ _ => check _ (start.stepOn a.firstClock)) (fun _ => check s start)

/-- What every turn preserves holds while the loop goes on, and the end of the loop is the end
of its last turn. By induction on the answers.
-/
theorem walk_spec {inv : List TurnAnswers → ServiceDataDiscovery → Prop}
    {left : DataDirStatus → ServiceDataDiscovery → Prop}
    {result : Option DataDirStatus × ServiceDataDiscovery → Prop}
    (turn
      : ∀ a rest s, inv (a :: rest) s →
          (s.walkTurn a).Spec (inv rest) (fun result => left result.1 result.2))
    (looping : ∀ s, inv [] s → result (none, s))
    (ended : ∀ sts s, left sts s → result (some sts, s))
    {turns : List TurnAnswers} (start : inv turns s)
    : result (walk turns s) := by
  induction turns generalizing s with
  | nil => exact looping s start
  | cons a rest ih =>
      have spec := turn a rest s start
      rw [walk]
      cases reached : s.walkTurn a with
      | again next =>
          rw [reached] at spec
          exact ih spec
      | leave last =>
          rw [reached] at spec
          exact ended last.1 last.2 spec

/-- The table has the file for this directory as abandoned or released. -/
def DealtWith (s : ServiceDataDiscovery) (dataFile : String) : Prop :=
  ∃ row ∈ s.upmuDataFile.rows, row.2.directory = s.dataDir.dbID ∧ row.2.fileName = dataFile
    ∧ (row.2.state = .abandoned ∨ row.2.state = .released)

/-- The parts of the start. Only a start that ends well leaves a running thread. -/
theorem initService_spec {start : StartAnswers}
    {inv : List TurnAnswers → ServiceDataDiscovery → Prop}
    {left : DataDirStatus → ServiceDataDiscovery → Prop}
    (noConnection : post { s with point := .stopped })
    (noDirectory
      : ∀ dataDir,
          dataDir = {} ∨ startingDirectory s.upmuDataDirectory {} = .error dataDir →
          post { s.beginService start.clock with dataDir, point := .stopped })
    (begins
      : ∀ dataDir, start.selectDirectory = true →
          startingDirectory s.upmuDataDirectory {} = .ok dataDir →
          inv start.turns ((s.beginService start.clock).beginWalk dataDir))
    (turn
      : ∀ a rest s, inv (a :: rest) s →
          (s.walkTurn a).Spec (inv rest) (fun result => left result.1 result.2))
    (looping : ∀ s, inv [] s → post s)
    (fails : ∀ sts s, left sts s → post { s with point := .stopped })
    (noFiles
      : ∀ s, left .dataDirOk s →
          post { s with dataDirAccessInProgress := false, point := .running })
    (files
      : ∀ s dataFilesProcessed, left .dataDirOk s →
          (∀ dataFile ∈ dataFilesProcessed, s.DealtWith dataFile) →
          post
            { s with
              dataDirAccessInProgress := true
              dataFilesInDir := ∅
              dataFilesProcessed
              point := .running })
    : post (s.initService start) := by
  have ended (sts : DataDirStatus) (s : ServiceDataDiscovery) (holds : left sts s)
      : post (endService start.searchDataRecord (some sts, s)) := by
    cases sts with
    | dataDirOk =>
        simp only [endService, getCurrentDataFileSet]
        split_ifs with searches empty
        · exact noFiles s holds
        · refine files s _ holds ?_
          intro dataFile member
          obtain ⟨row, found, rfl⟩ := List.mem_map.mp (List.mem_toFinset.mp member)
          simp only [List.mem_filter, decide_eq_true_eq] at found
          exact ⟨row, found.1.1, found.1.2, rfl, found.2⟩
        · exact fails _ s holds
    | dataDirError => exact fails _ s holds
    | noDataDir => exact fails _ s holds
  unfold initService getCurrentDirectory
  split_ifs with connected selects
  · generalize chosen : startingDirectory (s.beginService start.clock).upmuDataDirectory
      (s.beginService start.clock).dataDir = result
    cases result with
    | error dataDir => exact noDirectory dataDir (.inr chosen)
    | ok dataDir =>
        have walked : post (endService start.searchDataRecord
            (walk start.turns ((s.beginService start.clock).beginWalk dataDir))) :=
          @walk_spec _ inv left (fun reached => post (endService _ reached)) turn looping ended _
            (begins dataDir selects chosen)
        exact walked
  · exact noDirectory {} (.inl rfl)
  · exact noConnection

end ServiceDataDiscovery

end Sparcs.Discovery
