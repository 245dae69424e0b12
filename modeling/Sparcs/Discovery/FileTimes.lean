import Sparcs.Discovery.Rules
import Sparcs.Discovery.DataFileNames

/-! What a call of `processUPMUdata` makes of the times of a file and of its directory: their
ages against the clock, and a name that has no time.
-/

namespace Sparcs.Discovery

open CallRuns

/-- The age that the code computes exceeds a limit although the time is not that old exactly
when the time is ahead of the clock and the difference does not wrap down to the limit.
-/
theorem age_gt_imp_iff (clock : Nat) (time limit : UInt32)
    : (UInt32.ofNat clock - time > limit → time.toNat + limit.toNat < clock)
      ↔ time.toNat ≤ clock ∨ clock + 4294967296 ≤ time.toNat + limit.toNat := by
  have bound := time.toNat_lt
  have bound' := limit.toNat_lt
  have age : (UInt32.ofNat clock - time).toNat
      = (4294967296 - time.toNat + clock % 4294967296) % 4294967296 := by
    rw [UInt32.toNat_sub, UInt32.toNat_ofNat']
  rw [gt_iff_lt, UInt32.lt_iff_toNat_lt, age]
  omega

namespace ServiceDataDiscovery

variable {a : CallAnswers} {s : ServiceDataDiscovery} {dataFile : String}

-----------------------------------------------------------------------------------------
-- Ages
-----------------------------------------------------------------------------------------

/-- The size that the uPMU reports is at least the last file's. -/
def LastSize (a : CallAnswers) (s : ServiceDataDiscovery) : Prop :=
  ∃ fileSize, a.getDataFileLength = some fileSize ∧ s.mostRecentDataFileLength ≤ fileSize

theorem dataFileComplete_iff {time : UInt32}
    (timed : createTimeFromDataFileName dataFile = some time)
    : s.dataFileComplete a dataFile = some true
      ↔ UInt32.ofNat a.completeClock - time > 200 ∨ s.LastSize a := by
  rw [dataFileComplete, timed, Option.map_some, Option.some.injEq, LastSize]
  split_ifs with old
  · exact iff_of_true rfl (.inl old)
  · cases a.getDataFileLength with
    | none => simp [old]
    | some fileSize => simp [old, UInt32.not_lt]

/-- The call finds a valid directory and leaves it for its age. -/
def GivesUpDataDir (a : CallAnswers) (s : ServiceDataDiscovery) : Prop :=
  s.dataDirValid = true ∧ ∃ t, s.processDataDir a = .ok t ∧ t.dataDirValid = false

/-- No file of the set will be left: there is none, or one that is taken and processed without
a failing statement.
-/
def LeavesNoFile (a : CallAnswers) (s : ServiceDataDiscovery) : Prop :=
  s.dataFilesInDir = ∅
  ∨ ∃ dataFile, s.dataFilesInDir = {dataFile} ∧ s.nextDataFile a = .ok (some dataFile)
      ∧ a.addDataRecord = true ∧ a.getDataRecordKey = true ∧ a.releaseDataRecord = true

theorem scanDataDir_dataDir (a : CallAnswers) (s : ServiceDataDiscovery)
    : (s.scanDataDir a).dataDir = s.dataDir :=
  @scanDataDir_spec a s (fun scanned => scanned.dataDir = s.dataDir)
    (fun _ _ => rfl) (fun _ _ => rfl) (fun _ => rfl)

theorem nextDataFile_of_empty (empty : s.dataFilesInDir = ∅) : s.nextDataFile a = .ok none := by
  unfold nextDataFile
  exact dif_neg (by simp [empty])

/-- A file that is processed is out of the set, and the directory is what it was. -/
theorem processDataFile_ok_iff
    : (∃ t, s.processDataFile a dataFile = .ok t)
      ↔ a.addDataRecord = true ∧ a.getDataRecordKey = true ∧ a.releaseDataRecord = true := by
  unfold processDataFile orReturn
  cases a.addDataRecord <;> cases a.getDataRecordKey <;> cases a.releaseDataRecord <;>
    simp [bind, Except.bind]

theorem processDataFile_ok {t : ServiceDataDiscovery}
    (done : s.processDataFile a dataFile = .ok t)
    : t.dataDirValid = s.dataDirValid ∧ t.dataDir = s.dataDir
      ∧ t.dataFilesInDir = s.dataFilesInDir.erase dataFile := by
  have spec : Spec (fun _ => True)
      (fun t => t.dataDirValid = s.dataDirValid ∧ t.dataDir = s.dataDir
        ∧ t.dataFilesInDir = s.dataFilesInDir.erase dataFile)
      (s.processDataFile a dataFile) :=
    processDataFile_spec (fun _ => trivial) (fun _ _ => trivial) (fun _ _ _ => trivial)
      fun _ _ _ => ⟨rfl, rfl, rfl⟩
  rw [done] at spec
  exact spec

theorem processNextFile_ok {t : ServiceDataDiscovery} (done : s.processNextFile a = .ok t)
    : t.dataDirValid = s.dataDirValid ∧ t.dataDir = s.dataDir
      ∧ (t.dataFilesInDir = ∅ ↔ s.LeavesNoFile a) := by
  unfold processNextFile at done
  unfold LeavesNoFile
  rcases nextDataFile_cases a s with thrown | noFile | ⟨dataFile, member, taken⟩
  · rw [thrown] at done
    cases done
  · rw [noFile] at done
    obtain rfl := Except.ok.inj done
    simp [noFile]
  · rw [taken] at done
    have answers := processDataFile_ok_iff.mp ⟨t, done⟩
    obtain ⟨valid, dataDir, files⟩ := processDataFile_ok done
    refine ⟨valid, dataDir, ?_⟩
    rw [files, Finset.erase_eq_empty_iff, taken]
    refine or_congr_right ⟨fun one => ⟨dataFile, one, rfl, answers⟩, fun one => ?_⟩
    obtain ⟨other, one, same, _⟩ := one
    rw [one, Option.some.inj (Except.ok.inj same)]

theorem LeavesNoFile.processNextFile (leaves : s.LeavesNoFile a)
    : ∃ t, s.processNextFile a = .ok t := by
  rcases leaves with empty | ⟨dataFile, _, taken, answers⟩
  · exact ⟨s, by rw [ServiceDataDiscovery.processNextFile, nextDataFile_of_empty empty]; rfl⟩
  · obtain ⟨t, done⟩ := (@processDataFile_ok_iff a s dataFile).mpr answers
    exact ⟨t, by rw [ServiceDataDiscovery.processNextFile, taken]; exact done⟩

/-- When a directory is given up. -/
theorem givesUpDataDir_iff
    : s.GivesUpDataDir a
      ↔ s.dataDirValid = true ∧ (s.scanDataDir a).LeavesNoFile a
        ∧ UInt32.ofNat a.ageClock - createTimeFromDataDir s.dataDir > 60 * 60 := by
  unfold GivesUpDataDir processDataDir
  refine and_congr_right fun valid => ?_
  rw [if_pos valid]
  have aged {t : ServiceDataDiscovery} (done : (s.scanDataDir a).processNextFile a = .ok t)
      : (t.giveUpDataDir a).dataDirValid = false
        ↔ (s.scanDataDir a).LeavesNoFile a
          ∧ UInt32.ofNat a.ageClock - createTimeFromDataDir s.dataDir > 60 * 60 := by
    obtain ⟨stays, dataDir, files⟩ := processNextFile_ok done
    rw [scanDataDir_dataDirValid, valid] at stays
    rw [← files, ← scanDataDir_dataDir a s, ← dataDir, giveUpDataDir]
    split_ifs with late
    · exact iff_of_true rfl late
    · exact iff_of_false (by simp [stays]) late
  constructor
  · intro givesUp
    obtain ⟨t, done, invalid⟩ := givesUp
    cases next : (s.scanDataDir a).processNextFile a with
    | error _ =>
        rw [next] at done
        cases done
    | ok t' =>
        rw [next] at done
        obtain rfl := Except.ok.inj done
        exact (aged next).mp invalid
  · intro late
    obtain ⟨t, done⟩ := late.1.processNextFile
    refine ⟨t.giveUpDataDir a, ?_, (aged done).mpr late⟩
    rw [done]
    rfl

/-- A file counts as complete for its age, and a directory is given up for its age, only if they
are as old as they have to be, exactly when the time is not ahead of the clock, or so far ahead
that the difference is small again; or the age does not decide.
-/
theorem ages_iff {time : UInt32} (timed : createTimeFromDataFileName dataFile = some time)
    : ((s.dataFileComplete a dataFile = some true →
          time.toNat + 200 < a.completeClock ∨ s.LastSize a)
        ↔ time.toNat ≤ a.completeClock ∨ a.completeClock + 4294967296 ≤ time.toNat + 200
          ∨ s.LastSize a)
      ∧ ((s.GivesUpDataDir a → (createTimeFromDataDir s.dataDir).toNat + 3600 < a.ageClock)
        ↔ (createTimeFromDataDir s.dataDir).toNat ≤ a.ageClock
          ∨ a.ageClock + 4294967296 ≤ (createTimeFromDataDir s.dataDir).toNat + 3600
          ∨ ¬(s.dataDirValid = true ∧ (s.scanDataDir a).LeavesNoFile a)) := by
  have file : (_ → time.toNat + 200 < _) ↔ _ := age_gt_imp_iff a.completeClock time 200
  have directory : (_ → (createTimeFromDataDir s.dataDir).toNat + 3600 < _) ↔ _ :=
    age_gt_imp_iff a.ageClock (createTimeFromDataDir s.dataDir) (60 * 60)
  constructor
  · rw [dataFileComplete_iff timed, ← or_assoc]
    refine Iff.trans ?_ (or_congr_left file)
    by_cases size : s.LastSize a <;> simp [size]
  · rw [givesUpDataDir_iff, ← or_assoc]
    refine Iff.trans ?_ (or_congr_left directory)
    rw [← and_assoc]
    by_cases left : s.dataDirValid = true ∧ (s.scanDataDir a).LeavesNoFile a <;> simp [left]

/-- The hour from one o'clock on, without files. -/
def emptyDataDir : ServiceDataDiscovery :=
  { oneDataFile with
    dataDir := { year := 1970, month := 1, day := 1, hour := 1 }
    dataFilesInDir := ∅ }

/-- Once a file and a directory have begun, a young file is not complete and a young directory is
not given up; ahead of the clock, both may happen too early.
-/
theorem ages_iff_clocks
    : oneDataFile.dataFileComplete { completeClock := 700 } "upmu_1970-01-01-00-10-00.dat"
        ≠ some true
      ∧ ¬emptyDataDir.GivesUpDataDir { ageClock := 5000 }
      ∧ ¬(oneDataFile.dataFileComplete { completeClock := 300 } "upmu_1970-01-01-00-10-00.dat"
            = some true →
          UInt32.toNat 600 + 200 < 300 ∨ oneDataFile.LastSize { completeClock := 300 })
      ∧ ¬(emptyDataDir.GivesUpDataDir { ageClock := 3000 } →
          (createTimeFromDataDir emptyDataDir.dataDir).toNat + 3600 < 3000) := by
  have timed : createTimeFromDataFileName "upmu_1970-01-01-00-10-00.dat" = some 600 := by
    decide +kernel
  have begins : (createTimeFromDataDir emptyDataDir.dataDir).toNat = 3600 := by decide +kernel
  have noSize (clock : Nat) : ¬oneDataFile.LastSize { completeClock := clock } := by
    rintro ⟨_, reported, _⟩
    cases reported
  have file (clock : Nat) := (@ages_iff { completeClock := clock } oneDataFile _ _ timed).1
  have directory (clock : Nat) := (@ages_iff { ageClock := clock } emptyDataDir _ _ timed).2
  refine ⟨fun complete => ?_, fun givesUp => ?_, ?_, ?_⟩
  · rcases (file 700).mpr (.inl (by decide)) complete with old | size
    · exact absurd old (by decide)
    · exact noSize 700 size
  · have old := (directory 5000).mpr (.inl (by rw [begins]; decide)) givesUp
    rw [begins] at old
    exact absurd old (by decide)
  · rw [file]
    simp [noSize]
  · rw [directory, begins]
    have left : emptyDataDir.dataDirValid = true
        ∧ (emptyDataDir.scanDataDir { ageClock := 3000 }).LeavesNoFile { ageClock := 3000 } :=
      ⟨rfl, .inl rfl⟩
    simp [left]

/-- One second ahead of the clock, a shorter file counts as complete, and an hour that is about
to begin is given up.
-/
theorem ages_ahead
    : ¬(dataFileComplete { completeClock := 599, getDataFileLength := some 6312 }
            "upmu_1970-01-01-00-10-00.dat" { oneDataFile with mostRecentDataFileLength := 757440 }
          = some true →
        600 + 200 < 599
        ∨ LastSize { completeClock := 599, getDataFileLength := some 6312 }
            { oneDataFile with mostRecentDataFileLength := 757440 })
      ∧ ¬(GivesUpDataDir { ageClock := 3599 }
            { oneDataFile with
              dataDir := { year := 1970, month := 1, day := 1, hour := 1 }
              dataFilesInDir := ∅ } →
          3600 + 3600 < 3599) := by
  have timed : createTimeFromDataFileName "upmu_1970-01-01-00-10-00.dat" = some 600 := by
    decide +kernel
  constructor
  · intro old
    rcases old ((dataFileComplete_iff timed).mpr (.inl (by decide))) with early | size
    · exact absurd early (by decide)
    · obtain ⟨fileSize, reported, large⟩ := size
      obtain rfl := Option.some.inj reported
      exact absurd large (by decide)
  · intro old
    exact absurd (old (givesUpDataDir_iff.mpr ⟨rfl, .inl rfl, by decide +kernel⟩)) (by decide)

-----------------------------------------------------------------------------------------
-- Names without a time
-----------------------------------------------------------------------------------------

/-- The call looks at the time of a file: the first one of the set, if the directory is valid
and not too many buffers are outstanding.
-/
def ExaminesDataFile (a : CallAnswers) (dataFile : String) (s : ServiceDataDiscovery) : Prop :=
  s.dataDirValid = true ∧ a.sharedInMemDataBufferCnt ≤ maxOutstandingMemBuf
  ∧ ∃ files : (s.scanDataDir a).dataFilesInDir.Nonempty,
      dataFile = (s.scanDataDir a).dataFilesInDir.min' files

theorem nextDataFile_throws_iff
    : s.nextDataFile a = .error { s with point := .stopped }
      ↔ a.sharedInMemDataBufferCnt ≤ maxOutstandingMemBuf
        ∧ ∃ files : s.dataFilesInDir.Nonempty, ¬HasTime (s.dataFilesInDir.min' files) := by
  unfold nextDataFile
  split_ifs with files few
  · dsimp only
    have throws : s.dataFileComplete a (s.dataFilesInDir.min' files) = none
        ↔ ¬HasTime (s.dataFilesInDir.min' files) := by
      rw [dataFileComplete, Option.map_eq_none_iff, ← createTimeFromDataFileName_isSome_iff,
        Option.not_isSome_iff_eq_none]
    cases complete : s.dataFileComplete a (s.dataFilesInDir.min' files) with
    | none => exact iff_of_true rfl ⟨few, files, throws.mp complete⟩
    | some complete' =>
        have timed : HasTime (s.dataFilesInDir.min' files) := by
          by_contra untimed
          rw [throws.mpr untimed] at complete
          cases complete
        cases complete' <;> simp [timed]
  · exact iff_of_false (by simp) fun throws => few throws.1
  · exact iff_of_false (by simp) fun throws => files throws.2.1

/-- Without an exception, the call leaves the thread where it is. -/
theorem processNextFile_point (running : s.point = .running)
    (returns : s.nextDataFile a ≠ .error { s with point := .stopped })
    : Spec (fun t => t.point = .running) (fun t => t.point = .running)
        (s.processNextFile a) := by
  unfold processNextFile
  rcases nextDataFile_cases a s with thrown | noFile | ⟨dataFile, _, taken⟩
  · exact absurd thrown returns
  · rw [noFile]
    exact running
  · rw [taken]
    exact processDataFile_spec (fun _ => running) (fun _ _ => running) (fun _ _ _ => running)
      fun _ _ _ => running

theorem leaveDataDir_point (running : s.point = .running)
    : Spec (fun t => t.point = .running) (fun t => t.point = .running) (s.leaveDataDir a) := by
  unfold leaveDataDir
  split_ifs
  · exact running
  · refine (@releaseDataDir_spec a s (fun t => t.point = .running) (fun t => t.point = .running)
      (fun _ => running) (fun _ _ => running) (fun _ _ => running)).bind fun t released => ?_
    exact @nextDataDir_spec a t (fun t => t.point = .running) (fun t => t.point = .running)
      (fun _ => released) (fun _ => by rw [stepOn]; exact released) (fun _ arrived _ => arrived)
      (fun _ arrived _ _ _ => arrived)

theorem processUPMUdata_point_iff (running : s.point = .running)
    : (s.processUPMUdata a).point = .running
      ↔ ∀ dataFile, s.ExaminesDataFile a dataFile → HasTime dataFile := by
  have scanned : (s.scanDataDir a).point = .running :=
    @scanDataDir_spec a s (fun scanned => scanned.point = .running)
      (fun _ _ => running) (fun _ _ => running) (fun _ => running)
  unfold processUPMUdata
  rw [if_pos running]
  by_cases throws : s.dataDirValid = true
      ∧ (s.scanDataDir a).nextDataFile a = .error { s.scanDataDir a with point := .stopped }
  · obtain ⟨valid, thrown⟩ := throws
    obtain ⟨few, files, untimed⟩ := nextDataFile_throws_iff.mp thrown
    have stops : s.processBody a = .error { s.scanDataDir a with point := .stopped } := by
      rw [processBody, processDataDir, if_pos valid, processNextFile, thrown]
      rfl
    rw [stops]
    exact iff_of_false (fun goesOn => by cases goesOn) fun timed =>
      untimed (timed _ ⟨valid, few, files, rfl⟩)
  · have files : Spec (fun t => t.point = .running) (fun t => t.point = .running)
        (s.processDataDir a) := by
      unfold processDataDir
      split_ifs with valid
      · refine (processNextFile_point scanned fun thrown => throws ⟨valid, thrown⟩).bind
          fun t reached => ?_
        change (t.giveUpDataDir a).point = .running
        unfold giveUpDataDir
        split_ifs
        · exact reached
        · exact reached
      · exact running
    have returns : Spec (fun t => t.point = .running) (fun t => t.point = .running)
        (s.processBody a) := files.bind fun t reached => leaveDataDir_point reached
    refine iff_of_true returns.leaves ?_
    intro dataFile examines
    obtain ⟨valid, few, files, rfl⟩ := examines
    by_contra untimed
    exact throws ⟨valid, nextDataFile_throws_iff.mpr ⟨few, files, untimed⟩⟩

/-- A call returns normally exactly when the name that it looks at, if it does, has a time; and
in every run whose calls look at no other names, the service goes on.
-/
theorem processUPMUdata_returns_iff (running : s.point = .running)
    : ((s.processUPMUdata a).point = .running
        ↔ ∀ dataFile, s.ExaminesDataFile a dataFile → HasTime dataFile)
      ∧ ∀ calls,
          Meets processUPMUdata
            (fun a s => ∀ dataFile, s.ExaminesDataFile a dataFile → HasTime dataFile) calls s →
          (run processUPMUdata calls s).point = .running := by
  refine ⟨processUPMUdata_point_iff running, ?_⟩
  intro calls timed
  have kept (a : CallAnswers) (s : ServiceDataDiscovery) (running : s.point = .running)
      (timed : ∀ dataFile, s.ExaminesDataFile a dataFile → HasTime dataFile)
      : (s.processUPMUdata a).point = .running :=
    (processUPMUdata_point_iff running).mpr timed
  exact timed.invariant kept running

/-- A file with a time. -/
theorem processUPMUdata_returns_iff_one
    : ((oneDataFile.processUPMUdata { completeClock := 1000 }).point = .running
        ↔ ∀ dataFile, oneDataFile.ExaminesDataFile { completeClock := 1000 } dataFile →
            HasTime dataFile)
      ∧ ∀ calls,
          Meets processUPMUdata
            (fun a s => ∀ dataFile, s.ExaminesDataFile a dataFile → HasTime dataFile) calls
            oneDataFile →
          (run processUPMUdata calls oneDataFile).point = .running :=
  processUPMUdata_returns_iff rfl

/-- Another file in the listing, whose name is no time, ends the service. -/
theorem processUPMUdata_strangeName
    : ¬(processUPMUdata { getDataFileList := some {"README"} }
          { oneDataFile with dataFilesInDir := ∅ }).point = .running := by
  decide +kernel

end ServiceDataDiscovery

end Sparcs.Discovery
