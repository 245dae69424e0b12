import Sparcs.Discovery.Rules

/-! When an hour directory is closed: the thread decides by its set of files to process, which
is empty also where nothing could be listed.
-/

namespace Sparcs.Discovery

open CallRuns FuelLoop

/-- The names that a listing of the directory read, if the event is one. -/
def Event.listing? (dirName : String) : Event → Option (Option (Finset String))
  | .listed name names => if name = dirName then some names else none
  | _ => none

/-- The outcome of the most recent listing of a directory. -/
def latestListing (dirName : String) (history : List Event) : Option (Option (Finset String)) :=
  history.findSome? (Event.listing? dirName)

/-- A directory is closed only after a listing that succeeded, all of whose names are
processed.
-/
def ClosedWhenFinished : Event → List Event → Prop
  | .releasedDir dirName dataFilesProcessed, earlier =>
      ∃ names, latestListing dirName earlier = some (some names) ∧ names ⊆ dataFilesProcessed
  | _, _ => True

namespace ServiceDataDiscovery

/-- A stored current directory can be checked when the service starts. -/
def StartAnswers.Answered (start : StartAnswers) (upmuDataDirectory : SerialTable DirectoryRow)
    : Prop :=
  ∀ dataDir a rest,
    startingDirectory upmuDataDirectory {} = .ok dataDir →
      dataDir.state = .current → start.turns = a :: rest →
        a.verifyDataDirPresent ≠ .ftpNotResp

/-- A directory without files to process that began more than an hour ago can be listed. -/
def ListsOldDataDir (a : CallAnswers) (s : ServiceDataDiscovery) : Prop :=
  s.point = .running → s.dataDirValid = true →
    (s.dataDirAccessInProgress = true → s.dataFilesInDir = ∅) →
      UInt32.ofNat a.ageClock - createTimeFromDataDir s.dataDir > 60 * 60 →
        a.getDataFileList.isSome = true

/-- The most recent listing succeeded, and its names are in the two sets. -/
def Listed (s : ServiceDataDiscovery) : Prop :=
  ∃ names, latestListing s.dataDir.dirName s.history = some (some names)
    ∧ names ⊆ s.dataFilesProcessed ∪ s.dataFilesInDir

/-- The call does not give the directory up, or after a listing that succeeded. -/
def ListedOrYoung (a : CallAnswers) (s : ServiceDataDiscovery) : Prop :=
  s.Listed
  ∨ s.dataFilesInDir = ∅
    ∧ ¬UInt32.ofNat a.ageClock - createTimeFromDataDir s.dataDir > 60 * 60

/-- No directory has been closed too early, and the present one will not be. -/
structure Unfinished (s : ServiceDataDiscovery) : Prop where
  history : Each ClosedWhenFinished s.history
  invalid
    : s.point = .running → s.dataDirValid = false →
        s.dataFilesInDir = ∅ ∧ (s.dataDir.state = .current → s.Listed)
  inProgress
    : s.point = .running → s.dataDirValid = true → s.dataDirAccessInProgress = true →
        s.dataFilesInDir ≠ ∅ → s.Listed

variable {a : CallAnswers} {s next : ServiceDataDiscovery} {dataFile : String}

/-- Events that list nothing do not matter. -/
theorem Listed.step (listed : s.Listed) {event : Event}
    (other : Event.listing? s.dataDir.dirName event = none)
    (history : next.history = event :: s.history)
    (dirName : next.dataDir.dirName = s.dataDir.dirName)
    (names
      : s.dataFilesProcessed ∪ s.dataFilesInDir
        ⊆ next.dataFilesProcessed ∪ next.dataFilesInDir)
    : next.Listed := by
  obtain ⟨listing, latest, found⟩ := listed
  refine ⟨listing, ?_, found.trans names⟩
  rw [latestListing, history, dirName, List.findSome?_cons, other]
  exact latest

theorem listDataFiles_listed (names : Finset String) (s : ServiceDataDiscovery)
    : (s.listDataFiles (some names)).Listed := by
  refine ⟨names, by simp [latestListing, listDataFiles, Event.listing?], ?_⟩
  intro name member
  simp only [listDataFiles, Finset.mem_union, Finset.mem_sdiff, Option.getD_some]
  tauto

/-- Taking a file moves its name from one set to the other. -/
theorem Listed.takeDataFile (listed : s.Listed) : (s.takeDataFile dataFile).Listed := by
  obtain ⟨listing, latest, found⟩ := listed
  refine ⟨listing, latest, fun name member => ?_⟩
  have known := found member
  simp only [ServiceDataDiscovery.takeDataFile, Finset.mem_union, Finset.mem_insert,
    Finset.mem_erase] at known ⊢
  tauto

namespace Unfinished

/-- A step for a valid directory whose listing is known, or that has no files to process. -/
theorem of_valid (history : Each ClosedWhenFinished next.history)
    (valid : next.dataDirValid = true) (listed : next.dataFilesInDir ≠ ∅ → next.Listed)
    : next.Unfinished where
  history
  invalid := by simp [valid]
  inProgress := fun _ _ _ => listed

/-- After a scan the files are listed, or the directory is not old. -/
theorem scanDataDir (unfinished : s.Unfinished) (running : s.point = .running)
    (valid : s.dataDirValid = true) (lists : s.ListsOldDataDir a)
    : Each ClosedWhenFinished (s.scanDataDir a).history ∧ (s.scanDataDir a).ListedOrYoung a := by
  have lists := lists running valid
  refine @scanDataDir_spec a s
    (fun scanned => Each ClosedWhenFinished scanned.history ∧ scanned.ListedOrYoung a) ?_ ?_ ?_
  · intro access files
    exact ⟨unfinished.history, .inl (unfinished.inProgress running valid access files)⟩
  · intro _ noFiles
    refine ⟨⟨trivial, unfinished.history⟩, ?_⟩
    cases listing : a.getDataFileList with
    | some names => exact .inl (listDataFiles_listed names _)
    | none =>
        refine .inr ⟨by simp [listDataFiles, noFiles], fun old => ?_⟩
        simpa [listing] using lists (fun _ => noFiles) old
  · intro first
    refine ⟨⟨trivial, unfinished.history⟩, ?_⟩
    cases listing : a.getDataFileList with
    | some names => exact .inl (listDataFiles_listed names _)
    | none =>
        refine .inr ⟨by simp [listDataFiles], fun old => ?_⟩
        simpa [listing] using lists (by simp [first]) old

theorem processBody (unfinished : s.Unfinished) (running : s.point = .running)
    (lists : s.ListsOldDataDir a)
    : Spec Unfinished Unfinished (s.processBody a) := by
  refine processBody_spec
    (fun s => s.dataDirValid = true ∧ Each ClosedWhenFinished s.history ∧ s.ListedOrYoung a)
    (fun s => s.dataDirValid = true ∧ Each ClosedWhenFinished s.history ∧ s.ListedOrYoung a)
    (fun s => s.dataDirValid = false ∧ Each ClosedWhenFinished s.history
      ∧ s.dataFilesInDir = ∅ ∧ (s.dataDir.state = .current → s.Listed))
    (fun s => s.dataDirValid = false ∧ Each ClosedWhenFinished s.history
      ∧ s.dataFilesInDir = ∅ ∧ s.dataDir.state ≠ .current) ?_ ?_ ?_ ?_ ?_ ?_ ?_ ?_ ?_
  · intro valid
    exact ⟨(scanDataDir_dataDirValid a s).trans valid, unfinished.scanDataDir running valid lists⟩
  · intro s scanned
    exact ⟨scanned.2.1, by simp, by simp⟩
  · intro s scanned
    exact scanned
  · intro s scanned dataFile member _
    obtain ⟨valid, history, files⟩ := scanned
    have taken : (s.takeDataFile dataFile).Listed := by
      rcases files with listed | ⟨empty, _⟩
      · exact listed.takeDataFile
      · rw [empty] at member
        exact absurd member (Finset.notMem_empty _)
    have offered
        : (((s.takeDataFile dataFile).addDataRecord dataFile).offerDataFile dataFile
          a.getDataFile).Listed :=
      taken.step rfl rfl rfl (Finset.Subset.refl _)
    refine processDataFile_spec ?_ ?_ ?_ ?_
    · intro _
      exact of_valid history valid fun _ => taken
    · intro _ _
      exact of_valid history valid fun _ => taken
    · intro _ _ _
      exact of_valid ⟨trivial, history⟩ valid fun _ => offered
    · intro _ _ _
      exact ⟨valid, ⟨trivial, history⟩, .inl offered⟩
  · intro s tried
    obtain ⟨valid, history, files⟩ := tried
    refine ⟨valid, of_valid history valid fun nonempty => ?_⟩
    exact files.resolve_right fun young => nonempty young.1
  · intro s tried empty old
    obtain ⟨_, history, files⟩ := tried
    exact ⟨rfl, history, empty, fun _ => files.resolve_right fun young => young.2 old⟩
  · intro notValid
    exact ⟨notValid, unfinished.history, unfinished.invalid running notValid⟩
  · intro s invalid
    obtain ⟨notValid, history, empty, finished⟩ := invalid
    have closes (current : s.dataDir.state = .current)
        : ClosedWhenFinished (.releasedDir s.dataDir.dirName s.dataFilesProcessed)
            s.history := by
      obtain ⟨names, latest, processed⟩ := finished current
      rw [empty, Finset.union_empty] at processed
      exact ⟨names, latest, processed⟩
    refine ⟨notValid, releaseDataDir_spec ?_ ?_ ?_⟩
    · intro other
      exact ⟨notValid, history, empty, other⟩
    · intro current _
      exact ⟨⟨closes current, history⟩,
        fun _ _ => ⟨empty, fun _ => (finished current).step rfl rfl rfl (Finset.Subset.refl _)⟩,
        by simp [notValid]⟩
    · intro current _
      exact ⟨notValid, ⟨closes current, history⟩, empty, by simp⟩
  · intro s released
    refine nextDataDir_spec (fun s => s.dataDirValid = false
      ∧ Each ClosedWhenFinished s.history ∧ s.dataFilesInDir = ∅
      ∧ s.dataDir.state ≠ .current) (fun _ => released) ?_ ?_ ?_
    · intro _
      obtain ⟨notValid, history, empty, _⟩ := released
      rw [stepOn]
      exact ⟨notValid, ⟨trivial, history⟩, empty, by simp⟩
    · intro s arrived _
      obtain ⟨notValid, history, empty, other⟩ := arrived
      exact ⟨⟨trivial, history⟩, fun _ _ => ⟨empty, fun current => absurd current other⟩,
        by simp [check, notValid]⟩
    · intro s arrived _ dbID upmuDataDirectory
      obtain ⟨_, history, empty, _⟩ := arrived
      exact of_valid ⟨trivial, history⟩ rfl fun nonempty => absurd empty nonempty

theorem processUPMUdata (unfinished : s.Unfinished) (lists : s.ListsOldDataDir a)
    : (s.processUPMUdata a).Unfinished := by
  unfold ServiceDataDiscovery.processUPMUdata
  split_ifs with running
  · obtain ⟨history, invalid, inProgress⟩ := (unfinished.processBody running lists).leaves
    exact ⟨history, invalid, inProgress⟩
  · exact unfinished

/-- A turn leaves a directory that is not valid only in another state than `current`. -/
theorem checkTurn {a : TurnAnswers} (history : Each ClosedWhenFinished s.history)
    (answered : s.dataDir.state = .current → a.verifyDataDirPresent ≠ .ftpNotResp)
    : (s.checkTurn a).Spec
        (fun next => Each ClosedWhenFinished next.history ∧ next.dataDir.state ≠ .current)
        (fun result => Each ClosedWhenFinished result.2.history
          ∧ (result.1 = .dataDirOk → result.2.dataDirValid = false →
              result.2.dataDir.state ≠ .current)) := by
  refine @checkTurn_spec s a
    (fun next => Each ClosedWhenFinished next.history ∧ next.dataDir.state ≠ .current)
    (fun sts next => Each ClosedWhenFinished next.history
      ∧ (sts = .dataDirOk → next.dataDirValid = false → next.dataDir.state ≠ .current))
    ?_ ?_ ?_ ?_ ?_ ?_
  · intro notResp
    exact ⟨⟨trivial, history⟩, fun _ _ current => answered current notResp⟩
  · intro _ _
    exact ⟨⟨trivial, history⟩, by simp⟩
  · intro _ _ dbID upmuDataDirectory
    exact ⟨⟨trivial, history⟩, by simp⟩
  · intro upmuDataDirectory
    exact ⟨⟨trivial, history⟩, by simp⟩
  · intro _ _ upmuDataDirectory
    exact ⟨⟨trivial, trivial, history⟩, by simp [stepOn]⟩
  · intro _ _ upmuDataDirectory
    exact ⟨⟨trivial, trivial, history⟩, by simp [stepOn]⟩

theorem walkTurn {a : TurnAnswers} (history : Each ClosedWhenFinished s.history)
    (answered : s.dataDir.state = .current → a.verifyDataDirPresent ≠ .ftpNotResp)
    : (s.walkTurn a).Spec
        (fun next => Each ClosedWhenFinished next.history ∧ next.dataDir.state ≠ .current)
        (fun result => Each ClosedWhenFinished result.2.history
          ∧ (result.1 = .dataDirOk → result.2.dataDirValid = false →
              result.2.dataDir.state ≠ .current)) := by
  refine @walkTurn_spec s a
    (fun next => Each ClosedWhenFinished next.history ∧ next.dataDir.state ≠ .current)
    (fun sts next => Each ClosedWhenFinished next.history
      ∧ (sts = .dataDirOk → next.dataDirValid = false → next.dataDir.state ≠ .current))
    ?_ ?_ ?_
  · intro _ _
    exact ⟨⟨trivial, history⟩, by simp⟩
  · intro _ _
    exact checkTurn ⟨trivial, history⟩ (by simp [stepOn])
  · intro _
    exact checkTurn history answered

/-- A start leaves a directory that would be closed unfinished only where the stored current
one was not checked.
-/
theorem initService {start : StartAnswers} {upmuDataDirectory : SerialTable DirectoryRow}
    (upmuDataFile : SerialTable FileRow) (services : List (String × Bool))
    (answered : start.Answered upmuDataDirectory)
    : ((new upmuDataDirectory upmuDataFile services).initService start).Unfinished := by
  refine @initService_spec _ Unfinished start
    (fun rest s => SameFiles (new upmuDataDirectory upmuDataFile services) s
      ∧ Each ClosedWhenFinished s.history
      ∧ ∀ a rest', rest = a :: rest' → s.dataDir.state = .current →
          a.verifyDataDirPresent ≠ .ftpNotResp)
    (fun sts s => SameFiles (new upmuDataDirectory upmuDataFile services) s
      ∧ Each ClosedWhenFinished s.history
      ∧ (sts = .dataDirOk → s.dataDirValid = false → s.dataDir.state ≠ .current))
    ?_ ?_ ?_ ?_ ?_ ?_ ?_ ?_
  · exact ⟨trivial, by simp, by simp⟩
  · intro dataDir _
    exact ⟨trivial, by simp, by simp⟩
  · intro dataDir _ chosen
    exact ⟨⟨rfl, rfl, rfl, rfl, rfl⟩, trivial,
      fun a rest turns current => answered dataDir a rest chosen current turns⟩
  · intro a rest s walking
    obtain ⟨same, history, answered⟩ := walking
    have files := walkTurn_sameFiles a s
    have turn := walkTurn history (answered a rest rfl)
    cases reached : s.walkTurn a with
    | again next =>
        rw [reached] at files turn
        exact ⟨same.trans files, turn.1, fun _ _ _ current => absurd current turn.2⟩
    | leave last =>
        rw [reached] at files turn
        exact ⟨same.trans files, turn⟩
  · intro s walking
    have point := walking.1.point
    exact ⟨walking.2.1, by simp [point, new], by simp [point, new]⟩
  · intro sts s left
    exact ⟨left.2.1, by simp, by simp⟩
  · intro s left
    obtain ⟨same, history, other⟩ := left
    exact ⟨history, fun _ notValid => ⟨same.dataFilesInDir,
      fun current => absurd current (other rfl notValid)⟩, by simp⟩
  · intro s dataFilesProcessed left _
    obtain ⟨_, history, other⟩ := left
    exact ⟨history, fun _ notValid => ⟨rfl,
      fun current => absurd current (other rfl notValid)⟩, by simp⟩

end Unfinished

/-- In every run from a start at which a stored current directory can be checked, and whose
calls can list the directories that they are about to give up, a directory is closed only if
its most recent listing succeeded and all the names are processed.
-/
theorem service_closesFinished (start : StartAnswers) (calls : List CallAnswers)
    (upmuDataDirectory : SerialTable DirectoryRow) (upmuDataFile : SerialTable FileRow)
    (services : List (String × Bool)) (answered : start.Answered upmuDataDirectory)
    (lists
      : Meets processUPMUdata ListsOldDataDir calls
          ((new upmuDataDirectory upmuDataFile services).initService start))
    : ∀ dirName dataFilesProcessed later earlier,
        (service start calls (new upmuDataDirectory upmuDataFile services)).history
            = later ++ .releasedDir dirName dataFilesProcessed :: earlier →
          ∃ names, latestListing dirName earlier = some (some names)
            ∧ names ⊆ dataFilesProcessed := by
  intro dirName dataFilesProcessed later earlier closed
  have unfinished := lists.invariant (fun _ _ unfinished => unfinished.processUPMUdata)
    (Unfinished.initService upmuDataFile services answered)
  exact each_iff.mp unfinished.history later _ earlier closed

/-- A directory that was listed without a file is closed when it is old. -/
theorem service_closesFinished_one
    : ∃ names,
        latestListing "/upmu_data/1970/Month_01/Day_02/Hour_03/"
            [.listed "/upmu_data/1970/Month_01/Day_02/Hour_03/" (some ∅),
              .checked "/upmu_data/1970/Month_01/Day_02/Hour_03/" .dirPresent]
          = some (some names)
        ∧ names ⊆ ∅ :=
  service_closesFinished { turns := [{}] }
    [{ getDataFileList := some ∅
       ageClock := 104400
       presentClock := 104400
       verifyDataDirPresent := .dirNotPresent }]
    oneDataDir {} []
    (fun _ _ _ _ _ turns => by
      obtain ⟨rfl, _⟩ := List.cons.inj turns
      decide)
    ⟨fun _ _ _ _ => rfl, trivial⟩ "/upmu_data/1970/Month_01/Day_02/Hour_03/" ∅
    [.checked "/upmu_data/1970/Month_01/Day_02/Hour_04/" .dirNotPresent,
      .left "/upmu_data/1970/Month_01/Day_02/Hour_03/" .unknown]
    _ (by decide +kernel)

/-- A stored directory that could not be checked at the start is closed by the first call,
without any listing.
-/
theorem service_closes_unlisted
    : ¬∀ dirName dataFilesProcessed later earlier,
        (service { turns := [{ verifyDataDirPresent := .ftpNotResp }] }
            [{ presentClock := 104400, verifyDataDirPresent := .dirNotPresent }]
            (new oneDataDir {} [])).history
            = later ++ .releasedDir dirName dataFilesProcessed :: earlier →
          ∃ names, latestListing dirName earlier = some (some names)
            ∧ names ⊆ dataFilesProcessed := by
  intro finished
  obtain ⟨names, latest, _⟩ := finished "/upmu_data/1970/Month_01/Day_02/Hour_03/" ∅
    [.checked "/upmu_data/1970/Month_01/Day_02/Hour_04/" .dirNotPresent,
      .left "/upmu_data/1970/Month_01/Day_02/Hour_03/" .unknown]
    [.checked "/upmu_data/1970/Month_01/Day_02/Hour_03/" .ftpNotResp] (by decide +kernel)
  simp [latestListing, Event.listing?] at latest

end ServiceDataDiscovery

end Sparcs.Discovery
