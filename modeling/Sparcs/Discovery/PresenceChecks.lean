import Sparcs.Discovery.Rules

/-! Which presence check a directory is left after. In the loop at the start a directory that
does not answer is kept; a call that begins with such a directory leaves it unasked.
-/

namespace Sparcs.Discovery

open CallRuns FuelLoop

/-- The answer of a check of the directory, if the event is one. -/
def Event.presence? (dirName : String) : Event → Option Presence
  | .checked name sts => if name = dirName then some sts else none
  | _ => none

/-- The answer of the most recent check of a directory. -/
def latestCheck (dirName : String) (history : List Event) : Option Presence :=
  history.findSome? (Event.presence? dirName)

/-- The most recent check has told whether the directory is there. -/
def Told (dirName : String) (history : List Event) : Prop :=
  latestCheck dirName history = some .dirPresent
  ∨ latestCheck dirName history = some .dirNotPresent

instance (dirName : String) (history : List Event) : Decidable (Told dirName history) :=
  inferInstanceAs (Decidable (_ ∨ _))

/-- A directory is left only when a check has told whether it is there. The stored processed
directory, from which a start goes on, was checked before the start.
-/
def LeftWhenTold : Event → List Event → Prop
  | .left dirName state, earlier =>
      Told dirName earlier ∨ state = .processed ∧ earlier = []
  | _, _ => True

theorem Told.cons {dirName : String} {history : List Event} {event : Event}
    (told : Told dirName history) (other : event.presence? dirName = none)
    : Told dirName (event :: history) := by
  unfold Told latestCheck at *
  rwa [List.findSome?_cons, other]

theorem told_dirPresent (dirName : String) (history : List Event)
    : Told dirName (.checked dirName .dirPresent :: history) :=
  .inl (by simp [latestCheck, Event.presence?])

theorem told_dirNotPresent (dirName : String) (history : List Event)
    : Told dirName (.checked dirName .dirNotPresent :: history) :=
  .inr (by simp [latestCheck, Event.presence?])

namespace ServiceDataDiscovery

/-- A call that would leave a directory without having been told finds the clock in the
directory's hour.
-/
def StaysUntilTold (a : CallAnswers) (s : ServiceDataDiscovery) : Prop :=
  s.point = .running → s.dataDirValid = false →
    (s.dataDir.state = .current → a.releaseDirRecord = true) →
      ¬Told s.dataDir.dirName s.history → isDataDirAtPresent s.dataDir a.presentClock = true

instance (a : CallAnswers) (s : ServiceDataDiscovery) : Decidable (s.StaysUntilTold a) :=
  inferInstanceAs (Decidable (_ → _ → _ → _ → _))

/-- Every directory was left when told, and the valid one is there. -/
structure Asking (s : ServiceDataDiscovery) : Prop where
  history : Each LeftWhenTold s.history
  valid : s.point = .running → s.dataDirValid = true → Told s.dataDir.dirName s.history

namespace Asking

variable {a : CallAnswers} {s next : ServiceDataDiscovery}

theorem scanDataDir (asking : s.Asking) (running : s.point = .running)
    (valid : s.dataDirValid = true)
    : (s.scanDataDir a).dataDirValid = true ∧ Each LeftWhenTold (s.scanDataDir a).history
      ∧ Told (s.scanDataDir a).dataDir.dirName (s.scanDataDir a).history := by
  have told := asking.valid running valid
  exact @scanDataDir_spec a s
    (fun scanned => scanned.dataDirValid = true ∧ Each LeftWhenTold scanned.history
      ∧ Told scanned.dataDir.dirName scanned.history)
    (fun _ _ => ⟨valid, asking.history, told⟩)
    (fun _ _ => ⟨valid, ⟨trivial, asking.history⟩, told.cons rfl⟩)
    (fun _ => ⟨valid, ⟨trivial, asking.history⟩, told.cons rfl⟩)

theorem processBody (asking : s.Asking) (running : s.point = .running)
    (stays : s.StaysUntilTold a)
    : Spec Asking Asking (s.processBody a) := by
  refine processBody_spec
    (fun s => s.dataDirValid = true ∧ Each LeftWhenTold s.history
      ∧ Told s.dataDir.dirName s.history)
    (fun s => s.dataDirValid = true ∧ Each LeftWhenTold s.history
      ∧ Told s.dataDir.dirName s.history)
    (fun s => s.dataDirValid = false ∧ Each LeftWhenTold s.history
      ∧ ((s.dataDir.state = .current → a.releaseDirRecord = true) →
          ¬Told s.dataDir.dirName s.history →
            isDataDirAtPresent s.dataDir a.presentClock = true))
    (fun s => s.dataDirValid = false ∧ Each LeftWhenTold s.history
      ∧ (¬Told s.dataDir.dirName s.history →
          isDataDirAtPresent s.dataDir a.presentClock = true)) ?_ ?_ ?_ ?_ ?_ ?_ ?_ ?_ ?_
  · intro valid
    exact asking.scanDataDir running valid
  · intro s scanned
    exact ⟨scanned.2.1, fun _ _ => scanned.2.2⟩
  · intro s scanned
    exact scanned
  · intro s scanned dataFile _ _
    obtain ⟨valid, history, told⟩ := scanned
    exact processDataFile_spec (fun _ => ⟨history, fun _ _ => told⟩)
      (fun _ _ => ⟨history, fun _ _ => told⟩)
      (fun _ _ _ => ⟨⟨trivial, history⟩, fun _ _ => told.cons rfl⟩)
      (fun _ _ _ => ⟨valid, ⟨trivial, history⟩, told.cons rfl⟩)
  · intro s tried
    exact ⟨tried.1, tried.2.1, fun _ _ => tried.2.2⟩
  · intro s tried _ _
    exact ⟨rfl, tried.2.1, fun _ notTold => absurd tried.2.2 notTold⟩
  · intro notValid
    exact ⟨notValid, asking.history, stays running notValid⟩
  · intro s invalid
    obtain ⟨notValid, history, present⟩ := invalid
    have told (event : Event) (other : event.presence? s.dataDir.dirName = none)
        (notTold : ¬Told s.dataDir.dirName (event :: s.history))
        : ¬Told s.dataDir.dirName s.history :=
      fun told => notTold (told.cons other)
    refine ⟨notValid, releaseDataDir_spec ?_ ?_ ?_⟩
    · intro other
      exact ⟨notValid, history, present fun current => absurd current other⟩
    · intro _ _
      exact ⟨⟨trivial, history⟩, by simp [notValid]⟩
    · intro _ releases
      refine ⟨notValid, ⟨trivial, history⟩, fun notTold => ?_⟩
      rw [isDataDirAtPresent_state]
      exact present (fun _ => releases) (told _ rfl notTold)
  · intro s released
    obtain ⟨notValid, history, present⟩ := released
    refine nextDataDir_spec
      (fun s => s.dataDirValid = false ∧ Each LeftWhenTold s.history) ?_ ?_ ?_ ?_
    · intro _
      exact ⟨notValid, history⟩
    · intro elsewhere
      have told : Told s.dataDir.dirName s.history := by
        by_contra notTold
        rw [present notTold] at elsewhere
        cases elsewhere
      rw [stepOn]
      exact ⟨notValid, .inl told, history⟩
    · intro s arrived _
      exact ⟨⟨trivial, arrived.2⟩, by simp [check, arrived.1]⟩
    · intro s arrived _ dbID upmuDataDirectory
      exact ⟨⟨trivial, arrived.2⟩, fun _ _ => told_dirPresent _ _⟩

theorem processUPMUdata (asking : s.Asking) (stays : s.StaysUntilTold a)
    : (s.processUPMUdata a).Asking := by
  unfold ServiceDataDiscovery.processUPMUdata
  split_ifs with running
  · obtain ⟨history, valid⟩ := (asking.processBody running stays).leaves
    exact ⟨history, valid⟩
  · exact asking

/-- The loop leaves a directory only when it is not there. -/
theorem checkTurn {a : TurnAnswers} (history : Each LeftWhenTold s.history)
    : (s.checkTurn a).Spec
        (fun next => Each LeftWhenTold next.history ∧ next.dataDir.state = .proposed)
        (fun result => Each LeftWhenTold result.2.history
          ∧ (result.1 = .dataDirOk → result.2.dataDirValid = true →
              Told result.2.dataDir.dirName result.2.history)) := by
  refine @checkTurn_spec s a
    (fun next => Each LeftWhenTold next.history ∧ next.dataDir.state = .proposed)
    (fun sts next => Each LeftWhenTold next.history
      ∧ (sts = .dataDirOk → next.dataDirValid = true →
          Told next.dataDir.dirName next.history)) ?_ ?_ ?_ ?_ ?_ ?_
  · intro _
    exact ⟨⟨trivial, history⟩, by simp⟩
  · intro _ _
    exact ⟨⟨trivial, history⟩, fun _ _ => told_dirPresent _ _⟩
  · intro _ _ dbID upmuDataDirectory
    exact ⟨⟨trivial, history⟩, fun _ _ => told_dirPresent _ _⟩
  · intro upmuDataDirectory
    exact ⟨⟨trivial, history⟩, by simp⟩
  · intro _ _ upmuDataDirectory
    exact ⟨⟨.inl (told_dirNotPresent _ _), trivial, history⟩, by simp⟩
  · intro _ _ upmuDataDirectory
    exact ⟨⟨.inl (told_dirNotPresent _ _), trivial, history⟩, by simp [stepOn]⟩

theorem walkTurn {a : TurnAnswers} (history : Each LeftWhenTold s.history)
    (first : s.dataDir.state = .processed → s.history = [])
    : (s.walkTurn a).Spec
        (fun next => Each LeftWhenTold next.history ∧ next.dataDir.state = .proposed)
        (fun result => Each LeftWhenTold result.2.history
          ∧ (result.1 = .dataDirOk → result.2.dataDirValid = true →
              Told result.2.dataDir.dirName result.2.history)) := by
  refine @walkTurn_spec s a
    (fun next => Each LeftWhenTold next.history ∧ next.dataDir.state = .proposed)
    (fun sts next => Each LeftWhenTold next.history
      ∧ (sts = .dataDirOk → next.dataDirValid = true →
          Told next.dataDir.dirName next.history)) ?_ ?_ ?_
  · intro processed _
    exact ⟨⟨.inr ⟨processed, first processed⟩, history⟩, by simp⟩
  · intro processed _
    exact checkTurn ⟨.inr ⟨processed, first processed⟩, history⟩
  · intro _
    exact checkTurn history

theorem initService (start : StartAnswers) (upmuDataDirectory : SerialTable DirectoryRow)
    (upmuDataFile : SerialTable FileRow) (services : List (String × Bool))
    : ((new upmuDataDirectory upmuDataFile services).initService start).Asking := by
  refine @initService_spec _ Asking start
    (fun _ s => SameFiles (new upmuDataDirectory upmuDataFile services) s
      ∧ Each LeftWhenTold s.history ∧ (s.dataDir.state = .processed → s.history = []))
    (fun sts s => Each LeftWhenTold s.history
      ∧ (sts = .dataDirOk → s.dataDirValid = true → Told s.dataDir.dirName s.history))
    ?_ ?_ ?_ ?_ ?_ ?_ ?_ ?_
  · exact ⟨trivial, by simp⟩
  · intro dataDir _
    exact ⟨trivial, by simp⟩
  · intro dataDir _ _
    exact ⟨⟨rfl, rfl, rfl, rfl, rfl⟩, trivial, fun _ => rfl⟩
  · intro a rest s walking
    obtain ⟨same, history, first⟩ := walking
    have files := walkTurn_sameFiles a s
    have turn := walkTurn (a := a) history first
    cases reached : s.walkTurn a with
    | again next =>
        rw [reached] at files turn
        exact ⟨same.trans files, turn.1, by simp [turn.2]⟩
    | leave last =>
        rw [reached] at turn
        exact turn
  · intro s walking
    have point := walking.1.point
    exact ⟨walking.2.1, by simp [point, new]⟩
  · intro sts s left
    exact ⟨left.1, by simp⟩
  · intro s left
    exact ⟨left.1, fun _ => left.2 rfl⟩
  · intro s dataFilesProcessed left _
    exact ⟨left.1, fun _ => left.2 rfl⟩

end Asking

/-- In every run whose calls leave no directory that has not answered, every directory was left
when its most recent check had told whether it is there.
-/
theorem service_leavesWhenTold (start : StartAnswers) (calls : List CallAnswers)
    (upmuDataDirectory : SerialTable DirectoryRow) (upmuDataFile : SerialTable FileRow)
    (services : List (String × Bool))
    (stays
      : Meets processUPMUdata StaysUntilTold calls
          ((new upmuDataDirectory upmuDataFile services).initService start))
    : ∀ dirName state later earlier,
        (service start calls (new upmuDataDirectory upmuDataFile services)).history
            = later ++ .left dirName state :: earlier →
          Told dirName earlier ∨ state = .processed ∧ earlier = [] := by
  intro dirName state later earlier left
  have asking := stays.invariant (fun _ _ asking => asking.processUPMUdata)
    (Asking.initService start upmuDataDirectory upmuDataFile services)
  exact each_iff.mp asking.history later _ earlier left

/-- Two calls: the second one still finds the clock in the hour that has not answered. -/
theorem service_leavesWhenTold_two
    : Told "/upmu_data/1970/Month_01/Day_02/Hour_03/"
        [.releasedDir "/upmu_data/1970/Month_01/Day_02/Hour_03/" ∅,
          .listed "/upmu_data/1970/Month_01/Day_02/Hour_03/" (some ∅),
          .checked "/upmu_data/1970/Month_01/Day_02/Hour_03/" .dirPresent] := by
  have told := service_leavesWhenTold { turns := [{}] }
    [{ getDataFileList := some ∅
       ageClock := 100900
       presentClock := 100900
       verifyDataDirPresent := .ftpNotResp },
      { presentClock := 104000, verifyDataDirPresent := .ftpNotResp }]
    oneDataDir {} []
    ⟨by decide +kernel, by decide +kernel, trivial⟩
    "/upmu_data/1970/Month_01/Day_02/Hour_03/" .unknown
    [.checked "/upmu_data/1970/Month_01/Day_02/Hour_04/" .ftpNotResp,
      .checked "/upmu_data/1970/Month_01/Day_02/Hour_04/" .ftpNotResp]
    [.releasedDir "/upmu_data/1970/Month_01/Day_02/Hour_03/" ∅,
      .listed "/upmu_data/1970/Month_01/Day_02/Hour_03/" (some ∅),
      .checked "/upmu_data/1970/Month_01/Day_02/Hour_03/" .dirPresent]
    (by decide +kernel)
  simpa using told

/-- The hour after the closed one does not answer, and the next call goes on to another one. -/
theorem service_leaves_unanswered
    : ¬∀ dirName state later earlier,
        (service { turns := [{}] }
            [{ getDataFileList := some ∅
               ageClock := 104400
               presentClock := 104400
               verifyDataDirPresent := .ftpNotResp },
              { presentClock := 104400, verifyDataDirPresent := .dirNotPresent }]
            (new oneDataDir {} [])).history
            = later ++ .left dirName state :: earlier →
          Told dirName earlier ∨ state = .processed ∧ earlier = [] := by
  intro told
  have left := told "/upmu_data/1970/Month_01/Day_02/Hour_04/" .proposed
    [.checked "/upmu_data/1970/Month_01/Day_02/Hour_05/" .dirNotPresent]
    [.checked "/upmu_data/1970/Month_01/Day_02/Hour_04/" .ftpNotResp,
      .left "/upmu_data/1970/Month_01/Day_02/Hour_03/" .unknown,
      .releasedDir "/upmu_data/1970/Month_01/Day_02/Hour_03/" ∅,
      .listed "/upmu_data/1970/Month_01/Day_02/Hour_03/" (some ∅),
      .checked "/upmu_data/1970/Month_01/Day_02/Hour_03/" .dirPresent] (by decide +kernel)
  simp [Told, latestCheck, Event.presence?] at left

end ServiceDataDiscovery

end Sparcs.Discovery
