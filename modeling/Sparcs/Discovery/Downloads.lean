import Sparcs.Discovery.Clock

/-! No file is offered twice in a run. The processed set is forgotten when a directory is
entered, so the directories have to be entered one after the other, and each only once.
-/

namespace Sparcs.Discovery

open CallRuns FuelLoop

/-- The directory and the file, if the event offers one. -/
def Event.offeredFile? : Event → Option (String × String)
  | .offered dirName dataFile _ _ => some (dirName, dataFile)
  | _ => none

/-- The files that have been offered, each under the name of its directory. -/
def offeredFiles (history : List Event) : List (String × String) :=
  history.filterMap Event.offeredFile?

namespace ServiceDataDiscovery

/-- At time `t`, in the directory of hour `h`: nothing has been offered twice, or from a later
directory. What has been offered from this one is processed, or the directory is over.
-/
structure OfferedOnce (t h : Nat) (s : ServiceDataDiscovery) : Prop where
  consistent : s.dataDir.Consistent h
  reached : h ≤ t / 3600
  nodup : (offeredFiles s.history).Nodup
  directories
    : ∀ file ∈ offeredFiles s.history,
        ∃ d h', d.OnHour h' ∧ h' ≤ h ∧ file.1 = createDirNameYrMonDayHr d
  here
    : ∀ dataFile, (s.dataDir.dirName, dataFile) ∈ offeredFiles s.history →
        s.dataDirValid = true ∧ s.dataDirAccessInProgress = true
          ∧ dataFile ∈ s.dataFilesProcessed
        ∨ s.dataDirValid = false ∧ h < t / 3600
  disjoint : Disjoint s.dataFilesInDir s.dataFilesProcessed

/-- The same in the directory of some hour. -/
def OffersOnce (t : Nat) (s : ServiceDataDiscovery) : Prop := ∃ h, s.OfferedOnce t h

namespace OfferedOnce

variable {a : CallAnswers} {t t' h : Nat} {s next : ServiceDataDiscovery} {dataFile : String}

theorem later (once : s.OfferedOnce t h) (goesOn : t ≤ t') : s.OfferedOnce t' h where
  consistent := once.consistent
  reached := once.reached.trans (Nat.div_le_div_right goesOn)
  nodup := once.nodup
  directories := once.directories
  here := by
    intro dataFile offered
    refine (once.here dataFile offered).imp id fun left => ?_
    exact ⟨left.1, left.2.trans_le (Nat.div_le_div_right goesOn)⟩
  disjoint := once.disjoint

/-- What is listed and not processed is apart from what is processed. -/
theorem listDataFiles (once : s.OfferedOnce t h) (names : Option (Finset String))
    : (s.listDataFiles names).OfferedOnce t h where
  consistent := once.consistent
  reached := once.reached
  nodup := once.nodup
  directories := once.directories
  here := once.here
  disjoint := Finset.disjoint_union_left.mpr ⟨once.disjoint, Finset.sdiff_disjoint⟩

theorem scanDataDir (once : s.OfferedOnce t h) (valid : s.dataDirValid = true)
    : (s.scanDataDir a).dataDirValid = true
      ∧ (s.scanDataDir a).dataDirAccessInProgress = true
      ∧ (s.scanDataDir a).OfferedOnce t h := by
  refine @scanDataDir_spec a s (fun scanned => scanned.dataDirValid = true
    ∧ scanned.dataDirAccessInProgress = true ∧ scanned.OfferedOnce t h) ?_ ?_ ?_
  · intro inProgress _
    exact ⟨valid, inProgress, once⟩
  · intro inProgress _
    exact ⟨valid, inProgress, once.listDataFiles a.getDataFileList⟩
  · intro first
    -- Nothing has been offered from a directory that is entered.
    have notOffered (dataFile : String)
        : (s.dataDir.dirName, dataFile) ∉ offeredFiles s.history := by
      intro offered
      rcases once.here dataFile offered with ⟨_, access, _⟩ | ⟨notValid, _⟩
      · rw [first] at access
        cases access
      · rw [valid] at notValid
        cases notValid
    have entered : OfferedOnce t h
        { s with
          dataDirAccessInProgress := true
          dataFilesInDir := ∅
          dataFilesProcessed := ∅ } :=
      { once with
        here := fun dataFile offered => absurd offered (notOffered dataFile)
        disjoint := Finset.disjoint_empty_left _ }
    exact ⟨valid, rfl, entered.listDataFiles a.getDataFileList⟩

theorem takeDataFile (once : s.OfferedOnce t h)
    : (s.takeDataFile dataFile).OfferedOnce t h where
  consistent := once.consistent
  reached := once.reached
  nodup := once.nodup
  directories := once.directories
  here := by
    intro name offered
    refine (once.here name offered).imp_left fun here => ?_
    exact ⟨here.1, here.2.1, Finset.mem_insert_of_mem here.2.2⟩
  disjoint := by
    rw [ServiceDataDiscovery.takeDataFile, Finset.disjoint_insert_right]
    exact ⟨Finset.notMem_erase _ _, once.disjoint.mono_left (Finset.erase_subset _ _)⟩

/-- A file that was to be processed has not been offered before. -/
theorem offerDataFile (once : s.OfferedOnce t h) (valid : s.dataDirValid = true)
    (access : s.dataDirAccessInProgress = true) (new : dataFile ∈ s.dataFilesInDir)
    (data : Option (List UInt8))
    : (((s.takeDataFile dataFile).addDataRecord dataFile).offerDataFile dataFile
        data).OfferedOnce t h := by
  have taken : (s.takeDataFile dataFile).OfferedOnce t h := once.takeDataFile
  have notOffered : (s.dataDir.dirName, dataFile) ∉ offeredFiles s.history := by
    intro offered
    rcases once.here dataFile offered with ⟨_, _, processed⟩ | ⟨notValid, _⟩
    · exact Finset.disjoint_left.mp once.disjoint new processed
    · rw [valid] at notValid
      cases notValid
  exact {
    consistent := once.consistent
    reached := once.reached
    nodup := List.nodup_cons.mpr ⟨notOffered, once.nodup⟩
    directories := by
      intro file offered
      rcases List.mem_cons.mp offered with rfl | before
      · exact ⟨s.dataDir, h, once.consistent.toOnHour, le_rfl, once.consistent.dirName⟩
      · exact once.directories file before
    here := by
      intro name offered
      rcases List.mem_cons.mp offered with same | before
      · obtain ⟨_, rfl⟩ := Prod.mk.inj same
        exact .inl ⟨valid, access, Finset.mem_insert_self _ _⟩
      · exact taken.here name before
    disjoint := taken.disjoint }

/-- An old directory is not the present one any more. -/
theorem giveUp {clock : Nat} (once : s.OfferedOnce t h) (goesOn : t ≤ clock)
    (small : clock < 2147483648)
    (old : UInt32.ofNat clock - createTimeFromDataDir s.dataDir > 60 * 60)
    : OfferedOnce clock h { s with dataDirValid := false, dataDirAccessInProgress := false }
      ∧ h < clock / 3600 := by
  have reached := once.reached
  have time := once.consistent.toOnHour.createTimeFromDataDir_toNat (by omega)
  have now : (UInt32.ofNat clock).toNat = clock := UInt32.toNat_ofNat_of_lt' (by
    change clock < 4294967296
    omega)
  have age : (UInt32.ofNat clock - createTimeFromDataDir s.dataDir).toNat
      = clock - 3600 * h := by
    rw [UInt32.toNat_sub_of_le, now, time]
    rw [UInt32.le_iff_toNat_le, now, time]
    omega
  have hour : h < clock / 3600 := by
    have old := UInt32.lt_iff_toNat_lt.mp old
    rw [age] at old
    change 3600 < _ at old
    omega
  have over_ := once.later goesOn
  exact ⟨{ over_ with here := fun _ _ => .inr ⟨rfl, hour⟩ }, hour⟩

/-- A directory is closed without a change of what has been offered. -/
theorem releaseDataDir (once : s.OfferedOnce t h) (notValid : s.dataDirValid = false)
    : Spec (OffersOnce t) (fun next => next.dataDirValid = false ∧ next.OffersOnce t)
        (s.releaseDataDir a) := by
  have here (dataFile : String) (offered : (s.dataDir.dirName, dataFile) ∈ offeredFiles s.history)
      : h < t / 3600 := by
    rcases once.here dataFile offered with ⟨valid, _⟩ | ⟨_, passed⟩
    · rw [notValid] at valid
      cases valid
    · exact passed
  refine releaseDataDir_spec ?_ ?_ ?_
  · intro _
    exact ⟨notValid, h, once⟩
  · intro _ _
    exact ⟨h, once.consistent, once.reached, once.nodup, once.directories, once.here,
      once.disjoint⟩
  · intro _ _
    exact ⟨notValid, h, once.consistent.withState s.dataDir.dbID .unknown, once.reached,
      once.nodup, once.directories, fun name offered => .inr ⟨notValid, here name offered⟩,
      once.disjoint⟩

/-- A directory from which nothing has been offered. -/
def NewDataDir (t : Nat) (s : ServiceDataDiscovery) : Prop :=
  s.OffersOnce t
  ∧ ∀ dataFile, (s.dataDir.dirName, dataFile) ∉ offeredFiles s.history

/-- The directory that is checked next is a new one. -/
theorem nextDataDir (once : s.OfferedOnce a.presentClock h) (notValid : s.dataDirValid = false)
    (small : a.presentClock < 2147483648)
    : (s.nextDataDir a).OffersOnce a.presentClock := by
  refine nextDataDir_spec (NewDataDir a.presentClock) ?_ ?_ ?_ ?_
  · intro atPresent
    refine ⟨⟨h, once⟩, fun dataFile offered => ?_⟩
    rcases once.here dataFile offered with ⟨valid, _⟩ | ⟨_, passed⟩
    · rw [notValid] at valid
      cases valid
    · have same := (once.consistent.toOnHour.isDataDirAtPresent_iff
        (show a.presentClock < 4295030400 by omega)).mp atPresent
      omega
  · intro elsewhere
    have passed := once.consistent.toOnHour.ne_present
      (show a.presentClock < 4295030400 by omega) elsewhere
    have reached := once.reached
    have stepped := once.consistent.incDataDir (by omega)
    have notOffered (dataFile : String)
        : ((incDataDir s.dataDir).dirName, dataFile) ∉ offeredFiles s.history := by
      intro offered
      obtain ⟨d, h', on, before, name⟩ := once.directories _ offered
      have on' := stepped.toOnHour.of_name (stepped.dirName.symm.trans name)
      have same := on.unique on'
      omega
    rw [stepOn]
    refine ⟨⟨h + 1, stepped, by omega, once.nodup, ?_, ?_, once.disjoint⟩, notOffered⟩
    · intro file offered
      obtain ⟨d, h', on, before, name⟩ := once.directories file offered
      exact ⟨d, h', on, by omega, name⟩
    · intro dataFile offered
      exact absurd offered (notOffered dataFile)
  · intro s arrived _
    obtain ⟨⟨h, once⟩, _⟩ := arrived
    exact ⟨h, once.consistent, once.reached, once.nodup, once.directories, once.here,
      once.disjoint⟩
  · intro s arrived _ dbID upmuDataDirectory
    obtain ⟨⟨h, once⟩, notOffered⟩ := arrived
    exact ⟨h, once.consistent.withState dbID .current, once.reached, once.nodup,
      once.directories, fun dataFile offered => absurd offered (notOffered dataFile), once.disjoint⟩

/-- A call offers nothing for the second time. -/
theorem processBody (once : s.OfferedOnce t h) (goesOn : t ≤ a.ageClock)
    (goesOn' : a.ageClock ≤ a.presentClock) (small : a.presentClock < 2147483648)
    : Spec (OffersOnce a.presentClock) (OffersOnce a.presentClock) (s.processBody a) := by
  have goesOn'' := goesOn.trans goesOn'
  refine processBody_spec
    (fun s => s.dataDirValid = true ∧ s.dataDirAccessInProgress = true ∧ s.OfferedOnce t h)
    (fun s => s.dataDirValid = true ∧ s.OfferedOnce t h)
    (fun s => s.dataDirValid = false ∧ s.OffersOnce a.presentClock)
    (fun s => s.dataDirValid = false ∧ s.OffersOnce a.presentClock)
    ?_ ?_ ?_ ?_ ?_ ?_ ?_ ?_ ?_
  · intro valid
    exact once.scanDataDir valid
  · intro s scanned
    have once := scanned.2.2.later goesOn''
    exact ⟨h, once.consistent, once.reached, once.nodup, once.directories, once.here,
      once.disjoint⟩
  · intro s scanned
    exact ⟨scanned.1, scanned.2.2⟩
  · intro s scanned dataFile new _
    obtain ⟨valid, access, once⟩ := scanned
    have taken : (s.takeDataFile dataFile).OfferedOnce t h := once.takeDataFile
    have offered := once.offerDataFile valid access new a.getDataFile
    refine processDataFile_spec ?_ ?_ ?_ ?_
    · intro _
      exact ⟨h, taken.later goesOn''⟩
    · intro _ _
      have taken := taken.later goesOn''
      exact ⟨h, taken.consistent, taken.reached, taken.nodup, taken.directories, taken.here,
        taken.disjoint⟩
    · intro _ _ _
      exact ⟨h, offered.later goesOn''⟩
    · intro _ _ _
      exact ⟨valid, offered.consistent, offered.reached, offered.nodup, offered.directories,
        offered.here, offered.disjoint⟩
  · intro s tried
    exact ⟨tried.1, h, tried.2.later goesOn''⟩
  · intro s tried _ old
    exact ⟨rfl, h, (tried.2.giveUp goesOn (by omega) old).1.later goesOn'⟩
  · intro notValid
    exact ⟨notValid, h, once.later goesOn''⟩
  · intro s invalid
    obtain ⟨notValid, h, once⟩ := invalid
    exact ⟨notValid, once.releaseDataDir notValid⟩
  · intro s released
    obtain ⟨notValid, h, once⟩ := released
    exact once.nextDataDir notValid small

end OfferedOnce

variable {s : ServiceDataDiscovery} {future : List Nat}

/-- The search for the directory offers nothing. -/
theorem walkTurn_offeredFiles (a : TurnAnswers)
    (nothing : offeredFiles s.history = [] ∧ s.dataFilesInDir = ∅)
    : (s.walkTurn a).Spec
        (fun next => offeredFiles next.history = [] ∧ next.dataFilesInDir = ∅)
        (fun result => offeredFiles result.2.history = [] ∧ result.2.dataFilesInDir = ∅) := by
  have step (s : ServiceDataDiscovery) (clock : Nat)
      (nothing : offeredFiles s.history = [] ∧ s.dataFilesInDir = ∅)
      : offeredFiles (s.stepOn clock).history = [] ∧ (s.stepOn clock).dataFilesInDir = ∅ := by
    rw [stepOn]
    exact nothing
  have check (s : ServiceDataDiscovery)
      (nothing : offeredFiles s.history = [] ∧ s.dataFilesInDir = ∅)
      : (s.checkTurn a).Spec
          (fun next => offeredFiles next.history = [] ∧ next.dataFilesInDir = ∅)
          (fun result => offeredFiles result.2.history = [] ∧ result.2.dataFilesInDir = ∅) :=
    @checkTurn_spec s a (fun next => offeredFiles next.history = [] ∧ next.dataFilesInDir = ∅)
      (fun _ next => offeredFiles next.history = [] ∧ next.dataFilesInDir = ∅)
      (fun _ => nothing) (fun _ _ => nothing) (fun _ _ _ _ => nothing) (fun _ => nothing)
      (fun _ _ _ => step _ a.clock nothing) (fun _ _ _ => step _ a.clock nothing)
  exact @walkTurn_spec s a (fun next => offeredFiles next.history = [] ∧ next.dataFilesInDir = ∅)
    (fun _ next => offeredFiles next.history = [] ∧ next.dataFilesInDir = ∅)
    (fun _ _ => step s a.firstClock nothing)
    (fun _ _ => check (s.stepOn a.firstClock) (step s a.firstClock nothing))
    (fun _ => check s nothing)

theorem initService_offeredFiles (start : StartAnswers)
    (upmuDataDirectory : SerialTable DirectoryRow) (upmuDataFile : SerialTable FileRow)
    (services : List (String × Bool))
    : offeredFiles ((new upmuDataDirectory upmuDataFile services).initService start).history = []
      ∧ ((new upmuDataDirectory upmuDataFile services).initService start).dataFilesInDir
        = ∅ := by
  refine @initService_spec _ (fun s => offeredFiles s.history = [] ∧ s.dataFilesInDir = ∅) start
    (fun _ s => offeredFiles s.history = [] ∧ s.dataFilesInDir = ∅)
    (fun _ s => offeredFiles s.history = [] ∧ s.dataFilesInDir = ∅) ?_ ?_ ?_ ?_ ?_ ?_ ?_ ?_
  · exact ⟨rfl, rfl⟩
  · intro dataDir _
    exact ⟨rfl, rfl⟩
  · intro dataDir _ _
    exact ⟨rfl, rfl⟩
  · intro a rest s nothing
    exact walkTurn_offeredFiles a nothing
  · intro s nothing
    exact nothing
  · intro sts s nothing
    exact nothing
  · intro s nothing
    exact nothing
  · intro s dataFilesProcessed nothing _
    exact ⟨nothing.1, rfl⟩

/-- Nothing has been offered twice, and a running thread goes on so. -/
structure OffersOnceUntil (future : List Nat) (s : ServiceDataDiscovery) : Prop where
  nodup : (offeredFiles s.history).Nodup
  running : s.point = .running → s.OffersOnce s.now ∧ (s.now :: future).Pairwise (· ≤ ·)

theorem OffersOnceUntil.processUPMUdata {a : CallAnswers}
    (once : s.OffersOnceUntil (a.clocks ++ future)) (small : a.presentClock < 2147483648)
    : (s.processUPMUdata a).OffersOnceUntil future := by
  unfold ServiceDataDiscovery.processUPMUdata
  split_ifs with running
  · obtain ⟨⟨h, offered⟩, ordered⟩ := once.running running
    have now := (List.pairwise_cons.mp ordered).1 a.ageClock (by simp [CallAnswers.clocks])
    have age := (List.pairwise_cons.mp (List.pairwise_cons.mp
      (List.pairwise_cons.mp ordered).2).2).1 a.presentClock (by simp)
    obtain ⟨h', offered⟩ := (offered.processBody now age small).leaves
    refine ⟨offered.nodup, fun _ => ⟨⟨h', offered.consistent, offered.reached, offered.nodup,
      offered.directories, offered.here, offered.disjoint⟩, ?_⟩⟩
    exact ordered.sublist (List.sublist_append_right [s.now, a.completeClock, a.ageClock] _)
  · exact ⟨once.nodup, fun isRunning => absurd isRunning running⟩

theorem OffersOnceUntil.run {calls : List CallAnswers}
    (once : s.OffersOnceUntil (calls.flatMap CallAnswers.clocks))
    (small : ∀ a ∈ calls, a.presentClock < 2147483648)
    : (offeredFiles (run ServiceDataDiscovery.processUPMUdata calls s).history).Nodup := by
  induction calls generalizing s with
  | nil => exact once.nodup
  | cons a calls ih =>
      rw [List.flatMap_cons] at once
      exact ih (once.processUPMUdata (small a List.mem_cons_self))
        (fun b member => small b (List.mem_cons_of_mem _ member))

/-- In every run that starts from a stored or default directory before the present hour, with
the clock going on and before 2038-01-19, every file of a directory is offered at most once.
-/
theorem service_offersOnce (start : StartAnswers) (calls : List CallAnswers)
    (upmuDataDirectory : SerialTable DirectoryRow) (upmuDataFile : SerialTable FileRow)
    (services : List (String × Bool)) {dataDir : DataDir} {h : Nat}
    (chosen : startingDirectory upmuDataDirectory {} = .ok dataDir) (hour : dataDir.OnHour h)
    (earlier : h < start.clock / 3600)
    (ordered : (readings start calls).Pairwise (· ≤ ·))
    (before2038 : ∀ t ∈ readings start calls, t < 2147472000)
    : (offeredFiles
        (service start calls (new upmuDataDirectory upmuDataFile services)).history).Nodup := by
  have begun := before2038 start.clock (List.mem_append_left _ List.mem_cons_self)
  have leaves : start.LeavesLater dataDir h := by
    intro a rest turns
    have first := (List.pairwise_append.mp ordered).1
    rw [StartAnswers.clocks, turns] at first
    have firstClock := (List.pairwise_cons.mp first).1 a.firstClock (by simp [TurnAnswers.clocks])
    have clock := (List.pairwise_cons.mp first).1 a.clock (by simp [TurnAnswers.clocks])
    exact ⟨fun _ => earlier.trans_le (Nat.div_le_div_right firstClock),
      fun _ _ => earlier.trans_le (Nat.div_le_div_right clock)⟩
  obtain ⟨reached, _⟩ := initService_reached upmuDataFile services chosen hour (by omega)
    earlier.le leaves ordered (fun t read => (before2038 t read).trans (by decide))
  obtain ⟨nothingOffered, files⟩ :=
    initService_offeredFiles start upmuDataDirectory upmuDataFile services
  refine OffersOnceUntil.run ⟨?_, fun running => ?_⟩ ?_
  · rw [nothingOffered]
    exact List.nodup_nil
  · rcases reached with ⟨_, stopped⟩ | ⟨h', inTime⟩
    · rw [running] at stopped
      cases stopped
    · refine ⟨⟨h', inTime.consistent, inTime.notAhead, ?_, ?_, ?_, ?_⟩, inTime.ordered⟩
      all_goals simp [nothingOffered, files]
  · intro a member
    refine (before2038 a.presentClock (List.mem_append_right _ (List.mem_flatMap.mpr
      ⟨a, member, ?_⟩))).trans (by decide)
    simp [CallAnswers.clocks]

/-- A file that is listed in two calls is offered by the first one. -/
theorem service_offersOnce_one
    : (offeredFiles
        (service { clock := 104400, turns := [{ firstClock := 104400, clock := 104400 }] }
          [{ getDataFileList := some {"upmu_1970-01-02-03-00-00.dat"}
             completeClock := 104400
             getDataFile := some [7]
             ageClock := 104400
             presentClock := 104400
             verifyDataDirPresent := .dirNotPresent },
            { getDataFileList := some {"upmu_1970-01-02-03-00-00.dat"}
              completeClock := 104410
              getDataFile := some [7]
              ageClock := 104410
              presentClock := 104410 }]
          (new oneDataDir {} [("serviceDataArchiver", true)])).history).Nodup :=
  service_offersOnce (h := 27)
    { clock := 104400, turns := [{ firstClock := 104400, clock := 104400 }] }
    [{ getDataFileList := some {"upmu_1970-01-02-03-00-00.dat"}
       completeClock := 104400
       getDataFile := some [7]
       ageClock := 104400
       presentClock := 104400
       verifyDataDirPresent := .dirNotPresent },
      { getDataFileList := some {"upmu_1970-01-02-03-00-00.dat"}
        completeClock := 104410
        getDataFile := some [7]
        ageClock := 104410
        presentClock := 104410 }]
    oneDataDir {} [("serviceDataArchiver", true)] startingDirectory_oneDataDir
    ⟨by decide, by decide, by decide, by decide⟩ (by decide) (by decide) (by decide)

end ServiceDataDiscovery

end Sparcs.Discovery
