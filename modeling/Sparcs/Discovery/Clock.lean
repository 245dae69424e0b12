import Sparcs.Discovery.Hours
import Sparcs.Discovery.Rules

/-! The directory and the clock. The test that ends the search for the current directory is one
for equality with the present hour, so the walk has to start before it.
-/

namespace Sparcs.Discovery

open Calendar CallRuns FuelLoop

namespace ServiceDataDiscovery

-----------------------------------------------------------------------------------------
-- Readings of the clock
-----------------------------------------------------------------------------------------

def TurnAnswers.clocks (a : TurnAnswers) : List Nat := [a.firstClock, a.clock]

def StartAnswers.clocks (a : StartAnswers) : List Nat :=
  a.clock :: a.turns.flatMap TurnAnswers.clocks

def CallAnswers.clocks (a : CallAnswers) : List Nat :=
  [a.completeClock, a.ageClock, a.presentClock]

/-- The readings of the clock in a run, in their order. -/
def readings (start : StartAnswers) (calls : List CallAnswers) : List Nat :=
  start.clocks ++ calls.flatMap CallAnswers.clocks

/-- The directory is one of the calendar, not later than the clock, and the clock goes on. -/
structure InTime (future : List Nat) (h : Nat) (s : ServiceDataDiscovery) : Prop where
  consistent : s.dataDir.Consistent h
  notAhead : h ≤ s.now / 3600
  ordered : (s.now :: future).Pairwise (· ≤ ·)
  early : ∀ t ∈ future, t < 4295030400

/-- The directory denotes an hour, and the clock has reached it. -/
def NotAhead (s : ServiceDataDiscovery) : Prop :=
  ∃ h, s.dataDir.OnHour h ∧ h ≤ s.now / 3600

/-- Where the first turn leaves the directory of hour `h`, the clock is in a later hour. -/
def StartAnswers.LeavesLater (start : StartAnswers) (dataDir : DataDir) (h : Nat) : Prop :=
  ∀ a rest, start.turns = a :: rest →
    (dataDir.state = .processed → h < a.firstClock / 3600)
    ∧ (dataDir.state ≠ .processed → a.verifyDataDirPresent = .dirNotPresent →
        h < a.clock / 3600)

variable {s : ServiceDataDiscovery} {future : List Nat} {h : Nat}

-----------------------------------------------------------------------------------------
-- The search for the current directory
-----------------------------------------------------------------------------------------

namespace InTime

/-- A later reading of the clock. -/
theorem le_div {clock : Nat} (inTime : s.InTime future h) (reading : clock ∈ future)
    : h ≤ clock / 3600 := by
  have ordered := (List.pairwise_cons.mp inTime.ordered).1 clock reading
  exact inTime.notAhead.trans (Nat.div_le_div_right ordered)

/-- Readings are left out. -/
theorem sublist {fewer : List Nat} (inTime : s.InTime future h) (sub : fewer.Sublist future)
    : s.InTime fewer h where
  consistent := inTime.consistent
  notAhead := inTime.notAhead
  ordered := inTime.ordered.sublist (sub.cons_cons s.now)
  early := fun t member => inTime.early t (sub.subset member)

/-- The step to the next directory, when the clock has left the present one. -/
theorem stepOn {clock : Nat} (inTime : s.InTime (clock :: future) h)
    (later : h < clock / 3600)
    : (s.stepOn clock).InTime future (h + 1) where
  consistent := inTime.consistent.incDataDir (by
    have early := inTime.early clock List.mem_cons_self
    omega)
  notAhead := later
  ordered := (List.pairwise_cons.mp inTime.ordered).2
  early := fun t member => inTime.early t (List.mem_cons_of_mem _ member)

/-- The turn from the check on, if the clock has left the hour of a directory that is not
there. The loop goes on only with a directory before the present hour.
-/
theorem checkTurn {a : TurnAnswers} (inTime : s.InTime (a.clock :: future) h)
    (later : a.verifyDataDirPresent = .dirNotPresent → h < a.clock / 3600)
    : (s.checkTurn a).Spec
        (fun next => next.InTime future (h + 1) ∧ h + 1 < next.now / 3600
          ∧ next.dataDir.state = .proposed ∧ next.now = a.clock)
        (fun result => ∃ h, result.2.InTime future h) := by
  have here : s.InTime future h := inTime.sublist (List.sublist_cons_self _ _)
  have next (present : isDataDirAtPresent (incDataDir s.dataDir) a.clock = false)
      (later : h < a.clock / 3600)
      : h + 1 < a.clock / 3600 := by
    have stepped := inTime.consistent.incDataDir (by
      have early := inTime.early a.clock List.mem_cons_self
      omega)
    have notPresent := stepped.toOnHour.ne_present
      (inTime.early a.clock List.mem_cons_self) present
    omega
  refine @checkTurn_spec s a
    (fun next => next.InTime future (h + 1) ∧ h + 1 < next.now / 3600
      ∧ next.dataDir.state = .proposed ∧ next.now = a.clock)
    (fun _ next => ∃ h, next.InTime future h) ?_ ?_ ?_ ?_ ?_ ?_
  · intro _
    exact ⟨h, here.consistent, here.notAhead, here.ordered, here.early⟩
  · intro _ _
    exact ⟨h, here.consistent, here.notAhead, here.ordered, here.early⟩
  · intro _ _ dbID upmuDataDirectory
    exact ⟨h, here.consistent.withState dbID .current, here.notAhead, here.ordered, here.early⟩
  · intro upmuDataDirectory
    exact ⟨h, here.consistent, here.notAhead, here.ordered, here.early⟩
  · intro absent _ upmuDataDirectory
    obtain ⟨consistent, notAhead, ordered, early⟩ := inTime.stepOn (later absent)
    exact ⟨h + 1, consistent, notAhead, ordered, early⟩
  · intro absent present upmuDataDirectory
    obtain ⟨consistent, notAhead, ordered, early⟩ := inTime.stepOn (later absent)
    exact ⟨⟨consistent, notAhead, ordered, early⟩, next present (later absent),
      incDataDir_state _, rfl⟩

/-- A whole turn: at least one hour onwards, or out of the loop. -/
theorem walkTurn {a : TurnAnswers} (inTime : s.InTime (a.firstClock :: a.clock :: future) h)
    (processed : s.dataDir.state = .processed → h < a.firstClock / 3600)
    (absent
      : s.dataDir.state ≠ .processed → a.verifyDataDirPresent = .dirNotPresent →
          h < a.clock / 3600)
    : (s.walkTurn a).Spec
        (fun next => ∃ h', h < h' ∧ next.InTime future h' ∧ h' < next.now / 3600
          ∧ next.dataDir.state = .proposed ∧ next.now = a.clock)
        (fun result => ∃ h, result.2.InTime future h) := by
  refine @walkTurn_spec s a
    (fun next => ∃ h', h < h' ∧ next.InTime future h' ∧ h' < next.now / 3600
      ∧ next.dataDir.state = .proposed ∧ next.now = a.clock)
    (fun _ next => ∃ h, next.InTime future h) ?_ ?_ ?_
  · intro isProcessed _
    obtain ⟨consistent, notAhead, ordered, early⟩ :=
      (inTime.stepOn (processed isProcessed)).sublist (List.sublist_cons_self a.clock future)
    exact ⟨h + 1, consistent, notAhead, ordered, early⟩
  · intro isProcessed elsewhere
    have stepped := inTime.stepOn (processed isProcessed)
    have later : h + 1 < a.clock / 3600 := by
      have notPresent : h + 1 ≠ a.firstClock / 3600 := stepped.consistent.toOnHour.ne_present
        (inTime.early a.firstClock List.mem_cons_self) elsewhere
      have reached : h + 1 ≤ a.firstClock / 3600 := processed isProcessed
      have goesOn : a.firstClock ≤ a.clock :=
        (List.pairwise_cons.mp (List.pairwise_cons.mp inTime.ordered).2).1 a.clock
          List.mem_cons_self
      omega
    refine (stepped.checkTurn fun _ => later).mono ?_ (fun _ left => left)
    intro next again
    exact ⟨h + 1 + 1, by omega, again⟩
  · intro other
    refine ((inTime.sublist (List.sublist_cons_self a.firstClock _)).checkTurn
      (absent other)).mono ?_ (fun _ left => left)
    intro next again
    exact ⟨h + 1, by omega, again⟩

end InTime

-----------------------------------------------------------------------------------------
-- The start
-----------------------------------------------------------------------------------------

/-- The directory to start from is written as the code writes names, and in one of three
states.
-/
theorem startingDirectory_dirName {upmuDataDirectory : SerialTable DirectoryRow}
    {dataDir blank : DataDir} (chosen : startingDirectory upmuDataDirectory blank = .ok dataDir)
    : dataDir.dirName = createDirNameYrMonDayHr dataDir := by
  have read (state : DataDirState) (row : Nat × DirectoryRow)
      (chosen : readDirectory state row blank = .ok dataDir)
      : dataDir.dirName = createDirNameYrMonDayHr dataDir := by
    simp only [readDirectory] at chosen
    split_ifs at chosen
    obtain rfl := Except.ok.inj chosen
    rfl
  unfold startingDirectory at chosen
  split at chosen
  · exact read _ _ chosen
  · split at chosen
    · exact read _ _ chosen
    · obtain rfl := Except.ok.inj chosen
      rfl

/-- The default directory is the one of an hour too. -/
theorem startingDirectory_default_onHour
    : ∃ dataDir, startingDirectory {} {} = .ok dataDir ∧ dataDir.OnHour 425230 := by
  have date : dateOfDay 17717 = { year := 2018, month := 7, day := 5 } :=
    dateOfDay_eq ⟨by decide, by decide, by decide, by decide⟩ (by decide) (by decide)
  refine ⟨_, rfl, ?_, ?_, ?_, rfl⟩
  · rw [show 425230 / 24 = 17717 from rfl, date]
    rfl
  · rw [show 425230 / 24 = 17717 from rfl, date]
    rfl
  · rw [show 425230 / 24 = 17717 from rfl, date]
    rfl

/-- The day number that the search begins with fits the hour. -/
theorem beginWalk_consistent {upmuDataDirectory : SerialTable DirectoryRow}
    {dataDir blank : DataDir} (chosen : startingDirectory upmuDataDirectory blank = .ok dataDir)
    (hour : dataDir.OnHour h) (small : 3600 * h < 2147483648) (s : ServiceDataDiscovery)
    : (s.beginWalk dataDir).dataDir.Consistent h where
  year := hour.year
  month := hour.month
  day := hour.day
  hour := hour.hour
  epochDay := by
    change (createTimeFromDataDir dataDir / 86400).toNat = _
    rw [UInt32.toNat_div, hour.createTimeFromDataDir_toNat small]
    change 3600 * h / 86400 = _
    omega
  dirName := by
    have name := startingDirectory_dirName chosen
    exact name

/-- A stopped thread without a directory, or one whose directory is in time. -/
def Reached (future : List Nat) (s : ServiceDataDiscovery) : Prop :=
  s.dataDir = {} ∧ s.point = .stopped ∨ ∃ h, s.InTime future h

/-- The start keeps to the clock. While it is in its loop, each turn has gone on by an hour at
least and has not reached the present.
-/
theorem initService_reached {start : StartAnswers}
    {upmuDataDirectory : SerialTable DirectoryRow} {dataDir : DataDir}
    (upmuDataFile : SerialTable FileRow) (services : List (String × Bool))
    (chosen : startingDirectory upmuDataDirectory {} = .ok dataDir)
    (hour : dataDir.OnHour h) (small : 3600 * h < 2147483648)
    (notLater : h ≤ start.clock / 3600) (leaves : start.LeavesLater dataDir h)
    (ordered : (start.clocks ++ future).Pairwise (· ≤ ·))
    (early : ∀ t ∈ start.clocks ++ future, t < 4295030400)
    : ((new upmuDataDirectory upmuDataFile services).initService start).Reached future
      ∧ (((new upmuDataDirectory upmuDataFile services).initService start).point
            = .gettingDirectory → start.turns ≠ [] →
          ∃ t ∈ start.clocks, h + start.turns.length < t / 3600) := by
  refine @initService_spec _ (fun s => s.Reached future
      ∧ (s.point = .gettingDirectory → start.turns ≠ [] →
          ∃ t ∈ start.clocks, h + start.turns.length < t / 3600)) start
    (fun rest s => ∃ h', s.InTime (rest.flatMap TurnAnswers.clocks ++ future) h'
      ∧ h + start.turns.length ≤ h' + rest.length
      ∧ rest <:+ start.turns ∧ s.now ∈ start.clocks
      ∧ (rest = start.turns ∧ h' = h ∧ s.dataDir.state = dataDir.state
        ∨ h' < s.now / 3600 ∧ s.dataDir.state = .proposed))
    (fun _ s => ∃ h, s.InTime future h) ?_ ?_ ?_ ?_ ?_ ?_ ?_ ?_
  · exact ⟨.inl ⟨rfl, rfl⟩, by simp⟩
  · intro other fails
    rcases fails with rfl | error
    · exact ⟨.inl ⟨rfl, rfl⟩, by simp⟩
    · change startingDirectory upmuDataDirectory {} = _ at error
      rw [chosen] at error
      cases error
  · intro dataDir' _ chosen'
    obtain rfl := Except.ok.inj (chosen.symm.trans chosen')
    exact ⟨h, ⟨beginWalk_consistent chosen hour small _, notLater, ordered,
      fun t member => early t (List.mem_cons_of_mem _ member)⟩, by omega,
      List.suffix_refl _, List.mem_cons_self, .inl ⟨rfl, rfl, rfl⟩⟩
  · intro a rest s walking
    obtain ⟨h', inTime, walked, suffix, _, first⟩ := walking
    have inOrder := (List.pairwise_cons.mp inTime.ordered).1 a.clock
      (List.mem_cons_of_mem _ List.mem_cons_self)
    refine (inTime.walkTurn (a := a) ?_ ?_).mono ?_ ?_
    · intro processed
      rcases first with ⟨turns, rfl, state⟩ | ⟨_, proposed⟩
      · exact (leaves a rest turns.symm).1 (state ▸ processed)
      · rw [proposed] at processed
        cases processed
    · intro other absent
      rcases first with ⟨turns, rfl, state⟩ | ⟨later, _⟩
      · exact (leaves a rest turns.symm).2 (state ▸ other) absent
      · exact later.trans_le (Nat.div_le_div_right inOrder)
    · intro next again
      obtain ⟨h'', onwards, inTime, later, proposed, now⟩ := again
      rw [List.length_cons] at walked
      have read : next.now ∈ start.clocks := by
        refine List.mem_cons_of_mem _
          (List.mem_flatMap.mpr ⟨a, suffix.subset List.mem_cons_self, ?_⟩)
        simp [now, TurnAnswers.clocks]
      exact ⟨h'', inTime, by omega, (List.suffix_cons a rest).trans suffix, read,
        .inr ⟨later, proposed⟩⟩
    · intro result left
      obtain ⟨h'', inTime⟩ := left
      exact ⟨h'', inTime.sublist (List.sublist_append_right _ _)⟩
  · intro s walking
    obtain ⟨h', inTime, walked, _, read, first⟩ := walking
    refine ⟨.inr ⟨h', inTime⟩, fun _ turns => ?_⟩
    rcases first with ⟨noTurns, _⟩ | ⟨later, _⟩
    · exact absurd noTurns.symm turns
    · exact ⟨s.now, read, lt_of_le_of_lt walked later⟩
  · intro sts s left
    obtain ⟨h, consistent, notAhead, ordered, early⟩ := left
    exact ⟨.inr ⟨h, consistent, notAhead, ordered, early⟩, by simp⟩
  · intro s left
    obtain ⟨h, consistent, notAhead, ordered, early⟩ := left
    exact ⟨.inr ⟨h, consistent, notAhead, ordered, early⟩, by simp⟩
  · intro s dataFilesProcessed left _
    obtain ⟨h, consistent, notAhead, ordered, early⟩ := left
    exact ⟨.inr ⟨h, consistent, notAhead, ordered, early⟩, by simp⟩

-----------------------------------------------------------------------------------------
-- Calls
-----------------------------------------------------------------------------------------

/-- The directory is one of the calendar, and not later than a clock. -/
def NotAfter (clock : Nat) (s : ServiceDataDiscovery) : Prop :=
  ∃ h, s.dataDir.Consistent h ∧ h ≤ clock / 3600

/-- A call steps on only from an hour that is not the present one. -/
theorem NotAfter.processBody {a : CallAnswers} (notAfter : s.NotAfter a.presentClock)
    (early : a.presentClock < 4295030400)
    : Spec (NotAfter a.presentClock) (NotAfter a.presentClock) (s.processBody a) := by
  refine processBody_spec (fun s => s.dataDirValid = true ∧ s.NotAfter a.presentClock)
    (fun s => s.dataDirValid = true ∧ s.NotAfter a.presentClock)
    (fun s => s.dataDirValid = false ∧ s.NotAfter a.presentClock)
    (NotAfter a.presentClock) ?_ ?_ ?_ ?_ ?_ ?_ ?_ ?_ ?_
  · intro valid
    exact ⟨(scanDataDir_dataDirValid a s).trans valid,
      scanDataDir_spec (fun _ _ => notAfter) (fun _ _ => notAfter) (fun _ => notAfter)⟩
  · intro s scanned
    exact scanned.2
  · intro s scanned
    exact scanned
  · intro s scanned dataFile _ _
    exact processDataFile_spec (fun _ => scanned.2) (fun _ _ => scanned.2)
      (fun _ _ _ => scanned.2) (fun _ _ _ => scanned)
  · intro s tried
    exact tried
  · intro s tried _ _
    exact ⟨rfl, tried.2⟩
  · intro notValid
    exact ⟨notValid, notAfter⟩
  · intro s invalid
    obtain ⟨notValid, h, consistent, reached⟩ := invalid
    exact ⟨notValid, releaseDataDir_spec (fun _ => ⟨h, consistent, reached⟩)
      (fun _ _ => ⟨h, consistent, reached⟩)
      (fun _ _ => ⟨h, consistent.withState s.dataDir.dbID .unknown, reached⟩)⟩
  · intro s released
    refine nextDataDir_spec (NotAfter a.presentClock) (fun _ => released) ?_ ?_ ?_
    · intro elsewhere
      obtain ⟨h, consistent, reached⟩ := released
      have notPresent := consistent.toOnHour.ne_present early elsewhere
      exact ⟨h + 1, consistent.incDataDir (by omega), by omega⟩
    · intro s arrived _
      exact arrived
    · intro s arrived _ dbID upmuDataDirectory
      obtain ⟨h, consistent, reached⟩ := arrived
      exact ⟨h, consistent.withState dbID .current, reached⟩

theorem Reached.processUPMUdata {a : CallAnswers} (reached : s.Reached (a.clocks ++ future))
    : (s.processUPMUdata a).Reached future := by
  unfold ServiceDataDiscovery.processUPMUdata
  split_ifs with running
  · rcases reached with ⟨_, stopped⟩ | ⟨h, inTime⟩
    · rw [running] at stopped
      cases stopped
    · have present : a.presentClock ∈ a.clocks ++ future := by simp [CallAnswers.clocks]
      have notAfter : s.NotAfter a.presentClock :=
        ⟨h, inTime.consistent, inTime.le_div present⟩
      obtain ⟨h', consistent, reached⟩ :=
        (notAfter.processBody (inTime.early a.presentClock present)).leaves
      refine .inr ⟨h', consistent, reached, ?_, ?_⟩
      · exact inTime.ordered.sublist
          (List.sublist_append_right [s.now, a.completeClock, a.ageClock] _)
      · intro t member
        exact inTime.early t (List.mem_append_right _ member)
  · refine reached.imp id fun inTime => ?_
    obtain ⟨h, inTime⟩ := inTime
    exact ⟨h, inTime.sublist (List.sublist_append_right _ _)⟩

theorem Reached.run {calls : List CallAnswers}
    (reached : s.Reached (calls.flatMap CallAnswers.clocks ++ future))
    : (run ServiceDataDiscovery.processUPMUdata calls s).Reached future := by
  induction calls generalizing s with
  | nil => exact reached
  | cons a calls ih =>
      rw [List.flatMap_cons, List.append_assoc] at reached
      exact ih reached.processUPMUdata

/-- In every run whose start leaves the stored directory only for a present past it, the
directory is never later than the clock, and the loop of the start ends once it has made as
many turns as there are hours up to the clock's.
-/
theorem service_notAhead (start : StartAnswers) (calls : List CallAnswers)
    (upmuDataDirectory : SerialTable DirectoryRow) (upmuDataFile : SerialTable FileRow)
    (services : List (String × Bool)) {dataDir : DataDir}
    (chosen : startingDirectory upmuDataDirectory {} = .ok dataDir) (hour : dataDir.OnHour h)
    (notLater : h ≤ start.clock / 3600)
    (ordered : (readings start calls).Pairwise (· ≤ ·))
    (small : 3600 * h < 2147483648) (leaves : start.LeavesLater dataDir h)
    (early : ∀ t ∈ readings start calls, t < 4295030400)
    : ((service start calls (new upmuDataDirectory upmuDataFile services)).dataDir = {}
        ∨ (service start calls (new upmuDataDirectory upmuDataFile services)).NotAhead)
      ∧ ∀ c, (∀ t ∈ start.clocks, t / 3600 = c) → c < h + start.turns.length →
          ((new upmuDataDirectory upmuDataFile services).initService start).point
            ≠ .gettingDirectory := by
  obtain ⟨reached, looping⟩ := initService_reached upmuDataFile services chosen hour small
    notLater leaves ordered early
  rw [← List.append_nil (calls.flatMap CallAnswers.clocks)] at reached
  refine ⟨?_, ?_⟩
  · rcases reached.run with ⟨blank, _⟩ | ⟨h', inTime⟩
    · exact .inl blank
    · exact .inr ⟨h', inTime.consistent.toOnHour, inTime.notAhead⟩
  · intro c sameHour enough stillLooping
    have begun := sameHour start.clock List.mem_cons_self
    have turns : start.turns ≠ [] := by
      intro empty
      rw [empty, List.length_nil] at enough
      omega
    obtain ⟨t, read, later⟩ := looping stillLooping turns
    rw [sameHour t read] at later
    omega

/-- The directory that a table with one current directory gives. -/
theorem startingDirectory_oneDataDir
    : startingDirectory oneDataDir {}
      = .ok
          { year := 1970
            month := 1
            day := 2
            hour := 3
            dirName := "/upmu_data/1970/Month_01/Day_02/Hour_03/"
            dbID := 1
            state := .current } := by
  rfl

/-- A stored directory of two hours ago, and the one after it, are not there. -/
theorem service_notAhead_one
    : ((new oneDataDir {} []).initService
        { clock := 104400
          turns :=
            [{ firstClock := 104400, clock := 104400, verifyDataDirPresent := .dirNotPresent },
              { firstClock := 104400
                clock := 104400
                verifyDataDirPresent := .dirNotPresent },
              { firstClock := 104400, clock := 104400 }] }).point
        ≠ .gettingDirectory :=
  (service_notAhead (h := 27)
    { clock := 104400
      turns :=
        [{ firstClock := 104400, clock := 104400, verifyDataDirPresent := .dirNotPresent },
          { firstClock := 104400, clock := 104400, verifyDataDirPresent := .dirNotPresent },
          { firstClock := 104400, clock := 104400 }] }
    [] oneDataDir {} [] startingDirectory_oneDataDir
    ⟨by decide, by decide, by decide, by decide⟩ (by decide) (by decide) (by decide)
    (fun a rest turns => by
      obtain ⟨rfl, _⟩ := List.cons.inj turns
      decide)
    (by decide)).2 29 (by decide) (by decide)

/-- The stored directory is the present one and is not there: the search goes on into the
future.
-/
theorem service_overtakes
    : ¬∀ (start : StartAnswers) (calls : List CallAnswers)
          (upmuDataDirectory : SerialTable DirectoryRow) (upmuDataFile : SerialTable FileRow)
          (services : List (String × Bool)) (dataDir : DataDir) (h : Nat),
          startingDirectory upmuDataDirectory {} = .ok dataDir → dataDir.OnHour h →
          h ≤ start.clock / 3600 → (readings start calls).Pairwise (· ≤ ·) →
          (service start calls (new upmuDataDirectory upmuDataFile services)).dataDir = {}
          ∨ (service start calls (new upmuDataDirectory upmuDataFile services)).NotAhead := by
  intro inTime
  have reached := inTime
    { clock := 97300
      turns := [{ firstClock := 97300, clock := 97300, verifyDataDirPresent := .dirNotPresent }] }
    [] oneDataDir {} [] _ 27 startingDirectory_oneDataDir
    ⟨by decide, by decide, by decide, by decide⟩ (by decide) (by decide)
  have dataDir : (service
      { clock := 97300
        turns := [{ firstClock := 97300, clock := 97300, verifyDataDirPresent := .dirNotPresent }] }
      [] (new oneDataDir {} [])).dataDir
      = { year := 1970
          month := 1
          day := 2
          hour := 4
          dirName := "/upmu_data/1970/Month_01/Day_02/Hour_04/"
          epochDay := 1
          dbID := 1
          state := .proposed } := by
    decide +kernel
  rcases reached with blank | ⟨h, on, notAhead⟩
  · rw [dataDir] at blank
    exact absurd blank (by decide)
  · rw [dataDir] at on
    obtain rfl : h = 28 := on.unique ⟨by decide, by decide, by decide, by decide⟩
    exact absurd notAhead (by decide +kernel)

end ServiceDataDiscovery

end Sparcs.Discovery
