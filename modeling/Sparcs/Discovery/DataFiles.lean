import Sparcs.Discovery.Rules

/-! What happens to a data file that is taken: its name counts as processed before anything
is known about the database and the download.
-/

namespace Sparcs.Discovery

open CallRuns

namespace ServiceDataDiscovery

/-- The bytes of a file have been offered in these events, and in the directory at work if
there is one.
-/
def OfferedIn (s : ServiceDataDiscovery) (events : List Event) (dataFile : String) : Prop :=
  ∃ dirName bytes, .offered dirName dataFile (some bytes) s.acceptingServices ∈ events
    ∧ (s.dataDirAccessInProgress = true → s.dataDirValid = true ∧ dirName = s.dataDir.dirName)

/-- Since a state `from`, only files whose bytes were downloaded and offered have been added to
the processed ones, and only their rows have been released.
-/
structure FilesOffered (start s : ServiceDataDiscovery) (events : List Event) : Prop where
  history : s.history = events ++ start.history
  services : s.services = start.services
  processed
    : ∀ dataFile ∈ s.dataFilesProcessed,
        dataFile ∈ start.dataFilesProcessed ∨ s.OfferedIn events dataFile
  released
    : ∀ row ∈ s.upmuDataFile.rows, row.2.state = .released →
        row ∈ start.upmuDataFile.rows
        ∨ ∃ dirName bytes,
            .offered dirName row.2.fileName (some bytes) s.acceptingServices ∈ events

/-- Some events, those since the state `start`, account for the files. -/
def OffersSince (start s : ServiceDataDiscovery) : Prop :=
  ∃ events, FilesOffered start s events

/-- For every file that the call takes, the two statements and the download succeed. -/
def TransfersDataFile (a : CallAnswers) (s : ServiceDataDiscovery) : Prop :=
  s.point = .running → s.dataDirValid = true →
    ∀ dataFile, (s.scanDataDir a).nextDataFile a = .ok (some dataFile) →
      a.addDataRecord = true ∧ a.getDataRecordKey = true ∧ a.getDataFile.isSome = true

namespace FilesOffered

variable {start s next : ServiceDataDiscovery} {events : List Event} {a : CallAnswers}
  {dataFile : String}

theorem refl (s : ServiceDataDiscovery) : FilesOffered s s [] where
  history := rfl
  services := rfl
  processed := fun _ member => .inl member
  released := fun _ member _ => .inl member

/-- A step that adds an event and leaves the files alone, or forgets the processed ones. -/
theorem step (offered : FilesOffered start s events) (newEvents : List Event)
    (history : next.history = newEvents ++ s.history) (services : next.services = s.services)
    (files : next.upmuDataFile = s.upmuDataFile)
    (processed
      : next.dataFilesProcessed = ∅
        ∨ next.dataFilesProcessed = s.dataFilesProcessed
          ∧ (next.dataDirAccessInProgress = true →
              s.dataDirAccessInProgress = true
              ∧ (s.dataDirValid = true →
                  next.dataDirValid = true ∧ next.dataDir.dirName = s.dataDir.dirName)))
    : FilesOffered start next (newEvents ++ events) where
  history := by rw [history, offered.history, List.append_assoc]
  services := services.trans offered.services
  processed := by
    intro dataFile member
    rcases processed with cleared | ⟨same, access⟩
    · rw [cleared] at member
      exact absurd member (Finset.notMem_empty _)
    · rw [same] at member
      refine (offered.processed dataFile member).imp id ?_
      intro old
      obtain ⟨dirName, bytes, event, here⟩ := old
      refine ⟨dirName, bytes, List.mem_append_right _ ?_, ?_⟩
      · rwa [acceptingServices, services]
      · intro inProgress
        obtain ⟨before, stays⟩ := access inProgress
        obtain ⟨valid, name⟩ := here before
        obtain ⟨valid', name'⟩ := stays valid
        exact ⟨valid', name.trans name'.symm⟩
  released := by
    intro row member released
    rw [files] at member
    refine (offered.released row member released).imp id ?_
    intro old
    obtain ⟨dirName, bytes, event⟩ := old
    refine ⟨dirName, bytes, List.mem_append_right _ ?_⟩
    rwa [acceptingServices, services]

theorem scanDataDir (offered : FilesOffered start s events)
    : OffersSince start (s.scanDataDir a) := by
  refine scanDataDir_spec ?_ ?_ ?_
  · intro _ _
    exact ⟨_, offered⟩
  · intro _ _
    exact ⟨_, offered.step [_] rfl rfl rfl
      (.inr ⟨rfl, fun access => ⟨access, fun valid => ⟨valid, rfl⟩⟩⟩)⟩
  · intro _
    exact ⟨_, offered.step [_] rfl rfl rfl (.inl rfl)⟩

/-- The file that is taken is offered at once. -/
theorem offerDataFile (offered : FilesOffered start s events) (valid : s.dataDirValid = true)
    (bytes : List UInt8)
    : FilesOffered start
        (((s.takeDataFile dataFile).addDataRecord dataFile).offerDataFile dataFile (some bytes))
        (.offered s.dataDir.dirName dataFile (some bytes) s.acceptingServices :: events) where
  history := by rw [ServiceDataDiscovery.offerDataFile, List.cons_append, ← offered.history]; rfl
  services := offered.services
  processed := by
    intro name member
    rcases Finset.mem_insert.mp member with rfl | before
    · exact .inr ⟨_, bytes, List.mem_cons_self, fun _ => ⟨valid, rfl⟩⟩
    · refine (offered.processed name before).imp id ?_
      intro old
      obtain ⟨dirName, bytes, event, here⟩ := old
      exact ⟨dirName, bytes, List.mem_cons_of_mem _ event, here⟩
  released := by
    intro row member released
    rcases SerialTable.mem_insert.mp member with stored | inserted
    · refine (offered.released row stored released).imp id ?_
      intro old
      obtain ⟨dirName, bytes, event⟩ := old
      exact ⟨dirName, bytes, List.mem_cons_of_mem _ event⟩
    · rw [inserted.2] at released
      cases released

/-- The row that is released is the one of the file that was offered. -/
theorem releaseDataRecord (offered : FilesOffered start s events) (valid : s.dataDirValid = true)
    (bytes : List UInt8)
    : FilesOffered start
        ((((s.takeDataFile dataFile).addDataRecord dataFile).offerDataFile dataFile
          (some bytes)).releaseDataRecord (s.upmuDataFile.last + 1))
        (.offered s.dataDir.dirName dataFile (some bytes) s.acceptingServices :: events) where
  history := (offered.offerDataFile valid bytes).history
  services := offered.services
  processed := (offered.offerDataFile valid bytes).processed
  released := by
    intro row member released
    rcases SerialTable.mem_update.mp member with ⟨_, other⟩ | ⟨new, old, stored, changed⟩
    · exact (offered.offerDataFile valid bytes).released row other released
    · rw [new] at stored
      have inserted := SerialTable.eq_of_mem_insert stored
      subst inserted
      refine .inr ⟨s.dataDir.dirName, bytes, ?_⟩
      rw [changed]
      exact List.mem_cons_self

end FilesOffered

namespace OffersSince

variable {start s next : ServiceDataDiscovery} {a : CallAnswers}

/-- A step without files. -/
theorem step (offers : OffersSince start s) (newEvents : List Event)
    (history : next.history = newEvents ++ s.history) (services : next.services = s.services)
    (files : next.upmuDataFile = s.upmuDataFile)
    (processed : next.dataFilesProcessed = s.dataFilesProcessed)
    (access
      : next.dataDirAccessInProgress = true →
          s.dataDirAccessInProgress = true
          ∧ (s.dataDirValid = true →
              next.dataDirValid = true ∧ next.dataDir.dirName = s.dataDir.dirName))
    : OffersSince start next := by
  obtain ⟨events, offered⟩ := offers
  exact ⟨_, offered.step newEvents history services files (.inr ⟨processed, access⟩)⟩

/-- A call that transfers the file it takes accounts for the files again. -/
theorem processBody (offers : OffersSince start s) (running : s.point = .running)
    (transfers : s.TransfersDataFile a)
    : Spec (OffersSince start) (OffersSince start) (s.processBody a) := by
  refine processBody_spec
    (fun s => s.dataDirValid = true ∧ OffersSince start s
      ∧ ∀ dataFile, s.nextDataFile a = .ok (some dataFile) →
          a.addDataRecord = true ∧ a.getDataRecordKey = true ∧ a.getDataFile.isSome = true)
    (fun s => s.dataDirValid = true ∧ OffersSince start s)
    (fun s => s.dataDirValid = false ∧ OffersSince start s)
    (fun s => s.dataDirValid = false ∧ OffersSince start s) ?_ ?_ ?_ ?_ ?_ ?_ ?_ ?_ ?_
  · intro valid
    obtain ⟨events, offered⟩ := offers
    exact ⟨(scanDataDir_dataDirValid a s).trans valid, offered.scanDataDir,
      transfers running valid⟩
  · intro s scanned
    exact scanned.2.1.step [] rfl rfl rfl rfl fun access => ⟨access, fun valid => ⟨valid, rfl⟩⟩
  · intro s scanned
    exact ⟨scanned.1, scanned.2.1⟩
  · intro s scanned dataFile _ taken
    obtain ⟨valid, ⟨events, offered⟩, transfers⟩ := scanned
    obtain ⟨added, key, downloaded⟩ := transfers dataFile taken
    obtain ⟨bytes, data⟩ := Option.isSome_iff_exists.mp downloaded
    refine processDataFile_spec ?_ ?_ ?_ ?_
    · simp [added]
    · simp [key]
    · intro _ _ _
      rw [data]
      exact ⟨_, offered.offerDataFile valid bytes⟩
    · intro _ _ _
      rw [data]
      exact ⟨valid, _, offered.releaseDataRecord valid bytes⟩
  · intro s tried
    exact tried
  · intro s tried _ _
    exact ⟨rfl, tried.2.step [] rfl rfl rfl rfl fun access => by cases access⟩
  · intro notValid
    exact ⟨notValid, offers⟩
  · intro s invalid
    refine ⟨invalid.1, releaseDataDir_spec ?_ ?_ ?_⟩
    · intro _
      exact invalid
    · intro _ _
      exact invalid.2.step [_] rfl rfl rfl rfl fun access =>
        ⟨access, fun valid => ⟨valid, rfl⟩⟩
    · intro _ _
      exact ⟨invalid.1, invalid.2.step [_] rfl rfl rfl rfl fun access => by cases access⟩
  · intro s released
    refine nextDataDir_spec (fun s => s.dataDirValid = false ∧ OffersSince start s)
      (fun _ => released) ?_ ?_ ?_
    · intro _
      rw [stepOn]
      exact ⟨released.1, released.2.step [_] rfl rfl rfl rfl fun access =>
        ⟨access, fun valid => absurd valid (by simp [released.1])⟩⟩
    · intro s arrived _
      exact arrived.2.step [_] rfl rfl rfl rfl fun access =>
        ⟨access, fun valid => ⟨valid, rfl⟩⟩
    · intro s arrived _ dbID upmuDataDirectory
      exact arrived.2.step [_] rfl rfl rfl rfl fun access =>
        ⟨access, fun valid => absurd valid (by simp [arrived.1])⟩

theorem processUPMUdata (offers : OffersSince start s) (transfers : s.TransfersDataFile a)
    : OffersSince start (s.processUPMUdata a) := by
  unfold ServiceDataDiscovery.processUPMUdata
  split_ifs with running
  · exact (offers.processBody running transfers).leaves.step [] rfl rfl rfl rfl fun access =>
      ⟨access, fun valid => ⟨valid, rfl⟩⟩
  · exact offers

end OffersSince

/-- A table row says that the file has been dealt with. -/
def HasDealtWith (upmuDataFile : SerialTable FileRow) (dataFile : String) : Prop :=
  ∃ row ∈ upmuDataFile.rows, row.2.fileName = dataFile
    ∧ (row.2.state = .abandoned ∨ row.2.state = .released)

/-- A start takes over the files that the database has as dealt with. -/
theorem initService_dataFilesProcessed (answers : StartAnswers)
    (upmuDataDirectory : SerialTable DirectoryRow) (upmuDataFile : SerialTable FileRow)
    (services : List (String × Bool))
    : ∀ dataFile
        ∈ ((new upmuDataDirectory upmuDataFile services).initService
          answers).dataFilesProcessed,
        HasDealtWith upmuDataFile dataFile := by
  have keeps (s : ServiceDataDiscovery)
      (same : SameFiles (new upmuDataDirectory upmuDataFile services) s)
      : ∀ dataFile ∈ s.dataFilesProcessed, HasDealtWith upmuDataFile dataFile := by
    intro dataFile member
    rw [same.dataFilesProcessed] at member
    exact absurd member (Finset.notMem_empty _)
  refine @initService_spec _
    (fun s => ∀ dataFile ∈ s.dataFilesProcessed, HasDealtWith upmuDataFile dataFile) answers
    (fun _ => SameFiles (new upmuDataDirectory upmuDataFile services))
    (fun _ => SameFiles (new upmuDataDirectory upmuDataFile services)) ?_ ?_ ?_ ?_ keeps ?_ ?_ ?_
  · intro dataFile member
    exact absurd member (Finset.notMem_empty _)
  · intro dataDir _ dataFile member
    exact absurd member (Finset.notMem_empty _)
  · intro dataDir _ _
    exact ⟨rfl, rfl, rfl, rfl, rfl⟩
  · intro a rest s same
    exact (walkTurn_sameFiles a s).mono (fun _ => same.trans) (fun _ => same.trans)
  · intro sts s same
    exact keeps s same
  · intro s same
    exact keeps s same
  · intro s dataFilesProcessed same found dataFile member
    obtain ⟨row, stored, _, name, state⟩ := found dataFile member
    rw [same.upmuDataFile] at stored
    exact ⟨row, stored, name, state⟩

/-- In every run whose calls transfer the files that they take, from any state, only files that
were downloaded and offered become processed or released. A start takes the files over that
the database has as abandoned or released.
-/
theorem run_offersSince (start : ServiceDataDiscovery) (calls : List CallAnswers)
    (transfers : Meets processUPMUdata TransfersDataFile calls start)
    : OffersSince start (run processUPMUdata calls start)
      ∧ ∀ (answers : StartAnswers) (upmuDataDirectory : SerialTable DirectoryRow)
          (upmuDataFile : SerialTable FileRow) (services : List (String × Bool)),
          ∀ dataFile
            ∈ ((new upmuDataDirectory upmuDataFile services).initService
              answers).dataFilesProcessed,
            HasDealtWith upmuDataFile dataFile :=
  ⟨transfers.invariant (fun _ _ offers => offers.processUPMUdata) ⟨[], .refl start⟩,
    initService_dataFilesProcessed⟩

/-- The file is downloaded and offered. -/
theorem run_offersSince_one
    : OffersSince oneDataFile
        (run processUPMUdata [{ completeClock := 1000, getDataFile := some [7] }] oneDataFile) :=
  (run_offersSince oneDataFile [{ completeClock := 1000, getDataFile := some [7] }]
    ⟨fun _ _ _ _ => ⟨rfl, rfl, rfl⟩, trivial⟩).1

/-- The row of the file cannot be added: the file counts as processed and is never offered. -/
theorem run_drops_dataFile
    : ¬OffersSince oneDataFile
        (run processUPMUdata [{ completeClock := 1000, addDataRecord := false }]
          oneDataFile) := by
  intro offers
  obtain ⟨events, offered⟩ := offers
  have history : (run processUPMUdata [{ completeClock := 1000, addDataRecord := false }]
    oneDataFile).history = [] := by decide +kernel
  have member : "upmu_1970-01-01-00-10-00.dat" ∈ (run processUPMUdata
    [{ completeClock := 1000, addDataRecord := false }] oneDataFile).dataFilesProcessed := by
    decide +kernel
  rw [offered.history, List.append_eq_nil_iff] at history
  rcases offered.processed _ member with before | ⟨_, _, event, _⟩
  · exact absurd before (Finset.notMem_empty _)
  · rw [history.1] at event
    exact absurd event List.not_mem_nil

end ServiceDataDiscovery

end Sparcs.Discovery
