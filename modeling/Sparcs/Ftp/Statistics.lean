import Sparcs.Ftp.Archivers

/-! The statistics of the Cassandra archiver of the FTP gateway. Both of its threads are to count
what happens, through pointers that they take from the tables of the values.
-/

namespace Sparcs.Ftp.ServiceDataArchiver

open Archiver (BufferProcessingRecord Service ServiceDataBuffer)

-----------------------------------------------------------------------------------------
-- The tables
-----------------------------------------------------------------------------------------

/-- The entries of both tables that the archiver is to count in. -/
inductive Statistic where
  | numDataBufSeen
  | numDataBufAccepted
  | numDataBufRejected
  | bufFmtError
  | abandonedBuffers
  | pbNoSerialMemAvail
  | cassandraDataInsertErr
  | insertAbandonNoCassandraConn
  deriving DecidableEq, Repr

/-- The numbers that the entries point to. -/
structure Statistics where
  uints : Statistic → UInt32
  minAvgDataInsertMsec : Float32
  maxAvgDataInsertMsec : Float32
  lastAvgDataInsertMsec : Float32

/-- `createServiceCommonStats` and `createServiceSpecificStats` -/
def createServiceStats : Statistics :=
  { uints := fun _ => 0, minAvgDataInsertMsec := 0, maxAvgDataInsertMsec := 0,
    lastAvgDataInsertMsec := 0 }

/-- An `unsigned int *`: the entry that it was taken from, and how far it has moved. -/
structure UintPointer where
  entry : Statistic
  moved : Nat

/-- `any_cast<unsigned int *>((*serviceSpecStatsValues)[indx])` -/
def anyCast (indx : Statistic) : UintPointer := { entry := indx, moved := 0 }

/-- `*cnt++` reads the number that `cnt` points to and moves `cnt` on to the next one. -/
def Statistics.readAndMove (s : Statistics) (cnt : UintPointer)
    : UInt32 × Statistics × UintPointer :=
  (s.uints cnt.entry, s, { cnt with moved := cnt.moved + 1 })

/-- The statements between the locks of a table that are to count: the number that was read is
not used.
-/
def Statistics.count (s : Statistics) (indx : Statistic) : Statistics :=
  let cnt := anyCast indx
  (s.readAndMove cnt).2.1

@[simp] theorem Statistics.count_eq (s : Statistics) (indx : Statistic) : s.count indx = s := rfl

/-- The average insert time of a buffer is kept if it is the least or the greatest so far. -/
def Statistics.insertTime (s : Statistics) (avgInsertTime : Float32) : Statistics :=
  let minInsertTime := s.minAvgDataInsertMsec
  let maxInsertTime := s.maxAvgDataInsertMsec
  { s with
    minAvgDataInsertMsec :=
      if minInsertTime == 0 ∨ avgInsertTime < minInsertTime then avgInsertTime else minInsertTime
    maxAvgDataInsertMsec :=
      if maxInsertTime == 0 ∨ avgInsertTime > maxInsertTime then avgInsertTime else maxInsertTime
    lastAvgDataInsertMsec := avgInsertTime }

-----------------------------------------------------------------------------------------
-- What happens
-----------------------------------------------------------------------------------------

inductive Happening where
  /-- A call of `dataBufferOffer`. -/
  | offered
  | accepted
  | refused
  | formatError
  /-- Without a connection, a buffer is refused or an insert left out. -/
  | noCassandraConn
  | abandoned
  /-- The records of a buffer are counted. -/
  | begun
  | noSerialMem
  | inserted (ok : Bool)
  | completed
  | averaged (avgInsertTime : Float32)
  deriving DecidableEq

/-- What a statistic is to count. -/
def Statistic.counts : Statistic → Happening → Bool
  | .numDataBufSeen, .offered => true
  | .numDataBufAccepted, .accepted => true
  | .numDataBufRejected, .refused => true
  | .bufFmtError, .formatError => true
  | .abandonedBuffers, .abandoned => true
  | .pbNoSerialMemAvail, .noSerialMem => true
  | .cassandraDataInsertErr, .inserted ok => !ok
  | .insertAbandonNoCassandraConn, .noCassandraConn => true
  | _, _ => false

def Happening.isAverage : Happening → Bool
  | .averaged _ => true
  | _ => false

/-- The inserts for the buffer that was begun last. -/
def insertsMade (happened : List Happening) : Nat :=
  happened.foldl (fun inserts happening =>
    match happening with
    | .begun => 0
    | .inserted _ => inserts + 1
    | _ => inserts) 0

/-- The inserts for each buffer that was completed. -/
def completedInserts : (inserts : Nat) → List Happening → List Nat
  | _, [] => []
  | _, .begun :: later => completedInserts 0 later
  | inserts, .inserted _ :: later => completedInserts (inserts + 1) later
  | inserts, .completed :: later => inserts :: completedInserts inserts later
  | inserts, _ :: later => completedInserts inserts later

-----------------------------------------------------------------------------------------
-- The service with its statistics
-----------------------------------------------------------------------------------------

/-- All that a pass through the loop depends on, with the result of an insert and its time. -/
structure Answer extends Setting where
  insertOk : Bool
  insertTime : Float32

/-- The service with its tables, the time in `bpr`, and what has happened so far. -/
structure CountingService where
  service : Service ServiceDataBuffer BufferProcessingRecord Insert
  statistics : Statistics := createServiceStats
  accumInsertTime : Float32
  happened : List Happening := []

namespace CountingService

variable (s : CountingService) (answer : Answer)

/-- `dataBufferOffer` up to the size test and, if there is no room, to its end. -/
def testSize (offeredBuf : ServiceDataBuffer) : CountingService :=
  let statistics := s.statistics.count .numDataBufSeen
  let tested := { s with service := s.service.testSize offeredBuf }
  match Archiver.dataBufferOffer s.service.dataQueue.length.toUInt64 with
  | .refused =>
      { tested with
        statistics := statistics.count .numDataBufRejected
        happened := s.happened ++ [.offered, .refused] }
  | _ => { tested with statistics, happened := s.happened ++ [.offered] }

/-- `dataBufferOffer` from the push on. -/
def push (offeredBuf : ServiceDataBuffer) (sizeAtTest : Nat) : CountingService :=
  { s with
    service := s.service.push offeredBuf sizeAtTest
    statistics := s.statistics.count .numDataBufAccepted
    happened := s.happened ++ [.accepted] }

/-- The statistics of `preProcessData`. -/
def preProcessStatistics (statistics : Statistics) (setting : Setting)
    (buf : ServiceDataBuffer)
    : Statistics :=
  if buf.byteLen % upmu1secBufLen ≠ 0 then
    statistics.count .bufFmtError
  else if !setting.cassArchivingEnabled || !setting.cassConnected then
    statistics.count .insertAbandonNoCassandraConn
  else
    statistics

/-- What happens to a buffer that is taken. -/
def takingHappens (setting : Setting) (buf : ServiceDataBuffer) : List Happening :=
  if buf.byteLen % upmu1secBufLen ≠ 0 then
    [.formatError, .abandoned]
  else if !setting.cassArchivingEnabled || !setting.cassConnected then
    [.noCassandraConn, .abandoned]
  else
    [.begun]

/-- The front of the queue is taken and checked. -/
def takeFront (buf : ServiceDataBuffer) (rest : List ServiceDataBuffer) : CountingService :=
  let sts := (preProcessData answer.toSetting s.service.bpr buf).1
  let statistics := preProcessStatistics s.statistics answer.toSetting buf
  { service := s.service.takeFront functions answer.toSetting buf rest
    statistics := if sts ≤ 0 then statistics.count .abandonedBuffers else statistics
    -- only a buffer whose records are counted has its time set to zero
    accumInsertTime := if sts ≤ 0 then s.accumInsertTime else 0
    happened := s.happened ++ takingHappens answer.toSetting buf }

/-- The statistics of `processData` and `cassandraDataArchive`, if the record is not done. -/
def processStatistics (statistics : Statistics) : Statistics :=
  if !answer.cassArchivingEnabled || !answer.cassConnected then
    statistics.count .insertAbandonNoCassandraConn
  else if !answer.pbBufferAvailable then
    statistics.count .pbNoSerialMemAvail
  else if !answer.insertOk then
    statistics.count .cassandraDataInsertErr
  else
    statistics

/-- The time in `bpr` after `cassandraDataArchive`, if it is called. Its last statement names
`numInsertsInAccum` and does nothing.
-/
def processTime (accumInsertTime : Float32) : Float32 :=
  if !answer.cassArchivingEnabled || !answer.cassConnected || !answer.pbBufferAvailable then
    accumInsertTime
  else
    accumInsertTime + answer.insertTime

/-- What happens to a second that is not done. -/
def processingHappens : List Happening :=
  if !answer.cassArchivingEnabled || !answer.cassConnected then
    [.noCassandraConn]
  else if !answer.pbBufferAvailable then
    [.noSerialMem]
  else
    [.inserted answer.insertOk]

/-- The end of a buffer, with the average of its insert times if there are any. -/
def complete : CountingService :=
  let bpr := s.service.bpr
  if bpr.numInsertsInAccum > 0 then
    let avgInsertTime := s.accumInsertTime / bpr.numInsertsInAccum.toFloat32
    { s with
      statistics := s.statistics.insertTime avgInsertTime
      happened := s.happened ++ [.averaged avgInsertTime, .completed] }
  else
    { s with happened := s.happened ++ [.completed] }

/-- One call of `processData` for the buffer at work, if there is one. -/
def processStep : CountingService :=
  match s.service.dataBuf with
  | none => s
  | some _ =>
      let service := s.service.processStep functions answer.toSetting
      if s.service.bpr.done then
        { s.complete with service }
      else
        { service
          statistics := processStatistics answer s.statistics
          accumInsertTime := processTime answer s.accumInsertTime
          happened := s.happened ++ processingHappens answer }

/-- The top of the loop. -/
def loopTop : CountingService :=
  if s.service.processingBuffer then
    s.processStep answer
  else
    { s with service := s.service.loopTop functions answer.toSetting }

/-- The steps of both threads in any order. -/
inductive Step : CountingService → CountingService → Prop where
  | testSize {s : CountingService} (offeredBuf : ServiceDataBuffer) :
      s.service.offering = .outside → Step s (s.testSize offeredBuf)
  | push {s : CountingService} {offeredBuf : ServiceDataBuffer} {sizeAtTest : Nat} :
      s.service.offering = .pushing offeredBuf sizeAtTest →
      Step s (s.push offeredBuf sizeAtTest)
  | loopTop {s : CountingService} (answer : Answer) :
      s.service.looping = .loopTop → Step s (s.loopTop answer)
  | takeFront {s : CountingService} (answer : Answer) {buf : ServiceDataBuffer}
      {rest : List ServiceDataBuffer} :
      s.service.looping = .taking → s.service.dataQueue = buf :: rest →
      Step s (s.takeFront answer buf rest)
  | stop {s : CountingService} : Step s { s with service := { s.service with looping := .stopped } }

/-- States that steps lead to from a new service, whatever its record holds. -/
def Reachable (s : CountingService) : Prop :=
  ∃ bpr accumInsertTime, Relation.ReflTransGen Step { service := { bpr }, accumInsertTime } s

/-- Each statistic is the number of its happenings, every offer that is over has been accepted or
refused, the inserts for the buffer at work are counted, and there is an average insert time for
every completed buffer with at least one insert.
-/
structure StatisticsCount (s : CountingService) : Prop where
  counted
    : ∀ statistic, (s.statistics.uints statistic).toNat = s.happened.countP statistic.counts
  seen
    : s.service.offering = .outside →
      (s.statistics.uints .numDataBufSeen).toNat
        = (s.statistics.uints .numDataBufAccepted).toNat
          + (s.statistics.uints .numDataBufRejected).toNat
  inserts
    : s.service.processingBuffer →
      s.service.bpr.numInsertsInAccum.toInt = insertsMade s.happened
  averaged
    : s.happened.countP Happening.isAverage = (completedInserts 0 s.happened).countP (0 < ·)

-----------------------------------------------------------------------------------------
-- What every run keeps
-----------------------------------------------------------------------------------------

section Run

variable {s next : CountingService}

@[simp] theorem preProcessStatistics_eq (statistics : Statistics) (setting : Setting)
    (buf : ServiceDataBuffer)
    : preProcessStatistics statistics setting buf = statistics := by
  rw [preProcessStatistics]
  split_ifs <;> rfl

@[simp] theorem processStatistics_eq (answer : Answer) (statistics : Statistics)
    : processStatistics answer statistics = statistics := by
  rw [processStatistics]
  split_ifs <;> rfl

theorem loopTop_service (answer : Answer)
    : (s.loopTop answer).service = s.service.loopTop functions answer.toSetting := by
  rw [loopTop, Service.loopTop]
  split_ifs with processing
  · rw [processStep]
    cases working : s.service.dataBuf with
    | none =>
        rw [Service.processStep, working]
    | some buf =>
        dsimp only
        split_ifs <;> rfl
  · simp_all
  · simp_all

/-- The service goes through the steps of one without statistics. -/
theorem Step.service (steps : Step s next) : Service.Step functions s.service next.service := by
  cases steps with
  | testSize buf outside =>
      have tested : (s.testSize buf).service = s.service.testSize buf := by
        rw [CountingService.testSize]
        split <;> rfl
      rw [tested]
      exact .testSize buf outside
  | push pushing => exact .push pushing
  | loopTop answer top =>
      rw [loopTop_service]
      exact .loop (.loopTop answer.toSetting top)
  | takeFront answer taking front => exact .loop (.takeFront answer.toSetting taking front)
  | stop => exact .loop .stop

/-- No call of `processData` changes the number of inserts. -/
theorem processStep_numInserts (service : Service ServiceDataBuffer BufferProcessingRecord Insert)
    (setting : Setting)
    : (service.processStep functions setting).bpr.numInsertsInAccum
      = service.bpr.numInsertsInAccum := by
  have kept (buf : ServiceDataBuffer)
      : (processData setting service.bpr buf).bpr.numInsertsInAccum
        = service.bpr.numInsertsInAccum := by
    rw [processData]
    split_ifs <;> rfl
  rw [Service.processStep]
  cases service.dataBuf with
  | none => rfl
  | some buf =>
      dsimp only
      split_ifs <;> exact kept buf

/-- Only `preProcessData` changes it, to zero. -/
theorem takeFront_numInserts (service : Service ServiceDataBuffer BufferProcessingRecord Insert)
    (setting : Setting) (buf : ServiceDataBuffer) (rest : List ServiceDataBuffer)
    (before : service.processingBuffer → service.bpr.numInsertsInAccum = 0)
    : (service.takeFront functions setting buf rest).processingBuffer →
      (service.takeFront functions setting buf rest).bpr.numInsertsInAccum = 0 := by
  have checked
      : (functions.preProcessData setting service.bpr buf).2.numInsertsInAccum
          = service.bpr.numInsertsInAccum
          ∧ (functions.preProcessData setting service.bpr buf).1 ≤ 0
        ∨ (functions.preProcessData setting service.bpr buf).2.numInsertsInAccum = 0 := by
    change (preProcessData setting service.bpr buf).2.numInsertsInAccum = _
        ∧ (preProcessData setting service.bpr buf).1 ≤ 0
      ∨ (preProcessData setting service.bpr buf).2.numInsertsInAccum = 0
    rw [preProcessData]
    split_ifs
    · exact .inl ⟨rfl, (by decide : (-1 : Int32) ≤ 0)⟩
    · exact .inl ⟨rfl, (by decide : (-1 : Int32) ≤ 0)⟩
    · exact .inr rfl
  rw [Service.takeFront]
  split_ifs with refused
  · intro processing
    rcases checked with ⟨same, -⟩ | zero
    · exact same.trans (before processing)
    · exact zero
  · intro _
    rcases checked with ⟨-, refused'⟩ | zero
    · exact absurd refused' refused
    · exact zero

/-- What holds in every state: nothing is counted, and nothing happens before the first offer. -/
structure Sound (s : CountingService) : Prop where
  zero : ∀ statistic, s.statistics.uints statistic = 0
  notInserted : s.service.processingBuffer → s.service.bpr.numInsertsInAccum = 0
  notAveraged : ∀ happening ∈ s.happened, happening.isAverage = false
  unoffered
    : .offered ∉ s.happened →
      s.happened = [] ∧ s.service.offering = .outside ∧ s.service.dataQueue = []
        ∧ s.service.processingBuffer = false

namespace Sound

theorem initial (bpr : BufferProcessingRecord) (accumInsertTime : Float32)
    : Sound { service := { bpr }, accumInsertTime } where
  zero _ := rfl
  notInserted processing := by cases processing
  notAveraged := by simp
  unoffered _ := ⟨rfl, rfl, rfl, rfl⟩

/-- Once a buffer has been offered, whatever happens but an average keeps a state sound. -/
theorem add (sound : s.Sound) (later : List Happening)
    (statistics : next.statistics = s.statistics) (happened : next.happened = s.happened ++ later)
    (odd : ∀ happening ∈ later, happening.isAverage = false)
    (inserts
      : next.service.processingBuffer → next.service.bpr.numInsertsInAccum = 0)
    (offered : .offered ∈ s.happened ∨ .offered ∈ later)
    : next.Sound where
  zero := by
    rw [statistics]
    exact sound.zero
  notInserted := inserts
  notAveraged := by
    intro happening member
    rw [happened] at member
    rcases List.mem_append.mp member with earlier | now
    · exact sound.notAveraged happening earlier
    · exact odd happening now
  unoffered := by
    rw [happened, List.mem_append]
    exact fun unoffered => absurd offered unoffered

theorem testSize (sound : s.Sound) (buf : ServiceDataBuffer) : (s.testSize buf).Sound := by
  have inserts
      : (s.service.testSize buf).processingBuffer →
        (s.service.testSize buf).bpr.numInsertsInAccum = 0 := by
    rw [Service.testSize]
    split <;> exact sound.notInserted
  rw [CountingService.testSize]
  split
  · exact sound.add [.offered, .refused] rfl rfl (by simp [Happening.isAverage]) inserts
      (.inr (by simp))
  · exact sound.add [.offered] rfl rfl (by simp [Happening.isAverage]) inserts (.inr (by simp))

theorem push (sound : s.Sound) {buf : ServiceDataBuffer} {size : Nat}
    (pushing : s.service.offering = .pushing buf size)
    : (s.push buf size).Sound := by
  refine sound.add [.accepted] rfl rfl (by simp [Happening.isAverage]) sound.notInserted (.inl ?_)
  by_contra unoffered
  have outside := (sound.unoffered unoffered).2.1
  rw [pushing] at outside
  cases outside

/-- Without inserts that are counted, there is no average at the end of a buffer. -/
theorem processStep (sound : s.Sound) (answer : Answer)
    (processing : s.service.processingBuffer = true)
    : (s.processStep answer).Sound := by
  have notCounted := sound.notInserted processing
  have offered : .offered ∈ s.happened := by
    by_contra unoffered
    rw [(sound.unoffered unoffered).2.2.2] at processing
    cases processing
  have inserts
      : (s.service.processStep functions answer.toSetting).processingBuffer →
        (s.service.processStep functions answer.toSetting).bpr.numInsertsInAccum = 0 :=
    fun _ => (processStep_numInserts ..).trans notCounted
  rw [CountingService.processStep]
  cases working : s.service.dataBuf with
  | none => exact sound
  | some buf =>
      dsimp only
      split_ifs with done
      · have unfinished : ¬s.service.bpr.numInsertsInAccum > 0 := by
          rw [notCounted]
          decide
        rw [complete, if_neg unfinished]
        exact sound.add [.completed] rfl rfl (by simp [Happening.isAverage]) inserts (.inl offered)
      · refine sound.add (processingHappens answer) (processStatistics_eq ..) rfl ?_ inserts
          (.inl offered)
        rw [processingHappens]
        split_ifs <;> simp [Happening.isAverage]

theorem takeFront (sound : s.Sound) (answer : Answer) {buf : ServiceDataBuffer}
    {rest : List ServiceDataBuffer} (front : s.service.dataQueue = buf :: rest)
    : (s.takeFront answer buf rest).Sound := by
  have offered : .offered ∈ s.happened := by
    by_contra unoffered
    rw [(sound.unoffered unoffered).2.2.1] at front
    cases front
  refine sound.add (takingHappens answer.toSetting buf) ?_ rfl ?_ ?_ (.inl offered)
  · rw [CountingService.takeFront]
    dsimp only
    split_ifs <;> exact preProcessStatistics_eq ..
  · rw [takingHappens]
    split_ifs <;> simp [Happening.isAverage]
  · exact takeFront_numInserts s.service answer.toSetting buf rest sound.notInserted

/-- Every step of either thread keeps a state sound. -/
theorem step (sound : s.Sound) (steps : Step s next) : next.Sound := by
  cases steps with
  | testSize buf _ => exact sound.testSize buf
  | push pushing => exact sound.push pushing
  | takeFront answer _ front => exact sound.takeFront answer front
  | stop => exact { sound with }
  | loopTop answer _ =>
      rw [loopTop]
      split_ifs with processing
      · exact sound.processStep answer processing
      · rw [Service.loopTop, if_neg processing]
        split
        · exact sound
        · exact { sound with }

end Sound

theorem Reachable.sound (reachable : s.Reachable) : s.Sound := by
  obtain ⟨bpr, accumInsertTime, run⟩ := reachable
  induction run with
  | refl => exact .initial bpr accumInsertTime
  | tail _ steps ih => exact ih.step steps

/-- A statistic is right as long as there is nothing to count. -/
theorem Reachable.counted_iff (reachable : s.Reachable) (statistic : Statistic)
    : (s.statistics.uints statistic).toNat = s.happened.countP statistic.counts
      ↔ ∀ happening ∈ s.happened, statistic.counts happening = false := by
  rw [reachable.sound.zero, UInt32.toNat_zero, eq_comm, List.countP_eq_zero]
  simp

/-- The inserts for the buffer at work are counted as long as there is none. -/
theorem Reachable.inserts_iff (reachable : s.Reachable)
    (processing : s.service.processingBuffer = true)
    : s.service.bpr.numInsertsInAccum.toInt = insertsMade s.happened
      ↔ insertsMade s.happened = 0 := by
  rw [reachable.sound.notInserted processing, Int32.toInt_zero, eq_comm, Int.natCast_eq_zero]

/-- There is no average, so that only buffers without inserts have what they need. -/
theorem Reachable.averaged_iff (reachable : s.Reachable)
    : s.happened.countP Happening.isAverage = (completedInserts 0 s.happened).countP (0 < ·)
      ↔ ∀ inserts ∈ completedInserts 0 s.happened, inserts = 0 := by
  have noAverage : s.happened.countP Happening.isAverage = 0 := by
    rw [List.countP_eq_zero]
    simpa using reachable.sound.notAveraged
  rw [noAverage, eq_comm, List.countP_eq_zero]
  simp

theorem Reachable.counts_of_unoffered (reachable : s.Reachable) (unoffered : .offered ∉ s.happened)
    : s.StatisticsCount := by
  have sound := reachable.sound
  obtain ⟨nothing, -, -, idle⟩ := sound.unoffered unoffered
  exact {
    counted := by
      intro statistic
      rw [sound.zero, nothing]
      rfl
    seen := by
      intro _
      rw [sound.zero, sound.zero, sound.zero]
      rfl
    inserts := by
      rw [idle]
      simp
    averaged := by
      rw [nothing]
      rfl }

/-- In every run, in any order of the steps of both threads and with any results of inserts, the
statistics count in a state just when no buffer has been offered yet; and each of them is right
just when there has been nothing to count.
-/
theorem Reachable.statisticsCount_iff (reachable : s.Reachable)
    : (s.StatisticsCount ↔ .offered ∉ s.happened)
      ∧ (∀ statistic,
          (s.statistics.uints statistic).toNat = s.happened.countP statistic.counts
          ↔ ∀ happening ∈ s.happened, statistic.counts happening = false)
      ∧ (s.service.processingBuffer = true →
          (s.service.bpr.numInsertsInAccum.toInt = insertsMade s.happened
          ↔ insertsMade s.happened = 0))
      ∧ (s.happened.countP Happening.isAverage
            = (completedInserts 0 s.happened).countP (0 < ·)
          ↔ ∀ inserts ∈ completedInserts 0 s.happened, inserts = 0) := by
  refine ⟨⟨fun count offered => ?_, reachable.counts_of_unoffered⟩, reachable.counted_iff,
    reachable.inserts_iff, reachable.averaged_iff⟩
  have seen := (reachable.counted_iff .numDataBufSeen).mp (count.counted _) .offered offered
  cases seen

end Run

/-- A new service. -/
def start : CountingService := { service := { bpr := ⟨0, 0, 0⟩ }, accumInsertTime := 0 }

/-- A buffer of one second, and an insert of it that succeeds. -/
def oneSecond : ServiceDataBuffer := ⟨6312, Blocks.alloc 6312 fun _ => 0⟩

def succeeds : Answer :=
  { cassArchivingEnabled := true, cassConnected := true, pbBufferAvailable := true,
    insertOk := true, insertTime := 1 }

/-- The buffer is offered and taken, and its second is inserted. -/
def inserting : CountingService :=
  (((((start.testSize oneSecond).push oneSecond 0).loopTop succeeds).takeFront succeeds oneSecond
    []).loopTop succeeds)

theorem inserting_reachable : inserting.Reachable := by
  refine ⟨_, _, ((((Relation.ReflTransGen.single (.testSize oneSecond rfl)).tail (.push ?_)).tail
    (.loopTop succeeds ?_)).tail (.takeFront succeeds ?_ ?_)).tail (.loopTop succeeds ?_)⟩
  all_goals rfl

/-- After the insert, only the statistics of what has not happened are right. -/
theorem statisticsCount_iff_inserting
    : ¬inserting.StatisticsCount
      ∧ (∀ statistic,
          (inserting.statistics.uints statistic).toNat
              = inserting.happened.countP statistic.counts
          ↔ statistic ≠ .numDataBufSeen ∧ statistic ≠ .numDataBufAccepted)
      ∧ inserting.service.bpr.numInsertsInAccum.toInt ≠ insertsMade inserting.happened
      ∧ inserting.happened.countP Happening.isAverage
          = (completedInserts 0 inserting.happened).countP (0 < ·) := by
  have happened : inserting.happened = [.offered, .accepted, .begun, .inserted true] := rfl
  obtain ⟨count, counted, inserts, averaged⟩ := inserting_reachable.statisticsCount_iff
  refine ⟨?_, ?_, ?_, ?_⟩
  · rw [count, happened]
    decide
  · intro statistic
    rw [counted, happened]
    cases statistic <;> decide
  · rw [ne_eq, inserts rfl, happened]
    decide
  · rw [averaged, happened]
    decide

/-- The insert is not counted, and neither is the buffer that was seen; when the buffer is
completed, no average insert time is computed.
-/
theorem statistics_not_count
    : inserting.Reachable ∧ inserting.statistics.uints .numDataBufSeen = 0
      ∧ inserting.service.bpr.numInsertsInAccum = 0 ∧ insertsMade inserting.happened = 1
      ∧ ¬inserting.StatisticsCount
      ∧ (inserting.loopTop succeeds).Reachable
      ∧ (inserting.loopTop succeeds).happened
        = [.offered, .accepted, .begun, .inserted true, .completed]
      ∧ ¬(inserting.loopTop succeeds).StatisticsCount := by
  have completed : (inserting.loopTop succeeds).Reachable := by
    obtain ⟨bpr, accumInsertTime, run⟩ := inserting_reachable
    exact ⟨bpr, accumInsertTime, run.tail (.loopTop succeeds rfl)⟩
  refine ⟨inserting_reachable, rfl, rfl, rfl, fun count => ?_, completed, rfl, fun count => ?_⟩
  · have inserts := count.inserts rfl
    have made : insertsMade inserting.happened = 1 := rfl
    have counted : inserting.service.bpr.numInsertsInAccum.toInt = 0 := rfl
    omega
  · have averaged := count.averaged
    have happened
        : (inserting.loopTop succeeds).happened
          = [.offered, .accepted, .begun, .inserted true, .completed] :=
      rfl
    rw [happened] at averaged
    exact absurd averaged (by decide)

end CountingService

end Sparcs.Ftp.ServiceDataArchiver
