import Sparcs.Archiver.Deliveries
import Sparcs.Ftp.Inserts
import Sparcs.Recording.StoredRows

/-! The rows that the archivers of both gateways insert in the course of their runs, whatever the
order in which buffers are offered and worked off.
-/

namespace Sparcs.Recording

open Archiver (Additive ArchiverFunctions BufferProcessingRecord QueueEvent Service
  ServiceDataBuffer accepted additive_eq additive_sublist outputs taken)
open CassSpeed (Text)
open FieldFormat (Format)

-----------------------------------------------------------------------------------------
-- The archiver for C37 buffers
-----------------------------------------------------------------------------------------

section C37

open Archiver.ServiceDataArchiver (Setting preProcessData processData readData)

/-- Archiving is possible and memory is available. -/
def C37Good (setting : Setting) : Prop :=
  setting.cassArchivingEnabled ∧ setting.cassConnected ∧ setting.pbBufferAvailable

/-- `serviceDataArchiver` with what it binds to the columns of its rows. -/
def c37Functions (device : Text)
    : ArchiverFunctions Setting ServiceDataBuffer BufferProcessingRecord StoredRow where
  preProcessData _ bpr buf := preProcessData bpr buf.byteLen.toNat
  processData setting bpr buf :=
    let processed := processData setting bpr buf.dataBuffer
    { complete := processed.complete
      bpr := processed.bpr
      output :=
        match processed.secData, processed.row with
        | some secData, some row =>
            [{ device
               day := row.day
               timestampMsec := row.timestampMsec
               data := UpmuDataMessage.format.serialize (c37Message secData) }]
        | _, _ => [] }

/-- One row for a buffer of a full second, and none for any other. -/
def c37Due (device : Text) (buf : ServiceDataBuffer) : List StoredRow :=
  if buf.byteLen.toNat = C37.secblkLenBytes * 120 + 4 then [c37Stored device buf.dataBuffer] else []

/-- The record stands before the second or behind it. -/
def C37Progress (device : Text) (buf : ServiceDataBuffer) (bpr : BufferProcessingRecord)
    (before : List StoredRow) : Prop :=
  buf.byteLen.toNat = C37.secblkLenBytes * 120 + 4 ∧ bpr.numRecords = 1
  ∧ (bpr.nextRecord = 0 ∧ before = [] ∨ bpr.nextRecord = 1 ∧ before = c37Due device buf)

variable {device : Text} {setting : Setting} {bpr : BufferProcessingRecord}
  {buf : ServiceDataBuffer}

/-- The second of a buffer is inserted if all is well, and passed over otherwise. -/
theorem c37_processData (counted : bpr.numRecords = 1) (next : bpr.nextRecord = 0)
    : ((c37Functions device).processData setting bpr buf).bpr
        = { bpr with nextRecord := 1 }
      ∧ (C37Good setting →
          ((c37Functions device).processData setting bpr buf).output
            = [c37Stored device buf.dataBuffer]
          ∧ ((c37Functions device).processData setting bpr buf).complete = false)
      ∧ (¬C37Good setting →
          ((c37Functions device).processData setting bpr buf).output = []) := by
  have notDone : ¬bpr.done := by
    rw [BufferProcessingRecord.done, counted, next]
    decide
  obtain ⟨enabled, connected, available⟩ := setting
  cases enabled <;> cases connected <;> cases available <;>
    simp [c37Functions, processData, notDone, next, C37Good, c37Stored]

theorem c37_processData_done (counted : bpr.numRecords = 1) (next : bpr.nextRecord = 1)
    : (c37Functions device).processData setting bpr buf
      = { complete := true, bpr, output := [] } := by
  have done : bpr.done := by
    rw [BufferProcessingRecord.done, counted, next]
    decide
  simp [c37Functions, processData, done]

/-- Each buffer's row is inserted, or lost when not all is well. -/
theorem c37_delivers {related : List StoredRow → List StoredRow → Prop}
    (additive : Additive related) {given : Setting → Prop}
    (loses : ∀ setting, given setting → ¬C37Good setting → ∀ due, related [] due)
    : ((c37Functions device).under given).Delivers related (c37Due device)
      (C37Progress device) where
  additive
  inside := by
    rintro buf bpr before ⟨-, -, ⟨-, rfl⟩ | ⟨-, rfl⟩⟩
    · exact List.nil_prefix
    · exact List.prefix_rfl
  abandons := by
    rintro ⟨setting, _⟩ bpr buf refused
    change (preProcessData bpr buf.byteLen.toNat).1 ≤ 0 at refused
    rw [Archiver.ServiceDataArchiver.preProcessData, Archiver.preProcessSecond] at refused
    split_ifs at refused with odd
    · rw [c37Due, if_neg odd]
      exact additive.refl []
    · exact absurd refused (by decide : ¬(1 : Int32) ≤ 0)
  begins := by
    rintro ⟨setting, _⟩ bpr buf kept
    change ¬(preProcessData bpr buf.byteLen.toNat).1 ≤ 0 at kept
    change C37Progress device buf (preProcessData bpr buf.byteLen.toNat).2 []
    rw [Archiver.ServiceDataArchiver.preProcessData, Archiver.preProcessSecond] at kept ⊢
    split_ifs at kept ⊢ with odd
    · exact absurd (by decide : (-1 : Int32) ≤ 0) kept
    · exact ⟨not_not.mp odd, rfl, .inl ⟨rfl, rfl⟩⟩
  completes := by
    rintro ⟨setting, isGiven⟩ bpr buf before ⟨full, counted, ⟨next, rfl⟩ | ⟨next, rfl⟩⟩ complete
    all_goals simp only [ArchiverFunctions.under_processData] at complete ⊢
    · obtain ⟨-, good, bad⟩ := @c37_processData device setting bpr buf counted next
      by_cases well : C37Good setting
      · rw [(good well).2] at complete
        contradiction
      · refine ⟨c37Due device buf, rfl, ?_⟩
        rw [bad well]
        exact loses setting isGiven well _
    · refine ⟨[], (List.append_nil _).symm, ?_⟩
      rw [c37_processData_done counted next]
      exact additive.refl []
  goesOn := by
    rintro ⟨setting, isGiven⟩ bpr buf before ⟨full, counted, ⟨next, rfl⟩ | ⟨next, rfl⟩⟩ goesOn
    all_goals simp only [ArchiverFunctions.under_processData] at goesOn ⊢
    · obtain ⟨moved, good, bad⟩ := @c37_processData device setting bpr buf counted next
      refine ⟨c37Due device buf, ?_, ?_⟩
      · rw [moved]
        exact ⟨full, counted, .inr ⟨rfl, rfl⟩⟩
      · by_cases well : C37Good setting
        · rw [(good well).1, c37Due, if_pos full]
          exact additive.refl _
        · rw [bad well]
          exact loses setting isGiven well _
    · rw [c37_processData_done counted next] at goesOn
      contradiction

/-- In every order of the steps of both threads, with settings that may change at any time: the
rows are those of the buffers taken, in this order and each at most once, and none is missing while
all is well.
-/
theorem c37_inserted {given : Setting → Prop}
    {s : Service ServiceDataBuffer BufferProcessingRecord StoredRow}
    (reachable : s.Reachable ((c37Functions device).under given))
    : s.PutOut (c37Due device) (∀ setting, given setting → C37Good setting) :=
  reachable.putOut (c37_delivers additive_sublist fun _ _ _ => List.nil_sublist)
    fun good => c37_delivers additive_eq fun setting isGiven bad =>
      absurd (good setting isGiven) bad

/-- A buffer of a full second is offered, taken, inserted and completed. -/
theorem c37_pass {buf : ServiceDataBuffer}
    (full : buf.byteLen.toNat = C37.secblkLenBytes * 120 + 4)
    : ∃ s : Service ServiceDataBuffer BufferProcessingRecord StoredRow,
        s.Reachable ((c37Functions device).under C37Good)
        ∧ s.history.length = 4 ∧ s.dataBuf = none ∧ s.dataQueue = []
        ∧ accepted s.history = [buf] := by
  let archiver := (c37Functions device).under C37Good
  let setting : { setting // C37Good setting } := ⟨⟨true, true, true⟩, rfl, rfl, rfl⟩
  let start : Service ServiceDataBuffer BufferProcessingRecord StoredRow := { bpr := ⟨0, 0, 0⟩ }
  let atWork (bpr : BufferProcessingRecord) (history : List (QueueEvent _ StoredRow))
      : Service ServiceDataBuffer BufferProcessingRecord StoredRow :=
    { dataBuf := some buf, processingBuffer := true, bpr, history }
  let history : List (QueueEvent ServiceDataBuffer StoredRow) :=
    [.offered buf 0 .accepted, .taken buf]
  let inserted := history ++ [.output (c37Stored device buf.dataBuffer)]
  let offered := start.push buf 0
  let taking := offered.loopTop archiver setting
  have counts : archiver.preProcessData setting start.bpr buf = (1, ⟨1, 0, 0⟩) :=
    if_neg (not_not.mpr full)
  have takes : taking.takeFront archiver setting buf [] = atWork ⟨1, 0, 0⟩ history := by
    change offered.takeFront archiver setting buf [] = _
    rw [Service.takeFront, show offered.bpr = start.bpr from rfl, counts]
    rfl
  have inserts : (atWork ⟨1, 0, 0⟩ history).loopTop archiver setting
      = atWork ⟨1, 1, 0⟩ inserted := rfl
  have completes : (atWork ⟨1, 1, 0⟩ inserted).loopTop archiver setting
      = { bpr := ⟨1, 1, 0⟩, history := inserted ++ [.completed buf] } := rfl
  have offers : Relation.ReflTransGen (Service.Step archiver) start taking :=
    (Service.steps_of_offer buf rfl (by simp [start])).tail (.loop (.loopTop setting rfl))
  have takeFront := offers.tail (.loop (.takeFront setting rfl rfl))
  rw [takes] at takeFront
  have insert_ := takeFront.tail (.loop (.loopTop setting rfl))
  rw [inserts] at insert_
  have complete := insert_.tail (.loop (.loopTop setting rfl))
  rw [completes] at complete
  exact ⟨_, ⟨_, complete⟩, rfl, rfl, rfl, rfl⟩

/-- A buffer of zeros. -/
theorem c37_inserted_second
    : ∃ s : Service ServiceDataBuffer BufferProcessingRecord StoredRow,
        s.history.length = 4 ∧ s.dataBuf = none ∧ s.dataQueue = []
        ∧ outputs s.history = [c37Stored [] (Blocks.alloc 7204 fun _ => 0)] := by
  let buf : ServiceDataBuffer := ⟨7204, Blocks.alloc 7204 fun _ => 0⟩
  have full : buf.byteLen.toNat = C37.secblkLenBytes * 120 + 4 := rfl
  obtain ⟨s, reachable, length, idle, empty, accepted_⟩ := @c37_pass [] buf full
  have all := (c37_inserted reachable).all (fun _ good => good) idle empty
  rw [accepted_, List.flatMap_singleton, c37Due, if_pos full] at all
  exact ⟨s, length, idle, empty, all⟩

end C37

-----------------------------------------------------------------------------------------
-- The archiver of the FTP gateway
-----------------------------------------------------------------------------------------

section Ftp

open Ftp (records)
open Ftp.ServiceDataArchiver (Insert Setting atRecord atWork functions idle insertOf inserts)

/-- One insert for each second of a buffer of whole seconds, and none for any other buffer. -/
def ftpDue (buf : ServiceDataBuffer) : List Insert :=
  if 6312 ∣ buf.byteLen.toNat then inserts buf else []

/-- The record stands behind the first seconds. -/
def FtpProgress (buf : ServiceDataBuffer) (bpr : BufferProcessingRecord) (before : List Insert)
    : Prop :=
  6312 ∣ buf.byteLen.toNat
  ∧ ∃ i ≤ records buf, bpr = atRecord buf i ∧ before = (inserts buf).take i

variable {setting : Setting} {buf : ServiceDataBuffer} {i : Nat}

/-- A call before the end of the buffer. Without archiving the record stays where it is. -/
theorem ftp_processData (within : i < records buf)
    : (functions.processData setting (atRecord buf i) buf).complete = false
      ∧ (functions.processData setting (atRecord buf i) buf
          = { complete := false, bpr := atRecord buf i, output := [] } ∧ ¬setting.Good
        ∨ (functions.processData setting (atRecord buf i) buf).bpr = atRecord buf (i + 1)
          ∧ (setting.Good →
              (functions.processData setting (atRecord buf i) buf).output = [insertOf buf i])
          ∧ (¬setting.Good →
              (functions.processData setting (atRecord buf i) buf).output = [])) := by
  have notDone : ¬(atRecord buf i).done := by
    rw [Ftp.ServiceDataArchiver.atRecord_done within.le]
    exact Nat.not_le.mpr within
  have moved : { atRecord buf i with nextRecord := (atRecord buf i).nextRecord + 1 }
      = atRecord buf (i + 1) := by
    simp [atRecord]
  have second : Ftp.secPtr buf (atRecord buf i).nextRecord = Ftp.recordAt buf i :=
    Ftp.secPtr_eq within
  obtain ⟨enabled, connected, available⟩ := setting
  cases enabled <;> cases connected <;> cases available <;>
    simp [functions, Ftp.ServiceDataArchiver.processData, notDone, moved, second, insertOf,
      Setting.Good]

theorem ftp_processData_done
    : functions.processData setting (atRecord buf (records buf)) buf
      = { complete := true, bpr := atRecord buf (records buf), output := [] } :=
  if_pos ((Ftp.ServiceDataArchiver.atRecord_done le_rfl).mpr le_rfl)

theorem ftp_delivers {related : List Insert → List Insert → Prop} (additive : Additive related)
    {given : Setting → Prop}
    (loses : ∀ setting, given setting → ¬setting.Good → ∀ due, related [] due)
    : (functions.under given).Delivers related ftpDue FtpProgress where
  additive
  inside := by
    rintro buf bpr before ⟨whole, i, -, -, rfl⟩
    rw [ftpDue, if_pos whole]
    exact List.take_prefix i _
  abandons := by
    rintro ⟨setting, isGiven⟩ bpr buf refused
    change (Ftp.ServiceDataArchiver.preProcessData setting bpr buf).1 ≤ 0 at refused
    rw [Ftp.ServiceDataArchiver.preProcessData] at refused
    split_ifs at refused with odd off
    · rw [ftpDue, if_neg (mt (Ftp.dvd_iff buf).mpr odd)]
      exact additive.refl []
    · refine loses setting isGiven (fun good => ?_) _
      simp [good.1, good.2.1] at off
    · exact absurd refused (by decide : ¬(1 : Int32) ≤ 0)
  begins := by
    rintro ⟨setting, isGiven⟩ bpr buf kept
    change ¬(Ftp.ServiceDataArchiver.preProcessData setting bpr buf).1 ≤ 0 at kept
    change FtpProgress buf (Ftp.ServiceDataArchiver.preProcessData setting bpr buf).2 []
    rw [Ftp.ServiceDataArchiver.preProcessData] at kept ⊢
    split_ifs at kept ⊢ with odd
    · exact absurd (by decide : (-1 : Int32) ≤ 0) kept
    · exact absurd (by decide : (-1 : Int32) ≤ 0) kept
    · exact ⟨(Ftp.dvd_iff buf).mp (not_not.mp odd), 0, Nat.zero_le _, rfl, rfl⟩
  completes := by
    rintro ⟨setting, isGiven⟩ bpr buf before ⟨whole, i, within, rfl, rfl⟩ complete
    rcases within.lt_or_eq with more | rfl
    · rw [ArchiverFunctions.under_processData, (ftp_processData more).1] at complete
      contradiction
    · refine ⟨[], ?_, ?_⟩
      · rw [ftpDue, if_pos whole, List.append_nil, inserts, ← List.map_take, List.take_of_length_le]
        rw [List.length_range]
      · rw [ArchiverFunctions.under_processData, ftp_processData_done]
        exact additive.refl []
  goesOn := by
    rintro ⟨setting, isGiven⟩ bpr buf before ⟨whole, i, within, rfl, rfl⟩ goesOn
    rw [ArchiverFunctions.under_processData] at goesOn ⊢
    rcases within.lt_or_eq with more | rfl
    · have next : (inserts buf).take (i + 1) = (inserts buf).take i ++ [insertOf buf i] := by
        rw [List.take_succ_eq_append_getElem (by simpa [inserts] using more)]
        simp [inserts]
      obtain ⟨-, ⟨stays, bad⟩ | ⟨moved, good, bad⟩⟩ := @ftp_processData setting buf i more
      · refine ⟨[], ?_, ?_⟩
        · rw [stays, List.append_nil]
          exact ⟨whole, i, within, rfl, rfl⟩
        · rw [stays]
          exact additive.refl []
      · refine ⟨[insertOf buf i], ⟨whole, i + 1, more, moved, next.symm⟩, ?_⟩
        by_cases well : setting.Good
        · rw [good well]
          exact additive.refl _
        · rw [bad well]
          exact loses setting isGiven well _
    · rw [ftp_processData_done] at goesOn
      contradiction

/-- The same for the seconds of the buffers of the FTP gateway. -/
theorem ftp_inserted {given : Setting → Prop}
    {s : Service ServiceDataBuffer BufferProcessingRecord Insert}
    (reachable : s.Reachable (functions.under given))
    : s.PutOut ftpDue (∀ setting, given setting → setting.Good) :=
  reachable.putOut (ftp_delivers additive_sublist fun _ _ _ => List.nil_sublist)
    fun good => ftp_delivers additive_eq fun setting isGiven bad =>
      absurd (good setting isGiven) bad

/-- A queued buffer of one second is taken, inserted and completed. -/
theorem ftp_loops {buf : ServiceDataBuffer} (whole : 6312 ∣ buf.byteLen.toNat)
    (one : records buf = 1) (bpr : BufferProcessingRecord)
    (history : List (QueueEvent ServiceDataBuffer Insert))
    : Relation.ReflTransGen (Service.LoopStep (functions.under Setting.Good))
        (idle [buf] bpr history)
        (idle [] (atRecord buf 1)
          (history ++ [.taken buf] ++ [.output (insertOf buf 0)] ++ [.completed buf])) := by
  let archiver := functions.under Setting.Good
  let setting : { setting : Setting // setting.Good } := ⟨⟨true, true, true⟩, rfl, rfl, rfl⟩
  let took := history ++ [QueueEvent.taken buf]
  let inserted := took ++ [QueueEvent.output (insertOf buf 0)]
  let taking := (idle [buf] bpr history).loopTop archiver setting
  have takes : taking.takeFront archiver setting buf [] = atWork [] buf 0 took :=
    @Ftp.ServiceDataArchiver.pass_take buf setting.1 bpr [] history setting.2 whole
  have inserts_ : (atWork [] buf 0 took).loopTop archiver setting = atWork [] buf 1 inserted :=
    Ftp.ServiceDataArchiver.pass_insert setting.2 (one ▸ Nat.zero_lt_one)
  have completes : (atWork [] buf 1 inserted).loopTop archiver setting
      = idle [] (atRecord buf 1) (inserted ++ [.completed buf]) :=
    one ▸ @Ftp.ServiceDataArchiver.pass_complete buf setting.1 [] inserted
  have offers : Relation.ReflTransGen (Service.LoopStep archiver) (idle [buf] bpr history) taking :=
    .single (.loopTop setting rfl)
  have takeFront := offers.tail (.takeFront setting rfl rfl)
  rw [takes] at takeFront
  have insert_ := takeFront.tail (.loopTop setting rfl)
  rw [inserts_] at insert_
  have complete := insert_.tail (.loopTop setting rfl)
  rwa [completes] at complete

/-- A buffer of one second is offered, taken, inserted and completed. -/
theorem ftp_pass {buf : ServiceDataBuffer} (whole : 6312 ∣ buf.byteLen.toNat)
    (one : records buf = 1)
    : ∃ s : Service ServiceDataBuffer BufferProcessingRecord Insert,
        s.Reachable (functions.under Setting.Good)
        ∧ s.history.length = 4 ∧ s.dataBuf = none ∧ s.dataQueue = []
        ∧ accepted s.history = [buf] := by
  let archiver := functions.under Setting.Good
  let start : Service ServiceDataBuffer BufferProcessingRecord Insert := { bpr := ⟨0, 0, 0⟩ }
  have offers : Relation.ReflTransGen (Service.Step archiver) start
      (idle [buf] ⟨0, 0, 0⟩ [.offered buf 0 .accepted]) :=
    Service.steps_of_offer buf rfl (by simp [start])
  have loops := ftp_loops whole one ⟨0, 0, 0⟩ [.offered buf 0 .accepted]
  have run := offers.trans (Relation.ReflTransGen.mono (fun _ _ steps => .loop steps) _ _ loops)
  exact ⟨_, ⟨_, run⟩, rfl, rfl, rfl, rfl⟩

/-- A buffer of zeros. -/
theorem ftp_inserted_second
    : ∃ s : Service ServiceDataBuffer BufferProcessingRecord Insert,
        s.history.length = 4 ∧ s.dataBuf = none ∧ s.dataQueue = []
        ∧ outputs s.history = [insertOf ⟨6312, Blocks.alloc 6312 fun _ => 0⟩ 0] := by
  let buf : ServiceDataBuffer := ⟨6312, Blocks.alloc 6312 fun _ => 0⟩
  have whole : 6312 ∣ buf.byteLen.toNat := ⟨1, rfl⟩
  have one : records buf = 1 := by decide
  obtain ⟨s, reachable, length, idle, empty, accepted_⟩ := ftp_pass whole one
  have all := (ftp_inserted reachable).all (fun _ good => good) idle empty
  rw [accepted_, List.flatMap_singleton, ftpDue, if_pos whole, inserts, one] at all
  exact ⟨s, length, idle, empty, all⟩

end Ftp

end Sparcs.Recording
