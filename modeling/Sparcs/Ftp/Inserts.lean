import Sparcs.Ftp.Archivers

/-! The Cassandra archiver of the FTP gateway inserts each second of each buffer once. -/

namespace Sparcs.Ftp

open Archiver (BufferProcessingRecord QueueEvent Service ServiceDataBuffer)

def records (buf : ServiceDataBuffer) : Nat := buf.byteLen.toNat / 6312

/-- The `sync_output` of a record, which depends on the bytes of this record only. -/
def recordAt (buf : ServiceDataBuffer) (i : Nat) : SyncOutput :=
  syncOutputAt (buf.dataBuffer.slice (6312 * i) 6312) 0

/-- A `sync_output` lies within its record. -/
theorem syncOutputAt_slice (dataBuffer : Blocks.Block) (start : Nat)
    : syncOutputAt (dataBuffer.slice start 6312) 0 = syncOutputAt dataBuffer start := by
  have load (offset : Nat) (within : offset + 4 ≤ 6312)
      : (dataBuffer.slice start 6312).load32 offset = dataBuffer.load32 (start + offset) :=
    Blocks.load32_slice dataBuffer start within
  have sample (indx : Nat) (few : indx < 120)
      : syncSampleAt (dataBuffer.slice start 6312) 0 indx
        = syncSampleAt dataBuffer start indx := by
    simp (disch := omega) only [syncSampleAt, load, ← Nat.add_assoc, Nat.zero_add]
  have samples
      : (List.range 120).map (syncSampleAt (dataBuffer.slice start 6312) 0)
        = (List.range 120).map (syncSampleAt dataBuffer start) :=
    List.map_congr_left fun indx member => sample indx (List.mem_range.mp member)
  simp (disch := omega) only [syncOutputAt, Archiver.upmuSamplesPerSec, load, samples,
    Nat.zero_add, Nat.add_zero]

theorem records_lt (buf : ServiceDataBuffer) : 6312 * records buf < 2 ^ 32 :=
  lt_of_le_of_lt (Nat.mul_div_le _ _) buf.byteLen.toNat_lt

/-- The unsigned product of the code does not overflow. -/
theorem secPtr_eq {i : Nat} (within : i < records buf)
    : secPtr buf (UInt32.ofNat i) = recordAt buf i := by
  have bounded := records_lt buf
  have small : i < 4294967296 := by omega
  have pointer : (UInt32.ofNat i * upmu1secBufLen).toNat = 6312 * i := by
    rw [upmu1secBufLen, UInt32.toNat_mul, UInt32.toNat_ofNat_of_lt' small]
    simp
    omega
  rw [secPtr, pointer, recordAt, syncOutputAt_slice]

theorem dvd_iff (buf : ServiceDataBuffer)
    : buf.byteLen % upmu1secBufLen = 0 ↔ 6312 ∣ buf.byteLen.toNat := by
  rw [Nat.dvd_iff_mod_eq_zero, ← UInt32.toNat_inj, UInt32.toNat_mod]
  rfl

namespace ServiceDataArchiver

/-- Archiving is possible and memory is available. -/
def Setting.Good (setting : Setting) : Prop :=
  setting.cassArchivingEnabled ∧ setting.cassConnected ∧ setting.pbBufferAvailable

/-- The insert for a record. -/
def insertOf (buf : ServiceDataBuffer) (i : Nat) : Insert :=
  archiveSecond (recordAt buf i)

def inserts (buf : ServiceDataBuffer) : List Insert :=
  (List.range (records buf)).map (insertOf buf)

variable {buf : ServiceDataBuffer} {setting : Setting}

/-- The record of a buffer at work, of which `i` seconds are done. -/
def atRecord (buf : ServiceDataBuffer) (i : Nat) : BufferProcessingRecord where
  numRecords := (buf.byteLen / upmu1secBufLen).toInt32
  nextRecord := UInt32.ofNat i
  numInsertsInAccum := 0

/-- The comparison of the code, up to the count itself. -/
theorem atRecord_done {i : Nat} (within : i ≤ records buf)
    : (atRecord buf i).done ↔ records buf ≤ i := by
  have bounded := records_lt buf
  have small : i < 4294967296 := by omega
  rw [BufferProcessingRecord.done, atRecord, UInt32.toUInt32_toInt32, UInt32.le_iff_toNat_le,
    UInt32.toNat_ofNat_of_lt' small, UInt32.toNat_div]
  rfl

section Pass

variable {bpr : BufferProcessingRecord} {rest : List ServiceDataBuffer}
  {history : List (QueueEvent ServiceDataBuffer Insert)}

/-- Nothing is at work. -/
def idle (queue : List ServiceDataBuffer) (bpr : BufferProcessingRecord)
    (history : List (QueueEvent ServiceDataBuffer Insert))
    : Service ServiceDataBuffer BufferProcessingRecord Insert :=
  { dataQueue := queue, bpr, history }

/-- `buf` is at work and `i` seconds are done. -/
def atWork (queue : List ServiceDataBuffer) (buf : ServiceDataBuffer) (i : Nat)
    (history : List (QueueEvent ServiceDataBuffer Insert))
    : Service ServiceDataBuffer BufferProcessingRecord Insert :=
  { dataQueue := queue
    dataBuf := some buf
    processingBuffer := true
    bpr := atRecord buf i
    history }

theorem pass_take (good : setting.Good) (whole : 6312 ∣ buf.byteLen.toNat)
    : (idle (buf :: rest) bpr history).pass functions setting
      = atWork rest buf 0 (history ++ [.taken buf]) := by
  have counted : functions.preProcessData setting bpr buf = (1, atRecord buf 0) := by
    change preProcessData setting bpr buf = _
    rw [preProcessData, if_neg (not_not.mpr ((dvd_iff buf).mpr whole)), good.1, good.2.1]
    rfl
  simp [idle, Service.pass, Service.takeFront, counted, atWork]

theorem pass_insert (good : setting.Good) {i : Nat} (within : i < records buf)
    : (atWork rest buf i history).pass functions setting
      = atWork rest buf (i + 1) (history ++ [.output (insertOf buf i)]) := by
  have notDone : ¬(atRecord buf i).done := by
    rw [atRecord_done within.le]
    exact Nat.not_le.mpr within
  have archived : functions.processData setting (atRecord buf i) buf
      = { complete := false, bpr := atRecord buf (i + 1), output := [insertOf buf i] } := by
    change processData setting (atRecord buf i) buf = _
    rw [processData, if_neg notDone, good.1, good.2.1, good.2.2]
    simp [atRecord, insertOf, secPtr_eq within]
  simp [atWork, Service.pass, Service.processStep, archived]

theorem pass_complete
    : (atWork rest buf (records buf) history).pass functions setting
      = idle rest (atRecord buf (records buf)) (history ++ [.completed buf]) := by
  have done : (atRecord buf (records buf)).done := (atRecord_done le_rfl).mpr le_rfl
  have complete : functions.processData setting (atRecord buf (records buf)) buf
      = { complete := true, bpr := atRecord buf (records buf), output := [] } :=
    if_pos done
  simp [atWork, Service.pass, Service.processStep, complete, idle]

end Pass

section Passes

variable {settings : List Setting} (good : ∀ setting ∈ settings, setting.Good)

include good

end Passes

end ServiceDataArchiver

end Sparcs.Ftp
