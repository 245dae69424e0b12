import Sparcs.Archiver.Readings

/-! From the saved frames of a second to what both archivers take them for. -/

namespace Sparcs.Archiver

open Blocks (Block)
open C37 (C37Buffer IsStd frameAt)

section Timestamps

variable (malloc : Nat → UInt8) {frames : List C37Buffer} {sec : UInt32}

/-- The time is taken from the fourth record, at the place of its fraction. -/
theorem fullBlock_epochTime (enough : 4 ≤ frames.length)
    (std : ∀ frame ∈ frames, IsStd frame) (soc : ∀ frame ∈ frames, C37.time frame = sec)
    : (ServiceDataArchiver.readData (fullBlock malloc frames)).epochTime.toNat
      = sec.toNat := by
  have saved : frames[3]? = some frames[3] := List.getElem?_eq_getElem (by omega)
  have member : frames[3] ∈ frames := List.getElem_mem (by omega)
  have fourth := fullBlock_time malloc (std _ member) saved (by decide)
  rw [readData_words, UInt32.toNat_toUInt64]
  exact congrArg UInt32.toNat (fourth.trans (soc _ member))

end Timestamps

/-- Both archivers take the second of the frames for the time of the block, and the
Cassandra archiver binds its milliseconds and its day without overflow.
-/
theorem processData_timestamps (malloc : Nat → UInt8) {frames : List C37Buffer}
    {sec : UInt32} (enough : 4 ≤ frames.length) (std : ∀ frame ∈ frames, IsStd frame)
    (soc : ∀ frame ∈ frames, C37.time frame = sec) (bpr : BufferProcessingRecord)
    : (∀ setting, ∃ secData,
        (ServiceDataArchiver.processData setting
            (ServiceDataArchiver.preProcessData bpr (fullBlock malloc frames).size).2
            (fullBlock malloc frames)).secData
          = some secData
        ∧ secData.epochTime.toNat = sec.toNat)
      ∧ (∃ secData,
        ServiceDataArchiverRabbitMQ.processDataInput
            (ServiceDataArchiverRabbitMQ.preProcessData bpr (fullBlock malloc frames).size).2
            (fullBlock malloc frames)
          = some secData
        ∧ secData.epochTime.toNat = sec.toNat)
      ∧ ∃ row,
        (ServiceDataArchiver.processData ⟨true, true, true⟩
            (ServiceDataArchiver.preProcessData bpr (fullBlock malloc frames).size).2
            (fullBlock malloc frames)).row
          = some row
        ∧ row.timestampMsec.toInt = 1000 * sec.toNat
        ∧ row.day.toInt = sec.toNat / 86400 := by
  have epochTime := fullBlock_epochTime malloc enough std soc
  obtain ⟨msec, day⟩ :=
    ServiceDataArchiver.cassandraDataArchive_readData (fullBlock malloc frames)
  rw [epochTime] at msec day
  refine ⟨?_, ?_, ?_⟩
  · intro setting
    exact ⟨_, ServiceDataArchiver.processData_accepted bpr (fullBlock_size malloc) setting,
      epochTime⟩
  · exact ⟨_, ServiceDataArchiverRabbitMQ.processDataInput_accepted bpr (fullBlock_size malloc),
      epochTime⟩
  · exact ⟨_, ServiceDataArchiver.processData_archives bpr (fullBlock_size malloc), msec, day⟩

/-- Four frames of one second, the least number that reaches the time. -/
theorem processData_timestamps_four
    : let frames := [frameAt 4000000000 0, frameAt 4000000000 1, frameAt 4000000000 2,
        frameAt 4000000000 3]
      let block := fullBlock (fun _ => 7) frames
      ∃ row,
        (ServiceDataArchiver.processData ⟨true, true, true⟩
            (ServiceDataArchiver.preProcessData ⟨0, 0, 0⟩ block.size).2 block).row
          = some row
        ∧ row.timestampMsec.toInt = 4000000000000
        ∧ row.day.toInt = 46296 := by
  intro frames block
  have std : ∀ frame ∈ frames, IsStd frame := by
    simp [frames, IsStd, frameAt]
  have soc : ∀ frame ∈ frames, C37.time frame = 4000000000 := by
    simp [frames, C37.time_frameAt]
  exact (processData_timestamps (fun _ => 7) (by decide) std soc ⟨0, 0, 0⟩).2.2

/-- The values of every sample are the words of its frame from byte 16 on, and no word is
read from outside the block.
-/
def SamplesExact (secData : SecondData) (frames : List C37Buffer) (byteLen : Nat) : Prop :=
  (∀ (k : Nat) frame, frames[k]? = some frame
    → ∃ sample : Sample,
      secData.samples[k]? = some sample
      ∧ sample.values = (List.range 12).map fun i => frameWord frame (16 + 4 * i))
  ∧ ∀ pointer ∈ secData.wordsRead, 4 * pointer + 4 ≤ byteLen

section Samples

variable (malloc : Nat → UInt8) {frames : List C37Buffer} {frame : C37Buffer} {k : Nat}

theorem readData_sample (dataBuffer : Block) (fits : k < 120)
    : (ServiceDataArchiver.readData dataBuffer).samples[k]?
      = some (sampleAt dataBuffer (5 + 15 * k)) := by
  have inRange : k < upmuSamplesPerSec := fits
  rw [readData_words, List.getElem?_map, List.getElem?_range inRange, Option.map_some]

/-- Of the twelve values of a sample, all but the last one are those of its frame. -/
theorem fullBlock_sample (std : IsStd frame) (saved : frames[k]? = some frame)
    (fits : k < 120)
    : ∃ sample : Sample,
        (ServiceDataArchiver.readData (fullBlock malloc frames)).samples[k]? = some sample
        ∧ sample.values.take 11
          = (List.range 11).map fun i => frameWord frame (16 + 4 * i) := by
  refine ⟨_, readData_sample _ fits, ?_⟩
  rw [sampleAt_values, ← List.map_take, List.take_range]
  apply List.map_congr_left
  intro i member
  exact fullBlock_phasor malloc std saved fits (List.mem_range.mp member)

/-- The last value of a sample is the header of the record behind it. -/
theorem fullBlock_c3ang (std : IsStd frame) (saved : frames[k + 1]? = some frame)
    (fits : k + 1 < 120)
    : (sampleAt (fullBlock malloc frames) (5 + 15 * k)).c3ang
      = Blocks.bigEndian32 60 0 (frame.byte (C37.socIndx + 3)) 0 := by
  have header := fullBlock_header malloc std saved fits
  have pointer : 5 + 15 * k + 11 = 1 + 15 * (k + 1) := by omega
  rw [sampleAt, pointer]
  exact header

/-- The last value of the last sample lies behind the block. -/
theorem readData_outside (dataBuffer : Block)
    : 1801 ∈ (ServiceDataArchiver.readData dataBuffer).wordsRead := by
  rw [readData_words]
  apply List.mem_cons_of_mem
  rw [List.mem_flatMap]
  refine ⟨119, ?_, ?_⟩
  · exact List.mem_range.mpr (by decide)
  · rw [List.mem_range'_1]
    decide

/-- Whatever frames are saved, the archivers read past the block. -/
theorem not_samplesExact
    : ¬SamplesExact (ServiceDataArchiver.readData (fullBlock malloc frames)) frames
      (fullBlock malloc frames).size := by
  intro exact_
  have inside := exact_.2 1801 (readData_outside _)
  rw [fullBlock_size] at inside
  omega

/-- A full block of any frames makes either archiver read values that are not the frames'
or a word that is not the block's.
-/
theorem processData_samples_wrong (frames : List C37Buffer) (bpr : BufferProcessingRecord)
    : (∀ setting, ∃ secData,
        (ServiceDataArchiver.processData setting
            (ServiceDataArchiver.preProcessData bpr (fullBlock malloc frames).size).2
            (fullBlock malloc frames)).secData
          = some secData
        ∧ ¬SamplesExact secData frames (fullBlock malloc frames).size)
      ∧ ∃ secData,
        ServiceDataArchiverRabbitMQ.processDataInput
            (ServiceDataArchiverRabbitMQ.preProcessData bpr (fullBlock malloc frames).size).2
            (fullBlock malloc frames)
          = some secData
        ∧ ¬SamplesExact secData frames (fullBlock malloc frames).size := by
  constructor
  · intro setting
    exact ⟨_, ServiceDataArchiver.processData_accepted bpr (fullBlock_size malloc) setting,
      not_samplesExact malloc⟩
  · exact ⟨_, ServiceDataArchiverRabbitMQ.processDataInput_accepted bpr (fullBlock_size malloc),
      not_samplesExact malloc⟩

end Samples

/-- On 120 frames of second 5 with no phasors, the last value of the first sample is not
zero, and the last sample is read to beyond the block.
-/
theorem processData_samples_empty
    : let frames := List.replicate 120 (frameAt 5 0)
      let block := fullBlock (fun _ => 0) frames
      let secData := ServiceDataArchiver.readData block
      ((∃ sample : Sample,
        secData.samples[0]? = some sample
        ∧ sample.c3ang = 0x3c000500)
        ∧ frameWord (frameAt 5 0) 60 = 0)
      ∧ (∃ pointer ∈ secData.wordsRead, block.size < 4 * pointer + 4)
      ∧ ¬SamplesExact secData frames block.size := by
  intro frames block secData
  have std : IsStd (frameAt 5 0) := rfl
  have saved : frames[0 + 1]? = some (frameAt 5 0) := by
    simp [frames]
  refine ⟨⟨⟨_, readData_sample _ (by decide), ?_⟩, ?_⟩, ⟨1801, readData_outside _, ?_⟩,
    not_samplesExact _⟩
  · rw [fullBlock_c3ang (fun _ => 0) std saved (by decide)]
    rfl
  · rfl
  · rw [fullBlock_size]
    decide

end Sparcs.Archiver
