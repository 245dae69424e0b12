import Sparcs.Archiver.Archivers
import Sparcs.C37.Packing
import Sparcs.C37.Seconds

/-! Which words the archivers read from the block of a second, and what stands there. -/

namespace Sparcs.Archiver

open Blocks (Block bigEndian32)
open C37 (C37Buffer C37Reformat EventBuffer IsStd savedEvent secblkLenBytes)

/-- The value at a word index. -/
def word (dataBuffer : Block) (pointer : Nat) : UInt32 :=
  Blocks.bswap32 (dataBuffer.load32 (4 * pointer))

/-- Twelve words in a row. -/
def sampleAt (dataBuffer : Block) (pointer : Nat) : Sample where
  l1mag := word dataBuffer pointer
  l1ang := word dataBuffer (pointer + 1)
  l2mag := word dataBuffer (pointer + 2)
  l2ang := word dataBuffer (pointer + 3)
  l3mag := word dataBuffer (pointer + 4)
  l3ang := word dataBuffer (pointer + 5)
  c1mag := word dataBuffer (pointer + 6)
  c1ang := word dataBuffer (pointer + 7)
  c2mag := word dataBuffer (pointer + 8)
  c2ang := word dataBuffer (pointer + 9)
  c3mag := word dataBuffer (pointer + 10)
  c3ang := word dataBuffer (pointer + 11)

theorem sampleAt_values (dataBuffer : Block) (pointer : Nat)
    : (sampleAt dataBuffer pointer).values
      = (List.range 12).map fun i => word dataBuffer (pointer + i) :=
  rfl

theorem readSample_eq (dataBuffer : Block) (p34 : Reading)
    : readSample dataBuffer p34
      = (sampleAt dataBuffer p34.pointer,
        { pointer := p34.pointer + 12
          wordsRead := p34.wordsRead ++ List.range' p34.pointer 12 }) := by
  simp [readSample, Reading.next, sampleAt, word, List.range']

/-- The loop reads twelve words of every fifteen, by induction over its turns. -/
theorem readSamples_eq (dataBuffer : Block) (turns indx : Nat) (p34 : Reading)
    : readSamples (fun _ pointer => pointer + 3) dataBuffer turns indx p34
      = ((List.range turns).map fun k => sampleAt dataBuffer (p34.pointer + 15 * k),
        { pointer := p34.pointer + 15 * turns
          wordsRead :=
            p34.wordsRead
              ++ (List.range turns).flatMap fun k =>
                List.range' (p34.pointer + 15 * k) 12 }) := by
  induction turns generalizing indx p34 with
  | zero => simp [readSamples]
  | succ turns ih =>
      have shift (k : Nat) : p34.pointer + 15 + 15 * k = p34.pointer + 15 * (k + 1) := by
        omega
      rw [readSamples, readSample_eq]
      dsimp only
      rw [ih, List.range_succ_eq_map]
      simp [List.flatMap_map, Function.comp_def, shift, List.append_assoc]

/-- Turns that end alike read alike, by induction over them. -/
theorem readSamples_congr {skip skip' : (indx pointer : Nat) → Nat} (dataBuffer : Block)
    (turns indx : Nat) (p34 : Reading)
    (alike : ∀ i pointer, i < indx + turns → skip i pointer = skip' i pointer)
    : readSamples skip dataBuffer turns indx p34
      = readSamples skip' dataBuffer turns indx p34 := by
  induction turns generalizing indx p34 with
  | zero => rfl
  | succ turns ih =>
      have now (pointer : Nat) : skip indx pointer = skip' indx pointer :=
        alike indx pointer (by omega)
      rw [readSamples, readSamples]
      dsimp only
      rw [now, ih (indx + 1) _ fun i pointer before => alike i pointer (by omega)]

/-- The loop of the RabbitMQ archiver never reaches the sample that it would end early. -/
theorem readData_eq (dataBuffer : Block)
    : ServiceDataArchiverRabbitMQ.readData dataBuffer
      = ServiceDataArchiver.readData dataBuffer := by
  have alike : ∀ i pointer, i < 0 + upmuSamplesPerSec
      → (if i = 120 then pointer else pointer + 3) = pointer + 3 := by
    intro i pointer before
    rw [upmuSamplesPerSec] at before
    exact if_neg (by omega)
  have same (p34 : Reading) := readSamples_congr dataBuffer upmuSamplesPerSec 0 p34 alike
  rw [ServiceDataArchiverRabbitMQ.readData, ServiceDataArchiver.readData, readSecond,
    readSecond]
  dsimp only
  rw [same]

section ReadData

variable (dataBuffer : Block)

/-- The words of a second: the time is word 48, and the samples begin at word 5. -/
theorem readData_words
    : ServiceDataArchiver.readData dataBuffer
      = { epochTime := (word dataBuffer 48).toUInt64
          epochTimeMsec := (word dataBuffer 48).toUInt64 * 1000
          epochDay := (word dataBuffer 48).toUInt64 / 86400
          samples :=
            (List.range upmuSamplesPerSec).map fun k => sampleAt dataBuffer (5 + 15 * k)
          wordsRead :=
            48 :: (List.range upmuSamplesPerSec).flatMap fun k =>
              List.range' (5 + 15 * k) 12 } := by
  rw [ServiceDataArchiver.readData, readSecond]
  dsimp only
  rw [readSamples_eq]
  rfl

end ReadData

section Accepted

variable (bpr : BufferProcessingRecord) {dataBuffer : Block} (full : dataBuffer.size = 7204)

include full

/-- A buffer of the full length is accepted, and its record is not done. -/
theorem ServiceDataArchiver.preProcessData_accepts
    : (preProcessData bpr dataBuffer.size).1 = 1
      ∧ ¬(preProcessData bpr dataBuffer.size).2.done := by
  have same : ¬dataBuffer.size ≠ secblkLenBytes * 120 + 4 := not_not.mpr full
  rw [preProcessData, preProcessSecond, if_neg same]
  exact ⟨rfl, by decide⟩

theorem ServiceDataArchiver.processData_accepted (setting : Setting)
    : (processData setting (preProcessData bpr dataBuffer.size).2 dataBuffer).secData
      = some (readData dataBuffer) := by
  rw [processData, if_neg (preProcessData_accepts bpr full).2]
  dsimp only
  split_ifs <;> rfl

theorem ServiceDataArchiver.processData_archives
    : (processData ⟨true, true, true⟩ (preProcessData bpr dataBuffer.size).2 dataBuffer).row
      = some
        (cassandraDataArchive (readData dataBuffer).epochTimeMsec
          (readData dataBuffer).epochDay) := by
  rw [processData, if_neg (preProcessData_accepts bpr full).2]
  rfl

theorem ServiceDataArchiverRabbitMQ.processDataInput_accepted
    : processDataInput (preProcessData bpr dataBuffer.size).2 dataBuffer
      = some (ServiceDataArchiver.readData dataBuffer) := by
  rw [processDataInput, ← readData_eq]
  exact if_neg (ServiceDataArchiver.preProcessData_accepts bpr full).2

end Accepted

/-- The big-endian word at a byte offset of a frame. -/
def frameWord (frame : C37Buffer) (offset : Nat) : UInt32 :=
  bigEndian32 (frame.byte offset) (frame.byte (offset + 1)) (frame.byte (offset + 2))
    (frame.byte (offset + 3))

/-- The block of frames that are saved one after the other, when a full second has 120. -/
def fullBlock (malloc : Nat → UInt8) (frames : List C37Buffer) : Block :=
  let r : C37Reformat := { C37.initialReformat (fun _ => 0) with sampleCnt := 120 }
  (frames.foldl C37Reformat.saveC37event r).processEventBuffer.2.dataBuf malloc

section FullBlock

variable (malloc : Nat → UInt8) {frames : List C37Buffer} {frame : C37Buffer} {k : Nat}

theorem fullBlock_eq
    : fullBlock malloc frames = EventBuffer.dataBuf malloc ⟨frames.map savedEvent, 120⟩ := by
  rw [fullBlock]
  dsimp only
  rw [C37Reformat.processEventBuffer_saved]
  rfl

theorem fullBlock_size : (fullBlock malloc frames).size = 7204 := by
  rw [fullBlock_eq, EventBuffer.dataBuf_eq]
  rfl

theorem fullBlock_byte (saved : frames[k]? = some frame) (fits : k < 120) {j : Nat}
    (within : j < secblkLenBytes)
    : some ((fullBlock malloc frames).byte (4 + (secblkLenBytes * k + j)))
      = (C37.record (savedEvent frame))[j]? := by
  have event : (frames.map savedEvent)[k]? = some (savedEvent frame) := by
    rw [List.getElem?_map, saved, Option.map_some]
  rw [fullBlock_eq]
  exact EventBuffer.dataBuf_byte malloc ⟨frames.map savedEvent, 120⟩ event within fits

/-- The first word of a record is its header. -/
theorem fullBlock_header (std : IsStd frame) (saved : frames[k]? = some frame)
    (fits : k < 120)
    : word (fullBlock malloc frames) (1 + 15 * k)
      = bigEndian32 60 0 (frame.byte (C37.socIndx + 3)) 0 := by
  have byte (j : Nat) {value : UInt8} (before : j < 4)
      (entry : [60, 0, frame.byte (C37.socIndx + 3), 0][j]? = some value)
      : (fullBlock malloc frames).byte (4 + (secblkLenBytes * k + j)) = value := by
    have within : j < secblkLenBytes := by
      rw [secblkLenBytes]
      omega
    apply Option.some.inj
    rw [fullBlock_byte malloc saved fits within, C37.record_header std before, entry]
  have offset : 4 * (1 + 15 * k) = 4 + (secblkLenBytes * k + 0) := by
    rw [secblkLenBytes]
    omega
  rw [word, Blocks.bswap32_load32, offset, byte 0 (by decide) rfl]
  simp only [Nat.add_assoc, Nat.zero_add]
  rw [byte 1 (by decide) rfl, byte 2 (by decide) rfl, byte 3 (by decide) rfl]

/-- The third word of a record is the second of its frame. -/
theorem fullBlock_time (std : IsStd frame) (saved : frames[k]? = some frame) (fits : k < 120)
    : word (fullBlock malloc frames) (3 + 15 * k) = C37.time frame := by
  have byte {j : Nat} (from_ : 8 ≤ j) (before : j < 12)
      : (fullBlock malloc frames).byte (4 + (secblkLenBytes * k + j)) = frame.byte (j - 2) := by
    have within : j < secblkLenBytes := by
      rw [secblkLenBytes]
      omega
    apply Option.some.inj
    rw [fullBlock_byte malloc saved fits within, C37.record_time std (by omega) before]
  have offset : 4 * (3 + 15 * k) = 4 + (secblkLenBytes * k + 8) := by
    rw [secblkLenBytes]
    omega
  rw [word, Blocks.bswap32_load32, offset, byte (by omega) (by omega)]
  simp only [Nat.add_assoc]
  rw [byte (by omega) (by omega), byte (by omega) (by omega), byte (by omega) (by omega)]
  rfl

/-- Twelve words of a record are those of the frame from byte 12 on, so that the word `i`
behind the one at byte 16 is in the record for eleven values only.
-/
theorem fullBlock_phasor (std : IsStd frame) (saved : frames[k]? = some frame)
    (fits : k < 120) {i : Nat} (within : i < 11)
    : word (fullBlock malloc frames) (5 + 15 * k + i) = frameWord frame (16 + 4 * i) := by
  have byte {j : Nat} (from_ : 12 ≤ j) (before : j < secblkLenBytes)
      : (fullBlock malloc frames).byte (4 + (secblkLenBytes * k + j)) = frame.byte j := by
    apply Option.some.inj
    rw [fullBlock_byte malloc saved fits before, C37.record_phasors std from_ before]
  have inRecord : 16 + 4 * i + 3 < secblkLenBytes := by
    rw [secblkLenBytes]
    omega
  have offset : 4 * (5 + 15 * k + i) = 4 + (secblkLenBytes * k + (16 + 4 * i)) := by
    rw [secblkLenBytes]
    omega
  rw [word, Blocks.bswap32_load32, offset, byte (by omega) (by omega)]
  simp only [Nat.add_assoc] at inRecord ⊢
  rw [byte (by omega) (by omega), byte (by omega) (by omega), byte (by omega) (by omega)]
  rfl

end FullBlock

end Sparcs.Archiver
