import Sparcs.C37.Reformat
import Sparcs.Library.SignedArithmetic

/-! The Cassandra archiver and the RabbitMQ archiver of the C37 gateway: the check of an
offered buffer and what is read from it.
-/

namespace Sparcs.Archiver

open Blocks (Block)

/-- `UPMU_SAMPLES_PER_SEC` -/
def upmuSamplesPerSec : Nat := 120

/-- `BUFFER_PROCESSING_RECORD`, without the time spent on inserts. -/
structure BufferProcessingRecord where
  numRecords : Int32
  nextRecord : UInt32
  numInsertsInAccum : Int32

-----------------------------------------------------------------------------------------
-- Parts that both archivers share
-----------------------------------------------------------------------------------------

/-- `preProcessData` for one full length, with its result. -/
def preProcessSecond (fullLen : Nat) (bpr : BufferProcessingRecord) (byteLen : Nat)
    : Int32 × BufferProcessingRecord :=
  if byteLen ≠ fullLen then
    (-1, { bpr with numRecords := -1 })
  else
    (1, { bpr with numRecords := 1, nextRecord := 0, numInsertsInAccum := 0 })

/-- A word pointer into the buffer and the words that were read through it. -/
structure Reading where
  pointer : Nat
  wordsRead : List Nat

/-- `__bswap_32 (*p++)` -/
def Reading.next (dataBuffer : Block) (p : Reading) : UInt32 × Reading :=
  (Blocks.bswap32 (dataBuffer.load32 (4 * p.pointer)),
    { pointer := p.pointer + 1, wordsRead := p.wordsRead ++ [p.pointer] })

/-- The values of a sample, as the bits that are then taken for floats. -/
structure Sample where
  l1mag : UInt32
  l1ang : UInt32
  l2mag : UInt32
  l2ang : UInt32
  l3mag : UInt32
  l3ang : UInt32
  c1mag : UInt32
  c1ang : UInt32
  c2mag : UInt32
  c2ang : UInt32
  c3mag : UInt32
  c3ang : UInt32

/-- The values in the order in which they are read. -/
def Sample.values (s : Sample) : List UInt32 :=
  [s.l1mag, s.l1ang, s.l2mag, s.l2ang, s.l3mag, s.l3ang,
    s.c1mag, s.c1ang, s.c2mag, s.c2ang, s.c3mag, s.c3ang]

def readSample (dataBuffer : Block) (p34 : Reading) : Sample × Reading :=
  let (l1mag, p34) := p34.next dataBuffer
  let (l1ang, p34) := p34.next dataBuffer
  let (l2mag, p34) := p34.next dataBuffer
  let (l2ang, p34) := p34.next dataBuffer
  let (l3mag, p34) := p34.next dataBuffer
  let (l3ang, p34) := p34.next dataBuffer
  let (c1mag, p34) := p34.next dataBuffer
  let (c1ang, p34) := p34.next dataBuffer
  let (c2mag, p34) := p34.next dataBuffer
  let (c2ang, p34) := p34.next dataBuffer
  let (c3mag, p34) := p34.next dataBuffer
  let (c3ang, p34) := p34.next dataBuffer
  ({ l1mag, l1ang, l2mag, l2ang, l3mag, l3ang, c1mag, c1ang, c2mag, c2ang, c3mag, c3ang },
    p34)

/-- Turns of the loop over the samples from index `indx` on, with how each one ends. -/
def readSamples (skip : (indx pointer : Nat) → Nat) (dataBuffer : Block)
    : (turns indx : Nat) → Reading → List Sample × Reading
  | 0, _, p34 => ([], p34)
  | turns + 1, indx, p34 =>
      let (sample, p34) := readSample dataBuffer p34
      let p34 := { p34 with pointer := skip indx p34.pointer }
      let (samples, p34) := readSamples skip dataBuffer turns (indx + 1) p34
      (sample :: samples, p34)

/-- What is read from the buffer of a second. -/
structure SecondData where
  epochTime : UInt64
  epochTimeMsec : UInt64
  epochDay : UInt64
  samples : List Sample
  wordsRead : List Nat

/-- `processData` as far as it reads the buffer. -/
def readSecond (skip : (indx pointer : Nat) → Nat) (dataBuffer : Block) : SecondData :=
  let p32 : Reading := { pointer := 8 + 40, wordsRead := [] }
  let (workpls, p32) := p32.next dataBuffer
  -- The fractional seconds are passed over.
  let p32 := { p32 with pointer := p32.pointer + 1 }
  let epochTime := workpls.toUInt64
  let p34 := { p32 with pointer := p32.pointer - 15 * 3 }
  let read := readSamples skip dataBuffer upmuSamplesPerSec 0 p34
  { epochTime
    epochTimeMsec := epochTime * 1000
    epochDay := epochTime / 86400
    samples := read.1
    wordsRead := read.2.wordsRead }

/-- `bpr->nextRecord >= bpr->numRecords`, where the signed number becomes an unsigned one. -/
def BufferProcessingRecord.done (bpr : BufferProcessingRecord) : Prop :=
  bpr.numRecords.toUInt32 ≤ bpr.nextRecord

instance (bpr : BufferProcessingRecord) : Decidable bpr.done :=
  inferInstanceAs (Decidable (bpr.numRecords.toUInt32 ≤ bpr.nextRecord))

-----------------------------------------------------------------------------------------
-- serviceDataArchiver
-----------------------------------------------------------------------------------------

namespace ServiceDataArchiver

def preProcessData : BufferProcessingRecord → (byteLen : Nat) → Int32 × BufferProcessingRecord :=
  preProcessSecond (C37.secblkLenBytes * 120 + 4)

/-- The words behind the phasors are passed over. -/
def readData (dataBuffer : Block) : SecondData :=
  readSecond (fun _ pointer => pointer + 3) dataBuffer

/-- The values that `cassandraDataArchive` binds to `TIMESTAMP_MSEC` and `DAY`. -/
structure Row where
  timestampMsec : Int64
  day : Int64

/-- `cassandraDataArchive` takes both as unsigned numbers and binds them as signed ones. -/
def cassandraDataArchive (timestampMsec day : UInt64) : Row :=
  { timestampMsec := timestampMsec.toInt64, day := day.toInt64 }

/-- Milliseconds and days of any 32-bit second are bound without overflow. -/
theorem cassandraDataArchive_readData (dataBuffer : Block)
    : (cassandraDataArchive (readData dataBuffer).epochTimeMsec
          (readData dataBuffer).epochDay).timestampMsec.toInt
        = 1000 * (readData dataBuffer).epochTime.toNat
      ∧ (cassandraDataArchive (readData dataBuffer).epochTimeMsec
          (readData dataBuffer).epochDay).day.toInt
        = (readData dataBuffer).epochTime.toNat / 86400 := by
  let epochTime := (readData dataBuffer).epochTime
  have small : epochTime.toNat < 4294967296 := by
    change UInt64.toNat (UInt32.toUInt64 _) < _
    rw [UInt32.toNat_toUInt64]
    exact UInt32.toNat_lt _
  have msec : (epochTime * 1000).toNat = 1000 * epochTime.toNat := by
    rw [UInt64.toNat_mul]
    simp
    omega
  have day : (epochTime / 86400).toNat = epochTime.toNat / 86400 := UInt64.toNat_div _ _
  constructor
  · change (epochTime * 1000).toInt64.toInt = 1000 * (epochTime.toNat : Int)
    rw [SignedArithmetic.toInt_toInt64 (by omega), msec, Nat.cast_mul, Nat.cast_ofNat]
  · change (epochTime / 86400).toInt64.toInt = (epochTime.toNat : Int) / 86400
    rw [SignedArithmetic.toInt_toInt64 (by omega), day]
    rfl

/-- The settings of the archiver and whether the memory for the message is available. -/
structure Setting where
  cassArchivingEnabled : Bool
  cassConnected : Bool
  pbBufferAvailable : Bool

/-- The result, the record, what was read and what was archived by a call. -/
structure Processed where
  complete : Bool
  bpr : BufferProcessingRecord
  secData : Option SecondData
  row : Option Row

def processData (setting : Setting) (bpr : BufferProcessingRecord) (dataBuffer : Block)
    : Processed :=
  if bpr.done then
    { complete := true, bpr, secData := none, row := none }
  else
    let secData := readData dataBuffer
    let next := { bpr with nextRecord := bpr.nextRecord + 1 }
    if !setting.cassArchivingEnabled || !setting.cassConnected then
      { complete := false, bpr := next, secData, row := none }
    else if !setting.pbBufferAvailable then
      { complete := true, bpr := next, secData, row := none }
    else
      { complete := false
        bpr := next
        secData
        row := cassandraDataArchive secData.epochTimeMsec secData.epochDay }

end ServiceDataArchiver

-----------------------------------------------------------------------------------------
-- serviceDataArchiverRabbitMQ
-----------------------------------------------------------------------------------------

namespace ServiceDataArchiverRabbitMQ

def preProcessData : BufferProcessingRecord → (byteLen : Nat) → Int32 × BufferProcessingRecord :=
  preProcessSecond (C37.secblkLenBytes * 120 + 4)

/-- The words behind the phasors are passed over, unless the sample is one that the loop
does not reach.
-/
def readData (dataBuffer : Block) : SecondData :=
  readSecond (fun indx pointer => if indx = 120 then pointer else pointer + 3) dataBuffer

/-- What `processData` works on, if the record is not done. -/
def processDataInput (bpr : BufferProcessingRecord) (dataBuffer : Block)
    : Option SecondData :=
  if bpr.done then none else some (readData dataBuffer)

end ServiceDataArchiverRabbitMQ

end Sparcs.Archiver
