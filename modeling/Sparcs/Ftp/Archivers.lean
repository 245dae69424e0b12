import Sparcs.Archiver.Publishing
import Sparcs.Ftp.Gmtime

/-! The Cassandra archiver and the RabbitMQ archiver of the FTP gateway. Their buffers are
files of any number of seconds, of which each call of `processData` handles one.
-/

namespace Sparcs.Ftp

open Archiver (ArchiverFunctions BufferProcessingRecord ProcessResult ServiceDataBuffer)
open Blocks (Block)

/-- `UPMU_1SEC_BUF_LEN` -/
def upmu1secBufLen : UInt32 := 6312

-----------------------------------------------------------------------------------------
-- `sync_output`
-----------------------------------------------------------------------------------------

/-- A sample of a second; angles and magnitudes as the bits that are then taken for floats. -/
structure SyncSample where
  lockstate : UInt32
  l1angle : UInt32
  l1mag : UInt32
  l2angle : UInt32
  l2mag : UInt32
  l3angle : UInt32
  l3mag : UInt32
  c1angle : UInt32
  c1mag : UInt32
  c2angle : UInt32
  c2mag : UInt32
  c3angle : UInt32
  c3mag : UInt32
  deriving DecidableEq, Repr

/-- The `sync_output` at a pointer into the buffer. -/
structure SyncOutput where
  sampleRate : UInt32
  /-- `sectionTime` -/
  year : UInt32
  month : UInt32
  day : UInt32
  hour : UInt32
  min : UInt32
  sec : UInt32
  samples : List SyncSample
  deriving DecidableEq, Repr

def syncSampleAt (dataBuffer : Block) (pointer indx : Nat) : SyncSample where
  lockstate := dataBuffer.load32 (pointer + 28 + 4 * indx)
  l1angle := dataBuffer.load32 (pointer + 508 + 8 * indx)
  l1mag := dataBuffer.load32 (pointer + 512 + 8 * indx)
  l2angle := dataBuffer.load32 (pointer + 1468 + 8 * indx)
  l2mag := dataBuffer.load32 (pointer + 1472 + 8 * indx)
  l3angle := dataBuffer.load32 (pointer + 2428 + 8 * indx)
  l3mag := dataBuffer.load32 (pointer + 2432 + 8 * indx)
  c1angle := dataBuffer.load32 (pointer + 3388 + 8 * indx)
  c1mag := dataBuffer.load32 (pointer + 3392 + 8 * indx)
  c2angle := dataBuffer.load32 (pointer + 4348 + 8 * indx)
  c2mag := dataBuffer.load32 (pointer + 4352 + 8 * indx)
  c3angle := dataBuffer.load32 (pointer + 5308 + 8 * indx)
  c3mag := dataBuffer.load32 (pointer + 5312 + 8 * indx)

def syncOutputAt (dataBuffer : Block) (pointer : Nat) : SyncOutput where
  sampleRate := dataBuffer.load32 pointer
  year := dataBuffer.load32 (pointer + 4)
  month := dataBuffer.load32 (pointer + 8)
  day := dataBuffer.load32 (pointer + 12)
  hour := dataBuffer.load32 (pointer + 16)
  min := dataBuffer.load32 (pointer + 20)
  sec := dataBuffer.load32 (pointer + 24)
  samples := (List.range Archiver.upmuSamplesPerSec).map (syncSampleAt dataBuffer pointer)

/-- `secPtr`, in the unsigned arithmetic of the code. -/
def secPtr (buf : ServiceDataBuffer) (nextRecord : UInt32) : SyncOutput :=
  syncOutputAt buf.dataBuffer (nextRecord * upmu1secBufLen).toNat

/-- The calendar time of a second as a `struct tm`. -/
def SyncOutput.tm (secPtr : SyncOutput) : Tm where
  year := (secPtr.year - 1900).toInt32
  mon := (secPtr.month - 1).toInt32
  mday := secPtr.day.toInt32
  hour := secPtr.hour.toInt32
  min := secPtr.min.toInt32
  sec := secPtr.sec.toInt32

/-- Both archivers count the records of a buffer that has an integral number of them. -/
def countRecords (bpr : BufferProcessingRecord) (byteLen : UInt32)
    : Int32 × BufferProcessingRecord :=
  (1, { bpr with
    numRecords := (byteLen / upmu1secBufLen).toInt32, nextRecord := 0, numInsertsInAccum := 0 })

-----------------------------------------------------------------------------------------
-- serviceDataArchiver
-----------------------------------------------------------------------------------------

namespace ServiceDataArchiver

/-- The settings of the archiver and whether the memory for the message is available. A
failure of the insert itself is counted only.
-/
structure Setting where
  cassArchivingEnabled : Bool
  cassConnected : Bool
  pbBufferAvailable : Bool

def preProcessData (setting : Setting) (bpr : BufferProcessingRecord) (buf : ServiceDataBuffer)
    : Int32 × BufferProcessingRecord :=
  if buf.byteLen % upmu1secBufLen ≠ 0 then
    (-1, { bpr with numRecords := -1 })
  else if !setting.cassArchivingEnabled || !setting.cassConnected then
    (-1, { bpr with numRecords := -1 })
  else
    countRecords bpr buf.byteLen

/-- The message for a second and the values bound to `TIMESTAMP_MSEC` and `DAY`. -/
structure Insert where
  timestampMsec : Int64
  day : Int64
  timestamp : Int64
  secData : SyncOutput
  deriving DecidableEq, Repr

/-- `cassandraDataArchive` takes both numbers as unsigned ones and binds them as signed
ones.
-/
def cassandraDataArchive (timestampMsec day : UInt64) (timestamp : Int64)
    (secData : SyncOutput) : Insert :=
  { timestampMsec := timestampMsec.toInt64, day := day.toInt64, timestamp, secData }

/-- The insert for the second at `secPtr`. -/
def archiveSecond (secPtr : SyncOutput) : Insert :=
  let epochTime := mkgmtime secPtr.tm
  let epochTimeMsec := epochTime.toUInt64 * 1000
  let epochDay := (epochTime / 86400).toUInt64
  cassandraDataArchive epochTimeMsec epochDay epochTime secPtr

def processData (setting : Setting) (bpr : BufferProcessingRecord) (buf : ServiceDataBuffer)
    : ProcessResult BufferProcessingRecord Insert :=
  if bpr.done then
    { complete := true, bpr, output := [] }
  else if !setting.cassArchivingEnabled || !setting.cassConnected then
    { complete := false, bpr, output := [] }
  else if !setting.pbBufferAvailable then
    { complete := false, bpr := { bpr with nextRecord := bpr.nextRecord + 1 }, output := [] }
  else
    { complete := false
      bpr := { bpr with nextRecord := bpr.nextRecord + 1 }
      output := [archiveSecond (secPtr buf bpr.nextRecord)] }

def functions
    : ArchiverFunctions Setting ServiceDataBuffer BufferProcessingRecord Insert where
  preProcessData
  processData

end ServiceDataArchiver

-----------------------------------------------------------------------------------------
-- serviceDataArchiverRabbitMQ
-----------------------------------------------------------------------------------------

namespace ServiceDataArchiverRabbitMQ

/-- What the messages for a second are made of. -/
structure Publication where
  epochTimeMsec : UInt64
  secData : SyncOutput
  deriving DecidableEq, Repr

def publicationOf (secPtr : SyncOutput) : Publication :=
  { epochTimeMsec := (mkgmtime secPtr.tm).toUInt64 * 1000, secData := secPtr }

def preProcessData (bpr : BufferProcessingRecord) (buf : ServiceDataBuffer)
    : Int32 × BufferProcessingRecord :=
  if buf.byteLen % upmu1secBufLen ≠ 0 then
    (-1, { bpr with numRecords := -1 })
  else
    countRecords bpr buf.byteLen

def processData (flags : Archiver.Flags) (bpr : BufferProcessingRecord)
    (buf : ServiceDataBuffer) : ProcessResult BufferProcessingRecord Publication :=
  Archiver.publishNext (fun bpr => publicationOf (secPtr buf bpr.nextRecord)) flags bpr

def functions
    : ArchiverFunctions Archiver.Flags ServiceDataBuffer BufferProcessingRecord Publication where
  preProcessData _ := preProcessData
  processData

end ServiceDataArchiverRabbitMQ

end Sparcs.Ftp
