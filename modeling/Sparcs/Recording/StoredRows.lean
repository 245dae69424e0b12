import Sparcs.Library.FloatConversions
import Sparcs.Archiver.Readings
import Sparcs.CassSpeed.TrimmedFront
import Sparcs.Recording.UpmuDataMessage

/-! The rows in which the archivers of both gateways store a second, and what the server reads from
them.
-/

namespace Sparcs.Recording

open Blocks (Block)
open CassSpeed (CassRow Channel Text UpmuData UpmuSample uint32Value)
open FieldFormat
open FloatConversions

/-- The columns of a row that a request can see. -/
structure StoredRow where
  device : Text
  day : Int64
  timestampMsec : Int64
  data : List UInt8

/-- The columns that the query compares. -/
def StoredRow.key (row : StoredRow) : Query.Row where
  timestampMsec := row.timestampMsec
  day := row.day

/-- `ParseFromArray` into a new message. -/
def unpack (output : List UInt8) : Option UpmuData :=
  (UpmuDataMessage.format.parse output).map UpmuDataMessage.data

/-- The row as the server reads it, if its bytes are a message. -/
def StoredRow.cassRow? (row : StoredRow) : Option CassRow :=
  (unpack row.data).map fun data => { timestampMsec := row.timestampMsec, data }

-----------------------------------------------------------------------------------------
-- The archiver for C37 buffers
-----------------------------------------------------------------------------------------

/-- `180.0/3.141592653589793238463` -/
def degrees : Float := 180.0 / 3.141592653589793238463

/-- `fmod(angle, 360.)` as a `float`. -/
def inCircle (angle : Float32) : Float32 := toSingle (fmod (toDouble angle) 360)

/-- The message of a sample. Angles are in degrees and against the first one. -/
def c37Sample (s : Archiver.Sample) : SyncOutputMessage :=
  let l1ang := toSingle (toDouble (Float32.ofBits s.l1ang) * degrees)
  let against (word : UInt32) : Float32 :=
    toSingle (toDouble (Float32.ofBits word) * degrees - toDouble l1ang)
  { lockstate := some 0
    value := fun
      | .l1mag => some s.l1mag
      | .l2mag => some s.l2mag
      | .l3mag => some s.l3mag
      | .l1ang => some (inCircle 0).toBits
      | .l2ang => some (inCircle (against s.l2ang)).toBits
      | .l3ang => some (inCircle (against s.l3ang)).toBits
      | .c1mag => some s.c1mag
      | .c2mag => some s.c2mag
      | .c3mag => some s.c3mag
      | .c1ang => some (inCircle (against s.c1ang)).toBits
      | .c2ang => some (inCircle (against s.c2ang)).toBits
      | .c3ang => some (inCircle (against s.c3ang)).toBits }

/-- `secData` -/
def c37Message (secData : Archiver.SecondData) : UpmuDataMessage where
  timestamp := some secData.epochTime.toUInt32
  sampleintervalmsec := some (toSingle (1000.0 / 120.0)).toBits
  numsamples := some (UInt32.ofNat Archiver.upmuSamplesPerSec)
  sample := secData.samples.map c37Sample

/-- What is bound to the columns of the row for a buffer. -/
def c37Stored (device : Text) (dataBuffer : Block) : StoredRow :=
  let secData := Archiver.ServiceDataArchiver.readData dataBuffer
  let row := Archiver.ServiceDataArchiver.cassandraDataArchive secData.epochTimeMsec
    secData.epochDay
  { device
    day := row.day
    timestampMsec := row.timestampMsec
    data := UpmuDataMessage.format.serialize (c37Message secData) }

-----------------------------------------------------------------------------------------
-- The archiver of the FTP gateway
-----------------------------------------------------------------------------------------

def ftpSample (s : Ftp.SyncSample) : SyncOutputMessage :=
  let angle (word : UInt32) : UInt32 := (inCircle (Float32.ofBits word)).toBits
  { lockstate := some s.lockstate
    value := fun
      | .l1mag => some s.l1mag
      | .l2mag => some s.l2mag
      | .l3mag => some s.l3mag
      | .l1ang => some (angle s.l1angle)
      | .l2ang => some (angle s.l2angle)
      | .l3ang => some (angle s.l3angle)
      | .c1mag => some s.c1mag
      | .c2mag => some s.c2mag
      | .c3mag => some s.c3mag
      | .c1ang => some (angle s.c1angle)
      | .c2ang => some (angle s.c2angle)
      | .c3ang => some (angle s.c3angle) }

/-- `secData`; the time becomes a number of 32 bits. -/
def ftpMessage (secPtr : Ftp.SyncOutput) : UpmuDataMessage where
  timestamp := some (Ftp.mkgmtime secPtr.tm).toUInt64.toUInt32
  sampleintervalmsec := some secPtr.sampleRate
  numsamples := some (UInt32.ofNat Archiver.upmuSamplesPerSec)
  sample := secPtr.samples.map ftpSample

/-- What is bound to the columns of the row for a second. -/
def ftpStored (device : Text) (insert : Ftp.ServiceDataArchiver.Insert) : StoredRow where
  device
  day := insert.day
  timestampMsec := insert.timestampMsec
  data := UpmuDataMessage.format.serialize (ftpMessage insert.secData)

-----------------------------------------------------------------------------------------
-- The length of a message
-----------------------------------------------------------------------------------------

section Lengths

/-- A tag and a number of 32 bits. -/
theorem length_fixed32_le (number : Nat) (word : UInt32) (few : number < 2 ^ 28)
    : (Field.encode ⟨number, .fixed32 word⟩).length ≤ 20 := by
  have tag : (Varint.encode (8 * number + 5)).length ≤ 10 := length_encode_le_ten (by omega)
  simp only [Field.encode, Field.tag, Value.kind, Value.encode, List.length_append,
    Blocks.littleEndian_length]
  omega

theorem length_optional_fixed32_le (number : Nat) (few : number < 2 ^ 28) (word : Option UInt32)
    : ((optionalField number (word.map .fixed32)).flatMap Field.encode).length ≤ 20 := by
  cases word with
  | none => exact Nat.zero_le _
  | some word =>
      have field := length_fixed32_le number word few
      simpa [optionalField] using field

theorem SyncOutputMessage.length_serialize_le (m : SyncOutputMessage)
    : (SyncOutputMessage.format.serialize m).length ≤ 260 := by
  have locked := @length_optional_le UInt32 1 (by decide) m.lockstate uint32Value
    fun value => ⟨value.toUInt64, rfl⟩
  have value (channel : Channel)
      : ((optionalField (fieldNumber channel) ((m.value channel).map .fixed32)).flatMap
          Field.encode).length ≤ 20 :=
    length_optional_fixed32_le _ (by cases channel <;> decide) _
  rw [Format.serialize]
  change ((fields m).flatMap Field.encode).length ≤ 260
  rw [fields, List.flatMap_append, List.length_append, List.flatMap_assoc]
  have values : (written.flatMap fun channel =>
      (optionalField (fieldNumber channel) ((m.value channel).map .fixed32)).flatMap
        Field.encode).length ≤ (written.map fun _ => 20).sum := by
    rw [List.length_flatMap]
    exact List.sum_le_sum fun channel _ => value channel
  have sum : (written.map fun _ => 20).sum = 240 := rfl
  omega

theorem UpmuDataMessage.length_serialize_le {m : UpmuDataMessage} (few : m.sample.length ≤ 120)
    : (UpmuDataMessage.format.serialize m).length ≤ 33660 := by
  have stamped := @length_optional_le UInt32 1 (by decide) m.timestamp uint32Value
    fun value => ⟨value.toUInt64, rfl⟩
  have spaced := length_optional_fixed32_le 2 (by decide) m.sampleintervalmsec
  have counted := @length_optional_le UInt32 3 (by decide) m.numsamples uint32Value
    fun value => ⟨value.toUInt64, rfl⟩
  have room : (m.sample.map fun _ => 20 + 260).sum = 280 * m.sample.length := by
    simp [Nat.mul_comm]
  have samples := @length_flatMap_encode_le _ m.sample 4 (by decide) _ (fun _ => 260)
    (fun sample _ => sample.length_serialize_le) (by omega)
  rw [room] at samples
  rw [Format.serialize]
  change ((fields m).flatMap Field.encode).length ≤ 33660
  rw [fields, List.flatMap_append, List.flatMap_append, List.flatMap_append, List.length_append,
    List.length_append, List.length_append, List.flatMap_map]
  change _ + (m.sample.flatMap fun sample => (sampleField sample).encode).length ≤ _
  simp only [sampleField]
  omega

end Lengths

-----------------------------------------------------------------------------------------
-- What the server reads
-----------------------------------------------------------------------------------------

theorem unpack_serialize {m : UpmuDataMessage} (few : m.sample.length ≤ 120)
    : unpack (UpmuDataMessage.format.serialize m) = some m.data := by
  have short := UpmuDataMessage.length_serialize_le few
  rw [unpack, UpmuDataMessage.format_lawful.parse_serialize (by omega), Option.map_some]

/-- What a sample of a C37 buffer is recorded as. -/
def c37Values (s : Archiver.Sample) : UpmuSample :=
  let l1ang := toSingle (toDouble (Float32.ofBits s.l1ang) * degrees)
  let against (word : UInt32) : Float32 :=
    toSingle (toDouble (Float32.ofBits word) * degrees - toDouble l1ang)
  fun
    | .l1mag => Float32.ofBits s.l1mag
    | .l2mag => Float32.ofBits s.l2mag
    | .l3mag => Float32.ofBits s.l3mag
    | .l1ang => inCircle 0
    | .l2ang => inCircle (against s.l2ang)
    | .l3ang => inCircle (against s.l3ang)
    | .c1mag => Float32.ofBits s.c1mag
    | .c2mag => Float32.ofBits s.c2mag
    | .c3mag => Float32.ofBits s.c3mag
    | .c1ang => inCircle (against s.c1ang)
    | .c2ang => inCircle (against s.c2ang)
    | .c3ang => inCircle (against s.c3ang)

/-- What a sample of a file is recorded as. -/
def ftpValues (s : Ftp.SyncSample) : UpmuSample :=
  let angle (word : UInt32) : Float32 := inCircle (Float32.ofBits word)
  fun
    | .l1mag => Float32.ofBits s.l1mag
    | .l2mag => Float32.ofBits s.l2mag
    | .l3mag => Float32.ofBits s.l3mag
    | .l1ang => angle s.l1angle
    | .l2ang => angle s.l2angle
    | .l3ang => angle s.l3angle
    | .c1mag => Float32.ofBits s.c1mag
    | .c2mag => Float32.ofBits s.c2mag
    | .c3mag => Float32.ofBits s.c3mag
    | .c1ang => angle s.c1angle
    | .c2ang => angle s.c2angle
    | .c3ang => angle s.c3angle

theorem sample_c37Sample (s : Archiver.Sample) : (c37Sample s).sample = c37Values s := by
  funext channel
  cases channel <;>
    simp [SyncOutputMessage.sample, c37Sample, c37Values]

theorem sample_ftpSample (s : Ftp.SyncSample) : (ftpSample s).sample = ftpValues s := by
  funext channel
  cases channel <;>
    simp [SyncOutputMessage.sample, ftpSample, ftpValues]

theorem length_readData (dataBuffer : Block)
    : (Archiver.ServiceDataArchiver.readData dataBuffer).samples.length = 120 := by
  rw [Archiver.readData_words, List.length_map, List.length_range]
  rfl

theorem cassRow?_c37Stored (device : Text) (dataBuffer : Block)
    : (c37Stored device dataBuffer).cassRow?
      = some {
          timestampMsec := (c37Stored device dataBuffer).timestampMsec
          data := {
            numsamples := 120
            sample :=
              (Archiver.ServiceDataArchiver.readData dataBuffer).samples.map c37Values } } := by
  have length := length_readData dataBuffer
  rw [StoredRow.cassRow?]
  change (unpack (UpmuDataMessage.format.serialize
    (c37Message (Archiver.ServiceDataArchiver.readData dataBuffer)))).map _ = _
  rw [unpack_serialize (by rw [c37Message, List.length_map]; omega), Option.map_some,
    UpmuDataMessage.data, c37Message, List.map_map]
  simp only [Function.comp_def, sample_c37Sample]
  rfl

theorem cassRow?_ftpStored (device : Text) {secPtr : Ftp.SyncOutput}
    (full : secPtr.samples.length = 120)
    : (ftpStored device (Ftp.ServiceDataArchiver.archiveSecond secPtr)).cassRow?
      = some {
          timestampMsec := (Ftp.ServiceDataArchiver.archiveSecond secPtr).timestampMsec
          data := { numsamples := 120, sample := secPtr.samples.map ftpValues } } := by
  rw [StoredRow.cassRow?]
  change (unpack (UpmuDataMessage.format.serialize (ftpMessage secPtr))).map _ = _
  rw [unpack_serialize (by rw [ftpMessage, List.length_map]; omega), Option.map_some,
    UpmuDataMessage.data, ftpMessage, List.map_map]
  simp only [Function.comp_def, sample_ftpSample]
  rfl

/-- From the rows of both archivers, whatever is in their buffers, the server reads the second, and
every sample with the recorded values.
-/
theorem stored_read (device : Text)
    : (∀ dataBuffer, ∃ row,
        (c37Stored device dataBuffer).cassRow? = some row
        ∧ row.Archived
        ∧ row.timestampMsec.toInt
          = 1000 * (Archiver.ServiceDataArchiver.readData dataBuffer).epochTime.toNat
        ∧ row.data.sample
          = (Archiver.ServiceDataArchiver.readData dataBuffer).samples.map c37Values)
      ∧ ∀ dataBuffer pointer, ∃ row,
        (ftpStored device (Ftp.ServiceDataArchiver.archiveSecond
            (Ftp.syncOutputAt dataBuffer pointer))).cassRow?
          = some row
        ∧ row.Archived
        ∧ row.timestampMsec.toInt
          = 1000 * (Ftp.mkgmtime (Ftp.syncOutputAt dataBuffer pointer).tm).toInt
        ∧ row.data.sample = (Ftp.syncOutputAt dataBuffer pointer).samples.map ftpValues := by
  constructor
  · intro dataBuffer
    have second := (Query.c37Row_isSecond dataBuffer).timestampMsec
    have small : (Archiver.ServiceDataArchiver.readData dataBuffer).epochTime.toNat
        < 4294967296 := by
      rw [Archiver.readData_words, UInt32.toNat_toUInt64]
      exact UInt32.toNat_lt _
    refine ⟨_, cassRow?_c37Stored device dataBuffer, ⟨⟨_, ?_, second⟩, rfl, ?_⟩, second, rfl⟩
    · omega
    · rw [List.length_map, length_readData]
  · intro dataBuffer pointer
    have full : (Ftp.syncOutputAt dataBuffer pointer).samples.length = 120 := by
      rw [Ftp.syncOutputAt, List.length_map, List.length_range]
      rfl
    have second := (Query.ftpRow_isSecond (Ftp.syncOutputAt dataBuffer pointer)).timestampMsec
    have small := (Query.mkgmtime_bounds (Ftp.syncOutputAt dataBuffer pointer).tm).2
    refine ⟨_, cassRow?_ftpStored device full, ⟨⟨_, ?_, second⟩, rfl, ?_⟩, second, rfl⟩
    · omega
    · rw [List.length_map, full]

end Sparcs.Recording
