import Sparcs.Ftp.Inserts

/-! When the RabbitMQ archivers of both gateways get through a buffer. -/

namespace Sparcs.Ftp

open Archiver (ArchiverFunctions BufferProcessingRecord Flags ServiceDataBuffer)

/-- Only the records that a buffer has matter. -/
theorem makesProgress_congr {α β ρ ο : Type} {archiver : ArchiverFunctions α β ρ ο} {buf : β}
    {bpr : ρ} {answers : List α} {record record' : Nat → ο} {n : Nat}
    (same : ∀ i < n, record i = record' i)
    : archiver.MakesProgress buf bpr answers record n
      ↔ archiver.MakesProgress buf bpr answers record' n := by
  rw [ArchiverFunctions.MakesProgress, ArchiverFunctions.MakesProgress,
    List.map_congr_left fun i member => same i (List.mem_range.mp member)]

/-- For both archivers and every buffer that `preProcessData` passes: if the calls are as
many as the buffer has seconds, they publish each of them once and the next call completes
the buffer, if and only if both flags are set at each of these calls.
-/
theorem processData_makesProgress_iff (flags : Flags) (bpr : BufferProcessingRecord)
    (buf : ServiceDataBuffer) (answers : List Flags)
    : (∀ sts checked,
        Archiver.ServiceDataArchiverRabbitMQ.functions.preProcessData flags bpr buf
          = (sts, checked) → 0 < sts → answers.length = 1 →
        (Archiver.ServiceDataArchiverRabbitMQ.functions.MakesProgress buf checked answers
            (fun _ => Archiver.ServiceDataArchiverRabbitMQ.readData buf.dataBuffer) 1
          ↔ ∀ flags ∈ answers, flags.Set))
      ∧ ∀ sts checked,
          ServiceDataArchiverRabbitMQ.functions.preProcessData flags bpr buf = (sts, checked) →
          0 < sts → answers.length = records buf →
          (ServiceDataArchiverRabbitMQ.functions.MakesProgress buf checked answers
              (fun i => ServiceDataArchiverRabbitMQ.publicationOf (recordAt buf i)) (records buf)
            ↔ ∀ flags ∈ answers, flags.Set) := by
  constructor
  · intro sts checked result passes length
    have counted : checked = checked.atSecond 0 ∧ checked.numRecords.toUInt32.toNat = 1 := by
      simp only [Archiver.ServiceDataArchiverRabbitMQ.functions,
        Archiver.ServiceDataArchiverRabbitMQ.preProcessData, Archiver.preProcessSecond] at result
      split_ifs at result
      · cases result
        exact absurd passes (by decide)
      · cases result
        exact ⟨rfl, rfl⟩
    have publishes (flags : Flags) (bpr : BufferProcessingRecord)
        : Archiver.ServiceDataArchiverRabbitMQ.functions.processData flags bpr buf
          = Archiver.publishNext
              (fun _ => Archiver.ServiceDataArchiverRabbitMQ.readData buf.dataBuffer) flags bpr :=
      rfl
    rw [counted.1]
    exact Archiver.makesProgress_iff publishes counted.2 length
  · intro sts checked result passes length
    have counted : checked = checked.atSecond 0
        ∧ checked.numRecords.toUInt32.toNat = records buf := by
      simp only [ServiceDataArchiverRabbitMQ.functions,
        ServiceDataArchiverRabbitMQ.preProcessData] at result
      split_ifs at result
      · cases result
        exact absurd passes (by decide)
      · cases result
        refine ⟨rfl, ?_⟩
        rw [UInt32.toUInt32_toInt32, UInt32.toNat_div]
        rfl
    have publishes (flags : Flags) (bpr : BufferProcessingRecord)
        : ServiceDataArchiverRabbitMQ.functions.processData flags bpr buf
          = Archiver.publishNext (fun bpr => ServiceDataArchiverRabbitMQ.publicationOf
              (secPtr buf bpr.nextRecord)) flags bpr :=
      rfl
    have same (i : Nat) (within : i < records buf)
        : ServiceDataArchiverRabbitMQ.publicationOf (recordAt buf i)
          = ServiceDataArchiverRabbitMQ.publicationOf
              (secPtr buf (checked.atSecond i).nextRecord) := by
      rw [BufferProcessingRecord.atSecond, secPtr_eq within]
    rw [makesProgress_congr same, counted.1]
    exact Archiver.makesProgress_iff publishes counted.2 length

/-- Buffers of one second for the two archivers. -/
def c37Second : ServiceDataBuffer := ⟨7204, Blocks.alloc 7204 fun _ => 0⟩

def ftpSecond : ServiceDataBuffer := ⟨6312, Blocks.alloc 6312 fun _ => 0⟩

def ftpTwoSeconds : ServiceDataBuffer := ⟨12624, Blocks.alloc 12624 fun _ => 0⟩

/-- A file of two seconds makes progress while both flags are set, and no longer when the
connection is lost at its second record; so does a second of the other archiver.
-/
theorem processData_makesProgress_iff_two
    : ServiceDataArchiverRabbitMQ.functions.MakesProgress ftpTwoSeconds ⟨2, 0, 0⟩
          [⟨true, true⟩, ⟨true, true⟩]
          (fun i => ServiceDataArchiverRabbitMQ.publicationOf (recordAt ftpTwoSeconds i)) 2
      ∧ ¬ServiceDataArchiverRabbitMQ.functions.MakesProgress ftpTwoSeconds ⟨2, 0, 0⟩
          [⟨true, true⟩, ⟨true, false⟩]
          (fun i => ServiceDataArchiverRabbitMQ.publicationOf (recordAt ftpTwoSeconds i)) 2
      ∧ Archiver.ServiceDataArchiverRabbitMQ.functions.MakesProgress c37Second ⟨1, 0, 0⟩
          [⟨true, true⟩]
          (fun _ => Archiver.ServiceDataArchiverRabbitMQ.readData c37Second.dataBuffer) 1
      ∧ ¬Archiver.ServiceDataArchiverRabbitMQ.functions.MakesProgress c37Second ⟨1, 0, 0⟩
          [⟨true, false⟩]
          (fun _ => Archiver.ServiceDataArchiverRabbitMQ.readData c37Second.dataBuffer) 1 := by
  have ftp (answers : List Flags) (two : answers.length = 2) :=
    (processData_makesProgress_iff ⟨true, true⟩ ⟨0, 0, 0⟩ ftpTwoSeconds answers).2 1 ⟨2, 0, 0⟩
      rfl (by decide) two
  have c37 (answers : List Flags) (one : answers.length = 1) :=
    (processData_makesProgress_iff ⟨true, true⟩ ⟨0, 0, 0⟩ c37Second answers).1 1 ⟨1, 0, 0⟩
      rfl (by decide) one
  refine ⟨(ftp _ rfl).mpr (by decide), ?_, (c37 _ rfl).mpr (by decide), ?_⟩
  · intro progress
    exact absurd ((ftp _ rfl).mp progress) (by decide)
  · intro progress
    exact absurd ((c37 _ rfl).mp progress) (by decide)

/-- Without Cassandra, a file of one second is never released: its second is published in
each of any number of calls, and the next call does not complete the file.
-/
theorem processData_republishes
    : ServiceDataArchiverRabbitMQ.preProcessData ⟨0, 0, 0⟩ ftpSecond = (1, ⟨1, 0, 0⟩)
      ∧ (¬ServiceDataArchiverRabbitMQ.functions.MakesProgress ftpSecond ⟨1, 0, 0⟩
          [⟨false, false⟩]
          (fun i => ServiceDataArchiverRabbitMQ.publicationOf (recordAt ftpSecond i)) 1)
      ∧ ∀ k, ServiceDataArchiverRabbitMQ.functions.calls ftpSecond
            (List.replicate k ⟨false, false⟩) ⟨1, 0, 0⟩
          = (⟨1, 0, 0⟩, List.replicate k
              (ServiceDataArchiverRabbitMQ.publicationOf (secPtr ftpSecond 0))) := by
  have unset : ¬(⟨false, false⟩ : Flags).Set := by decide
  have publishes (flags : Flags) (bpr : BufferProcessingRecord)
      : ServiceDataArchiverRabbitMQ.functions.processData flags bpr ftpSecond
        = Archiver.publishNext (fun bpr => ServiceDataArchiverRabbitMQ.publicationOf
            (secPtr ftpSecond bpr.nextRecord)) flags bpr :=
    rfl
  have one : (⟨1, 0, 0⟩ : BufferProcessingRecord).numRecords.toUInt32.toNat = 1 := rfl
  have stuck (k : Nat)
      : ServiceDataArchiverRabbitMQ.functions.calls ftpSecond
          (List.replicate k ⟨false, false⟩) ⟨1, 0, 0⟩
        = (⟨1, 0, 0⟩, List.replicate k
            (ServiceDataArchiverRabbitMQ.publicationOf (secPtr ftpSecond 0))) :=
    Archiver.calls_unset publishes one Nat.zero_lt_one unset k
  refine ⟨rfl, ?_, stuck⟩
  intro progress
  have complete := progress.2 ⟨false, false⟩
  rw [show [⟨false, false⟩] = List.replicate 1 (⟨false, false⟩ : Flags) from rfl, stuck 1]
    at complete
  exact absurd complete (by decide)

end Sparcs.Ftp
