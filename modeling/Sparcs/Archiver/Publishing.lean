import Sparcs.Archiver.OfferQueue

/-! The calls by which a RabbitMQ archiver publishes the seconds of a buffer. -/

namespace Sparcs.Archiver

/-- The flags at a call of `processData`. -/
structure Flags where
  cassArchivingEnabled : Bool
  cassConnected : Bool
  deriving DecidableEq, Repr

/-- What both RabbitMQ archivers do in `processData`: the next second is published, whether
or not the server takes it, and then the flags are looked at.
-/
def publishNext {ο : Type} (publication : BufferProcessingRecord → ο) (flags : Flags)
    (bpr : BufferProcessingRecord) : ProcessResult BufferProcessingRecord ο :=
  if bpr.done then
    { complete := true, bpr, output := [] }
  else if !flags.cassArchivingEnabled || !flags.cassConnected then
    { complete := false, bpr, output := [publication bpr] }
  else
    { complete := false
      bpr := { bpr with nextRecord := bpr.nextRecord + 1 }
      output := [publication bpr] }

namespace ServiceDataArchiverRabbitMQ

/-- The only second of the buffer is read in each call. -/
def processData (flags : Flags) (bpr : BufferProcessingRecord) (buf : ServiceDataBuffer)
    : ProcessResult BufferProcessingRecord SecondData :=
  publishNext (fun _ => readData buf.dataBuffer) flags bpr

def functions : ArchiverFunctions Flags ServiceDataBuffer BufferProcessingRecord SecondData where
  preProcessData _ bpr buf := preProcessData bpr buf.byteLen.toNat
  processData

end ServiceDataArchiverRabbitMQ

section Calls

variable {α β ρ ο : Type}

/-- Calls of `processData` for one buffer, with all that they put out. -/
def ArchiverFunctions.calls (archiver : ArchiverFunctions α β ρ ο) (buf : β)
    : List α → ρ → ρ × List ο
  | [], bpr => (bpr, [])
  | answer :: answers, bpr =>
      let result := archiver.processData answer bpr buf
      let later := archiver.calls buf answers result.bpr
      (later.1, result.output ++ later.2)

/-- The calls put out each of the `n` records once and in order, and the next call, whatever
the answers then are, completes the buffer.
-/
def ArchiverFunctions.MakesProgress (archiver : ArchiverFunctions α β ρ ο) (buf : β) (bpr : ρ)
    (answers : List α) (record : Nat → ο) (n : Nat) : Prop :=
  (archiver.calls buf answers bpr).2 = (List.range n).map record
  ∧ ∀ answer, (archiver.processData answer (archiver.calls buf answers bpr).1 buf).complete = true

end Calls

/-- Both flags are set. -/
def Flags.Set (flags : Flags) : Prop :=
  flags.cassArchivingEnabled ∧ flags.cassConnected

instance (flags : Flags) : Decidable flags.Set :=
  inferInstanceAs (Decidable (_ ∧ _))

section Publishing

variable {β ο : Type} {archiver : ArchiverFunctions Flags β BufferProcessingRecord ο} {buf : β}
  {publication : BufferProcessingRecord → ο}
  (publishes
    : ∀ flags bpr, archiver.processData flags bpr buf = publishNext publication flags bpr)

/-- A record of `n` seconds of which `i` are done. -/
def BufferProcessingRecord.atSecond (bpr : BufferProcessingRecord) (i : Nat)
    : BufferProcessingRecord :=
  { bpr with nextRecord := UInt32.ofNat i }

theorem BufferProcessingRecord.atSecond_done {bpr : BufferProcessingRecord} {i n : Nat}
    (count : bpr.numRecords.toUInt32.toNat = n) (within : i ≤ n)
    : (bpr.atSecond i).done ↔ n ≤ i := by
  have small : i < 4294967296 :=
    lt_of_le_of_lt within (count ▸ bpr.numRecords.toUInt32.toNat_lt)
  rw [BufferProcessingRecord.done, BufferProcessingRecord.atSecond, UInt32.le_iff_toNat_le, count,
    UInt32.toNat_ofNat_of_lt' small]

include publishes

/-- A call moves on if both flags are set. -/
theorem processData_at {bpr : BufferProcessingRecord} {i n : Nat}
    (count : bpr.numRecords.toUInt32.toNat = n) (within : i < n) (flags : Flags)
    : archiver.processData flags (bpr.atSecond i) buf
      = { complete := false
          bpr := bpr.atSecond (if flags.Set then i + 1 else i)
          output := [publication (bpr.atSecond i)] } := by
  have notDone : ¬(bpr.atSecond i).done := by
    rw [BufferProcessingRecord.atSecond_done count within.le]
    exact Nat.not_le.mpr within
  rw [publishes, publishNext, if_neg notDone]
  by_cases set : flags.Set
  · rw [if_pos set, set.1, set.2]
    simp [BufferProcessingRecord.atSecond]
  · rw [if_neg set, if_pos (by simpa [Flags.Set, imp_iff_not_or] using set)]

/-- The record after some calls, by induction over the calls. -/
theorem calls_bpr {bpr : BufferProcessingRecord} {n : Nat}
    (count : bpr.numRecords.toUInt32.toNat = n) (answers : List Flags) {i : Nat}
    (within : i + answers.length ≤ n)
    : (archiver.calls buf answers (bpr.atSecond i)).1
      = bpr.atSecond (i + answers.countP (fun flags => decide flags.Set)) := by
  induction answers generalizing i with
  | nil => rfl
  | cons flags answers ih =>
      rw [List.length_cons] at within
      rw [ArchiverFunctions.calls, processData_at publishes count (by omega), List.countP_cons]
      by_cases set : flags.Set
      · rw [if_pos set, ih (by omega), if_pos (decide_eq_true set), Nat.add_right_comm,
          Nat.add_assoc]
      · rw [if_neg set, ih (by omega), if_neg (by simpa using set), Nat.add_zero]

/-- What calls with both flags set put out, by induction over the calls. -/
theorem calls_output {bpr : BufferProcessingRecord} {n : Nat}
    (count : bpr.numRecords.toUInt32.toNat = n) {answers : List Flags}
    (set : ∀ flags ∈ answers, flags.Set) {i : Nat} (within : i + answers.length ≤ n)
    : (archiver.calls buf answers (bpr.atSecond i)).2
      = (List.range' i answers.length).map fun j => publication (bpr.atSecond j) := by
  induction answers generalizing i with
  | nil => rfl
  | cons flags answers ih =>
      rw [List.length_cons] at within
      rw [ArchiverFunctions.calls, processData_at publishes count (by omega),
        if_pos (set flags List.mem_cons_self),
        ih (fun flags member => set flags (.tail _ member)) (by omega)]
      rfl

/-- With a flag that stays unset, the same second is put out for ever. -/
theorem calls_unset {bpr : BufferProcessingRecord} {i n : Nat}
    (count : bpr.numRecords.toUInt32.toNat = n) (within : i < n) {flags : Flags}
    (unset : ¬flags.Set) (k : Nat)
    : archiver.calls buf (List.replicate k flags) (bpr.atSecond i)
      = (bpr.atSecond i, List.replicate k (publication (bpr.atSecond i))) := by
  induction k with
  | zero => rfl
  | succ k ih =>
      rw [List.replicate_succ, ArchiverFunctions.calls, processData_at publishes count within,
        if_neg unset, ih]
      rfl

/-- The calls make progress if and only if both flags are set at each of them. -/
theorem makesProgress_iff {bpr : BufferProcessingRecord} {n : Nat}
    (count : bpr.numRecords.toUInt32.toNat = n) {answers : List Flags}
    (length : answers.length = n)
    : archiver.MakesProgress buf (bpr.atSecond 0) answers (fun i => publication (bpr.atSecond i)) n
      ↔ ∀ flags ∈ answers, flags.Set := by
  have within : 0 + answers.length ≤ n := by omega
  have final : (archiver.calls buf answers (bpr.atSecond 0)).1 = _ :=
    calls_bpr publishes count answers within
  have few : answers.countP (fun flags => decide flags.Set) ≤ n :=
    length ▸ List.countP_le_length
  rw [Nat.zero_add] at final
  constructor
  · intro progress
    have complete := progress.2 ⟨true, true⟩
    rw [final, publishes, publishNext] at complete
    split_ifs at complete with done
    rw [BufferProcessingRecord.atSecond_done count few, ← length] at done
    have all := List.countP_eq_length.mp (le_antisymm List.countP_le_length done)
    exact fun flags member => of_decide_eq_true (all flags member)
  · intro set
    have all : answers.countP (fun flags => decide flags.Set) = n := by
      rw [← length]
      exact List.countP_eq_length.mpr fun flags member => decide_eq_true (set flags member)
    refine ⟨?_, ?_⟩
    · rw [calls_output publishes count set within, length, List.range_eq_range']
    · intro answer
      have done := (BufferProcessingRecord.atSecond_done count le_rfl).mpr le_rfl
      rw [final, all, publishes, publishNext, if_pos done]

end Publishing

end Sparcs.Archiver
