import Sparcs.Recording.Archiving
import Sparcs.Recording.ServedRows

/-! From the data files that a device leaves to what a request finds: the seconds in the buffers of
the FTP gateway, their rows and the archive that serves them.
-/

namespace Sparcs.Recording

open Archiver (BufferProcessingRecord Service ServiceDataBuffer accepted additive_eq outputs)
open CassSpeed (Archive Recording Text secondRow)
open Ftp (SyncOutput SyncSample mkgmtime records recordAt)
open Ftp.ServiceDataArchiver (Insert Setting archiveSecond functions)
open Spans

/-- The seconds in the buffers that hold whole seconds, in order. -/
def wholeSeconds (bufs : List ServiceDataBuffer) : List SyncOutput :=
  bufs.flatMap fun buf =>
    if 6312 ∣ buf.byteLen.toNat then (List.range (records buf)).map (recordAt buf) else []

/-- All is well, and the archiver has worked off all buffers. -/
structure ArchivesFiles (s : Service ServiceDataBuffer BufferProcessingRecord Insert) : Prop where
  reachable : s.Reachable (functions.under Setting.Good)
  idle : s.dataBuf = none
  empty : s.dataQueue = []

/-- The calendar times of the seconds are consecutive. -/
def ConsecutiveTimes (first : Nat) (seconds : List SyncOutput) : Prop :=
  ∀ i second, seconds[i]? = some second → (mkgmtime second.tm).toInt = (first + i : Nat)

/-- The samples of seconds of which the first has the number `first`. -/
def samplesOf (first : Nat) (seconds : List SyncOutput) : Recording := fun _ n =>
  ((seconds[n / 120 - first]?.bind fun second => second.samples[n % 120]?).map ftpValues).getD
    fun _ => 0

section Seconds

variable {device : Text} {first : Nat} {seconds : List SyncOutput}
  {s : Service ServiceDataBuffer BufferProcessingRecord Insert}

theorem flatMap_ftpDue (bufs : List ServiceDataBuffer)
    : bufs.flatMap ftpDue = (wholeSeconds bufs).map archiveSecond := by
  rw [wholeSeconds, List.map_flatMap]
  refine List.flatMap_congr fun buf _ => ?_
  rw [ftpDue]
  split_ifs
  · rw [Ftp.ServiceDataArchiver.inserts, List.map_map]
    rfl
  · rfl

theorem ArchivesFiles.outputs_eq (archives : ArchivesFiles s)
    : outputs s.history = (wholeSeconds (accepted s.history)).map archiveSecond := by
  have whole := @ftp_delivers _ additive_eq Setting.Good
    fun setting isGood bad => absurd isGood bad
  rw [archives.reachable.delivered_all whole archives.idle archives.empty, flatMap_ftpDue]

theorem samplesOf_sample {i k : Nat} {second : SyncOutput} {sample : SyncSample}
    (isSecond : seconds[i]? = some second) (isSample : second.samples[k]? = some sample)
    (inSecond : k < 120)
    : samplesOf first seconds device (120 * (first + i) + k) = ftpValues sample := by
  have quotient : (120 * (first + i) + k) / 120 - first = i := by omega
  have rest : (120 * (first + i) + k) % 120 = k := by omega
  rw [samplesOf, quotient, rest, isSecond, Option.bind_some, isSample, Option.map_some,
    Option.getD_some]

theorem ftpStored_holds (consecutive : ConsecutiveTimes first seconds)
    (full : ∀ second ∈ seconds, second.samples.length = 120) {i : Nat} {second : SyncOutput}
    (isSecond : seconds[i]? = some second)
    : (ftpStored device (archiveSecond second)).Holds (samplesOf first seconds) device
        (first + i) := by
  have time := consecutive i second isSecond
  have length := full second (List.mem_of_getElem? isSecond)
  have key : (ftpStored device (archiveSecond second)).key = CassSpeed.secondKey (first + i) := by
    have stored := Query.ftpRow_isSecond second
    have bounds := (Query.mkgmtime_bounds second.tm).2
    rw [time] at stored bounds
    exact isSecond_unique stored (CassSpeed.secondKey_isSecond (by omega))
  have timestampMsec : (archiveSecond second).timestampMsec
      = Int64.ofInt (1000 * (first + i : Nat)) :=
    congrArg Query.Row.timestampMsec key
  have samples : second.samples.map ftpValues
      = (List.range 120).map fun k => samplesOf first seconds device (120 * (first + i) + k) := by
    refine List.ext_getElem (by simp [length]) fun k inSamples inRange => ?_
    rw [List.length_map] at inSamples
    rw [List.getElem_map, List.getElem_map, List.getElem_range,
      samplesOf_sample isSecond (List.getElem?_eq_getElem inSamples) (length ▸ inSamples)]
  refine ⟨rfl, key, ?_⟩
  rw [cassRow?_ftpStored device length, timestampMsec, samples]
  rfl

/-- Every record has a full second. -/
theorem wholeSeconds_full {bufs : List ServiceDataBuffer} {second : SyncOutput}
    (member : second ∈ wholeSeconds bufs)
    : second.samples.length = 120 := by
  obtain ⟨buf, -, inBuf⟩ := List.mem_flatMap.mp member
  split_ifs at inBuf
  · obtain ⟨i, -, rfl⟩ := List.mem_map.mp inBuf
    change ((List.range Archiver.upmuSamplesPerSec).map _).length = 120
    rw [List.length_map, List.length_range]
    rfl
  · exact absurd inBuf List.not_mem_nil

/-- A request that is served the rows of the seconds finds all their samples. -/
theorem seconds_recorded (consecutive : ConsecutiveTimes first seconds)
    (full : ∀ second ∈ seconds, second.samples.length = 120) {archive : Archive}
    (serves
      : Serves archive ((seconds.map archiveSecond).map (ftpStored device)) first
          (first + seconds.length) device)
    : ∃ recording,
        archive.Records recording first (first + seconds.length) [device]
        ∧ ∀ i second, seconds[i]? = some second →
          ∀ k sample, second.samples[k]? = some sample →
            recording device (120 * (first + i) + k) = ftpValues sample := by
  refine ⟨samplesOf first seconds, ?_, fun i second isSecond k sample isSample => ?_⟩
  · have inOrder : (span first (first + seconds.length)).map
        (fun e => seconds.getD (e - first) ⟨0, 0, 0, 0, 0, 0, 0, []⟩) = seconds :=
      map_getD_span seconds _
    rw [← inOrder, List.map_map, List.map_map, inOrder] at serves
    refine serves_records (fun e member => ?_) serves
    obtain ⟨from_, below⟩ := mem_span.mp member
    have isSecond : seconds[e - first]? = some seconds[e - first] :=
      List.getElem?_eq_getElem (by omega)
    have holds := @ftpStored_holds device _ _ consecutive full _ _ isSecond
    rw [Nat.add_sub_cancel' from_] at holds
    rw [Function.comp_apply, Function.comp_apply, List.getD_eq_getElem?_getD, isSecond,
      Option.getD_some]
    exact holds
  · have inSecond := (List.getElem?_eq_some_iff.mp isSample).1
    rw [full second (List.mem_of_getElem? isSecond)] at inSecond
    exact samplesOf_sample isSecond isSample inSecond

/-- Whatever the order of the steps of the archiver, a request finds all samples of the files, with
their angles in the circle.
-/
theorem files_recorded (archives : ArchivesFiles s)
    (consecutive : ConsecutiveTimes first (wholeSeconds (accepted s.history))) {archive : Archive}
    (serves
      : Serves archive ((outputs s.history).map (ftpStored device)) first
          (first + (wholeSeconds (accepted s.history)).length) device)
    : ∃ recording,
        archive.Records recording first
          (first + (wholeSeconds (accepted s.history)).length) [device]
        ∧ ∀ i second, (wholeSeconds (accepted s.history))[i]? = some second →
          ∀ k sample, second.samples[k]? = some sample →
            recording device (120 * (first + i) + k) = ftpValues sample := by
  rw [archives.outputs_eq] at serves
  exact seconds_recorded consecutive (fun second => wholeSeconds_full) serves

end Seconds

/-- A file of one second without samples, the first of January 2nd, 1970. -/
def secondFile : ServiceDataBuffer where
  byteLen := 6312
  dataBuffer := Blocks.alloc 6312 fun i =>
    if i = 4 then 0xb2 else if i = 5 then 0x07 else if i = 8 then 1 else if i = 12 then 2 else 0

theorem files_recorded_second
    : ∃ archive recording,
        Archive.Records archive recording 86400 86401 ["P3001199".toList]
        ∧ recording "P3001199".toList (120 * 86400)
          = ftpValues ⟨0, 0, 0, 0, 0, 0, 0, 0, 0, 0, 0, 0, 0⟩ := by
  have whole : 6312 ∣ secondFile.byteLen.toNat := ⟨1, rfl⟩
  have one : records secondFile = 1 := by decide
  obtain ⟨s, reachable, -, idle, empty, accepted_⟩ := ftp_pass whole one
  have archives : ArchivesFiles s := ⟨reachable, idle, empty⟩
  have seconds : wholeSeconds (accepted s.history) = [recordAt secondFile 0] := by
    rw [accepted_, wholeSeconds, List.flatMap_singleton, if_pos whole, one]
    rfl
  have consecutive : ConsecutiveTimes 86400 (wholeSeconds (accepted s.history)) := by
    rw [seconds]
    intro i second isSecond
    obtain ⟨inList, rfl⟩ := List.getElem?_eq_some_iff.mp isSecond
    obtain rfl : i = 0 := Nat.lt_one_iff.mp inList
    exact (by decide +kernel : (mkgmtime (recordAt secondFile 0).tm).toInt = 86400)
  have holds := @ftpStored_holds "P3001199".toList _ _ consecutive
    (fun second => wholeSeconds_full) 0 (recordAt secondFile 0) (by rw [seconds]; rfl)
  have row : (outputs s.history).map (ftpStored "P3001199".toList)
      = [ftpStored "P3001199".toList (archiveSecond (recordAt secondFile 0))] := by
    rw [archives.outputs_eq, seconds]
    rfl
  have serves : Serves (fun _ => [ftpStored "P3001199".toList
        (archiveSecond (recordAt secondFile 0))].mapM StoredRow.cassRow?)
      ((outputs s.history).map (ftpStored "P3001199".toList)) 86400
      (86400 + (wholeSeconds (accepted s.history)).length) "P3001199".toList := by
    rw [row, seconds]
    exact serves_second holds
  obtain ⟨recording, isRecorded, samples⟩ := files_recorded archives consecutive serves
  rw [seconds] at isRecorded samples
  exact ⟨_, recording, isRecorded, samples 0 _ rfl 0 _ rfl⟩

end Sparcs.Recording
