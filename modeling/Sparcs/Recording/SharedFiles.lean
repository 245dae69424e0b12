import Sparcs.Recording.DataFileFormat
import Sparcs.Recording.SharedOutputs

/-! The whole way of the data files: written by a device in either byte order, downloaded, shared
among the services, archived by one of them, and found by a request.
-/

namespace Sparcs.Recording

open Archiver (ArchiverFunctions BufferProcessingRecord ServiceDataBuffer additive_eq outputs)
open CassSpeed (Archive Text)
open Discovery (Sharing)
open Discovery.Sharing (Point shared_pass)
open Ftp (SyncOutput mkgmtime)
open Ftp.ServiceDataArchiver (Insert Setting archiveSecond functions)

/-- The buffers of downloaded files, one for each of them. -/
def BuffersOf (bufs : List ServiceDataBuffer) (files : List (List FileSecond)) : Prop :=
  List.Forall₂
    (fun buf seconds =>
      ReadableFile seconds ∧ ∃ bigEndian behind, buf = downloaded bigEndian seconds behind)
    bufs files

/-- The seconds of all files, one file after the other. -/
def writtenSeconds (files : List (List FileSecond)) : List SyncOutput :=
  files.flatten.map FileSecond.second

theorem BuffersOf.wholeSeconds {bufs : List ServiceDataBuffer} {files : List (List FileSecond)}
    (buffers : BuffersOf bufs files)
    : wholeSeconds bufs = writtenSeconds files := by
  induction buffers with
  | nil => rfl
  | @cons buf seconds bufs files isFile _ ih =>
      obtain ⟨readable, bigEndian, behind, rfl⟩ := isFile
      have whole : 6312 ∣ (downloaded bigEndian seconds behind).byteLen.toNat :=
        readable.byteLen ▸ Nat.dvd_mul_right 6312 seconds.length
      rw [Recording.wholeSeconds] at ih ⊢
      rw [List.flatMap_cons, ih, if_pos whole, readable.records, readable.seconds_eq,
        writtenSeconds, writtenSeconds, List.flatten_cons, List.map_append]

section Shared

variable [DecidableEq ServiceDataBuffer] {n : Nat} {i : Fin n}
  {archiver
    : Fin n → ArchiverFunctions { setting : Setting // setting.Good } ServiceDataBuffer
        BufferProcessingRecord Insert}
  {s : Sharing n ServiceDataBuffer BufferProcessingRecord Insert}
  {files : List (List FileSecond)} {first : Nat} {device : Text}

/-- All is well with the service, it has been given every buffer and has worked off all of them. -/
structure ArchivesShared
    (archiver
      : Fin n → ArchiverFunctions { setting : Setting // setting.Good } ServiceDataBuffer
          BufferProcessingRecord Insert)
    (s : Sharing n ServiceDataBuffer BufferProcessingRecord Insert) (i : Fin n)
    (files : List (List FileSecond)) : Prop where
  reachable : s.Reachable archiver
  isArchiver : archiver i = functions.under Setting.Good
  created : BuffersOf s.created files
  given : i ∉ s.discovery.todo
  idle : (s.services i).dataBuf = none
  empty : (s.services i).dataQueue = []

theorem ArchivesShared.outputs_eq (archives : ArchivesShared archiver s i files)
    : outputs (s.services i).history = (writtenSeconds files).map archiveSecond := by
  have whole := @ftp_delivers _ additive_eq Setting.Good
    fun setting isGood bad => absurd isGood bad
  rw [← archives.isArchiver] at whole
  have service := archives.reachable.service i
  rw [service.delivered_all whole archives.idle archives.empty,
    (archives.reachable.sound.services i).received, if_neg archives.given, flatMap_ftpDue,
    archives.created.wholeSeconds]

/-- A request finds every sample of every file, whatever the order of the steps of the discovery
thread and of all archivers.
-/
theorem shared_files_recorded (archives : ArchivesShared archiver s i files)
    (consecutive : ConsecutiveTimes first (writtenSeconds files)) {archive : Archive}
    (serves
      : Serves archive ((outputs (s.services i).history).map (ftpStored device)) first
          (first + (writtenSeconds files).length) device)
    : ∃ recording,
        archive.Records recording first (first + (writtenSeconds files).length) [device]
        ∧ ∀ k second, (writtenSeconds files)[k]? = some second →
          ∀ j sample, second.samples[j]? = some sample →
            recording device (120 * (first + k) + j) = ftpValues sample := by
  have full (second : SyncOutput) (member : second ∈ writtenSeconds files)
      : second.samples.length = 120 := by
    obtain ⟨inFile, _, rfl⟩ := List.mem_map.mp member
    exact inFile.full
  rw [archives.outputs_eq] at serves
  exact seconds_recorded consecutive full serves

end Shared

/-- A big-endian file of the first second of 1970, archived by the first of two services. -/
theorem shared_files_recorded_second
    : ∃ archive recording,
        Archive.Records archive recording 0 1 ["P3001199".toList]
        ∧ recording "P3001199".toList 0 = ftpValues ⟨0, 0, 0, 0, 0, 0, 0, 0, 0, 0, 0, 0, 0⟩ := by
  classical
  have readable : ReadableFile [emptySecond] := emptySecond_readable (by decide)
  have whole : 6312 ∣ (downloaded true [emptySecond] fun _ => 1).byteLen.toNat :=
    ⟨1, readable.byteLen⟩
  obtain ⟨s, reachable, discovery, created, idle, empty⟩ := shared_pass whole readable.records
  have archives : ArchivesShared (fun _ => functions.under Setting.Good) s 0 [[emptySecond]] := by
    refine ⟨reachable, rfl, ?_, by simp [discovery, Point.todo], idle, empty⟩
    rw [created]
    exact .cons ⟨readable, true, _, rfl⟩ .nil
  have consecutive : ConsecutiveTimes 0 (writtenSeconds [[emptySecond]]) := by
    intro i second isSecond
    obtain ⟨inList, rfl⟩ := List.getElem?_eq_some_iff.mp isSecond
    obtain rfl : i = 0 := Nat.lt_one_iff.mp inList
    exact (by decide +kernel : (mkgmtime emptySecond.second.tm).toInt = 0)
  have holds := @ftpStored_holds "P3001199".toList _ _ consecutive
    (fun second member => List.mem_singleton.mp member ▸ emptySecond.full) 0 emptySecond.second rfl
  have serves : Serves (fun _ => [ftpStored "P3001199".toList
        (archiveSecond emptySecond.second)].mapM StoredRow.cassRow?)
      ((outputs (s.services 0).history).map (ftpStored "P3001199".toList)) 0
      (0 + (writtenSeconds [[emptySecond]]).length) "P3001199".toList := by
    rw [archives.outputs_eq]
    exact serves_second holds
  obtain ⟨recording, isRecorded, samples⟩ := shared_files_recorded archives consecutive serves
  exact ⟨_, recording, isRecorded, samples 0 _ rfl 0 _ rfl⟩

end Sparcs.Recording
