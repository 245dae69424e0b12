import Sparcs.Discovery.ByteOrder
import Sparcs.Recording.RecordedFiles

/-! The data files of a device: seconds of 1578 words each, in either byte order. What the archivers
find in the buffer of a downloaded file are the seconds that the device wrote.
-/

namespace Sparcs.Recording

open Archiver (ServiceDataBuffer)
open Blocks (alloc bigEndian32 flatMap_getElem? length_flatMap_width)
open Discovery (SwapsBytes fileBuf mirror postProcessUPMUdata postProcessUPMUdata_spec)
open Ftp (SyncOutput SyncSample syncOutputAt syncOutputAt_slice)

-----------------------------------------------------------------------------------------
-- Words
-----------------------------------------------------------------------------------------

/-- The bytes of a word in one of the two orders. -/
def wordBytes (bigEndian : Bool) (word : UInt32) : List UInt8 :=
  if bigEndian then
    [(word >>> 24).toUInt8, (word >>> 16).toUInt8, (word >>> 8).toUInt8, word.toUInt8]
  else
    [word.toUInt8, (word >>> 8).toUInt8, (word >>> 16).toUInt8, (word >>> 24).toUInt8]

@[simp] theorem wordBytes_length (bigEndian : Bool) (word : UInt32)
    : (wordBytes bigEndian word).length = 4 := by
  cases bigEndian <;> rfl

/-- A word is put together again from its bytes. -/
theorem bigEndian32_bytes (word : UInt32)
    : bigEndian32 (word >>> 24).toUInt8 (word >>> 16).toUInt8 (word >>> 8).toUInt8 word.toUInt8
      = word := by
  have bounded := word.toNat_lt
  rw [← UInt32.toNat_inj, Blocks.bigEndian32_toNat]
  simp [UInt32.toNat_shiftRight, Nat.shiftRight_eq_div_pow]
  omega

/-- Words in memory, with whatever is behind them. -/
def placed (bigEndian : Bool) (words : List UInt32) (behind : Nat → UInt8) : Nat → UInt8 :=
  fun i => (words.flatMap (wordBytes bigEndian)).getD i (behind i)

section Words

variable {bigEndian : Bool} {words : List UInt32} {behind : Nat → UInt8} {k j : Nat}

theorem placed_eq {word : UInt32} (isWord : words[k]? = some word) (inWord : j < 4)
    : placed bigEndian words behind (4 * k + j)
      = (wordBytes bigEndian word).getD j (behind (4 * k + j)) := by
  rw [placed, List.getD_eq_getElem?_getD, List.getD_eq_getElem?_getD,
    flatMap_getElem? (wordBytes_length bigEndian) words k inWord, isWord, Option.bind_some]

/-- The bytes of a word in the big-endian form are those of the little-endian one in reverse. -/
theorem placed_mirror {i : Nat} (inWords : i < 4 * words.length)
    : placed true words behind (mirror i) = placed false words behind i := by
  obtain ⟨k, j, rfl, inWord⟩ : ∃ k j, i = 4 * k + j ∧ j < 4 :=
    ⟨i / 4, i % 4, (Nat.div_add_mod i 4).symm, Nat.mod_lt i (by decide)⟩
  obtain ⟨word, isWord⟩ : ∃ word, words[k]? = some word :=
    ⟨_, List.getElem?_eq_getElem (by omega)⟩
  have mirrored : mirror (4 * k + j) = 4 * k + (3 - j) := by
    unfold mirror
    omega
  rw [mirrored, placed_eq isWord (by omega), placed_eq isWord inWord]
  interval_cases j <;> rfl

/-- A word that lies in memory in the order of the platform is loaded. -/
theorem load32_placed {size : Nat} {cell : Nat → UInt8}
    (lies : ∀ i < 4 * words.length, cell i = placed false words behind i) {word : UInt32}
    (isWord : words[k]? = some word)
    : (alloc size cell).load32 (4 * k) = word := by
  have within := (List.getElem?_eq_some_iff.mp isWord).1
  have byte (j : Nat) (inWord : j < 4)
      : cell (4 * k + j) = (wordBytes false word).getD j (behind (4 * k + j)) := by
    rw [lies _ (by omega), placed_eq isWord inWord]
  have load := bigEndian32_bytes word
  rw [Blocks.Block.load32, alloc]
  change bigEndian32 (cell (4 * k + 3)) (cell (4 * k + 2)) (cell (4 * k + 1)) (cell (4 * k + 0)) = _
  rw [byte 3 (by decide), byte 2 (by decide), byte 1 (by decide), byte 0 (by decide)]
  exact load

end Words

-----------------------------------------------------------------------------------------
-- Seconds
-----------------------------------------------------------------------------------------

/-- A second in a file. What the device writes behind the `sync_output` is left open. -/
structure FileSecond where
  second : SyncOutput
  rest : List UInt32
  full : second.samples.length = 120
  padded : rest.length = 11

/-- How the two parts of a `sync_point` are read from a sample. -/
abbrev MagAng := (SyncSample → UInt32) × (SyncSample → UInt32)

/-- `L1MagAng` to `C3MagAng` -/
def magAngs : List MagAng :=
  [(SyncSample.l1angle, SyncSample.l1mag), (SyncSample.l2angle, SyncSample.l2mag),
    (SyncSample.l3angle, SyncSample.l3mag), (SyncSample.c1angle, SyncSample.c1mag),
    (SyncSample.c2angle, SyncSample.c2mag), (SyncSample.c3angle, SyncSample.c3mag)]

/-- The array of one of them. -/
def syncPoints (samples : List SyncSample) (magAng : MagAng) : List UInt32 :=
  samples.flatMap fun sample => [magAng.1 sample, magAng.2 sample]

namespace FileSecond

variable (s : FileSecond)

def header : List UInt32 :=
  [s.second.sampleRate, s.second.year, s.second.month, s.second.day, s.second.hour, s.second.min,
    s.second.sec]

def words : List UInt32 :=
  s.header ++ s.second.samples.map SyncSample.lockstate
    ++ magAngs.flatMap (syncPoints s.second.samples) ++ s.rest

theorem length_syncPoints (magAng : MagAng)
    : (syncPoints s.second.samples magAng).length = 240 := by
  have width (sample : SyncSample) : [magAng.1 sample, magAng.2 sample].length = 2 := rfl
  rw [syncPoints, length_flatMap_width width, s.full]

theorem length_words : s.words.length = 1578 := by
  rw [words, List.length_append, List.length_append, List.length_append, List.length_map,
    length_flatMap_width s.length_syncPoints, s.full, s.padded]
  rfl

variable {s} {j k c : Nat} {word : UInt32} {sample : SyncSample}
  {magAng : MagAng}

theorem words_header (isWord : s.header[j]? = some word) : s.words[j]? = some word := by
  have inHeader : j < s.header.length := (List.getElem?_eq_some_iff.mp isWord).1
  rw [words, List.append_assoc, List.append_assoc, List.getElem?_append_left inHeader, isWord]

theorem words_lockstate (isSample : s.second.samples[k]? = some sample)
    : s.words[7 + k]? = some sample.lockstate := by
  have inSamples := (List.getElem?_eq_some_iff.mp isSample).1
  have header : s.header.length = 7 := rfl
  rw [words, List.append_assoc, List.append_assoc,
    List.getElem?_append_right (header ▸ Nat.le_add_right 7 k), header, Nat.add_sub_cancel_left,
    List.getElem?_append_left (by rwa [List.length_map]), List.getElem?_map, isSample,
    Option.map_some]

/-- A point is found by its array, its sample and its part. -/
theorem words_point (isMagAng : magAngs[c]? = some magAng)
    (isSample : s.second.samples[k]? = some sample) (inPoint : j < 2)
    : s.words[127 + (240 * c + (2 * k + j))]?
      = [magAng.1 sample, magAng.2 sample][j]? := by
  have inMagAngs : c < 6 := (List.getElem?_eq_some_iff.mp isMagAng).1
  have inSamples : k < 120 := s.full ▸ (List.getElem?_eq_some_iff.mp isSample).1
  have front : (s.header ++ s.second.samples.map SyncSample.lockstate).length = 127 := by
    rw [List.length_append, List.length_map, s.full]
    rfl
  have width (sample : SyncSample) : [magAng.1 sample, magAng.2 sample].length = 2 := rfl
  have points : (magAngs.flatMap (syncPoints s.second.samples)).length = 1440 := by
    rw [length_flatMap_width s.length_syncPoints]
    rfl
  rw [words, List.getElem?_append_left (by rw [List.length_append, front, points]; omega),
    List.getElem?_append_right (by omega), front, Nat.add_sub_cancel_left,
    flatMap_getElem? s.length_syncPoints magAngs c (by omega), isMagAng, Option.bind_some,
    syncPoints, flatMap_getElem? width s.second.samples k inPoint, isSample,
    Option.bind_some]

end FileSecond

-----------------------------------------------------------------------------------------
-- Files
-----------------------------------------------------------------------------------------

def fileWords (seconds : List FileSecond) : List UInt32 := seconds.flatMap FileSecond.words

/-- The buffer that the other services get of a downloaded file, on a little-endian platform. -/
def downloaded (bigEndian : Bool) (seconds : List FileSecond) (behind : Nat → UInt8)
    : ServiceDataBuffer :=
  let dataLen := UInt32.ofNat (4 * (fileWords seconds).length)
  let dataBuf := fileBuf (placed bigEndian (fileWords seconds) behind)
  { byteLen := dataLen
    dataBuffer := alloc dataLen.toNat (postProcessUPMUdata false dataLen dataBuf).cell }

/-- The length of the file is an `unsigned int`, and the year that the code looks at fits the lower
half of a word and is not 0.
-/
structure ReadableFile (seconds : List FileSecond) : Prop where
  small : 6312 * seconds.length < 2 ^ 32
  year
    : ∀ first, seconds.head? = some first →
        1 ≤ first.second.year.toNat ∧ first.second.year.toNat ≤ 65535

section File

variable {bigEndian : Bool} {seconds : List FileSecond} {behind : Nat → UInt8} {s : FileSecond}
  {i j k : Nat} {word : UInt32}

theorem length_fileWords (seconds : List FileSecond)
    : (fileWords seconds).length = 1578 * seconds.length :=
  length_flatMap_width FileSecond.length_words seconds

theorem fileWords_getElem? (isSecond : seconds[i]? = some s) (isWord : s.words[j]? = some word)
    : (fileWords seconds)[1578 * i + j]? = some word := by
  have inSecond : j < 1578 := s.length_words ▸ (List.getElem?_eq_some_iff.mp isWord).1
  rw [fileWords, flatMap_getElem? FileSecond.length_words seconds i inSecond, isSecond,
    Option.bind_some, isWord]

theorem ReadableFile.byteLen (readable : ReadableFile seconds)
    : (downloaded bigEndian seconds behind).byteLen.toNat = 6312 * seconds.length := by
  have small : 4 * (1578 * seconds.length) < UInt32.size := by
    have small := readable.small
    rw [UInt32.size]
    omega
  rw [downloaded, length_fileWords, UInt32.toNat_ofNat_of_lt' small, ← Nat.mul_assoc]

/-- The year makes the code swap the words of a big-endian file, and of no other. -/
theorem ReadableFile.swapsBytes_iff (readable : ReadableFile seconds) (nonempty : seconds ≠ [])
    : SwapsBytes false (placed bigEndian (fileWords seconds) behind) ↔ bigEndian = true := by
  obtain ⟨first, rest, rfl⟩ := List.exists_cons_of_ne_nil nonempty
  obtain ⟨yearFrom, yearTo⟩ := readable.year first rfl
  have isYear : (fileWords (first :: rest))[1]? = some first.second.year :=
    @fileWords_getElem? (first :: rest) first 0 1 _ rfl (FileSecond.words_header rfl)
  have byte4 := @placed_eq bigEndian _ behind 1 0 _ isYear (by decide)
  have byte5 := @placed_eq bigEndian _ behind 1 1 _ isYear (by decide)
  rw [SwapsBytes, byte4, byte5]
  have zero (b : UInt8) : b = 0 ↔ b.toNat = 0 := by
    rw [← UInt8.toNat_inj]
    rfl
  cases bigEndian
  all_goals
    simp [wordBytes, zero, UInt32.toNat_shiftRight, Nat.shiftRight_eq_div_pow]
    omega

/-- In either case the words of the file come to lie in the order of the platform. -/
theorem ReadableFile.lies (readable : ReadableFile seconds)
    : ∀ i < 4 * (fileWords seconds).length,
        (downloaded bigEndian seconds behind).dataBuffer.byte i
          = placed false (fileWords seconds) behind i := by
  intro i within
  have nonempty : seconds ≠ [] := by
    rintro rfl
    exact absurd within (Nat.not_lt_zero i)
  have swapsBytes := @readable.swapsBytes_iff bigEndian _ behind nonempty
  have byteLen := @readable.byteLen bigEndian _ behind
  obtain ⟨n, swaps, stays, cell, -⟩ := postProcessUPMUdata_spec false
    (downloaded bigEndian seconds behind).byteLen (placed bigEndian (fileWords seconds) behind)
  refine (cell i).trans ?_
  rw [length_fileWords] at within
  cases bigEndian with
  | false =>
      rw [stays (mt swapsBytes.mp (by decide)), if_neg (by omega)]
  | true =>
      have past := (swaps (swapsBytes.mpr rfl)).1
      rw [if_pos (by omega), placed_mirror (by rw [length_fileWords]; omega)]

theorem ReadableFile.load32 (readable : ReadableFile seconds) (isSecond : seconds[i]? = some s)
    (isWord : s.words[j]? = some word) {offset : Nat} (place : offset = 6312 * i + 4 * j)
    : (downloaded bigEndian seconds behind).dataBuffer.load32 offset = word := by
  have index : offset = 4 * (1578 * i + j) := by omega
  rw [index]
  exact load32_placed readable.lies (fileWords_getElem? isSecond isWord)

theorem ReadableFile.syncSampleAt (readable : ReadableFile seconds)
    (isSecond : seconds[i]? = some s) {sample : SyncSample}
    (isSample : s.second.samples[k]? = some sample)
    : Ftp.syncSampleAt (downloaded bigEndian seconds behind).dataBuffer (6312 * i) k
      = sample := by
  have lockstate := @readable.load32 bigEndian _ behind s i (7 + k) _ isSecond
    (FileSecond.words_lockstate isSample) (6312 * i + 28 + 4 * k) (by omega)
  -- The parts of the array `c` begin 960 bytes behind those of the array before.
  have angle {c offset : Nat} {magAng : MagAng} (isMagAng : magAngs[c]? = some magAng)
      (place : offset = 6312 * i + 508 + 960 * c + 8 * k)
      : (downloaded bigEndian seconds behind).dataBuffer.load32 offset = magAng.1 sample :=
    readable.load32 isSecond (FileSecond.words_point isMagAng isSample (by decide : 0 < 2))
      (by omega)
  have mag {c offset : Nat} {magAng : MagAng} (isMagAng : magAngs[c]? = some magAng)
      (place : offset = 6312 * i + 512 + 960 * c + 8 * k)
      : (downloaded bigEndian seconds behind).dataBuffer.load32 offset = magAng.2 sample :=
    readable.load32 isSecond (FileSecond.words_point isMagAng isSample (by decide : 1 < 2))
      (by omega)
  rw [Ftp.syncSampleAt, lockstate,
    @angle 0 (6312 * i + 508 + 8 * k) _ rfl rfl, @mag 0 (6312 * i + 512 + 8 * k) _ rfl rfl,
    @angle 1 (6312 * i + 1468 + 8 * k) _ rfl rfl, @mag 1 (6312 * i + 1472 + 8 * k) _ rfl rfl,
    @angle 2 (6312 * i + 2428 + 8 * k) _ rfl rfl, @mag 2 (6312 * i + 2432 + 8 * k) _ rfl rfl,
    @angle 3 (6312 * i + 3388 + 8 * k) _ rfl rfl, @mag 3 (6312 * i + 3392 + 8 * k) _ rfl rfl,
    @angle 4 (6312 * i + 4348 + 8 * k) _ rfl rfl, @mag 4 (6312 * i + 4352 + 8 * k) _ rfl rfl,
    @angle 5 (6312 * i + 5308 + 8 * k) _ rfl rfl, @mag 5 (6312 * i + 5312 + 8 * k) _ rfl rfl]

theorem ReadableFile.recordAt (readable : ReadableFile seconds) (isSecond : seconds[i]? = some s)
    : Ftp.recordAt (downloaded bigEndian seconds behind) i = s.second := by
  have samples : (List.range 120).map
      (Ftp.syncSampleAt (downloaded bigEndian seconds behind).dataBuffer (6312 * i))
        = s.second.samples := by
    refine List.ext_getElem (by simp [s.full]) fun k inRange inSamples => ?_
    rw [List.getElem_map, List.getElem_range]
    exact readable.syncSampleAt isSecond (List.getElem?_eq_getElem inSamples)
  have header {j offset : Nat} {word : UInt32} (isWord : s.header[j]? = some word)
      (place : offset = 6312 * i + 4 * j)
      : (downloaded bigEndian seconds behind).dataBuffer.load32 offset = word :=
    readable.load32 isSecond (FileSecond.words_header isWord) place
  rw [Ftp.recordAt, syncOutputAt_slice, syncOutputAt, Archiver.upmuSamplesPerSec, samples,
    @header 0 (6312 * i) _ rfl rfl, @header 1 (6312 * i + 4) _ rfl rfl,
    @header 2 (6312 * i + 8) _ rfl rfl, @header 3 (6312 * i + 12) _ rfl rfl,
    @header 4 (6312 * i + 16) _ rfl rfl, @header 5 (6312 * i + 20) _ rfl rfl,
    @header 6 (6312 * i + 24) _ rfl rfl]

theorem ReadableFile.records (readable : ReadableFile seconds)
    : Ftp.records (downloaded bigEndian seconds behind) = seconds.length := by
  rw [Ftp.records, readable.byteLen, Nat.mul_div_cancel_left _ (by decide)]

theorem ReadableFile.seconds_eq (readable : ReadableFile seconds)
    : (List.range seconds.length).map (Ftp.recordAt (downloaded bigEndian seconds behind))
      = seconds.map FileSecond.second := by
  refine List.ext_getElem (by simp) fun i inRange inSeconds => ?_
  rw [List.length_map] at inSeconds
  rw [List.getElem_map, List.getElem_map, List.getElem_range]
  exact readable.recordAt (List.getElem?_eq_getElem inSeconds)

/-- What the archivers find in the buffer of a downloaded file are the seconds that were written,
whichever byte order the device has and whatever lies behind the file in memory.
-/
theorem file_received (readable : ReadableFile seconds) (bigEndian : Bool)
    (behind : Nat → UInt8)
    : wholeSeconds [downloaded bigEndian seconds behind] = seconds.map FileSecond.second := by
  rw [wholeSeconds, List.flatMap_singleton,
    if_pos (readable.byteLen ▸ Nat.dvd_mul_right 6312 seconds.length), readable.records,
    readable.seconds_eq]

end File

/-- A second without samples' values, the first one of 1970. -/
def emptySecond : FileSecond where
  second := ⟨0, 1970, 1, 1, 0, 0, 0, List.replicate 120 ⟨0, 0, 0, 0, 0, 0, 0, 0, 0, 0, 0, 0, 0⟩⟩
  rest := List.replicate 11 0
  full := List.length_replicate
  padded := List.length_replicate

theorem emptySecond_readable {rest : List FileSecond}
    (small : 6312 * (emptySecond :: rest).length < 2 ^ 32)
    : ReadableFile (emptySecond :: rest) := by
  refine ⟨small, fun first isFirst => ?_⟩
  obtain rfl : emptySecond = first := Option.some.inj isFirst
  exact ⟨by decide, by decide⟩

/-- A big-endian file of two seconds with ones behind it. -/
theorem file_received_two
    : wholeSeconds [downloaded true [emptySecond, emptySecond] fun _ => 1]
      = [emptySecond.second, emptySecond.second] :=
  file_received (emptySecond_readable (by decide)) true fun _ => 1

end Sparcs.Recording
