import Sparcs.Archiver.ArchivedSeconds
import Sparcs.C37.Grouping
import Sparcs.C37.HandedFrames
import Sparcs.Recording.Archiving
import Sparcs.Recording.ServedRows

/-! From the bytes that a device sends to what a request finds: the reads of the channel, the blocks
of the reformatter, the rows of the archiver and the archive that serves them.
-/

namespace Sparcs.Recording

open Archiver (BufferProcessingRecord Sample Service ServiceDataBuffer accepted frameWord fullBlock
  outputs sampleAt)
open C37 (C37Buffer C37DataChannel C37Reformat Consecutive EventBuffer IsStd dataMessages
  frameHeader initialReformat savedEvent)
open C37.C37Reformat (RegularStream secondBlock)
open CassSpeed (Archive Channel Recording Text secondKey secondRow)
open Framing (IsFrame parse sizes)
open Spans

-----------------------------------------------------------------------------------------
-- The blocks of a stream
-----------------------------------------------------------------------------------------

/-- The bytes are whole frames whose data messages are, after a lead-in, the samples of consecutive
seconds. All seconds but the first and the last are full.
-/
structure SentSeconds (sec : UInt32) (seconds : List (List C37Buffer)) (bytes : List UInt8)
    (messages : List (Nat × List UInt8)) : Prop where
  bytes : (messages.map Prod.snd).flatten = bytes
  frames : ∀ message ∈ messages, IsFrame frameHeader message
  regular : RegularStream 120 sec seconds ((dataMessages messages).map C37Buffer.ofBytes)
  full : ∀ second ∈ seconds.tail.dropLast, second.length = 120

section Stream

variable {sec : UInt32} {seconds : List (List C37Buffer)} {bytes : List UInt8}
  {messages : List (Nat × List UInt8)}

theorem SentSeconds.parse_eq (sent : SentSeconds sec seconds bytes messages)
    : (parse frameHeader bytes).1 = messages := by
  have cut := Framing.parse_frames C37.frameHeader_stable sent.frames []
  rw [List.append_nil, sent.bytes, Framing.parse_stop C37.front_nil, List.append_nil] at cut
  rw [cut]

theorem SentSeconds.sizes_ne (sent : SentSeconds sec seconds bytes messages)
    : ∀ size ∈ sizes frameHeader bytes, size ≠ 0 := by
  have cut := Framing.sizes_frames C37.frameHeader_stable sent.frames []
  rw [List.append_nil, sent.bytes, Framing.sizes_stop C37.front_nil] at cut
  intro size member
  rw [cut, List.mem_append, List.mem_map] at member
  obtain ⟨message, isSent, rfl⟩ | absent := member
  · exact (sent.frames message isSent).positive.ne'
  · exact absurd absent List.not_mem_nil

/-- The reformatter learns the first second and puts out each later one that has ended. -/
theorem regular_run {frames : List C37Buffer} (regular : RegularStream 120 sec seconds frames)
    (fracSecValues : Nat → UInt32)
    : ∃ final,
        (initialReformat fracSecValues).run frames
          = some (final, seconds.tail.dropLast.map (secondBlock 120)) := by
  obtain ⟨leadIn, filtered, fractions⟩ := regular.leadIn
  have waiting := C37Reformat.waiting_initial fracSecValues
  have standard : ∀ frame ∈ leadIn, IsStd frame := by
    intro frame member
    have kept : frame ∈ frames.filter IsStd := by
      rw [filtered]
      exact List.mem_append_left _ member
    simpa using (List.mem_filter.mp kept).2
  obtain ⟨final, ran, -⟩ := regular.run_seconds waiting
  have runs := OutputRun.run_append (waiting.skips standard fractions) ran
  rw [← filtered] at runs
  obtain ⟨count, runs'⟩ :=
    C37Reformat.run_of_filter (initialReformat fracSecValues).nonStdC37events runs
  exact ⟨_, runs'⟩

theorem SentSeconds.blocks (sent : SentSeconds sec seconds bytes messages) {c : C37DataChannel}
    (starts : c.Starts) {chunks : List (List UInt8)} (cut : chunks.flatten = bytes)
    (fits : c.Fits chunks) (fracSecValues : Nat → UInt32)
    : ∃ next final,
        c.reads chunks = some next
        ∧ next.perform (initialReformat fracSecValues)
          = some (final, seconds.tail.dropLast.map (secondBlock 120)) := by
  obtain ⟨next, reads, reachable, dispatched⟩ :=
    C37.reads_dispatched (.start c starts) starts.pending fits (by rw [cut]; exact sent.sizes_ne)
  obtain ⟨final, ran⟩ := regular_run sent.regular fracSecValues
  rw [starts.dispatched, List.nil_append, cut, sent.parse_eq] at dispatched
  refine ⟨next, final, reads, ?_⟩
  rw [C37DataChannel.perform, C37.run_perform reachable.calls]
  change (initialReformat fracSecValues).run ((dataMessages next.dispatched).map _) = _
  rw [dispatched, ran]

end Stream

-----------------------------------------------------------------------------------------
-- The row of a second
-----------------------------------------------------------------------------------------

/-- The phasors of a frame, as an archiver would have them. -/
def frameSample (frame : C37Buffer) : Sample where
  l1mag := frameWord frame 16
  l1ang := frameWord frame 20
  l2mag := frameWord frame 24
  l2ang := frameWord frame 28
  l3mag := frameWord frame 32
  l3ang := frameWord frame 36
  c1mag := frameWord frame 40
  c1ang := frameWord frame 44
  c2mag := frameWord frame 48
  c2ang := frameWord frame 52
  c3mag := frameWord frame 56
  c3ang := frameWord frame 60

/-- The frames are those of the second `e`. -/
structure OfSecond (e : Nat) (frames : List C37Buffer) : Prop where
  small : e < 4294967296
  std : ∀ frame ∈ frames, IsStd frame
  time : ∀ frame ∈ frames, C37.time frame = UInt32.ofNat e
  full : frames.length = 120

/-- The frames of the seconds in a row, by induction over them. -/
theorem consecutive_getElem {sec : UInt32} {seconds : List (List C37Buffer)}
    (consecutive : Consecutive sec seconds) {i : Nat} {second : List C37Buffer}
    (isSecond : seconds[i]? = some second)
    : ∀ frame ∈ second, IsStd frame ∧ C37.time frame = sec + UInt32.ofNat i := by
  induction consecutive generalizing i with
  | nil => simp at isSecond
  | @cons sec head rest later now then_ ih =>
      cases i with
      | zero =>
          obtain rfl : head :: rest = second := Option.some.inj isSecond
          intro frame member
          rw [show UInt32.ofNat 0 = 0 from rfl, UInt32.add_zero]
          rcases List.mem_cons.mp member with rfl | member
          · exact ⟨now.headStd, now.headTime⟩
          · exact ⟨now.restStd frame member, now.restTime frame member⟩
      | succ i =>
          intro frame member
          obtain ⟨std, time⟩ := ih isSecond frame member
          refine ⟨std, time.trans ?_⟩
          rw [UInt32.ofNat_add, UInt32.add_comm (UInt32.ofNat i), UInt32.add_assoc]
          rfl

section Rows

variable (malloc : Nat → UInt8) {frames : List C37Buffer} {e : Nat} {recording : Recording}
  {device : Text}

/-- The second of the frames is bound to the key of the row. -/
theorem c37Stored_key (second : OfSecond e frames)
    : (c37Stored device (fullBlock malloc frames)).key = secondKey e := by
  have full := second.full
  have epochTime := Archiver.fullBlock_epochTime malloc (by omega) second.std second.time
  rw [UInt32.toNat_ofNat_of_lt' second.small] at epochTime
  have stored := Query.c37Row_isSecond (fullBlock malloc frames)
  rw [epochTime] at stored
  exact isSecond_unique stored (CassSpeed.secondKey_isSecond second.small)

theorem c37Stored_holds (second : OfSecond e frames)
    (records
      : ∀ k < 120,
          recording device (120 * e + k)
            = c37Values (sampleAt (fullBlock malloc frames) (5 + 15 * k)))
    : (c37Stored device (fullBlock malloc frames)).Holds recording device e where
  ofDevice := rfl
  key := c37Stored_key malloc second
  read := by
    have time
        : (c37Stored device (fullBlock malloc frames)).timestampMsec = Int64.ofInt (1000 * e) :=
      congrArg Query.Row.timestampMsec (@c37Stored_key malloc frames e device second)
    have samples : (List.range Archiver.upmuSamplesPerSec).map
          (fun k => c37Values (sampleAt (fullBlock malloc frames) (5 + 15 * k)))
        = (List.range 120).map fun k => recording device (120 * e + k) :=
      List.map_congr_left fun k member => (records k (List.mem_range.mp member)).symm
    rw [cassRow?_c37Stored, Archiver.readData_words, List.map_map, time, secondRow, ← samples]
    rfl

/-- All values of a frame but the last angle are stored. -/
theorem sampleAt_fullBlock {frame : C37Buffer} {k : Nat} (std : IsStd frame)
    (saved : frames[k]? = some frame) (fits : k < 120)
    : ∃ c3ang,
        sampleAt (fullBlock malloc frames) (5 + 15 * k) = { frameSample frame with c3ang } := by
  have word (i : Nat) (within : i < 11) :=
    Archiver.fullBlock_phasor malloc std saved fits within
  refine ⟨Archiver.word (fullBlock malloc frames) (5 + 15 * k + 11), ?_⟩
  rw [sampleAt, word 1 (by decide), word 2 (by decide), word 3 (by decide), word 4 (by decide),
    word 5 (by decide), word 6 (by decide), word 7 (by decide), word 8 (by decide),
    word 9 (by decide), word 10 (by decide), ← Nat.add_zero (5 + 15 * k), word 0 (by decide)]
  rfl

theorem c37Values_intact (s : Sample) (c3ang : UInt32) {channel : Channel}
    (intact : channel ≠ .c3ang)
    : c37Values { s with c3ang } channel = c37Values s channel := by
  cases channel with
  | c3ang => contradiction
  | _ => rfl

end Rows

-----------------------------------------------------------------------------------------
-- The archive of a stream
-----------------------------------------------------------------------------------------

/-- The buffer that `postProcessUPMUdata` makes of a block. -/
def offeredBuf (malloc : Nat → UInt8) (block : EventBuffer) : ServiceDataBuffer where
  byteLen := UInt32.ofNat block.byteLen
  dataBuffer := block.dataBuf malloc

/-- All is well, and the archiver has accepted and worked off just these blocks. -/
structure Archives (device : Text)
    (s : Service ServiceDataBuffer BufferProcessingRecord StoredRow) (blocks : List EventBuffer)
    : Prop where
  reachable : s.Reachable ((c37Functions device).under C37Good)
  idle : s.dataBuf = none
  empty : s.dataQueue = []
  accepts : List.Forall₂ (fun buf block => ∃ malloc, buf = offeredBuf malloc block)
    (accepted s.history) blocks

section Archive

variable {device : Text} {s : Service ServiceDataBuffer BufferProcessingRecord StoredRow}
  {bufs : List ServiceDataBuffer} {seconds : List (List C37Buffer)}

/-- Every block of a second is stored, by induction over them. -/
theorem due_offered
    (offered
      : List.Forall₂ (fun buf block => ∃ malloc, buf = offeredBuf malloc block) bufs
          (seconds.map (secondBlock 120)))
    : bufs.flatMap (c37Due device) = bufs.map (fun buf => c37Stored device buf.dataBuffer)
      ∧ List.Forall₂ (fun buf second => ∃ malloc, buf.dataBuffer = fullBlock malloc second) bufs
          seconds := by
  induction seconds generalizing bufs with
  | nil =>
      obtain rfl := List.forall₂_nil_right_iff.mp offered
      exact ⟨rfl, .nil⟩
  | cons second seconds ih =>
      cases offered with
      | cons offers later =>
          obtain ⟨malloc, rfl⟩ := offers
          obtain ⟨due, blocks⟩ := ih later
          have full : (offeredBuf malloc (secondBlock 120 second)).byteLen.toNat
              = C37.secblkLenBytes * 120 + 4 := rfl
          refine ⟨?_, .cons ⟨malloc, (Archiver.fullBlock_eq malloc).symm⟩ blocks⟩
          rw [List.flatMap_cons, List.map_cons, due, c37Due, if_pos full]
          rfl

/-- The archiver inserts the rows of these buffers in order. -/
theorem Archives.outputs_eq
    (archives : Archives device s (seconds.map (secondBlock 120)))
    : outputs s.history
      = (accepted s.history).map fun buf => c37Stored device buf.dataBuffer := by
  obtain ⟨due, -⟩ := @due_offered device _ _ archives.accepts
  have whole := @c37_delivers device _ Archiver.additive_eq C37Good
    fun setting isGood bad => absurd isGood bad
  rw [archives.reachable.delivered_all whole archives.idle archives.empty, due]

/-- The buffer of the second `e`, when the first is that of the second `first`. -/
def bufAt (first : Nat) (bufs : List ServiceDataBuffer) (e : Nat) : ServiceDataBuffer :=
  bufs.getD (e - first) ⟨0, Blocks.alloc 0 fun _ => 0⟩

/-- The samples in the buffers. -/
def recordingOf (first : Nat) (bufs : List ServiceDataBuffer) : Recording := fun _ n =>
  c37Values (sampleAt (bufAt first bufs (n / 120)).dataBuffer (5 + 15 * (n % 120)))

variable {first : Nat}

theorem recordingOf_sample (e : Nat) {k : Nat} (inSecond : k < 120)
    : recordingOf first bufs device (120 * e + k)
      = c37Values (sampleAt (bufAt first bufs e).dataBuffer (5 + 15 * k)) := by
  have quotient : (120 * e + k) / 120 = e := by omega
  have rest : (120 * e + k) % 120 = k := by omega
  rw [recordingOf, quotient, rest]

theorem bufAt_block
    (blocks
      : List.Forall₂ (fun buf second => ∃ malloc, buf.dataBuffer = fullBlock malloc second) bufs
          seconds)
    {i : Nat} {second : List C37Buffer} (isSecond : seconds[i]? = some second)
    : ∃ malloc, (bufAt first bufs (first + i)).dataBuffer = fullBlock malloc second := by
  obtain ⟨inList, rfl⟩ := List.getElem?_eq_some_iff.mp isSecond
  have inBufs : i < bufs.length := blocks.length_eq ▸ inList
  rw [bufAt, Nat.add_sub_cancel_left, List.getD_eq_getElem?_getD, List.getElem?_eq_getElem inBufs,
    Option.getD_some]
  exact (List.forall₂_iff_get.mp blocks).2 i inBufs inList

/-- The recording has the frames of the seconds from `first` on. -/
def HasFrames (recording : Recording) (device : Text) (first : Nat)
    (seconds : List (List C37Buffer)) : Prop :=
  ∀ i second, seconds[i]? = some second → ∀ k frame, second[k]? = some frame →
    ∀ channel, channel ≠ .c3ang →
      recording device (120 * (first + i) + k) channel = c37Values (frameSample frame) channel

variable (ofSecond : ∀ i second, seconds[i]? = some second → OfSecond (first + i) second)
  (blocks
    : List.Forall₂ (fun buf second => ∃ malloc, buf.dataBuffer = fullBlock malloc second) bufs
        seconds)

include ofSecond blocks

theorem recordingOf_hasFrames : HasFrames (recordingOf first bufs) device first seconds := by
  intro i second isSecond k frame isFrame channel intact
  have ofSecond_ := ofSecond i second isSecond
  have full := ofSecond_.full
  have inSecond := (List.getElem?_eq_some_iff.mp isFrame).1
  obtain ⟨malloc, block⟩ := @bufAt_block bufs seconds first blocks i second isSecond
  obtain ⟨c3ang, sample⟩ := sampleAt_fullBlock malloc
    (ofSecond_.std frame (List.mem_of_getElem? isFrame)) isFrame (by omega)
  rw [recordingOf_sample _ (by omega), block, sample]
  exact c37Values_intact _ c3ang intact

/-- An archive of these rows has this recording. -/
theorem recordingOf_records {archive : Archive}
    (serves
      : Serves archive (bufs.map fun buf => c37Stored device buf.dataBuffer) first
          (first + seconds.length) device)
    : archive.Records (recordingOf first bufs) first (first + seconds.length) [device] := by
  have inOrder : (span first (first + seconds.length)).map (bufAt first bufs) = bufs := by
    rw [← blocks.length_eq]
    exact map_getD_span bufs _
  rw [← inOrder, List.map_map] at serves
  refine serves_records (fun e member => ?_) serves
  obtain ⟨from_, below⟩ := mem_span.mp member
  have isSecond : seconds[e - first]? = some seconds[e - first] :=
    List.getElem?_eq_getElem (by omega)
  obtain ⟨malloc, block⟩ := @bufAt_block bufs seconds first blocks _ _ isSecond
  have second := ofSecond _ _ isSecond
  rw [Nat.add_sub_cancel' from_] at block second
  rw [Function.comp_apply, block]
  exact c37Stored_holds malloc second fun k inSecond => by rw [recordingOf_sample e inSecond, block]

end Archive

/-- The seconds of a stream that are put out. -/
theorem SentSeconds.ofSecond {sec : UInt32} {seconds : List (List C37Buffer)} {bytes : List UInt8}
    {messages : List (Nat × List UInt8)} (sent : SentSeconds sec seconds bytes messages) {i : Nat}
    {second : List C37Buffer} (isSecond : seconds.tail.dropLast[i]? = some second)
    : OfSecond (sec.toNat + 1 + i) second := by
  have member := List.mem_of_getElem? isSecond
  have inList := (List.getElem?_eq_some_iff.mp isSecond).1
  rw [List.length_dropLast, List.length_tail] at inList
  have inRange := sent.regular.inRange
  have place : seconds[i + 1]? = some second := by
    rw [List.getElem?_dropLast, if_pos (by rw [List.length_tail]; omega)] at isSecond
    rw [← isSecond, List.getElem?_tail]
  have ofSeconds := consecutive_getElem sent.regular.consecutive place
  have time : sec + UInt32.ofNat (i + 1) = UInt32.ofNat (sec.toNat + 1 + i) := by
    rw [Nat.add_assoc, Nat.add_comm 1 i, UInt32.ofNat_add sec.toNat, UInt32.ofNat_toNat]
  exact ⟨by omega, fun frame isFrame => (ofSeconds frame isFrame).1,
    fun frame isFrame => (ofSeconds frame isFrame).2.trans time, sent.full second member⟩

/-- However the stream of a device is cut into reads and whatever the order of the steps of the
archiver, a request finds the frames of all seconds of the stream but the first and the last, with
all their values but the last angle.
-/
theorem stream_recorded {sec : UInt32} {seconds : List (List C37Buffer)} {bytes : List UInt8}
    {messages : List (Nat × List UInt8)} (sent : SentSeconds sec seconds bytes messages)
    {c : C37DataChannel} (starts : c.Starts) {chunks : List (List UInt8)}
    (cut : chunks.flatten = bytes) (fits : c.Fits chunks) (fracSecValues : Nat → UInt32)
    : ∃ next final blocks,
        c.reads chunks = some next
        ∧ next.perform (initialReformat fracSecValues) = some (final, blocks)
        ∧ ∀ device s archive, Archives device s blocks →
          Serves archive (outputs s.history) (sec.toNat + 1)
            (sec.toNat + 1 + seconds.tail.dropLast.length) device →
          ∃ recording,
            archive.Records recording (sec.toNat + 1)
              (sec.toNat + 1 + seconds.tail.dropLast.length) [device]
            ∧ HasFrames recording device (sec.toNat + 1) seconds.tail.dropLast := by
  obtain ⟨next, final, reads, performs⟩ := sent.blocks starts cut fits fracSecValues
  refine ⟨next, final, _, reads, performs, fun device s archive archives serves => ?_⟩
  have ofSecond : ∀ i second, seconds.tail.dropLast[i]? = some second →
      OfSecond (sec.toNat + 1 + i) second := fun i second => sent.ofSecond
  have blocks := (@due_offered device _ _ archives.accepts).2
  rw [archives.outputs_eq] at serves
  exact ⟨_, recordingOf_records ofSecond blocks serves,
    recordingOf_hasFrames ofSecond blocks⟩

-----------------------------------------------------------------------------------------
-- Three seconds
-----------------------------------------------------------------------------------------

/-- A data frame that holds nothing but its time, as it is sent. -/
def sentFrame (sec fracSec : UInt32) : List UInt8 :=
  let byte (word : UInt32) (i : Nat) : UInt8 := UInt8.ofNat (word.toNat / 256 ^ i)
  [0xaa, 0x01, 0, 74, 0, 1, byte sec 3, byte sec 2, byte sec 1, byte sec 0, byte fracSec 3,
    byte fracSec 2, byte fracSec 1, byte fracSec 0] ++ List.replicate 60 0

def sentSecond (sec : UInt32) : List (List UInt8) :=
  (List.range 120).map fun k => sentFrame sec (UInt32.ofNat k)

def threeSeconds : List UInt32 := [5, 6, 7]

def sentMessages : List (Nat × List UInt8) :=
  (threeSeconds.flatMap sentSecond).map fun bytes => (C37.dataMsgTypeValue, bytes)

theorem isFrame_sentFrame (sec fracSec : UInt32)
    : IsFrame frameHeader (C37.dataMsgTypeValue, sentFrame sec fracSec) :=
  ⟨Nat.zero_lt_succ _, rfl⟩

theorem fracTime_sentFrame (sec : UInt32) {k : Nat} (few : k < 120)
    : C37.fracTime (C37Buffer.ofBytes (sentFrame sec (UInt32.ofNat k))) = UInt32.ofNat k := by
  have small : UInt32.ofNat k < 0x1000000 := by
    rw [UInt32.lt_iff_toNat_lt, UInt32.toNat_ofNat_of_lt' (few.trans (by decide))]
    exact few.trans (by decide)
  exact @C37.fracTime_frameAt sec _ small

theorem time_sentFrame (sec fracSec : UInt32)
    : C37.time (C37Buffer.ofBytes (sentFrame sec fracSec)) = sec :=
  C37.word_bytes sec

theorem isSecond_sentSecond (sec : UInt32)
    : ∃ head rest,
        (sentSecond sec).map C37Buffer.ofBytes = head :: rest
        ∧ C37.IsSecond sec head rest := by
  have split : (sentSecond sec).map C37Buffer.ofBytes
      = C37Buffer.ofBytes (sentFrame sec (UInt32.ofNat 0))
        :: (List.range' 1 119).map fun k =>
          C37Buffer.ofBytes (sentFrame sec (UInt32.ofNat k)) := by
    rw [sentSecond, List.map_map, List.range_eq_range']
    rfl
  refine ⟨_, _, split, rfl, time_sentFrame sec _, fracTime_sentFrame sec (by decide), ?_, ?_, ?_⟩
  all_goals
    intro frame member
    obtain ⟨k, inSecond, rfl⟩ := List.mem_map.mp member
    obtain ⟨positive, few⟩ := List.mem_range'_1.mp inSecond
  · rfl
  · exact time_sentFrame sec _
  · rw [fracTime_sentFrame sec (by omega)]
    intro same
    have number := congrArg UInt32.toNat same
    rw [UInt32.toNat_ofNat_of_lt' (few.trans (by decide))] at number
    exact absurd number (by change k ≠ 0; omega)

theorem isStd_sentSecond {sec : UInt32} {frame : C37Buffer}
    (member : frame ∈ (sentSecond sec).map C37Buffer.ofBytes)
    : IsStd frame := by
  simp only [sentSecond, List.map_map, List.mem_map] at member
  obtain ⟨k, -, rfl⟩ := member
  rfl

theorem dataMessages_sent
    : (dataMessages sentMessages).map C37Buffer.ofBytes
      = (threeSeconds.map fun sec => (sentSecond sec).map C37Buffer.ofBytes).flatten := by
  have all : dataMessages sentMessages = threeSeconds.flatMap sentSecond := by
    rw [dataMessages, sentMessages, List.filter_map, List.map_map]
    simp [Function.comp_def]
  rw [all, List.map_flatMap, List.flatMap]

theorem sentMessages_sentSeconds
    : SentSeconds 5 (threeSeconds.map fun sec => (sentSecond sec).map C37Buffer.ofBytes)
        (sentMessages.map Prod.snd).flatten sentMessages where
  bytes := rfl
  frames := by
    intro message member
    simp only [sentMessages, List.mem_map, List.mem_flatMap, sentSecond] at member
    obtain ⟨_, ⟨sec, -, k, -, rfl⟩, rfl⟩ := member
    exact isFrame_sentFrame sec _
  regular := by
    obtain ⟨head5, rest5, split5, second5⟩ := isSecond_sentSecond 5
    obtain ⟨head6, rest6, split6, second6⟩ := isSecond_sentSecond 6
    obtain ⟨head7, rest7, split7, second7⟩ := isSecond_sentSecond 7
    have lengths : ∀ second ∈ threeSeconds.map fun sec => (sentSecond sec).map C37Buffer.ofBytes,
        second.length = 120 := by
      simp [sentSecond]
    refine {
      tens := rfl
      room := by decide
      leadIn := ⟨[], ?_, by simp⟩
      consecutive := ?_
      firstFull := fun first second later split => lengths first (by rw [split]; simp)
      lengths := fun second member => (lengths second member).le
      inRange := by decide }
    · rw [dataMessages_sent, List.nil_append, List.filter_eq_self]
      intro frame member
      obtain ⟨second, isSecond, inSecond⟩ := List.mem_flatten.mp member
      obtain ⟨sec, -, rfl⟩ := List.mem_map.mp isSecond
      exact decide_eq_true (isStd_sentSecond inSecond)
    · simp only [threeSeconds, List.map_cons, List.map_nil, split5, split6, split7]
      exact .cons second5 (.cons second6 (.cons second7 (.nil _)))
  full := by
    intro second member
    obtain ⟨sec, -, rfl⟩ := List.mem_map.mp (List.mem_of_mem_tail (List.mem_of_mem_dropLast member))
    rw [List.length_map, sentSecond, List.length_map, List.length_range]

/-- Frames of three seconds that are read one by one. -/
theorem stream_recorded_three
    : ∃ archive recording,
        Archive.Records archive recording 6 7 ["P3001199".toList]
        ∧ HasFrames recording "P3001199".toList 6 [(sentSecond 6).map C37Buffer.ofBytes] := by
  have sent := sentMessages_sentSeconds
  have fits : C37.newChannel.Fits (sentMessages.map Prod.snd) := by
    refine .of_frames C37.newChannel_starts.resting C37.newChannel_starts.pending sent.frames ?_
    intro message member
    simp only [sentMessages, List.mem_map, List.mem_flatMap, sentSecond] at member
    obtain ⟨_, ⟨sec, -, k, -, rfl⟩, rfl⟩ := member
    exact (by decide : 74 ≤ C37.maxBufferBytes)
  obtain ⟨next, final, blocks, reads, performs, records⟩ :=
    stream_recorded sent C37.newChannel_starts rfl fits fun _ => 0
  have isBlock : blocks = [secondBlock 120 ((sentSecond 6).map C37Buffer.ofBytes)] := by
    obtain ⟨next', final', reads', performs'⟩ :=
      sent.blocks C37.newChannel_starts rfl fits fun _ => 0
    obtain rfl : next = next' := Option.some.inj (reads.symm.trans reads')
    exact (Prod.mk.inj (Option.some.inj (performs.symm.trans performs'))).2
  subst isBlock
  obtain ⟨s, reachable, -, idle, empty, accepted_⟩ :=
    @c37_pass "P3001199".toList
      (offeredBuf (fun _ => 0) (secondBlock 120 ((sentSecond 6).map C37Buffer.ofBytes))) rfl
  have archives : Archives "P3001199".toList s
      [secondBlock 120 ((sentSecond 6).map C37Buffer.ofBytes)] :=
    ⟨reachable, idle, empty, accepted_ ▸ .cons ⟨_, rfl⟩ .nil⟩
  have ofSecond : OfSecond 6 ((sentSecond 6).map C37Buffer.ofBytes) :=
    sent.ofSecond (i := 0) rfl
  have holds := @c37Stored_holds (fun _ => 0) _ 6
    (fun _ n => c37Values (sampleAt
      (fullBlock (fun _ => 0) ((sentSecond 6).map C37Buffer.ofBytes)) (5 + 15 * (n - 120 * 6))))
    "P3001199".toList ofSecond fun k _ => by simp only [Nat.add_sub_cancel_left]
  have row : outputs s.history = [c37Stored "P3001199".toList
      (fullBlock (fun _ => 0) ((sentSecond 6).map C37Buffer.ofBytes))] := by
    rw [@Archives.outputs_eq _ _ [_] archives, accepted_, Archiver.fullBlock_eq]
    simp only [List.map_cons, List.map_nil, offeredBuf, secondBlock]
  obtain ⟨recording, isRecorded, hasFrames⟩ := records _ s _ archives (row ▸ serves_second holds)
  exact ⟨_, recording, isRecorded, hasFrames⟩

end Sparcs.Recording
