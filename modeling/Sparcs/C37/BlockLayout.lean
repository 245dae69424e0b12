import Sparcs.C37.Packing
import Sparcs.C37.Seconds

/-! The records of a block against the layout that `oneSecDataFormat.h` declares, and the
writes against the memory that is allocated for them.
-/

namespace Sparcs.C37

open Blocks (Block)

def secblkTime : Nat := 4
def secblkFracsec : Nat := 8
def secblkDataStart : Nat := 12

/-- The sixty bytes of a record have the frame's SOC, FRACSEC and phasors at the declared
places.
-/
structure IsLaidOut (recordByte : Nat → UInt8) (frame : C37Buffer) : Prop where
  time : ∀ j < 4, recordByte (secblkTime + j) = frame.byte (socIndx + j)
  fracsec : ∀ j < 4, recordByte (secblkFracsec + j) = frame.byte (fracsecIndx + j)
  phasors :
    ∀ word < 12, ∀ j < 4,
      recordByte (secblkDataStart + 4 * word + j) = frame.byte (firstPhasorsIndx + 4 * word + j)

/-- The bytes of record `k`. -/
def recordByte (tBuf : Block) (k j : Nat) : UInt8 :=
  tBuf.byte (4 + secblkLenBytes * k + j)

/-- Record `k` of the block is frame `k`, as the layout has it. -/
def FollowsLayout (tBuf : Block) (frames : List C37Buffer) : Prop :=
  ∀ k frame, frames[k]? = some frame → IsLaidOut (recordByte tBuf k) frame

/-- The block that is built of frames after they were saved. -/
def secondBuf (malloc : Nat → UInt8) (sampleCnt : UInt16) (frames : List C37Buffer) : Block :=
  (EventBuffer.mk (frames.map savedEvent) sampleCnt).dataBuf malloc

/-- The records follow the layout, and no byte is written past the memory of the block or past
that of a saved frame.
-/
structure IsDeclared (malloc : Nat → UInt8) (sampleCnt : UInt16) (frames : List C37Buffer)
    : Prop where
  layout : FollowsLayout (secondBuf malloc sampleCnt frames) frames
  blockInside : (secondBuf malloc sampleCnt frames).beyond = 0
  savesInside : ∀ frame ∈ frames, (savedEvent frame).beyond = 0

/-- Bytes that a record takes from four places too early in the frame are repeated there. -/
def RepeatsFields (frame : C37Buffer) : Prop :=
  ∀ i < secblkLenBytes, 2 ≤ i → i ≠ 10 → i ≠ 11 → frame.byte (i + 4) = frame.byte i

/-- Four bytes more than there are allocated are copied behind the length; of a frame that is
shorter than the length field, that passes the end too.
-/
theorem savedEvent_beyond (frame : C37Buffer)
    : (savedEvent frame).beyond = 4 + (4 - frame.msgLenBytes) := by
  change 0 + ((Blocks.littleEndian 8 frame.msgLenBytes).length - (frame.msgLenBytes + 4 - 0))
      + (((List.range (frame.msgLenBytes + 4)).map frame.byte).length
        - (frame.msgLenBytes + 4 - 4)) = _
  rw [Blocks.littleEndian_length, List.length_map, List.length_range]
  omega

section Layout

variable (malloc : Nat → UInt8) {sampleCnt : UInt16} {frames : List C37Buffer}

/-- The bytes of a record are those of the saved frame. -/
theorem recordByte_secondBuf {k j : Nat} {frame : C37Buffer}
    (atMost : frames.length ≤ sampleCnt.toNat) (isFrame : frames[k]? = some frame)
    (within : j < secblkLenBytes)
    : some (recordByte (secondBuf malloc sampleCnt frames) k j)
      = (record (savedEvent frame))[j]? := by
  have inList : k < frames.length := (List.getElem?_eq_some_iff.mp isFrame).1
  have event : (frames.map savedEvent)[k]? = some (savedEvent frame) := by
    rw [List.getElem?_map, isFrame, Option.map_some]
  have byte := EventBuffer.dataBuf_byte malloc ⟨frames.map savedEvent, sampleCnt⟩ event within
    (Nat.lt_of_lt_of_le inList atMost)
  rw [recordByte, Nat.add_assoc]
  exact byte

/-- All fields of a record are taken from four places too early in the frame. -/
theorem recordByte_early {k : Nat} {frame : C37Buffer} (atMost : frames.length ≤ sampleCnt.toNat)
    (isFrame : frames[k]? = some frame) (std : IsStd frame)
    : (∀ j, 4 ≤ j → j < 12
        → recordByte (secondBuf malloc sampleCnt frames) k j = frame.byte (j - 2))
      ∧ ∀ j, 12 ≤ j → j < secblkLenBytes
        → recordByte (secondBuf malloc sampleCnt frames) k j = frame.byte j := by
  constructor
  · intro j lower upper
    have byte := recordByte_secondBuf malloc atMost isFrame
      (upper.trans (by decide) : j < secblkLenBytes)
    rw [record_time std lower upper] at byte
    exact Option.some.inj byte
  · intro j lower upper
    have byte := recordByte_secondBuf malloc atMost isFrame upper
    rw [record_phasors std lower upper] at byte
    exact Option.some.inj byte

/-- A record is laid out as declared just when the frame hides the shift of its fields. -/
theorem isLaidOut_iff {k : Nat} {frame : C37Buffer} (atMost : frames.length ≤ sampleCnt.toNat)
    (isFrame : frames[k]? = some frame) (std : IsStd frame)
    : IsLaidOut (recordByte (secondBuf malloc sampleCnt frames) k) frame
      ↔ RepeatsFields frame := by
  obtain ⟨early, sameIndex⟩ := recordByte_early malloc atMost isFrame std
  constructor
  · intro laidOut i within lower notTen notEleven
    rw [secblkLenBytes] at within
    rcases Nat.lt_or_ge i 6 with inTime | afterTime
    · have sent := laidOut.time (i - 2) (by omega)
      rw [early _ (by simp [secblkTime]) (by simp only [secblkTime]; omega)] at sent
      have field : secblkTime + (i - 2) - 2 = i := by simp only [secblkTime]; omega
      have place : socIndx + (i - 2) = i + 4 := by simp only [socIndx]; omega
      rw [field, place] at sent
      exact sent.symm
    · rcases Nat.lt_or_ge i 10 with inFraction | afterFraction
      · have sent := laidOut.fracsec (i - 6) (by omega)
        rw [early _ (by simp only [secblkFracsec]; omega) (by simp only [secblkFracsec]; omega)]
          at sent
        have field : secblkFracsec + (i - 6) - 2 = i := by simp only [secblkFracsec]; omega
        have place : fracsecIndx + (i - 6) = i + 4 := by simp only [fracsecIndx]; omega
        rw [field, place] at sent
        exact sent.symm
      · have sent := laidOut.phasors ((i - 12) / 4) (by omega) ((i - 12) % 4) (by omega)
        have field : secblkDataStart + 4 * ((i - 12) / 4) + (i - 12) % 4 = i := by
          simp only [secblkDataStart]
          omega
        have place : firstPhasorsIndx + 4 * ((i - 12) / 4) + (i - 12) % 4 = i + 4 := by
          simp only [firstPhasorsIndx]
          omega
        rw [field, place, sameIndex i (by omega) within] at sent
        exact sent.symm
  · intro repeats
    constructor
    · intro j within
      rw [early _ (by simp [secblkTime]) (by simp only [secblkTime]; omega)]
      have byte := repeats (j + 2) (by simp only [secblkLenBytes]; omega) (by omega) (by omega)
        (by omega)
      have field : secblkTime + j - 2 = j + 2 := by simp only [secblkTime]; omega
      have place : socIndx + j = j + 2 + 4 := by simp only [socIndx]; omega
      rw [field, place, byte]
    · intro j within
      rw [early _ (by simp only [secblkFracsec]; omega) (by simp only [secblkFracsec]; omega)]
      have byte := repeats (j + 6) (by simp only [secblkLenBytes]; omega) (by omega) (by omega)
        (by omega)
      have field : secblkFracsec + j - 2 = j + 6 := by simp only [secblkFracsec]; omega
      have place : fracsecIndx + j = j + 6 + 4 := by simp only [fracsecIndx]; omega
      rw [field, place, byte]
    · intro word bound j within
      have byte := repeats (12 + 4 * word + j) (by simp only [secblkLenBytes]; omega) (by omega)
        (by omega) (by omega)
      have place : firstPhasorsIndx + 4 * word + j = 12 + 4 * word + j + 4 := by
        simp only [firstPhasorsIndx]
        omega
      rw [secblkDataStart, sameIndex _ (by omega) (by simp only [secblkLenBytes]; omega), place,
        byte]

theorem followsLayout_iff (std : ∀ frame ∈ frames, IsStd frame)
    (atMost : frames.length ≤ sampleCnt.toNat)
    : FollowsLayout (secondBuf malloc sampleCnt frames) frames
      ↔ ∀ frame ∈ frames, RepeatsFields frame := by
  constructor
  · intro follows frame member
    obtain ⟨k, isFrame⟩ := List.mem_iff_getElem?.mp member
    exact (isLaidOut_iff malloc atMost isFrame (std frame member)).mp (follows k frame isFrame)
  · intro repeats k frame isFrame
    have member := List.mem_iff_getElem?.mpr ⟨k, isFrame⟩
    exact (isLaidOut_iff malloc atMost isFrame (std frame member)).mpr (repeats frame member)

/-- No more frames than a full second has fit into the block. -/
theorem secondBuf_beyond (atMost : frames.length ≤ sampleCnt.toNat)
    : (secondBuf malloc sampleCnt frames).beyond = 0 := by
  rw [secondBuf, EventBuffer.dataBuf_beyond, List.length_map]
  exact Nat.sub_eq_zero_of_le (Nat.mul_le_mul_left secblkLenBytes atMost)

end Layout

/-- A block of at most `sampleCnt` frames keeps to its memory, and follows the layout only where
the frames repeat themselves; but every saved frame passes the end of its own memory. So
layout and memory are as declared for no frames only.
-/
theorem isDeclared_iff (malloc : Nat → UInt8) (sampleCnt : UInt16) (frames : List C37Buffer)
    (std : ∀ frame ∈ frames, IsStd frame) (atMost : frames.length ≤ sampleCnt.toNat)
    : (IsDeclared malloc sampleCnt frames ↔ frames = [])
      ∧ (FollowsLayout (secondBuf malloc sampleCnt frames) frames
        ↔ ∀ frame ∈ frames, RepeatsFields frame)
      ∧ (secondBuf malloc sampleCnt frames).beyond = 0
      ∧ ∀ frame : C37Buffer, 4 ≤ (savedEvent frame).beyond := by
  refine ⟨⟨?_, ?_⟩, followsLayout_iff malloc std atMost, secondBuf_beyond malloc atMost, ?_⟩
  · intro declared
    cases frames with
    | nil => rfl
    | cons frame rest =>
        have inside := declared.savesInside frame (List.mem_cons_self ..)
        rw [savedEvent_beyond] at inside
        omega
  · intro empty
    refine ⟨(followsLayout_iff malloc std atMost).mpr ?_, secondBuf_beyond malloc atMost, ?_⟩ <;>
      simp [empty]
  · intro frame
    rw [savedEvent_beyond]
    omega

/-- A frame whose bytes are all the same. -/
def evenFrame : C37Buffer :=
  { buffer := fun _ => 7, msgType := dataMsgTypeValue, msgLenBytes := c37DatumTypicalLen }

/-- A block with room for three frames follows the layout for two even frames, and no longer
when the second one tells the time; memory is passed in both cases.
-/
theorem isDeclared_iff_evenFrame
    : FollowsLayout (secondBuf (fun _ => 0) 3 [evenFrame, evenFrame]) [evenFrame, evenFrame]
      ∧ ¬IsDeclared (fun _ => 0) 3 [evenFrame, evenFrame]
      ∧ ¬FollowsLayout (secondBuf (fun _ => 0) 3 [evenFrame, frameAt 5 0])
          [evenFrame, frameAt 5 0]
      ∧ (secondBuf (fun _ => 0) 3 [evenFrame, frameAt 5 0]).beyond = 0 := by
  have even : ∀ frame ∈ [evenFrame, evenFrame], IsStd frame := by decide
  have timed : ∀ frame ∈ [evenFrame, frameAt 5 0], IsStd frame := by decide
  have repeats : RepeatsFields evenFrame := by
    intro i within _ _ _
    rw [secblkLenBytes] at within
    have early : i + 4 < maxBufferBytes := by simp only [maxBufferBytes]; omega
    simp [C37Buffer.byte, evenFrame, byteAt, early, show i < maxBufferBytes by omega]
  obtain ⟨declared, layout, -, -⟩ := isDeclared_iff (fun _ => 0) 3 [evenFrame, evenFrame] even
    (by decide)
  obtain ⟨-, layout', inside, -⟩ := isDeclared_iff (fun _ => 0) 3 [evenFrame, frameAt 5 0] timed
    (by decide)
  refine ⟨layout.mpr (by simpa using repeats), ?_, ?_, inside⟩
  · rw [declared]
    simp
  · rw [layout']
    intro all
    -- The last byte of the second is byte 9 of the frame.
    exact absurd (all (frameAt 5 0) (by simp) 5 (by decide) (by decide) (by decide) (by decide))
      (by decide +kernel)

/-- A frame of the second 5 is saved with four bytes past its memory, and its record has zeros
for the second.
-/
theorem frameAt_not_declared
    : (frameAt 5 0).byte (socIndx + 3) = 5
      ∧ recordByte (secondBuf (fun _ => 0) 1 [frameAt 5 0]) 0 (secblkTime + 3) = 0
      ∧ (savedEvent (frameAt 5 0)).beyond = 4
      ∧ ¬IsDeclared (fun _ => 0) 1 [frameAt 5 0] := by
  refine ⟨by decide +kernel, by decide +kernel, savedEvent_beyond _, ?_⟩
  intro declared
  have inside := declared.savesInside (frameAt 5 0) (List.mem_singleton_self _)
  rw [savedEvent_beyond] at inside
  omega

end Sparcs.C37
