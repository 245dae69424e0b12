import Sparcs.C37.FrameLoop
import Sparcs.Library.TracedMemory

/-! The three functions that remove a frame from the receive buffer, with the indices that they
read and write. `buffer[1024]` is the member behind the array.
-/

namespace Sparcs.C37

-----------------------------------------------------------------------------------------
-- `removeMsgFromBuffer`, `removeC37MsgFromBuffer`, `removeRawMsgFromBuffer`
-----------------------------------------------------------------------------------------

/-- The variables of the loops. -/
structure Removal where
  buffer : TracedMemory UInt8
  dataBuf : TracedMemory UInt8
  j : Nat

/-- `buffer[j++] = buffer[i];` -/
def moveByte (i : Nat) (r : Removal) : Removal :=
  { r with
    buffer := (r.buffer.touch i).write r.j (r.buffer.cell i)
    j := r.j + 1 }

/-- `dataBuf[j] = buffer[i];`, and the byte is moved. -/
def handOverByte (i : Nat) (r : Removal) : Removal :=
  moveByte i
    { r with
      buffer := r.buffer.touch i
      dataBuf := r.dataBuf.write r.j (r.buffer.cell i) }

namespace C37Buffer

/-- The functions differ in the body of their loops. -/
def removeWith (body : Nat → Removal → Removal) (dataBuf : Nat → UInt8) (b : C37Buffer)
    : Int × C37Buffer × Removal :=
  let r : Removal :=
    { buffer := { cell := byteAt b.buffer }, dataBuf := { cell := dataBuf }, j := 0 }
  if b.bufState ≠ .completeMsg ∨ b.validBufferBytes < b.msgLenBytes
      ∨ maxBufferBytes < b.msgLenBytes then
    (errBufStateMangled, b, r)
  else
    let r := strideLoop 1 (by decide) body (b.validBufferBytes + 1) b.msgLenBytes r
    let b :=
      { b with
        buffer := fun k => r.buffer.cell k.val
        validBufferBytes := b.validBufferBytes - b.msgLenBytes
        bufState := .unknownMsg
        msgLenBytes := 0 }
    (b.bytesLeft, b, r)

/-- `removeMsgFromBuffer`, which has no `dataBuf`. -/
def removeMsg (b : C37Buffer) : Int × C37Buffer × Removal := b.removeWith moveByte fun _ => 0

def removeC37MsgFromBuffer (dataBuf : Nat → UInt8) (b : C37Buffer)
    : Int × C37Buffer × Removal :=
  b.removeWith handOverByte dataBuf

def removeRawMsgFromBuffer (dataBuf : Nat → UInt8) (b : C37Buffer)
    : Int × C37Buffer × Removal :=
  b.removeWith handOverByte dataBuf

end C37Buffer

-----------------------------------------------------------------------------------------
-- The loops
-----------------------------------------------------------------------------------------

/-- After `k` turns: the bytes from `msgLenBytes` on have been read and moved to the front. -/
structure Moved (msgLenBytes : Nat) (buffer : Nat → UInt8) (k : Nat) (r : Removal) : Prop where
  j : r.j = k
  cell : ∀ i, r.buffer.cell i = if i < k then buffer (msgLenBytes + i) else buffer i
  touched : ∀ i, i ∈ r.buffer.touched ↔ i < k ∨ msgLenBytes ≤ i ∧ i < msgLenBytes + k

/-- They have been handed over as well. -/
structure HandedOver (msgLenBytes : Nat) (buffer : Nat → UInt8) (k : Nat) (r : Removal) : Prop where
  cell : ∀ i < k, r.dataBuf.cell i = buffer (msgLenBytes + i)
  touched : ∀ i, i ∈ r.dataBuf.touched ↔ i < k

variable {msgLenBytes k : Nat} {buffer : Nat → UInt8} {r : Removal}

/-- The byte that is read next has not been written yet. -/
theorem Moved.unread (moved : Moved msgLenBytes buffer k r)
    : r.buffer.cell (msgLenBytes + k) = buffer (msgLenBytes + k) := by
  rw [moved.cell, if_neg (by omega)]

theorem Moved.moveByte (moved : Moved msgLenBytes buffer k r)
    : Moved msgLenBytes buffer (k + 1) (moveByte (msgLenBytes + k) r) where
  j := congrArg (· + 1) moved.j
  cell := by
    intro i
    have kept := moved.cell i
    simp only [C37.moveByte, TracedMemory.write, TracedMemory.touch, moved.unread, moved.j, kept]
    grind
  touched := by
    intro i
    have before := moved.touched i
    simp only [C37.moveByte, TracedMemory.write, TracedMemory.touch, List.mem_cons, moved.j, before]
    omega

theorem Moved.handOverByte (moved : Moved msgLenBytes buffer k r)
    : Moved msgLenBytes buffer (k + 1) (handOverByte (msgLenBytes + k) r) where
  j := congrArg (· + 1) moved.j
  cell := moved.moveByte.cell
  touched := by
    intro i
    have before := moved.moveByte.touched i
    have again : i ∈ (C37.handOverByte (msgLenBytes + k) r).buffer.touched
        ↔ i ∈ (C37.moveByte (msgLenBytes + k) r).buffer.touched := by
      simp only [C37.handOverByte, C37.moveByte, TracedMemory.write, TracedMemory.touch,
        List.mem_cons]
      tauto
    rw [again, before]

theorem HandedOver.handOverByte (handed : HandedOver msgLenBytes buffer k r)
    (moved : Moved msgLenBytes buffer k r)
    : HandedOver msgLenBytes buffer (k + 1) (handOverByte (msgLenBytes + k) r) where
  cell := by
    intro i within
    have kept := handed.cell i
    simp only [C37.handOverByte, C37.moveByte, TracedMemory.write, moved.j, moved.unread]
    grind
  touched := by
    intro i
    have before := handed.touched i
    simp only [C37.handOverByte, C37.moveByte, TracedMemory.write, List.mem_cons, moved.j, before]
    omega

namespace C37Buffer

/-- A complete message that fits its buffer. -/
structure HasFrame (b : C37Buffer) : Prop where
  complete : b.bufState = .completeMsg
  fits : b.msgLenBytes ≤ b.validBufferBytes
  valid : b.validBufferBytes ≤ maxBufferBytes

variable {b : C37Buffer} {body : Nat → Removal → Removal}

/-- All three go through the same turns: one for each byte behind the frame, and one more. -/
theorem removeWith_spec (frame : b.HasFrame) (dataBuf : Nat → UInt8)
    {inv : Nat → Removal → Prop}
    (initially
      : inv 0 { buffer := { cell := byteAt b.buffer }, dataBuf := { cell := dataBuf }, j := 0 })
    (step : ∀ k r, inv k r → inv (k + 1) (body (b.msgLenBytes + k) r))
    : ∃ r, inv (b.validBufferBytes + 1 - b.msgLenBytes) r
        ∧ b.removeWith body dataBuf
          = ((maxBufferBytes : Int) - (b.validBufferBytes - b.msgLenBytes : Nat),
              { b with
                buffer := fun k => r.buffer.cell k.val
                validBufferBytes := b.validBufferBytes - b.msgLenBytes
                bufState := .unknownMsg
                msgLenBytes := 0 },
              r) := by
  obtain ⟨complete, fits, valid⟩ := frame
  have proceeds
      : ¬(b.bufState ≠ .completeMsg ∨ b.validBufferBytes < b.msgLenBytes
          ∨ maxBufferBytes < b.msgLenBytes) := by
    simp only [complete, ne_eq, not_true_eq_false, false_or]
    omega
  obtain ⟨k, past, before, holds⟩ := @strideLoop_spec _ 1 (by decide) body
    (b.validBufferBytes + 1) b.msgLenBytes _ inv initially (by
      intro k r _ holds
      rw [Nat.one_mul]
      exact step k r holds)
  have turns : k = b.validBufferBytes + 1 - b.msgLenBytes := by
    have last := before (k - 1)
    omega
  rw [turns] at holds
  refine ⟨_, holds, ?_⟩
  rw [removeWith, if_neg proceeds]
  rfl

/-- What a removal of the frame is to do with the buffer. -/
structure Removes (b : C37Buffer) (result : Int × C37Buffer × Removal) : Prop where
  /-- The valid bytes are those that followed the frame. -/
  pending : result.2.1.pending = b.pending.drop b.msgLenBytes
  /-- The new free space is returned. -/
  space : result.1 = (maxBufferBytes : Int) - result.2.1.validBufferBytes
  /-- No index behind the array is read or written. -/
  inside : result.2.2.buffer.StaysBelow maxBufferBytes

/-- The frame, and nothing else, is put into `dataBuf`. -/
structure HandsOverFrame (b : C37Buffer) (result : Int × C37Buffer × Removal) : Prop where
  written : ∀ i, i ∈ result.2.2.dataBuf.touched ↔ i < b.msgLenBytes
  bytes : ∀ i < b.msgLenBytes, result.2.2.dataBuf.cell i = b.byte i

/-- The frame ends one byte behind the middle of the valid bytes, and the bytes behind it, with
one that is not valid, are the same again.
-/
structure FrameAgain (b : C37Buffer) : Prop where
  half : b.validBufferBytes + 1 = 2 * b.msgLenBytes
  again : ∀ i < b.msgLenBytes, b.byte (b.msgLenBytes + i) = b.byte i

theorem removes_iff (frame : b.HasFrame) {dataBuf : Nat → UInt8}
    (kept : ∀ k r, Moved b.msgLenBytes (byteAt b.buffer) k r →
      Moved b.msgLenBytes (byteAt b.buffer) (k + 1) (body (b.msgLenBytes + k) r))
    : b.Removes (b.removeWith body dataBuf) ↔ b.validBufferBytes < maxBufferBytes := by
  obtain ⟨complete, fits, valid⟩ := frame
  obtain ⟨r, moved, result⟩ := removeWith_spec ⟨complete, fits, valid⟩ dataBuf
    ⟨rfl, fun i => by simp, fun i => by simp⟩ kept
  rw [result]
  constructor
  · intro removes
    refine removes.inside b.validBufferBytes ((moved.touched _).mpr (.inr ?_))
    omega
  · intro room
    refine ⟨?_, rfl, ?_⟩
    · apply List.ext_getElem?
      intro i
      rw [List.getElem?_drop, pending_getElem?, pending_getElem?]
      dsimp only
      by_cases behind : i < b.validBufferBytes - b.msgLenBytes
      · have inBuffer : i < maxBufferBytes := by omega
        rw [if_pos behind, if_pos (by omega), byte, byteAt, dif_pos inBuffer]
        change some (r.buffer.cell i) = some (byteAt b.buffer (b.msgLenBytes + i))
        rw [moved.cell, if_pos (by omega)]
      · rw [if_neg behind, if_neg (by omega)]
    · intro i accessed
      have within := (moved.touched i).mp accessed
      omega

theorem handsOverFrame_iff (frame : b.HasFrame) (dataBuf : Nat → UInt8)
    : b.HandsOverFrame (b.removeWith handOverByte dataBuf) ↔ b.FrameAgain := by
  obtain ⟨complete, fits, valid⟩ := frame
  obtain ⟨r, ⟨_, handed⟩, result⟩ := @removeWith_spec b handOverByte ⟨complete, fits, valid⟩
    dataBuf
    (fun k r => Moved b.msgLenBytes (byteAt b.buffer) k r
      ∧ HandedOver b.msgLenBytes (byteAt b.buffer) k r)
    ⟨⟨rfl, fun i => by simp, fun i => by simp⟩, fun i inside => by omega, fun i => by simp⟩
    (fun k r holds => ⟨holds.1.handOverByte, holds.2.handOverByte holds.1⟩)
  rw [result]
  constructor
  · intro handsOver
    have written (i : Nat) : i < b.validBufferBytes + 1 - b.msgLenBytes ↔ i < b.msgLenBytes :=
      (handed.touched i).symm.trans (handsOver.written i)
    have half : b.validBufferBytes + 1 = 2 * b.msgLenBytes := by
      have count := written (b.validBufferBytes + 1 - b.msgLenBytes)
      have more := written b.msgLenBytes
      omega
    refine ⟨half, ?_⟩
    intro i inFrame
    rw [← handsOver.bytes i inFrame]
    exact (handed.cell i (by omega)).symm
  · intro again
    obtain ⟨half, again⟩ := again
    refine ⟨?_, ?_⟩
    · intro i
      rw [handed.touched]
      omega
    · intro i inFrame
      rw [← again i inFrame]
      exact handed.cell i (by omega)

/-- The model without accesses removes the frame in the same way. -/
theorem removeMsg_eq (frame : b.HasFrame)
    : (b.removeMsg.1, b.removeMsg.2.1) = b.removeMsgFromBuffer := by
  obtain ⟨complete, fits, valid⟩ := frame
  obtain ⟨r, moved, result⟩ := @removeWith_spec b moveByte ⟨complete, fits, valid⟩ (fun _ => 0)
    (Moved b.msgLenBytes (byteAt b.buffer)) ⟨rfl, fun i => by simp, fun i => by simp⟩
    (fun _ _ => Moved.moveByte)
  have proceeds
      : ¬(b.bufState ≠ .completeMsg ∨ b.validBufferBytes < b.msgLenBytes
          ∨ maxBufferBytes < b.msgLenBytes) := by
    simp only [complete, ne_eq, not_true_eq_false, false_or]
    omega
  have same : (fun k : Fin maxBufferBytes => r.buffer.cell k.val)
      = copyDown b.msgLenBytes b.buffer (b.validBufferBytes + 1 - b.msgLenBytes) := by
    funext k
    have copied := byteAt_copyDown b.msgLenBytes b.buffer
      (b.validBufferBytes + 1 - b.msgLenBytes) k.val
    rw [moved.cell, ← copied, byteAt, dif_pos k.isLt]
  rw [removeMsg, result, removeMsgFromBuffer, if_neg proceeds, ← same]
  rfl

/-- The frame is removed as it is to be exactly while the buffer is not full. The functions with
a `dataBuf` put the bytes behind the frame into it, which are the frame's own only where the
frame comes twice.
-/
theorem removal_iff (frame : b.HasFrame) (dataBuf : Nat → UInt8)
    : (b.Removes b.removeMsg ↔ b.validBufferBytes < maxBufferBytes)
      ∧ (b.Removes (b.removeC37MsgFromBuffer dataBuf)
          ∧ b.HandsOverFrame (b.removeC37MsgFromBuffer dataBuf)
        ↔ b.validBufferBytes < maxBufferBytes ∧ b.FrameAgain)
      ∧ (b.Removes (b.removeRawMsgFromBuffer dataBuf)
          ∧ b.HandsOverFrame (b.removeRawMsgFromBuffer dataBuf)
        ↔ b.validBufferBytes < maxBufferBytes ∧ b.FrameAgain) :=
  have handsOver := and_congr (removes_iff frame fun _ _ => Moved.handOverByte)
    (handsOverFrame_iff frame dataBuf)
  ⟨removes_iff frame fun _ _ => Moved.moveByte, handsOver, handsOver⟩

/-- A full buffer with a frame of four bytes. -/
def fullBuffer : C37Buffer :=
  { buffer := fun k => if k.val < 4 then 1 else 2
    msgType := 0
    msgLenBytes := 4
    validBufferBytes := 1024
    bufState := .completeMsg }

/-- A frame of four bytes that comes twice, the second time with one byte missing. -/
def frameTwice : C37Buffer :=
  { buffer := fun _ => 1
    msgType := 0
    msgLenBytes := 4
    validBufferBytes := 7
    bufState := .completeMsg }

/-- All three remove this frame, and it is its own bytes that are handed over. -/
theorem removal_iff_twice
    : frameTwice.Removes frameTwice.removeMsg
      ∧ (frameTwice.Removes (frameTwice.removeC37MsgFromBuffer fun _ => 0)
        ∧ frameTwice.HandsOverFrame (frameTwice.removeC37MsgFromBuffer fun _ => 0))
      ∧ (frameTwice.Removes (frameTwice.removeRawMsgFromBuffer fun _ => 0)
        ∧ frameTwice.HandsOverFrame (frameTwice.removeRawMsgFromBuffer fun _ => 0)) := by
  have room : frameTwice.validBufferBytes < maxBufferBytes := by decide
  have again : frameTwice.FrameAgain := ⟨rfl, by decide⟩
  obtain ⟨removes, handsOver, handsOverRaw⟩ := removal_iff (b := frameTwice)
    ⟨rfl, by decide, by decide⟩ fun _ => 0
  exact ⟨removes.mpr room, handsOver.mpr ⟨room, again⟩, handsOverRaw.mpr ⟨room, again⟩⟩

/-- From a full buffer all three read behind the array, and `dataBuf` gets other bytes. -/
theorem fullBuffer_not_removed
    : ¬fullBuffer.Removes fullBuffer.removeMsg
      ∧ ¬fullBuffer.Removes (fullBuffer.removeC37MsgFromBuffer fun _ => 0)
      ∧ ¬fullBuffer.Removes (fullBuffer.removeRawMsgFromBuffer fun _ => 0)
      ∧ ¬fullBuffer.HandsOverFrame (fullBuffer.removeC37MsgFromBuffer fun _ => 0)
      ∧ ¬fullBuffer.HandsOverFrame (fullBuffer.removeRawMsgFromBuffer fun _ => 0) := by
  have frame : fullBuffer.HasFrame := ⟨rfl, by decide, by decide⟩
  have moves := mt (@removes_iff fullBuffer moveByte frame (fun _ => 0) fun _ _ =>
    Moved.moveByte).mp (by decide)
  have copies := mt (@removes_iff fullBuffer handOverByte frame (fun _ => 0) fun _ _ =>
    Moved.handOverByte).mp (by decide)
  have other := mt (handsOverFrame_iff frame fun _ => 0).mp fun again =>
    absurd again.half (by decide)
  exact ⟨moves, copies, copies, other, other⟩

end C37Buffer

end Sparcs.C37
