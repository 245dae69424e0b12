import Mathlib

/-! `C37_Buffer`: the receive buffer of a C37.118 connection and the constants of
`C37_MsgFormats.h` that its users share.
-/

namespace Sparcs.C37

-----------------------------------------------------------------------------------------
-- Message formats
-----------------------------------------------------------------------------------------

def syncIndx : Nat := 0
def framesizeIndx : Nat := 2
def socIndx : Nat := 6
def fracsecIndx : Nat := 10
def firstPhasorsIndx : Nat := 16

def dataMsgTypeValue : Nat := 0
def cfg1MsgTypeValue : Nat := 2
def cfg2MsgTypeValue : Nat := 3

def errMsgLargerThanBuffer : Int := -1
def errExamBufCallOutOfSeq : Int := -2
def errBufStateMangled : Int := -4

-----------------------------------------------------------------------------------------
-- State
-----------------------------------------------------------------------------------------

/-- `DEFAULT_BUFFER_LEN`, the value that `maxBufferBytes` always holds. -/
def maxBufferBytes : Nat := 1024

/-- `C37_Buf_STATE` -/
inductive C37BufState where
  | unknownMsg
  | partialMsg
  | completeMsg
  deriving DecidableEq, Repr

/-- The array `buffer`. -/
abbrev Memory := Fin maxBufferBytes → UInt8

/-- The constructor leaves `buffer` and `msgType` as they are in memory. -/
structure C37Buffer where
  buffer : Memory
  msgType : Nat
  msgLenBytes : Nat := 0
  validBufferBytes : Nat := 0
  bufState : C37BufState := .unknownMsg
  msgCounter : UInt32 := 0

/-- `buffer[i]`. The byte behind the array is the low byte of `maxBufferBytes`, a zero. -/
def byteAt (buffer : Memory) (i : Nat) : UInt8 :=
  if inside : i < maxBufferBytes then buffer ⟨i, inside⟩ else 0

/-- `buffer[i] = value`, which inside the source's loops only ever meets `i` in the array
or writes back what was read there.
-/
def setByte (buffer : Memory) (i : Nat) (value : UInt8) : Memory :=
  fun k => if k.val = i then value else buffer k

def C37Buffer.byte (b : C37Buffer) (i : Nat) : UInt8 :=
  byteAt b.buffer i

-----------------------------------------------------------------------------------------
-- Operations
-----------------------------------------------------------------------------------------

def C37Buffer.init (b : C37Buffer) : C37Buffer :=
  { b with
    validBufferBytes := 0
    bufState := .unknownMsg
    msgLenBytes := 0
    msgCounter := 0 }

def C37Buffer.setBytesReceived (b : C37Buffer) (bytesReceived : Nat) : C37Buffer :=
  { b with validBufferBytes := b.validBufferBytes + bytesReceived }

/-- The bytes left in the buffer, as the source returns them. -/
def C37Buffer.bytesLeft (b : C37Buffer) : Int :=
  (maxBufferBytes : Int) - b.validBufferBytes

/-- The case `partialMsg` of `examineBuffer`, where `msgLenBytes` is valid. -/
def C37Buffer.examinePartial (b : C37Buffer) : Int × C37Buffer :=
  if b.msgLenBytes ≤ b.validBufferBytes then
    (0, { b with bufState := .completeMsg, msgCounter := b.msgCounter + 1 })
  else
    (b.bytesLeft, b)

/-- `examineBuffer`; the case `unknownMsg` falls through to `partialMsg`. -/
def C37Buffer.examineBuffer (b : C37Buffer) : Int × C37Buffer :=
  match b.bufState with
  | .unknownMsg =>
      if 4 ≤ b.validBufferBytes then
        let b :=
          { b with
            msgLenBytes :=
              (b.byte (framesizeIndx + 1)).toNat + (b.byte framesizeIndx).toNat <<< 8
            msgType := ((b.byte (syncIndx + 1) &&& 0x70) >>> 4).toNat }
        if maxBufferBytes < b.msgLenBytes then (errMsgLargerThanBuffer, b)
        else C37Buffer.examinePartial { b with bufState := .partialMsg }
      else
        (b.bytesLeft, b)
  | .partialMsg => b.examinePartial
  | .completeMsg => (errExamBufCallOutOfSeq, b)

/-- The first turns of the loop of `removeMsgFromBuffer`, where `j` counts them and `i` is
`msgLenBytes + j`.
-/
def copyDown (msgLenBytes : Nat) (buffer : Memory) : Nat → Memory
  | 0 => buffer
  | j + 1 =>
      let buffer := copyDown msgLenBytes buffer j
      setByte buffer j (byteAt buffer (msgLenBytes + j))

/-- `removeMsgFromBuffer`. The loop copies one byte more than there are valid ones. -/
def C37Buffer.removeMsgFromBuffer (b : C37Buffer) : Int × C37Buffer :=
  if b.bufState ≠ .completeMsg ∨ b.validBufferBytes < b.msgLenBytes
      ∨ maxBufferBytes < b.msgLenBytes then
    (errBufStateMangled, b)
  else
    let b :=
      { b with
        buffer := copyDown b.msgLenBytes b.buffer (b.validBufferBytes + 1 - b.msgLenBytes)
        validBufferBytes := b.validBufferBytes - b.msgLenBytes
        bufState := .unknownMsg
        msgLenBytes := 0 }
    (b.bytesLeft, b)

/-- The length of the space that `getBufferDesc` offers, from the first invalid byte on. -/
def C37Buffer.getBufferDesc (b : C37Buffer) : Nat :=
  maxBufferBytes - b.validBufferBytes

/-- A read of these bytes into the space that `getBufferDesc` offers. -/
def C37Buffer.fill (b : C37Buffer) (chunk : List UInt8) : C37Buffer :=
  { b with
    buffer := fun k =>
      if k.val < b.validBufferBytes then b.buffer k
      else (chunk[k.val - b.validBufferBytes]?).getD (b.buffer k) }

-----------------------------------------------------------------------------------------
-- The valid bytes
-----------------------------------------------------------------------------------------

/-- The first `validBufferBytes` of the buffer. -/
def C37Buffer.pending (b : C37Buffer) : List UInt8 :=
  (List.range b.validBufferBytes).map b.byte

/-- The valid bytes lie inside the array. -/
def C37Buffer.Valid (b : C37Buffer) : Prop :=
  b.validBufferBytes ≤ maxBufferBytes

/-- After some turns the loop has moved exactly the bytes it has passed, by induction over
the turns: the byte it reads next is one it has not written yet.
-/
theorem byteAt_copyDown (msgLenBytes : Nat) (buffer : Memory) (turns i : Nat)
    : byteAt (copyDown msgLenBytes buffer turns) i
      = if i < turns then byteAt buffer (msgLenBytes + i) else byteAt buffer i := by
  induction turns generalizing i with
  | zero => rfl
  | succ j ih =>
      have read : byteAt (copyDown msgLenBytes buffer j) (msgLenBytes + j)
          = byteAt buffer (msgLenBytes + j) := by
        rw [ih, if_neg (by omega)]
      have kept := ih i
      rw [copyDown, read]
      by_cases inBuffer : i < maxBufferBytes
      · by_cases written : i = j
        · subst written
          simp [byteAt, setByte, inBuffer]
        · have same : i < j + 1 ↔ i < j := by omega
          simp only [same, ← kept]
          simp [byteAt, setByte, inBuffer, written]
      · have outside : ¬msgLenBytes + i < maxBufferBytes := by omega
        simp [byteAt, inBuffer, outside]

namespace C37Buffer

variable {b : C37Buffer}

theorem pending_length : b.pending.length = b.validBufferBytes := by
  rw [pending, List.length_map, List.length_range]

theorem pending_getElem? (i : Nat)
    : b.pending[i]? = if i < b.validBufferBytes then some (b.byte i) else none := by
  rw [pending, List.getElem?_map]
  split_ifs with inside
  · rw [List.getElem?_range inside, Option.map_some]
  · rw [List.getElem?_eq_none (by simpa using inside), Option.map_none]

/-- Reading appends the chunk to the valid bytes. -/
theorem fill_pending {chunk : List UInt8} (fits : chunk.length ≤ b.getBufferDesc)
    : ((b.fill chunk).setBytesReceived chunk.length).pending = b.pending ++ chunk := by
  apply List.ext_getElem?
  intro i
  rw [pending_getElem?, List.getElem?_append, pending_length, pending_getElem?]
  change (if i < b.validBufferBytes + chunk.length then _ else _) = _
  rw [getBufferDesc] at fits
  by_cases old : i < b.validBufferBytes
  · rw [if_pos (by omega), if_pos old, if_pos old]
    simp [setBytesReceived, fill, byte, byteAt, old]
  · rw [if_neg old]
    split_ifs with new
    · have inBuffer : i < maxBufferBytes := by omega
      have inChunk : i - b.validBufferBytes < chunk.length := by omega
      simp [setBytesReceived, fill, byte, byteAt, inBuffer, old, inChunk]
    · rw [List.getElem?_eq_none (by omega)]

end C37Buffer

end Sparcs.C37
