import Sparcs.Library.Blocks
import Sparcs.Library.OutputRun
import Sparcs.C37.DataChannel

/-! `C37_Reformat`: data frames are collected into blocks of one second. -/

namespace Sparcs.C37

open Blocks (Block)

/-- `C37_DATUM_TYPICAL_LEN` -/
def c37DatumTypicalLen : Nat := 74

/-- `SECBLK_LEN_BYTES` -/
def secblkLenBytes : Nat := 60

/-- The length of `fracSecValues`. -/
def fracSecValuesLen : Nat := 512

/-- `states` -/
inductive ReformatState where
  | syncToSec
  | fillBuffer
  deriving DecidableEq, Repr

/-- The array `fracSecValues` is left as it is in memory by the constructor. -/
structure C37Reformat where
  fracSecValues : Nat → UInt32
  currentState : ReformatState := .syncToSec
  syncStarted : Bool := false
  sampleCntValid : Bool := false
  sampleCnt : UInt16 := 0
  currentSampleCnt : UInt16 := 0
  previousSec : UInt32 := 0
  presentSec : UInt32 := 0
  c37eventBuf : List Block := []
  nonStdC37events : UInt64 := 0
  syncToSecAborts : UInt64 := 0
  missingC37events : UInt64 := 0
  extendedMissingC37events : UInt64 := 0
  c37eventSequenceFailures : UInt64 := 0
  processedC37oneSecBuffers : UInt64 := 0

-----------------------------------------------------------------------------------------
-- Saved events and blocks of one second
-----------------------------------------------------------------------------------------

/-- The array that `saveC37event` queues: `make_unique` clears it, the length is stored as
eight bytes, and `memcpy` copies four bytes more than there is room for.
-/
def savedEvent (c37Buf : C37Buffer) : Block :=
  ((Blocks.alloc (c37Buf.msgLenBytes + 4) fun _ => 0).write 0
      (Blocks.littleEndian 8 c37Buf.msgLenBytes)).write 4
    ((List.range (c37Buf.msgLenBytes + 4)).map c37Buf.byte)

def C37Reformat.saveC37event (r : C37Reformat) (c37Buf : C37Buffer) : C37Reformat :=
  { r with c37eventBuf := r.c37eventBuf ++ [savedEvent c37Buf] }

/-- What `processEventBuffer` works on: the saved events and the count of a full second. -/
structure EventBuffer where
  events : List Block
  sampleCnt : UInt16

/-- `resultingBufByteLen` -/
def EventBuffer.byteLen (e : EventBuffer) : Nat :=
  secblkLenBytes * e.sampleCnt.toNat + 4

/-- One turn of the loop over the saved events, with `p32` at byte index `p32` of `tBuf`.
All offsets into `pin` are those of a frame, although four length bytes precede it.
-/
def packEvent (tBuf : Block) (p32 : Nat) (pin : Block) : Block :=
  let tBuf := tBuf.write p32 (Blocks.littleEndian 2 secblkLenBytes)
  let tBuf := tBuf.write (p32 + 2)
    (Blocks.littleEndian 2 (pin.byte (fracsecIndx + 3)).toNat)
  let tBuf := tBuf.write (p32 + 4) (pin.read socIndx 4)
  let tBuf := tBuf.write (p32 + 8) (pin.read fracsecIndx 4)
  (List.range 12).foldl
    (fun tBuf i => tBuf.write (p32 + 12 + 4 * i) (pin.read (firstPhasorsIndx + i * 4) 4))
    tBuf

def packEvents : List Block → Block → (p32 : Nat) → Block
  | [], tBuf, _ => tBuf
  | pin :: rest, tBuf, p32 =>
      packEvents rest (packEvent tBuf p32 pin) (p32 + secblkLenBytes)

/-- The buffer that is offered to the other services, in memory that `malloc` leaves as it
is.
-/
def EventBuffer.dataBuf (malloc : Nat → UInt8) (e : EventBuffer) : Block :=
  packEvents e.events
    ((Blocks.alloc e.byteLen malloc).write 0 (Blocks.littleEndian 4 e.byteLen)) 4

/-- `processEventBuffer`, with what it offers through `postProcessUPMUdata`. -/
def C37Reformat.processEventBuffer (r : C37Reformat) : C37Reformat × EventBuffer :=
  ({ r with c37eventBuf := [] }, ⟨r.c37eventBuf, r.sampleCnt⟩)

-----------------------------------------------------------------------------------------
-- The two states
-----------------------------------------------------------------------------------------

/-- A frame in the state `syncToSec`; `none` is a write outside `fracSecValues`. -/
def C37Reformat.syncStep (r : C37Reformat) (fracSec sec : UInt32) (c37Buf : C37Buffer)
    : Option C37Reformat :=
  if ¬r.syncStarted then
    if fracSec = 0 then
      some
        { r with
          syncStarted := true
          fracSecValues := Function.update r.fracSecValues 0 0
          presentSec := sec
          sampleCnt := 1 }
    else
      some r
  else
    -- The condition is `(sec = presentSec + 1) && (fracSec == 0)`, with an assignment.
    let sec := r.presentSec + 1
    if sec ≠ 0 ∧ fracSec = 0 then
      if r.sampleCnt % 10 = 0 then
        let r := C37Reformat.saveC37event
          { r with
            sampleCntValid := true
            currentState := .fillBuffer
            c37eventBuf := [] }
          c37Buf
        some
          { r with
            currentSampleCnt := 1
            previousSec := r.presentSec
            presentSec := sec }
      else
        some
          { r with
            syncStarted := false
            sampleCnt := 0
            syncToSecAborts := r.syncToSecAborts + 1 }
    else if sec < r.presentSec then
      some
        { r with
          syncStarted := false
          sampleCnt := 0
          syncToSecAborts := r.syncToSecAborts + 1 }
    else if r.sampleCnt.toNat < fracSecValuesLen then
      some
        { r with
          fracSecValues := Function.update r.fracSecValues r.sampleCnt.toNat fracSec
          sampleCnt := r.sampleCnt + 1 }
    else
      none

/-- A frame in the state `fillBuffer`, with the blocks that it completes. The comparison
of the frame with `fracSecValues` only selects a message on the console.
-/
def C37Reformat.fillStep (r : C37Reformat) (fracSec sec : UInt32) (c37Buf : C37Buffer)
    : C37Reformat × List EventBuffer :=
  if sec = r.presentSec ∧ fracSec ≠ 0 then
    let r := r.saveC37event c37Buf
    ({ r with currentSampleCnt := r.currentSampleCnt + 1 }, [])
  else if sec = r.presentSec + 1 ∧ fracSec = 0 then
    let r :=
      { r with
        missingC37events :=
          if r.currentSampleCnt ≠ r.sampleCnt then r.missingC37events + 1
          else r.missingC37events
        processedC37oneSecBuffers := r.processedC37oneSecBuffers + 1 }
    let (r, block) := r.processEventBuffer
    let r := r.saveC37event c37Buf
    ({ r with currentSampleCnt := 1, previousSec := r.presentSec, presentSec := sec },
      [block])
  else
    let r :=
      { r with
        extendedMissingC37events := r.extendedMissingC37events + 1
        previousSec := r.presentSec
        presentSec := sec }
    match (List.range r.sampleCnt.toNat).find? (fun i => fracSec = r.fracSecValues i) with
    | some i => ({ r with currentSampleCnt := UInt16.ofNat (i + 1) }, [])
    | none =>
        ({ r with
            currentState := .syncToSec
            syncStarted := false
            sampleCnt := 0
            c37eventSequenceFailures := r.c37eventSequenceFailures + 1 },
          [])

/-- `processC37event`, with the blocks that it offers. -/
def C37Reformat.processC37event (r : C37Reformat) (fracSec sec : UInt32)
    (c37Buf : C37Buffer) : Option (C37Reformat × List EventBuffer) :=
  if c37Buf.msgLenBytes ≠ c37DatumTypicalLen then
    some ({ r with nonStdC37events := r.nonStdC37events + 1 }, [])
  else
    match r.currentState with
    | .syncToSec => (r.syncStep fracSec sec c37Buf).map fun r => (r, [])
    | .fillBuffer => some (r.fillStep fracSec sec c37Buf)

/-- The call that `read_handler` makes for a data frame. -/
def C37Reformat.receive (r : C37Reformat) (frame : C37Buffer)
    : Option (C37Reformat × List EventBuffer) :=
  r.processC37event (fracTime frame) (time frame) frame

/-- Frames one after the other, with all the blocks in order. -/
def C37Reformat.run (r : C37Reformat) (frames : List C37Buffer)
    : Option (C37Reformat × List EventBuffer) :=
  OutputRun.run C37Reformat.receive r frames

/-- The member initialisers, over any array. -/
def initialReformat (fracSecValues : Nat → UInt32) : C37Reformat :=
  { fracSecValues }

end Sparcs.C37
