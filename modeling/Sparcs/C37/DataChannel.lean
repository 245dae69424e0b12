import Sparcs.Library.Loop
import Sparcs.C37.Buffer

/-! `C37_DataChannel`: the read handler with its frame loop. What the handler calls on the
reformatter and the configuration parser is recorded in order.
-/

namespace Sparcs.C37

open FuelLoop (Turn)

/-- What one turn of the frame loop does with a complete message. The buffer is as the call
finds it; `ignoreMsg` is the `default` branch.
-/
inductive Call where
  | processC37event (fracTime time : UInt32) (c37Buf : C37Buffer)
  | parseCfg1Msg (c37Buf : C37Buffer)
  | parseCfg2Msg (c37Buf : C37Buffer)
  | ignoreMsg (c37Buf : C37Buffer)

def Call.c37Buf : Call → C37Buffer
  | .processC37event _ _ c37Buf => c37Buf
  | .parseCfg1Msg c37Buf => c37Buf
  | .parseCfg2Msg c37Buf => c37Buf
  | .ignoreMsg c37Buf => c37Buf

structure C37DataChannel where
  c37Buf : C37Buffer
  c37eventsRecv : UInt64 := 0
  c37eventsQueued : UInt64 := 0
  bytesRecv : UInt64 := 0
  calls : List Call := []

/-- The three low bytes of FRACSEC; the first one holds the time quality. -/
def fracTime (b : C37Buffer) : UInt32 :=
  ((b.byte (fracsecIndx + 1)).toUInt32 <<< 16) + ((b.byte (fracsecIndx + 2)).toUInt32 <<< 8)
    + (b.byte (fracsecIndx + 3)).toUInt32

/-- SOC, the second of the frame. -/
def time (b : C37Buffer) : UInt32 :=
  ((b.byte socIndx).toUInt32 <<< 24) + ((b.byte (socIndx + 1)).toUInt32 <<< 16)
    + ((b.byte (socIndx + 2)).toUInt32 <<< 8) + (b.byte (socIndx + 3)).toUInt32

/-- The `switch` on the message type. Every branch ends by removing the message. -/
def C37DataChannel.dispatch (c : C37DataChannel) : C37DataChannel :=
  if c.c37Buf.msgType = dataMsgTypeValue then
    { c with
      c37eventsRecv := c.c37eventsRecv + 1
      calls :=
        c.calls ++ [.processC37event (fracTime c.c37Buf) (time c.c37Buf) c.c37Buf]
      c37eventsQueued := c.c37eventsQueued + 1
      c37Buf := c.c37Buf.removeMsgFromBuffer.2 }
  else if c.c37Buf.msgType = cfg1MsgTypeValue then
    { c with
      calls := c.calls ++ [.parseCfg1Msg c.c37Buf]
      c37Buf := c.c37Buf.removeMsgFromBuffer.2 }
  else if c.c37Buf.msgType = cfg2MsgTypeValue then
    { c with
      calls := c.calls ++ [.parseCfg2Msg c.c37Buf]
      c37Buf := c.c37Buf.removeMsgFromBuffer.2 }
  else
    { c with
      calls := c.calls ++ [.ignoreMsg c.c37Buf]
      c37Buf := c.c37Buf.removeMsgFromBuffer.2 }

/-- One turn of `while (C37_buf.examineBuffer() == 0)`. -/
def frameTurn (c : C37DataChannel) : Turn C37DataChannel C37DataChannel :=
  let (result, c37Buf) := c.c37Buf.examineBuffer
  if result = 0 then
    .again
      (C37DataChannel.dispatch
        { c with
          c37Buf
          bytesRecv := c.bytesRecv + c37Buf.msgLenBytes.toUInt64 })
  else
    .leave { c with c37Buf }

/-- A turn that removes bytes can be taken at most `maxBufferBytes` times. -/
def frameFuel : Nat :=
  maxBufferBytes + 1

/-- `read_handler`; `none` is a frame loop that does not end. A read of no bytes is taken
for a disconnect, after which the socket is connected again.
-/
def C37DataChannel.readHandler (c : C37DataChannel) (bytesTransferred : Nat)
    : Option C37DataChannel :=
  if bytesTransferred ≠ 0 then
    FuelLoop.run frameTurn frameFuel
      { c with c37Buf := c.c37Buf.setBytesReceived bytesTransferred }
  else
    some { c with c37Buf := c.c37Buf.init }

/-- `async_read` fills the offered space with a chunk and calls the handler. -/
def C37DataChannel.read (c : C37DataChannel) (chunk : List UInt8) : Option C37DataChannel :=
  C37DataChannel.readHandler { c with c37Buf := c.c37Buf.fill chunk } chunk.length

/-- Reads one after the other. -/
def C37DataChannel.reads : C37DataChannel → List (List UInt8) → Option C37DataChannel
  | c, [] => some c
  | c, chunk :: rest => do
      let next ← c.read chunk
      next.reads rest

/-- Every chunk has a byte and fits the space that is offered when it is read. -/
def C37DataChannel.Fits : C37DataChannel → List (List UInt8) → Prop
  | _, [] => True
  | c, chunk :: rest =>
      0 < chunk.length
      ∧ chunk.length ≤ c.c37Buf.getBufferDesc
      ∧ ∀ next, c.read chunk = some next → next.Fits rest

/-- The message type and the bytes of the message in the buffer. -/
def C37Buffer.message (b : C37Buffer) : Nat × List UInt8 :=
  (b.msgType, b.pending.take b.msgLenBytes)

/-- The messages that the channel has dispatched, in order. -/
def C37DataChannel.dispatched (c : C37DataChannel) : List (Nat × List UInt8) :=
  c.calls.map fun call => call.c37Buf.message

/-- The branches of the `switch` differ in the call that they make and nothing else. -/
theorem dispatch_dispatched (c : C37DataChannel)
    : c.dispatch.dispatched = c.dispatched ++ [c.c37Buf.message]
      ∧ c.dispatch.c37Buf = c.c37Buf.removeMsgFromBuffer.2 := by
  rw [C37DataChannel.dispatch]
  split_ifs <;> simp [C37DataChannel.dispatched, Call.c37Buf]

end Sparcs.C37
