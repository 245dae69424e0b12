import Sparcs.C37.Reassembly
import Sparcs.C37.Seconds

/-! What the channel hands to the reformatter. A call is made for a complete message and tells the
time of this very message, so that blocks depend on the bytes of each connection and not on how they
are cut into reads.
-/

namespace Sparcs.C37

open Blocks (Block)
open FuelLoop (Turn)
open Framing (IsFrame front parse sizes)

/-- What a call does to the reformatter; the others are none of its business. -/
def Call.perform (r : C37Reformat) : Call → Option (C37Reformat × List EventBuffer)
  | .processC37event fracTime time c37Buf => r.processC37event fracTime time c37Buf
  | _ => some (r, [])

/-- The calls that the channel has made, on a reformatter. -/
def C37DataChannel.perform (c : C37DataChannel) (r : C37Reformat)
    : Option (C37Reformat × List EventBuffer) :=
  OutputRun.run Call.perform r c.calls

/-- The call is the one that the `switch` makes for its message. -/
structure Call.Switched (call : Call) : Prop where
  data
    : call.c37Buf.msgType = dataMsgTypeValue →
        call = .processC37event (fracTime call.c37Buf) (time call.c37Buf) call.c37Buf
  other : call.c37Buf.msgType ≠ dataMsgTypeValue → ∀ r, call.perform r = some (r, [])

/-- All bytes of the message are valid. -/
structure C37Buffer.Whole (b : C37Buffer) : Prop where
  valid : b.validBufferBytes ≤ maxBufferBytes
  complete : b.msgLenBytes ≤ b.validBufferBytes

-----------------------------------------------------------------------------------------
-- The calls of the channel
-----------------------------------------------------------------------------------------

theorem dispatch_calls (c : C37DataChannel)
    : ∃ call : Call,
        call.c37Buf = c.c37Buf ∧ call.Switched ∧ c.dispatch.calls = c.calls ++ [call] := by
  rw [C37DataChannel.dispatch]
  split_ifs with data cfg1 cfg2
  · exact ⟨.processC37event _ _ c.c37Buf, rfl, ⟨fun _ => rfl, fun other => absurd data other⟩, rfl⟩
  · exact ⟨.parseCfg1Msg c.c37Buf, rfl, ⟨fun same => absurd same data, fun _ _ => rfl⟩, rfl⟩
  · exact ⟨.parseCfg2Msg c.c37Buf, rfl, ⟨fun same => absurd same data, fun _ _ => rfl⟩, rfl⟩
  · exact ⟨.ignoreMsg c.c37Buf, rfl, ⟨fun same => absurd same data, fun _ _ => rfl⟩, rfl⟩

/-- Every call of the channel is for a complete message and as the `switch` makes it. -/
def C37DataChannel.Calls (c : C37DataChannel) : Prop :=
  ∀ call ∈ c.calls, call.c37Buf.Whole ∧ call.Switched

/-- One turn adds such a call or none. -/
theorem frameTurn_calls {c : C37DataChannel} (rests : c.c37Buf.Resting) (calls : c.Calls)
    : (frameTurn c).Spec (fun next => next.c37Buf.Resting ∧ next.Calls) C37DataChannel.Calls := by
  have turned := frameTurn_turned rests
  cases rests.examined with
  | complete kind size count header fits result =>
      let complete : C37Buffer :=
        { c.c37Buf with
          msgType := kind
          msgLenBytes := size
          bufState := .completeMsg
          msgCounter := count }
      let counted : C37DataChannel :=
        { c with c37Buf := complete, bytesRecv := c.bytesRecv + size.toUInt64 }
      have goes : frameTurn c = .again counted.dispatch := by
        simp only [frameTurn, result, if_true]
        rfl
      obtain ⟨call, of, switched, added⟩ := dispatch_calls counted
      cases turned with
      | dispatches next _ _ _ _ goes' _ _ rests' =>
          obtain rfl := Turn.again.inj (goes.symm.trans goes')
          rw [goes]
          refine ⟨rests', fun other member => ?_⟩
          rw [added, List.mem_append, List.mem_singleton] at member
          rcases member with earlier | rfl
          · exact calls other earlier
          · exact ⟨of ▸ ⟨rests.valid, fits⟩, switched⟩
      | leaves _ _ goes' =>
          rw [goes] at goes'
          contradiction
  | incomplete next result headers nonzero examined =>
      have goes : frameTurn c = .leave { c with c37Buf := next } := by
        simp only [frameTurn, examined, nonzero, if_false]
      rw [goes]
      exact calls

/-- Whatever is read, by induction over the reads. -/
theorem C37DataChannel.Reachable.calls {c : C37DataChannel} (reachable : c.Reachable)
    : c.Calls := by
  induction reachable with
  | start c starts =>
      intro call member
      rw [starts.noCalls] at member
      contradiction
  | read c next chunk reachable fits reads ih =>
      by_cases nonempty : 0 < chunk.length
      · rw [read_eq_run nonempty] at reads
        exact FuelLoop.run_spec (fun c holds => frameTurn_calls holds.1 holds.2)
          ⟨received_resting reachable.resting fits, ih⟩ reads
      · rw [C37DataChannel.read, C37DataChannel.readHandler, if_neg (by omega)] at reads
        rw [← Option.some.inj reads]
        exact ih

theorem reads_reachable {c next : C37DataChannel} (reachable : c.Reachable)
    {chunks : List (List UInt8)} (fits : c.Fits chunks) (reads : c.reads chunks = some next)
    : next.Reachable := by
  induction chunks generalizing c with
  | nil => exact Option.some.inj reads ▸ reachable
  | cons chunk rest ih =>
      rw [C37DataChannel.reads, Option.bind_eq_bind, Option.bind_eq_some_iff] at reads
      obtain ⟨middle, read, reads⟩ := reads
      exact ih (.read c middle chunk reachable fits.2.1 read) (fits.2.2 middle read) reads

/-- Frames that are read one by one fit, by induction over them: none leaves anything behind. -/
theorem C37DataChannel.Fits.of_frames {c : C37DataChannel} (rests : c.c37Buf.Resting)
    (pending : c.c37Buf.pending = []) {frames : List (Nat × List UInt8)}
    (whole : ∀ frame ∈ frames, IsFrame frameHeader frame)
    (short : ∀ frame ∈ frames, frame.2.length ≤ maxBufferBytes)
    : c.Fits (frames.map Prod.snd) := by
  induction frames generalizing c with
  | nil => trivial
  | cons frame frames ih =>
      have isFrame := whole frame List.mem_cons_self
      have room : frame.2.length ≤ c.c37Buf.getBufferDesc := by
        have length := @C37Buffer.pending_length c.c37Buf
        have fits := short frame List.mem_cons_self
        rw [pending, List.length_nil] at length
        rw [C37Buffer.getBufferDesc]
        omega
      have one : ∀ other ∈ [frame], IsFrame frameHeader other := by
        simpa using isFrame
      have size := Framing.sizes_frames frameHeader_stable one []
      have parsed := Framing.parse_frames frameHeader_stable one []
      simp only [List.map_cons, List.map_nil, List.flatten_cons, List.flatten_nil,
        List.append_nil] at size parsed
      refine ⟨isFrame.positive, room, fun next read => ?_⟩
      obtain ⟨next', read', -, pending', rests'⟩ :=
        read_parses rests isFrame.positive room (by
          rw [pending, List.nil_append, size, Framing.sizes_stop front_nil]
          simpa [frameHeader] using isFrame.positive.ne)
      obtain rfl : next = next' := Option.some.inj (read.symm.trans read')
      refine ih rests' ?_ (fun other member => whole other (List.mem_cons_of_mem _ member))
        fun other member => short other (List.mem_cons_of_mem _ member)
      rw [pending', pending, List.nil_append, parsed, Framing.parse_stop front_nil]

theorem C37DataChannel.Starts.dispatched {c : C37DataChannel} (starts : c.Starts)
    : c.dispatched = [] := by
  rw [C37DataChannel.dispatched, starts.noCalls]
  rfl

-----------------------------------------------------------------------------------------
-- A message is its bytes
-----------------------------------------------------------------------------------------

/-- A buffer that holds a data message of these bytes and nothing else. -/
def C37Buffer.ofBytes (bytes : List UInt8) : C37Buffer :=
  { buffer := fun k => bytes[k.val]?.getD 0
    msgType := dataMsgTypeValue
    msgLenBytes := bytes.length
    validBufferBytes := bytes.length }

section Message

variable {b : C37Buffer} {bytes : List UInt8} {i : Nat}

theorem byte_ofBytes (small : bytes.length ≤ maxBufferBytes) (inside : i < bytes.length)
    : (C37Buffer.ofBytes bytes).byte i = bytes[i] := by
  have inBuffer : i < maxBufferBytes := by omega
  simp [C37Buffer.byte, byteAt, C37Buffer.ofBytes, inBuffer, inside]

namespace C37Buffer.Whole

theorem length_message (whole : b.Whole) : b.message.2.length = b.msgLenBytes := by
  rw [C37Buffer.message, List.length_take, C37Buffer.pending_length]
  exact Nat.min_eq_left whole.complete

theorem byte_message (whole : b.Whole) (inside : i < b.msgLenBytes)
    : (C37Buffer.ofBytes b.message.2).byte i = b.byte i := by
  have length := whole.length_message
  have valid := whole.valid
  have complete := whole.complete
  rw [byte_ofBytes (by omega) (by omega)]
  have found : b.message.2[i]? = some (b.byte i) := by
    rw [C37Buffer.message, List.getElem?_take_of_lt inside, C37Buffer.pending_getElem?,
      if_pos (by omega)]
  exact Option.some.inj ((List.getElem?_eq_getElem (by omega)).symm.trans found)

/-- The four bytes more that are copied do not come to lie in the saved event. -/
theorem savedEvent_message (whole : b.Whole)
    : savedEvent (C37Buffer.ofBytes b.message.2) = savedEvent b := by
  have length : (C37Buffer.ofBytes b.message.2).msgLenBytes = b.msgLenBytes :=
    whole.length_message
  rw [savedEvent, savedEvent, length]
  refine Blocks.write_congr _ _ (by rw [List.length_map, List.length_map]) fun i inside => ?_
  rw [Blocks.write_size] at inside
  have source : i < b.msgLenBytes := by
    change 4 + i < b.msgLenBytes + 4 at inside
    omega
  rw [List.getElem?_map, List.getElem?_map, List.getElem?_range (by omega), Option.map_some,
    Option.map_some, whole.byte_message source]

theorem time_message (whole : b.Whole) (long : 14 ≤ b.msgLenBytes)
    : time (C37Buffer.ofBytes b.message.2) = time b
      ∧ fracTime (C37Buffer.ofBytes b.message.2) = fracTime b := by
  have same {i : Nat} (header : i < 14) : (C37Buffer.ofBytes b.message.2).byte i = b.byte i :=
    whole.byte_message (by omega)
  constructor
  · rw [time, time, same (by decide), same (by decide), same (by decide), same (by decide)]
  · rw [fracTime, fracTime, same (by decide), same (by decide), same (by decide)]

/-- The reformatter makes the same of a message and of its bytes. -/
theorem receive_message (whole : b.Whole) (r : C37Reformat)
    : r.receive (C37Buffer.ofBytes b.message.2) = r.receive b := by
  have length : (C37Buffer.ofBytes b.message.2).msgLenBytes = b.msgLenBytes :=
    whole.length_message
  by_cases std : IsStd b
  · have std' : IsStd (C37Buffer.ofBytes b.message.2) := length.trans std
    have long : 14 ≤ b.msgLenBytes := by
      rw [std, c37DatumTypicalLen]
      decide
    obtain ⟨sec, frac⟩ := whole.time_message long
    have saved (r : C37Reformat) : r.saveC37event (C37Buffer.ofBytes b.message.2)
        = r.saveC37event b := by
      rw [C37Reformat.saveC37event, C37Reformat.saveC37event, whole.savedEvent_message]
    cases state : r.currentState with
    | syncToSec =>
        rw [C37Reformat.receive_sync std state, C37Reformat.receive_sync std' state, sec, frac]
        simp only [C37Reformat.syncStep, saved]
    | fillBuffer =>
        rw [C37Reformat.receive_fill std state, C37Reformat.receive_fill std' state, sec, frac]
        simp only [C37Reformat.fillStep, saved]
  · have foreign : ¬IsStd (C37Buffer.ofBytes b.message.2) := fun std' =>
      std (length.symm.trans std')
    rw [C37Reformat.receive_nonStd std, C37Reformat.receive_nonStd foreign]

end C37Buffer.Whole

end Message

-----------------------------------------------------------------------------------------
-- The stream
-----------------------------------------------------------------------------------------

/-- The bytes of the data messages. -/
def dataMessages (messages : List (Nat × List UInt8)) : List (List UInt8) :=
  (messages.filter fun message => message.1 = dataMsgTypeValue).map Prod.snd

theorem dataMessages_cons (message : Nat × List UInt8) (messages : List (Nat × List UInt8))
    : dataMessages (message :: messages)
      = if message.1 = dataMsgTypeValue then message.2 :: dataMessages messages
        else dataMessages messages := by
  rw [dataMessages, List.filter_cons]
  by_cases data : message.1 = dataMsgTypeValue
  · simp [data, dataMessages]
  · simp [data, dataMessages]

/-- On a reformatter, the calls do what the bytes of the data messages do, by induction over the
calls.
-/
theorem run_perform {calls : List Call}
    (made : ∀ call ∈ calls, call.c37Buf.Whole ∧ call.Switched) (r : C37Reformat)
    : OutputRun.run Call.perform r calls
      = r.run
        ((dataMessages (calls.map fun call => call.c37Buf.message)).map C37Buffer.ofBytes) := by
  induction calls generalizing r with
  | nil => rfl
  | cons call calls ih =>
      obtain ⟨whole, switched⟩ := made call List.mem_cons_self
      have later (r : C37Reformat) : OutputRun.run Call.perform r calls = _ :=
        ih (fun other member => made other (List.mem_cons_of_mem _ member)) r
      rw [OutputRun.run, List.map_cons, dataMessages_cons]
      by_cases data : call.c37Buf.message.1 = dataMsgTypeValue
      · have performs : call.perform r = r.receive (C37Buffer.ofBytes call.c37Buf.message.2) := by
          rw [whole.receive_message, switched.data data]
          rfl
        rw [if_pos data, List.map_cons, performs]
        simp only [later]
        rfl
      · rw [if_neg data, switched.other data]
        simp only [later]
        simp [C37Reformat.run]

section Connections

variable {c : C37DataChannel}

/-- However the stream is cut into reads, the messages are the frames of a one-pass parser. -/
theorem reads_dispatched (reachable : c.Reachable) (pending : c.c37Buf.pending = [])
    {chunks : List (List UInt8)} (fits : c.Fits chunks)
    (fields : ∀ size ∈ sizes frameHeader chunks.flatten, size ≠ 0)
    : ∃ next,
        c.reads chunks = some next
        ∧ next.Reachable
        ∧ next.dispatched = c.dispatched ++ (parse frameHeader chunks.flatten).1 := by
  have nonzero : 0 ∉ sizes frameHeader (c.c37Buf.pending ++ chunks.flatten) := by
    rw [pending, List.nil_append]
    exact fun zero => fields 0 zero rfl
  obtain ⟨next, reads, dispatched, -⟩ :=
    reads_parse reachable.resting (by rw [pending]; exact front_nil) fits nonzero
  rw [pending, List.nil_append] at dispatched
  exact ⟨next, reads, reads_reachable reachable fits reads, dispatched⟩

/-- Connections one after the other. The reads of each are followed by one of no bytes, upon which
the channel connects again.
-/
def C37DataChannel.connections
    : C37DataChannel → List (List (List UInt8)) → Option C37DataChannel
  | c, [] => some c
  | c, chunks :: rest => do
      let last ← c.reads chunks
      let next ← last.read []
      next.connections rest

/-- The chunks of every connection fit. -/
def C37DataChannel.FitsEach : C37DataChannel → List (List (List UInt8)) → Prop
  | _, [] => True
  | c, chunks :: rest =>
      c.Fits chunks
      ∧ ∀ last next, c.reads chunks = some last → last.read [] = some next → next.FitsEach rest

/-- The frames that a one-pass parser cuts from each connection. -/
def framesOf (connections : List (List (List UInt8))) : List (Nat × List UInt8) :=
  connections.flatMap fun chunks => (parse frameHeader chunks.flatten).1

/-- What is left of a connection is dropped, by induction over the connections. -/
theorem connections_dispatched (reachable : c.Reachable) (pending : c.c37Buf.pending = [])
    {connections : List (List (List UInt8))} (fits : c.FitsEach connections)
    (fields
      : ∀ chunks ∈ connections, ∀ size ∈ sizes frameHeader chunks.flatten, size ≠ 0)
    : ∃ next,
        c.connections connections = some next
        ∧ next.Reachable
        ∧ next.dispatched = c.dispatched ++ framesOf connections := by
  induction connections generalizing c with
  | nil => exact ⟨c, rfl, reachable, (List.append_nil _).symm⟩
  | cons chunks rest ih =>
      obtain ⟨last, reads, reachable', dispatched⟩ :=
        reads_dispatched reachable pending fits.1 (fields chunks List.mem_cons_self)
      let again : C37DataChannel := { last with c37Buf := (last.c37Buf.fill []).init }
      have disconnects : last.read [] = some again := rfl
      obtain ⟨next, connects, reachable'', dispatched'⟩ :=
        ih (.read last again [] reachable' (Nat.zero_le _) disconnects) rfl
          (fits.2 last again reads disconnects)
          fun other member => fields other (List.mem_cons_of_mem _ member)
      refine ⟨next, ?_, reachable'', ?_⟩
      · rw [C37DataChannel.connections, reads]
        exact connects
      · rw [dispatched', framesOf, framesOf, List.flatMap_cons, ← List.append_assoc, ← dispatched]
        rfl

/-- However often the channel connects again and however each stream is cut into reads, and whatever
state the reformatter is in, it ends in the state and puts out the blocks that the data messages of
a one-pass parser over each stream lead to; a write outside of its array is met just when they lead
to one.
-/
theorem connections_perform (starts : c.Starts) {connections : List (List (List UInt8))}
    (fits : c.FitsEach connections)
    (fields
      : ∀ chunks ∈ connections, ∀ size ∈ sizes frameHeader chunks.flatten, size ≠ 0)
    (r : C37Reformat)
    : ∃ next,
        c.connections connections = some next
        ∧ next.perform r
          = r.run ((dataMessages (framesOf connections)).map C37Buffer.ofBytes) := by
  obtain ⟨next, connects, reachable, dispatched⟩ :=
    connections_dispatched (.start c starts) starts.pending fits fields
  rw [starts.dispatched, List.nil_append] at dispatched
  refine ⟨next, connects, ?_⟩
  rw [C37DataChannel.perform, run_perform reachable.calls r, ← dispatched]
  rfl

/-- A data frame of four bytes in two reads that cut its size field, with the start of the next
frame; the other connection sends this frame again from its beginning.
-/
theorem connections_perform_cut_header
    : ∃ next,
        newChannel.connections [[[0xaa, 0x01, 0], [4, 0xaa]], [[0xaa, 0x01, 0, 4]]] = some next
        ∧ next.perform (initialReformat fun _ => 0)
          = (initialReformat fun _ => 0).run
            ((dataMessages
                (framesOf [[[0xaa, 0x01, 0], [4, 0xaa]], [[0xaa, 0x01, 0, 4]]])).map
              C37Buffer.ofBytes) := by
  have first : sizes frameHeader ([[0xaa, 0x01, 0], [4, 0xaa]] : List (List UInt8)).flatten
      = [4] := by
    have complete
        : front frameHeader ([[0xaa, 0x01, 0], [4, 0xaa]] : List (List UInt8)).flatten
          = some ⟨0, 4, by decide, by decide⟩ := rfl
    rw [Framing.sizes_cut complete, Framing.sizes_stop rfl]
    rfl
  have second : sizes frameHeader ([[0xaa, 0x01, 0, 4]] : List (List UInt8)).flatten
      = [4] := by
    have complete
        : front frameHeader ([[0xaa, 0x01, 0, 4]] : List (List UInt8)).flatten
          = some ⟨0, 4, by decide, by decide⟩ := rfl
    rw [Framing.sizes_cut complete, Framing.sizes_stop rfl]
    rfl
  have fits : newChannel.FitsEach [[[0xaa, 0x01, 0], [4, 0xaa]], [[0xaa, 0x01, 0, 4]]] := by
    refine ⟨.of_short newChannel_starts.resting (by decide) ?_ ?_,
      fun last next _ disconnects => ?_⟩
    · rw [newChannel_starts.pending, List.nil_append, first]
      decide
    · rw [newChannel_starts.pending, List.nil_append]
      decide
    · obtain rfl : { last with c37Buf := (last.c37Buf.fill []).init } = next :=
        Option.some.inj disconnects
      exact ⟨⟨by decide, by simp [C37Buffer.getBufferDesc, C37Buffer.init, maxBufferBytes],
        fun _ _ => trivial⟩, fun _ _ _ _ => trivial⟩
  refine connections_perform newChannel_starts fits (fun chunks member size isSize => ?_) _
  simp only [List.mem_cons, List.not_mem_nil, or_false] at member
  rcases member with rfl | rfl
  · rw [first] at isSize
    exact (List.mem_singleton.mp isSize).trans_ne (by decide)
  · rw [second] at isSize
    exact (List.mem_singleton.mp isSize).trans_ne (by decide)

end Connections

end Sparcs.C37
