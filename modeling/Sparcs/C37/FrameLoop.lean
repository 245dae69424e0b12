import Sparcs.Library.Framing
import Sparcs.C37.DataChannel

/-! The frame loop of `read_handler` against the one-pass parser of its pending bytes. -/

namespace Sparcs.C37

open FuelLoop (Turn)
open Framing (Cut front parse sizes)

/-- The header of a frame: its message type and its size in bytes. -/
def frameHeader (bytes : List UInt8) : Option (Nat × Nat) := do
  let kind ← bytes[syncIndx + 1]?
  let high ← bytes[framesizeIndx]?
  let low ← bytes[framesizeIndx + 1]?
  some (((kind &&& 0x70) >>> 4).toNat, low.toNat + high.toNat <<< 8)

theorem frameHeader_cons (sync kind high low : UInt8) (rest : List UInt8)
    : frameHeader (sync :: kind :: high :: low :: rest)
      = some (((kind &&& 0x70) >>> 4).toNat, low.toNat + high.toNat <<< 8) := rfl

theorem frameHeader_stable : Framing.Stable frameHeader := by
  intro bytes more field read
  match bytes, read with
  | sync :: kind :: high :: low :: rest, read =>
      rw [← read]
      rfl

-----------------------------------------------------------------------------------------
-- The buffer between two turns
-----------------------------------------------------------------------------------------

/-- The state of the buffer whenever the handler waits or the loop turns: a remembered
length is the one in the header of the pending bytes.
-/
structure C37Buffer.Resting (b : C37Buffer) : Prop where
  valid : b.validBufferBytes ≤ maxBufferBytes
  aligned
    : b.bufState = .unknownMsg
      ∨ b.bufState = .partialMsg
        ∧ frameHeader b.pending = some (b.msgType, b.msgLenBytes)
        ∧ b.msgLenBytes ≤ maxBufferBytes

namespace C37Buffer

variable {b : C37Buffer}

/-- The header is there as soon as four bytes are valid. -/
theorem header_pending (enough : 4 ≤ b.validBufferBytes)
    : frameHeader b.pending
      = some (((b.byte (syncIndx + 1) &&& 0x70) >>> 4).toNat,
          (b.byte (framesizeIndx + 1)).toNat + (b.byte framesizeIndx).toNat <<< 8) := by
  have inside (i : Nat) (header : i < 4) : b.pending[i]? = some (b.byte i) := by
    rw [pending_getElem?, if_pos (by omega)]
  simp only [frameHeader, inside (syncIndx + 1) (by decide),
    inside framesizeIndx (by decide), inside (framesizeIndx + 1) (by decide),
    Option.bind_eq_bind, Option.bind_some]

theorem header_pending_short (short : b.validBufferBytes < 4)
    : frameHeader b.pending = none := by
  have outside : b.pending[framesizeIndx + 1]? = none := by
    rw [pending_getElem?, if_neg (by rw [framesizeIndx]; omega)]
  rw [frameHeader, outside]
  cases b.pending[syncIndx + 1]? <;> cases b.pending[framesizeIndx]? <;> rfl

/-- What `examineBuffer` finds in a resting buffer. -/
inductive Examined (b : C37Buffer) : Prop where
  | complete (kind size : Nat) (count : UInt32)
    (header : frameHeader b.pending = some (kind, size))
    (fits : size ≤ b.validBufferBytes)
    (result
      : b.examineBuffer
        = (0, { b with
                msgType := kind
                msgLenBytes := size
                bufState := .completeMsg
                msgCounter := count }))
  | incomplete (next : C37Buffer) (result : Int)
    (headers
      : ∀ kind size, frameHeader b.pending = some (kind, size)
          → b.validBufferBytes < size)
    (nonzero : result ≠ 0)
    (examined : b.examineBuffer = (result, next))
    (rests : next.Resting)
    (pending : next.pending = b.pending)

/-- The case `partialMsg` with a length that is the header's. -/
theorem examinePartial_examined (original : C37Buffer)
    (valid : b.validBufferBytes ≤ maxBufferBytes) (state : b.bufState = .partialMsg)
    (header : frameHeader b.pending = some (b.msgType, b.msgLenBytes))
    (bounded : b.msgLenBytes ≤ maxBufferBytes)
    (examined : original.examineBuffer = b.examinePartial)
    (buffer : original.buffer = b.buffer)
    (bytes : original.validBufferBytes = b.validBufferBytes)
    : Examined original := by
  have pending : original.pending = b.pending := by
    have same : original.byte = b.byte := by
      funext i
      simp only [byte, buffer]
    simp only [C37Buffer.pending, same, bytes]
  rw [examinePartial] at examined
  split_ifs at examined with fits
  · refine .complete b.msgType b.msgLenBytes (b.msgCounter + 1) (pending ▸ header)
      (bytes ▸ fits) ?_
    rw [examined, buffer, bytes]
  · refine .incomplete b b.bytesLeft ?_ ?_ examined ⟨valid, Or.inr ⟨state, header, bounded⟩⟩
      pending.symm
    · intro kind size found
      rw [pending, header] at found
      obtain ⟨_, rfl⟩ := Prod.mk.inj (Option.some.inj found)
      rw [bytes]
      omega
    · rw [bytesLeft]
      omega

/-- `examineBuffer` finds a complete message exactly if the parser does, size zero
included.
-/
theorem Resting.examined (rests : b.Resting) : Examined b := by
  obtain ⟨valid, state | ⟨state, header, bounded⟩⟩ := rests
  · by_cases enough : 4 ≤ b.validBufferBytes
    · have header := header_pending enough
      by_cases large : maxBufferBytes
          < (b.byte (framesizeIndx + 1)).toNat + (b.byte framesizeIndx).toNat <<< 8
      · refine .incomplete
          { b with
            msgLenBytes :=
              (b.byte (framesizeIndx + 1)).toNat + (b.byte framesizeIndx).toNat <<< 8
            msgType := ((b.byte (syncIndx + 1) &&& 0x70) >>> 4).toNat }
          errMsgLargerThanBuffer ?_ (by decide) ?_ ⟨valid, Or.inl state⟩ rfl
        · intro kind size found
          rw [header] at found
          obtain ⟨_, rfl⟩ := Prod.mk.inj (Option.some.inj found)
          omega
        · simp only [examineBuffer, state, enough, large, if_true]
      · let partialBuf : C37Buffer :=
          { b with
            msgLenBytes :=
              (b.byte (framesizeIndx + 1)).toNat + (b.byte framesizeIndx).toNat <<< 8
            msgType := ((b.byte (syncIndx + 1) &&& 0x70) >>> 4).toNat
            bufState := .partialMsg }
        have examined : b.examineBuffer = partialBuf.examinePartial := by
          simp only [examineBuffer, state, enough, large, if_true, if_false, partialBuf]
        exact @examinePartial_examined partialBuf b valid rfl header
          (Nat.le_of_not_lt large) examined rfl rfl
    · have short := header_pending_short (Nat.lt_of_not_le enough)
      refine .incomplete b b.bytesLeft ?_ ?_ ?_ ⟨valid, Or.inl state⟩ rfl
      · intro kind size found
        rw [short] at found
        contradiction
      · rw [bytesLeft, maxBufferBytes]
        omega
      · simp only [examineBuffer, state, enough, if_false]
  · have examined : b.examineBuffer = b.examinePartial := by
      simp only [examineBuffer, state]
    exact examinePartial_examined b valid state header bounded examined rfl rfl

/-- Removing a complete message leaves the bytes behind it. -/
theorem removeMsg_pending (state : b.bufState = .completeMsg)
    (fits : b.msgLenBytes ≤ b.validBufferBytes)
    (valid : b.validBufferBytes ≤ maxBufferBytes)
    : b.removeMsgFromBuffer.2.pending = b.pending.drop b.msgLenBytes
      ∧ b.removeMsgFromBuffer.2.Resting := by
  have proceeds
      : ¬(b.bufState ≠ .completeMsg ∨ b.validBufferBytes < b.msgLenBytes
          ∨ maxBufferBytes < b.msgLenBytes) := by
    simp only [state, ne_eq, not_true_eq_false, false_or]
    omega
  rw [removeMsgFromBuffer, if_neg proceeds]
  refine ⟨?_, ⟨(Nat.sub_le _ _).trans valid, Or.inl rfl⟩⟩
  apply List.ext_getElem?
  intro i
  rw [List.getElem?_drop, pending_getElem?, pending_getElem?]
  change (if i < b.validBufferBytes - b.msgLenBytes then
      some (byteAt (copyDown b.msgLenBytes b.buffer (b.validBufferBytes + 1 - b.msgLenBytes)) i)
      else none) = _
  by_cases inside : i < b.validBufferBytes - b.msgLenBytes
  · rw [if_pos inside, if_pos (by omega), byteAt_copyDown, if_pos (by omega), byte]
  · rw [if_neg inside, if_neg (by omega)]

end C37Buffer

-----------------------------------------------------------------------------------------
-- One turn of the frame loop
-----------------------------------------------------------------------------------------

/-- What a turn does in a resting state: it dispatches the complete message at the front,
which may be of size zero, or leaves the loop.
-/
inductive Turned (c : C37DataChannel) : Prop where
  | dispatches (next : C37DataChannel) (kind size : Nat)
    (header : frameHeader c.c37Buf.pending = some (kind, size))
    (fits : size ≤ c.c37Buf.pending.length)
    (goes : frameTurn c = .again next)
    (dispatched
      : next.dispatched = c.dispatched ++ [(kind, c.c37Buf.pending.take size)])
    (pending : next.c37Buf.pending = c.c37Buf.pending.drop size)
    (rests : next.c37Buf.Resting)
  | leaves (next : C37DataChannel)
    (headers
      : ∀ kind size, frameHeader c.c37Buf.pending = some (kind, size)
          → c.c37Buf.pending.length < size)
    (goes : frameTurn c = .leave next)
    (dispatched : next.dispatched = c.dispatched)
    (pending : next.c37Buf.pending = c.c37Buf.pending)
    (rests : next.c37Buf.Resting)

theorem frameTurn_turned {c : C37DataChannel} (rests : c.c37Buf.Resting) : Turned c := by
  cases rests.examined with
  | complete kind size count header fits result =>
      let complete : C37Buffer :=
        { c.c37Buf with
          msgType := kind
          msgLenBytes := size
          bufState := .completeMsg
          msgCounter := count }
      let counted : C37DataChannel :=
        { c with c37Buf := complete, bytesRecv := c.bytesRecv + size.toUInt64 }
      have goes : frameTurn c = .again counted.dispatch := by
        simp only [frameTurn, result, if_true]
        rfl
      have removed := @C37Buffer.removeMsg_pending complete rfl fits rests.valid
      obtain ⟨dispatched, c37Buf⟩ := dispatch_dispatched counted
      refine .dispatches counted.dispatch kind size header ?_ goes dispatched ?_ ?_
      · rw [C37Buffer.pending_length]
        exact fits
      · rw [c37Buf]
        exact removed.1
      · rw [c37Buf]
        exact removed.2
  | incomplete next result headers nonzero examined rests' pending =>
      refine .leaves { c with c37Buf := next } ?_ ?_ rfl pending rests'
      · intro kind size found
        rw [C37Buffer.pending_length]
        exact headers kind size found
      · simp only [frameTurn, examined, nonzero, if_false]

/-- The first frame of the parser is the message of the turn. -/
theorem frameTurn_cut {c : C37DataChannel} (rests : c.c37Buf.Resting)
    {cut : Cut Nat c.c37Buf.pending} (complete : front frameHeader c.c37Buf.pending = some cut)
    : ∃ next,
        frameTurn c = .again next
        ∧ next.dispatched = c.dispatched ++ [(cut.kind, c.c37Buf.pending.take cut.size)]
        ∧ next.c37Buf.pending = c.c37Buf.pending.drop cut.size
        ∧ next.c37Buf.Resting := by
  have found := Framing.front_header complete
  cases frameTurn_turned rests with
  | dispatches next kind size header fits goes dispatched pending rests' =>
      obtain ⟨rfl, rfl⟩ := Prod.mk.inj (Option.some.inj (header.symm.trans found))
      exact ⟨next, goes, dispatched, pending, rests'⟩
  | leaves next headers goes dispatched pending rests' =>
      exact absurd (headers _ _ found) (Nat.not_lt.mpr cut.fits)

/-- Where the parser stops, the loop stops unless the size is zero. -/
theorem frameTurn_stop {c : C37DataChannel} (rests : c.c37Buf.Resting)
    (stops : front frameHeader c.c37Buf.pending = none)
    (nonzero : 0 ∉ sizes frameHeader c.c37Buf.pending)
    : ∃ next,
        frameTurn c = .leave next
        ∧ next.dispatched = c.dispatched
        ∧ next.c37Buf.pending = c.c37Buf.pending
        ∧ next.c37Buf.Resting := by
  cases frameTurn_turned rests with
  | dispatches next kind size header fits goes dispatched pending rests' =>
      rcases Framing.front_eq_none header stops with zero | long
      · rw [zero] at header
        exact absurd (Framing.header_mem_sizes header) nonzero
      · omega
  | leaves next headers goes dispatched pending rests' =>
      exact ⟨next, goes, dispatched, pending, rests'⟩

/-- A size of zero removes nothing, so the loop comes back to the same bytes. -/
theorem frameTurn_zero {c : C37DataChannel} (rests : c.c37Buf.Resting) {kind : Nat}
    (zero : frameHeader c.c37Buf.pending = some (kind, 0))
    : ∃ next,
        frameTurn c = .again next
        ∧ next.c37Buf.pending = c.c37Buf.pending
        ∧ next.c37Buf.Resting := by
  cases frameTurn_turned rests with
  | dispatches next kind' size header fits goes dispatched pending rests' =>
      obtain ⟨_, rfl⟩ := Prod.mk.inj (Option.some.inj (header.symm.trans zero))
      exact ⟨next, goes, pending, rests'⟩
  | leaves next headers goes dispatched pending rests' =>
      exact absurd (headers kind 0 zero) (Nat.not_lt_zero _)

-----------------------------------------------------------------------------------------
-- The whole loop
-----------------------------------------------------------------------------------------

/-- Without a size of zero the loop cuts what the parser cuts, within the fuel. The
invariant splits the parser's frames into those dispatched and those still pending.
-/
theorem frameLoop_parses {c : C37DataChannel} (rests : c.c37Buf.Resting)
    (nonzero : 0 ∉ sizes frameHeader c.c37Buf.pending)
    : ∃ next,
        FuelLoop.run frameTurn frameFuel c = some next
        ∧ next.dispatched = c.dispatched ++ (parse frameHeader c.c37Buf.pending).1
        ∧ next.c37Buf.pending = (parse frameHeader c.c37Buf.pending).2
        ∧ next.c37Buf.Resting := by
  let frames := c.dispatched ++ (parse frameHeader c.c37Buf.pending).1
  let rest := (parse frameHeader c.c37Buf.pending).2
  refine @FuelLoop.run_total _ _ frameTurn
    (fun c =>
      c.c37Buf.Resting
      ∧ 0 ∉ sizes frameHeader c.c37Buf.pending
      ∧ c.dispatched ++ (parse frameHeader c.c37Buf.pending).1 = frames
      ∧ (parse frameHeader c.c37Buf.pending).2 = rest)
    (fun next =>
      next.dispatched = frames ∧ next.c37Buf.pending = rest ∧ next.c37Buf.Resting)
    (fun c => c.c37Buf.pending.length) ?_ ?_ frameFuel c ⟨rests, nonzero, rfl, rfl⟩ ?_
  · intro c next invariant goes
    obtain ⟨rests, nonzero, split, left⟩ := invariant
    cases complete : front frameHeader c.c37Buf.pending with
    | none =>
        obtain ⟨_, leaves, _⟩ := frameTurn_stop rests complete nonzero
        rw [goes] at leaves
        contradiction
    | some cut =>
        obtain ⟨next', goes', dispatched, pending, rests'⟩ := frameTurn_cut rests complete
        obtain rfl : next = next' := Turn.again.inj (goes.symm.trans goes')
        have positive := cut.positive
        have fits := cut.fits
        rw [Framing.sizes_cut complete, ← pending] at nonzero
        rw [Framing.parse_cut complete, ← pending] at split left
        refine ⟨⟨rests', fun zero => nonzero (List.mem_cons_of_mem _ zero), ?_, left⟩, ?_⟩
        · rw [← split, dispatched, List.append_assoc, List.singleton_append]
        · rw [pending, List.length_drop]
          omega
  · intro c result invariant goes
    obtain ⟨rests, nonzero, split, left⟩ := invariant
    cases complete : front frameHeader c.c37Buf.pending with
    | none =>
        obtain ⟨next, leaves, dispatched, pending, rests'⟩ :=
          frameTurn_stop rests complete nonzero
        obtain rfl : result = next := Turn.leave.inj (goes.symm.trans leaves)
        rw [Framing.parse_stop complete] at split left
        rw [List.append_nil] at split
        exact ⟨dispatched.trans split, pending.trans left, rests'⟩
    | some cut =>
        obtain ⟨_, goes', _⟩ := frameTurn_cut rests complete
        rw [goes] at goes'
        contradiction
  · have valid := rests.valid
    rw [C37Buffer.pending_length, frameFuel]
    omega

/-- The loop ends exactly if the parser of the pending bytes meets no size of zero. The
proof of the second half goes along the parser's cuts.
-/
theorem frameLoop_halts_iff {c : C37DataChannel} (rests : c.c37Buf.Resting)
    : FuelLoop.Halts frameTurn c ↔ 0 ∉ sizes frameHeader c.c37Buf.pending := by
  constructor
  · intro halts zero
    induction bytes : c.c37Buf.pending using @Framing.cut_induction _ _ frameHeader
        generalizing c with
    | stop _ stops =>
        rw [← bytes] at stops
        rw [Framing.sizes_stop stops] at zero
        obtain ⟨⟨kind, _⟩, header, rfl⟩ :=
          Option.map_eq_some_iff.mp (Option.mem_toList.mp zero)
        refine @FuelLoop.not_halts_of_invariant _ _ frameTurn
          (fun c => c.c37Buf.Resting ∧ frameHeader c.c37Buf.pending = some (kind, 0))
          ?_ c ⟨rests, header⟩ halts
        intro c invariant
        obtain ⟨rests, header⟩ := invariant
        obtain ⟨next, goes, pending, rests'⟩ := frameTurn_zero rests header
        exact ⟨next, goes, rests', by rw [pending, header]⟩
    | step _ cut complete ih =>
        subst bytes
        obtain ⟨next, goes, _, pending, rests'⟩ := frameTurn_cut rests complete
        rw [Framing.sizes_cut complete, List.mem_cons] at zero
        rcases zero with empty | later
        · exact absurd cut.positive (by omega)
        · rw [← pending] at later
          exact ih rests' ((FuelLoop.halts_again goes).mp halts) later pending
  · intro nonzero
    obtain ⟨next, finished, _⟩ := frameLoop_parses rests nonzero
    exact ⟨frameFuel, by rw [finished]; rfl⟩

end Sparcs.C37
