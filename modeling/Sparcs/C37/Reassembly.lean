import Sparcs.C37.FrameLoop

/-! Read events one after the other: however the device's stream is cut into reads, the
channel dispatches the frames that one pass over the stream would cut.
-/

namespace Sparcs.C37

open Framing (front parse sizes)

/-- The channel as constructed: no valid bytes and no calls, whatever the array holds. -/
structure C37DataChannel.Starts (c : C37DataChannel) : Prop where
  noBytes : c.c37Buf.validBufferBytes = 0
  unknown : c.c37Buf.bufState = .unknownMsg
  noCalls : c.calls = []

/-- The channel when the frame loop of a read event begins. -/
def C37DataChannel.received (c : C37DataChannel) (chunk : List UInt8) : C37DataChannel :=
  { c with c37Buf := (c.c37Buf.fill chunk).setBytesReceived chunk.length }

/-- Everything that reads from a new channel on can lead to. A read of no bytes is a
disconnect.
-/
inductive C37DataChannel.Reachable : C37DataChannel → Prop where
  | start (c : C37DataChannel) (starts : c.Starts) : c.Reachable
  | read (c next : C37DataChannel) (chunk : List UInt8) (reachable : c.Reachable)
    (fits : chunk.length ≤ c.c37Buf.getBufferDesc) (reads : c.read chunk = some next)
    : next.Reachable

theorem C37DataChannel.Starts.resting {c : C37DataChannel} (starts : c.Starts)
    : c.c37Buf.Resting :=
  ⟨by rw [starts.noBytes]; exact Nat.zero_le _, Or.inl starts.unknown⟩

theorem C37DataChannel.Starts.pending {c : C37DataChannel} (starts : c.Starts)
    : c.c37Buf.pending = [] := by
  rw [C37Buffer.pending, starts.noBytes]
  rfl

section Read

variable {c : C37DataChannel} {chunk : List UInt8}

theorem received_pending (fits : chunk.length ≤ c.c37Buf.getBufferDesc)
    : (c.received chunk).c37Buf.pending = c.c37Buf.pending ++ chunk :=
  C37Buffer.fill_pending fits

/-- New bytes do not change a header that has been remembered. -/
theorem received_resting (rests : c.c37Buf.Resting)
    (fits : chunk.length ≤ c.c37Buf.getBufferDesc)
    : (c.received chunk).c37Buf.Resting := by
  have pending := received_pending fits
  obtain ⟨valid, aligned⟩ := rests
  rw [C37Buffer.getBufferDesc] at fits
  refine ⟨?_, ?_⟩
  · change c.c37Buf.validBufferBytes + chunk.length ≤ maxBufferBytes
    omega
  · rcases aligned with state | ⟨state, header, bounded⟩
    · exact Or.inl state
    · refine Or.inr ⟨state, ?_, bounded⟩
      rw [pending]
      exact frameHeader_stable _ chunk _ header

theorem read_eq_run (nonempty : 0 < chunk.length)
    : c.read chunk = FuelLoop.run frameTurn frameFuel (c.received chunk) := by
  rw [C37DataChannel.read, C37DataChannel.readHandler, if_pos (by omega)]
  rfl

/-- One read event cuts what the parser cuts from the pending bytes and the new ones. -/
theorem read_parses (rests : c.c37Buf.Resting) (nonempty : 0 < chunk.length)
    (fits : chunk.length ≤ c.c37Buf.getBufferDesc)
    (nonzero : 0 ∉ sizes frameHeader (c.c37Buf.pending ++ chunk))
    : ∃ next,
        c.read chunk = some next
        ∧ next.dispatched
          = c.dispatched ++ (parse frameHeader (c.c37Buf.pending ++ chunk)).1
        ∧ next.c37Buf.pending = (parse frameHeader (c.c37Buf.pending ++ chunk)).2
        ∧ next.c37Buf.Resting := by
  rw [← received_pending fits] at nonzero ⊢
  rw [read_eq_run nonempty]
  exact frameLoop_parses (received_resting rests fits) nonzero

end Read

/-- Read events in a row, by induction over the chunks: what is left of one read is parsed
with the next.
-/
theorem reads_parse {c : C37DataChannel} (rests : c.c37Buf.Resting)
    (waits : front frameHeader c.c37Buf.pending = none) {chunks : List (List UInt8)}
    (fits : c.Fits chunks)
    (nonzero : 0 ∉ sizes frameHeader (c.c37Buf.pending ++ chunks.flatten))
    : ∃ next,
        c.reads chunks = some next
        ∧ next.dispatched
          = c.dispatched ++ (parse frameHeader (c.c37Buf.pending ++ chunks.flatten)).1
        ∧ next.c37Buf.pending
          = (parse frameHeader (c.c37Buf.pending ++ chunks.flatten)).2 := by
  induction chunks generalizing c with
  | nil =>
      rw [List.flatten_nil, List.append_nil, Framing.parse_stop waits, List.append_nil]
      exact ⟨c, rfl, rfl, rfl⟩
  | cons chunk rest ih =>
      obtain ⟨nonempty, room, later⟩ := fits
      rw [List.flatten_cons, ← List.append_assoc] at nonzero
      have nonzeroNow : 0 ∉ sizes frameHeader (c.c37Buf.pending ++ chunk) :=
        fun zero => nonzero (Framing.sizes_prefix_subset frameHeader_stable _ _ zero)
      obtain ⟨next, read, dispatched, pending, rests'⟩ :=
        read_parses rests nonempty room nonzeroNow
      have nonzeroLater : 0 ∉ sizes frameHeader (next.c37Buf.pending ++ rest.flatten) := by
        rw [pending]
        exact fun zero =>
          nonzero (Framing.sizes_rest_subset frameHeader_stable _ _ zero)
      have waitsLater : front frameHeader next.c37Buf.pending = none := by
        rw [pending]
        exact Framing.parse_rest_stops _
      obtain ⟨final, reads, dispatched', pending'⟩ :=
        ih rests' waitsLater (later next read) nonzeroLater
      refine ⟨final, ?_, ?_, ?_⟩
      · rw [C37DataChannel.reads, read]
        exact reads
      · rw [dispatched', dispatched, pending, List.flatten_cons, ← List.append_assoc,
          Framing.parse_append frameHeader_stable (c.c37Buf.pending ++ chunk),
          List.append_assoc]
      · rw [pending', pending, List.flatten_cons, ← List.append_assoc,
          Framing.parse_append frameHeader_stable (c.c37Buf.pending ++ chunk)]

/-- A shorter run of reads fits where the longer one does. -/
theorem C37DataChannel.Fits.take {c : C37DataChannel} {chunks : List (List UInt8)}
    (fits : c.Fits chunks) (count : Nat)
    : c.Fits (chunks.take count) := by
  induction chunks generalizing c count with
  | nil => simpa using fits
  | cons chunk rest ih =>
      obtain ⟨nonempty, room, later⟩ := fits
      cases count with
      | zero => trivial
      | succ count => exact ⟨nonempty, room, fun next read => ih (later next read) count⟩

theorem front_nil : front frameHeader ([] : List UInt8) = none := rfl

/-- The bytes that wait for more are fewer than the buffer holds, if every size fits. -/
theorem rest_length_lt {bytes : List UInt8}
    (fields : ∀ size ∈ sizes frameHeader bytes, size ≠ 0 ∧ size ≤ maxBufferBytes)
    : (parse frameHeader bytes).2.length < maxBufferBytes := by
  have stops := @Framing.parse_rest_stops _ _ frameHeader bytes
  have fieldsRest
      : ∀ size ∈ sizes frameHeader (parse frameHeader bytes).2,
          size ≠ 0 ∧ size ≤ maxBufferBytes := by
    intro size member
    apply fields size
    have subset := Framing.sizes_rest_subset frameHeader_stable bytes []
    rw [List.append_nil, List.append_nil] at subset
    exact subset member
  generalize (parse frameHeader bytes).2 = rest at stops fieldsRest
  match rest with
  | sync :: kind :: high :: low :: rest =>
      have header := frameHeader_cons sync kind high low rest
      obtain ⟨positive, bounded⟩ := fieldsRest _ (Framing.header_mem_sizes header)
      rcases Framing.front_eq_none header stops with zero | short
      · exact absurd zero positive
      · exact Nat.lt_of_lt_of_le short bounded
  | [] | [_] | [_, _] | [_, _, _] => simp [maxBufferBytes]

/-- Reassembly is exact. After any number of reads of any sizes that fit, the dispatched
frames and the bytes in the buffer are those of a one-pass parser over the bytes received,
no byte is lost or duplicated, and the space for the next read is not empty.
-/
theorem reads_reassemble {c : C37DataChannel} (starts : c.Starts)
    {chunks : List (List UInt8)} (fits : c.Fits chunks)
    (fields
      : ∀ size ∈ sizes frameHeader chunks.flatten, size ≠ 0 ∧ size ≤ maxBufferBytes)
    (count : Nat)
    : ∃ next,
        c.reads (chunks.take count) = some next
        ∧ next.dispatched = (parse frameHeader (chunks.take count).flatten).1
        ∧ next.c37Buf.pending = (parse frameHeader (chunks.take count).flatten).2
        ∧ (next.dispatched.map Prod.snd).flatten ++ next.c37Buf.pending
          = (chunks.take count).flatten
        ∧ 0 < next.c37Buf.getBufferDesc := by
  have received : chunks.flatten = (chunks.take count).flatten ++ (chunks.drop count).flatten := by
    rw [← List.flatten_append, List.take_append_drop]
  have fieldsNow
      : ∀ size ∈ sizes frameHeader (chunks.take count).flatten,
          size ≠ 0 ∧ size ≤ maxBufferBytes := by
    intro size member
    apply fields size
    rw [received]
    exact Framing.sizes_prefix_subset frameHeader_stable _ _ member
  obtain ⟨next, reads, dispatched, pending⟩ :=
    reads_parse starts.resting (by rw [starts.pending]; exact front_nil) (fits.take count)
      (by
        rw [starts.pending, List.nil_append]
        exact fun zero => (fieldsNow 0 zero).1 rfl)
  rw [starts.pending, List.nil_append] at dispatched pending
  have noCalls : c.dispatched = [] := by rw [C37DataChannel.dispatched, starts.noCalls]; rfl
  rw [noCalls, List.nil_append] at dispatched
  refine ⟨next, reads, dispatched, pending, ?_, ?_⟩
  · rw [dispatched, pending]
    exact Framing.parse_flatten _
  · have short := rest_length_lt fieldsNow
    rw [← pending, C37Buffer.pending_length] at short
    rw [C37Buffer.getBufferDesc]
    omega

/-- A stream that is no longer than the buffer fits however it is cut. -/
theorem C37DataChannel.Fits.of_short {c : C37DataChannel} (rests : c.c37Buf.Resting)
    {chunks : List (List UInt8)} (nonempty : ∀ chunk ∈ chunks, 0 < chunk.length)
    (nonzero : 0 ∉ sizes frameHeader (c.c37Buf.pending ++ chunks.flatten))
    (short : (c.c37Buf.pending ++ chunks.flatten).length ≤ maxBufferBytes)
    : c.Fits chunks := by
  induction chunks generalizing c with
  | nil => trivial
  | cons chunk rest ih =>
      rw [List.flatten_cons, ← List.append_assoc] at nonzero short
      rw [List.length_append, List.length_append, C37Buffer.pending_length] at short
      have room : chunk.length ≤ c.c37Buf.getBufferDesc := by
        rw [C37Buffer.getBufferDesc]
        omega
      refine ⟨nonempty chunk (by simp), room, ?_⟩
      intro next read
      obtain ⟨next', read', _, pending, rests'⟩ :=
        read_parses rests (nonempty chunk (by simp)) room
          (fun zero => nonzero (Framing.sizes_prefix_subset frameHeader_stable _ _ zero))
      obtain rfl : next = next' := Option.some.inj (read.symm.trans read')
      have kept := congrArg List.length
        (@Framing.parse_flatten _ _ frameHeader (c.c37Buf.pending ++ chunk))
      rw [List.length_append, List.length_append, C37Buffer.pending_length] at kept
      apply ih rests' (fun chunk member => nonempty chunk (by simp [member]))
      · rw [pending]
        exact fun zero => nonzero (Framing.sizes_rest_subset frameHeader_stable _ _ zero)
      · rw [List.length_append, pending]
        omega

/-- A new channel over an array of zeros. -/
def newChannel : C37DataChannel :=
  { c37Buf := { buffer := fun _ => 0, msgType := 0 } }

theorem newChannel_starts : newChannel.Starts :=
  ⟨rfl, rfl, rfl⟩

/-- A header frame of six bytes in three reads that cut its size field, with the start of
the next frame.
-/
theorem reads_reassemble_cut_header
    : ∃ next,
        newChannel.reads ([[0xaa, 0x11, 0], [6, 1], [2, 0xaa]].take 3) = some next
        ∧ next.dispatched
          = (parse frameHeader ([[0xaa, 0x11, 0], [6, 1], [2, 0xaa]].take 3).flatten).1
        ∧ next.c37Buf.pending
          = (parse frameHeader ([[0xaa, 0x11, 0], [6, 1], [2, 0xaa]].take 3).flatten).2
        ∧ (next.dispatched.map Prod.snd).flatten ++ next.c37Buf.pending
          = ([[0xaa, 0x11, 0], [6, 1], [2, 0xaa]].take 3).flatten
        ∧ 0 < next.c37Buf.getBufferDesc := by
  have read : sizes frameHeader ([[0xaa, 0x11, 0], [6, 1], [2, 0xaa]] : List (List UInt8)).flatten
      = [6] := by
    have complete
        : front frameHeader ([[0xaa, 0x11, 0], [6, 1], [2, 0xaa]] : List (List UInt8)).flatten
          = some ⟨1, 6, by decide, by decide⟩ := rfl
    rw [Framing.sizes_cut complete, Framing.sizes_stop rfl]
    rfl
  have fits : newChannel.Fits [[0xaa, 0x11, 0], [6, 1], [2, 0xaa]] := by
    apply C37DataChannel.Fits.of_short newChannel_starts.resting
    · decide
    · rw [newChannel_starts.pending, List.nil_append, read]
      decide
    · rw [newChannel_starts.pending, List.nil_append]
      decide
  refine reads_reassemble newChannel_starts fits ?_ 3
  rw [read]
  decide

-----------------------------------------------------------------------------------------
-- Does one read event end?
-----------------------------------------------------------------------------------------

theorem C37DataChannel.Reachable.resting {c : C37DataChannel} (reachable : c.Reachable)
    : c.c37Buf.Resting := by
  induction reachable with
  | start c starts => exact starts.resting
  | read c next chunk _ fits reads rests =>
      by_cases nonempty : 0 < chunk.length
      · rw [read_eq_run nonempty] at reads
        have rests' := received_resting rests fits
        have halts : FuelLoop.Halts frameTurn (c.received chunk) :=
          ⟨frameFuel, by rw [reads]; rfl⟩
        obtain ⟨next', finished, _, _, kept⟩ :=
          frameLoop_parses rests' ((frameLoop_halts_iff rests').mp halts)
        obtain rfl : next = next' := Option.some.inj (reads.symm.trans finished)
        exact kept
      · rw [C37DataChannel.read, C37DataChannel.readHandler, if_neg (by omega)] at reads
        rw [← Option.some.inj reads]
        exact ⟨Nat.zero_le _, Or.inl rfl⟩

/-- In every state a channel can be in, the frame loop of the next read event ends if and
only if the parser meets no frame size of zero in the bytes at hand.
-/
theorem readHandler_halts_iff {c : C37DataChannel} (reachable : c.Reachable)
    {chunk : List UInt8} (fits : chunk.length ≤ c.c37Buf.getBufferDesc)
    : FuelLoop.Halts frameTurn (c.received chunk)
      ↔ 0 ∉ sizes frameHeader (c.c37Buf.pending ++ chunk) := by
  rw [← received_pending fits]
  exact frameLoop_halts_iff (received_resting reachable.resting fits)

/-- A header of size four with a type that is ignored. -/
theorem readHandler_halts_iff_four
    : FuelLoop.Halts frameTurn (newChannel.received [0xaa, 0x11, 0, 4]) :=
  (readHandler_halts_iff (.start newChannel newChannel_starts) (by decide)).mpr (by
    decide +kernel)

/-- Four bytes with a size of zero are dispatched as a data frame for ever. -/
theorem readHandler_zero_size_loops
    : newChannel.Reachable
      ∧ [0xaa, 0x01, 0, 0].length ≤ newChannel.c37Buf.getBufferDesc
      ∧ ¬FuelLoop.Halts frameTurn (newChannel.received [0xaa, 0x01, 0, 0]) := by
  have fits : ([0xaa, 0x01, 0, 0] : List UInt8).length ≤ newChannel.c37Buf.getBufferDesc := by
    decide
  refine ⟨.start newChannel newChannel_starts, by decide, ?_⟩
  rw [frameLoop_halts_iff (received_resting newChannel_starts.resting fits),
    received_pending fits, newChannel_starts.pending, not_not]
  exact Framing.header_mem_sizes (frameHeader_cons 0xaa 0x01 0 0 [])

end Sparcs.C37
