import Sparcs.C37.Reformat

/-! What `processEventBuffer` writes into the block of a second. -/

namespace Sparcs.C37

open Blocks (Block bigEndian32)

/-- The sixty bytes that one saved event gives. -/
def record (pin : Block) : List UInt8 :=
  Blocks.littleEndian 2 secblkLenBytes
    ++ Blocks.littleEndian 2 (pin.byte (fracsecIndx + 3)).toNat
    ++ pin.read socIndx 4
    ++ pin.read fracsecIndx 4
    ++ (List.range 12).flatMap fun i => pin.read (firstPhasorsIndx + i * 4) 4

theorem record_length (pin : Block) : (record pin).length = secblkLenBytes := by
  have word (i : Nat) : (pin.read (firstPhasorsIndx + i * 4) 4).length = 4 := by simp
  have phasors := Blocks.length_flatMap_width word (List.range 12)
  rw [record, List.length_append, phasors]
  simp [secblkLenBytes]

/-- One turn of the loop is one write. -/
theorem packEvent_eq (tBuf : Block) (p32 : Nat) (pin : Block)
    : packEvent tBuf p32 pin = tBuf.write p32 (record pin) := by
  have phasors (tBuf : Block) := Blocks.foldl_write tBuf (p32 + 12) 4
    (fun i => pin.read (firstPhasorsIndx + i * 4) 4) (by simp) 12
  rw [packEvent, phasors, record, ← Blocks.write_append, ← Blocks.write_append,
    ← Blocks.write_append,
    ← Blocks.write_append]
  simp

/-- The loop is one write, by induction over the saved events. -/
theorem packEvents_eq (events : List Block) (tBuf : Block) (p32 : Nat)
    : packEvents events tBuf p32 = tBuf.write p32 (events.flatMap record) := by
  induction events generalizing tBuf p32 with
  | nil => exact (Blocks.write_nil tBuf p32).symm
  | cons pin rest ih =>
      rw [packEvents, packEvent_eq, ih, List.flatMap_cons, ← Blocks.write_append, record_length]

namespace EventBuffer

variable (malloc : Nat → UInt8) (e : EventBuffer)

/-- The block is its length and the records, as far as they fit. -/
theorem dataBuf_eq
    : e.dataBuf malloc
      = (Blocks.alloc e.byteLen malloc).write 0
        (Blocks.littleEndian 4 e.byteLen ++ e.events.flatMap record) := by
  rw [dataBuf, packEvents_eq, ← Blocks.write_append]
  simp

/-- The bytes that go past the block are those of the events past the count. -/
theorem dataBuf_beyond
    : (e.dataBuf malloc).beyond
      = secblkLenBytes * e.events.length - secblkLenBytes * e.sampleCnt.toNat := by
  rw [dataBuf_eq]
  change 0 + (_ - (e.byteLen - 0)) = _
  rw [List.length_append, Blocks.littleEndian_length,
    Blocks.length_flatMap_width record_length, byteLen]
  omega

/-- A byte of a record, wherever the record lies in the block. -/
theorem dataBuf_byte {k j : Nat} {pin : Block} (event : e.events[k]? = some pin)
    (within : j < secblkLenBytes) (fits : k < e.sampleCnt.toNat)
    : some ((e.dataBuf malloc).byte (4 + (secblkLenBytes * k + j))) = (record pin)[j]? := by
  have inRecords := Blocks.flatMap_getElem? record_length e.events k within
  rw [event, Option.bind_some] at inRecords
  rw [← inRecords, dataBuf_eq]
  have inList : k < e.events.length := (List.getElem?_eq_some_iff.mp event).1
  have header := Blocks.littleEndian_length 4 e.byteLen
  have length := Blocks.length_flatMap_width record_length e.events
  have before : secblkLenBytes * k + secblkLenBytes ≤ secblkLenBytes * e.events.length := by
    rw [← Nat.mul_succ]
    exact Nat.mul_le_mul_left _ inList
  have inside : 0 + (4 + (secblkLenBytes * k + j)) < e.byteLen := by
    have room : secblkLenBytes * k + secblkLenBytes ≤ secblkLenBytes * e.sampleCnt.toNat := by
      rw [← Nat.mul_succ]
      exact Nat.mul_le_mul_left _ fits
    rw [byteLen]
    omega
  have written := Blocks.write_byte_inside (Blocks.alloc e.byteLen malloc) 0
    (Blocks.littleEndian 4 e.byteLen ++ e.events.flatMap record)
    (i := 4 + (secblkLenBytes * k + j))
    (by rw [List.length_append, header, length]; omega) inside
  rw [Nat.zero_add] at written
  rw [written, ← List.getElem?_eq_getElem, List.getElem?_append_right (by omega), header,
    Nat.add_sub_cancel_left]

end EventBuffer

/-- Frames that are saved one after the other are handed over in that order. -/
theorem C37Reformat.processEventBuffer_saved (r : C37Reformat) (frames : List C37Buffer)
    : (frames.foldl saveC37event r).processEventBuffer.2
      = ⟨r.c37eventBuf ++ frames.map savedEvent, r.sampleCnt⟩ := by
  induction frames generalizing r with
  | nil => simp [processEventBuffer]
  | cons frame frames ih =>
      rw [List.foldl_cons, ih]
      simp [saveC37event]

/-- A frame's byte stands behind the eight length bytes' first four. -/
theorem savedEvent_byte {frame : C37Buffer} {i : Nat} (inside : i < frame.msgLenBytes)
    : (savedEvent frame).byte (4 + i) = frame.byte i := by
  rw [savedEvent, Blocks.write_byte_inside]
  · rw [List.getElem_map, List.getElem_range]
  · simpa using Nat.lt_add_right 4 inside
  · simpa [Blocks.alloc, Nat.add_comm] using inside

/-- A record begins with its length and the low byte of what the lock field is taken from,
which the length bytes of the saved event make the low byte of the second.
-/
theorem record_header {frame : C37Buffer} (std : frame.msgLenBytes = c37DatumTypicalLen)
    {j : Nat} (before : j < 4)
    : (record (savedEvent frame))[j]? = [60, 0, frame.byte (socIndx + 3), 0][j]? := by
  have inside : socIndx + 3 < frame.msgLenBytes := by
    rw [std]
    decide
  have lock : (savedEvent frame).byte (fracsecIndx + 3) = frame.byte (socIndx + 3) :=
    savedEvent_byte inside
  have small : (frame.byte (socIndx + 3)).toNat / 256 = 0 :=
    Nat.div_eq_of_lt (UInt8.toNat_lt _)
  have header : Blocks.littleEndian 2 secblkLenBytes
        ++ Blocks.littleEndian 2 ((savedEvent frame).byte (fracsecIndx + 3)).toNat
      = [60, 0, frame.byte (socIndx + 3), 0] := by
    rw [lock]
    simp [Blocks.littleEndian, small, secblkLenBytes]
  rw [record, header, List.append_assoc, List.append_assoc, List.getElem?_append_left]
  exact before

/-- The second and the fraction as the record has them. -/
theorem record_time {frame : C37Buffer} (std : frame.msgLenBytes = c37DatumTypicalLen)
    {j : Nat} (from_ : 4 ≤ j) (before : j < 12)
    : (record (savedEvent frame))[j]? = some (frame.byte (j - 2)) := by
  have inside : j - 2 < frame.msgLenBytes := by
    rw [std, c37DatumTypicalLen]
    omega
  have read : (record (savedEvent frame))[j]? = some ((savedEvent frame).byte (j + 2)) := by
    rw [record, List.getElem?_append_left (by simp; omega)]
    by_cases second : j < 8
    · rw [List.getElem?_append_left (by simpa using second),
        List.getElem?_append_right (by simpa using from_),
        Blocks.read_getElem? _ _ (by simp; omega)]
      congr 2
      simp [socIndx]
      omega
    · rw [List.getElem?_append_right (by simpa using second),
        Blocks.read_getElem? _ _ (by simp; omega)]
      congr 2
      simp [fracsecIndx]
      omega
  have index : j + 2 = 4 + (j - 2) := by omega
  rw [read, index, savedEvent_byte inside]

/-- The later bytes of a record are the frame's bytes at the same places. -/
theorem record_phasors {frame : C37Buffer} (std : frame.msgLenBytes = c37DatumTypicalLen)
    {j : Nat} (from_ : 12 ≤ j) (before : j < secblkLenBytes)
    : (record (savedEvent frame))[j]? = some (frame.byte j) := by
  rw [secblkLenBytes] at before
  have inside : j < frame.msgLenBytes := by
    rw [std, c37DatumTypicalLen]
    omega
  have word : (j - 12) / 4 < 12 := by omega
  have index : j - 12 = 4 * ((j - 12) / 4) + (j - 12) % 4 := (Nat.div_add_mod _ _).symm
  have within : (j - 12) % 4 < 4 := Nat.mod_lt _ (by decide)
  rw [record, List.getElem?_append_right (by simpa using from_)]
  simp only [List.length_append, Blocks.littleEndian_length, Blocks.read_length]
  rw [index, Blocks.flatMap_getElem? (by simp) _ _ within, List.getElem?_range word,
    Option.bind_some, Blocks.read_getElem? _ _ within, ← savedEvent_byte inside]
  congr 2
  simp only [firstPhasorsIndx]
  omega

end Sparcs.C37
