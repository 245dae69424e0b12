import Mathlib.Tactic.NormNum
import Sparcs.CassSpeed.Messages

/-! A response on the wire: the server's packet, of the size of the payload as a varint and the
payload, in an array of four bytes more than the payload, and how the client reads it.
-/

namespace Sparcs.CassSpeed

open Blocks (Block alloc)
open FieldFormat

/-- An `ArrayOutputStream` with the `CodedOutputStream` on it. -/
structure OutputStream where
  array : Block
  position : Nat

/-- What is written is cut where the array ends. -/
def OutputStream.write (s : OutputStream) (bytes : List UInt8) : OutputStream :=
  let room := bytes.take (s.array.size - s.position)
  { array := s.array.write s.position room, position := s.position + room.length }

/-- `pkt`, as it is sent. There is none if `payload.ByteSize()+4` does not fit an `int`. -/
def sendPacket (memory : Nat → UInt8) (payload : List UInt8) : Option Block :=
  if payload.length + 4 < 2 ^ 31 then
    let aos : OutputStream := { array := alloc (payload.length + 4) memory, position := 0 }
    some ((aos.write (Varint.encode payload.length)).write payload).array
  else
    none

/-- The bytes of a block. -/
def content (b : Block) : List UInt8 := b.read 0 b.size

/-- `readHdr`; `size` keeps what it holds when the bytes are no varint. -/
def readHdr (size : UInt32) (buf : List UInt8) : UInt32 :=
  match Varint.read 10 (buf.take 4) with
  | some (value, _) => UInt32.ofNat value
  | none => size

section ReadBody

variable {M : Type} (format : Format M)

/-- `PushLimit`; a negative limit is none. -/
def pushLimit (limit : UInt32) (bytes : List UInt8) : List UInt8 :=
  if limit.toNat < 2 ^ 31 then bytes.take limit.toNat else bytes

/-- `readBody`: what `payload` has been parsed to. A varint that is not read leaves `siz` as it
is, and no bytes.
-/
def readBody (memory : Nat → UInt8) (sent : List UInt8) (siz : UInt32) : Option M :=
  let buffer := (alloc (siz + 4).toNat memory).write 0 (sent.take (siz + 4).toNat)
  -- the size of the stream is an `int`
  let stream := if buffer.size < 2 ^ 31 then content buffer else []
  match Varint.read 10 stream with
  | some (value, rest) => format.parse (pushLimit (UInt32.ofNat value) rest)
  | none => format.parse (pushLimit siz [])

-----------------------------------------------------------------------------------------
-- What the packet is for
-----------------------------------------------------------------------------------------

/-- Whatever the allocated memory and `size` hold before, the packet is written inside its array
and the client reads the payload from it.
-/
def RoundTrips (payload : M) : Prop :=
  ∀ (memory memory' : Nat → UInt8) (size : UInt32),
    ∃ pkt, sendPacket memory (format.serialize payload) = some pkt
      ∧ pkt.beyond = 0
      ∧ readBody format memory' (content pkt) (readHdr size (content pkt)) = some payload

end ReadBody

-----------------------------------------------------------------------------------------
-- The packet
-----------------------------------------------------------------------------------------

theorem content_alloc (size : Nat) (memory : Nat → UInt8)
    : content (alloc size memory) = (List.range size).map memory := by
  simp [content, Block.read, alloc]

/-- Bytes from the front on replace those of the block. -/
theorem content_write {b : Block} {bytes : List UInt8} (fits : bytes.length ≤ b.size)
    : content (b.write 0 bytes) = bytes ++ (content b).drop bytes.length := by
  apply List.ext_getElem?
  intro i
  rcases Nat.lt_or_ge i b.size with inside | outside
  · rw [content, Blocks.write_size, Blocks.read_getElem? _ _ inside, Nat.zero_add]
    rcases Nat.lt_or_ge i bytes.length with within | behind
    · have written := Blocks.write_byte_inside b 0 bytes within (by omega)
      rw [Nat.zero_add] at written
      rw [written, List.getElem?_append_left within, List.getElem?_eq_getElem within]
    · rw [List.getElem?_append_right behind, List.getElem?_drop, Nat.add_sub_cancel' behind,
        content, Blocks.read_getElem? _ _ inside, Nat.zero_add]
      simp [Block.write, List.getElem?_eq_none behind]
  · have length : (content b).length = b.size := Blocks.read_length b 0 b.size
    have length' : (content (b.write 0 bytes)).length = b.size :=
      Blocks.read_length _ 0 _
    rw [List.getElem?_eq_none (by omega), List.getElem?_eq_none]
    rw [List.length_append, List.length_drop]
    omega

theorem OutputStream.write_write (s : OutputStream) (bytes more : List UInt8)
    : (s.write bytes).write more = s.write (bytes ++ more) := by
  have room : s.array.size - (s.position + (bytes.take (s.array.size - s.position)).length)
      = s.array.size - s.position - bytes.length := by
    rw [List.length_take]
    omega
  have cut : (bytes ++ more).take (s.array.size - s.position)
      = bytes.take (s.array.size - s.position)
        ++ more.take (s.array.size - s.position - bytes.length) :=
    List.take_append
  simp only [OutputStream.write, Blocks.write_size, room, cut, Blocks.write_append,
    List.length_append, Nat.add_assoc]

/-- The packet's bytes: the size and the payload as far as there is room for them, and what the
memory holds behind them. None is written outside.
-/
theorem sendPacket_spec (memory : Nat → UInt8) {payload : List UInt8}
    (small : payload.length + 4 < 2 ^ 31)
    : ∃ pkt behind, sendPacket memory payload = some pkt
        ∧ pkt.beyond = 0
        ∧ content pkt
          = (Varint.encode payload.length ++ payload).take (payload.length + 4) ++ behind := by
  have fits : ((Varint.encode payload.length ++ payload).take (payload.length + 4)).length
      ≤ payload.length + 4 := by
    rw [List.length_take]
    exact Nat.min_le_left _ _
  refine ⟨_, _, ?_, ?_, content_write (b := alloc (payload.length + 4) memory) fits⟩
  · rw [sendPacket, if_pos small]
    simp only [OutputStream.write_write]
    rfl
  · simp only [Block.write, alloc]
    omega

/-- A size below 2^28 takes four bytes at most: the payload is complete. -/
theorem sendPacket_small (memory : Nat → UInt8) {payload : List UInt8}
    (small : payload.length < 2 ^ 28)
    : ∃ pkt behind, sendPacket memory payload = some pkt
        ∧ pkt.beyond = 0
        ∧ content pkt = Varint.encode payload.length ++ (payload ++ behind)
        ∧ (content pkt).length = payload.length + 4 := by
  have header : (Varint.encode payload.length).length ≤ 3 + 1 :=
    (Varint.encode_length_le_iff _ 3).mpr small
  have sendable : payload.length + 4 < 2 ^ 31 := by omega
  obtain ⟨pkt, behind, sends, inside, bytes⟩ := sendPacket_spec memory sendable
  have complete : (Varint.encode payload.length ++ payload).length ≤ payload.length + 4 := by
    rw [List.length_append]
    omega
  rw [List.take_of_length_le complete, List.append_assoc] at bytes
  refine ⟨pkt, behind, sends, inside, bytes, ?_⟩
  have size : pkt.size = payload.length + 4 := by
    rw [sendPacket, if_pos (by omega), Option.some.injEq] at sends
    rw [← sends]
    rfl
  rw [content, Blocks.read_length, size]

-----------------------------------------------------------------------------------------
-- The client
-----------------------------------------------------------------------------------------

/-- The header is in the four bytes at the front. -/
theorem readHdr_encode {n : Nat} (small : n < 2 ^ 28) (size : UInt32) (rest : List UInt8)
    : readHdr size (Varint.encode n ++ rest) = UInt32.ofNat n := by
  have header : (Varint.encode n).length ≤ 3 + 1 := (Varint.encode_length_le_iff n 3).mpr small
  have narrow : n < 128 ^ (9 + 1) := by omega
  have reads := Varint.read_encode narrow (rest.take (4 - (Varint.encode n).length))
  rw [readHdr, List.take_append, List.take_of_length_le header, reads]

/-- What `recv` leaves in a buffer of `count` bytes, when so many are sent. -/
theorem content_recv (memory : Nat → UInt8) {sent : List UInt8} {count : Nat}
    (enough : count ≤ sent.length)
    : content ((alloc count memory).write 0 (sent.take count)) = sent.take count := by
  have length : (sent.take count).length = count := List.length_take_of_le enough
  have nothingLeft : (content (alloc count memory)).drop (sent.take count).length = [] := by
    rw [length, List.drop_eq_nil_iff, content_alloc, List.length_map, List.length_range]
  rw [content_write (Nat.le_of_eq length), nothingLeft, List.append_nil]

section Reading

variable {M : Type} {format : Format M}

/-- The client's body for the size that the header says. -/
theorem readBody_encode (memory : Nat → UInt8) {payload behind : List UInt8}
    (small : payload.length < 2 ^ 28)
    (length
      : (Varint.encode payload.length ++ (payload ++ behind)).length = payload.length + 4)
    : readBody format memory (Varint.encode payload.length ++ (payload ++ behind))
        (UInt32.ofNat payload.length)
      = format.parse payload := by
  have siz : (UInt32.ofNat payload.length).toNat = payload.length := by
    rw [UInt32.toNat_ofNat']
    exact Nat.mod_eq_of_lt (by omega)
  have count : (UInt32.ofNat payload.length + 4).toNat = payload.length + 4 := by
    have four : (4 : UInt32).toNat = 4 := rfl
    rw [UInt32.toNat_add, siz, four]
    exact Nat.mod_eq_of_lt (by omega)
  have narrow : payload.length < 128 ^ (9 + 1) := by omega
  have reads := Varint.read_encode narrow (payload ++ behind)
  have limited : pushLimit (UInt32.ofNat payload.length) (payload ++ behind) = payload := by
    rw [pushLimit, siz, if_pos (by omega), List.take_left]
  have size : (alloc (payload.length + 4) memory).size < 2 ^ 31 := by
    change payload.length + 4 < 2 ^ 31
    omega
  have received := content_recv memory (Nat.le_of_eq length.symm)
  rw [List.take_of_length_le (Nat.le_of_eq length)] at received
  simp only [readBody, count, Blocks.write_size, if_pos size,
    List.take_of_length_le (Nat.le_of_eq length), received, reads, limited]

/-- Four bytes that are no varint leave nothing to be parsed. -/
theorem readBody_cut (lawful : format.Lawful) (memory : Nat → UInt8) {sent : List UInt8}
    (enough : 4 ≤ sent.length) (cut : Varint.read 10 (sent.take 4) = none)
    : readBody format memory sent 0 = some format.blank := by
  have four : (0 + 4 : UInt32).toNat = 4 := rfl
  have size : (alloc 4 memory).size < 2 ^ 31 := by
    change 4 < 2 ^ 31
    decide
  have blank : format.parse [] = some format.blank := by
    rw [← lawful.serialize_blank, lawful.parse_serialize]
    rw [lawful.serialize_blank]
    decide
  simp only [readBody, four, Blocks.write_size, if_pos size, content_recv memory enough, cut]
  exact blank

-----------------------------------------------------------------------------------------
-- The round trip
-----------------------------------------------------------------------------------------

theorem roundTrips_of_small (lawful : format.Lawful) {payload : M}
    (small : (format.serialize payload).length < 2 ^ 28)
    : RoundTrips format payload := by
  intro memory memory' size
  obtain ⟨pkt, behind, sends, inside, bytes, length⟩ := sendPacket_small memory small
  refine ⟨pkt, sends, inside, ?_⟩
  rw [bytes] at length ⊢
  rw [readHdr_encode small, readBody_encode memory' small length]
  exact lawful.parse_serialize (by omega)

/-- A header of five bytes is cut on both sides: with `size` 0 the client reads a payload without
fields.
-/
theorem not_roundTrips_of_large (lawful : format.Lawful) {payload : M}
    (large : 2 ^ 28 ≤ (format.serialize payload).length)
    : ¬RoundTrips format payload := by
  intro roundTrips
  obtain ⟨pkt, sends, _, reads⟩ := roundTrips (fun _ => 0) (fun _ => 0) 0
  have sendable : (format.serialize payload).length + 4 < 2 ^ 31 := by
    by_contra overflows
    rw [sendPacket, if_neg overflows] at sends
    cases sends
  obtain ⟨pkt', behind, sends', _, bytes⟩ := sendPacket_spec (fun _ => 0) sendable
  obtain rfl := Option.some.inj (sends.symm.trans sends')
  have header : 4 < (Varint.encode (format.serialize payload).length).length := by
    have notFour := (Varint.encode_length_le_iff (format.serialize payload).length 3).not.mpr
      (by omega)
    omega
  have front : (content pkt).take 4
      = (Varint.encode (format.serialize payload).length).take 4 := by
    rw [bytes, List.take_append_of_le_length, List.take_take, Nat.min_eq_left (by omega),
      List.take_append_of_le_length (by omega)]
    rw [List.length_take, List.length_append]
    omega
  have cut : Varint.read 10 ((content pkt).take 4) = none := by
    rw [front, Varint.read_take_encode header]
  have enough : 4 ≤ (content pkt).length := by
    have length := congrArg List.length front
    rw [List.length_take, List.length_take] at length
    omega
  have hdr : readHdr 0 (content pkt) = 0 := by
    rw [readHdr, cut]
  rw [hdr, readBody_cut lawful _ enough cut, Option.some.injEq] at reads
  rw [← reads, lawful.serialize_blank, List.length_nil] at large
  exact absurd large (by decide)

end Reading

/-- A response is received as it is sent exactly when the varint of its size takes no more than
the four bytes that both sides reserve for it.
-/
theorem response_roundTrips_iff (payload : CassspeedMessage)
    : RoundTrips CassspeedMessage.format payload
      ↔ (CassspeedMessage.format.serialize payload).length < 2 ^ 28 := by
  constructor
  · intro roundTrips
    by_contra large
    exact not_roundTrips_of_large CassspeedMessage.format_lawful (Nat.not_lt.mp large) roundTrips
  · exact roundTrips_of_small CassspeedMessage.format_lawful

/-- The raw samples of a channel, all zero. -/
def rawSampleset (count : Nat) : SamplesetsMessage where
  name := some "L1mag".toUTF8.toList
  compression := some "Raw".toUTF8.toList
  sample := List.replicate count 0

def rawOutput (count : Nat) : OutputMessage where
  deviceid := some "P3001199".toUTF8.toList
  sampleset := [rawSampleset count]

def rawResponse (count : Nat) : CassspeedMessage where
  timestampstart := some 1480355400000
  timestampend := some 1480914640533
  sampleintervalmsec := none
  numsamples := some (UInt32.ofNat count)
  numdevices := some 1
  outputsets := [rawOutput count]
  status := none

/-- Each sample takes four bytes, in a field of a field of a field. -/
theorem length_rawResponse (count : Nat)
    : 4 * count ≤ (CassspeedMessage.format.serialize (rawResponse count)).length := by
  rcases Nat.eq_zero_or_pos count with rfl | positive
  · exact Nat.zero_le _
  · have samples : (packWords (List.replicate count 0)).length
        < (SamplesetsMessage.format.serialize (rawSampleset count)).length := by
      have nonempty : List.replicate count (0 : UInt32) ≠ [] := by
        rw [ne_eq, List.replicate_eq_nil_iff]
        omega
      have packed : { number := 3, value := .bytes (packWords (List.replicate count 0)) }
          ∈ SamplesetsMessage.format.fields (rawSampleset count) := by
        simp [SamplesetsMessage.format, SamplesetsMessage.fields, rawSampleset, nonempty]
      exact Format.length_lt_of_field packed
    have sampleset : (SamplesetsMessage.format.serialize (rawSampleset count)).length
        < (OutputMessage.format.serialize (rawOutput count)).length :=
      Format.length_lt_of_field (List.mem_append_right _ List.mem_cons_self)
    have output : (OutputMessage.format.serialize (rawOutput count)).length
        < (CassspeedMessage.format.serialize (rawResponse count)).length :=
      Format.length_lt_of_field
        (List.mem_append_left _ (List.mem_append_right _ List.mem_cons_self))
    rw [packWords_length, List.length_replicate] at samples
    omega

/-- Six and a half days of a channel. -/
theorem sixDays_not_roundTrips
    : ¬RoundTrips CassspeedMessage.format (rawResponse (2 ^ 26)) := by
  apply not_roundTrips_of_large CassspeedMessage.format_lawful
  have length := length_rawResponse (2 ^ 26)
  omega

end Sparcs.CassSpeed
