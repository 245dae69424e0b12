import Sparcs.Ftp.Archivers
import Sparcs.Library.TracedMemory

/-! The byte order of a data file, which `postProcessUPMUdata` guesses from the year and turns
into that of the platform.
-/

namespace Sparcs.Discovery

open Blocks

-----------------------------------------------------------------------------------------
-- `postProcessUPMUdata`
-----------------------------------------------------------------------------------------

/-- The buffer, by offsets from `dataBuf`. -/
abbrev DataBuf := TracedMemory UInt8

/-- The `unsigned int` at an offset. -/
def DataBuf.load (platformBigEndian : Bool) (offset : Nat) (buf : DataBuf) : UInt32 :=
  if platformBigEndian then
    bigEndian32 (buf.cell offset) (buf.cell (offset + 1)) (buf.cell (offset + 2))
      (buf.cell (offset + 3))
  else
    bigEndian32 (buf.cell (offset + 3)) (buf.cell (offset + 2)) (buf.cell (offset + 1))
      (buf.cell offset)

/-- An `unsigned int` is written at an offset. -/
def DataBuf.store (platformBigEndian : Bool) (offset : Nat) (value : UInt32) (buf : DataBuf)
    : DataBuf :=
  if platformBigEndian then
    (((buf.write offset (value >>> 24).toUInt8).write (offset + 1) (value >>> 16).toUInt8).write
      (offset + 2) (value >>> 8).toUInt8).write (offset + 3) value.toUInt8
  else
    (((buf.write offset value.toUInt8).write (offset + 1) (value >>> 8).toUInt8).write
      (offset + 2) (value >>> 16).toUInt8).write (offset + 3) (value >>> 24).toUInt8

/-- The value that `swapBytesUint` assigns. -/
def swapBytes (temp : UInt32) : UInt32 :=
  (temp &&& 0xff000000) >>> 24 ||| (temp &&& 0x00ff0000) >>> 8
    ||| (temp &&& 0x0000ff00) <<< 8 ||| (temp &&& 0x000000ff) <<< 24

/-- `swapBytesUint` -/
def swapBytesUint (platformBigEndian : Bool) (offset : Nat) (buf : DataBuf) : DataBuf :=
  DataBuf.store platformBigEndian offset (swapBytes (buf.load platformBigEndian offset))
    ((((buf.touch offset).touch (offset + 1)).touch (offset + 2)).touch (offset + 3))

/-- The loop over one second of data. -/
def swapRecord (platformBigEndian : Bool) (dataPtr : Nat) (buf : DataBuf) : DataBuf :=
  strideLoop 4 (by decide) (swapBytesUint platformBigEndian) (dataPtr + 6312) dataPtr
    buf

/-- The loop over the buffer. -/
def swapBuffer (platformBigEndian : Bool) (dataLen : UInt32) (buf : DataBuf) : DataBuf :=
  strideLoop 6312 (by decide) (swapRecord platformBigEndian) dataLen.toNat 0 buf

/-- The top bytes of the year; the second one is read if the first one is zero. -/
def inspectYear (buf : DataBuf) : Bool × DataBuf :=
  if buf.cell 4 = 0 then (buf.cell 5 = 0, (buf.touch 4).touch 5) else (false, buf.touch 4)

/-- `postProcessUPMUdata` up to the offers: the buffer that the other services get. -/
def postProcessUPMUdata (platformBigEndian : Bool) (dataLen : UInt32) (buf : DataBuf) : DataBuf :=
  let (dataBigEndian, buf) := inspectYear buf
  if platformBigEndian ≠ dataBigEndian then swapBuffer platformBigEndian dataLen buf else buf

/-- The bytes that are offered. -/
def DataBuf.offered (dataLen : UInt32) (buf : DataBuf) : List UInt8 :=
  (List.range dataLen.toNat).map buf.cell

-----------------------------------------------------------------------------------------
-- Words
-----------------------------------------------------------------------------------------

/-- A mask of eight bits keeps one byte of a number. -/
theorem and_mask (n k : Nat) : n &&& 255 <<< k = (n / 2 ^ k % 256) <<< k := by
  apply Nat.eq_of_testBit_eq
  intro i
  have ones (j : Nat) : Nat.testBit 255 j = decide (j < 8) :=
    Nat.testBit_two_pow_sub_one 8 j
  rw [show 256 = 2 ^ 8 from rfl]
  simp only [Nat.testBit_and, Nat.testBit_shiftLeft, ones, Nat.testBit_mod_two_pow,
    Nat.testBit_div_two_pow]
  grind

/-- The masks and shifts reverse the bytes. -/
theorem swapBytes_bigEndian32 (b0 b1 b2 b3 : UInt8)
    : swapBytes (bigEndian32 b0 b1 b2 b3) = bigEndian32 b3 b2 b1 b0 := by
  have value := bigEndian32_toNat b0 b1 b2 b3
  have bounded0 := b0.toNat_lt
  have bounded1 := b1.toNat_lt
  have bounded2 := b2.toNat_lt
  have bounded3 := b3.toNat_lt
  generalize bigEndian32 b0 b1 b2 b3 = word at value
  have first : ((word &&& 0xff000000) >>> 24).toNat = b0.toNat := by
    rw [UInt32.toNat_shiftRight, UInt32.toNat_and]
    change (word.toNat &&& 255 <<< 24) >>> 24 = _
    rw [and_mask, Nat.shiftLeft_shiftRight]
    omega
  have second : ((word &&& 0x00ff0000) >>> 8).toNat = b1.toNat <<< 8 := by
    rw [UInt32.toNat_shiftRight, UInt32.toNat_and]
    change (word.toNat &&& 255 <<< 16) >>> 8 = _
    rw [and_mask, Nat.shiftLeft_eq, Nat.shiftLeft_eq, Nat.shiftRight_eq_div_pow]
    omega
  have third : ((word &&& 0x0000ff00) <<< 8).toNat = b2.toNat <<< 16 := by
    rw [UInt32.toNat_shiftLeft, UInt32.toNat_and]
    change (word.toNat &&& 255 <<< 8) <<< 8 % 2 ^ 32 = _
    rw [and_mask, Nat.shiftLeft_eq, Nat.shiftLeft_eq, Nat.shiftLeft_eq]
    omega
  have fourth : ((word &&& 0x000000ff) <<< 24).toNat = b3.toNat <<< 24 := by
    rw [UInt32.toNat_shiftLeft, UInt32.toNat_and]
    change (word.toNat &&& 255 <<< 0) <<< 24 % 2 ^ 32 = _
    rw [and_mask, Nat.shiftLeft_eq, Nat.shiftLeft_eq, Nat.shiftLeft_eq]
    omega
  rw [swapBytes, ← UInt32.toNat_inj, bigEndian32_toNat]
  simp only [UInt32.toNat_or, first, second, third, fourth]
  -- The lower parts stay below the bits of the next one.
  have low : b0.toNat ||| b1.toNat <<< 8 = b1.toNat <<< 8 + b0.toNat := by
    rw [Nat.or_comm, ← Nat.shiftLeft_add_eq_or_of_lt (by omega)]
  have half : (b0.toNat ||| b1.toNat <<< 8) ||| b2.toNat <<< 16
      = b2.toNat <<< 16 + (b1.toNat <<< 8 + b0.toNat) := by
    rw [low, Nat.or_comm, ← Nat.shiftLeft_add_eq_or_of_lt (by
      rw [Nat.shiftLeft_eq]
      omega)]
  rw [half, Nat.or_comm, ← Nat.shiftLeft_add_eq_or_of_lt (by
    rw [Nat.shiftLeft_eq, Nat.shiftLeft_eq]
    omega)]
  simp only [Nat.shiftLeft_eq]
  omega

/-- A word is read back from its bytes. -/
theorem bytes_bigEndian32 (b0 b1 b2 b3 : UInt8)
    : (bigEndian32 b0 b1 b2 b3 >>> 24).toUInt8 = b0 ∧ (bigEndian32 b0 b1 b2 b3 >>> 16).toUInt8 = b1
      ∧ (bigEndian32 b0 b1 b2 b3 >>> 8).toUInt8 = b2 ∧ (bigEndian32 b0 b1 b2 b3).toUInt8 = b3 := by
  have value := bigEndian32_toNat b0 b1 b2 b3
  have bounded0 := b0.toNat_lt
  have bounded1 := b1.toNat_lt
  have bounded2 := b2.toNat_lt
  have bounded3 := b3.toNat_lt
  refine ⟨?_, ?_, ?_, ?_⟩
  all_goals
    apply UInt8.toNat.inj
    simp [UInt32.toNat_shiftRight, value, Nat.shiftRight_eq_div_pow]
    omega

/-- The bytes of a word change places, on either platform, and four bytes are touched. -/
theorem swapBytesUint_eq (platformBigEndian : Bool) (offset : Nat) (buf : DataBuf)
    : swapBytesUint platformBigEndian offset buf
      = { cell := fun i =>
            if offset ≤ i ∧ i < offset + 4 then buf.cell (2 * offset + 3 - i) else buf.cell i
          touched :=
            [offset + 3, offset + 2, offset + 1, offset, offset + 3, offset + 2, offset + 1, offset]
              ++ buf.touched } := by
  obtain ⟨cell, touched⟩ := buf
  have bytes := bytes_bigEndian32 (cell (offset + 3)) (cell (offset + 2)) (cell (offset + 1))
    (cell offset)
  have bytes' := bytes_bigEndian32 (cell offset) (cell (offset + 1)) (cell (offset + 2))
    (cell (offset + 3))
  have places (i : Nat) : i = offset ∨ i = offset + 1 ∨ i = offset + 2 ∨ i = offset + 3
      ∨ ¬(offset ≤ i ∧ i < offset + 4) := by
    omega
  have mirrored : 2 * offset + 3 - (offset + 3) = offset
      ∧ 2 * offset + 3 - (offset + 2) = offset + 1 ∧ 2 * offset + 3 - (offset + 1) = offset + 2
      ∧ 2 * offset + 3 - offset = offset + 3 := by
    omega
  obtain ⟨mirror3, mirror2, mirror1, mirror0⟩ := mirrored
  cases platformBigEndian
  all_goals
    simp only [swapBytesUint, DataBuf.load, DataBuf.store, TracedMemory.touch, if_true,
      Bool.false_eq_true, if_false, swapBytes_bigEndian32, TracedMemory.write, bytes, bytes']
    congr 1
    funext i
    rcases places i with rfl | rfl | rfl | rfl | elsewhere
    · simp [mirror0]
    · simp [mirror1]
    · simp [mirror2]
    · simp [mirror3]
    · rw [if_neg (by omega), if_neg (by omega), if_neg (by omega), if_neg (by omega),
        if_neg elsewhere]

-----------------------------------------------------------------------------------------
-- Loops
-----------------------------------------------------------------------------------------

/-- The place of a byte in the other byte order of its word. -/
def mirror (i : Nat) : Nat := 4 * (i / 4) + (3 - i % 4)

/-- The words from one offset to another have been swapped, each of them once, and nothing else
has been touched since.
-/
structure Swapped (start stop : Nat) (before after : DataBuf) : Prop where
  cell : ∀ i, after.cell i = if start ≤ i ∧ i < stop then before.cell (mirror i) else before.cell i
  touched : ∀ i, i ∈ after.touched ↔ i ∈ before.touched ∨ start ≤ i ∧ i < stop

namespace Swapped

variable {before middle after : DataBuf} {start between stop : Nat}

theorem refl (start : Nat) (buf : DataBuf) : Swapped start start buf buf where
  cell := by
    intro i
    rw [if_neg (by omega)]
  touched := by
    intro i
    exact (or_iff_left (by omega)).symm

/-- Words that follow each other; the words are those of the file, so no byte of a later word
comes from an earlier one.
-/
theorem trans (first : Swapped start between before middle)
    (second : Swapped between stop middle after) (low : start ≤ between) (high : between ≤ stop)
    (aligned : 4 ∣ between)
    : Swapped start stop before after where
  cell := by
    intro i
    obtain ⟨words, rfl⟩ := aligned
    have after' := second.cell i
    have middle' := first.cell i
    have mirrored := first.cell (mirror i)
    unfold mirror at after' middle' mirrored ⊢
    grind
  touched := by
    intro i
    rw [second.touched, first.touched, or_assoc]
    refine or_congr_right ?_
    omega

end Swapped

/-- One word. -/
theorem swapped_swapBytesUint (platformBigEndian : Bool) {offset : Nat} (aligned : 4 ∣ offset)
    (buf : DataBuf)
    : Swapped offset (offset + 4) buf (swapBytesUint platformBigEndian offset buf) where
  cell := by
    intro i
    obtain ⟨words, rfl⟩ := aligned
    rw [swapBytesUint_eq]
    dsimp only
    split_ifs with within
    · have place : 2 * (4 * words) + 3 - i = mirror i := by
        unfold mirror
        omega
      rw [place]
    · rfl
  touched := by
    intro i
    rw [swapBytesUint_eq]
    simp only [List.cons_append, List.nil_append, List.mem_cons]
    by_cases old : i ∈ buf.touched
    · simp [old]
    · simp only [old, or_false, false_or]
      omega

/-- The words of one record. -/
theorem swapped_swapRecord (platformBigEndian : Bool) {dataPtr : Nat} (aligned : 4 ∣ dataPtr)
    (buf : DataBuf)
    : Swapped dataPtr (dataPtr + 6312) buf (swapRecord platformBigEndian dataPtr buf) := by
  obtain ⟨k, past, before, swapped⟩ := @strideLoop_spec _ 4 (by decide)
    (swapBytesUint platformBigEndian) (dataPtr + 6312) dataPtr buf
    (fun k => Swapped dataPtr (dataPtr + 4 * k) buf) (.refl dataPtr buf) (by
      intro k s _ swapped
      have word := swapped_swapBytesUint platformBigEndian
        (Nat.dvd_add aligned (Nat.dvd_mul_right 4 k)) s
      exact swapped.trans word (Nat.le_add_right _ _) (Nat.le_add_right (dataPtr + 4 * k) 4)
        (Nat.dvd_add aligned (Nat.dvd_mul_right 4 k)))
  have turns : k = 1578 := by
    have last := before (k - 1)
    omega
  subst turns
  exact swapped

/-- The words of all records, the last of which may reach beyond the file. -/
theorem swapped_swapBuffer (platformBigEndian : Bool) (dataLen : UInt32) (buf : DataBuf)
    : ∃ k, dataLen.toNat ≤ 6312 * k ∧ (∀ j < k, 6312 * j < dataLen.toNat)
        ∧ Swapped 0 (6312 * k) buf (swapBuffer platformBigEndian dataLen buf) := by
  obtain ⟨k, past, before, swapped⟩ := @strideLoop_spec _ 6312 (by decide)
    (swapRecord platformBigEndian) dataLen.toNat 0 buf (fun k => Swapped 0 (6312 * k) buf)
    (.refl 0 buf) (by
      intro k s _ swapped
      have words : 4 ∣ 6312 * k := Nat.dvd_mul_right_of_dvd (by decide) k
      rw [Nat.zero_add]
      exact swapped.trans (swapped_swapRecord platformBigEndian words s) (Nat.zero_le _)
        (Nat.le_add_right _ _) words)
  refine ⟨k, by omega, ?_, swapped⟩
  intro j turn
  have within := before j turn
  omega

-----------------------------------------------------------------------------------------
-- Files
-----------------------------------------------------------------------------------------

/-- A file in memory; what is behind its end is whatever is there. -/
def fileBuf (file : Nat → UInt8) : DataBuf := { cell := file }

/-- The first bytes of the year make the code swap the words. -/
def SwapsBytes (platformBigEndian : Bool) (file : Nat → UInt8) : Prop :=
  platformBigEndian ≠ decide (file 4 = 0 ∧ file 5 = 0)

theorem inspectYear_spec (file : Nat → UInt8)
    : (inspectYear (fileBuf file)).1 = decide (file 4 = 0 ∧ file 5 = 0)
      ∧ (inspectYear (fileBuf file)).2.cell = file
      ∧ ∀ i, i ∈ (inspectYear (fileBuf file)).2.touched ↔ i = 4 ∨ file 4 = 0 ∧ i = 5 := by
  unfold inspectYear fileBuf
  dsimp only
  split_ifs with zero
  · refine ⟨by simp [zero], rfl, ?_⟩
    intro i
    simp [TracedMemory.touch, zero, or_comm]
  · refine ⟨by simp [zero], rfl, ?_⟩
    intro i
    simp [TracedMemory.touch, zero]

/-- What the call does with a file: it looks at the year, and swaps all words or none. -/
theorem postProcessUPMUdata_spec (platformBigEndian : Bool) (dataLen : UInt32)
    (file : Nat → UInt8)
    : ∃ k, (SwapsBytes platformBigEndian file →
          dataLen.toNat ≤ 6312 * k ∧ ∀ j < k, 6312 * j < dataLen.toNat)
        ∧ (¬SwapsBytes platformBigEndian file → k = 0)
        ∧ (∀ i, (postProcessUPMUdata platformBigEndian dataLen (fileBuf file)).cell i
            = if i < 6312 * k then file (mirror i) else file i)
        ∧ ∀ i, i ∈ (postProcessUPMUdata platformBigEndian dataLen (fileBuf file)).touched
            ↔ (i = 4 ∨ file 4 = 0 ∧ i = 5) ∨ i < 6312 * k := by
  obtain ⟨guess, cell, touched⟩ := inspectYear_spec file
  unfold postProcessUPMUdata SwapsBytes
  dsimp only
  rw [guess]
  by_cases swaps : platformBigEndian ≠ decide (file 4 = 0 ∧ file 5 = 0)
  · obtain ⟨k, past, before, swapped⟩ := swapped_swapBuffer platformBigEndian dataLen
      (inspectYear (fileBuf file)).2
    refine ⟨k, fun _ => ⟨past, before⟩, fun keeps => absurd swaps keeps, ?_, ?_⟩
    · intro i
      rw [if_pos swaps, swapped.cell, cell]
      simp
    · intro i
      rw [if_pos swaps, swapped.touched, touched]
      simp
  · refine ⟨0, fun keeps => absurd keeps swaps, fun _ => rfl, ?_, ?_⟩
    · intro i
      rw [if_neg swaps, cell]
      simp
    · intro i
      rw [if_neg swaps, touched]
      simp

/-- Reads and writes stay inside the file exactly when it has the bytes that are inspected, and
consists of whole records if its words are swapped.
-/
theorem postProcessUPMUdata_staysBelow_iff (platformBigEndian : Bool) (dataLen : UInt32)
    (file : Nat → UInt8)
    : (postProcessUPMUdata platformBigEndian dataLen (fileBuf file)).StaysBelow dataLen.toNat
      ↔ 4 < dataLen.toNat ∧ (file 4 = 0 → 5 < dataLen.toNat)
        ∧ (SwapsBytes platformBigEndian file → 6312 ∣ dataLen.toNat) := by
  obtain ⟨k, swaps, stays, _, touched⟩ := postProcessUPMUdata_spec platformBigEndian dataLen file
  unfold TracedMemory.StaysBelow
  simp only [touched]
  constructor
  · intro below
    have fourth := below 4 (.inl (.inl rfl))
    refine ⟨fourth, fun zero => below 5 (.inl (.inr ⟨zero, rfl⟩)), ?_⟩
    intro swapping
    obtain ⟨past, before⟩ := swaps swapping
    have last := below (6312 * k - 1) (.inr (by omega))
    exact ⟨k, by omega⟩
  · intro inside
    obtain ⟨fourth, fifth, whole⟩ := inside
    intro i accessed
    rcases accessed with (rfl | ⟨zero, rfl⟩) | word
    · exact fourth
    · exact fifth zero
    · by_cases swapping : SwapsBytes platformBigEndian file
      · obtain ⟨n, records⟩ := whole swapping
        have last := (swaps swapping).2 (k - 1)
        omega
      · rw [stays swapping] at word
        omega

/-- An empty file, and one that ends within its first record. -/
theorem postProcessUPMUdata_beyond
    : ¬(postProcessUPMUdata false 0 (fileBuf fun _ => 1)).StaysBelow (0 : UInt32).toNat
      ∧ ¬(postProcessUPMUdata false 6000 (fileBuf fun _ => 0)).StaysBelow
          (6000 : UInt32).toNat := by
  constructor
  · intro below
    obtain ⟨k, _, _, _, touched⟩ := postProcessUPMUdata_spec false 0 fun _ => 1
    exact absurd (below 4 ((touched 4).mpr (.inl (.inl rfl)))) (by decide)
  · intro below
    obtain ⟨k, swaps, _, _, touched⟩ := postProcessUPMUdata_spec false 6000 fun _ => 0
    have past : 6000 ≤ 6312 * k := (swaps (by simp [SwapsBytes])).1
    exact absurd (below 6000 ((touched 6000).mpr (.inr (by omega)))) (by decide)

/-- The same file with every word in big-endian order. -/
def bigEndianForm (file : Nat → UInt8) : Nat → UInt8 := fun i => file (mirror i)

theorem load32_bigEndianForm (file : Nat → UInt8) (size word : Nat)
    : (alloc size (bigEndianForm file)).load32 (4 * word)
      = bswap32 ((alloc size file).load32 (4 * word)) := by
  have places : mirror (4 * word) = 4 * word + 3 ∧ mirror (4 * word + 1) = 4 * word + 2
      ∧ mirror (4 * word + 2) = 4 * word + 1 ∧ mirror (4 * word + 3) = 4 * word := by
    unfold mirror
    omega
  obtain ⟨first, second, third, fourth⟩ := places
  rw [bswap32_load32]
  simp only [Block.load32, alloc, bigEndianForm, first, second, third, fourth]

/-- On a little-endian platform, the other services get the bytes of the little-endian form of a
file, whichever way it was written, if the year of its first record is not 0 and fits 16 bits.
The file may have any number of records, or any other length.
-/
theorem postProcessUPMUdata_byteOrder {dataLen : UInt32} {file : Nat → UInt8}
    (yearFrom : 1 ≤ (Ftp.syncOutputAt (alloc dataLen.toNat file) 0).year.toNat)
    (yearTo : (Ftp.syncOutputAt (alloc dataLen.toNat file) 0).year.toNat ≤ 65535)
    : (postProcessUPMUdata false dataLen (fileBuf file)).offered dataLen
        = (fileBuf file).offered dataLen
      ∧ (postProcessUPMUdata false dataLen (fileBuf (bigEndianForm file))).offered dataLen
        = (fileBuf file).offered dataLen := by
  have year : (Ftp.syncOutputAt (alloc dataLen.toNat file) 0).year.toNat
      = 16777216 * (file 7).toNat + 65536 * (file 6).toNat + 256 * (file 5).toNat
        + (file 4).toNat :=
    bigEndian32_toNat (file 7) (file 6) (file 5) (file 4)
  have zero (b : UInt8) : b = 0 ↔ b.toNat = 0 := by
    rw [← UInt8.toNat_inj]
    rfl
  have low : ¬(file 4 = 0 ∧ file 5 = 0) := by
    rw [zero, zero]
    omega
  have high : file 7 = 0 ∧ file 6 = 0 := by
    rw [zero, zero]
    omega
  constructor
  · obtain ⟨k, _, stays, cell, _⟩ := postProcessUPMUdata_spec false dataLen file
    obtain rfl := stays (by simp [SwapsBytes, low])
    refine List.map_congr_left fun i _ => ?_
    rw [cell, if_neg (Nat.not_lt_zero i), fileBuf]
  · obtain ⟨k, swaps, _, cell, _⟩ := postProcessUPMUdata_spec false dataLen (bigEndianForm file)
    obtain ⟨past, _⟩ := swaps (by simp [SwapsBytes, bigEndianForm, mirror, high])
    refine List.map_congr_left fun i member => ?_
    have within := List.mem_range.mp member
    have back : mirror (mirror i) = i := by
      unfold mirror
      omega
    rw [cell, if_pos (by omega), bigEndianForm, back, fileBuf]

/-- A file of one record, all of whose words are 1. -/
theorem postProcessUPMUdata_byteOrder_one
    : (postProcessUPMUdata false 6312 (fileBuf fun i => if i % 4 = 0 then 1 else 0)).offered 6312
        = (fileBuf fun i => if i % 4 = 0 then 1 else 0).offered 6312
      ∧ (postProcessUPMUdata false 6312
          (fileBuf (bigEndianForm fun i => if i % 4 = 0 then 1 else 0))).offered 6312
        = (fileBuf fun i => if i % 4 = 0 then 1 else 0).offered 6312 :=
  postProcessUPMUdata_byteOrder (by decide) (by decide)

end Sparcs.Discovery
