import Mathlib.Data.List.Basic

/-! Allocated blocks of bytes. Writes outside a block are not carried out but counted, so
that a program that stays inside its blocks is one whose count stays zero.
-/

namespace Blocks

/-- An allocated block: its size, its bytes, and how many bytes were written past its end.
Only the bytes at indices below `size` belong to the block.
-/
structure Block where
  size : Nat
  byte : Nat → UInt8
  beyond : Nat

def alloc (size : Nat) (initial : Nat → UInt8) : Block :=
  { size, byte := initial, beyond := 0 }

/-- The bytes from index `offset` on are replaced by the data. -/
def Block.write (b : Block) (offset : Nat) (data : List UInt8) : Block :=
  { b with
    byte := fun i =>
      if offset ≤ i ∧ i < b.size then (data[i - offset]?).getD (b.byte i) else b.byte i
    beyond := b.beyond + (data.length - (b.size - offset)) }

def Block.read (b : Block) (offset count : Nat) : List UInt8 :=
  (List.range count).map fun i => b.byte (offset + i)

/-- The low `width` bytes of a number, least significant first. -/
def littleEndian : (width n : Nat) → List UInt8
  | 0, _ => []
  | width + 1, n => UInt8.ofNat n :: littleEndian width (n / 256)

@[simp] theorem littleEndian_length (width n : Nat)
    : (littleEndian width n).length = width := by
  induction width generalizing n with
  | zero => rfl
  | succ width ih => rw [littleEndian, List.length_cons, ih]

section Write

variable (b : Block) (offset : Nat) (data : List UInt8)

@[simp] theorem write_size : (b.write offset data).size = b.size := rfl

/-- A written byte is the data's. -/
theorem write_byte_inside {i : Nat} (within : i < data.length)
    (inside : offset + i < b.size)
    : (b.write offset data).byte (offset + i) = data[i] := by
  simp [Block.write, inside, within]

@[simp] theorem write_nil : b.write offset [] = b := by
  simp [Block.write]

/-- Adjacent writes are one write, also where they pass the end of the block. -/
theorem write_append (more : List UInt8)
    : (b.write offset data).write (offset + data.length) more
      = b.write offset (data ++ more) := by
  simp only [Block.write, Block.mk.injEq, true_and]
  constructor
  · funext i
    by_cases inside : i < b.size
    · rcases Nat.lt_or_ge i offset with first | first
      · have notSecond : ¬offset + data.length ≤ i := by omega
        simp [Nat.not_le.mpr first, notSecond]
      · rcases Nat.lt_or_ge i (offset + data.length) with second | second
        · have within : i - offset < data.length := by omega
          simp [inside, first, Nat.not_le.mpr second, List.getElem?_append, within]
        · have past : ¬i - offset < data.length := by omega
          have index : i - (offset + data.length) = i - offset - data.length := by omega
          simp [inside, first, second, List.getElem?_append, past, index]
    · simp [inside]
  · rw [List.length_append]
    omega

end Write

/-- Only the bytes that come to lie inside the block matter, and how many there are. -/
theorem write_congr (b : Block) (offset : Nat) {data other : List UInt8}
    (length : data.length = other.length)
    (same : ∀ i, offset + i < b.size → data[i]? = other[i]?)
    : b.write offset data = b.write offset other := by
  simp only [Block.write, Block.mk.injEq, true_and, length, and_true]
  funext i
  split_ifs with inside
  · rw [same (i - offset) (by omega)]
  · rfl

theorem length_flatMap_width {α β : Type} {record : α → List β} {width : Nat}
    (length : ∀ item, (record item).length = width) (items : List α)
    : (items.flatMap record).length = width * items.length := by
  simp [List.length_flatMap, length, Nat.mul_comm]

/-- A loop that writes items of one width, each behind the one before. -/
theorem foldl_write (b : Block) (offset width : Nat) (item : Nat → List UInt8)
    (length : ∀ i, (item i).length = width) (count : Nat)
    : (List.range count).foldl (fun b i => b.write (offset + width * i) (item i)) b
      = b.write offset ((List.range count).flatMap item) := by
  induction count with
  | zero => simp
  | succ count ih =>
      have written : ((List.range count).flatMap item).length = width * count := by
        rw [length_flatMap_width length, List.length_range]
      rw [List.range_succ, List.foldl_append, ih, List.flatMap_append, ← write_append, written]
      simp

@[simp] theorem read_length (b : Block) (offset count : Nat)
    : (b.read offset count).length = count := by
  rw [Block.read, List.length_map, List.length_range]

theorem read_getElem? (b : Block) (offset : Nat) {count i : Nat} (within : i < count)
    : (b.read offset count)[i]? = some (b.byte (offset + i)) := by
  rw [Block.read, List.getElem?_map, List.getElem?_range within, Option.map_some]

/-- Records of one width are found by their index, by induction over the records before. -/
theorem flatMap_getElem? {α β : Type} {record : α → List β} {width : Nat}
    (length : ∀ item, (record item).length = width) (items : List α) (k : Nat) {j : Nat}
    (within : j < width)
    : (items.flatMap record)[width * k + j]? = items[k]?.bind fun item => (record item)[j]? := by
  induction items generalizing k with
  | nil => simp
  | cons item items ih =>
      rw [List.flatMap_cons, List.getElem?_append, length]
      cases k with
      | zero => simp [within]
      | succ k =>
          have later : ¬width * (k + 1) + j < width := by
            rw [Nat.mul_succ]
            omega
          have index : width * (k + 1) + j - width = width * k + j := by
            rw [Nat.mul_succ]
            omega
          rw [if_neg later, index, ih, List.getElem?_cons_succ]

/-- The word of four bytes, the first one the most significant. -/
def bigEndian32 (b0 b1 b2 b3 : UInt8) : UInt32 :=
  (b0.toUInt32 <<< 24) + (b1.toUInt32 <<< 16) + (b2.toUInt32 <<< 8) + b3.toUInt32

/-- The word at a byte offset, as a little-endian machine loads it. -/
def Block.load32 (b : Block) (offset : Nat) : UInt32 :=
  bigEndian32 (b.byte (offset + 3)) (b.byte (offset + 2)) (b.byte (offset + 1))
    (b.byte offset)

/-- The bytes from `start` on as a block of their own, with nothing behind them. -/
def Block.slice (b : Block) (start count : Nat) : Block :=
  { size := count, byte := fun i => if i < count then b.byte (start + i) else 0, beyond := 0 }

/-- A word inside the slice is one of the block. -/
theorem load32_slice (b : Block) (start : Nat) {count offset : Nat}
    (within : offset + 4 ≤ count)
    : (b.slice start count).load32 offset = b.load32 (start + offset) := by
  have inside (k : Nat) (few : k < 4)
      : (b.slice start count).byte (offset + k) = b.byte (start + offset + k) := by
    rw [Block.slice, Nat.add_assoc]
    exact if_pos (by omega)
  have first : (b.slice start count).byte offset = b.byte (start + offset) :=
    inside 0 (by decide)
  rw [Block.load32, Block.load32, inside 3 (by decide), inside 2 (by decide),
    inside 1 (by decide), first]

/-- The bytes of a word in reverse order. -/
def bswap32 (word : UInt32) : UInt32 :=
  bigEndian32 word.toUInt8 (word >>> 8).toUInt8 (word >>> 16).toUInt8 (word >>> 24).toUInt8

theorem bigEndian32_toNat (b0 b1 b2 b3 : UInt8)
    : (bigEndian32 b0 b1 b2 b3).toNat
      = 16777216 * b0.toNat + 65536 * b1.toNat + 256 * b2.toNat + b3.toNat := by
  have bounded0 := b0.toNat_lt
  have bounded1 := b1.toNat_lt
  have bounded2 := b2.toNat_lt
  have bounded3 := b3.toNat_lt
  simp only [bigEndian32, UInt32.toNat_add, UInt32.toNat_shiftLeft, UInt8.toNat_toUInt32,
    Nat.shiftLeft_eq]
  simp
  omega

/-- The bytes of a word can be read from it. -/
theorem bswap32_bigEndian32 (b0 b1 b2 b3 : UInt8)
    : bswap32 (bigEndian32 b0 b1 b2 b3) = bigEndian32 b3 b2 b1 b0 := by
  have value := bigEndian32_toNat b0 b1 b2 b3
  have bounded0 := b0.toNat_lt
  have bounded1 := b1.toNat_lt
  have bounded2 := b2.toNat_lt
  have bounded3 := b3.toNat_lt
  rw [bswap32]
  congr 1
  all_goals
    apply UInt8.toNat.inj
    simp [UInt32.toNat_shiftRight, value, Nat.shiftRight_eq_div_pow]
    omega

/-- A loaded word with its bytes swapped is the big-endian one. -/
theorem bswap32_load32 (b : Block) (offset : Nat)
    : bswap32 (b.load32 offset)
      = bigEndian32 (b.byte offset) (b.byte (offset + 1)) (b.byte (offset + 2))
        (b.byte (offset + 3)) :=
  bswap32_bigEndian32 _ _ _ _

end Blocks
