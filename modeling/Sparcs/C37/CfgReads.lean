import Sparcs.C37.CfgFrames

/-! Where the configuration parser reads: the blocks that a frame declares, laid one behind
the other, decide whether every index stays below the message's length.
-/

namespace Sparcs.C37

open Traced

section Layout

variable (buf : Bytes)

/-- The 16-bit field at an index, most significant byte first. -/
def fieldAt (index : Nat) : Nat :=
  256 * (buf index).toNat + (buf (index + 1 : Nat)).toNat

/-- Where the block that starts at `base` ends, by its own three channel counts. -/
def blockEnd (base : Nat) : Nat :=
  let phasors := fieldAt buf (base + phnmrOffset)
  let analogs := fieldAt buf (base + annmrOffset)
  let digitals := fieldAt buf (base + dgnmrOffset)
  base + chnamOffset + 16 * (phasors + analogs + 16 * digitals)
    + 4 * (phasors + analogs + digitals) + 4

/-- Where `count` blocks that start at `base` end. -/
def blocksEnd : Nat → Nat → Nat
  | 0, base => base
  | count + 1, base => blocksEnd count (blockEnd buf base)

/-- The blocks that the frame declares end inside its message, at an index of type `int`. -/
def BlocksFit (msgLen : UInt32) : Prop :=
  blocksEnd buf (fieldAt buf numPmuIndx) firstPmuIndx < min msgLen.toNat 2147483648

end Layout

variable {buf : Bytes}

theorem fieldAt_lt (buf : Bytes) (index : Nat) : fieldAt buf index < 65536 := by
  have := (buf index).toNat_lt
  have := (buf (index + 1 : Nat)).toNat_lt
  unfold fieldAt
  omega

theorem blockEnd_bounds (buf : Bytes) (base : Nat)
    : base + 30 ≤ blockEnd buf base ∧ blockEnd buf base < base + 20000000 := by
  have := fieldAt_lt buf (base + phnmrOffset)
  have := fieldAt_lt buf (base + annmrOffset)
  have := fieldAt_lt buf (base + dgnmrOffset)
  simp only [blockEnd, chnamOffset]
  omega

theorem le_blocksEnd (buf : Bytes) (count base : Nat) : base ≤ blocksEnd buf count base := by
  induction count generalizing base with
  | zero => exact Nat.le_refl base
  | succ count ih =>
      have := ih (blockEnd buf base)
      have := blockEnd_bounds buf base
      simp only [blocksEnd]
      omega

theorem int32_of_lt {x : Int} (lower : 0 ≤ x) (upper : x < 2147483648) : int32 x = x := by
  exact Int.bmod_eq_of_le_mul_two (by omega) (by omega)

theorem uint32_of_lt {x : Int} (lower : 0 ≤ x) (upper : x < 4294967296) : uint32 x = x :=
  Int.emod_eq_of_lt lower upper

theorem value_readPair (index : Nat) (next : Int) (isNext : next = (index + 1 : Nat))
    : (readPair buf index next).value.toNat = fieldAt buf index := by
  have high := (buf index).toNat_lt
  have low := (buf (index + 1 : Nat)).toNat_lt
  subst isNext
  simp only [readPair, readByte, fieldAt, value_bind, value_readCell, value_pure,
    UInt32.toNat_add, UInt32.toNat_shiftLeft, UInt8.toNat_toUInt32]
  rw [show UInt32.toNat 8 % 32 = 8 by decide, Nat.shiftLeft_eq]
  omega

variable {region : Int → Prop}

theorem readByte_readsIn (index : Int)
    : ReadsIn region (readByte buf index) ↔ region index := by
  simp [readByte]

theorem readPair_readsIn (index next : Int)
    : ReadsIn region (readPair buf index next) ↔ region index ∧ region next := by
  simp [readPair, readByte_readsIn]

theorem readName_readsIn (address : Nat → Int) (left charCounter : Nat)
    (within : ∀ k, k < left → region (address (charCounter + k)))
    : ReadsIn region (readName buf address left charCounter) := by
  induction left generalizing charCounter with
  | zero => simp [readName]
  | succ left ih =>
      have rest := ih (charCounter + 1) (by
        intro k bound
        have := within (k + 1) (by omega)
        rwa [show charCounter + (k + 1) = charCounter + 1 + k by omega] at this)
      have first := within 0 (by omega)
      simp only [readName, readsIn_bind, readByte_readsIn]
      refine ⟨first, ?_⟩
      split
      · simpa using rest
      · simp

/-- The region holds the indices from `first` to `last`, without it. -/
def Covers (region : Int → Prop) (first last : Nat) : Prop :=
  ∀ index : Nat, first ≤ index → index < last → region index

theorem Covers.mono {first last first' last' : Nat} (covers : Covers region first last)
    (later : first ≤ first') (earlier : last' ≤ last)
    : Covers region first' last' := by
  intro index lower upper
  exact covers index (Nat.le_trans later lower) (Nat.lt_of_lt_of_le upper earlier)

theorem readNames_spec (buf : Bytes) (left first : Nat)
    (covers : Covers region first (first + 16 * left))
    (fits : first + 16 * left < 4294967296)
    : ReadsIn region (readNames buf left first)
      ∧ (readNames buf left first).value.2 = (first + 16 * left : Nat) := by
  induction left generalizing first with
  | zero => simp [readNames]
  | succ left ih =>
      have next : uint32 ((first : Int) + 16) = (first + 16 : Nat) := by
        rw [uint32_of_lt] <;> omega
      obtain ⟨within, final⟩ := ih (first + 16) (covers.mono (by omega) (by omega)) (by omega)
      have name : ReadsIn region
          (readName buf (fun charCounter => uint32 ((first : Int) + charCounter)) 16 0) := by
        apply readName_readsIn
        intro k bound
        rw [uint32_of_lt (by omega) (by omega)]
        have := covers (first + k) (by omega) (by omega)
        simpa using this
      simp only [readNames, readsIn_bind, value_bind, next]
      refine ⟨⟨name, ⟨within, readsIn_pure _⟩⟩, ?_⟩
      have total : first + 16 + 16 * left = first + 16 * (left + 1) := by ring
      rw [← total]
      exact final

theorem readDigitalNames_readsIn (buf : Bytes) (left first : Nat)
    (covers : Covers region first (first + 256 * left))
    (fits : first + 256 * left < 4294967296)
    : ReadsIn region (readDigitalNames buf left first) := by
  induction left generalizing first with
  | zero => simp [readDigitalNames]
  | succ left ih =>
      have total : first + 256 * (left + 1) = first + 16 * 16 + 256 * left := by ring
      rw [total] at covers fits
      obtain ⟨within, next⟩ :=
        readNames_spec buf 16 first (covers.mono (by omega) (by omega)) (by omega)
      have rest := ih (first + 16 * 16) (covers.mono (by omega) (by omega)) fits
      simp only [readDigitalNames, readsIn_bind, next]
      exact ⟨within, rest, readsIn_pure _⟩

theorem readPhasorCF_readsIn (buf : Bytes) (phasorCFIndx left : Nat)
    (covers : 0 < left → Covers region phasorCFIndx (phasorCFIndx + 4))
    (fits : phasorCFIndx + 4 < 4294967296)
    : ReadsIn region (readPhasorCF buf phasorCFIndx left) := by
  induction left with
  | zero => simp [readPhasorCF]
  | succ left ih =>
      have covers := covers (by omega)
      have byte (k : Nat) (bound : k < 4) : region (uint32 ((phasorCFIndx : Int) + k)) := by
        rw [uint32_of_lt (by omega) (by omega)]
        exact covers (phasorCFIndx + k) (by omega) (by omega)
      simp only [readPhasorCF, readsIn_bind, readByte_readsIn]
      exact ⟨covers phasorCFIndx (by omega) (by omega), byte 1 (by omega), byte 2 (by omega),
        byte 3 (by omega), ih (fun _ => covers), readsIn_pure _⟩

/-- The addresses of a block's own fields, as long as they are of type `int`. -/
theorem int32_offset (base offset : Nat) (fits : base + offset < 2147483648)
    : int32 ((base : Int) + offset) = (base + offset : Nat) := by
  rw [int32_of_lt] <;> omega

theorem int32_offset_succ (base offset : Nat) (fits : base + offset + 1 < 2147483648)
    : int32 ((base : Int) + offset + 1) = (base + offset + 1 : Nat) := by
  rw [int32_of_lt] <;> omega

/-- A count of a block, read at its own address. -/
theorem value_readCount (base offset : Nat) (inside : offset ≤ 24)
    (fits : base + 25 < 2147483648)
    : (readPair buf (int32 ((base : Int) + offset)) (int32 ((base : Int) + offset + 1))).value.toNat
      = fieldAt buf (base + offset) := by
  rw [int32_offset base offset (by omega), int32_offset_succ base offset (by omega)]
  exact value_readPair (base + offset) _ rfl

/-- One turn of the loop over PMUs moves `baseIndx` to the block's end, as an `int`. -/
theorem readPmu_value (buf : Bytes) (base : Nat) (fits : base + 25 < 2147483648)
    : (readPmu buf base).value.2 = int32 (blockEnd buf base) := by
  have bounds := blockEnd_bounds buf base
  simp only [readPmu, value_bind, value_pure]
  rw [value_readCount base phnmrOffset (by decide) fits,
    value_readCount base annmrOffset (by decide) fits,
    value_readCount base dgnmrOffset (by decide) fits]
  simp only [uint32, blockEnd, chnamOffset] at bounds ⊢
  congr 1
  push_cast
  omega

theorem uint32_eq {x : Int} {n : Nat} (same : x = n) (fits : n < 4294967296)
    : uint32 x = n := by
  subst same
  exact uint32_of_lt (by omega) (by omega)

/-- The running indices of a block are as far as they are behind its first byte. -/
theorem uint32_chnamIndx (base : Nat) (fits : base + 26 < 4294967296)
    : uint32 ((base : Int) + (26 : Nat)) = (base + 26 : Nat) :=
  uint32_eq (by push_cast; ring) fits

theorem uint32_phasorCFIndx (base phasors analogs digitals : Nat)
    (fits : base + 26 + 16 * (phasors + analogs + 16 * digitals) < 4294967296)
    : uint32 ((base + 26 : Nat) + 16 * ((phasors : Int) + analogs + 16 * digitals))
      = (base + 26 + 16 * (phasors + analogs + 16 * digitals) : Nat) :=
  uint32_eq (by push_cast; ring) fits

theorem uint32_fnomIndx (phasorCFIndx phasors analogs digitals offset : Nat)
    (fits : phasorCFIndx + 4 * (phasors + analogs + digitals) + offset < 4294967296)
    : uint32 (uint32 (uint32 (uint32
          ((phasorCFIndx : Int) + 4 * (phasors : Int)) + 4 * analogs) + 4 * digitals) + offset)
      = (phasorCFIndx + 4 * (phasors + analogs + digitals) + offset : Nat) := by
  simp only [uint32]
  push_cast
  omega

/-- A block that ends below 2^31 is read within its bounds. -/
theorem readPmu_readsIn (buf : Bytes) (base : Nat) (fits : blockEnd buf base < 2147483648)
    (covers : Covers region base (blockEnd buf base))
    : ReadsIn region (readPmu buf base) := by
  have bounds := blockEnd_bounds buf base
  simp only [readPmu, readsIn_bind, readPair_readsIn, readByte_readsIn, readsIn_pure, and_true]
  rw [value_readCount base phnmrOffset (by decide) (by omega),
    value_readCount base annmrOffset (by decide) (by omega),
    value_readCount base dgnmrOffset (by decide) (by omega)]
  simp only [blockEnd] at fits covers
  generalize fieldAt buf (base + phnmrOffset) = phasors at fits covers ⊢
  generalize fieldAt buf (base + annmrOffset) = analogs at fits covers ⊢
  generalize fieldAt buf (base + dgnmrOffset) = digitals at fits covers ⊢
  simp only [phnmrOffset, annmrOffset, dgnmrOffset, chnamOffset, formatOffset, stnOffset]
    at fits covers ⊢
  have header (offset : Nat) (inside : offset ≤ 25) : region (int32 ((base : Int) + offset)) := by
    rw [int32_offset base offset (by omega)]
    exact covers _ (by omega) (by omega)
  have header_succ (offset : Nat) (inside : offset ≤ 24)
      : region (int32 ((base : Int) + offset + 1)) := by
    rw [int32_offset_succ base offset (by omega)]
    exact covers _ (by omega) (by omega)
  -- the running indices, one behind the other
  obtain ⟨phasorNames, afterPhasors⟩ := readNames_spec buf phasors (base + 26)
    (covers.mono (by omega) (by omega)) (by omega)
  obtain ⟨analogNames, afterAnalogs⟩ := readNames_spec buf analogs
    (base + 26 + 16 * phasors) (covers.mono (by omega) (by omega)) (by omega)
  have digitalNames := readDigitalNames_readsIn buf digitals
    (base + 26 + 16 * phasors + 16 * analogs) (covers.mono (by omega) (by omega)) (by omega)
  have factors := readPhasorCF_readsIn buf
    (base + 26 + 16 * (phasors + analogs + 16 * digitals)) phasors
    (fun _ => covers.mono (by omega) (by omega)) (by omega)
  rw [uint32_chnamIndx base (by omega),
    uint32_phasorCFIndx base phasors analogs digitals (by omega), afterPhasors, afterAnalogs]
  refine ⟨?_, header_succ 18 (by omega), ⟨header 20 (by omega), header_succ 20 (by omega)⟩,
    ⟨header 22 (by omega), header_succ 22 (by omega)⟩,
    ⟨header 24 (by omega), header_succ 24 (by omega)⟩,
    phasorNames, analogNames, digitalNames, factors, ?_, ?_, ?_⟩
  · apply readName_readsIn
    intro k bound
    rw [Nat.zero_add, Nat.cast_zero, Int.add_zero]
    exact header k (by omega)
  · rw [← Nat.cast_one, uint32_fnomIndx _ _ _ _ 1 (by omega)]
    exact covers _ (by omega) (by omega)
  · rw [← Nat.cast_two, uint32_fnomIndx _ _ _ _ 2 (by omega)]
    exact covers _ (by omega) (by omega)
  · rw [← Nat.cast_two, uint32_fnomIndx _ _ _ _ 2 (by omega)]
    rw [uint32_of_lt (by omega) (by omega)]
    exact covers (_ + 1) (by omega) (by omega)

theorem readPmus_succ_value (count : Nat) (base : Int)
    : (readPmus buf (count + 1) base).value.2
      = (readPmus buf count (readPmu buf base).value.2).value.2 := by
  rw [readPmus, value_bind, value_bind, value_pure]

theorem readPmus_succ_readsIn (count : Nat) (base : Int)
    : ReadsIn region (readPmus buf (count + 1) base)
      ↔ ReadsIn region (readPmu buf base)
        ∧ ReadsIn region (readPmus buf count (readPmu buf base).value.2) := by
  rw [readPmus, readsIn_bind, readsIn_bind, and_iff_left (readsIn_pure _)]

/-- Blocks that end below 2^31 are read within their bounds, by induction on the turns left. -/
theorem readPmus_spec (buf : Bytes) (count base : Nat)
    (fits : blocksEnd buf count base < 2147483648)
    (covers : Covers region base (blocksEnd buf count base))
    : ReadsIn region (readPmus buf count base)
      ∧ (readPmus buf count base).value.2 = blocksEnd buf count base := by
  induction count generalizing base with
  | zero => simp [readPmus, blocksEnd]
  | succ count ih =>
      have bounds := blockEnd_bounds buf base
      have beyond := le_blocksEnd buf count (blockEnd buf base)
      rw [blocksEnd] at fits covers ⊢
      have block := readPmu_readsIn buf base (by omega) (covers.mono (by omega) (by omega))
      have next := readPmu_value buf base (by omega)
      rw [int32_of_lt (by omega) (by omega)] at next
      obtain ⟨rest, final⟩ :=
        ih (blockEnd buf base) fits (covers.mono (by omega) (by omega))
      rw [readPmus_succ_readsIn, readPmus_succ_value, next]
      exact ⟨⟨block, rest⟩, final⟩

theorem int32_int32 (x : Int) : int32 (int32 x) = int32 x :=
  Int.bmod_bmod

/-- A `baseIndx` that turns out negative has passed the end of the type `int`. -/
theorem lt_of_int32_nonneg {n : Nat} (below : n < 4294967296) (nonneg : 0 ≤ int32 n)
    : n < 2147483648 := by
  simp only [int32, Int.bmod] at nonneg
  split at nonneg <;> omega

/-- The walk always reads at the `baseIndx` it starts from: a station name there or, with no
turns left, the data rate.
-/
theorem readPmus_reads_base (count : Nat) (base : Int)
    (walk : ReadsIn region (readPmus buf count (int32 base)))
    (dataRate : region (readPmus buf count (int32 base)).value.2)
    : region (int32 base) := by
  cases count with
  | zero => simpa [readPmus] using dataRate
  | succ count =>
      simp only [readPmus, readPmu, readName, readsIn_bind, readByte_readsIn] at walk
      obtain ⟨⟨⟨stationName, -⟩, -⟩, -⟩ := walk
      have address : int32 base + stnOffset + (0 : Nat) = int32 base := by
        simp [stnOffset]
      rwa [address, int32_int32] at stationName

/-- The indices below a message's length. -/
def InMessage (msgLen : UInt32) (index : Int) : Prop :=
  0 ≤ index ∧ index < msgLen.toNat

/-- A walk that stays in the message ends where the blocks do, before the message and the
type `int` end: each turn's own addresses, and the next turn's first, are in the message.
-/
theorem blocksEnd_lt_of_readsIn {msgLen : UInt32} (count base : Nat) (fits : base < 2147483648)
    (walk : ReadsIn (InMessage msgLen) (readPmus buf count base))
    (dataRate : InMessage msgLen (readPmus buf count base).value.2)
    : blocksEnd buf count base < min msgLen.toNat 2147483648 := by
  induction count generalizing base with
  | zero =>
      have := dataRate.2
      simp only [readPmus, value_pure] at this
      simp only [blocksEnd]
      omega
  | succ count ih =>
      have bounds := blockEnd_bounds buf base
      rw [readPmus_succ_readsIn] at walk
      rw [readPmus_succ_value] at dataRate
      obtain ⟨block, rest⟩ := walk
      have digitalCount : InMessage msgLen (int32 (base + 25 : Nat)) := by
        simp only [readPmu, readsIn_bind, readPair_readsIn] at block
        obtain ⟨-, -, -, -, ⟨-, digitalCount⟩, -⟩ := block
        have address : (base : Int) + dgnmrOffset + 1 = (base + 25 : Nat) := by
          simp only [dgnmrOffset]
          omega
        rwa [address] at digitalCount
      have inInt := lt_of_int32_nonneg (by omega) digitalCount.1
      rw [readPmu_value buf base inInt] at rest dataRate
      have next := readPmus_reads_base count (blockEnd buf base) rest dataRate
      have nextInInt := lt_of_int32_nonneg (by omega) next.1
      rw [int32_of_lt (by omega) (by omega)] at rest dataRate
      exact ih (blockEnd buf base) nextInInt rest dataRate

instance (buf : Bytes) (msgLen : UInt32) : Decidable (BlocksFit buf msgLen) :=
  inferInstanceAs (Decidable (_ < _))

theorem value_readNumPMU : (readPair buf numPmuIndx (numPmuIndx + 1)).value.toNat
    = fieldAt buf numPmuIndx :=
  value_readPair numPmuIndx _ rfl

/-- Reading below the message's length only takes blocks that end inside the message. -/
theorem blocksFit_of_readsIn {msgLen : UInt32}
    (within : ReadsIn (InMessage msgLen) (readDescriptor buf))
    : BlocksFit buf msgLen := by
  simp only [readDescriptor, readsIn_bind, readPair_readsIn, readByte_readsIn, value_readNumPMU]
    at within
  obtain ⟨-, -, -, -, -, -, -, -, -, -, -, -, -, -, -, -, -, walk, dataRate, -⟩ := within
  exact blocksEnd_lt_of_readsIn _ firstPmuIndx (by decide) walk dataRate.1

/-- The header lies below the shortest length accepted, and the walk below the blocks' end. -/
theorem readsIn_of_blocksFit {msgLen : UInt32} (long : cfg12MinMsgLen ≤ msgLen.toNat)
    (fit : BlocksFit buf msgLen)
    : ReadsIn (InMessage msgLen) (readDescriptor buf) := by
  unfold cfg12MinMsgLen at long
  unfold BlocksFit at fit
  have header (index : Nat) (inside : index < 54) : InMessage msgLen index :=
    ⟨by omega, by omega⟩
  have covers
      : Covers (InMessage msgLen) firstPmuIndx
          (blocksEnd buf (fieldAt buf numPmuIndx) firstPmuIndx) := by
    intro index lower upper
    exact ⟨by omega, by omega⟩
  obtain ⟨walk, final⟩ :=
    readPmus_spec buf (fieldAt buf numPmuIndx) firstPmuIndx (by omega) covers
  have dataRate : InMessage msgLen (blocksEnd buf (fieldAt buf numPmuIndx) firstPmuIndx) :=
    ⟨by omega, by omega⟩
  simp only [readDescriptor, readsIn_bind, readPair_readsIn, readByte_readsIn, readsIn_pure,
    and_true, value_readNumPMU]
  refine ⟨header 1 (by omega), header 3 (by omega), header 2 (by omega),
    ⟨header 4 (by omega), header 5 (by omega)⟩, header 6 (by omega), header 7 (by omega),
    header 8 (by omega), header 9 (by omega), header 10 (by omega), header 11 (by omega),
    header 12 (by omega), header 13 (by omega), header 14 (by omega), header 15 (by omega),
    header 16 (by omega), header 17 (by omega), ⟨header 18 (by omega), header 19 (by omega)⟩,
    walk, ?_⟩
  exact final ▸ ⟨dataRate, dataRate⟩

/-- After its tests, the parser reads below the message's length only, just when the blocks
that the frame declares end inside the message.
-/
theorem readDescriptor_inMessage_iff_blocksFit (crcCcitt : List UInt8 → BitVec 16)
    (buf : Bytes) (msgLen : UInt32) (passes : passesTests crcCcitt buf msgLen = true)
    : ReadsIn (InMessage msgLen) (readDescriptor buf) ↔ BlocksFit buf msgLen := by
  obtain ⟨-, -, long, -⟩ := (passesTests_iff _ _ _).mp passes
  exact ⟨blocksFit_of_readsIn, readsIn_of_blocksFit long⟩

theorem readDescriptor_sampleFrame_inMessage
    : ReadsIn (InMessage (UInt32.ofNat (sampleFrame.encode crcBasic).length))
        (readDescriptor (memoryOf (sampleFrame.encode crcBasic) fun _ => 0)) := by
  have length : (sampleFrame.encode crcBasic).length = 74 := by
    rw [CfgFrame.encode_length]
    rfl
  have fit : BlocksFit (memoryOf (sampleFrame.encode crcBasic) fun _ => 0)
      (UInt32.ofNat (sampleFrame.encode crcBasic).length) := by
    rw [length]
    decide +kernel
  exact (readDescriptor_inMessage_iff_blocksFit crcBasic _ _
    (sampleFrame.passesTests_encode crcBasic _ (by omega) (by omega))).mpr fit

/-- The sample frame's bytes with a second PMU declared but not sent. -/
def missingBlockBody : List UInt8 :=
  sampleFrame.encodeBody.set 19 2

/-- With its checksum the frame passes the tests, and the parser reads beyond its 74 bytes. -/
theorem readDescriptor_missingBlock_not_inMessage
    : passesTests crcBasic (memoryOf (withChecksum crcBasic missingBlockBody) fun _ => 0) 74 = true
      ∧ ¬ ReadsIn (InMessage 74)
        (readDescriptor (memoryOf (withChecksum crcBasic missingBlockBody) fun _ => 0)) := by
  constructor
  · exact passesTests_withChecksum crcBasic missingBlockBody (fun _ => 0) (by decide +kernel)
      (by decide +kernel) rfl (Or.inr rfl)
  · intro within
    exact absurd (blocksFit_of_readsIn within) (by decide +kernel)

end Sparcs.C37
