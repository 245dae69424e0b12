import Sparcs.C37.CfgReads

/-! The walk of the configuration parser over PMU blocks whose names are any bytes: at every
turn it is at a block's first byte, and the record that it adds is that block's.
-/

namespace Sparcs.C37

open Traced

-----------------------------------------------------------------------------------------
-- Blocks as they are in a frame
-----------------------------------------------------------------------------------------

/-- The field of a name. -/
abbrev NameField := Vector UInt8 16

structure ChannelFields where
  name : NameField
  conversion : UInt32

structure DigitalFields where
  bitNames : Vector NameField 16
  masks : UInt32

/-- The fields of a PMU block, in their order but for the names and conversion words of its
channels.
-/
structure BlockFields where
  stnName : NameField
  idCode : UInt16
  format : UInt16
  phasors : List ChannelFields
  analogs : List ChannelFields
  digitals : List DigitalFields
  fnom : UInt16
  cfgCnt : UInt16
  phasors_lt : phasors.length < 65536
  analogs_lt : analogs.length < 65536
  digitals_lt : digitals.length < 65536

def encodeNames (names : List NameField) : List UInt8 :=
  names.flatMap Vector.toList

def DigitalFields.encodeNames (channel : DigitalFields) : List UInt8 :=
  Sparcs.C37.encodeNames channel.bitNames.toList

/-- The bytes of a block before the names of its channels. -/
def BlockFields.encodeHeader (block : BlockFields) : List UInt8 :=
  block.stnName.toList ++ encodeNat 2 block.idCode.toNat ++ encodeNat 2 block.format.toNat
    ++ encodeNat 2 block.phasors.length ++ encodeNat 2 block.analogs.length
    ++ encodeNat 2 block.digitals.length

def BlockFields.encodeConversions (block : BlockFields) : List UInt8 :=
  block.phasors.flatMap (fun channel => encodeNat 4 channel.conversion.toNat)
    ++ block.analogs.flatMap (fun channel => encodeNat 4 channel.conversion.toNat)
    ++ block.digitals.flatMap (fun channel => encodeNat 4 channel.masks.toNat)

/-- The bytes of a block, in the order of the offsets of `C37_MsgFormats.h`. -/
def BlockFields.encode (block : BlockFields) : List UInt8 :=
  block.encodeHeader ++ encodeNames (block.phasors.map ChannelFields.name)
    ++ encodeNames (block.analogs.map ChannelFields.name)
    ++ block.digitals.flatMap DigitalFields.encodeNames ++ block.encodeConversions
    ++ encodeNat 2 block.fnom.toNat ++ encodeNat 2 block.cfgCnt.toNat

/-- A frame around its blocks: 18 bytes before the number of PMUs and, behind the blocks, the
data rate with the checksum.
-/
structure BlockFrame where
  header : Vector UInt8 18
  blocks : List BlockFields
  dataRate : UInt16
  checksum : UInt16
  blocks_lt : blocks.length < 65536

def BlockFrame.encode (frame : BlockFrame) : List UInt8 :=
  frame.header.toList ++ encodeNat 2 frame.blocks.length
    ++ (frame.blocks.flatMap BlockFields.encode
      ++ (encodeNat 2 frame.dataRate.toNat ++ encodeNat 2 frame.checksum.toNat))

/-- The first byte of block `i`; the one behind the last block is the data rate's. -/
def BlockFrame.firstByte (frame : BlockFrame) (i : Nat) : Nat :=
  firstPmuIndx + ((frame.blocks.take i).flatMap BlockFields.encode).length

/-- The longest printable prefix of a name's field. -/
def printablePrefix (field : NameField) : Text :=
  field.toList.takeWhile fun char => isprint char.toUInt32

/-- The record has a block's counts, names, frequency and configuration count. -/
structure C37PmuMetadata.Shows (metadata : C37PmuMetadata) (block : BlockFields) : Prop where
  numPhasors : metadata.numPhasors = UInt32.ofNat block.phasors.length
  numAnalog : metadata.numAnalog = UInt32.ofNat block.analogs.length
  numDigital : metadata.numDigital = UInt32.ofNat block.digitals.length
  stnName : metadata.stnName = printablePrefix block.stnName
  phasorChanName :
    metadata.phasorChanName = block.phasors.map (fun channel => printablePrefix channel.name)
  analogChanName :
    metadata.analogChanName = block.analogs.map (fun channel => printablePrefix channel.name)
  digitalChanName :
    metadata.digitalChanName
      = block.digitals.map (fun channel => channel.bitNames.toList.map printablePrefix)
  fundFreq : metadata.fundFreq = if block.fnom.toNat % 2 = 1 then 50 else 60
  cfgCnt : metadata.cfgCnt = block.cfgCnt.toUInt32

-----------------------------------------------------------------------------------------
-- Bytes in memory
-----------------------------------------------------------------------------------------

/-- The memory has these bytes from an index on. -/
def Holds (buf : Bytes) (first : Nat) (bytes : List UInt8) : Prop :=
  ∀ i byte, bytes[i]? = some byte → buf (first + i : Nat) = byte

variable {buf : Bytes} {first : Nat}

theorem holds_append {front back : List UInt8}
    : Holds buf first (front ++ back)
      ↔ Holds buf first front ∧ Holds buf (first + front.length) back := by
  constructor
  · intro holds
    constructor
    · intro i byte isByte
      have inside := (List.getElem?_eq_some_iff.mp isByte).1
      exact holds i byte (by rw [List.getElem?_append_left inside, isByte])
    · intro i byte isByte
      rw [Nat.add_assoc]
      refine holds (front.length + i) byte ?_
      rw [List.getElem?_append_right (Nat.le_add_right _ _), Nat.add_sub_cancel_left, isByte]
  · intro both i byte isByte
    obtain ⟨inFront, inBack⟩ := both
    rcases Nat.lt_or_ge i front.length with inside | behind
    · exact inFront i byte (by rwa [List.getElem?_append_left inside] at isByte)
    · rw [List.getElem?_append_right behind] at isByte
      have byteBehind := inBack (i - front.length) byte isByte
      rwa [Nat.add_assoc, Nat.add_sub_cancel' behind] at byteBehind

theorem holds_memoryOf (front bytes back : List UInt8) (around : Bytes)
    : Holds (memoryOf (front ++ (bytes ++ back)) around) front.length bytes := by
  intro i byte isByte
  obtain ⟨inside, rfl⟩ := List.getElem?_eq_some_iff.mp isByte
  rw [memoryOf_getElem _ _ _ (by simp; omega),
    List.getElem_append_right (Nat.le_add_right _ _), List.getElem_append_left (by omega)]
  simp only [Nat.add_sub_cancel_left]

/-- A field of two bytes reads as the number that it was made of. -/
theorem Holds.fieldAt_eq {n : Nat} (holds : Holds buf first (encodeNat 2 n))
    (fits : n < 65536)
    : fieldAt buf first = n := by
  have high : buf first = UInt8.ofNat (n >>> 8) := holds 0 _ rfl
  have low : buf (first + 1 : Nat) = UInt8.ofNat n := holds 1 _ rfl
  rw [fieldAt, high, low, UInt8.toNat_ofNat', UInt8.toNat_ofNat', Nat.shiftRight_eq_div_pow]
  omega

-----------------------------------------------------------------------------------------
-- Names
-----------------------------------------------------------------------------------------

theorem flatMap_length_const {α : Type} (encode : α → List UInt8) (size : Nat)
    (sized : ∀ x, (encode x).length = size) (xs : List α)
    : (xs.flatMap encode).length = size * xs.length := by
  induction xs with
  | nil => rfl
  | cons x rest ih =>
      rw [List.flatMap_cons, List.length_append, sized, ih, List.length_cons, Nat.mul_succ]
      omega

theorem encodeNames_length (names : List NameField)
    : (encodeNames names).length = 16 * names.length := by
  apply flatMap_length_const
  intro name
  exact Vector.length_toList ..

/-- The characters that the loop counts are the longest printable prefix, by induction on the
field.
-/
theorem readName_value (address : Nat → Int) (bytes : List UInt8) (charCounter : Nat)
    (holds : ∀ i byte, bytes[i]? = some byte → buf (address (charCounter + i)) = byte)
    : (readName buf address bytes.length charCounter).value
      = bytes.takeWhile fun char => isprint char.toUInt32 := by
  induction bytes generalizing charCounter with
  | nil => rfl
  | cons byte rest ih =>
      have here : buf (address charCounter) = byte := holds 0 byte rfl
      have later := ih (charCounter + 1) (by
        intro i next isNext
        have := holds (i + 1) next isNext
        rwa [← Nat.add_assoc, Nat.add_right_comm] at this)
      rw [List.length_cons, readName, value_bind, List.takeWhile_cons]
      simp only [readByte, value_bind, value_readCell, value_pure, here]
      split
      · simp [later]
      · rfl

/-- A name's field, at addresses one behind the other. -/
theorem readName_field {address : Nat → Int} {field : NameField}
    (holds : Holds buf first field.toList)
    (addressed : ∀ i < 16, address i = (first + i : Nat))
    : (readName buf address 16 0).value = printablePrefix field := by
  have sixteen : field.toList.length = 16 := Vector.length_toList ..
  have read := @readName_value buf address field.toList 0 (by
    intro i byte isByte
    have inside := (List.getElem?_eq_some_iff.mp isByte).1
    rw [Nat.zero_add, addressed i (by omega)]
    exact holds i byte isByte)
  rwa [sixteen] at read

theorem readNames_value (names : List NameField) (fits : first + 16 * names.length < 4294967296)
    (holds : Holds buf first (encodeNames names))
    : (readNames buf names.length first).value
      = (names.map printablePrefix, ((first + 16 * names.length : Nat) : Int)) := by
  induction names generalizing first with
  | nil => rfl
  | cons name rest ih =>
      rw [List.length_cons] at fits
      rw [encodeNames, List.flatMap_cons, holds_append, Vector.length_toList] at holds
      obtain ⟨nameHolds, restHolds⟩ := holds
      have next : uint32 ((first : Int) + 16) = (first + 16 : Nat) := by
        rw [uint32_of_lt] <;> omega
      have text
          : (readName buf (fun charCounter => uint32 ((first : Int) + charCounter)) 16 0).value
            = printablePrefix name := by
        apply readName_field nameHolds
        intro i inside
        rw [uint32_of_lt (by omega) (by omega)]
        rfl
      have later := ih (by omega) restHolds
      simp only [readNames, value_bind, value_pure, next, List.length_cons, text, later,
        List.map_cons]
      congr 2
      omega

theorem readDigitalNames_value (channels : List DigitalFields)
    (fits : first + 256 * channels.length < 4294967296)
    (holds : Holds buf first (channels.flatMap DigitalFields.encodeNames))
    : (readDigitalNames buf channels.length first).value.1
      = channels.map fun channel => channel.bitNames.toList.map printablePrefix := by
  induction channels generalizing first with
  | nil => rfl
  | cons channel rest ih =>
      rw [List.length_cons] at fits
      rw [List.flatMap_cons, holds_append, DigitalFields.encodeNames, encodeNames_length,
        Vector.length_toList] at holds
      obtain ⟨namesHold, restHolds⟩ := holds
      have sixteen : channel.bitNames.toList.length = 16 := Vector.length_toList ..
      have names := readNames_value channel.bitNames.toList (by omega) namesHold
      rw [sixteen] at names
      have later := ih (by omega) restHolds
      simp only [readDigitalNames, value_bind, value_pure, List.length_cons, names, later,
        List.map_cons]

-----------------------------------------------------------------------------------------
-- One block
-----------------------------------------------------------------------------------------

namespace BlockFields

theorem encodeHeader_length (block : BlockFields) : block.encodeHeader.length = chnamOffset := by
  simp [encodeHeader, chnamOffset]

theorem encodeConversions_length (block : BlockFields)
    : block.encodeConversions.length
      = 4 * (block.phasors.length + block.analogs.length + block.digitals.length) := by
  rw [encodeConversions, List.length_append, List.length_append,
    flatMap_length_const _ 4 (fun _ => encodeNat_length ..),
    flatMap_length_const _ 4 (fun _ => encodeNat_length ..),
    flatMap_length_const _ 4 (fun _ => encodeNat_length ..)]
  omega

theorem digitalNames_length (channels : List DigitalFields)
    : (channels.flatMap DigitalFields.encodeNames).length = 256 * channels.length := by
  apply flatMap_length_const
  intro channel
  rw [DigitalFields.encodeNames, encodeNames_length, Vector.length_toList]

theorem encode_length (block : BlockFields)
    : block.encode.length
      = chnamOffset
        + 16 * (block.phasors.length + block.analogs.length + 16 * block.digitals.length)
        + 4 * (block.phasors.length + block.analogs.length + block.digitals.length) + 4 := by
  simp only [encode, List.length_append, encodeHeader_length, encodeNames_length,
    digitalNames_length, encodeConversions_length, List.length_map, encodeNat_length]
  omega

/-- Where the names and the last two fields of a block are that begins at `base`. -/
structure StandsAt (block : BlockFields) (buf : Bytes) (base : Nat) : Prop where
  stnName : Holds buf (base + stnOffset) block.stnName.toList
  phasors : fieldAt buf (base + phnmrOffset) = block.phasors.length
  analogs : fieldAt buf (base + annmrOffset) = block.analogs.length
  digitals : fieldAt buf (base + dgnmrOffset) = block.digitals.length
  phasorNames :
    Holds buf (base + chnamOffset) (encodeNames (block.phasors.map ChannelFields.name))
  analogNames :
    Holds buf (base + chnamOffset + 16 * block.phasors.length)
      (encodeNames (block.analogs.map ChannelFields.name))
  digitalNames :
    Holds buf (base + chnamOffset + 16 * block.phasors.length + 16 * block.analogs.length)
      (block.digitals.flatMap DigitalFields.encodeNames)
  fnom : fieldAt buf (base + block.encode.length - 4) = block.fnom.toNat
  cfgCnt : fieldAt buf (base + block.encode.length - 2) = block.cfgCnt.toNat

theorem standsAt_of_holds {block : BlockFields} {base : Nat}
    (holds : Holds buf base block.encode)
    : block.StandsAt buf base := by
  have length := block.encode_length
  simp only [encode, encodeHeader, holds_append, List.length_append, encodeNames_length,
    digitalNames_length, encodeConversions_length, List.length_map, encodeNat_length,
    Vector.length_toList] at holds
  obtain ⟨⟨⟨⟨⟨⟨⟨⟨⟨⟨⟨stnName, -⟩, -⟩, phasors⟩, analogs⟩, digitals⟩, phasorNames⟩, analogNames⟩,
    digitalNames⟩, -⟩, fnom⟩, cfgCnt⟩ := holds
  rw [chnamOffset] at length
  refine ⟨stnName, phasors.fieldAt_eq block.phasors_lt, analogs.fieldAt_eq block.analogs_lt,
    digitals.fieldAt_eq block.digitals_lt, phasorNames, ?_, ?_, ?_, ?_⟩
  · rw [Nat.add_assoc]
    exact analogNames
  · rw [Nat.add_assoc, Nat.add_assoc, ← Nat.add_assoc chnamOffset]
    exact digitalNames
  · have field := fnom.fieldAt_eq block.fnom.toNat_lt
    rwa [show base + _ = base + block.encode.length - 4 by omega] at field
  · have field := cfgCnt.fieldAt_eq block.cfgCnt.toNat_lt
    rwa [show base + _ = base + block.encode.length - 2 by omega] at field

/-- The counts that a block declares lead from its first byte to its end. -/
theorem StandsAt.blockEnd_eq {block : BlockFields} {base : Nat}
    (standsAt : block.StandsAt buf base)
    : blockEnd buf base = base + block.encode.length := by
  simp only [blockEnd, standsAt.phasors, standsAt.analogs, standsAt.digitals, encode_length]
  omega

/-- The bit that the frequency is told by. -/
theorem lowBit_eq_zero_iff (byte : UInt8) : byte.toUInt32 &&& 1 = 0 ↔ byte.toNat % 2 = 0 := by
  rw [← UInt32.toNat_inj, UInt32.toNat_and, UInt8.toNat_toUInt32]
  exact Iff.of_eq (congrArg (· = 0) (Nat.and_one_is_mod byte.toNat))

/-- A count of the block at `base`, as the walk reads it. -/
def readCount (buf : Bytes) (base : Int) (offset : Nat) : UInt32 :=
  (readPair buf (int32 (base + offset)) (int32 (base + offset + 1))).value

/-- The index of the frequency, by the counts that have been read. -/
def fnomIndx (base : Int) (numPhasors numAnalog numDigital : Nat) : Int :=
  uint32 (uint32 (uint32
    (uint32 (uint32 (base + chnamOffset) + 16 * (numPhasors + numAnalog + 16 * numDigital))
      + 4 * numPhasors) + 4 * numAnalog) + 4 * numDigital)

theorem fnomIndx_offset (base numPhasors numAnalog numDigital offset : Nat)
    (fits : base + 26 + 16 * (numPhasors + numAnalog + 16 * numDigital)
        + 4 * (numPhasors + numAnalog + numDigital) + offset
      < 4294967296)
    : uint32 (fnomIndx base numPhasors numAnalog numDigital + offset)
      = (base + 26 + 16 * (numPhasors + numAnalog + 16 * numDigital)
        + 4 * (numPhasors + numAnalog + numDigital) + offset : Nat) := by
  rw [fnomIndx, chnamOffset, uint32_chnamIndx base (by omega),
    uint32_phasorCFIndx _ _ _ _ (by omega)]
  exact uint32_fnomIndx _ _ _ _ offset fits

section Turn

variable {block : BlockFields} {base : Nat} (standsAt : block.StandsAt buf base)
  (fits : base + block.encode.length < 2147483648)

include standsAt fits

theorem StandsAt.readCounts
    : (readCount buf base phnmrOffset).toNat = block.phasors.length
      ∧ (readCount buf base annmrOffset).toNat = block.analogs.length
      ∧ (readCount buf base dgnmrOffset).toNat = block.digitals.length := by
  have length := block.encode_length
  rw [chnamOffset] at length
  have count {offset n : Nat} (inside : offset ≤ 24) (field : fieldAt buf (base + offset) = n)
      : (readCount buf base offset).toNat = n :=
    (value_readCount base offset inside (by omega)).trans field
  exact ⟨count (by decide) standsAt.phasors, count (by decide) standsAt.analogs,
    count (by decide) standsAt.digitals⟩

theorem StandsAt.stnName_eq
    : (readPmu buf base).value.1.stnName = printablePrefix block.stnName := by
  have length := block.encode_length
  rw [chnamOffset] at length
  have start : stnOffset = 0 := rfl
  have read
      : (readPmu buf base).value.1.stnName
        = (readName buf (fun charCounter => int32 ((base : Int) + stnOffset + charCounter)) 16
            0).value := rfl
  rw [read]
  apply readName_field standsAt.stnName
  intro i inside
  rw [int32_of_lt (by omega) (by omega)]
  rfl

/-- The names of the channels, each kind behind the one before it. -/
theorem StandsAt.chanNames_eq
    : (readPmu buf base).value.1.phasorChanName
        = block.phasors.map (fun channel => printablePrefix channel.name)
      ∧ (readPmu buf base).value.1.analogChanName
        = block.analogs.map (fun channel => printablePrefix channel.name)
      ∧ (readPmu buf base).value.1.digitalChanName
        = block.digitals.map (fun channel => channel.bitNames.toList.map printablePrefix) := by
  have length := block.encode_length
  rw [chnamOffset] at length
  have offset : chnamOffset = 26 := rfl
  have chnam : uint32 ((base : Int) + chnamOffset) = (base + chnamOffset : Nat) :=
    uint32_chnamIndx base (by omega)
  obtain ⟨phasors, analogs, digitals⟩ := standsAt.readCounts fits
  have phasorNames := readNames_value (block.phasors.map ChannelFields.name)
    (by rw [List.length_map]; omega) standsAt.phasorNames
  have analogNames := readNames_value (block.analogs.map ChannelFields.name)
    (by rw [List.length_map]; omega) standsAt.analogNames
  have digitalNames := readDigitalNames_value block.digitals (by omega) standsAt.digitalNames
  rw [List.length_map, List.map_map] at phasorNames analogNames
  have readPhasors
      : (readPmu buf base).value.1.phasorChanName
        = (readNames buf (readCount buf base phnmrOffset).toNat
            (uint32 (base + chnamOffset))).value.1 := rfl
  have readAnalogs
      : (readPmu buf base).value.1.analogChanName
        = (readNames buf (readCount buf base annmrOffset).toNat
            (readNames buf (readCount buf base phnmrOffset).toNat
              (uint32 (base + chnamOffset))).value.2).value.1 := rfl
  have readDigitals
      : (readPmu buf base).value.1.digitalChanName
        = (readDigitalNames buf (readCount buf base dgnmrOffset).toNat
            (readNames buf (readCount buf base annmrOffset).toNat
              (readNames buf (readCount buf base phnmrOffset).toNat
                (uint32 (base + chnamOffset))).value.2).value.2).value.1 := rfl
  rw [readPhasors, readAnalogs, readDigitals, phasors, chnam, phasorNames, analogs, analogNames,
    digitals, digitalNames]
  exact ⟨rfl, rfl, rfl⟩

/-- The two fields behind the conversion words. -/
theorem StandsAt.fnomIndx_eq (offset : Nat) (inside : offset ≤ 3)
    : uint32 (fnomIndx base (readCount buf base phnmrOffset).toNat
        (readCount buf base annmrOffset).toNat (readCount buf base dgnmrOffset).toNat + offset)
      = (base + block.encode.length - 4 + offset : Nat) := by
  have length := block.encode_length
  rw [chnamOffset] at length
  obtain ⟨phasors, analogs, digitals⟩ := standsAt.readCounts fits
  rw [phasors, analogs, digitals, fnomIndx_offset _ _ _ _ offset (by omega)]
  omega

theorem StandsAt.fundFreq_eq
    : (readPmu buf base).value.1.fundFreq = if block.fnom.toNat % 2 = 1 then 50 else 60 := by
  have read
      : (readPmu buf base).value.1.fundFreq
        = if (buf (uint32
            (fnomIndx base (readCount buf base phnmrOffset).toNat
              (readCount buf base annmrOffset).toNat (readCount buf base dgnmrOffset).toNat
              + (1 : Nat)))).toUInt32 &&& 1 = 0 then 60 else 50 := rfl
  have field := standsAt.fnom
  rw [fieldAt] at field
  rw [read, standsAt.fnomIndx_eq fits 1 (by decide)]
  simp only [lowBit_eq_zero_iff]
  split
  next even => rw [if_neg (by omega)]
  next odd => rw [if_pos (by omega)]

theorem StandsAt.cfgCnt_eq
    : (readPmu buf base).value.1.cfgCnt = block.cfgCnt.toUInt32 := by
  have length := block.encode_length
  have index := standsAt.fnomIndx_eq fits 2 (by decide)
  generalize isIndex : uint32 (fnomIndx base (readCount buf base phnmrOffset).toNat
    (readCount buf base annmrOffset).toNat (readCount buf base dgnmrOffset).toNat + (2 : Nat))
      = cfgCntIndx at index
  have read
      : (readPmu buf base).value.1.cfgCnt
        = (readPair buf cfgCntIndx (uint32 (cfgCntIndx + 1))).value := by
    rw [← isIndex]
    rfl
  have behind : base + block.encode.length - 4 + 2 = base + block.encode.length - 2 := by omega
  rw [behind] at index
  apply UInt32.toNat_inj.mp
  rw [read, index, UInt16.toNat_toUInt32, ← standsAt.cfgCnt]
  exact value_readPair _ _ (uint32_of_lt (by omega) (by omega))

/-- A turn of the walk at a block's first byte adds that block's record. -/
theorem StandsAt.shows : (readPmu buf base).value.1.Shows block := by
  obtain ⟨phasors, analogs, digitals⟩ := standsAt.readCounts fits
  obtain ⟨phasorChanName, analogChanName, digitalChanName⟩ := standsAt.chanNames_eq fits
  refine ⟨?_, ?_, ?_, standsAt.stnName_eq fits, phasorChanName, analogChanName,
    digitalChanName, standsAt.fundFreq_eq fits, standsAt.cfgCnt_eq fits⟩
  · rw [← phasors, UInt32.ofNat_toNat]
    rfl
  · rw [← analogs, UInt32.ofNat_toNat]
    rfl
  · rw [← digitals, UInt32.ofNat_toNat]
    rfl

end Turn

end BlockFields

-----------------------------------------------------------------------------------------
-- The walk
-----------------------------------------------------------------------------------------

theorem readPmus_succ_value_fst (count : Nat) (base : Int)
    : (readPmus buf (count + 1) base).value.1
      = (readPmu buf base).value.1 :: (readPmus buf count (readPmu buf base).value.2).value.1 := by
  rw [readPmus, value_bind, value_bind, value_pure]

/-- From the first byte of blocks that stand one behind the other the walk adds a record for
each and ends behind the last, by induction on the blocks.
-/
theorem readPmus_blocks (blocks : List BlockFields) (base : Nat)
    (fits : base + (blocks.flatMap BlockFields.encode).length < 2147483648)
    (holds : Holds buf base (blocks.flatMap BlockFields.encode))
    : List.Forall₂ C37PmuMetadata.Shows (readPmus buf blocks.length base).value.1 blocks
      ∧ (readPmus buf blocks.length base).value.2
        = (base + (blocks.flatMap BlockFields.encode).length : Nat) := by
  induction blocks generalizing base with
  | nil => exact ⟨List.Forall₂.nil, rfl⟩
  | cons block rest ih =>
      rw [List.flatMap_cons, List.length_append] at fits
      rw [List.flatMap_cons, holds_append] at holds
      obtain ⟨blockHolds, restHolds⟩ := holds
      have standsAt := BlockFields.standsAt_of_holds blockHolds
      have length := block.encode_length
      rw [chnamOffset] at length
      have next : (readPmu buf base).value.2 = (base + block.encode.length : Nat) := by
        rw [readPmu_value buf base (by omega), standsAt.blockEnd_eq,
          int32_of_lt (by omega) (by omega)]
      obtain ⟨records, final⟩ := ih (base + block.encode.length) (by omega) restHolds
      rw [List.length_cons, readPmus_succ_value_fst, readPmus_succ_value, next]
      refine ⟨List.Forall₂.cons (standsAt.shows (by omega)) records, ?_⟩
      rw [final, List.flatMap_cons, List.length_append, Nat.add_assoc]

section Frame

variable (frame : BlockFrame) (around : Bytes)

/-- The frame's blocks begin behind the number of PMUs. -/
theorem BlockFrame.holds_blocks
    : Holds (memoryOf frame.encode around) firstPmuIndx
        (frame.blocks.flatMap BlockFields.encode) := by
  have holds := holds_memoryOf (frame.header.toList ++ encodeNat 2 frame.blocks.length)
    (frame.blocks.flatMap BlockFields.encode)
    (encodeNat 2 frame.dataRate.toNat ++ encodeNat 2 frame.checksum.toNat) around
  rwa [List.length_append, Vector.length_toList, encodeNat_length] at holds

theorem BlockFrame.fieldAt_numPmu
    : fieldAt (memoryOf frame.encode around) numPmuIndx = frame.blocks.length := by
  have holds := holds_memoryOf frame.header.toList (encodeNat 2 frame.blocks.length)
    (frame.blocks.flatMap BlockFields.encode
      ++ (encodeNat 2 frame.dataRate.toNat ++ encodeNat 2 frame.checksum.toNat)) around
  rw [Vector.length_toList, ← List.append_assoc] at holds
  exact holds.fieldAt_eq frame.blocks_lt

theorem BlockFrame.fieldAt_dataRate
    : fieldAt (memoryOf frame.encode around) (frame.firstByte frame.blocks.length)
      = frame.dataRate.toNat := by
  have holds := holds_memoryOf
    (frame.header.toList ++ encodeNat 2 frame.blocks.length
      ++ frame.blocks.flatMap BlockFields.encode)
    (encodeNat 2 frame.dataRate.toNat) (encodeNat 2 frame.checksum.toNat) around
  rw [List.length_append, List.length_append, Vector.length_toList, encodeNat_length,
    List.append_assoc] at holds
  rw [BlockFrame.firstByte, List.take_length]
  exact holds.fieldAt_eq frame.dataRate.toNat_lt

/-- The loop makes as many turns as there are blocks. After each, it has the records of the
blocks that it has passed, in their order, and `baseIndx` is the next block's first byte;
after the last turn it is the data rate's.
-/
theorem BlockFrame.readPmus_walk (fits : frame.encode.length < 2147483648)
    : let buf := memoryOf frame.encode around
      (readPair buf numPmuIndx (numPmuIndx + 1)).value.toNat = frame.blocks.length
      ∧ (∀ turns ≤ frame.blocks.length,
        List.Forall₂ C37PmuMetadata.Shows (readPmus buf turns firstPmuIndx).value.1
          (frame.blocks.take turns)
        ∧ (readPmus buf turns firstPmuIndx).value.2 = frame.firstByte turns)
      ∧ fieldAt buf (frame.firstByte frame.blocks.length) = frame.dataRate.toNat := by
  intro buf
  refine ⟨value_readNumPMU.trans (frame.fieldAt_numPmu around), ?_, frame.fieldAt_dataRate around⟩
  intro turns within
  have holds := frame.holds_blocks around
  have parts
      : frame.blocks.flatMap BlockFields.encode
        = (frame.blocks.take turns).flatMap BlockFields.encode
          ++ (frame.blocks.drop turns).flatMap BlockFields.encode := by
    rw [← List.flatMap_append, List.take_append_drop]
  rw [parts] at holds
  have passed := (holds_append.mp holds).1
  have length := congrArg List.length parts
  rw [List.length_append] at length
  simp only [BlockFrame.encode, List.length_append, Vector.length_toList, encodeNat_length]
    at fits
  have walk := readPmus_blocks (frame.blocks.take turns) firstPmuIndx
    (by simp only [firstPmuIndx]; omega) passed
  rwa [List.length_take, Nat.min_eq_left within] at walk

end Frame

/-- Two blocks, the first with a phasor and the other with an analog channel. -/
def walkFrame : BlockFrame where
  header := Vector.replicate 18 0
  blocks :=
    [{ stnName := Vector.replicate 16 0x41
       idCode := 7
       format := 1
       phasors := [{ name := (Vector.replicate 16 0).set 0 0x56, conversion := 1 }]
       analogs := []
       digitals := []
       fnom := 1
       cfgCnt := 3
       phasors_lt := by decide
       analogs_lt := by decide
       digitals_lt := by decide },
     { stnName := Vector.replicate 16 0
       idCode := 8
       format := 0
       phasors := []
       analogs := [{ name := Vector.replicate 16 0x42, conversion := 2 }]
       digitals := []
       fnom := 0
       cfgCnt := 4
       phasors_lt := by decide
       analogs_lt := by decide
       digitals_lt := by decide }]
  dataRate := 120
  checksum := 0
  blocks_lt := by decide

theorem BlockFrame.readPmus_walk_two
    : List.Forall₂ C37PmuMetadata.Shows
        (readPmus (memoryOf walkFrame.encode fun _ => 0) 2 firstPmuIndx).value.1 walkFrame.blocks
      ∧ (readPmus (memoryOf walkFrame.encode fun _ => 0) 2 firstPmuIndx).value.2 = 120 := by
  obtain ⟨-, walk, -⟩ := walkFrame.readPmus_walk (fun _ => 0) (by decide +kernel)
  obtain ⟨records, final⟩ := walk 2 (Nat.le_refl 2)
  have length : walkFrame.firstByte 2 = 120 := by decide +kernel
  rw [length] at final
  exact ⟨records, final⟩

end Sparcs.C37
