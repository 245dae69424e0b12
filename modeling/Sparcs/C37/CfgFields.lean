import Sparcs.C37.BlockWalk
import Sparcs.C37.DataChannel

/-! The fields before and behind the PMU blocks of a configuration frame: which of them the
descriptor carries as they were sent.
-/

namespace Sparcs.C37

open Traced

/-- The descriptor's fields are the frame's, and its time stamp is the second that the read
handler decodes of any message with the same SOC bytes.
-/
structure C37CfgData.Decodes (desc : C37CfgData) (frame : CfgFrame) (buf : Bytes) : Prop where
  timeStamp : desc.timeStamp = frame.soc
  rawFracSec : desc.rawFracSec = UInt32.ofNat frame.fracSec.toNat
  timeBase : desc.timeBase = frame.timeBase
  dataStreamID : desc.dataStreamID = frame.idCode.toUInt32
  numPMU : desc.numPMU = UInt32.ofNat frame.blocks.length
  dataRate : desc.dataRate = frame.dataRate.toUInt32
  sameTime :
    ∀ c37Buf : C37Buffer,
      (∀ i : Nat, i < 4 → c37Buf.byte (socIndx + i) = buf (socIndx + i : Nat))
      → desc.timeStamp = time c37Buf

/-- What the defects leave unharmed: no bits in the third byte of SOC, and a data rate whose
two bytes are the same.
-/
structure CfgFrame.SurvivesShifts (frame : CfgFrame) : Prop where
  soc : frame.soc.toNat / 256 % 256 = 0
  dataRate : frame.dataRate.toNat / 256 = frame.dataRate.toNat % 256

/-! Bytes of an encoded number, put together again. -/

theorem joinedThree_encodeNat (n : Nat) (fits : n < 16777216)
    : (UInt8.ofNat (n >>> 16)).toUInt32 <<< 16 + (UInt8.ofNat (n >>> 8)).toUInt32 <<< 8
        + (UInt8.ofNat n).toUInt32
      = UInt32.ofNat n := by
  apply UInt32.toNat_inj.mp
  simp only [UInt32.toNat_add, UInt32.toNat_shiftLeft, UInt8.toNat_toUInt32,
    UInt8.toNat_ofNat', UInt32.toNat_ofNat', Nat.shiftRight_eq_div_pow]
  rw [show UInt32.toNat 8 % 32 = 8 by decide, show UInt32.toNat 16 % 32 = 16 by decide,
    Nat.shiftLeft_eq, Nat.shiftLeft_eq]
  omega

theorem joinedFour_encodeNat (n : UInt32)
    : (UInt8.ofNat (n.toNat >>> 24)).toUInt32 <<< 24
        + (UInt8.ofNat (n.toNat >>> 16)).toUInt32 <<< 16
        + (UInt8.ofNat (n.toNat >>> 8)).toUInt32 <<< 8 + (UInt8.ofNat n.toNat).toUInt32
      = n := by
  have fits := n.toNat_lt
  apply UInt32.toNat_inj.mp
  simp only [UInt32.toNat_add, UInt32.toNat_shiftLeft, UInt8.toNat_toUInt32,
    UInt8.toNat_ofNat', Nat.shiftRight_eq_div_pow]
  rw [show UInt32.toNat 8 % 32 = 8 by decide, show UInt32.toNat 16 % 32 = 16 by decide,
    show UInt32.toNat 24 % 32 = 24 by decide, Nat.shiftLeft_eq, Nat.shiftLeft_eq,
    Nat.shiftLeft_eq]
  omega

theorem joinedTwo_encodeNat (n : UInt16)
    : (UInt8.ofNat (n.toNat >>> 8)).toUInt32 <<< 8 + (UInt8.ofNat n.toNat).toUInt32
      = n.toUInt32 := by
  apply UInt32.toNat_inj.mp
  rw [joined_encodeNat _ n.toNat_lt, UInt16.toNat_toUInt32]

theorem toUInt32_ofNat_inj {m n : Nat}
    : (UInt8.ofNat m).toUInt32 = (UInt8.ofNat n).toUInt32 ↔ m % 256 = n % 256 := by
  rw [← UInt32.toNat_inj]
  simp

/-- The bytes of an encoded number in memory, in the same way. -/
theorem Holds.joinedThree {buf : Bytes} {first n : Nat}
    (holds : Holds buf first (encodeNat 3 n)) (fits : n < 16777216)
    : (buf first).toUInt32 <<< 16 + (buf (first + 1 : Nat)).toUInt32 <<< 8
        + (buf (first + 2 : Nat)).toUInt32
      = UInt32.ofNat n := by
  have high : buf first = UInt8.ofNat (n >>> 16) := holds 0 _ rfl
  have middle : buf (first + 1 : Nat) = UInt8.ofNat (n >>> 8) := holds 1 _ rfl
  have low : buf (first + 2 : Nat) = UInt8.ofNat n := holds 2 _ rfl
  rw [high, middle, low, joinedThree_encodeNat n fits]

theorem Holds.fourBytes {buf : Bytes} {first : Nat} {n : UInt32}
    (holds : Holds buf first (encodeNat 4 n.toNat))
    : buf first = UInt8.ofNat (n.toNat >>> 24)
      ∧ buf (first + 1 : Nat) = UInt8.ofNat (n.toNat >>> 16)
      ∧ buf (first + 2 : Nat) = UInt8.ofNat (n.toNat >>> 8)
      ∧ buf (first + 3 : Nat) = UInt8.ofNat n.toNat :=
  ⟨holds 0 _ rfl, holds 1 _ rfl, holds 2 _ rfl, holds 3 _ rfl⟩

theorem Holds.joinedFour {buf : Bytes} {first : Nat} {n : UInt32}
    (holds : Holds buf first (encodeNat 4 n.toNat))
    : (buf first).toUInt32 <<< 24 + (buf (first + 1 : Nat)).toUInt32 <<< 16
        + (buf (first + 2 : Nat)).toUInt32 <<< 8 + (buf (first + 3 : Nat)).toUInt32
      = n := by
  obtain ⟨byte0, byte1, byte2, byte3⟩ := holds.fourBytes
  rw [byte0, byte1, byte2, byte3, joinedFour_encodeNat]

theorem Holds.joinedTwo {buf : Bytes} {first : Nat} {n : UInt16}
    (holds : Holds buf first (encodeNat 2 n.toNat))
    : (buf first).toUInt32 <<< 8 + (buf (first + 1 : Nat)).toUInt32 = n.toUInt32 := by
  have high : buf first = UInt8.ofNat (n.toNat >>> 8) := holds 0 _ rfl
  have low : buf (first + 1 : Nat) = UInt8.ofNat n.toNat := holds 1 _ rfl
  rw [high, low, joinedTwo_encodeNat]

/-- A byte that is shifted to the right by its own width leaves nothing, so the time stamp
lacks it.
-/
theorem joinedFour_shiftedRight_iff (n : UInt32)
    : (UInt8.ofNat (n.toNat >>> 24)).toUInt32 <<< 24
        + (UInt8.ofNat (n.toNat >>> 16)).toUInt32 <<< 16
        + (UInt8.ofNat (n.toNat >>> 8)).toUInt32 >>> 8 + (UInt8.ofNat n.toNat).toUInt32
      = n
      ↔ n.toNat / 256 % 256 = 0 := by
  have whole := joinedFour_encodeNat n
  have lost : (UInt8.ofNat (n.toNat >>> 8)).toUInt32 >>> 8 = 0 := by
    apply UInt32.toNat_inj.mp
    have bound := (UInt8.ofNat (n.toNat >>> 8)).toNat_lt
    rw [UInt32.toNat_shiftRight, UInt8.toNat_toUInt32, Nat.shiftRight_eq_div_pow]
    exact Nat.div_eq_of_lt bound
  have missing
      : (UInt8.ofNat (n.toNat >>> 8)).toUInt32 <<< 8 = 0 ↔ n.toNat / 256 % 256 = 0 := by
    rw [← UInt32.toNat_inj, UInt32.toNat_shiftLeft, UInt8.toNat_toUInt32, UInt8.toNat_ofNat',
      show UInt32.toNat 8 % 32 = 8 by decide, Nat.shiftLeft_eq, Nat.shiftRight_eq_div_pow,
      show UInt32.toNat 0 = 0 by decide]
    omega
  rw [lost, UInt32.add_zero, ← missing]
  generalize (UInt8.ofNat (n.toNat >>> 24)).toUInt32 <<< 24
    + (UInt8.ofNat (n.toNat >>> 16)).toUInt32 <<< 16 = upper at whole ⊢
  generalize (UInt8.ofNat (n.toNat >>> 8)).toUInt32 <<< 8 = third at whole ⊢
  generalize (UInt8.ofNat n.toNat).toUInt32 = last at whole ⊢
  rw [← whole, UInt32.add_left_inj, UInt32.left_eq_add]

/-- The upper byte of a data rate taken twice is the data rate only if the bytes agree. -/
theorem upperTwice_iff (n : UInt16)
    : (UInt8.ofNat (n.toNat >>> 8)).toUInt32 <<< 8 + (UInt8.ofNat (n.toNat >>> 8)).toUInt32
      = n.toUInt32
      ↔ n.toNat / 256 = n.toNat % 256 := by
  have fits := n.toNat_lt
  rw [← joinedTwo_encodeNat n, UInt32.add_right_inj, toUInt32_ofNat_inj,
    Nat.shiftRight_eq_div_pow]
  omega

/-! A block with printable names has the fields of any block. -/

@[simp] theorem ChannelName.encode_length (name : ChannelName) : name.encode.length = 16 := by
  have := name.short
  simp [ChannelName.encode]
  omega

def ChannelName.field (name : ChannelName) : NameField :=
  ⟨name.encode.toArray, name.encode_length⟩

/-- The conversion word of a phasor channel. -/
def PhasorChannel.conversion (channel : PhasorChannel) : UInt32 :=
  UInt32.ofNat ((if channel.isVoltage then 0 else 16777216) + channel.convFact.toNat)

def PmuBlock.fields (block : PmuBlock) : BlockFields where
  stnName := block.stnName.field
  idCode := block.idCode
  format := UInt16.ofNat block.formatWord
  phasors := block.phasors.map fun channel => ⟨channel.name.field, channel.conversion⟩
  analogs := block.analogs.map fun channel => ⟨channel.name.field, channel.conversion⟩
  digitals :=
    block.digitals.map fun channel => ⟨channel.bitNames.map ChannelName.field, channel.masks⟩
  fnom := UInt16.ofNat block.nominal50Hz.toNat
  cfgCnt := block.cfgCnt
  phasors_lt := by simpa using block.phasors_lt
  analogs_lt := by simpa using block.analogs_lt
  digitals_lt := by simpa using block.digitals_lt

/-- The factor's 24 bits stand below the byte that tells voltage from current. -/
theorem PhasorChannel.encode_conversion (channel : PhasorChannel)
    : encodeNat 4 channel.conversion.toNat = channel.encodeConversion := by
  have fits : channel.convFact.toNat < 16777216 := channel.convFact.isLt
  have byte {m n : Nat} (same : m % 256 = n % 256) : UInt8.ofNat m = UInt8.ofNat n := by
    apply UInt8.toNat_inj.mp
    simpa using same
  have joined (kind : Nat) (bit : kind ≤ 1)
      : encodeNat 4 (UInt32.ofNat (kind * 16777216 + channel.convFact.toNat)).toNat
        = UInt8.ofNat kind :: encodeNat 3 channel.convFact.toNat := by
    rw [UInt32.toNat_ofNat', Nat.mod_eq_of_lt (by omega)]
    simp only [encodeNat, Nat.shiftRight_eq_div_pow, List.cons.injEq, and_true]
    refine ⟨?_, ?_, ?_, ?_⟩ <;> apply byte <;> omega
  unfold PhasorChannel.conversion PhasorChannel.encodeConversion
  cases channel.isVoltage with
  | true => exact joined 0 (by decide)
  | false => exact joined 1 (by decide)

theorem PmuBlock.formatWord_lt (block : PmuBlock) : block.formatWord < 65536 := by
  have flag (bit : Bool) : bit.toNat ≤ 1 := Bool.toNat_le bit
  have freq := flag block.freqDfreqFloating
  have analog := flag block.analogDataFloating
  have phasor := flag block.phasorDataFloating
  have polar := flag block.phasorDataPolar
  rw [PmuBlock.formatWord]
  omega

theorem encodeNames_field {α : Type} (name : α → ChannelName) (channels : List α)
    : encodeNames (channels.map fun channel => (name channel).field)
      = channels.flatMap (fun channel => (name channel).encode) := by
  rw [encodeNames, List.flatMap_map]
  rfl

theorem DigitalChannel.encodeNames_field (channel : DigitalChannel)
    : DigitalFields.encodeNames ⟨channel.bitNames.map ChannelName.field, channel.masks⟩
      = channel.encodeNames := by
  rw [DigitalFields.encodeNames, Vector.toList_map]
  exact Sparcs.C37.encodeNames_field id channel.bitNames.toList

/-- They are encoded alike. -/
theorem PmuBlock.encode_fields (block : PmuBlock) : block.fields.encode = block.encode := by
  have format : (UInt16.ofNat block.formatWord).toNat = block.formatWord := by
    rw [UInt16.toNat_ofNat', Nat.mod_eq_of_lt block.formatWord_lt]
  have fnom : (UInt16.ofNat block.nominal50Hz.toNat).toNat = block.nominal50Hz.toNat := by
    cases block.nominal50Hz <;> rfl
  have stnName : block.stnName.field.toList = block.stnName.encode := rfl
  have phasorNames := encodeNames_field PhasorChannel.name block.phasors
  have analogNames := encodeNames_field AnalogChannel.name block.analogs
  simp only [BlockFields.encode, BlockFields.encodeHeader, BlockFields.encodeConversions,
    PmuBlock.fields, PmuBlock.encode, List.map_map, List.flatMap_map, List.length_map, format, fnom,
    stnName, DigitalChannel.encodeNames_field, PhasorChannel.encode_conversion, Function.comp_def,
    phasorNames, analogNames, List.append_assoc]

theorem PmuBlock.encode_length (block : PmuBlock)
    : block.encode.length
      = chnamOffset
        + 16 * (block.phasors.length + block.analogs.length + 16 * block.digitals.length)
        + 4 * (block.phasors.length + block.analogs.length + block.digitals.length) + 4 := by
  rw [← PmuBlock.encode_fields, BlockFields.encode_length]
  simp only [PmuBlock.fields, List.length_map]

/-! What the descriptor of an encoded frame holds. -/

/-- The frame's bytes before its blocks. -/
def CfgFrame.encodeHeader (frame : CfgFrame) : List UInt8 :=
  [syncValue, if frame.isCfg2 then cfg2MsgByteValue else cfg1MsgByteValue]
    ++ encodeNat 2 (frame.encodeFields.length + 6) ++ encodeNat 2 frame.idCode.toNat
    ++ encodeNat 4 frame.soc.toNat ++ [frame.timeQuality] ++ encodeNat 3 frame.fracSec.toNat
    ++ encodeNat 4 frame.timeBase.toNat ++ encodeNat 2 frame.blocks.length

section Encoded

variable (crcCcitt : List UInt8 → BitVec 16) (frame : CfgFrame) (around : Bytes)

theorem CfgFrame.encode_eq
    : frame.encode crcCcitt
      = frame.encodeHeader ++ (frame.blocks.flatMap PmuBlock.encode
        ++ (encodeNat 2 frame.dataRate.toNat
          ++ encodeNat 2 (crcCcitt frame.encodeBody).toNat)) := by
  simp only [CfgFrame.encode, withChecksum, CfgFrame.encodeBody, CfgFrame.encodeHeader,
    CfgFrame.encodeFields, List.append_assoc]

theorem CfgFrame.encodeHeader_length : frame.encodeHeader.length = firstPmuIndx := by
  simp [CfgFrame.encodeHeader, firstPmuIndx]

theorem CfgFrame.numPMU_encode
    : fieldAt (memoryOf (frame.encode crcCcitt) around) numPmuIndx = frame.blocks.length := by
  rw [CfgFrame.encode_eq, CfgFrame.encodeHeader, List.append_assoc]
  exact (holds_memoryOf _ _ _ _).fieldAt_eq frame.blocks_lt

/-- The walk of the parser over an encoded frame ends at its data rate. -/
theorem CfgFrame.walk_encode (fits : (frame.encode crcCcitt).length < 2147483648)
    : (readPmus (memoryOf (frame.encode crcCcitt) around) frame.blocks.length firstPmuIndx).value.2
      = ((frame.encodeHeader ++ frame.blocks.flatMap PmuBlock.encode).length : Nat) := by
  have sameBytes
      : (frame.blocks.map PmuBlock.fields).flatMap BlockFields.encode
        = frame.blocks.flatMap PmuBlock.encode := by
    rw [List.flatMap_map]
    exact congrArg (frame.blocks.flatMap ·) (funext PmuBlock.encode_fields)
  have holds := holds_memoryOf frame.encodeHeader (frame.blocks.flatMap PmuBlock.encode)
    (encodeNat 2 frame.dataRate.toNat ++ encodeNat 2 (crcCcitt frame.encodeBody).toNat) around
  rw [← CfgFrame.encode_eq, CfgFrame.encodeHeader_length, ← sameBytes] at holds
  rw [CfgFrame.encode_eq, List.length_append, List.length_append,
    CfgFrame.encodeHeader_length] at fits
  have walk := (readPmus_blocks _ firstPmuIndx (by rw [sameBytes]; omega) holds).2
  rwa [List.length_map, sameBytes, ← CfgFrame.encodeHeader_length frame,
    ← List.length_append, CfgFrame.encodeHeader_length] at walk

/-- The upper byte of the data rate is read for both of its bytes. -/
theorem readDescriptor_dataRate (fits : (frame.encode crcCcitt).length < 2147483648)
    : (readDescriptor (memoryOf (frame.encode crcCcitt) around)).value.dataRate
      = (UInt8.ofNat (frame.dataRate.toNat >>> 8)).toUInt32 <<< 8
        + (UInt8.ofNat (frame.dataRate.toNat >>> 8)).toUInt32 := by
  have atRate
      : memoryOf (frame.encode crcCcitt) around
          ((frame.encodeHeader ++ frame.blocks.flatMap PmuBlock.encode).length : Nat)
        = UInt8.ofNat (frame.dataRate.toNat >>> 8) := by
    rw [CfgFrame.encode_eq, ← List.append_assoc, memoryOf_getElem _ _ _ (by simp)]
    simp [encodeNat]
  simp only [readDescriptor, value_bind, value_pure, value_readNumPMU, CfgFrame.numPMU_encode,
    CfgFrame.walk_encode crcCcitt frame around fits]
  simp only [readPair, readByte, value_bind, value_readCell, value_pure, atRate]

/-- The bytes of the fields that the descriptor takes from the header. -/
theorem CfgFrame.holds_header
    : Holds (memoryOf (frame.encode crcCcitt) around) idcodeIndx (encodeNat 2 frame.idCode.toNat)
      ∧ Holds (memoryOf (frame.encode crcCcitt) around) socIndx (encodeNat 4 frame.soc.toNat)
      ∧ Holds (memoryOf (frame.encode crcCcitt) around) (fracsecIndx + 1)
          (encodeNat 3 frame.fracSec.toNat)
      ∧ Holds (memoryOf (frame.encode crcCcitt) around) timeBaseIndx
          (encodeNat 4 frame.timeBase.toNat) := by
  have holds := holds_memoryOf [] frame.encodeHeader
    (frame.blocks.flatMap PmuBlock.encode ++ (encodeNat 2 frame.dataRate.toNat
      ++ encodeNat 2 (crcCcitt frame.encodeBody).toNat)) around
  rw [List.nil_append, ← CfgFrame.encode_eq] at holds
  simp only [CfgFrame.encodeHeader, holds_append, List.length_append, encodeNat_length,
    List.length_cons, List.length_nil] at holds
  obtain ⟨⟨⟨⟨⟨⟨_, idCode⟩, soc⟩, _⟩, fracSec⟩, timeBase⟩, _⟩ := holds
  exact ⟨idCode, soc, fracSec, timeBase⟩

/-- Time stamp and data rate are the only fields of the descriptor that may differ from the
frame's.
-/
theorem readDescriptor_decodes_iff (fits : (frame.encode crcCcitt).length < 2147483648)
    : (readDescriptor (memoryOf (frame.encode crcCcitt) around)).value.Decodes frame
        (memoryOf (frame.encode crcCcitt) around)
      ↔ frame.SurvivesShifts := by
  obtain ⟨idCode, soc, fracSec, timeBase⟩ := frame.holds_header crcCcitt around
  have numPMU := frame.numPMU_encode crcCcitt around
  have dataRate := readDescriptor_dataRate crcCcitt frame around fits
  generalize memoryOf (frame.encode crcCcitt) around = buf
    at idCode soc fracSec timeBase numPMU dataRate ⊢
  have timeStamp
      : (readDescriptor buf).value.timeStamp
        = (UInt8.ofNat (frame.soc.toNat >>> 24)).toUInt32 <<< 24
          + (UInt8.ofNat (frame.soc.toNat >>> 16)).toUInt32 <<< 16
          + (UInt8.ofNat (frame.soc.toNat >>> 8)).toUInt32 >>> 8
          + (UInt8.ofNat frame.soc.toNat).toUInt32 := by
    obtain ⟨byte0, byte1, byte2, byte3⟩ := soc.fourBytes
    rw [← byte0, ← byte1, ← byte2, ← byte3]
    rfl
  constructor
  · intro decodes
    exact ⟨(joinedFour_shiftedRight_iff frame.soc).mp (timeStamp.symm.trans decodes.timeStamp),
      (upperTwice_iff frame.dataRate).mp (dataRate.symm.trans decodes.dataRate)⟩
  · intro survives
    have sent := timeStamp.trans ((joinedFour_shiftedRight_iff frame.soc).mpr survives.soc)
    refine ⟨sent, fracSec.joinedThree frame.fracSec.isLt, timeBase.joinedFour, idCode.joinedTwo,
      ?_, dataRate.trans ((upperTwice_iff frame.dataRate).mpr survives.dataRate), ?_⟩
    · apply UInt32.toNat_inj.mp
      have fits := frame.blocks_lt
      refine (value_readNumPMU.trans numPMU).trans ?_
      rw [UInt32.toNat_ofNat']
      omega
    · intro c37Buf sameBytes
      have first := sameBytes 0 (by decide)
      have second := sameBytes 1 (by decide)
      have third := sameBytes 2 (by decide)
      have fourth := sameBytes 3 (by decide)
      rw [Nat.add_zero] at first
      rw [sent, time, first, second, third, fourth]
      exact soc.joinedFour.symm

theorem CfgFrame.le_encode_length {frame : CfgFrame} (hasBlock : frame.blocks ≠ [])
    : cfg12MinMsgLen ≤ (frame.encode crcCcitt).length := by
  obtain ⟨block, rest, blocks⟩ := List.exists_cons_of_ne_nil hasBlock
  rw [CfgFrame.encode_length, blocks, List.flatMap_cons, List.length_append,
    PmuBlock.encode_length, cfg12MinMsgLen, chnamOffset]
  omega

/-- The parser accepts every frame with a PMU block. Its descriptor decodes the frame just when
the third byte of SOC is zero and the bytes of the data rate agree; a frame without blocks is
too short to get a descriptor.
-/
theorem parseCfgMsg_decodes_iff (fits : (frame.encode crcCcitt).length < 65536)
    : (frame.blocks ≠ []
        → (parseCfgMsg crcCcitt (memoryOf (frame.encode crcCcitt) around)
            (UInt32.ofNat (frame.encode crcCcitt).length)).isSome)
      ∧ ((∀ desc,
          parseCfgMsg crcCcitt (memoryOf (frame.encode crcCcitt) around)
              (UInt32.ofNat (frame.encode crcCcitt).length)
            = some desc
          → desc.Decodes frame (memoryOf (frame.encode crcCcitt) around))
        ↔ frame.blocks = [] ∨ frame.SurvivesShifts) := by
  by_cases noBlock : frame.blocks = []
  · refine ⟨fun hasBlock => absurd noBlock hasBlock, ⟨fun _ => Or.inl noBlock, fun _ => ?_⟩⟩
    intro desc accepted
    unfold parseCfgMsg at accepted
    split at accepted
    next passes =>
      obtain ⟨-, -, long, -⟩ := (passesTests_iff _ _ _).mp passes
      rw [CfgFrame.encode_length, noBlock] at long
      exact absurd long (by decide)
    next => cases accepted
  · have long := CfgFrame.le_encode_length crcCcitt noBlock
    have accepted
        : parseCfgMsg crcCcitt (memoryOf (frame.encode crcCcitt) around)
            (UInt32.ofNat (frame.encode crcCcitt).length)
          = some (readDescriptor (memoryOf (frame.encode crcCcitt) around)).value :=
      if_pos (frame.passesTests_encode crcCcitt around long (by omega))
    rw [accepted, or_iff_right noBlock,
      ← readDescriptor_decodes_iff crcCcitt frame around (by omega)]
    simp

end Encoded

/-- A frame with a second whose third byte is zero and a data rate of two equal bytes. -/
def survivingFrame : CfgFrame :=
  { sampleFrame with soc := 1499987968, dataRate := 257 }

theorem parseCfgMsg_decodes_survivingFrame
    : (parseCfgMsg crcBasic (memoryOf (survivingFrame.encode crcBasic) fun _ => 0)
        (UInt32.ofNat (survivingFrame.encode crcBasic).length)).isSome
      ∧ ∀ desc,
        parseCfgMsg crcBasic (memoryOf (survivingFrame.encode crcBasic) fun _ => 0)
            (UInt32.ofNat (survivingFrame.encode crcBasic).length)
          = some desc
        → desc.Decodes survivingFrame (memoryOf (survivingFrame.encode crcBasic) fun _ => 0) := by
  have length : (survivingFrame.encode crcBasic).length = 74 := by
    rw [CfgFrame.encode_length]
    rfl
  obtain ⟨accepted, decodes⟩ := parseCfgMsg_decodes_iff crcBasic survivingFrame
    (fun _ => 0) (by omega)
  exact ⟨accepted (List.cons_ne_nil _ _), decodes.mpr (Or.inr ⟨by decide, by decide⟩)⟩

/-- Of a frame of the second 0x59682F00 at 120 frames per second, the descriptor says
0x59680000 and 0.
-/
theorem parseCfgMsg_sampleFrame_not_decodes
    : ∃ desc,
        parseCfgMsg crcBasic (memoryOf (sampleFrame.encode crcBasic) fun _ => 0) 74 = some desc
        ∧ desc.timeStamp = 0x59680000 ∧ desc.dataRate = 0
        ∧ ¬ desc.Decodes sampleFrame (memoryOf (sampleFrame.encode crcBasic) fun _ => 0) := by
  have length : (sampleFrame.encode crcBasic).length = 74 := by
    rw [CfgFrame.encode_length]
    rfl
  have passes := sampleFrame.passesTests_encode crcBasic (fun _ => 0) (by omega) (by omega)
  rw [length] at passes
  refine ⟨_, if_pos passes, rfl, readDescriptor_dataRate crcBasic sampleFrame _ (by omega), ?_⟩
  intro decodes
  exact absurd decodes.timeStamp (by decide)

end Sparcs.C37
