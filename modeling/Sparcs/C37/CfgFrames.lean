import Sparcs.C37.CfgDescriptor

/-! Configuration frames as their senders lay them out, and what the descriptor of one is to
carry: an entry for every PMU block, in the frame's order.
-/

namespace Sparcs.C37

/-- A station or channel name of at most 16 printable characters. -/
structure ChannelName where
  text : Text
  short : text.length ≤ 16
  printable : ∀ char ∈ text, isprint char.toUInt32 = true

/-- A phasor channel with its conversion word: voltage or current, and a factor of 24 bits. -/
structure PhasorChannel where
  name : ChannelName
  isVoltage : Bool
  convFact : BitVec 24

structure AnalogChannel where
  name : ChannelName
  conversion : UInt32

structure DigitalChannel where
  bitNames : Vector ChannelName 16
  masks : UInt32

/-- A PMU block of a configuration frame; its counts are fields of 16 bits. -/
structure PmuBlock where
  stnName : ChannelName
  idCode : UInt16
  freqDfreqFloating : Bool
  analogDataFloating : Bool
  phasorDataFloating : Bool
  phasorDataPolar : Bool
  phasors : List PhasorChannel
  analogs : List AnalogChannel
  digitals : List DigitalChannel
  nominal50Hz : Bool
  cfgCnt : UInt16
  phasors_lt : phasors.length < 65536
  analogs_lt : analogs.length < 65536
  digitals_lt : digitals.length < 65536

/-- A configuration frame of either kind. -/
structure CfgFrame where
  isCfg2 : Bool
  idCode : UInt16
  soc : UInt32
  timeQuality : UInt8
  fracSec : BitVec 24
  timeBase : UInt32
  blocks : List PmuBlock
  dataRate : UInt16
  blocks_lt : blocks.length < 65536

/-- `size` bytes of a number, most significant byte first. -/
def encodeNat : Nat → Nat → List UInt8
  | 0, _ => []
  | size + 1, n => UInt8.ofNat (n >>> (8 * size)) :: encodeNat size n

/-- A name's field of 16 bytes, with zeros behind the name. -/
def ChannelName.encode (name : ChannelName) : List UInt8 :=
  name.text ++ List.replicate (16 - name.text.length) 0

def PhasorChannel.encodeConversion (channel : PhasorChannel) : List UInt8 :=
  (if channel.isVoltage then 0 else 1) :: encodeNat 3 channel.convFact.toNat

def DigitalChannel.encodeNames (channel : DigitalChannel) : List UInt8 :=
  channel.bitNames.toList.flatMap ChannelName.encode

def PmuBlock.formatWord (block : PmuBlock) : Nat :=
  8 * block.freqDfreqFloating.toNat + 4 * block.analogDataFloating.toNat
    + 2 * block.phasorDataFloating.toNat + block.phasorDataPolar.toNat

/-- The bytes of a block, in the order of the offsets of `C37_MsgFormats.h`. -/
def PmuBlock.encode (block : PmuBlock) : List UInt8 :=
  block.stnName.encode ++ encodeNat 2 block.idCode.toNat ++ encodeNat 2 block.formatWord
    ++ encodeNat 2 block.phasors.length ++ encodeNat 2 block.analogs.length
    ++ encodeNat 2 block.digitals.length
    ++ block.phasors.flatMap (fun channel => channel.name.encode)
    ++ block.analogs.flatMap (fun channel => channel.name.encode)
    ++ block.digitals.flatMap DigitalChannel.encodeNames
    ++ block.phasors.flatMap PhasorChannel.encodeConversion
    ++ block.analogs.flatMap (fun channel => encodeNat 4 channel.conversion.toNat)
    ++ block.digitals.flatMap (fun channel => encodeNat 4 channel.masks.toNat)
    ++ encodeNat 2 block.nominal50Hz.toNat ++ encodeNat 2 block.cfgCnt.toNat

/-- The bytes behind the size field and before the checksum. -/
def CfgFrame.encodeFields (frame : CfgFrame) : List UInt8 :=
  encodeNat 2 frame.idCode.toNat ++ encodeNat 4 frame.soc.toNat ++ [frame.timeQuality]
    ++ encodeNat 3 frame.fracSec.toNat ++ encodeNat 4 frame.timeBase.toNat
    ++ encodeNat 2 frame.blocks.length ++ frame.blocks.flatMap PmuBlock.encode
    ++ encodeNat 2 frame.dataRate.toNat

/-- Everything that the checksum is taken of. -/
def CfgFrame.encodeBody (frame : CfgFrame) : List UInt8 :=
  [syncValue, if frame.isCfg2 then cfg2MsgByteValue else cfg1MsgByteValue]
    ++ encodeNat 2 (frame.encodeFields.length + 6) ++ frame.encodeFields

/-- Bytes with their checksum behind them. -/
def withChecksum (crcCcitt : List UInt8 → BitVec 16) (body : List UInt8) : List UInt8 :=
  body ++ encodeNat 2 (crcCcitt body).toNat

/-- A frame with a valid checksum. -/
def CfgFrame.encode (crcCcitt : List UInt8 → BitVec 16) (frame : CfgFrame) : List UInt8 :=
  withChecksum crcCcitt frame.encodeBody

/-- A memory with a message at `buf`, and anything around it. -/
def memoryOf (message : List UInt8) (around : Bytes) : Bytes := fun index =>
  if 0 ≤ index then message.getD index.toNat (around index) else around index

@[simp] theorem encodeNat_length (size n : Nat) : (encodeNat size n).length = size := by
  induction size with
  | zero => rfl
  | succ size ih => simp [encodeNat, ih]

theorem CfgFrame.encode_length (crcCcitt : List UInt8 → BitVec 16) (frame : CfgFrame)
    : (frame.encode crcCcitt).length
      = 24 + (frame.blocks.flatMap PmuBlock.encode).length := by
  simp only [CfgFrame.encode, withChecksum, CfgFrame.encodeBody, CfgFrame.encodeFields,
    List.length_append,
    encodeNat_length, List.length_cons, List.length_nil]
  omega

theorem memoryOf_getElem (message : List UInt8) (around : Bytes) (i : Nat)
    (inside : i < message.length)
    : memoryOf message around i = message[i] := by
  simp [memoryOf, inside]

theorem bytesFrom_memoryOf (front back : List UInt8) (around : Bytes)
    : bytesFrom (memoryOf (front ++ back) around) front.length = front := by
  apply List.ext_getElem
  · simp [bytesFrom]
  · intro i inside _
    have inFront : i < front.length := by simpa [bytesFrom] using inside
    simp only [bytesFrom, List.getElem_map, List.getElem_range]
    rw [memoryOf_getElem _ _ _ (by simp; omega), List.getElem_append_left inFront]

/-- The last two bytes of a number of 16 bits, as the parser puts them together. -/
theorem joined_encodeNat (n : Nat) (fits : n < 65536)
    : ((UInt8.ofNat (n >>> 8)).toUInt32 <<< 8 + (UInt8.ofNat n).toUInt32).toNat = n := by
  rw [Nat.shiftRight_eq_div_pow]
  simp only [UInt32.toNat_add, UInt32.toNat_shiftLeft, UInt8.toNat_toUInt32,
    UInt8.toNat_ofNat']
  rw [show UInt32.toNat 8 % 32 = 8 by decide, Nat.shiftLeft_eq]
  omega

/-- The test on the checksum that `parseCfg_msg` makes. -/
def passesChecksum (crcCcitt : List UInt8 → BitVec 16) (buf : Bytes) (msgLen : UInt32) : Bool :=
  let msgCksum := (buf (msgLen.toNat - 2)).toUInt32 <<< 8 + (buf (msgLen.toNat - 1)).toUInt32
  (crcCcitt (bytesFrom buf (msgLen.toNat - 2))).toNat == msgCksum.toNat

/-- It is the last of the tests. -/
theorem passesTests_iff_passesChecksum (crcCcitt : List UInt8 → BitVec 16) (buf : Bytes)
    (msgLen : UInt32)
    : passesTests crcCcitt buf msgLen = true
      ↔ buf 0 = syncValue ∧ (buf 1 = cfg1MsgByteValue ∨ buf 1 = cfg2MsgByteValue)
        ∧ cfg12MinMsgLen ≤ msgLen.toNat
        ∧ passesChecksum crcCcitt buf msgLen = true := by
  rw [passesTests_iff, passesChecksum, beq_iff_eq]

/-- A message with two bytes behind it passes just when they are its checksum. -/
theorem passesChecksum_append_iff (crcCcitt : List UInt8 → BitVec 16) (body : List UInt8)
    (checksum : BitVec 16) (around : Bytes) (fits : body.length + 2 < 4294967296)
    : passesChecksum crcCcitt (memoryOf (body ++ encodeNat 2 checksum.toNat) around)
        (UInt32.ofNat (body.length + 2))
      = true
      ↔ crcCcitt body = checksum := by
  have length : (UInt32.ofNat (body.length + 2)).toNat = body.length + 2 := by
    simp
    omega
  have high : ((body.length + 2 : Nat) : Int) - 2 = (body.length : Nat) := by omega
  have low : ((body.length + 2 : Nat) : Int) - 1 = (body.length + 1 : Nat) := by omega
  rw [passesChecksum, length, Nat.add_sub_cancel, bytesFrom_memoryOf, high, low,
    memoryOf_getElem _ _ _ (by simp), memoryOf_getElem _ _ _ (by simp)]
  simp only [encodeNat, List.getElem_append_right (Nat.le_refl _),
    List.getElem_append_right (Nat.le_add_right _ 1), Nat.sub_self, Nat.add_sub_cancel_left,
    List.getElem_cons_zero, List.getElem_cons_succ, Nat.mul_one, Nat.mul_zero, Nat.shiftRight_zero]
  rw [joined_encodeNat _ checksum.isLt, beq_iff_eq, BitVec.toNat_inj]

/-- Enough bytes that start with a sync word pass the tests with their checksum behind them. -/
theorem passesTests_withChecksum (crcCcitt : List UInt8 → BitVec 16) (body : List UInt8)
    (around : Bytes) (long : 52 ≤ body.length) (fits : body.length + 2 < 4294967296)
    (sync : body[0] = syncValue)
    (kind : body[1] = cfg1MsgByteValue ∨ body[1] = cfg2MsgByteValue)
    : passesTests crcCcitt (memoryOf (withChecksum crcCcitt body) around)
        (UInt32.ofNat (body.length + 2))
      = true := by
  rw [passesTests_iff_passesChecksum, withChecksum, passesChecksum_append_iff _ _ _ _ fits]
  have length : (UInt32.ofNat (body.length + 2)).toNat = body.length + 2 := by
    simp
    omega
  have inBody (i : Nat) (inside : i < body.length)
      : memoryOf (body ++ encodeNat 2 (crcCcitt body).toNat) around i = body[i] := by
    rw [memoryOf_getElem _ _ _ (by simp; omega), List.getElem_append_left inside]
  refine ⟨(inBody 0 (by omega)).trans sync, ?_, by unfold cfg12MinMsgLen; omega, rfl⟩
  rw [← Nat.cast_one, inBody 1 (by omega)]
  exact kind

/-- Every frame with a PMU block passes the tests. -/
theorem CfgFrame.passesTests_encode (crcCcitt : List UInt8 → BitVec 16) (frame : CfgFrame)
    (around : Bytes) (long : 54 ≤ (frame.encode crcCcitt).length)
    (fits : (frame.encode crcCcitt).length < 4294967296)
    : passesTests crcCcitt (memoryOf (frame.encode crcCcitt) around)
        (UInt32.ofNat (frame.encode crcCcitt).length)
      = true := by
  have length : (frame.encode crcCcitt).length = frame.encodeBody.length + 2 := by
    simp [CfgFrame.encode, withChecksum]
  rw [length] at long fits ⊢
  apply passesTests_withChecksum crcCcitt frame.encodeBody around (by omega) fits
  · rfl
  · cases kind : frame.isCfg2 <;> simp [CfgFrame.encodeBody, kind]

/-- The metadata carries a block's id code, format flags, names and phasor conversions. -/
structure C37PmuMetadata.Describes (metadata : C37PmuMetadata) (block : PmuBlock) : Prop where
  idCode : metadata.idCode = some block.idCode.toUInt32
  freqDfreqFloating : metadata.freqDfreqFloating = some block.freqDfreqFloating
  analogDataFloating : metadata.analogDataFloating = some block.analogDataFloating
  phasorDataFloating : metadata.phasorDataFloating = some block.phasorDataFloating
  phasorDataPolar : metadata.phasorDataPolar = some block.phasorDataPolar
  stnName : metadata.stnName = block.stnName.text
  phasorChanName :
    metadata.phasorChanName = block.phasors.map (fun channel => channel.name.text)
  analogChanName :
    metadata.analogChanName = block.analogs.map (fun channel => channel.name.text)
  digitalChanName :
    metadata.digitalChanName
      = block.digitals.map (fun channel => channel.bitNames.toList.map ChannelName.text)
  phasorCF :
    metadata.phasorCF
      = block.phasors.map (fun channel =>
        { isVoltage := channel.isVoltage, convFact := UInt32.ofNat channel.convFact.toNat })

/-- The parser returns a descriptor with an entry for every block, in order. -/
def CarriesBlocks (result : Option C37CfgData) (blocks : List PmuBlock) : Prop :=
  ∃ desc, result = some desc
    ∧ List.Forall₂ C37PmuMetadata.Describes desc.pmuMetadata blocks

/-- Whatever the frame says, the descriptor carries none of its blocks: the loop's list is
never stored in it, and a frame without blocks is too short to be accepted.
-/
theorem parseCfgMsg_not_carriesBlocks (crcCcitt : List UInt8 → BitVec 16) (frame : CfgFrame)
    (around : Bytes)
    : ¬ CarriesBlocks
        (parseCfgMsg crcCcitt (memoryOf (frame.encode crcCcitt) around)
          (UInt32.ofNat (frame.encode crcCcitt).length))
        frame.blocks := by
  rintro ⟨desc, accepted, carried⟩
  unfold parseCfgMsg at accepted
  split at accepted
  next passes =>
    have metadata : desc.pmuMetadata = [] := by
      rw [← Option.some.inj accepted]
      rfl
    rw [metadata] at carried
    have noBlocks : frame.blocks = [] := by
      cases blocks : frame.blocks with
      | nil => rfl
      | cons block rest => rw [blocks] at carried; cases carried
    obtain ⟨-, -, long, -⟩ := (passesTests_iff _ _ _).mp passes
    rw [CfgFrame.encode_length, noBlocks] at long
    exact absurd long (by decide)
  next => cases accepted

/-- A block with a voltage phasor and floating-point phasors. -/
def sampleBlock : PmuBlock where
  stnName := { text := [83, 84, 78], short := by decide, printable := by decide +kernel }
  idCode := 7
  freqDfreqFloating := false
  analogDataFloating := false
  phasorDataFloating := true
  phasorDataPolar := true
  phasors :=
    [{ name := { text := [86, 65], short := by decide, printable := by decide +kernel }
       isVoltage := true
       convFact := 915527 }]
  analogs := []
  digitals := []
  nominal50Hz := false
  cfgCnt := 1
  phasors_lt := by decide
  analogs_lt := by decide
  digitals_lt := by decide

/-- A frame with one block. -/
def sampleFrame : CfgFrame where
  isCfg2 := true
  idCode := 7
  soc := 1500000000
  timeQuality := 0
  fracSec := 0
  timeBase := 1000000
  blocks := [sampleBlock]
  dataRate := 120
  blocks_lt := by decide

/-- The frame is accepted, and its one block is in no descriptor. -/
theorem parseCfgMsg_sampleFrame_not_carriesBlocks
    : (parseCfgMsg crcBasic (memoryOf (sampleFrame.encode crcBasic) fun _ => 0) 74).map
        C37CfgData.pmuMetadata = some []
      ∧ ¬ CarriesBlocks
        (parseCfgMsg crcBasic (memoryOf (sampleFrame.encode crcBasic) fun _ => 0) 74)
        sampleFrame.blocks := by
  have length : (sampleFrame.encode crcBasic).length = 74 := by
    rw [CfgFrame.encode_length]
    rfl
  have accepted
      : (parseCfgMsg crcBasic (memoryOf (sampleFrame.encode crcBasic) fun _ => 0) 74).map
          C37CfgData.pmuMetadata = some [] := by
    have passes := sampleFrame.passesTests_encode crcBasic (fun _ => 0) (by omega) (by omega)
    rw [length] at passes
    exact congrArg (Option.map C37CfgData.pmuMetadata) (if_pos passes)
  refine ⟨accepted, ?_⟩
  rintro ⟨desc, parsed, carried⟩
  rw [parsed] at accepted
  rw [Option.some.inj accepted] at carried
  cases carried

end Sparcs.C37
