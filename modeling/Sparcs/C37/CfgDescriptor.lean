import Sparcs.Library.Crc
import Sparcs.Library.TracedReads
import Sparcs.C37.Buffer

/-! `C37_CfgDescriptor::parseCfg_msg`: the checks on a configuration frame and the walk over
the PMU blocks that it declares.
-/

namespace Sparcs.C37

def syncValue : UInt8 := 0xaa
def cfg1MsgByteValue : UInt8 := 0x21
def cfg2MsgByteValue : UInt8 := 0x31
def cfg12MinMsgLen : Nat := 54

def idcodeIndx : Nat := 4
def timeBaseIndx : Nat := 14
def numPmuIndx : Nat := 18
def firstPmuIndx : Nat := 20
def stnOffset : Nat := 0
def idcodeOffset : Nat := 16
def formatOffset : Nat := 18
def phnmrOffset : Nat := 20
def annmrOffset : Nat := 22
def dgnmrOffset : Nat := 24
def chnamOffset : Nat := 26

/-- The text of a `std::string`. -/
abbrev Text := List UInt8

structure C37PhasorConvFact where
  isVoltage : Bool
  convFact : UInt32
  deriving DecidableEq, Repr

/-- `none` stands for a member that is never assigned. -/
structure C37AnalogConvFact where
  measType : Option UInt32 := none
  convFact : Option UInt32 := none
  deriving DecidableEq, Repr

structure C37DigitalConvFact where
  mask0 : Option UInt32 := none
  mask1 : Option UInt32 := none
  deriving DecidableEq, Repr

/-- `C37_PMUmetadata`; a member that is `none` keeps what was in memory. -/
structure C37PmuMetadata where
  stnName : Text
  idCode : Option UInt32
  freqDfreqFloating : Option Bool
  analogDataFloating : Option Bool
  phasorDataFloating : Option Bool
  phasorDataPolar : Option Bool
  numPhasors : UInt32
  numAnalog : UInt32
  numDigital : UInt32
  phasorChanName : List Text
  analogChanName : List Text
  digitalChanName : List (List Text)
  phasorCF : List C37PhasorConvFact
  analogCF : List C37AnalogConvFact
  digitalCF : List C37DigitalConvFact
  fundFreq : UInt32
  cfgCnt : UInt32
  deriving DecidableEq, Repr

/-- `C37_Cfg_Data` -/
structure C37CfgData where
  frameType : UInt32
  frameLength : UInt32
  c37Version : UInt32
  dataStreamID : UInt32
  timeStamp : UInt32
  rawFracSec : UInt32
  uSecFracSec : UInt32
  timeQuality : UInt32
  timeBase : UInt32
  numPMU : UInt32
  pmuMetadata : List C37PmuMetadata
  dataRate : UInt32
  deriving DecidableEq, Repr

/-- What lies in memory at and around the address `buf`, by its index. -/
abbrev Bytes := Int → UInt8

/-- A value of the source's type `int`. -/
def int32 (x : Int) : Int := x.bmod 4294967296

/-- A value of the source's type `unsigned int`. -/
def uint32 (x : Int) : Int := x % 4294967296

section Reading

variable (buf : Bytes)

/-- `buf[index]`, as the number it is promoted to. -/
def readByte (index : Int) : Traced Int UInt32 := do
  let byte ← Traced.readCell buf index
  return byte.toUInt32

/-- `(buf[index] << 8) + buf[next]` -/
def readPair (index next : Int) : Traced Int UInt32 := do
  let high ← readByte buf index
  let low ← readByte buf next
  return high <<< 8 + low

/-- `isprint` of the C locale. -/
def isprint (char : UInt32) : Bool :=
  32 ≤ char && char < 127

/-- The loop over `charCounter` with `left` turns to go, whose next index is `address
charCounter`; the name is made of the characters it counts.
-/
def readName (address : Nat → Int) : Nat → Nat → Traced Int Text
  | 0, _ => return []
  | left + 1, charCounter => do
      let char ← readByte buf (address charCounter)
      if isprint char then
        let rest ← readName address left (charCounter + 1)
        return char.toUInt8 :: rest
      else
        return []

/-- A loop that reads names at `chnamIndx` and moves it on by 16 for each. -/
def readNames : Nat → Int → Traced Int (List Text × Int)
  | 0, chnamIndx => return ([], chnamIndx)
  | left + 1, chnamIndx => do
      let name ← readName buf (fun charCounter => uint32 (chnamIndx + charCounter)) 16 0
      let (names, chnamIndx) ← readNames left (uint32 (chnamIndx + 16))
      return (name :: names, chnamIndx)

/-- The loop over digital channels, each with the names of its 16 bits. -/
def readDigitalNames : Nat → Int → Traced Int (List (List Text) × Int)
  | 0, chnamIndx => return ([], chnamIndx)
  | left + 1, chnamIndx => do
      let (bitNames, chnamIndx) ← readNames buf 16 chnamIndx
      let (names, chnamIndx) ← readDigitalNames left chnamIndx
      return (bitNames :: names, chnamIndx)

/-- The loop over phasor conversion factors, which never moves `phasorCFIndx` on. -/
def readPhasorCF (phasorCFIndx : Int) : Nat → Traced Int (List C37PhasorConvFact)
  | 0 => return []
  | left + 1 => do
      let isCurrent ← readByte buf phasorCFIndx
      let high ← readByte buf (uint32 (phasorCFIndx + 1))
      let middle ← readByte buf (uint32 (phasorCFIndx + 2))
      let low ← readByte buf (uint32 (phasorCFIndx + 3))
      let rest ← readPhasorCF phasorCFIndx left
      return { isVoltage := isCurrent == 0, convFact := high <<< 16 + middle <<< 8 + low } :: rest

/-- A format flag is set to true or left as it is in memory. -/
def formatFlag (format mask : UInt32) : Option Bool :=
  if format &&& mask ≠ 0 then some true else none

/-- One turn of the loop over PMUs, from `baseIndx` on; with the metadata it adds and the
next `baseIndx`.
-/
def readPmu (baseIndx : Int) : Traced Int (C37PmuMetadata × Int) := do
  let stnName ← readName buf (fun charCounter => int32 (baseIndx + stnOffset + charCounter)) 16 0
  -- the source reads the format byte anew for each flag
  let format ← readByte buf (int32 (baseIndx + formatOffset + 1))
  let numPhasors ←
    readPair buf (int32 (baseIndx + phnmrOffset)) (int32 (baseIndx + phnmrOffset + 1))
  let numAnalog ←
    readPair buf (int32 (baseIndx + annmrOffset)) (int32 (baseIndx + annmrOffset + 1))
  let numDigital ←
    readPair buf (int32 (baseIndx + dgnmrOffset)) (int32 (baseIndx + dgnmrOffset + 1))
  let chnamIndx := uint32 (baseIndx + chnamOffset)
  let phasorCFIndx :=
    uint32 (chnamIndx + 16 * (numPhasors.toNat + numAnalog.toNat + 16 * numDigital.toNat))
  let analogCFIndx := uint32 (phasorCFIndx + 4 * numPhasors.toNat)
  let digitalCFIndx := uint32 (analogCFIndx + 4 * numAnalog.toNat)
  let fnomIndx := uint32 (digitalCFIndx + 4 * numDigital.toNat)
  let cfgCntIndx := uint32 (fnomIndx + 2)
  let (phasorChanName, chnamIndx) ← readNames buf numPhasors.toNat chnamIndx
  let (analogChanName, chnamIndx) ← readNames buf numAnalog.toNat chnamIndx
  let (digitalChanName, _) ← readDigitalNames buf numDigital.toNat chnamIndx
  let phasorCF ← readPhasorCF buf phasorCFIndx numPhasors.toNat
  let fnom ← readByte buf (uint32 (fnomIndx + 1))
  let cfgCnt ← readPair buf cfgCntIndx (uint32 (cfgCntIndx + 1))
  let metadata : C37PmuMetadata :=
    { stnName, numPhasors, numAnalog, numDigital, phasorChanName, analogChanName
      digitalChanName, phasorCF, cfgCnt
      idCode := none
      freqDfreqFloating := formatFlag format 8
      analogDataFloating := formatFlag format 4
      phasorDataFloating := formatFlag format 2
      phasorDataPolar := formatFlag format 1
      analogCF := List.replicate numAnalog.toNat {}
      digitalCF := List.replicate numDigital.toNat {}
      fundFreq := if fnom &&& 1 = 0 then 60 else 50 }
  return (metadata, int32 (cfgCntIndx + 2))

/-- The loop over PMUs with `left` turns to go: the metadata it collects and the final
`baseIndx`.
-/
def readPmus : Nat → Int → Traced Int (List C37PmuMetadata × Int)
  | 0, baseIndx => return ([], baseIndx)
  | left + 1, baseIndx => do
      let pmu ← readPmu buf baseIndx
      let rest ← readPmus left pmu.2
      return (pmu.1 :: rest.1, rest.2)

/-- What `parseCfg_msg` does with a frame that passes its tests. The list that its loop
collects is local to it and the member `pmuMetadata` stays empty.
-/
def readDescriptor : Traced Int C37CfgData := do
  let sync ← readByte buf (syncIndx + 1)
  let frameSizeLow ← readByte buf (framesizeIndx + 1)
  let frameSizeHigh ← readByte buf framesizeIndx
  let dataStreamID ← readPair buf idcodeIndx (idcodeIndx + 1)
  let soc ← readByte buf socIndx
  let soc1 ← readByte buf (socIndx + 1)
  let soc2 ← readByte buf (socIndx + 2)
  let soc3 ← readByte buf (socIndx + 3)
  let timeQuality ← readByte buf fracsecIndx
  let frac1 ← readByte buf (fracsecIndx + 1)
  let frac2 ← readByte buf (fracsecIndx + 2)
  let frac3 ← readByte buf (fracsecIndx + 3)
  let base0 ← readByte buf timeBaseIndx
  let base1 ← readByte buf (timeBaseIndx + 1)
  let base2 ← readByte buf (timeBaseIndx + 2)
  let base3 ← readByte buf (timeBaseIndx + 3)
  let numPMU ← readPair buf numPmuIndx (numPmuIndx + 1)
  let (_, baseIndx) ← readPmus buf numPMU.toNat firstPmuIndx
  let dataRate ← readPair buf baseIndx baseIndx
  return {
    frameType := (sync &&& 0x70) >>> 4
    frameLength := frameSizeLow + frameSizeHigh <<< 8
    c37Version := sync &&& 0xF
    dataStreamID
    -- the third byte is shifted to the right
    timeStamp := soc <<< 24 + soc1 <<< 16 + soc2 >>> 8 + soc3
    rawFracSec := frac1 <<< 16 + frac2 <<< 8 + frac3
    uSecFracSec := 0
    timeQuality
    timeBase := base0 <<< 24 + base1 <<< 16 + base2 <<< 8 + base3
    numPMU
    pmuMetadata := []
    dataRate }

end Reading

/-- The first `count` bytes at `buf`. -/
def bytesFrom (buf : Bytes) (count : Nat) : List UInt8 :=
  (List.range count).map fun i : Nat => buf i

section Tests

-- `crc_ccitt` after `reset`, as a function of the bytes that it is given to process.
variable (crcCcitt : List UInt8 → BitVec 16)

/-- The tests on sync word, length and checksum that `parseCfg_msg` makes first. -/
def passesTests (buf : Bytes) (msgLen : UInt32) : Bool :=
  if buf syncIndx ≠ syncValue
      ∨ (buf (syncIndx + 1) ≠ cfg1MsgByteValue ∧ buf (syncIndx + 1) ≠ cfg2MsgByteValue) then
    false
  else if msgLen.toNat < cfg12MinMsgLen then
    false
  else
    let msgCksum := (buf (msgLen.toNat - 2)).toUInt32 <<< 8 + (buf (msgLen.toNat - 1)).toUInt32
    (crcCcitt (bytesFrom buf (msgLen.toNat - 2))).toNat == msgCksum.toNat

/-- `parseCfg_msg`, with `none` for `nullptr`. -/
def parseCfgMsg (buf : Bytes) (msgLen : UInt32) : Option C37CfgData :=
  if passesTests crcCcitt buf msgLen then some (readDescriptor buf).value else none

end Tests

/-- The bits of a list of bytes, most significant bit of each byte first. -/
def bitsOf (bytes : List UInt8) : List Bool :=
  bytes.flatMap fun byte => Crc.topBits 8 byte.toBitVec

/-- The checksum that `boost::crc_basic<16>(0x1021, 0xFFFF, 0, false, false)` is documented
to compute.
-/
def crcBasic (bytes : List UInt8) : BitVec 16 :=
  Crc.feed 0x1021 0xFFFF (bitsOf bytes)

/-- What the tests ask of a frame. -/
theorem passesTests_iff (crcCcitt : List UInt8 → BitVec 16) (buf : Bytes) (msgLen : UInt32)
    : passesTests crcCcitt buf msgLen = true
      ↔ buf 0 = syncValue ∧ (buf 1 = cfg1MsgByteValue ∨ buf 1 = cfg2MsgByteValue)
        ∧ cfg12MinMsgLen ≤ msgLen.toNat
        ∧ (crcCcitt (bytesFrom buf (msgLen.toNat - 2))).toNat
          = ((buf (msgLen.toNat - 2)).toUInt32 <<< 8
              + (buf (msgLen.toNat - 1)).toUInt32).toNat := by
  have first : ((syncIndx : Nat) : Int) = 0 := rfl
  have second : ((syncIndx : Nat) : Int) + 1 = 1 := rfl
  unfold passesTests
  rw [second, first]
  split
  next wrongSync =>
    simp only [Bool.false_eq_true, false_iff]
    tauto
  next sync =>
    split
    next short =>
      simp only [Bool.false_eq_true, false_iff]
      omega
    next long =>
      rw [Nat.not_lt] at long
      simp only [beq_iff_eq]
      tauto

end Sparcs.C37
