import Sparcs.C37.CfgChecksum

/-! `C37_DataChannel::sendCommand`: the frame that it hands to `async_write`. The payload is
never copied into it, and the checksum is taken of the whole frame, its own two bytes
included.
-/

namespace Sparcs.C37

def cmdSyncValue : UInt8 := 0x41
def cmdIndx : Nat := 14
def extframeIndx : Nat := 16

-----------------------------------------------------------------------------------------
-- `sendCommand`
-----------------------------------------------------------------------------------------

/-- The low byte of the clock's value after a shift, as it is stored in the frame. -/
def timeByte (t : Int64) (shift : Int64) : UInt8 :=
  ((t >>> shift) &&& 0xff).toUInt64.toUInt8

/-- `sendData` when the checksum is taken. -/
def commandBytes (commandType frameLen : UInt32) (t : Int64) : List UInt8 :=
  let sendData := List.replicate frameLen.toNat 0
  let sendData := sendData.set syncIndx syncValue
  let sendData := sendData.set (syncIndx + 1) cmdSyncValue
  let sendData := sendData.set framesizeIndx ((frameLen >>> 8) &&& 0xff).toUInt8
  let sendData := sendData.set (framesizeIndx + 1) (frameLen &&& 0xff).toUInt8
  let sendData := sendData.set idcodeIndx 0
  let sendData := sendData.set (idcodeIndx + 1) 1
  let sendData := sendData.set socIndx (timeByte t 24)
  let sendData := sendData.set (socIndx + 1) (timeByte t 16)
  let sendData := sendData.set (socIndx + 2) (timeByte t 8)
  let sendData := sendData.set (socIndx + 3) (timeByte t 0)
  let sendData := sendData.set fracsecIndx 0
  let sendData := sendData.set (fracsecIndx + 1) 0
  let sendData := sendData.set (fracsecIndx + 2) 0
  let sendData := sendData.set (fracsecIndx + 3) 0
  let sendData := sendData.set cmdIndx 0
  sendData.set (cmdIndx + 1) (commandType &&& 0xff).toUInt8

/-- The frame that is written to the socket. `data` is `none` for `nullptr` and `t` is the
value of `std::time`.
-/
def sendCommand (crcCcitt : List UInt8 → BitVec 16) (commandType : UInt32)
    (data : Option Bytes) (dataLen : UInt32) (t : Int64)
    : List UInt8 :=
  let dataLen := if data.isNone then 0 else dataLen
  let sendData := commandBytes commandType (UInt32.ofNat extframeIndx + dataLen + 2) t
  let checksum := crcCcitt sendData
  let sendData :=
    sendData.set (dataLen + UInt32.ofNat cmdIndx + 2).toNat
      (UInt8.ofBitVec (((checksum >>> 8) &&& 0xff).setWidth 8))
  sendData.set (dataLen + UInt32.ofNat cmdIndx + 3).toNat
    (UInt8.ofBitVec ((checksum &&& 0xff).setWidth 8))

/-- The payload that the caller passes. -/
def commandPayload (data : Option Bytes) (dataLen : UInt32) : List UInt8 :=
  data.elim [] fun data => bytesFrom data dataLen.toNat

/-- The bytes up to the command word, in a frame with a payload of `payloadLen` bytes. -/
def commandHeader (commandType : UInt32) (payloadLen : Nat) (t : Int64) : List UInt8 :=
  [syncValue, cmdSyncValue] ++ encodeNat 2 (18 + payloadLen) ++ [0, 1]
    ++ [timeByte t 24, timeByte t 16, timeByte t 8, timeByte t 0] ++ [0, 0, 0, 0]
    ++ [0, (commandType &&& 0xff).toUInt8]

-----------------------------------------------------------------------------------------
-- What a command frame is to be
-----------------------------------------------------------------------------------------

/-- The size field is the frame's length, the payload lies between the command word and the
checksum, and a receiver's test of the checksum passes.
-/
structure WellFormedCommand (crcCcitt : List UInt8 → BitVec 16) (payload frame : List UInt8)
    : Prop where
  size :
    (frame.getD framesizeIndx 0).toNat * 256 + (frame.getD (framesizeIndx + 1) 0).toNat
      = frame.length
  payload : (frame.take (frame.length - 2)).drop extframeIndx = payload
  checksum :
    ∀ around, passesChecksum crcCcitt (memoryOf frame around) (UInt32.ofNat frame.length) = true

-----------------------------------------------------------------------------------------
-- The frame that is sent
-----------------------------------------------------------------------------------------

@[simp] theorem commandHeader_length (commandType : UInt32) (payloadLen : Nat) (t : Int64)
    : (commandHeader commandType payloadLen t).length = 16 := by
  rfl

theorem commandPayload_length (data : Option Bytes) (dataLen : UInt32)
    : (commandPayload data dataLen).length = (if data.isNone then 0 else dataLen).toNat := by
  cases data with
  | none => rfl
  | some data => simp [commandPayload, bytesFrom]

theorem and_255 (n : Nat) : n &&& 255 = n % 256 := Nat.and_two_pow_sub_one_eq_mod n 8

theorem ofBitVec_high (checksum : BitVec 16)
    : UInt8.ofBitVec (((checksum >>> 8) &&& 0xff).setWidth 8)
      = UInt8.ofNat (checksum.toNat >>> 8) := by
  apply UInt8.toBitVec_inj.mp
  apply BitVec.eq_of_toNat_eq
  simp [and_255]

theorem ofBitVec_low (checksum : BitVec 16)
    : UInt8.ofBitVec ((checksum &&& 0xff).setWidth 8) = UInt8.ofNat checksum.toNat := by
  apply UInt8.toBitVec_inj.mp
  apply BitVec.eq_of_toNat_eq
  simp [and_255]

theorem toUInt8_low (frameLen : UInt32)
    : (frameLen &&& 0xff).toUInt8 = UInt8.ofNat frameLen.toNat := by
  apply UInt8.toNat_inj.mp
  simp [and_255]

/-- The bytes that are set one by one are the header; behind it are zeros. -/
theorem commandBytes_eq (commandType frameLen : UInt32) (t : Int64) (payloadLen : Nat)
    (length : frameLen.toNat = 18 + payloadLen)
    : commandBytes commandType frameLen t
      = commandHeader commandType payloadLen t ++ List.replicate payloadLen 0 ++ [0, 0] := by
  have zeros
      : List.replicate (18 + payloadLen) (0 : UInt8)
        = List.replicate 16 0 ++ (List.replicate payloadLen 0 ++ [0, 0]) := by
    have last : [0, 0] = List.replicate 2 (0 : UInt8) := rfl
    rw [last, List.replicate_append_replicate, List.replicate_append_replicate]
    congr 1
    omega
  have high : (frameLen >>> 8).toNat = (18 + payloadLen) >>> 8 := by
    rw [← length]
    rfl
  simp only [commandBytes, commandHeader, toUInt8_low, high, length, zeros, List.replicate,
    syncIndx, framesizeIndx, idcodeIndx, socIndx, fracsecIndx, cmdIndx, List.cons_append, List.nil_append,
    List.set_cons_zero, List.set_cons_succ, encodeNat, Nat.mul_one, Nat.mul_zero,
    Nat.shiftRight_zero]

/-- The two bytes behind all others. -/
theorem set_last_two (front : List UInt8) (high low : UInt8)
    : ((front ++ [0, 0]).set front.length high).set (front.length + 1) low
      = front ++ [high, low] := by
  rw [List.set_append_right _ _ (by omega), List.set_append_right _ _ (by omega)]
  simp

/-- What is sent: header, zeros for the payload, and the checksum of these and two zeros. -/
theorem sendCommand_eq (crcCcitt : List UInt8 → BitVec 16) (commandType : UInt32)
    (data : Option Bytes) (dataLen : UInt32) (t : Int64)
    (fits : 18 + (commandPayload data dataLen).length < 65536)
    : let payloadLen := (commandPayload data dataLen).length
      let body := commandHeader commandType payloadLen t ++ List.replicate payloadLen 0
      sendCommand crcCcitt commandType data dataLen t
        = body ++ encodeNat 2 (crcCcitt (body ++ [0, 0])).toNat := by
  intro payloadLen body
  obtain ⟨sent, isSent⟩ : ∃ sent, sent = if data.isNone then 0 else dataLen := ⟨_, rfl⟩
  have sentLen : sent.toNat = payloadLen := by
    rw [isSent]
    exact (commandPayload_length data dataLen).symm
  have small : payloadLen < 65518 := by omega
  have frameLen : (UInt32.ofNat extframeIndx + sent + 2).toNat = 18 + payloadLen := by
    simp [extframeIndx, sentLen]
    omega
  have bodyLength : body.length = payloadLen + 16 := by
    simp [body]
    omega
  have high : (sent + UInt32.ofNat cmdIndx + 2).toNat = body.length := by
    simp [cmdIndx, sentLen]
    omega
  have low : (sent + UInt32.ofNat cmdIndx + 3).toNat = body.length + 1 := by
    simp [cmdIndx, sentLen]
    omega
  have bytes := commandBytes_eq commandType (UInt32.ofNat extframeIndx + sent + 2) t payloadLen
    frameLen
  simp only [sendCommand, ← isSent]
  rw [high, low, bytes, set_last_two, ofBitVec_high, ofBitVec_low]
  rfl

/-- A frame of a header, as many bytes as the payload has and a checksum is well formed when
these are the payload and the checksum is that of the bytes before it.
-/
theorem wellFormedCommand_iff (crcCcitt : List UInt8 → BitVec 16) (commandType : UInt32)
    (t : Int64) (payload sent : List UInt8) (checksum : BitVec 16)
    (sameLength : sent.length = payload.length) (fits : 18 + payload.length < 65536)
    : WellFormedCommand crcCcitt payload
        (commandHeader commandType payload.length t ++ sent ++ encodeNat 2 checksum.toNat)
      ↔ sent = payload
        ∧ crcCcitt (commandHeader commandType payload.length t ++ sent) = checksum := by
  obtain ⟨body, isBody⟩ : ∃ body, body = commandHeader commandType payload.length t ++ sent :=
    ⟨_, rfl⟩
  have bodyLength : body.length = 16 + payload.length := by
    rw [isBody, List.length_append, commandHeader_length, sameLength]
  have frameLength : (body ++ encodeNat 2 checksum.toNat).length = body.length + 2 := by simp
  have between
      : ((body ++ encodeNat 2 checksum.toNat).take (body.length + 2 - 2)).drop extframeIndx
        = sent := by
    rw [Nat.add_sub_cancel, List.take_left, isBody]
    exact List.drop_left' (commandHeader_length _ _ _)
  rw [← isBody]
  constructor
  · intro wellFormed
    have payloadBytes := wellFormed.payload
    rw [frameLength, between] at payloadBytes
    have passes := wellFormed.checksum fun _ => 0
    rw [frameLength, passesChecksum_append_iff _ _ _ _ (by omega)] at passes
    exact ⟨payloadBytes, passes⟩
  · intro both
    obtain ⟨isPayload, isChecksum⟩ := both
    constructor
    case size =>
      have high : (body ++ encodeNat 2 checksum.toNat).getD framesizeIndx 0
          = UInt8.ofNat ((18 + payload.length) >>> 8) := by
        rw [isBody]
        rfl
      have low : (body ++ encodeNat 2 checksum.toNat).getD (framesizeIndx + 1) 0
          = UInt8.ofNat (18 + payload.length) := by
        rw [isBody]
        rfl
      rw [high, low, frameLength, Nat.shiftRight_eq_div_pow, UInt8.toNat_ofNat',
        UInt8.toNat_ofNat']
      omega
    case payload =>
      rw [frameLength, between, isPayload]
    case checksum =>
      intro around
      rw [frameLength, passesChecksum_append_iff _ _ _ _ (by omega)]
      exact isChecksum

/-- Bytes and the same bytes with two zeros behind them have one checksum for two values of it
only.
-/
theorem crcBasic_append_zeros_iff (bytes : List UInt8)
    : crcBasic (bytes ++ [0, 0]) = crcBasic bytes
      ↔ crcBasic bytes = 0 ∨ crcBasic bytes = 0xF01F := by
  have zeros : bitsOf [0, 0] = List.replicate (2 ^ 4) false := by rfl
  have joined
      : crcBasic (bytes ++ [0, 0])
        = Crc.feed 0x1021 (crcBasic bytes) (List.replicate (2 ^ 4) false) := by
    rw [← zeros, crcBasic, bitsOf, List.flatMap_append, Crc.feed_append]
    rfl
  rw [joined]
  exact Crc.feed_zeros_eq_self_iff (by decide) (by decide) (by decide) (by decide) 4 _

/-- The frame is well formed just when the payload is nothing but zeros and the checksum of
header and payload is one of the two values that two more zeros leave as they are.
-/
theorem sendCommand_wellFormed_iff {crcCcitt : List UInt8 → BitVec 16}
    (boost : ∀ bytes, crcCcitt bytes = crcBasic bytes) (commandType : UInt32)
    (data : Option Bytes) (dataLen : UInt32) (t : Int64)
    (fits : 18 + (commandPayload data dataLen).length < 65536)
    : let payload := commandPayload data dataLen
      let checksum := crcBasic (commandHeader commandType payload.length t ++ payload)
      WellFormedCommand crcCcitt payload (sendCommand crcCcitt commandType data dataLen t)
      ↔ (∀ byte ∈ payload, byte = 0) ∧ (checksum = 0 ∨ checksum = 0xF01F) := by
  intro payload checksum
  obtain rfl : crcCcitt = crcBasic := funext boost
  have zeros : List.replicate payload.length 0 = payload ↔ ∀ byte ∈ payload, byte = 0 := by
    rw [eq_comm, List.eq_replicate_iff]
    exact and_iff_right rfl
  rw [sendCommand_eq _ _ _ _ _ fits,
    wellFormedCommand_iff _ _ _ _ _ _ List.length_replicate fits, ← zeros]
  constructor
  · intro both
    obtain ⟨isPayload, same⟩ := both
    rw [isPayload] at same
    exact ⟨isPayload, (crcBasic_append_zeros_iff _).mp same.symm⟩
  · intro both
    obtain ⟨isPayload, either⟩ := both
    refine ⟨isPayload, ?_⟩
    rw [isPayload]
    exact ((crcBasic_append_zeros_iff _).mpr either).symm

/-- A command without payload at a second whose header has the checksum 0. -/
theorem sendCommand_wellFormed_iff_second
    : WellFormedCommand crcBasic [] (sendCommand crcBasic 5 none 0 53008) := by
  refine (sendCommand_wellFormed_iff (fun _ => rfl) 5 none 0 53008 (by decide)).mpr ⟨?_, ?_⟩
  · intro byte member
    cases member
  · exact Or.inl (by decide +kernel)

/-- At the start of the epoch the same command fails the test on its checksum, and a payload of
one byte is not in the frame.
-/
theorem sendCommand_malformed
    : ¬ WellFormedCommand crcBasic [] (sendCommand crcBasic 5 none 0 0)
      ∧ ¬ WellFormedCommand crcBasic (commandPayload (some fun _ => 1) 1)
        (sendCommand crcBasic 5 (some fun _ => 1) 1 0) := by
  constructor
  · intro wellFormed
    have passes := wellFormed.checksum fun _ => 0
    revert passes
    decide +kernel
  · intro wellFormed
    have payload := wellFormed.payload
    revert payload
    decide +kernel

end Sparcs.C37
