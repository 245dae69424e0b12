import Sparcs.C37.CfgFrames

/-! The checksum of a configuration frame tells it from every frame that differs from it in
one burst of wrong bits.
-/

namespace Sparcs.C37

/-- Bit `i` of the message at `buf`, most significant bit of each byte first. -/
def messageBit (buf : Bytes) (i : Nat) : Bool :=
  (buf (i / 8 : Nat)).toBitVec.getMsbD (i % 8)

theorem bytesFrom_succ (buf : Bytes) (count : Nat)
    : bytesFrom buf (count + 1) = bytesFrom buf count ++ [buf count] := by
  simp [bytesFrom, List.range_succ]

theorem topBits_eq_map {w : Nat} (n : Nat) (value : BitVec w)
    : Crc.topBits n value = (List.range n).map value.getMsbD := by
  apply List.ext_getElem
  · simp
  · intro i _ _
    simp [Crc.topBits_getElem]

/-- The checksum takes the message's bits one after the other. -/
theorem bitsOf_bytesFrom (buf : Bytes) (count : Nat)
    : bitsOf (bytesFrom buf count) = (List.range (8 * count)).map (messageBit buf) := by
  induction count with
  | zero => rfl
  | succ count ih =>
      rw [bytesFrom_succ, bitsOf, List.flatMap_append, ← bitsOf, ih,
        show 8 * (count + 1) = 8 * count + 8 by ring, List.range_add, List.map_append,
        List.map_map]
      congr 1
      rw [List.flatMap_singleton, topBits_eq_map]
      apply List.map_congr_left
      intro j inByte
      rw [List.mem_range] at inByte
      simp only [Function.comp_apply, messageBit]
      rw [show (8 * count + j) / 8 = count by omega, show (8 * count + j) % 8 = j by omega]

/-- The frame's last two bytes, as the source puts them together. -/
theorem msgCksum_eq (high low : UInt8)
    : (high.toUInt32 <<< 8 + low.toUInt32).toNat
      = (high.toBitVec ++ low.toBitVec : BitVec 16).toNat := by
  rw [BitVec.toNat_append]
  have highBound := high.toNat_lt
  have lowBound := low.toNat_lt
  have shifted : high.toNat <<< 8 = high.toNat * 256 := Nat.shiftLeft_eq _ _
  have joined
      : high.toBitVec.toNat <<< 8 ||| low.toBitVec.toNat = high.toNat * 256 + low.toNat := by
    rw [← Nat.shiftLeft_add_eq_or_of_lt (by exact lowBound)]
    exact congrArg (· + low.toNat) shifted
  rw [joined]
  simp
  omega

/-- A frame that passes the tests is as long as they ask for, and its bits, checksum
included, clear the register.
-/
theorem passesTests_clears {buf : Bytes} {msgLen : UInt32}
    (passes : passesTests crcBasic buf msgLen = true)
    : cfg12MinMsgLen ≤ msgLen.toNat
      ∧ Crc.feed 0x1021#16 0xFFFF ((List.range (8 * msgLen.toNat)).map (messageBit buf)) = 0 := by
  obtain ⟨-, -, long, checksum⟩ := (passesTests_iff _ _ _).mp passes
  refine ⟨long, ?_⟩
  obtain ⟨count, length⟩ : ∃ count, msgLen.toNat = count + 1 + 1 :=
    ⟨msgLen.toNat - 2, by unfold cfg12MinMsgLen at long; omega⟩
  rw [length, msgCksum_eq] at checksum
  rw [length]
  replace checksum := BitVec.eq_of_toNat_eq checksum
  rw [← bitsOf_bytesFrom, bytesFrom_succ, bytesFrom_succ, List.append_assoc, bitsOf,
    List.flatMap_append]
  have lastBits (high low : UInt8)
      : List.flatMap (fun byte => Crc.topBits 8 byte.toBitVec) ([high] ++ [low])
        = Crc.topBits 16 (high.toBitVec ++ low.toBitVec) := by
    rw [List.flatMap_append, List.flatMap_singleton, List.flatMap_singleton]
    exact (Crc.topBits_append high.toBitVec low.toBitVec).symm
  rw [lastBits, Crc.feed_checksum_eq_zero_iff (by decide)]
  have high : ((count + 1 + 1 : Nat) : Int) - 2 = (count : Nat) := by omega
  have low : ((count + 1 + 1 : Nat) : Int) - 1 = (count + 1 : Nat) := by omega
  rw [high, low] at checksum
  exact checksum

/-- Every frame that differs from an accepted one of its length in a burst of at most 16
consecutive bits is rejected. Both would clear the register, and so would their difference.
-/
theorem parseCfgMsg_burst_rejected {crcCcitt : List UInt8 → BitVec 16}
    (boost : ∀ bytes, crcCcitt bytes = crcBasic bytes) (buf corrupted : Bytes)
    (msgLen : UInt32) (accepted : parseCfgMsg crcCcitt buf msgLen ≠ none)
    (differs : ∃ i < 8 * msgLen.toNat, messageBit buf i ≠ messageBit corrupted i) (start : Nat)
    (burst : ∀ i < 8 * msgLen.toNat, messageBit buf i ≠ messageBit corrupted i
      → start ≤ i ∧ i < start + 16)
    : parseCfgMsg crcCcitt corrupted msgLen = none := by
  obtain rfl : crcCcitt = crcBasic := funext boost
  by_contra acceptedToo
  have passes {buf : Bytes} (accepted : parseCfgMsg crcBasic buf msgLen ≠ none)
      : passesTests crcBasic buf msgLen = true := by
    by_contra fails
    exact accepted (if_neg fails)
  obtain ⟨-, clears⟩ := passesTests_clears (passes accepted)
  obtain ⟨-, clearsToo⟩ := passesTests_clears (passes acceptedToo)
  let bits (buf : Bytes) := (List.range (8 * msgLen.toNat)).map (messageBit buf)
  have inBurst : Crc.Burst 16 (Crc.difference (bits buf) (bits corrupted)) := by
    refine ⟨start, ?_⟩
    intro i wrong
    obtain ⟨inside, wrong⟩ := List.getElem?_eq_some_iff.mp wrong
    have bound : i < 8 * msgLen.toNat := by simpa [Crc.difference, bits] using inside
    exact burst i bound (by simpa [Crc.difference, bits] using wrong)
  have wrong : bits buf ≠ bits corrupted := by
    intro same
    obtain ⟨i, inside, differs⟩ := differs
    exact differs (List.map_inj_left.mp same i (List.mem_range.mpr inside))
  exact Crc.feed_ne_of_burst (by decide) 0xFFFF#16 (by simp [bits]) inBurst wrong
    (clears.trans clearsToo.symm)

/-- The sample frame with the first byte of its station name wrong is rejected. -/
theorem parseCfgMsg_burst_rejected_sampleFrame
    : parseCfgMsg crcBasic
        (fun index =>
          if index = 20 then 0x25 else memoryOf (sampleFrame.encode crcBasic) (fun _ => 0) index)
        (UInt32.ofNat (sampleFrame.encode crcBasic).length)
      = none := by
  have length : (sampleFrame.encode crcBasic).length = 74 := by
    rw [CfgFrame.encode_length]
    rfl
  have passes := sampleFrame.passesTests_encode crcBasic (fun _ => 0) (by omega) (by omega)
  refine parseCfgMsg_burst_rejected (fun _ => rfl)
    (memoryOf (sampleFrame.encode crcBasic) fun _ => 0) _ _ ?_ ?_ 160 ?_
  · rw [parseCfgMsg, if_pos passes]
    exact Option.some_ne_none _
  · refine ⟨161, by simp [length], ?_⟩
    decide +kernel
  · intro i inside differs
    by_contra outside
    have elsewhere : ((i / 8 : Nat) : Int) ≠ 20 := by omega
    exact differs (by simp only [messageBit, if_neg elsewhere])

end Sparcs.C37
