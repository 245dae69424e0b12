import Sparcs.CassSpeed.CountedSteps

/-! The number of seconds for which the client asks at once, and the bytes of the response. The
client divides its target by a rate in which the quotient by the step size is rounded down.
-/

namespace Sparcs.CassSpeed

open NumberText SignedArithmetic

-----------------------------------------------------------------------------------------
-- The bytes of a response
-----------------------------------------------------------------------------------------

/-- The length of what a compressor returns for `n` samples, all of which the index reaches. -/
def Compression.carries (compression : Compression) (n : Nat) (stepsize : UInt32) : Nat :=
  match compression with
  | .raw => n
  | .skip => if n < stepsize.toNat then Min.min 1 n else (n - 1) / stepsize.toNat
  | .min | .max | .avg => n / stepsize.toNat

/-- The bytes of the samples for `n` samples of each device and channel. -/
def responseBytes (devices channels : Nat) (compressionMethod stepsize : Int32) (n : Nat) : Nat :=
  4 * devices * channels
    * ((Compression.all.filter fun compression => testBit compressionMethod compression.bit).map
        (·.carries n stepsize.toUInt32)).sum

theorem outputs_eq_carries {compression : Compression} {n : Nat} {stepsize : UInt32}
    (accepts : compression.Accepts n stepsize.toNat) (small : n < 2147483648)
    : compression.outputs n stepsize = compression.carries n stepsize := by
  cases compression with
  | raw => rfl
  | skip =>
      rcases accepts with ⟨zero, empty⟩ | ⟨positive, nonempty⟩
      · rw [Compression.outputs, Compression.carries, zero, empty]
        decide
      · rw [outputs_skip positive nonempty (by omega), Compression.carries,
          Nat.min_eq_left nonempty]
  | min | max | avg => exact outputs_combining ⟨by decide, by decide⟩ accepts small

section Payload

variable {r : Request} {device : Text × List CassRow} {found : List (Text × List CassRow)}
  {output : OutputSet} {outputsets : List OutputSet} {n : Nat}

def OutputSet.bytes (output : OutputSet) : Nat :=
  (output.sampleset.map fun entry => 4 * entry.sample.length).sum

/-- Lists that go together, by what the second one shows of the first. -/
theorem map_eq_of_forall₂ {α β γ : Type} {R : α → β → Prop} {f : β → γ} {g : α → γ}
    {xs : List α} {ys : List β} (related : List.Forall₂ R xs ys)
    (same : ∀ x y, R x y → g x = f y)
    : ys.map f = xs.map g := by
  have equal : List.Forall₂ (· = ·) (xs.map g) (ys.map f) := by
    rw [List.forall₂_map_left_iff, List.forall₂_map_right_iff]
    exact related.imp same
  rw [List.forall₂_eq_eq_eq] at equal
  exact equal.symm

theorem sum_sets (compressions : List Compression) (channels : List Channel)
    (length : Compression → Nat)
    : ((compressions.flatMap fun compression => channels.map (compression, ·)).map
        fun set => 4 * length set.1).sum
      = 4 * channels.length * (compressions.map length).sum := by
  induction compressions with
  | nil => rfl
  | cons compression compressions ih =>
      rw [List.flatMap_cons, List.map_append, List.sum_append, ih, List.map_map, List.map_cons,
        List.sum_cons, mul_add]
      congr 1
      change (channels.map fun _ => 4 * length compression).sum = _
      rw [List.map_const', List.sum_replicate, smul_eq_mul]
      ring

/-- What is sent for a device of `n` samples. -/
theorem bytes_eq (fits : FitsMemory device.2) (whole : (trimmed r device.2).length = n)
    (small : n < 2147483648) (answers : output.Answers r device)
    : output.bytes = responseBytes 1 r.channels.length r.compressionMethod r.stepsize n := by
  have memory := @trimmed_length_le r device fits
  have lengths
      : output.sampleset.map (fun entry => 4 * entry.sample.length)
        = r.sets.map fun set => 4 * set.1.carries n r.stepsize.toUInt32 := by
    refine map_eq_of_forall₂ answers.sampleset fun set entry answer => ?_
    have accepts := compressor_accepts (by rw [List.length_map]; omega) answer.sample
    rw [List.length_map, whole] at accepts
    rw [sample_length fits answer, Request.outputs, whole, outputs_eq_carries accepts small]
  rw [OutputSet.bytes, lengths, responseBytes, mul_one]
  exact sum_sets r.compressions r.channels (·.carries n r.stepsize.toUInt32)

/-- What is sent for devices of `n` samples each. -/
theorem sum_bytes_eq (fits : ∀ device ∈ found, FitsMemory device.2)
    (whole : ∀ device ∈ found, (trimmed r device.2).length = n) (small : n < 2147483648)
    (answers : List.Forall₂ (OutputSet.Answers r) found outputsets)
    : (outputsets.map OutputSet.bytes).sum
      = responseBytes found.length r.channels.length r.compressionMethod r.stepsize n := by
  have each
      : List.Forall₂ (fun device output => device ∈ found ∧ OutputSet.Answers r device output)
        found outputsets :=
    (List.forall₂_and_left _ _).mpr ⟨fun _ member => member, answers⟩
  have bytes
      : outputsets.map OutputSet.bytes
        = found.map fun _ =>
            responseBytes 1 r.channels.length r.compressionMethod r.stepsize n :=
    map_eq_of_forall₂ each fun device output both =>
      (bytes_eq (fits device both.1) (whole device both.1) small both.2).symm
  rw [bytes, List.map_const', List.sum_replicate, smul_eq_mul, responseBytes, responseBytes]
  ring

end Payload

-----------------------------------------------------------------------------------------
-- The seconds of a chunk
-----------------------------------------------------------------------------------------

/-- `120*4*atoi(nodeviceids)*atoi(nosamplesets)/atoi(stepsize)*comprerssions` -/
def bytesPerSecond (nodeviceids nosamplesets stepsize compressions : Int32) : IntExpr :=
  (120 : IntExpr) * 4 * nodeviceids * nosamplesets / stepsize * compressions

theorem deltaTChucksize_eq {nodeviceids nosamplesets compressionMethod stepsize : Text}
    {v : Int32} (targetMB : Int32) (reads : stoi compressionMethod = .ok v)
    (divisor : 0 < (atoi stepsize).toInt)
    : deltaTChucksize nodeviceids nosamplesets compressionMethod stepsize targetMB
      = .ok (
          let bps := (bytesPerSecond (atoi nodeviceids) (atoi nosamplesets) (atoi stepsize)
            (bitCount v)).eval
          let deltaT := (targetMB.toInt * 2 ^ 20).tdiv bps.toInt
          if deltaT ≤ 0 then 2147483647 / 2000 else deltaT) := by
  have nonzero : atoi stepsize ≠ 0 := by
    intro zero
    rw [zero] at divisor
    exact absurd divisor (by decide)
  have notMinus : atoi stepsize ≠ -1 := by
    intro minus
    rw [minus] at divisor
    exact absurd divisor (by decide)
  rw [deltaTChucksize, reads]
  simp only [nonzero, notMinus, and_false, or_self, if_false]
  rfl

namespace Arguments

variable (args : Arguments)

def devices : Nat := (split args.deviceids sep).length

/-- The channels whose codes are set. -/
def channels : Nat := ((split args.requested sep).take 12).countP fun code => atoi code != 0

/-- The sum of the codes, which the client takes for the number of channels. -/
def loopsum : Int32 := (((split args.requested sep).take 12).map atoi).foldl (· + ·) 0

/-- `bps` for compressions that are read as `v` -/
def bps (v : Int32) : IntExpr :=
  bytesPerSecond (atoi (toText args.devices)) (atoi (toText args.loopsum.toInt))
    (atoi args.stepsize) (bitCount v)

/-- The bytes of a response of `t` seconds. -/
def bytes (v : Int32) (t : Nat) : Nat :=
  responseBytes args.devices args.channels v (atoi args.stepsize) (120 * t)

/-- The client divides by no zero, what it computes does not overflow, and a response for the
seconds that it comes to, be some of them missing or not, is not above the target.
-/
structure SizesChunk (v targetMB : Int32) : Prop where
  counted : (atoi (toText args.devices)).toInt = args.devices
  inRange : (args.bps v).InRange
  divisor : (args.bps v).eval ≠ 0
  small
    : ∃ seconds,
      deltaTChucksize (toText args.devices) (toText args.loopsum.toInt)
          (chooseCompression args.compressionMethod args.stepsize) args.stepsize targetMB
        = .ok seconds
      ∧ ∀ t : Nat, t ≤ seconds → args.bytes v t ≤ targetMB.toInt * 2 ^ 20

/-- The bytes of a second of one compression with step size 1, as the client counts them. -/
def secondBytes : Int := 480 * args.devices * args.loopsum.toInt

/-- The bytes of a second as the client counts them, if nothing overflows. -/
def truncatedRate (v : Int32) : Int :=
  args.secondBytes.tdiv (atoi args.stepsize).toInt * (List.range 8).countP (testBit v)

/-- The step divides the bytes of a second, which are no fewer than the server's, and the second
itself stays within the target.
-/
structure StepDivides (v targetMB : Int32) : Prop where
  some_device : 0 < args.devices
  some_code : 0 < args.loopsum.toInt
  channels : args.channels ≤ args.loopsum.toInt
  chosen : 0 < (List.range 8).countP (testBit v)
  raw : testBit v Compression.raw.bit → atoi args.stepsize = 1
  product : args.secondBytes < 2147483648
  divides : (atoi args.stepsize).toInt ∣ args.secondBytes
  rate
    : args.secondBytes * (List.range 8).countP (testBit v)
      < (atoi args.stepsize).toInt * 2147483648
  target
    : args.secondBytes * (List.range 8).countP (testBit v)
      ≤ (atoi args.stepsize).toInt * (targetMB.toInt * 2 ^ 20)
  /-- The one sample that is left of a vector that is shorter than the step. -/
  skip
    : testBit v Compression.skip.bit →
      4 * args.devices * args.loopsum.toInt ≤ targetMB.toInt * 2 ^ 20

end Arguments

section Sizes

variable {args : Arguments} {v : Int32}

theorem atoi_toText {n : Int} (lower : -2147483648 ≤ n) (upper : n < 2147483648)
    : (atoi (toText n)).toInt = n := by
  rw [atoi_of_stoi (stoi_toText lower upper), Int32.toInt_ofInt_of_le (by omega) (by omega)]

theorem atoi_toText_toInt (n : Int32) : atoi (toText n.toInt) = n :=
  Int32.toInt_inj.mp (atoi_toText n.le_toInt n.toInt_lt)

theorem bitCount_toInt (v : Int32)
    : (bitCount v).toInt = (List.range 8).countP (testBit v) := by
  have few : (List.range 8).countP (testBit v) ≤ 8 := List.countP_le_length
  exact Int32.toInt_ofNat_of_lt (by omega)

theorem bytesPerSecond_inRange_iff {devices sets step bits : Int32}
    : (bytesPerSecond devices sets step bits).InRange
      ↔ ((((True ∧ True ∧ Fits32 (120 * 4)) ∧ True ∧ Fits32 (480 * devices.toInt)) ∧ True
            ∧ Fits32 (480 * devices.toInt * sets.toInt)) ∧ True ∧ step.toInt ≠ 0
          ∧ Fits32 ((480 * devices.toInt * sets.toInt).tdiv step.toInt)) ∧ True
        ∧ Fits32 ((480 * devices.toInt * sets.toInt).tdiv step.toInt * bits.toInt) :=
  Iff.rfl

theorem fits_devices (coded : args.loopsum ≠ 0) (product : Fits32 args.secondBytes)
    : Fits32 (480 * args.devices) := by
  have nonzero : args.loopsum.toInt ≠ 0 := fun zero => coded (Int32.toInt_inj.mp zero)
  have spread := Int.natAbs_mul (480 * args.devices) args.loopsum.toInt
  have least := Nat.le_mul_of_pos_right (480 * (args.devices : Int)).natAbs
    (Int.natAbs_pos.mpr nonzero)
  obtain ⟨lower, upper⟩ := product
  rw [Arguments.secondBytes] at lower upper
  constructor <;> omega

theorem loopsum_ne_zero (nonzero : args.truncatedRate v ≠ 0) : args.loopsum ≠ 0 := by
  intro zero
  refine nonzero ?_
  rw [Arguments.truncatedRate, Arguments.secondBytes, zero, Int32.toInt_zero, mul_zero,
    Int.zero_tdiv, zero_mul]

/-- Nothing overflows just when the product and the rate fit. -/
theorem bps_inRange_iff (counted : (atoi (toText args.devices)).toInt = args.devices)
    (divisor : 0 < (atoi args.stepsize).toInt) (coded : args.loopsum ≠ 0)
    : (args.bps v).InRange ↔ Fits32 args.secondBytes ∧ Fits32 (args.truncatedRate v) := by
  have parts := @bytesPerSecond_inRange_iff (atoi (toText args.devices))
    (atoi (toText args.loopsum.toInt)) (atoi args.stepsize) (bitCount v)
  rw [counted, atoi_toText_toInt, bitCount_toInt, ← Arguments.secondBytes,
    ← Arguments.truncatedRate] at parts
  rw [Arguments.bps, atoi_toText_toInt]
  rw [parts]
  constructor
  · rintro ⟨⟨⟨-, -, product⟩, -⟩, -, rate⟩
    exact ⟨product, rate⟩
  · rintro ⟨product, rate⟩
    have first := fits_devices coded product
    exact ⟨⟨⟨⟨⟨trivial, trivial, by constructor <;> decide⟩, trivial, first⟩, trivial, product⟩,
      trivial, divisor.ne', fits32_tdiv divisor product⟩, trivial, rate⟩

theorem bps_toInt (counted : (atoi (toText args.devices)).toInt = args.devices)
    (inRange : (args.bps v).InRange)
    : (args.bps v).eval.toInt = args.truncatedRate v := by
  rw [inRange.toInt_eval]
  change (120 * 4 * (atoi (toText args.devices)).toInt
      * (atoi (toText args.loopsum.toInt)).toInt).tdiv
    (atoi args.stepsize).toInt * (bitCount v).toInt = _
  rw [counted, atoi_toText_toInt, bitCount_toInt]
  rfl

/-- The seconds that the client comes to, where a second stays within the target. -/
theorem le_deltaT_iff {rate target : Int} (positive : 0 < rate) (large : rate ≤ target) (t : Nat)
    : (t : Int) ≤ (if target.tdiv rate ≤ 0 then 2147483647 / 2000 else target.tdiv rate)
      ↔ t * rate ≤ target := by
  have least : 1 ≤ target / rate := by
    rw [Int.le_ediv_iff_mul_le positive, one_mul]
    exact large
  rw [Int.tdiv_eq_ediv_of_nonneg (positive.le.trans large), if_neg (by omega),
    Int.le_ediv_iff_mul_le positive]

/-- The codes that are added up, by induction over the turns. -/
theorem foldlM_checkCode_eq {x : List Text} {n : Nat} {total : Int32}
    (accepted : (List.range n).foldlM (checkCode x) 0 = .ok total)
    : ((x.take n).map atoi).foldl (· + ·) 0 = total := by
  induction n generalizing total with
  | zero => exact Except.ok.inj accepted
  | succ n ih =>
      rw [List.range_succ, List.foldlM_append] at accepted
      obtain ⟨sum, earlier, accepted⟩ := ok_of_bind accepted
      rw [List.foldlM_cons] at accepted
      obtain ⟨next, turn, last⟩ := ok_of_bind accepted
      obtain rfl := Except.ok.inj last
      rw [checkCode] at turn
      cases code : x[n]? with
      | none => rw [code] at turn; cases turn
      | some text =>
          rw [code] at turn
          dsimp only at turn
          split_ifs at turn
          obtain rfl := Except.ok.inj turn
          rw [List.take_add_one, code, List.map_append, List.foldl_append, ih earlier]
          rfl

theorem loopsum_eq {sum : Int32} (accepted : checkCodes args.requested = .ok sum)
    : args.loopsum = sum :=
  foldlM_checkCode_eq accepted

/-- What the client comes to, if nothing overflows. -/
theorem deltaTChucksize_eq_of_inRange {targetMB : Int32}
    (reads : stoi (chooseCompression args.compressionMethod args.stepsize) = .ok v)
    (positive : 0 < (atoi args.stepsize).toInt)
    (counted : (atoi (toText args.devices)).toInt = args.devices)
    (inRange : (args.bps v).InRange)
    : deltaTChucksize (toText args.devices) (toText args.loopsum.toInt)
        (chooseCompression args.compressionMethod args.stepsize) args.stepsize targetMB
      = .ok (
          if (targetMB.toInt * 2 ^ 20).tdiv (args.truncatedRate v) ≤ 0 then 2147483647 / 2000
          else (targetMB.toInt * 2 ^ 20).tdiv (args.truncatedRate v)) := by
  rw [deltaTChucksize_eq targetMB reads positive, ← bps_toInt counted inRange]
  rfl

/-- No chunk is sized as it should be with a rate that is rounded to zero or that overflows. -/
theorem Arguments.SizesChunk.rate_fits {targetMB : Int32}
    (positive : 0 < (atoi args.stepsize).toInt) (sizes : args.SizesChunk v targetMB)
    : args.truncatedRate v ≠ 0 ∧ Fits32 args.secondBytes ∧ Fits32 (args.truncatedRate v) := by
  have value := bps_toInt sizes.counted sizes.inRange
  have nonzero : args.truncatedRate v ≠ 0 := by
    rw [← value]
    exact fun zero => sizes.divisor (Int32.toInt_inj.mp zero)
  exact ⟨nonzero, (bps_inRange_iff sizes.counted positive (loopsum_ne_zero nonzero)).mp
    sizes.inRange⟩

/-- With a rate from one to the target, the client comes to seconds that stay within the target at
this rate.
-/
theorem sizesChunk_of_rate {targetMB : Int32}
    (reads : stoi (chooseCompression args.compressionMethod args.stepsize) = .ok v)
    (positive : 0 < (atoi args.stepsize).toInt) (coded : args.loopsum ≠ 0)
    (product : Fits32 args.secondBytes) (rate : Fits32 (args.truncatedRate v))
    (moves : 0 < args.truncatedRate v) (large : args.truncatedRate v ≤ targetMB.toInt * 2 ^ 20)
    (small
      : ∀ t : Nat, t * args.truncatedRate v ≤ targetMB.toInt * 2 ^ 20 →
        args.bytes v t ≤ targetMB.toInt * 2 ^ 20)
    : args.SizesChunk v targetMB := by
  obtain ⟨lower, upper⟩ := fits_devices coded product
  have counted : (atoi (toText args.devices)).toInt = args.devices :=
    atoi_toText (by omega) (by omega)
  have inRange := (bps_inRange_iff counted positive coded).mpr ⟨product, rate⟩
  refine ⟨counted, inRange, ?_, _,
    deltaTChucksize_eq_of_inRange reads positive counted inRange, fun t within => ?_⟩
  · intro zero
    refine moves.ne' ?_
    rw [← bps_toInt counted inRange, zero]
    rfl
  · exact small t ((le_deltaT_iff moves large t).mp within)

end Sizes

-----------------------------------------------------------------------------------------
-- Steps that divide the rate
-----------------------------------------------------------------------------------------

section Divides

variable {args : Arguments} {v : Int32}

theorem carries_mul_le {compression : Compression} {n : Nat} {stepsize : UInt32}
    (raw : compression = .raw → stepsize = 1) (whole : stepsize.toNat ≤ n)
    : compression.carries n stepsize * stepsize.toNat ≤ n := by
  cases compression with
  | raw =>
      rw [raw rfl, Compression.carries]
      exact (Nat.mul_one n).le
  | skip =>
      rw [Compression.carries, if_neg (by omega)]
      exact (Nat.div_mul_le_self _ _).trans (Nat.sub_le n 1)
  | min | max | avg => exact Nat.div_mul_le_self _ _

/-- From a vector that is shorter than the step, at most the skipping compressor returns one. -/
theorem carries_le_of_short {compression : Compression} {n : Nat} {stepsize : UInt32}
    (raw : compression = .raw → stepsize = 1) (short : n < stepsize.toNat)
    : compression.carries n stepsize ≤ if compression = .skip then 1 else 0 := by
  cases compression with
  | raw =>
      have one : (1 : UInt32).toNat = 1 := rfl
      rw [raw rfl, one] at short
      exact Nat.le_of_lt_succ short
  | skip =>
      rw [Compression.carries, if_pos short]
      exact Nat.min_le_left 1 n
  | min | max | avg => exact (Nat.div_eq_of_lt short).le

theorem sum_carries_le_of_short {requested : List Compression} {n : Nat} {stepsize : UInt32}
    (listed : requested.Sublist Compression.all) (raw : .raw ∈ requested → stepsize = 1)
    (short : n < stepsize.toNat)
    : (requested.map (·.carries n stepsize)).sum ≤ if .skip ∈ requested then 1 else 0 := by
  have each (compression : Compression) (member : compression ∈ requested)
      : compression.carries n stepsize ≤ if compression = .skip then 1 else 0 :=
    carries_le_of_short (by rintro rfl; exact raw member) short
  refine (List.sum_le_sum each).trans ?_
  split_ifs with skips
  · exact (listed.map _).sum_le_sum fun _ _ => Nat.zero_le _
  · refine (List.sum_eq_zero fun n member => ?_).le
    obtain ⟨compression, among, rfl⟩ := List.mem_map.mp member
    exact if_neg (by rintro rfl; exact skips among)

/-- The server looks at five of the eight bits that the client counts. -/
theorem compressions_le (v : Int32)
    : (Compression.all.filter fun compression => testBit v compression.bit).length
      ≤ (List.range 8).countP (testBit v) := by
  have bits
      : (Compression.all.filter fun compression => testBit v compression.bit).length
        = (List.range 5).countP (testBit v) := by
    rw [← List.countP_eq_length_filter]
    exact (List.countP_map (f := Compression.bit)).symm
  rw [bits]
  exact List.Sublist.countP_le (List.range_sublist.mpr (by decide))

/-- What is sent for some seconds, when the step divides the bytes of one. -/
theorem responseBytes_le {devices channels second t : Nat} {stepsize : Int32}
    (positive : 0 < stepsize.toUInt32.toNat)
    (seconds : 480 * devices * channels = stepsize.toUInt32.toNat * second)
    (raw : testBit v 4 → stepsize = 1) (whole : stepsize.toUInt32.toNat ≤ 120 * t)
    : responseBytes devices channels v stepsize (120 * t)
      ≤ t * (second * (List.range 8).countP (testBit v)) := by
  have each
      : ∀ compression ∈ Compression.all.filter fun compression => testBit v compression.bit,
        4 * devices * channels * compression.carries (120 * t) stepsize.toUInt32
          ≤ t * second := by
    intro compression member
    have steps := @carries_mul_le compression (120 * t) stepsize.toUInt32 (by
      rintro rfl
      rw [raw (List.mem_filter.mp member).2]
      rfl) whole
    refine Nat.le_of_mul_le_mul_right ?_ positive
    calc 4 * devices * channels * compression.carries (120 * t) stepsize.toUInt32
            * stepsize.toUInt32.toNat
        = 4 * devices * channels
            * (compression.carries (120 * t) stepsize.toUInt32 * stepsize.toUInt32.toNat) := by
          ring
      _ ≤ 4 * devices * channels * (120 * t) := Nat.mul_le_mul_left _ steps
      _ = 480 * devices * channels * t := by ring
      _ = t * second * stepsize.toUInt32.toNat := by rw [seconds]; ring
  rw [responseBytes, ← List.sum_map_mul_left]
  refine (List.sum_le_card_nsmul _ (t * second) ?_).trans ?_
  · intro bytes member
    obtain ⟨compression, requested, rfl⟩ := List.mem_map.mp member
    exact each compression requested
  · rw [List.length_map, smul_eq_mul, mul_comm, mul_assoc]
    exact Nat.mul_le_mul_left t (Nat.mul_le_mul_left second (compressions_le v))

theorem responseBytes_le_of_short {devices channels t : Nat} {stepsize : Int32}
    (raw : testBit v 4 → stepsize = 1) (short : 120 * t < stepsize.toUInt32.toNat)
    : responseBytes devices channels v stepsize (120 * t)
      ≤ if testBit v 3 then 4 * devices * channels else 0 := by
  have one
      : .raw ∈ (Compression.all.filter fun compression => testBit v compression.bit) →
        stepsize.toUInt32 = 1 := by
    intro member
    rw [raw (List.mem_filter.mp member).2]
    rfl
  refine (Nat.mul_le_mul_left _ (sum_carries_le_of_short List.filter_sublist one short)).trans ?_
  by_cases skips : testBit v 3
  · rw [if_pos skips]
    exact (Nat.mul_le_mul_left _ (by split_ifs <;> decide)).trans (Nat.mul_one _).le
  · have absent
        : .skip ∉ Compression.all.filter fun compression => testBit v compression.bit :=
      fun member => skips (List.mem_filter.mp member).2
    rw [if_neg absent, Nat.mul_zero]
    exact Nat.zero_le _

theorem responseBytes_mono {devices fewer more n : Nat} {stepsize : Int32} (le : fewer ≤ more)
    : responseBytes devices fewer v stepsize n ≤ responseBytes devices more v stepsize n :=
  Nat.mul_le_mul_right _ (Nat.mul_le_mul_left _ le)

/-- At a target that the rate does not exceed, a response that the client asks for fits. -/
theorem Arguments.StepDivides.bytes_le {targetMB : Int32} {second t : Nat}
    (divides : args.StepDivides v targetMB) (positive : 0 < (atoi args.stepsize).toInt)
    (seconds : args.secondBytes = (atoi args.stepsize).toInt * second)
    (short : (t * (second * (List.range 8).countP (testBit v)) : Nat) ≤ targetMB.toInt * 2 ^ 20)
    : args.bytes v t ≤ targetMB.toInt * 2 ^ 20 := by
  obtain ⟨sets, counts⟩ := Int.eq_ofNat_of_zero_le divides.some_code.le
  have channels : args.channels ≤ sets := by
    have fewer := divides.channels
    omega
  have step := stepsize_toNat positive.le
  have more := @responseBytes_mono v args.devices _ _ (120 * t) (atoi args.stepsize) channels
  by_cases whole : (atoi args.stepsize).toUInt32.toNat ≤ 120 * t
  · have spread : 480 * args.devices * sets = (atoi args.stepsize).toUInt32.toNat * second := by
      rw [Arguments.secondBytes, counts, ← step] at seconds
      exact_mod_cast seconds
    have fits := more.trans (responseBytes_le (by omega) spread divides.raw whole)
    exact (Int.ofNat_le.mpr fits).trans short
  · have few := more.trans (responseBytes_le_of_short divides.raw (not_le.mp whole))
    split_ifs at few with skips
    · have fits := divides.skip skips
      rw [counts] at fits
      exact (Int.ofNat_le.mpr few).trans (by exact_mod_cast fits)
    · rw [Arguments.bytes, Nat.le_zero.mp few]
      exact (Int.natCast_nonneg _).trans short

/-- A step that divides the bytes of a second sizes the chunks of the client, whatever the target,
the devices, the codes and the compressions: nothing is rounded then, and the rate is not below
what is sent.
-/
theorem sizesChunk_of_stepDivides {targetMB : Int32}
    (reads : stoi (chooseCompression args.compressionMethod args.stepsize) = .ok v)
    (positive : 0 < (atoi args.stepsize).toInt) (divides : args.StepDivides v targetMB)
    : args.SizesChunk v targetMB := by
  have moves : 0 < args.secondBytes := by
    have devices : (0 : Int) < args.devices := Int.natCast_pos.mpr divides.some_device
    exact mul_pos (mul_pos (by decide) devices) divides.some_code
  obtain ⟨quotient, seconds⟩ := divides.divides
  have whole : 0 < quotient := pos_of_mul_pos_right (seconds ▸ moves) positive.le
  obtain ⟨second, rfl⟩ := Int.eq_ofNat_of_zero_le whole.le
  have rate : args.truncatedRate v = (second * (List.range 8).countP (testBit v) : Nat) := by
    rw [Arguments.truncatedRate, seconds, Int.mul_tdiv_cancel_left _ positive.ne', Nat.cast_mul]
  have scaled
      : args.secondBytes * (List.range 8).countP (testBit v)
        = (atoi args.stepsize).toInt * args.truncatedRate v := by
    rw [rate, seconds, Nat.cast_mul, mul_assoc]
  have chosen : 0 < args.truncatedRate v := by
    rw [rate]
    exact Int.natCast_pos.mpr (Nat.mul_pos (Int.natCast_pos.mp whole) divides.chosen)
  have fits : args.truncatedRate v < 2147483648 :=
    lt_of_mul_lt_mul_left (scaled ▸ divides.rate) positive.le
  have large : args.truncatedRate v ≤ targetMB.toInt * 2 ^ 20 :=
    le_of_mul_le_mul_left (scaled ▸ divides.target) positive
  have coded : args.loopsum ≠ 0 := by
    intro zero
    have positiveSum := divides.some_code
    rw [zero] at positiveSum
    exact absurd positiveSum (by decide)
  refine sizesChunk_of_rate reads positive coded ⟨by omega, divides.product⟩ ⟨by omega, fits⟩
    chosen large fun t short => ?_
  rw [rate] at short
  exact divides.bytes_le positive seconds (by exact_mod_cast short)

end Divides

/-- The arguments for the minimum of each step of one channel of one device. -/
def minArguments (stepsize : Text) (ended : nul ∉ stepsize) : Arguments where
  timestampstart := "1480355400000".toList
  timestampend := "1480356400000".toList
  deviceids := "P3001199".toList
  requested := "1;0;0;0;0;0;0;0;0;0;0;0".toList
  compressionMethod := "1".toList
  stepsize
  calcDeltaT := "0".toList
  ended := by
    intro text member
    simp only [List.mem_cons, List.not_mem_nil, or_false] at member
    rcases member with rfl | rfl | rfl | rfl
    · decide
    · decide
    · decide
    · exact ended

/-- A step of two samples divides the bytes of a second. -/
theorem sizesChunk_of_stepDivides_two
    : (minArguments "2".toList (by decide)).SizesChunk 1 32 :=
  sizesChunk_of_stepDivides (by decide +kernel) (by decide +kernel) {
    some_device := by decide +kernel
    some_code := by decide +kernel
    channels := by decide +kernel
    chosen := by decide
    raw := fun raw => absurd raw (by decide)
    product := by decide +kernel
    divides := by decide +kernel
    rate := by decide +kernel
    target := by decide +kernel
    skip := fun skip => absurd skip (by decide)
  }

/-- With a step of 7 samples the client asks for too many seconds, with one of 481 samples it
divides by zero.
-/
theorem chunk_tooLarge
    : ¬(minArguments "7".toList (by decide)).SizesChunk 1 32
      ∧ ¬(minArguments "481".toList (by decide)).SizesChunk 1 32 := by
  constructor
  · rintro ⟨-, -, -, seconds, result, small⟩
    have returned
        : deltaTChucksize (toText (minArguments "7".toList (by decide)).devices)
            (toText (minArguments "7".toList (by decide)).loopsum.toInt)
            (chooseCompression (minArguments "7".toList (by decide)).compressionMethod
              (minArguments "7".toList (by decide)).stepsize)
            (minArguments "7".toList (by decide)).stepsize 32
          = .ok 493447 := by
      decide +kernel
    obtain rfl := Except.ok.inj (result.symm.trans returned)
    have bytes : (minArguments "7".toList (by decide)).bytes 1 493447 = 33836364 := by
      decide +kernel
    have exceeds := small 493447 le_rfl
    rw [bytes] at exceeds
    exact absurd exceeds (by decide)
  · rintro ⟨-, -, divisor, -⟩
    exact divisor (by decide +kernel)

end Sparcs.CassSpeed
