import Sparcs.CassSpeed.LoopEnds

/-! The number of outputs of a compressor that returns, and of the samples that they stand for. -/

namespace Sparcs.CassSpeed

open FuelLoop SignedArithmetic

namespace Compression

/-- The length of what a compressor returns for `n` samples, if it returns. -/
def outputs (compression : Compression) (n : Nat) (stepsize : UInt32) : Nat :=
  match compression with
  | .raw => n
  | .skip => if stepsize.toNat ≤ n then stepsBelow (n - stepsize.toNat) stepsize.toNat else 1
  | .min | .max | .avg => stepsBelow (n - stepsize.toNat + 1) stepsize.toNat

/-- How many of `n` samples `m` outputs stand for. -/
def covers (compression : Compression) (n : Nat) (stepsize : UInt32) (m : Nat) : Nat :=
  match compression with
  | .raw => m
  | .min | .max | .avg | .skip => Min.min n (m * stepsize.toNat)

/-- What is known of a vector and a step for which a compressor returns. -/
def Accepts (n s : Nat) : Compression → Prop
  | .min | .max | .avg => 0 < s ∧ s ≤ n
  | .skip => s = 0 ∧ n = 0 ∨ 0 < s ∧ 0 < n
  | .raw => True

/-- The compressors that combine all samples of a step. -/
def CombinesSteps (compression : Compression) : Prop := compression ≠ .raw ∧ compression ≠ .skip

end Compression

section Accepts

variable {input output : Samples} {stepsize : UInt32}

theorem runLoop_of_not_halts {σ α : Type} {turn : σ → Turn σ (Except Fault α)} {s : σ}
    (runsOn : ¬Halts turn s)
    : runLoop turn s = .error .runsOn := by
  rw [runLoop]
  cases result : run turn loopFuel s with
  | none => rfl
  | some outcome => exact absurd ⟨loopFuel, by rw [result]; rfl⟩ runsOn

theorem combineSteps_accepts {combine : Float32 → Float32 → Float32} {finish : Float32 → Float32}
    (memory : input.length < 2 ^ 63)
    (returned : combineSteps combine finish input stepsize = .ok output)
    : 0 < stepsize.toNat ∧ stepsize.toNat ≤ input.length := by
  rcases Nat.eq_zero_or_pos stepsize.toNat with zero | positive
  · obtain rfl : stepsize = 0 := UInt32.toNat.inj zero
    by_cases empty : input = []
    · subst empty
      cases returned
    · obtain ⟨first, sample, begins⟩ := first_sample memory empty
      have value : (blockValue combine input 0 0).map finish = .ok (finish first) := by
        rw [blockValue_zero combine sample]
        rfl
      rw [combineSteps, stepLoop, runLoop_of_not_halts
        (stepTurn_runsOn (decide_eq_true (UInt64.le_of_lt begins)) value)] at returned
      cases returned
  · exact ⟨positive, ((combineSteps_eq_ok_iff positive memory).mp returned).1.1⟩

theorem skip_accepts (memory : input.length < 2 ^ 63)
    (returned : compressorSkipSample input stepsize = .ok output)
    : Compression.skip.Accepts input.length stepsize.toNat := by
  rcases Nat.eq_zero_or_pos stepsize.toNat with zero | positive
  · obtain rfl : stepsize = 0 := UInt32.toNat.inj zero
    by_cases empty : input = []
    · exact .inl ⟨rfl, List.length_eq_zero_iff.mpr empty⟩
    · obtain ⟨first, sample, begins⟩ := first_sample memory empty
      rw [compressorSkipSample, stepLoop, runLoop_of_not_halts
        (stepTurn_runsOn (decide_eq_true begins) sample)] at returned
      cases returned
  · refine .inr ⟨positive, List.length_pos_iff.mpr ?_⟩
    rintro rfl
    have start : (asSize 0).toNat = 0 := asSize_toNat rfl (by decide)
    have wraps : 2 ^ 63 ≤ (sizeMinus ([] : Samples) stepsize).toNat := le_sizeMinus positive
    have throws : compressorSkipSample ([] : Samples) stepsize = .error .exception := by
      refine stepLoop_throws (decide_eq_true ?_) rfl
      rw [UInt64.lt_iff_toNat_lt, start]
      omega
    rw [throws] at returned
    cases returned

theorem compressor_accepts {compression : Compression} (memory : input.length < 2 ^ 63)
    (returned : compression.compressor input stepsize = .ok output)
    : compression.Accepts input.length stepsize.toNat := by
  cases compression with
  | min => exact combineSteps_accepts memory returned
  | max => exact combineSteps_accepts memory returned
  | avg => exact combineSteps_accepts memory returned
  | skip => exact skip_accepts memory returned
  | raw => trivial

end Accepts

section Outputs

variable {input output : Samples} {stepsize : UInt32}

theorem combineSteps_length {combine : Float32 → Float32 → Float32} {finish : Float32 → Float32}
    (memory : input.length < 2 ^ 63)
    (returned : combineSteps combine finish input stepsize = .ok output)
    : output.length = stepsBelow (input.length - stepsize.toNat + 1) stepsize.toNat := by
  have positive := (combineSteps_accepts memory returned).1
  exact ((combineSteps_eq_ok_iff positive memory).mp returned).2.1

/-- A step of more than half of the unsigned numbers, or of more than there are samples, is
taken at most once.
-/
theorem skip_once (memory : input.length < 2 ^ 63)
    (far : 2147483648 ≤ stepsize.toNat ∨ input.length < stepsize.toNat)
    (returned : compressorSkipSample input stepsize = .ok output)
    : output.length = if 0 < (sizeMinus input stepsize).toNat then 1 else 0 := by
  have bounded := stepsize.toNat_lt
  have zero : (0 : Int32).toUInt32.toNat = 0 := rfl
  have start : (asSize 0).toNat = 0 := asSize_toNat zero (by decide)
  have loop
      : Halts (stepTurn (· < sizeMinus input stepsize) (sampleAt input) stepsize) (0, [])
        ∧ ∀ output, compressorSkipSample input stepsize = .ok output →
          output.length = if 0 < (sizeMinus input stepsize).toNat then 1 else 0 := by
    refine runLoop_total
      (fun s : Int32 × Samples => s = (0, [])
        ∨ 0 < (sizeMinus input stepsize).toNat ∧ s.1.toUInt32.toNat = stepsize.toNat
          ∧ s.2.length = 1)
      (fun result : Except Fault Samples => ∀ output, result = .ok output →
        output.length = if 0 < (sizeMinus input stepsize).toNat then 1 else 0)
      (fun s => 1 - s.2.length) ?_ (.inl rfl) (by decide)
    rintro ⟨i, outputs⟩ (first | ⟨nonempty, index, one⟩)
    · obtain ⟨rfl, rfl⟩ := Prod.mk.inj first
      rw [stepTurn]
      simp only [decide_eq_true_eq, UInt64.lt_iff_toNat_lt, start]
      split_ifs with goesOn
      · cases sampleAt input 0 with
        | error fault => exact fun _ same => by cases same
        | ok v =>
            have next
                : ((0 : Int32).toUInt32 + stepsize).toInt32.toUInt32.toNat = 0 + stepsize.toNat :=
              next_toNat zero (by omega)
            exact ⟨.inr ⟨goesOn, by rw [next, Nat.zero_add], rfl⟩, Nat.one_pos⟩
      · rintro _ ⟨⟩
        rfl
    · dsimp only at index one
      rw [stepTurn]
      dsimp only
      rw [sampleAt_eq_error memory index (by omega)]
      split_ifs
      · exact fun _ same => by cases same
      · rintro _ ⟨⟩
        exact one
  exact loop.2 output returned

theorem skip_length (memory : input.length < 2 ^ 63)
    (returned : compressorSkipSample input stepsize = .ok output)
    : output.length = Compression.skip.outputs input.length stepsize := by
  rw [Compression.outputs]
  by_cases short : input.length < stepsize.toNat
  · have wraps : 2 ^ 63 ≤ (sizeMinus input stepsize).toNat := le_sizeMinus short
    rw [skip_once memory (.inr short) returned, if_pos (by omega), if_neg (by omega)]
  · rw [if_pos (by omega)]
    by_cases large : 2147483648 ≤ stepsize.toNat
    · rw [skip_once memory (.inl large) returned, sizeMinus_toNat (by omega) memory, stepsBelow]
      split_ifs with nonempty
      · rw [eq_comm, Nat.div_eq_iff (by omega)]
        omega
      · rw [eq_comm, Nat.div_eq_zero_iff]
        omega
    · rcases skip_accepts memory returned with ⟨zero, empty⟩ | ⟨positive, -⟩
      · obtain rfl : stepsize = 0 := UInt32.toNat.inj zero
        obtain rfl : input = [] := List.length_eq_zero_iff.mp empty
        cases returned
        rfl
      · obtain ⟨other, result, length, -⟩ :=
          compressorSkipSample_of_le positive memory (by omega) (by omega)
        obtain rfl := Except.ok.inj (result.symm.trans returned)
        exact length

/-- What a compressor returns has the length that the number of samples and the step give. -/
theorem compressor_length {compression : Compression} (memory : input.length < 2 ^ 63)
    (returned : compression.compressor input stepsize = .ok output)
    : output.length = compression.outputs input.length stepsize := by
  cases compression with
  | min => exact combineSteps_length memory returned
  | max => exact combineSteps_length memory returned
  | avg => exact combineSteps_length memory returned
  | skip => exact skip_length memory returned
  | raw =>
      obtain rfl := Except.ok.inj returned
      rfl

end Outputs

section Lengths

variable {compression : Compression} {n : Nat} {stepsize : UInt32}

theorem outputs_le_covers (accepts : compression.Accepts n stepsize.toNat)
    : compression.outputs n stepsize
      ≤ compression.covers n stepsize (compression.outputs n stepsize) := by
  have few (bound : Nat) (below : bound + stepsize.toNat ≤ n + 1)
      : stepsBelow bound stepsize.toNat ≤ n := by
    refine (Nat.div_le_self _ _).trans ?_
    omega
  have spread (m : Nat) (positive : 0 < stepsize.toNat) : m ≤ m * stepsize.toNat :=
    Nat.le_mul_of_pos_right m positive
  cases compression with
  | raw => exact le_rfl
  | min | max | avg =>
      obtain ⟨positive, whole⟩ := accepts
      exact le_min (few _ (by omega)) (spread _ positive)
  | skip =>
      rcases accepts with ⟨zero, empty⟩ | ⟨positive, nonempty⟩
      · rw [Compression.outputs, Compression.covers, zero, empty]
        decide
      · refine le_min ?_ (spread _ positive)
        rw [Compression.outputs]
        split_ifs with whole
        · exact few _ (by omega)
        · exact nonempty

/-- A whole number of steps, as long as the index does not wrap around. -/
theorem outputs_combining (combining : compression.CombinesSteps)
    (accepts : compression.Accepts n stepsize.toNat) (small : n < 2147483648)
    : compression.outputs n stepsize = n / stepsize.toNat := by
  have steps : 0 < stepsize.toNat → stepsize.toNat ≤ n →
      stepsBelow (n - stepsize.toNat + 1) stepsize.toNat = n / stepsize.toNat := by
    intro positive whole
    rw [stepsBelow, min_eq_left (by omega)]
    congr 1
    omega
  cases compression with
  | raw => exact absurd rfl combining.1
  | skip => exact absurd rfl combining.2
  | min | max | avg => exact steps accepts.1 accepts.2

/-- All steps but the last one, be it whole or not. -/
theorem outputs_skip (positive : 0 < stepsize.toNat) (nonempty : 0 < n)
    (small : n - stepsize.toNat < 2147483648)
    : Compression.skip.outputs n stepsize
      = if n < stepsize.toNat then 1 else (n - 1) / stepsize.toNat := by
  rw [Compression.outputs]
  split_ifs with whole short short
  · omega
  · rw [stepsBelow, min_eq_left (by omega)]
    congr 1
    omega
  · rfl
  · omega

end Lengths

end Sparcs.CassSpeed
