import Sparcs.CassSpeed.CompressedSteps

/-! The outputs of the compressors as the minimum, the maximum, the mean and the first sample
of each block of the vector. The same loops run over machine numbers and over exact rationals.
-/

namespace Sparcs.CassSpeed

open StepBlocks

/-- Exact arithmetic. -/
instance : OfStepsize ℚ := ⟨fun stepsize => stepsize.toNat⟩

section Blocks

variable {α : Type} {input output : List α} {stepsize : UInt32}

/-- Short vectors, where an `int` counts every step. -/
theorem stepsBelow_div {n s : Nat} (positive : 0 < s) (whole : s ≤ n)
    (fits : n + s < 2147483648)
    : stepsBelow (n - s + 1) s = n / s := by
  rw [stepsBelow]
  congr 1
  omega

theorem stepsInside_iff (positive : 0 < stepsize.toNat)
    (fits : input.length + stepsize.toNat < 2147483648)
    : StepsInside input stepsize ↔ stepsize.toNat ≤ input.length := by
  refine ⟨fun inside => inside.1, fun whole => ⟨whole, ?_⟩⟩
  rw [stepsBelow_div positive whole fits]
  have := Nat.div_mul_le_self input.length stepsize.toNat
  omega

/-- One output for each whole step, which the block of the step describes. -/
def CompressesTo (describes : List α → α → Prop)
    (compressor : List α → UInt32 → Except Fault (List α)) (input : List α)
    (stepsize : UInt32)
    : Prop :=
  ∃ output, compressor input stepsize = .ok output
    ∧ output.length = input.length / stepsize.toNat
    ∧ ∀ k (inside : k < output.length), describes (block input stepsize.toNat k) output[k]

/-- A compressor that combines the samples of each step. -/
theorem compressesTo_iff {compressor : List α → UInt32 → Except Fault (List α)}
    {combine : α → α → α} {finish : α → α} {describes : List α → α → Prop}
    (positive : 0 < stepsize.toNat) (fits : input.length + stepsize.toNat < 2147483648)
    (combines : compressor input stepsize = combineSteps combine finish input stepsize)
    (described
      : ∀ samples v, samples.length = stepsize.toNat → Combines combine samples v →
          describes samples (finish v))
    : CompressesTo describes compressor input stepsize ↔ stepsize.toNat ≤ input.length := by
  rw [CompressesTo, combines]
  have memory : input.length < 2 ^ 63 := by omega
  rw [← stepsInside_iff positive fits]
  constructor
  · rintro ⟨output, returned, -⟩
    exact ((combineSteps_eq_ok_iff positive memory).mp returned).1
  · intro inside
    obtain ⟨output, returned⟩ := exists_combineSteps positive memory inside
    obtain ⟨-, length, contents⟩ := (combineSteps_eq_ok_iff positive memory).mp returned
    rw [stepsBelow_div positive inside.1 fits] at length
    refine ⟨output, returned, length, ?_⟩
    intro k before
    obtain ⟨v, combined, value⟩ := contents k before
    rw [value]
    rw [length] at before
    exact described _ v (length_block (whole_of_lt_div before)) combined

end Blocks

-----------------------------------------------------------------------------------------
-- Minimum, maximum and mean
-----------------------------------------------------------------------------------------

/-- Of machine numbers: one of the samples, and none is below it. -/
def IsMinimum (samples : Samples) (v : Float32) : Prop :=
  v ∈ samples ∧ ∀ w ∈ samples, ¬w < v

def IsMaximum (samples : Samples) (v : Float32) : Prop :=
  v ∈ samples ∧ ∀ w ∈ samples, ¬v < w

/-- The rounded sum of the samples in their order, divided by their number and rounded. -/
def IsAverage (stepsize : UInt32) (samples : Samples) (v : Float32) : Prop :=
  ∃ sum, Combines (fun avg w => avg + w) samples sum ∧ v = sum / stepsize.toFloat32

/-- Of exact rationals. -/
def mean (samples : List ℚ) : ℚ := samples.sum / samples.length

/-- The three compressors on machine numbers. -/
structure CompressesSamples (input : Samples) (stepsize : UInt32) : Prop where
  min : CompressesTo IsMinimum compressorMinSample input stepsize
  max : CompressesTo IsMaximum compressorMaxSample input stepsize
  avg : CompressesTo (IsAverage stepsize) compressorAvgSample input stepsize

/-- The three compressors on exact rationals. -/
structure CompressesExactly (input : List ℚ) (stepsize : UInt32) : Prop where
  min : CompressesTo (fun samples => IsLeast {w | w ∈ samples}) compressorMinSample input stepsize
  max
    : CompressesTo (fun samples => IsGreatest {w | w ∈ samples}) compressorMaxSample input
        stepsize
  avg : CompressesTo (fun samples v => v = mean samples) compressorAvgSample input stepsize

section Order

variable {α : Type} [LT α] [DecidableLT α] [IsStrictOrder α (· < ·)] {samples : List α} {v : α}

theorem min_of_combines
    (combined : Combines (fun min w => if w < min then w else min) samples v)
    : v ∈ samples ∧ ∀ w ∈ samples, ¬w < v :=
  combined.choose (· < ·)

/-- By the reverse order. -/
theorem max_of_combines
    (combined : Combines (fun max w => if w > max then w else max) samples v)
    : v ∈ samples ∧ ∀ w ∈ samples, ¬v < w := by
  have : IsStrictOrder α (· > ·) := inferInstanceAs (IsStrictOrder α (Function.swap (· < ·)))
  exact combined.choose (· > ·)

end Order

theorem compressesSamples_iff {input : Samples} {stepsize : UInt32}
    (positive : 0 < stepsize.toNat) (fits : input.length + stepsize.toNat < 2147483648)
    : CompressesSamples input stepsize ↔ stepsize.toNat ≤ input.length := by
  have min : CompressesTo IsMinimum compressorMinSample input stepsize ↔ _ :=
    compressesTo_iff positive fits rfl fun _ _ _ combined => min_of_combines combined
  have max : CompressesTo IsMaximum compressorMaxSample input stepsize ↔ _ :=
    compressesTo_iff positive fits rfl fun _ _ _ combined => max_of_combines combined
  have avg : CompressesTo (IsAverage stepsize) compressorAvgSample input stepsize ↔ _ :=
    compressesTo_iff positive fits rfl fun _ sum _ combined => ⟨sum, combined, rfl⟩
  exact ⟨fun compresses => min.mp compresses.min,
    fun whole => ⟨min.mpr whole, max.mpr whole, avg.mpr whole⟩⟩

theorem mean_of_combines {samples : List ℚ} {sum : ℚ} {stepsize : UInt32}
    (length : samples.length = stepsize.toNat)
    (combined : Combines (fun avg w => avg + w) samples sum)
    : sum / OfStepsize.ofStepsize stepsize = mean samples := by
  rw [mean, length, combined.sum]
  rfl

theorem compressesExactly_iff {input : List ℚ} {stepsize : UInt32}
    (positive : 0 < stepsize.toNat) (fits : input.length + stepsize.toNat < 2147483648)
    : CompressesExactly input stepsize ↔ stepsize.toNat ≤ input.length := by
  have min
      : CompressesTo (fun samples => IsLeast {w | w ∈ samples}) compressorMinSample input stepsize
        ↔ _ :=
    compressesTo_iff positive fits rfl fun _ _ _ combined =>
      ⟨(min_of_combines combined).1, fun w member =>
        not_lt.mp ((min_of_combines combined).2 w member)⟩
  have max
      : CompressesTo (fun samples => IsGreatest {w | w ∈ samples}) compressorMaxSample input
          stepsize
        ↔ _ :=
    compressesTo_iff positive fits rfl fun _ _ _ combined =>
      ⟨(max_of_combines combined).1, fun w member =>
        not_lt.mp ((max_of_combines combined).2 w member)⟩
  have avg
      : CompressesTo (fun samples v => v = mean samples) compressorAvgSample input stepsize ↔ _ :=
    compressesTo_iff positive fits rfl fun _ _ length combined =>
      mean_of_combines length combined
  exact ⟨fun compresses => min.mp compresses.min,
    fun whole => ⟨min.mpr whole, max.mpr whole, avg.mpr whole⟩⟩

/-- The compressors handle a vector just when it holds a whole step. -/
theorem compressors_handle_iff (stepsize : UInt32) (positive : 1 ≤ stepsize.toNat)
    : (∀ input : Samples, input.length + stepsize.toNat < 2147483648 →
        (CompressesSamples input stepsize ↔ stepsize.toNat ≤ input.length))
      ∧ ∀ input : List ℚ, input.length + stepsize.toNat < 2147483648 →
        (CompressesExactly input stepsize ↔ stepsize.toNat ≤ input.length) :=
  ⟨fun _ fits => compressesSamples_iff positive fits,
    fun _ fits => compressesExactly_iff positive fits⟩

theorem compressors_handle_iff_pair
    : CompressesSamples [1, 2, 3] 2 ∧ CompressesExactly [1, 2, 3] 2 :=
  ⟨((compressors_handle_iff 2 (by decide)).1 _ (by decide)).mpr (by decide),
    ((compressors_handle_iff 2 (by decide)).2 _ (by decide)).mpr (by decide)⟩

/-- The empty vector: `input->at(0)` throws. -/
theorem compressors_empty_throw : ¬CompressesSamples [] 1 := by
  rintro ⟨⟨output, returned, -⟩, -, -⟩
  have throws : compressorMinSample ([] : Samples) 1 = .error .exception := by decide +kernel
  rw [throws] at returned
  cases returned

-----------------------------------------------------------------------------------------
-- Compressed series beside each other
-----------------------------------------------------------------------------------------

section Series

variable {α : Type} {stepsize : UInt32}

/-- Series of one vector: a common length, and extremes that are samples of their blocks. -/
structure Consistent (input mins maxs avgs : List α) (stepsize : UInt32) : Prop where
  maxLength : maxs.length = mins.length
  avgLength : avgs.length = mins.length
  covered : mins.length * stepsize.toNat ≤ input.length
  rest : input.length < (mins.length + 1) * stepsize.toNat
  minMember : ∀ k (inside : k < mins.length), mins[k] ∈ block input stepsize.toNat k
  maxMember : ∀ k (inside : k < maxs.length), maxs[k] ∈ block input stepsize.toNat k

/-- Vectors may be compressed one by one where the first is cut at the end of a step. -/
def Concatenates (compressor : List α → UInt32 → Except Fault (List α)) (stepsize : UInt32)
    : Prop :=
  ∀ xs ys first second, stepsize.toNat ∣ xs.length →
    (xs ++ ys).length + stepsize.toNat < 2147483648 →
    compressor xs stepsize = .ok first → compressor ys stepsize = .ok second →
    compressor (xs ++ ys) stepsize = .ok (first ++ second)

/-- The outputs of a compressor that combines steps, and how many of them there are. -/
theorem combineSteps_div {combine : α → α → α} {finish : α → α} {input output : List α}
    (positive : 0 < stepsize.toNat) (fits : input.length + stepsize.toNat < 2147483648)
    (returned : combineSteps combine finish input stepsize = .ok output)
    : output.length = input.length / stepsize.toNat
      ∧ ∀ k (inside : k < output.length),
        ∃ v, Combines combine (block input stepsize.toNat k) v ∧ output[k] = finish v := by
  obtain ⟨inside, length, contents⟩ :=
    (combineSteps_eq_ok_iff positive (by omega)).mp returned
  rw [stepsBelow_div positive inside.1 fits] at length
  exact ⟨length, contents⟩

/-- The blocks of the whole vector are those of its parts. -/
theorem combines_concatenates {compressor : List α → UInt32 → Except Fault (List α)}
    {combine : α → α → α} {finish : α → α} (positive : 0 < stepsize.toNat)
    (combines : ∀ input, compressor input stepsize = combineSteps combine finish input stepsize)
    : Concatenates compressor stepsize := by
  intro xs ys first second divides fits returned returned'
  rw [combines] at returned returned' ⊢
  rw [List.length_append] at fits
  have memory : (xs ++ ys).length < 2 ^ 63 := by rw [List.length_append]; omega
  obtain ⟨firstLength, firsts⟩ := combineSteps_div positive (by omega) returned
  obtain ⟨secondLength, seconds⟩ := combineSteps_div positive (by omega) returned'
  have cut : xs.length = first.length * stepsize.toNat := by
    rw [firstLength, Nat.div_mul_cancel divides]
  have inside : StepsInside (xs ++ ys) stepsize := by
    have whole := ((combineSteps_eq_ok_iff positive (by omega)).mp returned').1.1
    rw [stepsInside_iff positive (by rw [List.length_append]; omega), List.length_append]
    omega
  have lengths : (xs ++ ys).length / stepsize.toNat = first.length + second.length := by
    rw [List.length_append, cut, Nat.mul_comm, Nat.mul_add_div positive, secondLength]
  refine (combineSteps_eq_ok_iff positive memory).mpr ⟨inside, ?_, ?_⟩
  · rw [stepsBelow_div positive inside.1 (by rw [List.length_append]; omega), lengths,
      List.length_append]
  · intro k before
    rw [List.length_append] at before
    by_cases earlier : k < first.length
    · rw [List.getElem_append_left earlier, block_append_left]
      · exact firsts k earlier
      · exact whole_of_lt_div (firstLength ▸ earlier)
    · obtain ⟨j, rfl⟩ := Nat.exists_eq_add_of_le (Nat.le_of_not_lt earlier)
      rw [block_append_right cut]
      simpa using seconds j (by omega)

variable [LT α] [DecidableLT α] [IsStrictOrder α (· < ·)] [Add α] [Div α] [OfStepsize α]
  {input mins maxs avgs : List α}

theorem consistent_of_returned (positive : 0 < stepsize.toNat)
    (fits : input.length + stepsize.toNat < 2147483648)
    (min : compressorMinSample input stepsize = .ok mins)
    (max : compressorMaxSample input stepsize = .ok maxs)
    (avg : compressorAvgSample input stepsize = .ok avgs)
    : Consistent input mins maxs avgs stepsize := by
  obtain ⟨minLength, minValues⟩ := combineSteps_div positive fits min
  obtain ⟨maxLength, maxValues⟩ := combineSteps_div positive fits max
  obtain ⟨avgLength, -⟩ := combineSteps_div positive fits avg
  refine ⟨maxLength.trans minLength.symm, avgLength.trans minLength.symm, ?_, ?_, ?_, ?_⟩
  · rw [minLength]
    exact Nat.div_mul_le_self _ _
  · rw [minLength, Nat.mul_comm]
    exact Nat.lt_mul_div_succ _ positive
  · intro k inside
    obtain ⟨v, combined, value⟩ := minValues k inside
    rw [value]
    exact (min_of_combines combined).1
  · intro k inside
    obtain ⟨v, combined, value⟩ := maxValues k inside
    rw [value]
    exact (max_of_combines combined).1

end Series

/-- A mean lies between the least and the greatest of its numbers. -/
theorem mean_between {samples : List ℚ} {low high : ℚ} (nonempty : samples ≠ [])
    (above : ∀ w ∈ samples, low ≤ w) (below : ∀ w ∈ samples, w ≤ high)
    : low ≤ mean samples ∧ mean samples ≤ high := by
  have positive : (0 : ℚ) < samples.length :=
    Nat.cast_pos.mpr (List.length_pos_iff.mpr nonempty)
  have lower := samples.card_nsmul_le_sum low above
  have upper := samples.sum_le_card_nsmul high below
  rw [nsmul_eq_mul] at lower upper
  constructor
  · rw [mean, le_div_iff₀ positive, mul_comm]
    exact lower
  · rw [mean, div_le_iff₀ positive, mul_comm]
    exact upper

/-- Exact averages lie between the minimum and the maximum of their blocks. -/
theorem averages_between {input mins maxs avgs : List ℚ} {stepsize : UInt32}
    (positive : 0 < stepsize.toNat) (fits : input.length + stepsize.toNat < 2147483648)
    (min : compressorMinSample input stepsize = .ok mins)
    (max : compressorMaxSample input stepsize = .ok maxs)
    (avg : compressorAvgSample input stepsize = .ok avgs)
    : ∀ k (_ : k < mins.length) (_ : k < maxs.length) (_ : k < avgs.length),
      mins[k] ≤ avgs[k] ∧ avgs[k] ≤ maxs[k] := by
  intro k insideMin insideMax insideAvg
  obtain ⟨low, combinedLow, minValue⟩ := (combineSteps_div positive fits min).2 k insideMin
  obtain ⟨high, combinedHigh, maxValue⟩ := (combineSteps_div positive fits max).2 k insideMax
  obtain ⟨avgLength, avgValues⟩ := combineSteps_div positive fits avg
  obtain ⟨sum, combined, avgValue⟩ := avgValues k insideAvg
  have whole := whole_of_lt_div (avgLength ▸ insideAvg)
  have nonempty : block input stepsize.toNat k ≠ [] :=
    List.ne_nil_of_length_pos (by rw [length_block whole]; exact positive)
  rw [minValue, maxValue, avgValue, mean_of_combines (length_block whole) combined]
  exact mean_between nonempty
    (fun w member => not_lt.mp ((min_of_combines combinedLow).2 w member))
    (fun w member => not_lt.mp ((max_of_combines combinedHigh).2 w member))

/-- Compressed series are consistent, of machine numbers and of exact rationals. -/
theorem compressors_consistent (stepsize : UInt32) (positive : 1 ≤ stepsize.toNat)
    : (∀ input mins maxs avgs : Samples, input.length + stepsize.toNat < 2147483648 →
        compressorMinSample input stepsize = .ok mins →
        compressorMaxSample input stepsize = .ok maxs →
        compressorAvgSample input stepsize = .ok avgs →
        Consistent input mins maxs avgs stepsize)
      ∧ (∀ input mins maxs avgs : List ℚ, input.length + stepsize.toNat < 2147483648 →
        compressorMinSample input stepsize = .ok mins →
        compressorMaxSample input stepsize = .ok maxs →
        compressorAvgSample input stepsize = .ok avgs →
        Consistent input mins maxs avgs stepsize
        ∧ ∀ k (_ : k < mins.length) (_ : k < maxs.length) (_ : k < avgs.length),
          mins[k] ≤ avgs[k] ∧ avgs[k] ≤ maxs[k])
      ∧ (∀ compressor ∈ [compressorMinSample, compressorMaxSample, compressorAvgSample],
        Concatenates (compressor : Samples → UInt32 → Except Fault Samples) stepsize)
      ∧ ∀ compressor ∈ [compressorMinSample, compressorMaxSample, compressorAvgSample],
        Concatenates (compressor : List ℚ → UInt32 → Except Fault (List ℚ)) stepsize := by
  refine ⟨?_, ?_, ?_, ?_⟩
  · intro input mins maxs avgs fits min max avg
    exact consistent_of_returned positive fits min max avg
  · intro input mins maxs avgs fits min max avg
    exact ⟨consistent_of_returned positive fits min max avg,
      averages_between positive fits min max avg⟩
  · intro compressor member
    simp only [List.mem_cons, List.not_mem_nil, or_false] at member
    rcases member with rfl | rfl | rfl
    all_goals exact combines_concatenates positive fun _ => rfl
  · intro compressor member
    simp only [List.mem_cons, List.not_mem_nil, or_false] at member
    rcases member with rfl | rfl | rfl
    all_goals exact combines_concatenates positive fun _ => rfl

theorem compressors_consistent_pair
    : Consistent ([1, 3, 2, 6, 5] : List ℚ) [1, 2] [3, 6] [2, 4] 2
      ∧ compressorMinSample ([1, 3, 2, 6] ++ [4, 8, 3] : List ℚ) 2 = .ok ([1, 2] ++ [4]) :=
  ⟨((compressors_consistent 2 (by decide)).2.1 _ _ _ _ (by decide) (by decide +kernel)
      (by decide +kernel) (by decide +kernel)).1,
    (compressors_consistent 2 (by decide)).2.2.2 _ (by simp) _ _ _ _ (by decide) (by decide)
      (by decide +kernel) (by decide +kernel)⟩

-----------------------------------------------------------------------------------------
-- Skipping beside the others
-----------------------------------------------------------------------------------------

/-- Skipping has as many outputs as the other compressors, the first samples of the blocks. -/
def LinesUp (input mins : Samples) (stepsize : UInt32) : Prop :=
  ∃ skips maxs avgs, compressorSkipSample input stepsize = .ok skips
    ∧ compressorMaxSample input stepsize = .ok maxs
    ∧ compressorAvgSample input stepsize = .ok avgs
    ∧ skips.length = mins.length ∧ skips.length = maxs.length ∧ skips.length = avgs.length
    ∧ ∀ k (inside : k < skips.length),
      (block input stepsize.toNat k).head? = some skips[k]

/-- The strict bound leaves out the step that ends with the vector, if an `int` counts it. -/
theorem stepsBelow_succ_iff {bound s : Nat} (positive : 0 < s)
    : stepsBelow bound s = stepsBelow (bound + 1) s ↔ ¬s ∣ bound ∨ 2147483648 ≤ bound := by
  by_cases counted : bound < 2147483648
  · have next : bound + 1 + s - 1 = bound + s - 1 + 1 := by omega
    rw [stepsBelow, stepsBelow, Nat.min_eq_left (by omega), Nat.min_eq_left (by omega), next,
      Nat.succ_div]
    have shifted : bound + s - 1 + 1 = bound + s := by omega
    simp only [shifted, Nat.dvd_add_self_right]
    split_ifs with divides
    · simp [divides]
      omega
    · simp [divides]
  · rw [stepsBelow, stepsBelow, Nat.min_eq_right (by omega), Nat.min_eq_right (by omega)]
    simp only [true_iff]
    omega

/-- Skipping lines up just when the last step does not end with the vector, or both loops end
where the `int` index does.
-/
theorem skip_linesUp_iff {input mins : Samples} {stepsize : UInt32}
    (positive : 1 ≤ stepsize.toNat) (memory : input.length < 2 ^ 63)
    (returned : compressorMinSample input stepsize = .ok mins)
    : LinesUp input mins stepsize
      ↔ ¬stepsize.toNat ∣ input.length ∨ 2147483648 ≤ input.length - stepsize.toNat := by
  obtain ⟨inside, minLength, -⟩ := (combineSteps_eq_ok_iff positive memory).mp returned
  obtain ⟨skips, skip, skipLength, firsts⟩ := compressorSkipSample_eq positive memory inside
  have divides : stepsize.toNat ∣ input.length - stepsize.toNat
      ↔ stepsize.toNat ∣ input.length := by
    conv_rhs => rw [← Nat.sub_add_cancel inside.1, Nat.dvd_add_self_right]
  rw [← divides, ← stepsBelow_succ_iff positive, ← skipLength, ← minLength]
  constructor
  · rintro ⟨skips', -, -, skip', -, -, length, -⟩
    obtain rfl := Except.ok.inj (skip.symm.trans skip')
    exact length
  · intro length
    have max : ∃ maxs, compressorMaxSample input stepsize = .ok maxs :=
      exists_combineSteps positive memory inside
    have avg : ∃ avgs, compressorAvgSample input stepsize = .ok avgs :=
      exists_combineSteps positive memory inside
    obtain ⟨maxs, max⟩ := max
    obtain ⟨avgs, avg⟩ := avg
    have maxLength := ((combineSteps_eq_ok_iff positive memory).mp max).2.1
    have avgLength := ((combineSteps_eq_ok_iff positive memory).mp avg).2.1
    refine ⟨skips, maxs, avgs, skip, max, avg, length, ?_, ?_, ?_⟩
    · rw [length, minLength, maxLength]
    · rw [length, minLength, avgLength]
    · intro k within
      obtain ⟨before, sample⟩ := List.getElem?_eq_some_iff.mp (firsts k within)
      rw [block_eq_cons positive before, List.head?_cons, sample]

theorem skip_linesUp_iff_three : LinesUp [1, 2, 3] [1] 2 :=
  (skip_linesUp_iff (by decide) (by decide) (by decide +kernel)).mpr (by decide)

/-- A vector of one step: skipping leaves it out. -/
theorem skip_not_linesUp
    : compressorMinSample ([1, 2] : Samples) 2 = .ok [1] ∧ ¬LinesUp [1, 2] [1] 2 := by
  refine ⟨by decide +kernel, ?_⟩
  rintro ⟨skips, -, -, skip, -, -, length, -⟩
  have skips : compressorSkipSample ([1, 2] : Samples) 2 = .ok [] := by decide +kernel
  rw [skips] at skip
  cases skip
  cases length

end Sparcs.CassSpeed
