import Sparcs.Library.FloatOrder
import Sparcs.Library.StepBlocks
import Sparcs.CassSpeed.Compressors

/-! What the compressors return, and when they do: one output for each step that begins below
a bound, as far as an `int` counts.
-/

namespace Sparcs.CassSpeed

open FuelLoop SignedArithmetic StepBlocks

section Loops

variable {σ α : Type} {turn : σ → Turn σ (Except Fault α)} {s : σ}

/-- Total correctness of a loop whose measure stays below its fuel. -/
theorem runLoop_total (inv : σ → Prop) (post : Except Fault α → Prop) (measure : σ → Nat)
    (turns
      : ∀ state, inv state →
          (turn state).Spec (fun next => inv next ∧ measure next < measure state) post)
    (holds : inv s) (enough : measure s < 2 ^ 32)
    : Halts turn s ∧ post (runLoop turn s) := by
  have again (state next : σ) (holds : inv state) (goes : turn state = .again next)
      : inv next ∧ measure next < measure state := by
    have spec := turns state holds
    rwa [goes] at spec
  have leave (state : σ) (result : Except Fault α) (holds : inv state)
      (goes : turn state = .leave result)
      : post result := by
    have spec := turns state holds
    rwa [goes] at spec
  obtain ⟨result, finished, established⟩ := run_total measure again leave loopFuel s holds enough
  refine ⟨⟨loopFuel, by rw [finished]; rfl⟩, ?_⟩
  rw [runLoop, finished, Option.getD_some]
  exact established

end Loops

-----------------------------------------------------------------------------------------
-- One step
-----------------------------------------------------------------------------------------

section Block

variable {α : Type} {combine : α → α → α} {input : List α} {stepsize : UInt32} {i : Int32}
  {b : Nat}

/-- Outside the vector, `at` throws. -/
theorem sampleAt_eq_error (memory : input.length < 2 ^ 63) (index : i.toUInt32.toNat = b)
    (outside : ¬(b < 2147483648 ∧ b < input.length))
    : sampleAt input i = .error .exception := by
  cases sample : sampleAt input i with
  | error fault =>
      rw [sampleAt] at sample
      split at sample
      · exact sample.symm
      · cases sample
  | ok v =>
      obtain ⟨small, found⟩ := (sampleAt_eq_ok_iff memory index).mp sample
      exact absurd ⟨small, (List.getElem?_eq_some_iff.mp found).1⟩ outside

/-- The step that begins at `b` lies inside the vector, as far as an `int` counts. -/
def StepInside (input : List α) (stepsize : UInt32) (b : Nat) : Prop :=
  b + stepsize.toNat ≤ input.length ∧ b + stepsize.toNat ≤ 2147483648

/-- What combining the samples of a step comes to. -/
def BlockResult (combine : α → α → α) (input : List α) (stepsize : UInt32) (b : Nat)
    (result : Except Fault α)
    : Prop :=
  StepInside input stepsize b
      ∧ (∃ v, result = .ok v ∧ Combines combine ((input.drop b).take stepsize.toNat) v)
    ∨ ¬StepInside input stepsize b ∧ result = .error .exception

/-- The loop over the samples behind the first one. It ends at the end of the step or at the
first index that is not inside the vector.
-/
theorem blockTurn_total (memory : input.length < 2 ^ 63) (positive : 0 < stepsize.toNat)
    (index : i.toUInt32.toNat = b) (fits : b + stepsize.toNat < 4294967296)
    (small : b < 2147483648) (inside : b < input.length)
    : Halts (blockTurn combine input (i.toUInt32 + stepsize)) (i + 1, input[b])
      ∧ BlockResult combine input stepsize b
        (runLoop (blockTurn combine input (i.toUInt32 + stepsize)) (i + 1, input[b])) := by
  have stop := stop_toNat index fits
  refine runLoop_total
    (fun s : Int32 × α => ∃ m, 1 ≤ m ∧ m ≤ stepsize.toNat ∧ s.1.toUInt32.toNat = b + m
      ∧ b + m ≤ input.length ∧ b + m ≤ 2147483648
      ∧ s.2 = ((input.drop (b + 1)).take (m - 1)).foldl combine input[b])
    (BlockResult combine input stepsize b)
    (fun s => b + stepsize.toNat - s.1.toUInt32.toNat) ?_
    ⟨1, le_rfl, positive, succ_toNat index (by omega), inside, small, rfl⟩
    (by dsimp only; omega)
  rintro ⟨j, acc⟩ ⟨m, behind, within, index, inVector, counted, rfl⟩
  dsimp only at index
  rw [blockTurn]
  dsimp only
  by_cases last : m = stepsize.toNat
  · rw [if_neg (by rw [UInt32.lt_iff_toNat_lt, stop]; omega)]
    obtain ⟨k, rfl⟩ : ∃ k, m = k + 1 := ⟨m - 1, by omega⟩
    refine .inl ⟨⟨by omega, by omega⟩, _, rfl, input[b], _, ?_, rfl⟩
    rw [List.drop_eq_getElem_cons inside, ← last, List.take_succ_cons, Nat.add_sub_cancel]
  · rw [if_pos (by rw [UInt32.lt_iff_toNat_lt, stop]; omega)]
    by_cases more : b + m < 2147483648 ∧ b + m < input.length
    · rw [(sampleAt_eq_ok_iff memory index).mpr
        ⟨more.1, List.getElem?_eq_getElem more.2⟩]
      have next : (j + 1).toUInt32.toNat = b + m + 1 := succ_toNat index (by omega)
      refine ⟨⟨m + 1, by omega, by omega, by rw [next]; omega, by omega, by omega, ?_⟩, ?_⟩
      · obtain ⟨k, rfl⟩ : ∃ k, m = k + 1 := ⟨m - 1, by omega⟩
        have sample : (input.drop (b + 1))[k]? = some input[b + (k + 1)] := by
          rw [List.getElem?_drop, List.getElem?_eq_some_iff]
          exact ⟨by omega, by congr 1; omega⟩
        rw [Nat.add_sub_cancel, Nat.add_sub_cancel, List.take_add_one, sample,
          Option.toList_some, List.foldl_concat]
      · dsimp only
        omega
    · rw [sampleAt_eq_error memory index more]
      refine .inr ⟨?_, rfl⟩
      rintro ⟨whole, counted⟩
      exact more ⟨by omega, by omega⟩

theorem blockValue_result (memory : input.length < 2 ^ 63) (positive : 0 < stepsize.toNat)
    (index : i.toUInt32.toNat = b) (fits : b + stepsize.toNat < 4294967296)
    : BlockResult combine input stepsize b (blockValue combine input stepsize i) := by
  rw [blockValue]
  by_cases inside : b < 2147483648 ∧ b < input.length
  · rw [(sampleAt_eq_ok_iff memory index).mpr
      ⟨inside.1, List.getElem?_eq_getElem inside.2⟩]
    exact (blockTurn_total memory positive index fits inside.1 inside.2).2
  · rw [sampleAt_eq_error memory index inside]
    refine .inr ⟨?_, rfl⟩
    rintro ⟨whole, counted⟩
    exact inside ⟨by omega, by omega⟩

end Block

-----------------------------------------------------------------------------------------
-- The steps
-----------------------------------------------------------------------------------------

/-- The number of steps that begin below a bound, as far as an `int` counts. -/
def stepsBelow (bound s : Nat) : Nat := (min bound 2147483648 + s - 1) / s

theorem lt_stepsBelow_iff {bound s k : Nat} (positive : 0 < s)
    : k < stepsBelow bound s ↔ k * s < min bound 2147483648 := by
  rw [stepsBelow, ← Nat.succ_le_iff, Nat.le_div_iff_mul_le positive, Nat.succ_mul]
  omega

section Steps

variable {α : Type} {continues : UInt64 → Bool} {value : Int32 → Except Fault α}
  {stepsize : UInt32} {bound : Nat}

/-- What a loop over steps comes to: one output for each of them, if all are good. -/
def StepsResult (good : Nat → Prop) (spec : Nat → α → Prop) (count : Nat)
    (result : Except Fault (List α))
    : Prop :=
  (∀ k < count, good k)
      ∧ (∃ output, result = .ok output ∧ output.length = count
        ∧ ∀ k (inside : k < output.length), spec k output[k])
    ∨ (∃ k < count, ¬good k) ∧ result = .error .exception

/-- A loop over steps of which each has a value or throws. -/
theorem stepLoop_total {good : Nat → Prop} {spec : Nat → α → Prop}
    (positive : 0 < stepsize.toNat) (small : stepsize.toNat ≤ 2147483648)
    (memory : bound ≤ 2 ^ 63) (goesOn : ∀ i, continues i = decide (i.toNat < bound))
    (values
      : ∀ k, k * stepsize.toNat < min bound 2147483648 →
          ∀ i : Int32, i.toUInt32.toNat = k * stepsize.toNat →
            good k ∧ (∃ v, value i = .ok v ∧ spec k v)
            ∨ ¬good k ∧ value i = .error .exception)
    : StepsResult good spec (stepsBelow bound stepsize.toNat)
        (stepLoop continues value stepsize) := by
  have few : stepsBelow bound stepsize.toNat < 2 ^ 32 := by
    by_contra many
    have far : 2147483648 * stepsize.toNat < min bound 2147483648 :=
      (lt_stepsBelow_iff positive).mp (by omega)
    omega
  refine (runLoop_total
    (fun s : Int32 × List α => s.2.length ≤ stepsBelow bound stepsize.toNat
      ∧ s.1.toUInt32.toNat = s.2.length * stepsize.toNat
      ∧ (∀ k < s.2.length, good k) ∧ ∀ k (inside : k < s.2.length), spec k s.2[k])
    (StepsResult good spec (stepsBelow bound stepsize.toNat))
    (fun s => stepsBelow bound stepsize.toNat - s.2.length) ?_
    ⟨Nat.zero_le _, by rw [List.length_nil, Nat.zero_mul]; rfl, by simp, by simp⟩
    (lt_of_le_of_lt (Nat.sub_le _ _) few)).2
  rintro ⟨i, outputs⟩ ⟨within, index, allGood, contents⟩
  dsimp only at within index allGood contents
  have more : outputs.length < stepsBelow bound stepsize.toNat ↔ _ := lt_stepsBelow_iff positive
  rw [stepTurn, goesOn]
  dsimp only
  by_cases inside : outputs.length < stepsBelow bound stepsize.toNat
  · have begins := more.mp inside
    rw [if_pos (by rw [decide_eq_true_eq, asSize_toNat index (by omega)]; omega)]
    rcases values outputs.length begins i index with ⟨isGood, v, result, holds⟩ | ⟨isBad, throws⟩
    · rw [result]
      refine ⟨⟨?_, ?_, ?_, ?_⟩, ?_⟩
      · rw [List.length_append, List.length_singleton]
        exact inside
      · rw [List.length_append, List.length_singleton, Nat.succ_mul]
        exact next_toNat index (by omega)
      · intro k before
        rw [List.length_append, List.length_singleton] at before
        rcases Nat.lt_succ_iff_lt_or_eq.mp before with old | rfl
        · exact allGood k old
        · exact isGood
      · intro k before
        simp only [List.length_append, List.length_singleton] at before
        rcases Nat.lt_succ_iff_lt_or_eq.mp before with old | rfl
        · simpa [List.getElem_append_left old] using contents k old
        · simpa using holds
      · simp only [List.length_append, List.length_singleton]
        omega
    · rw [throws]
      exact .inr ⟨⟨_, inside, isBad⟩, rfl⟩
  · have ended : ¬(asSize i).toNat < bound := by
      by_cases counted : outputs.length * stepsize.toNat < 2147483648
      · rw [asSize_toNat index counted]
        have := mt more.mpr inside
        omega
      · have := le_asSize index (by omega)
        omega
    rw [if_neg (by simpa using ended)]
    have all : outputs.length = stepsBelow bound stepsize.toNat := by omega
    exact .inl ⟨all ▸ allGood, _, rfl, all, contents⟩

/-- A loop whose first step throws. -/
theorem stepLoop_throws (goesOn : continues (asSize 0) = true)
    (throws : value 0 = .error .exception)
    : stepLoop continues value stepsize = .error .exception := by
  refine (runLoop_total (fun s : Int32 × List α => s.1 = 0)
    (fun result => result = .error .exception) (fun _ => 0) ?_ rfl (by decide)).2
  rintro ⟨i, outputs⟩ rfl
  dsimp only [stepTurn]
  rw [if_pos goesOn, throws]
  rfl

end Steps

-----------------------------------------------------------------------------------------
-- The compressors
-----------------------------------------------------------------------------------------

section Outputs

variable {α : Type} {input output : List α} {stepsize : UInt32}

/-- All steps that begin lie inside the vector, and there is at least one. -/
def StepsInside (input : List α) (stepsize : UInt32) : Prop :=
  stepsize.toNat ≤ input.length
  ∧ stepsBelow (input.length - stepsize.toNat + 1) stepsize.toNat * stepsize.toNat ≤ 2147483648

/-- The outputs combine the samples of one step each. -/
def CombinedSteps (combine : α → α → α) (finish : α → α) (input : List α) (stepsize : UInt32)
    (output : List α)
    : Prop :=
  output.length = stepsBelow (input.length - stepsize.toNat + 1) stepsize.toNat
  ∧ ∀ k (inside : k < output.length),
    ∃ v, Combines combine (block input stepsize.toNat k) v ∧ output[k] = finish v

variable {combine : α → α → α} {finish : α → α}

theorem le_stepsBelow (positive : 0 < stepsize.toNat)
    : 0 < stepsBelow (input.length - stepsize.toNat + 1) stepsize.toNat := by
  rw [lt_stepsBelow_iff positive]
  omega

/-- Every step inside, from the last one. -/
theorem StepsInside.step (inside : StepsInside input stepsize) {k : Nat}
    (positive : 0 < stepsize.toNat)
    (before : k < stepsBelow (input.length - stepsize.toNat + 1) stepsize.toNat)
    : StepInside input stepsize (k * stepsize.toNat) := by
  have begins := (lt_stepsBelow_iff positive).mp before
  have last := Nat.mul_le_mul_right stepsize.toNat before
  rw [Nat.succ_mul] at last
  exact ⟨by have := inside.1; omega, last.trans inside.2⟩

theorem CombinedSteps.unique {other : List α}
    (left : CombinedSteps combine finish input stepsize output)
    (right : CombinedSteps combine finish input stepsize other)
    : output = other := by
  refine List.ext_getElem (left.1.trans right.1.symm) ?_
  intro k inside inside'
  obtain ⟨v, combined, value⟩ := left.2 k inside
  obtain ⟨w, combined', value'⟩ := right.2 k inside'
  rw [value, value', combined.unique combined']

/-- The loop over the steps of a vector that holds the first one. -/
theorem combineSteps_total (positive : 0 < stepsize.toNat) (memory : input.length < 2 ^ 63)
    (begins : StepInside input stepsize 0)
    : StepsResult (fun k => StepInside input stepsize (k * stepsize.toNat))
        (fun k w => ∃ v, Combines combine (block input stepsize.toNat k) v ∧ w = finish v)
        (stepsBelow (input.length - stepsize.toNat + 1) stepsize.toNat)
        (combineSteps combine finish input stepsize) := by
  obtain ⟨whole, small⟩ := begins
  rw [Nat.zero_add] at whole small
  refine stepLoop_total positive small (by omega) ?_ ?_
  · intro i
    rw [decide_eq_decide, UInt64.le_iff_toNat_le, sizeMinus_toNat whole memory]
    omega
  · intro k before i index
    have result : BlockResult combine input stepsize (k * stepsize.toNat)
        (blockValue combine input stepsize i) :=
      blockValue_result memory positive index (by omega)
    rcases result with ⟨inside, v, result, combined⟩ | ⟨outside, throws⟩
    · exact .inl ⟨inside, finish v, by rw [result]; rfl, v, combined, rfl⟩
    · exact .inr ⟨outside, by rw [throws]; rfl⟩

theorem exists_combineSteps (positive : 0 < stepsize.toNat) (memory : input.length < 2 ^ 63)
    (inside : StepsInside input stepsize)
    : ∃ output, combineSteps combine finish input stepsize = .ok output := by
  have begins := inside.step positive (le_stepsBelow positive)
  rw [Nat.zero_mul] at begins
  have total : StepsResult _ _ _ (combineSteps combine finish input stepsize) :=
    combineSteps_total positive memory begins
  rcases total with ⟨-, output, result, -⟩ | ⟨⟨k, before, outside⟩, -⟩
  · exact ⟨output, result⟩
  · exact absurd (inside.step positive before) outside

/-- A compressor that combines steps returns just when they all lie inside the vector. -/
theorem combineSteps_eq_ok_iff (positive : 0 < stepsize.toNat)
    (memory : input.length < 2 ^ 63)
    : combineSteps combine finish input stepsize = .ok output
      ↔ StepsInside input stepsize ∧ CombinedSteps combine finish input stepsize output := by
  by_cases begins : StepInside input stepsize 0
  · have total : StepsResult _ _ _ (combineSteps combine finish input stepsize) :=
      combineSteps_total positive memory begins
    rcases total with ⟨allInside, other, result, contents⟩ | ⟨⟨k, before, outside⟩, throws⟩
    · rw [result, Except.ok.injEq]
      have begun : 0 < stepsBelow (input.length - stepsize.toNat + 1) stepsize.toNat :=
        le_stepsBelow positive
      have last := (allInside _ (Nat.sub_lt begun Nat.one_pos)).2
      rw [← Nat.succ_mul, Nat.succ_eq_add_one, Nat.sub_add_cancel begun] at last
      have whole := begins.1
      rw [Nat.zero_add] at whole
      constructor
      · rintro rfl
        exact ⟨⟨whole, last⟩, contents⟩
      · rintro ⟨-, contents'⟩
        exact CombinedSteps.unique contents contents'
    · rw [throws]
      simp only [reduceCtorEq, false_iff, not_and]
      intro inside
      exact absurd (inside.step positive before) outside
  · have zero : (0 : Int32).toUInt32.toNat = 0 := rfl
    have throws : combineSteps combine finish input stepsize = .error .exception := by
      refine stepLoop_throws ?_ ?_
      · rw [decide_eq_true_eq, UInt64.le_iff_toNat_le, asSize_toNat zero (by decide)]
        exact Nat.zero_le _
      · have first : BlockResult combine input stepsize 0 _ :=
          blockValue_result memory positive zero (by have := stepsize.toNat_lt; omega)
        rcases first with ⟨inside, -⟩ | ⟨-, throws⟩
        · exact absurd inside begins
        · rw [throws]
          rfl
    rw [throws]
    simp only [reduceCtorEq, false_iff, not_and]
    intro inside
    have first := inside.step positive (le_stepsBelow positive)
    rw [Nat.zero_mul] at first
    exact absurd first begins

/-- Skipping takes the first sample of each step that begins before the last whole one ends. -/
theorem compressorSkipSample_of_le (positive : 0 < stepsize.toNat)
    (memory : input.length < 2 ^ 63) (whole : stepsize.toNat ≤ input.length)
    (small : stepsize.toNat ≤ 2147483648)
    : ∃ output, compressorSkipSample input stepsize = .ok output
      ∧ output.length = stepsBelow (input.length - stepsize.toNat) stepsize.toNat
      ∧ ∀ k (inside : k < output.length), input[k * stepsize.toNat]? = some output[k] := by
  have total
      : StepsResult (fun _ => True) (fun k v => input[k * stepsize.toNat]? = some v)
        (stepsBelow (input.length - stepsize.toNat) stepsize.toNat)
        (compressorSkipSample input stepsize) := by
    refine stepLoop_total positive small (by omega) ?_ ?_
    · intro i
      rw [decide_eq_decide, UInt64.lt_iff_toNat_lt, sizeMinus_toNat whole memory]
    · intro k before i index
      have within : k * stepsize.toNat < input.length := by omega
      have sample := List.getElem?_eq_getElem within
      exact .inl ⟨trivial, _, (sampleAt_eq_ok_iff memory index).mpr ⟨by omega, sample⟩, sample⟩
  rcases total with ⟨-, result⟩ | ⟨⟨k, -, bad⟩, -⟩
  · exact result
  · exact absurd trivial bad

theorem compressorSkipSample_eq (positive : 0 < stepsize.toNat) (memory : input.length < 2 ^ 63)
    (inside : StepsInside input stepsize)
    : ∃ output, compressorSkipSample input stepsize = .ok output
      ∧ output.length = stepsBelow (input.length - stepsize.toNat) stepsize.toNat
      ∧ ∀ k (inside : k < output.length), input[k * stepsize.toNat]? = some output[k] := by
  have first := (inside.step positive (le_stepsBelow positive)).2
  exact compressorSkipSample_of_le positive memory inside.1 (by omega)

end Outputs

end Sparcs.CassSpeed
