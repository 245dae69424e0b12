import Sparcs.Library.Loop
import Sparcs.Library.SignedArithmetic
import Sparcs.CassSpeed.Request

/-! The compressors of the server: loops over a sample vector with an `int` index and an
`unsigned int` step. What the samples are does not matter to the loops.
-/

namespace Sparcs.CassSpeed

open FuelLoop SignedArithmetic

abbrev Samples := List Float32

/-- An `int` taken for a `size_t`. -/
def asSize (i : Int32) : UInt64 := i.toInt64.toUInt64

/-- The turns of a loop over an `int`: when it has not ended after as many as there are
numbers, it never does.
-/
def loopFuel : Nat := 2 ^ 32

def runLoop {σ α : Type} (turn : σ → Turn σ (Except Fault α)) (s : σ) : Except Fault α :=
  (run turn loopFuel s).getD (.error .runsOn)

/-- `stepsize` in an expression of samples. -/
class OfStepsize (α : Type) where
  ofStepsize : UInt32 → α

instance : OfStepsize Float32 := ⟨UInt32.toFloat32⟩

section Loops

variable {α : Type}

/-- `input->size()-stepsize` -/
def sizeMinus (input : List α) (stepsize : UInt32) : UInt64 :=
  input.length.toUInt64 - stepsize.toUInt64

/-- `input->at(i)` -/
def sampleAt (input : List α) (i : Int32) : Except Fault α :=
  match input[(asSize i).toNat]? with
  | none => .error .exception
  | some v => .ok v

/-- One turn of the loop over the samples of one step. -/
def blockTurn (combine : α → α → α) (input : List α) (stop : UInt32) (s : Int32 × α)
    : Turn (Int32 × α) (Except Fault α) :=
  if s.1.toUInt32 < stop then
    match sampleAt input s.1 with
    | .error fault => .leave (.error fault)
    | .ok v => .again (s.1 + 1, combine s.2 v)
  else
    .leave (.ok s.2)

/-- The first sample of a step, combined with the others. -/
def blockValue (combine : α → α → α) (input : List α) (stepsize : UInt32) (i : Int32)
    : Except Fault α := do
  let first ← sampleAt input i
  runLoop (blockTurn combine input (i.toUInt32 + stepsize)) (i + 1, first)

/-- One turn of the loop over the steps. -/
def stepTurn (continues : UInt64 → Bool) (value : Int32 → Except Fault α)
    (stepsize : UInt32) (s : Int32 × List α)
    : Turn (Int32 × List α) (Except Fault (List α)) :=
  if continues (asSize s.1) then
    match value s.1 with
    | .error fault => .leave (.error fault)
    | .ok v => .again ((s.1.toUInt32 + stepsize).toInt32, s.2 ++ [v])
  else
    .leave (.ok s.2)

/-- A loop that takes one output from each step. -/
def stepLoop (continues : UInt64 → Bool) (value : Int32 → Except Fault α)
    (stepsize : UInt32)
    : Except Fault (List α) :=
  runLoop (stepTurn continues value stepsize) (0, [])

/-- The loop of the compressors that combine all samples of a step. -/
def combineSteps (combine : α → α → α) (finish : α → α) (input : List α)
    (stepsize : UInt32)
    : Except Fault (List α) :=
  stepLoop (· ≤ sizeMinus input stepsize)
    (fun i => (blockValue combine input stepsize i).map finish) stepsize

def compressorSkipSample (input : List α) (stepsize : UInt32) : Except Fault (List α) :=
  stepLoop (· < sizeMinus input stepsize) (sampleAt input) stepsize

def compressorRaw (input : List α) (_stepsize : UInt32) : Except Fault (List α) := .ok input

def compressorMinSample [LT α] [DecidableLT α] (input : List α) (stepsize : UInt32)
    : Except Fault (List α) :=
  combineSteps (fun min v => if v < min then v else min) id input stepsize

def compressorMaxSample [LT α] [DecidableLT α] (input : List α) (stepsize : UInt32)
    : Except Fault (List α) :=
  combineSteps (fun max v => if v > max then v else max) id input stepsize

def compressorAvgSample [Add α] [Div α] [OfStepsize α] (input : List α) (stepsize : UInt32)
    : Except Fault (List α) :=
  combineSteps (fun avg v => avg + v) (fun avg => avg / OfStepsize.ofStepsize stepsize) input
    stepsize

end Loops

/-- The compressions by the order of their bits. -/
inductive Compression where
  | min
  | max
  | avg
  | skip
  | raw
  deriving DecidableEq, Repr

namespace Compression

/-- `compress=1` to `compress<=5` -/
def all : List Compression := [.min, .max, .avg, .skip, .raw]

/-- The bit that `CHECK_BIT(compression_method,compress-1)` tests. -/
def bit : Compression → Nat
  | .min => 0
  | .max => 1
  | .avg => 2
  | .skip => 3
  | .raw => 4

/-- `lookuptable` -/
def label : Compression → String
  | .min => "Min"
  | .max => "Max"
  | .avg => "Avg"
  | .skip => "Skip"
  | .raw => "Raw"

/-- The `switch` over `compression_method_loop`. -/
def compressor : Compression → Samples → UInt32 → Except Fault Samples
  | .min => compressorMinSample
  | .max => compressorMaxSample
  | .avg => compressorAvgSample
  | .skip => compressorSkipSample
  | .raw => compressorRaw

end Compression

section Indices

variable {α : Type} {input : List α} {i : Int32} {n : Nat}

theorem asSize_toNat (index : i.toUInt32.toNat = n) (small : n < 2147483648)
    : (asSize i).toNat = n := by
  have value : i.toInt = n := by
    rw [← index, ← toInt_toInt32 (by omega), Int32.toInt32_toUInt32]
  have same : i.toInt64.toInt = n := by rw [Int32.toInt_toInt64, value]
  rw [asSize, Int64.toNat_toUInt64_of_le, ← Int64.toNat_toInt, same, Int.toNat_natCast]
  rw [Int64.le_iff_toInt_le, same]
  exact Int.natCast_nonneg n

/-- A negative index is beyond every size. -/
theorem le_asSize (index : i.toUInt32.toNat = n) (large : 2147483648 ≤ n)
    : 2 ^ 63 ≤ (asSize i).toNat := by
  have negative : i.toInt < 0 := by
    have word : i.toInt = i.toBitVec.toInt := rfl
    have bits : i.toBitVec.toNat = n := index
    have bounded := i.toUInt32.toNat_lt
    rw [word, BitVec.toInt_eq_toNat_cond, bits, if_neg (by omega)]
    omega
  have value : i.toInt64.toInt = i.toInt64.toBitVec.toInt := rfl
  have word : (asSize i).toNat = i.toInt64.toBitVec.toNat := rfl
  rw [Int32.toInt_toInt64, BitVec.toInt_eq_toNat_cond] at value
  rw [word]
  split_ifs at value with small
  · omega
  · omega

theorem sampleAt_eq_ok_iff (memory : input.length < 2 ^ 63) (index : i.toUInt32.toNat = n)
    {v : α}
    : sampleAt input i = .ok v ↔ n < 2147483648 ∧ input[n]? = some v := by
  rw [sampleAt]
  by_cases small : n < 2147483648
  · rw [asSize_toNat index small]
    cases input[n]? <;> simp [small]
  · have beyond := le_asSize index (by omega)
    rw [List.getElem?_eq_none (by omega)]
    simp [small]

theorem stop_toNat {stepsize : UInt32} (index : i.toUInt32.toNat = n)
    (fits : n + stepsize.toNat < 4294967296)
    : (i.toUInt32 + stepsize).toNat = n + stepsize.toNat := by
  rw [UInt32.toNat_add, index, Nat.mod_eq_of_lt fits]

/-- `i=i+stepsize` -/
theorem next_toNat {stepsize : UInt32} (index : i.toUInt32.toNat = n)
    (fits : n + stepsize.toNat < 4294967296)
    : (i.toUInt32 + stepsize).toInt32.toUInt32.toNat = n + stepsize.toNat := by
  rw [UInt32.toUInt32_toInt32, stop_toNat index fits]

/-- `j++` -/
theorem succ_toNat (index : i.toUInt32.toNat = n) (fits : n + 1 < 4294967296)
    : (i + 1).toUInt32.toNat = n + 1 := by
  rw [Int32.toUInt32_add, UInt32.toNat_add, index]
  exact Nat.mod_eq_of_lt fits

/-- `input->size()-stepsize` of a vector that holds a whole step -/
theorem sizeMinus_toNat {stepsize : UInt32} (step : stepsize.toNat ≤ input.length)
    (memory : input.length < 2 ^ 63)
    : (sizeMinus input stepsize).toNat = input.length - stepsize.toNat := by
  have size : input.length.toUInt64.toNat = input.length := by
    rw [Nat.toUInt64_eq, UInt64.toNat_ofNat', Nat.mod_eq_of_lt (by omega)]
  have unsigned : stepsize.toUInt64.toNat = stepsize.toNat := UInt32.toNat_toUInt64 stepsize
  rw [sizeMinus, UInt64.toNat_sub_of_le, size, unsigned]
  rw [UInt64.le_iff_toNat_le, size, unsigned]
  exact step

/-- `input->size()-stepsize` of a shorter vector -/
theorem le_sizeMinus {stepsize : UInt32} (short : input.length < stepsize.toNat)
    : 2 ^ 63 ≤ (sizeMinus input stepsize).toNat := by
  have small := stepsize.toNat_lt
  have size : input.length.toUInt64.toNat = input.length := by
    rw [Nat.toUInt64_eq, UInt64.toNat_ofNat', Nat.mod_eq_of_lt (by omega)]
  rw [sizeMinus, UInt64.toNat_sub, size, UInt32.toNat_toUInt64]
  omega

end Indices

end Sparcs.CassSpeed
