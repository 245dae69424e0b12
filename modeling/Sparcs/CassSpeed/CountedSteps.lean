import Sparcs.CassSpeed.EndTime
import Sparcs.CassSpeed.Interleaving

/-! The requests whose end time is right: those for which the count of the last compressor, times
the step size, is what the returned samples cover.
-/

namespace Sparcs.CassSpeed

open Extremes SharedCell SignedArithmetic

namespace Request

variable (r : Request)

/-- The number of samples of each device that are left when the front is cut. -/
def lengths (found : List (Text × List CassRow)) : List Nat :=
  found.map fun device => (trimmed r device.2).length

/-- The longest of them. -/
def most (found : List (Text × List CassRow)) : Nat := (r.lengths found).foldl max 0

/-- When the end time is right, from the value of `numsamples` before the request, the requested
compressions, the step size and the lengths of the vectors.
-/
def EndsOnStep (v : Int32) (found : List (Text × List CassRow)) : Prop :=
  let step := r.stepsize.toUInt32.toNat
  let last := (r.lengths found).getLastD 0
  let most := r.most found
  if r.sets = [] then
    -- nothing is compressed, and what another request has stored counts
    v = 0 ∨ r.stepsize = 0 ∧ v.toInt.natAbs ≤ 2147483
  else if .raw ∈ r.compressions then
    last * r.stepsize.toInt = most ∧ most ≤ 2147483
  else if r.compressions = [.skip] then
    (∀ n ∈ r.lengths found, n = step)
    ∨ 0 < r.stepsize.toInt ∧ step < most
      ∧ (if last < step then 1 else (last - 1) / step) = (most - 1) / step
      ∧ (most - 1) / step * step ≤ 2147483
  else
    0 < r.stepsize.toInt
    ∧ (if .skip ∈ r.compressions then last - 1 else last) / step = most / step
    ∧ most / step * step ≤ 2147483

end Request

/-- The last requested compression is the raw one, or else the skipping one, if requested. -/
theorem getLast?_filter_all (requested : Compression → Bool)
    : (Compression.all.filter requested).getLast?
      = if requested .raw then some .raw
        else if requested .skip then some .skip
        else ([Compression.min, .max, .avg].filter requested).getLast? := by
  have parts
      : Compression.all.filter requested
        = [Compression.min, .max, .avg].filter requested
          ++ ([Compression.skip].filter requested ++ [Compression.raw].filter requested) := by
    rw [← List.filter_append, ← List.filter_append]
    rfl
  rw [parts]
  split_ifs with raw skip
  · have single : [Compression.raw].filter requested = [.raw] := List.filter_cons_of_pos raw
    rw [single, ← List.append_assoc, List.getLast?_concat]
  · have single : [Compression.skip].filter requested = [.skip] := List.filter_cons_of_pos skip
    have notRaw : [Compression.raw].filter requested = [] := List.filter_cons_of_neg raw
    rw [single, notRaw, List.append_nil, List.getLast?_concat]
  · have notRaw : [Compression.raw].filter requested = [] := List.filter_cons_of_neg raw
    have notSkip : [Compression.skip].filter requested = [] := List.filter_cons_of_neg skip
    rw [notRaw, notSkip, List.append_nil, List.append_nil]

section Settled

variable {v : Int32} {r : Request} {found : List (Text × List CassRow)}

theorem mem_sets_iff {set : Compression × Channel}
    : set ∈ r.sets ↔ set.1 ∈ r.compressions ∧ set.2 ∈ r.channels := by
  obtain ⟨compression, channel⟩ := set
  simp [Request.sets]

/-- The last sample set is of the last compression. -/
theorem getLast?_sets {compression : Compression} (requested : r.sets ≠ [])
    (last : r.compressions.getLast? = some compression)
    : ∃ channel ∈ r.channels, r.sets.getLast? = some (compression, channel) := by
  obtain ⟨before, compressions⟩ := List.getLast?_eq_some_iff.mp last
  have channels : r.channels ≠ [] := by
    intro empty
    refine requested (List.eq_nil_iff_forall_not_mem.mpr fun set member => ?_)
    have inside := (mem_sets_iff.mp member).2
    rw [empty] at inside
    cases inside
  have final := List.getLast?_eq_some_getLast channels
  refine ⟨_, List.getLast_mem channels, ?_⟩
  rw [Request.sets, compressions, List.flatMap_append, List.flatMap_singleton, List.getLast?_append,
    List.getLast?_map, final]
  rfl

/-- The devices that a payload answers. -/
structure Settled (r : Request) (found : List (Text × List CassRow)) : Prop where
  nonempty : found ≠ []
  accepts
    : ∀ device ∈ found, ∀ set ∈ r.sets,
      set.1.Accepts (trimmed r device.2).length r.stepsize.toUInt32.toNat

theorem length_le_most {device : Text × List CassRow} (inside : device ∈ found)
    : (trimmed r device.2).length ≤ r.most found :=
  (foldl_max_isGreatest id 0 (r.lengths found)).2 (.inr ⟨_, List.mem_map_of_mem inside, rfl⟩)

theorem exists_most (nonempty : found ≠ [])
    : ∃ device ∈ found, (trimmed r device.2).length = r.most found := by
  have greatest := (foldl_max_isGreatest id 0 (r.lengths found)).1
  rcases greatest with zero | ⟨_, member, same⟩
  · obtain ⟨device, inside⟩ := List.exists_mem_of_ne_nil found nonempty
    refine ⟨device, inside, le_antisymm (length_le_most inside) ?_⟩
    rw [Request.most]
    exact zero.trans_le (Nat.zero_le _)
  · obtain ⟨device, inside, rfl⟩ := List.mem_map.mp member
    exact ⟨device, inside, same⟩

theorem coveredMsec_inRange_iff {count step : Int32}
    : (coveredMsec count step).InRange
      ↔ Fits32 (count.toInt * 1000) ∧ Fits32 (count.toInt * 1000 * step.toInt) := by
  constructor
  · rintro ⟨⟨⟨-, -, first⟩, -, second⟩, -⟩
    exact ⟨first, second⟩
  · rintro ⟨first, second⟩
    exact ⟨⟨⟨trivial, trivial, first⟩, trivial, second⟩, trivial, by decide,
      fits32_tdiv (by decide) second⟩

/-- A count that is no more than what is covered overflows just when that is too much. -/
theorem counts_iff {count : Nat} {covered : Nat} {step : Int32} (few : count ≤ covered)
    : (coveredMsec (Int32.ofNat count) step).InRange
        ∧ (Int32.ofNat count).toInt * step.toInt = covered
      ↔ count * step.toInt = covered ∧ covered ≤ 2147483 := by
  have value (small : count < 2147483648) : (Int32.ofNat count).toInt = count :=
    Int32.toInt_ofNat_of_lt small
  rw [coveredMsec_inRange_iff]
  constructor
  · rintro ⟨⟨-, lower, upper⟩, same⟩
    have scaled : (Int32.ofNat count).toInt * 1000 * step.toInt = covered * 1000 := by
      rw [mul_right_comm, same]
    rw [scaled] at upper
    rw [value (by omega)] at same
    exact ⟨same, by omega⟩
  · rintro ⟨same, small⟩
    have scaled : (count : Int) * 1000 * step.toInt = covered * 1000 := by
      rw [mul_right_comm, same]
    rw [value (by omega), scaled]
    exact ⟨⟨⟨by omega, by omega⟩, by omega, by omega⟩, same⟩

/-- The same of the last count. -/
theorem lastCount_iff (settled : Settled r found) {set : Compression × Channel}
    {device : Text × List CassRow} (lastSet : r.sets.getLast? = some set)
    (lastDevice : found.getLast? = some device)
    : (coveredMsec (r.lastCount v found) r.stepsize).InRange
        ∧ (r.lastCount v found).toInt * r.stepsize.toInt = r.widest found
      ↔ r.outputs device set * r.stepsize.toInt = r.widest found ∧ r.widest found ≤ 2147483 := by
  have requested := List.mem_of_getLast? lastSet
  have inside := List.mem_of_getLast? lastDevice
  have count : r.lastCount v found = Int32.ofNat (r.outputs device set) := by
    rw [Request.lastCount, lastSet, lastDevice]
  rw [count]
  exact counts_iff ((outputs_le_covers (settled.accepts device inside set requested)).trans
    (covers_le_widest inside requested))

/-- With the raw compression, which is the last one and covers everything. -/
theorem ends_raw (settled : Settled r found) (requested : r.sets ≠ [])
    (raw : .raw ∈ r.compressions) {device : Text × List CassRow}
    (lastDevice : found.getLast? = some device)
    : (coveredMsec (r.lastCount v found) r.stepsize).InRange
        ∧ (r.lastCount v found).toInt * r.stepsize.toInt = r.widest found
      ↔ (trimmed r device.2).length * r.stepsize.toInt = r.most found
        ∧ r.most found ≤ 2147483 := by
  have last : r.compressions.getLast? = some .raw := by
    rw [Request.compressions, getLast?_filter_all, if_pos (List.mem_filter.mp raw).2]
  obtain ⟨channel, inside, lastSet⟩ := getLast?_sets requested last
  have widest : r.widest found = r.most found := by
    refine widest_eq (fun device inside set _ => covers_le_length.trans (length_le_most inside)) ?_
    obtain ⟨longest, member, length⟩ := exists_most settled.nonempty
    exact .inr ⟨longest, member, (.raw, channel), mem_sets_iff.mpr ⟨raw, inside⟩, length⟩
  rw [lastCount_iff settled lastSet lastDevice, widest]
  rfl

theorem stepsize_toNat {step : Int32} (nonneg : 0 ≤ step.toInt)
    : (step.toUInt32.toNat : Int) = step.toInt := by
  have value : step.toInt = step.toBitVec.toInt := rfl
  have word : step.toUInt32.toNat = step.toBitVec.toNat := rfl
  rw [BitVec.toInt_eq_toNat_cond] at value
  split_ifs at value with small
  · rw [value, word]
  · have bounded := step.toBitVec.isLt
    omega

/-- A whole number of steps is counted right only with a positive step. -/
theorem steps_iff {count steps : Nat} {step : Int32} (begun : 0 < steps)
    (moves : 0 < step.toUInt32.toNat)
    : (count : Int) * step.toInt = (steps * step.toUInt32.toNat : Nat)
      ↔ 0 < step.toInt ∧ count = steps := by
  constructor
  · intro same
    have product : 0 < (count : Int) * step.toInt := by
      rw [same]
      exact Int.natCast_pos.mpr (Nat.mul_pos begun moves)
    have positive : 0 < step.toInt := pos_of_mul_pos_right product (Int.natCast_nonneg count)
    rw [Nat.cast_mul, stepsize_toNat positive.le] at same
    exact ⟨positive, Int.natCast_inj.mp (mul_right_cancel₀ positive.ne' same)⟩
  · rintro ⟨positive, rfl⟩
    rw [Nat.cast_mul, stepsize_toNat positive.le]

theorem min_le_stepsBelow_mul {bound s : Nat} (positive : 0 < s)
    : min bound 2147483648 ≤ stepsBelow bound s * s := by
  refine not_lt.mp fun before => ?_
  exact lt_irrefl _ ((lt_stepsBelow_iff positive).mpr before)

section Combining

variable {set : Compression × Channel}

/-- The longest vector, with a compression that combines steps. -/
theorem most_combining (settled : Settled r found) (requested : set ∈ r.sets)
    (combining : set.1.CombinesSteps)
    : 0 < r.stepsize.toUInt32.toNat ∧ r.stepsize.toUInt32.toNat ≤ r.most found
      ∧ ∀ device ∈ found, r.stepsize.toUInt32.toNat ≤ (trimmed r device.2).length := by
  have whole
      : ∀ device ∈ found, 0 < r.stepsize.toUInt32.toNat
        ∧ r.stepsize.toUInt32.toNat ≤ (trimmed r device.2).length := by
    intro device inside
    have accepts := settled.accepts device inside set requested
    cases compression : set.1 with
    | raw => exact absurd compression combining.1
    | skip => exact absurd compression combining.2
    | min | max | avg =>
        rw [compression] at accepts
        exact accepts
  obtain ⟨longest, member, length⟩ := exists_most (r := r) settled.nonempty
  have first := whole longest member
  rw [length] at first
  exact ⟨first.1, first.2, fun device inside => (whole device inside).2⟩

/-- What is covered is more than the index can pass, if there is more. -/
theorem most_small (settled : Settled r found) (requested : set ∈ r.sets)
    (combining : set.1.CombinesSteps) (small : r.widest found ≤ 2147483)
    : r.most found < 2147483648 := by
  obtain ⟨positive, whole, -⟩ := most_combining settled requested combining
  obtain ⟨longest, member, length⟩ := exists_most (r := r) settled.nonempty
  have covered := (covers_le_widest member requested).trans small
  have passed := @min_le_stepsBelow_mul (r.most found - r.stepsize.toUInt32.toNat + 1) _ positive
  have first
      : 0 < stepsBelow (r.most found - r.stepsize.toUInt32.toNat + 1)
          r.stepsize.toUInt32.toNat := by
    rw [lt_stepsBelow_iff positive]
    omega
  have once := Nat.le_mul_of_pos_left r.stepsize.toUInt32.toNat first
  rw [Request.covers, Request.outputs, length] at covered
  cases compression : set.1 with
  | raw => exact absurd compression combining.1
  | skip => exact absurd compression combining.2
  | min | max | avg =>
      rw [compression] at covered
      simp only [Compression.covers, Compression.outputs, inf_le_iff] at covered
      omega

/-- No compression makes more outputs than the longest vector has whole steps. -/
theorem outputs_le_steps (settled : Settled r found) (requested : set ∈ r.sets)
    (combining : set.1.CombinesSteps) (notRaw : .raw ∉ r.compressions)
    (small : r.most found < 2147483648) {device : Text × List CassRow} (inside : device ∈ found)
    {other : Compression × Channel} (requested' : other ∈ r.sets)
    : r.outputs device other ≤ r.most found / r.stepsize.toUInt32.toNat := by
  obtain ⟨positive, -, whole⟩ := most_combining settled requested combining
  have short := length_le_most (r := r) inside
  have accepts := settled.accepts device inside other requested'
  rw [Request.outputs]
  by_cases combining' : other.1.CombinesSteps
  · rw [outputs_combining combining' accepts (by omega)]
    exact Nat.div_le_div_right short
  · have first := (mem_sets_iff.mp requested').1
    cases compression : other.1 with
    | skip =>
        have atLeast := whole device inside
        rw [outputs_skip positive (by omega) (by omega), if_neg (by omega)]
        exact Nat.div_le_div_right (by omega)
    | raw => exact absurd (compression ▸ first) notRaw
    | min | max | avg => exact absurd (by rw [compression]; constructor <;> decide) combining'

theorem widest_combining (settled : Settled r found) (requested : set ∈ r.sets)
    (combining : set.1.CombinesSteps) (notRaw : .raw ∉ r.compressions)
    (small : r.most found < 2147483648)
    : r.widest found
      = r.most found / r.stepsize.toUInt32.toNat * r.stepsize.toUInt32.toNat := by
  refine widest_eq (fun device inside other requested' => ?_) (.inr ?_)
  · have outputs := outputs_le_steps settled requested combining notRaw small inside requested'
    refine le_trans ?_ (Nat.mul_le_mul_right r.stepsize.toUInt32.toNat outputs)
    rw [Request.covers]
    have first := (mem_sets_iff.mp requested').1
    cases compression : other.1 with
    | raw => exact absurd (compression ▸ first) notRaw
    | min | max | avg | skip => exact min_le_right _ _
  · obtain ⟨longest, member, length⟩ := exists_most (r := r) settled.nonempty
    have accepts := settled.accepts longest member set requested
    refine ⟨longest, member, set, requested, ?_⟩
    rw [Request.covers, Request.outputs, outputs_combining combining accepts (by omega), length]
    have whole := Nat.div_mul_le_self (r.most found) r.stepsize.toUInt32.toNat
    cases compression : set.1 with
    | raw => exact absurd compression combining.1
    | skip => exact absurd compression combining.2
    | min | max | avg => exact min_eq_right whole

/-- The last compression skips, if that is requested, and else combines steps. -/
theorem exists_lastSet (settled : Settled r found) (requested : set ∈ r.sets)
    (combining : set.1.CombinesSteps) (notRaw : .raw ∉ r.compressions)
    {device : Text × List CassRow} (inside : device ∈ found)
    : ∃ last, r.sets.getLast? = some last
      ∧ (r.most found < 2147483648 →
        r.outputs device last
          = (if .skip ∈ r.compressions then (trimmed r device.2).length - 1
              else (trimmed r device.2).length) / r.stepsize.toUInt32.toNat) := by
  obtain ⟨positive, -, whole⟩ := most_combining settled requested combining
  have atLeast := whole device inside
  have short := length_le_most (r := r) inside
  have nonempty := List.ne_nil_of_mem requested
  split_ifs with skip
  · have last : r.compressions.getLast? = .some .skip := by
      rw [Request.compressions, getLast?_filter_all, if_neg, if_pos (List.mem_filter.mp skip).2]
      exact fun raw => notRaw (List.mem_filter.mpr ⟨by decide, raw⟩)
    obtain ⟨channel, -, lastSet⟩ := getLast?_sets nonempty last
    refine ⟨_, lastSet, fun small => ?_⟩
    rw [Request.outputs, outputs_skip positive (by omega) (by omega), if_neg (by omega)]
  · have compressions := List.ne_nil_of_mem (mem_sets_iff.mp requested).1
    obtain ⟨channel, -, lastSet⟩ :=
      getLast?_sets nonempty (List.getLast?_eq_some_getLast compressions)
    have member := List.getLast_mem compressions
    refine ⟨_, lastSet, fun small => ?_⟩
    have accepts := settled.accepts device inside _ (List.mem_of_getLast? lastSet)
    refine outputs_combining ⟨fun same => notRaw ?_, fun same => skip ?_⟩ accepts (by omega)
    · exact same ▸ member
    · exact same ▸ member

/-- With compressions that combine steps, and maybe the skipping one behind them. -/
theorem ends_combining (settled : Settled r found) (requested : set ∈ r.sets)
    (combining : set.1.CombinesSteps) (notRaw : .raw ∉ r.compressions)
    {device : Text × List CassRow} (lastDevice : found.getLast? = some device)
    : (coveredMsec (r.lastCount v found) r.stepsize).InRange
        ∧ (r.lastCount v found).toInt * r.stepsize.toInt = r.widest found
      ↔ 0 < r.stepsize.toInt
        ∧ (if .skip ∈ r.compressions then (trimmed r device.2).length - 1
            else (trimmed r device.2).length) / r.stepsize.toUInt32.toNat
          = r.most found / r.stepsize.toUInt32.toNat
        ∧ r.most found / r.stepsize.toUInt32.toNat * r.stepsize.toUInt32.toNat ≤ 2147483 := by
  obtain ⟨positive, begun, -⟩ := most_combining settled requested combining
  have steps := Nat.div_pos begun positive
  have inside := List.mem_of_getLast? lastDevice
  obtain ⟨last, lastSet, outputs⟩ := exists_lastSet settled requested combining notRaw inside
  rw [lastCount_iff settled lastSet lastDevice]
  by_cases small : r.most found < 2147483648
  · rw [widest_combining settled requested combining notRaw small, outputs small,
      steps_iff steps positive, and_assoc]
  · refine iff_of_false (fun right => ?_) (fun right => ?_)
    · exact small (most_small settled requested combining right.2)
    · have short := right.2.2
      have below := Nat.lt_div_mul_add positive (a := r.most found)
      have once := Nat.le_mul_of_pos_left r.stepsize.toUInt32.toNat steps
      omega

end Combining

section Skipping

variable {device : Text × List CassRow} {set : Compression × Channel}

theorem skip_of_mem (only : r.compressions = [.skip]) (requested : set ∈ r.sets)
    : set.1 = .skip := by
  have member := (mem_sets_iff.mp requested).1
  rw [only] at member
  exact List.mem_singleton.mp member

theorem skip_begins (settled : Settled r found) (only : r.compressions = [.skip])
    (requested : set ∈ r.sets) (positive : 0 < r.stepsize.toUInt32.toNat)
    (inside : device ∈ found)
    : 0 < (trimmed r device.2).length := by
  have accepts := settled.accepts device inside set requested
  rw [skip_of_mem only requested] at accepts
  rcases accepts with ⟨zero, -⟩ | ⟨-, nonempty⟩
  · exact absurd zero positive.ne'
  · exact nonempty

/-- Skipping covers all whole steps but the last, or a vector that is shorter than a step. -/
theorem covers_skip (settled : Settled r found) (only : r.compressions = [.skip])
    (inside : device ∈ found) (requested : set ∈ r.sets)
    (small : (trimmed r device.2).length - r.stepsize.toUInt32.toNat < 2147483648)
    : r.covers device set
      = if (trimmed r device.2).length < r.stepsize.toUInt32.toNat then
          (trimmed r device.2).length
        else
          ((trimmed r device.2).length - 1) / r.stepsize.toUInt32.toNat
            * r.stepsize.toUInt32.toNat := by
  have accepts := settled.accepts device inside set requested
  rw [Request.covers, Request.outputs]
  rw [skip_of_mem only requested] at accepts ⊢
  rcases accepts with ⟨zero, empty⟩ | ⟨positive, nonempty⟩
  · simp only [Compression.covers, zero, empty, Nat.zero_min, Nat.mul_zero, ite_self]
  · rw [outputs_skip positive nonempty small, Compression.covers]
    have whole :=
      Nat.div_mul_le_self ((trimmed r device.2).length - 1) r.stepsize.toUInt32.toNat
    split_ifs with short
    · rw [Nat.one_mul, min_eq_left short.le]
    · exact min_eq_right (by omega)

theorem widest_skip (settled : Settled r found) (only : r.compressions = [.skip])
    (requested : set ∈ r.sets) (positive : 0 < r.stepsize.toUInt32.toNat)
    (longer : r.stepsize.toUInt32.toNat < r.most found)
    (small : r.most found - r.stepsize.toUInt32.toNat < 2147483648)
    : r.widest found
      = (r.most found - 1) / r.stepsize.toUInt32.toNat * r.stepsize.toUInt32.toNat := by
  refine widest_eq (fun device inside other requested' => ?_) (.inr ?_)
  · have short := length_le_most (r := r) inside
    rw [covers_skip settled only inside requested' (by omega)]
    split_ifs with once
    · have steps : 0 < (r.most found - 1) / r.stepsize.toUInt32.toNat :=
        Nat.div_pos (by omega) positive
      exact once.le.trans (Nat.le_mul_of_pos_left _ steps)
    · exact Nat.mul_le_mul_right _ (Nat.div_le_div_right (by omega))
  · obtain ⟨longest, member, length⟩ := exists_most (r := r) settled.nonempty
    refine ⟨longest, member, set, requested, ?_⟩
    rw [covers_skip settled only member requested (by omega), length, if_neg (by omega)]

theorem most_skip_small (settled : Settled r found) (only : r.compressions = [.skip])
    (requested : set ∈ r.sets) (positive : 0 < r.stepsize.toUInt32.toNat)
    (longer : r.stepsize.toUInt32.toNat < r.most found) (small : r.widest found ≤ 2147483)
    : r.most found - r.stepsize.toUInt32.toNat < 2147483648 := by
  obtain ⟨longest, member, length⟩ := exists_most (r := r) settled.nonempty
  have covered := (covers_le_widest member requested).trans small
  have passed := @min_le_stepsBelow_mul (r.most found - r.stepsize.toUInt32.toNat) _ positive
  rw [Request.covers, Request.outputs, length, skip_of_mem only requested] at covered
  simp only [Compression.covers, Compression.outputs, inf_le_iff, if_pos longer.le] at covered
  omega

/-- With the skipping compression alone, where some device has more than one step. -/
theorem ends_skip_longer (settled : Settled r found) (only : r.compressions = [.skip])
    (requested : set ∈ r.sets) (lastSet : r.sets.getLast? = some set)
    (lastDevice : found.getLast? = some device)
    (longer : r.stepsize.toUInt32.toNat < r.most found)
    : (coveredMsec (r.lastCount v found) r.stepsize).InRange
        ∧ (r.lastCount v found).toInt * r.stepsize.toInt = r.widest found
      ↔ 0 < r.stepsize.toInt
        ∧ (if (trimmed r device.2).length < r.stepsize.toUInt32.toNat then 1
            else ((trimmed r device.2).length - 1) / r.stepsize.toUInt32.toNat)
          = (r.most found - 1) / r.stepsize.toUInt32.toNat
        ∧ (r.most found - 1) / r.stepsize.toUInt32.toNat * r.stepsize.toUInt32.toNat
          ≤ 2147483 := by
  have inside := List.mem_of_getLast? lastDevice
  have positive : 0 < r.stepsize.toUInt32.toNat := by
    obtain ⟨longest, member, length⟩ := exists_most (r := r) settled.nonempty
    have accepts := settled.accepts longest member set requested
    rw [skip_of_mem only requested, length] at accepts
    rcases accepts with ⟨zero, empty⟩ | ⟨positive, -⟩
    · omega
    · exact positive
  have begun := skip_begins settled only requested positive inside
  have steps : 0 < (r.most found - 1) / r.stepsize.toUInt32.toNat :=
    Nat.div_pos (by omega) positive
  have short := length_le_most (r := r) inside
  rw [lastCount_iff settled lastSet lastDevice]
  by_cases small : r.most found - r.stepsize.toUInt32.toNat < 2147483648
  · rw [widest_skip settled only requested positive longer small, Request.outputs,
      skip_of_mem only requested, outputs_skip positive begun (by omega), steps_iff steps positive,
      and_assoc]
  · refine iff_of_false (fun right => ?_) (fun right => ?_)
    · exact small (most_skip_small settled only requested positive longer right.2)
    · have short := right.2.2
      have below := Nat.lt_div_mul_add positive (a := r.most found - 1)
      have once := Nat.le_mul_of_pos_left r.stepsize.toUInt32.toNat steps
      omega

/-- With the skipping compression alone, where no device has more than one step. -/
theorem ends_skip_once (settled : Settled r found) (only : r.compressions = [.skip])
    (requested : set ∈ r.sets) (lastSet : r.sets.getLast? = some set)
    (lastDevice : found.getLast? = some device)
    (once : r.most found ≤ r.stepsize.toUInt32.toNat)
    : (coveredMsec (r.lastCount v found) r.stepsize).InRange
        ∧ (r.lastCount v found).toInt * r.stepsize.toInt = r.widest found
      ↔ ∀ n ∈ r.lengths found, n = r.stepsize.toUInt32.toNat := by
  have inside := List.mem_of_getLast? lastDevice
  have bounded (device) (inside : device ∈ found)
      : (trimmed r device.2).length ≤ r.stepsize.toUInt32.toNat :=
    (length_le_most inside).trans once
  have covers (device) (inside : device ∈ found) (set) (requested : set ∈ r.sets)
      : r.covers device set
        = if (trimmed r device.2).length < r.stepsize.toUInt32.toNat then
            (trimmed r device.2).length
          else 0 := by
    have atMost := bounded device inside
    rw [covers_skip settled only inside requested (by omega)]
    split_ifs with short
    · rfl
    · have same : (trimmed r device.2).length = r.stepsize.toUInt32.toNat := by omega
      rw [same]
      rcases Nat.eq_zero_or_pos r.stepsize.toUInt32.toNat with zero | positive
      · rw [zero, Nat.mul_zero]
      · rw [Nat.div_eq_of_lt (by omega), Nat.zero_mul]
  rw [lastCount_iff settled lastSet lastDevice]
  constructor
  · rintro ⟨same, -⟩ n member
    obtain ⟨other, inside', rfl⟩ := List.mem_map.mp member
    by_contra different
    have shorter := lt_of_le_of_ne (bounded other inside') different
    have positive := Nat.zero_lt_of_lt shorter
    have sends : 0 < r.widest found := by
      have covered := covers_le_widest inside' requested
      rw [covers other inside' set requested, if_pos shorter] at covered
      exact (skip_begins settled only requested positive inside').trans_le covered
    have few : r.widest found < r.stepsize.toUInt32.toNat := by
      refine widest_lt positive fun device inside set requested => ?_
      rw [covers device inside set requested]
      split_ifs with short
      · exact short
      · exact positive
    have moves : 0 < r.stepsize.toInt := by
      refine pos_of_mul_pos_right (a := (r.outputs device set : Int)) ?_ (Int.natCast_nonneg _)
      rw [same]
      exact Int.natCast_pos.mpr sends
    rw [← stepsize_toNat moves.le, ← Nat.cast_mul, Nat.cast_inj] at same
    rw [← same] at few sends
    exact absurd (Nat.le_mul_of_pos_left _ (Nat.pos_of_mul_pos_right sends)) few.not_ge
  · intro whole
    have sendsNothing (device) (inside : device ∈ found) (set) (requested : set ∈ r.sets)
        : r.covers device set = 0 := by
      rw [covers device inside set requested, if_neg]
      exact (whole _ (List.mem_map_of_mem inside)).not_lt
    have widest : r.widest found = 0 :=
      widest_eq (fun device inside set requested => (sendsNothing device inside set requested).le)
        (.inl rfl)
    have count : r.outputs device set = 0 := by
      have few := outputs_le_covers (settled.accepts device inside set requested)
      exact Nat.le_zero.mp (few.trans (sendsNothing device inside set requested).le)
    rw [widest, count]
    exact ⟨zero_mul _, by decide⟩

end Skipping

end Settled

section EndsOnStep

variable {v : Int32} {r : Request} {found : List (Text × List CassRow)}

/-- Where nothing is compressed, the count is of another request. -/
theorem ends_nothing (nothing : r.sets = [])
    : (coveredMsec (r.lastCount v found) r.stepsize).InRange
        ∧ (r.lastCount v found).toInt * r.stepsize.toInt = r.widest found
      ↔ v = 0 ∨ r.stepsize = 0 ∧ v.toInt.natAbs ≤ 2147483 := by
  have count : r.lastCount v found = v := by
    rw [Request.lastCount, nothing]
    rfl
  have widest : r.widest found = 0 := by
    refine widest_eq (fun device _ set requested => ?_) (.inl rfl)
    rw [nothing] at requested
    cases requested
  have fits : Fits32 0 := ⟨by decide, by decide⟩
  rw [count, widest, coveredMsec_inRange_iff, Nat.cast_zero, mul_eq_zero, ← Int32.toInt_zero,
    Int32.toInt_inj, Int32.toInt_inj]
  constructor
  · rintro ⟨⟨⟨lower, upper⟩, -⟩, rfl | zero⟩
    · exact .inl rfl
    · exact .inr ⟨zero, by omega⟩
  · rintro (rfl | ⟨zero, small⟩)
    · rw [Int32.toInt_zero, zero_mul, zero_mul]
      exact ⟨⟨fits, fits⟩, .inl rfl⟩
    · rw [zero, Int32.toInt_zero, mul_zero]
      exact ⟨⟨⟨by omega, by omega⟩, fits⟩, .inr rfl⟩

/-- Without the raw compression, one that combines steps is requested or only the skipping one. -/
theorem exists_combining (requested : r.sets ≠ []) (notRaw : .raw ∉ r.compressions)
    (more : r.compressions ≠ [.skip])
    : ∃ set ∈ r.sets, set.1.CombinesSteps := by
  by_contra onlySkip
  obtain ⟨set, member⟩ := List.exists_mem_of_ne_nil r.sets requested
  obtain ⟨first, channel⟩ := mem_sets_iff.mp member
  have skips : ∀ compression ∈ r.compressions, compression = .skip := by
    intro compression inside
    by_contra different
    exact onlySkip ⟨(compression, set.2), mem_sets_iff.mpr ⟨inside, channel⟩,
      fun same => notRaw (same ▸ inside), different⟩
  have nodup : r.compressions.Nodup := List.Nodup.filter _ (by decide)
  have length := List.eq_replicate_of_mem skips
  rw [length, List.nodup_replicate] at nodup
  have nonempty := List.length_pos_of_mem first
  exact more (length.trans (by rw [le_antisymm nodup nonempty]; rfl))

theorem endsOnStep_iff (settled : Settled r found)
    : (coveredMsec (r.lastCount v found) r.stepsize).InRange
        ∧ (r.lastCount v found).toInt * r.stepsize.toInt = r.widest found
      ↔ r.EndsOnStep v found := by
  have lastDevice := List.getLast?_eq_some_getLast settled.nonempty
  have last
      : (r.lengths found).getLastD 0
        = (trimmed r (found.getLast settled.nonempty).2).length := by
    rw [List.getLastD_eq_getLast?, Request.lengths, List.getLast?_map, lastDevice]
    rfl
  rw [Request.EndsOnStep, last]
  by_cases nothing : r.sets = []
  · rw [if_pos nothing]
    exact ends_nothing nothing
  by_cases raw : .raw ∈ r.compressions
  · rw [if_neg nothing, if_pos raw]
    exact ends_raw settled nothing raw lastDevice
  by_cases only : r.compressions = [.skip]
  · rw [if_neg nothing, if_neg raw, if_pos only]
    obtain ⟨channel, -, lastSet⟩ := getLast?_sets nothing (congrArg List.getLast? only)
    have requested := List.mem_of_getLast? lastSet
    by_cases longer : r.stepsize.toUInt32.toNat < r.most found
    · have different : ¬∀ n ∈ r.lengths found, n = r.stepsize.toUInt32.toNat := by
        intro same
        obtain ⟨longest, member, length⟩ := exists_most (r := r) settled.nonempty
        have whole := same _ (List.mem_map_of_mem member)
        omega
      rw [ends_skip_longer settled only requested lastSet lastDevice longer]
      simp only [different, longer, true_and, false_or]
    · rw [ends_skip_once settled only requested lastSet lastDevice (not_lt.mp longer)]
      simp only [longer, false_and, and_false, or_false]
  · rw [if_neg nothing, if_neg raw, if_neg only]
    obtain ⟨set, requested, combining⟩ := exists_combining nothing raw only
    exact ends_combining settled requested combining raw lastDevice

end EndsOnStep

theorem Cassspeed.Answers.settled {finds : Int32 → Int32 → Prop} {archive : Archive}
    {timestampcass : Int64} {v : Int32} {r : Request} {payload : Cassspeed}
    (answers : payload.Answers finds archive timestampcass v r)
    (fits : ∀ device ∈ r.found archive, FitsMemory device.2)
    : Settled r (r.found archive) := by
  refine ⟨answers.found, fun device inside set requested => ?_⟩
  have memory := @trimmed_length_le r device (fits device inside)
  obtain ⟨output, answer⟩ := exists_of_forall₂ answers.outputsets inside
  obtain ⟨entry, sample⟩ := exists_of_forall₂ answer.sampleset requested
  have accepts := compressor_accepts (by rw [List.length_map]; omega) sample.sample
  rw [List.length_map] at accepts
  exact accepts

/-- Of any number of devices, any rows that fit into the memory and any compressions, the end time
is right just when what is counted last makes up what is covered, times the step.
-/
theorem timestampend_iff {archive : Archive} {c : Connection} {v w : Int32} {r : Request}
    {payload : Cassspeed} (parsed : parseRequest (receive c.sent c.beyond) = .ok r)
    (responds : (socketHandler archive c).run v = (.ok (.payload payload), w))
    (fits : ∀ device ∈ r.found archive, FitsMemory device.2)
    : EndsRight r (r.found archive) payload ↔ r.EndsOnStep v (r.found archive) := by
  rw [timestampend_count_iff parsed responds fits]
  obtain ⟨r', parsed', answers⟩ := socketHandler_leads (Program.leads_eq_iff.mpr responds)
  obtain rfl := Except.ok.inj (parsed.symm.trans parsed')
  exact endsOnStep_iff (answers.settled fits)

/-- The arguments for the raw samples of one device with step size 2. -/
def rawTwoArguments : Arguments where
  timestampstart := "1480355400000".toList
  timestampend := "1480355401000".toList
  deviceids := "P3001199".toList
  requested := "1;0;0;0;0;0;0;0;0;0;0;0".toList
  compressionMethod := "16".toList
  stepsize := "2".toList
  calcDeltaT := "0".toList
  ended := by decide

/-- What such arguments ask for. -/
def rawRequest (step : Int32) : Request where
  devices := ["P3001199".toList]
  nosamplesets := 1
  timestampstart := "1480355400000".toList
  timestampend := "1480355401000".toList
  requested := true :: List.replicate 11 false
  compressionMethod := 16
  stepsize := step

def sentTimes (r : Request) (found : List (Text × List CassRow))
    : Except Fault Response → Option (Option UInt64 × Option UInt64 × Nat)
  | .ok (.payload payload) =>
      some (payload.timestampstart, payload.timestampend, payload.span r found)
  | _ => none

/-- One second with step size 1, which the client always sends for raw samples unless told
otherwise.
-/
theorem timestampend_iff_one
    : ∃ payload w, (socketHandler (fun _ => some [zeroSecond]) (rawAndSkip false)).run 0
        = (.ok (.payload payload), w)
      ∧ EndsRight (rawRequest 1) ((rawRequest 1).found fun _ => some [zeroSecond]) payload := by
  have sent
      : (sentTimes (rawRequest 1) []
          ((socketHandler (fun _ => some [zeroSecond]) (rawAndSkip false)).run 0).1).isSome := by
    decide +kernel
  have parsed
      : parseRequest (receive (rawAndSkip false).sent (rawAndSkip false).beyond)
        = .ok (rawRequest 1) := by
    decide +kernel
  have fits
      : ∀ device ∈ (rawRequest 1).found fun _ => some [zeroSecond], FitsMemory device.2 := by
    intro device inside
    obtain rfl := List.mem_singleton.mp inside
    rw [FitsMemory]
    decide +kernel
  have ends
      : (rawRequest 1).EndsOnStep 0 ((rawRequest 1).found fun _ => some [zeroSecond]) := by
    rw [Request.EndsOnStep]
    decide +kernel
  generalize outcome
    : (socketHandler (fun _ => some [zeroSecond]) (rawAndSkip false)).run 0 = run at sent
  obtain ⟨sentOutcome, w⟩ := run
  match sentOutcome, sent with
  | .ok (.payload payload), _ =>
      exact ⟨payload, w, rfl, (timestampend_iff parsed outcome fits).mpr ends⟩

/-- The request that the client sends for the raw samples of a second with step size 2. -/
def rawTwo : Connection :=
  askFor "1;P3001199;1;1480355400000;1480355401000;1;0;0;0;0;0;0;0;0;0;0;0;16;2"

/-- Of the one second that is returned for it, two are counted; and with step size 1, the client
asks for chunks whose number of samples overflows.
-/
theorem timestampend_late
    : (prepare rawTwoArguments).map
          (fun p => p.datatotransmit 1480355400000 1480355401000 ++ [nul])
        = .ok rawTwo.sent
      ∧ parseRequest (receive rawTwo.sent rawTwo.beyond) = .ok (rawRequest 2)
      ∧ (∃ payload w,
          (socketHandler (fun _ => some [zeroSecond]) rawTwo).run 0 = (.ok (.payload payload), w)
          ∧ ¬EndsRight (rawRequest 2) ((rawRequest 2).found fun _ => some [zeroSecond]) payload)
      ∧ deltaTChucksize "1".toList "1".toList "16".toList "1".toList 32 = .ok 69905
      ∧ ¬(coveredMsec (Int32.ofNat (69905 * 120)) 1).InRange := by
  refine ⟨by decide +kernel, by decide +kernel, ?_, by decide +kernel, ?_⟩
  · have sent
        : sentTimes (rawRequest 2) ((rawRequest 2).found fun _ => some [zeroSecond])
            ((socketHandler (fun _ => some [zeroSecond]) rawTwo).run 0).1
          = some (some 1480355400000, some 1480355402000, 120) := by
      decide +kernel
    generalize outcome
      : (socketHandler (fun _ => some [zeroSecond]) rawTwo).run 0 = run at sent
    obtain ⟨sentOutcome, w⟩ := run
    match sentOutcome, sent with
    | .ok (.payload payload), sent =>
        obtain ⟨starts, rest⟩ := Prod.mk.inj (Option.some.inj sent)
        obtain ⟨ends, span⟩ := Prod.mk.inj rest
        refine ⟨payload, w, rfl, ?_⟩
        rintro ⟨start, count, starts', -, -, ends'⟩
        rw [starts] at starts'
        obtain rfl := Option.some.inj starts'
        rw [ends, span] at ends'
        exact absurd (Option.some.inj ends') (by decide)
  · rw [coveredMsec_inRange_iff]
    rintro ⟨⟨-, upper⟩, -⟩
    exact absurd upper (by decide +kernel)

end Sparcs.CassSpeed
