import Sparcs.CassSpeed.ChunkTimes
import Sparcs.CassSpeed.CompressedBlocks
import Sparcs.CassSpeed.HandlerSucceeds

/-! The answer to a request for recorded seconds that is compressed in whole steps: what its sample
sets hold, and the times from which the client goes on.
-/

namespace Sparcs.CassSpeed

open SharedCell SignedArithmetic
open Spans

/-- Each compression makes one sample of `size` samples. -/
structure Request.InSteps (r : Request) (size : Nat) : Prop where
  sets : r.sets ≠ []
  skip : .skip ∉ r.compressions
  raw : .raw ∈ r.compressions → size = 1
  positive : 0 < size
  stepsize : r.stepsize.toInt = size

/-- The output set of a device is what the compressors make of the samples with some numbers. -/
structure OutputSet.Holds (recording : Recording) (sets : List (Compression × Channel))
    (stepsize : Int32) (lo hi : Nat) (device : Text) (output : OutputSet)
    : Prop where
  deviceid : output.deviceid = device
  sampleset
    : List.Forall₂ (SampleSet.Answers ((span lo hi).map (recording device)) stepsize) sets
        output.sampleset

/-- The times of a payload whose first sample is `lo` and which covers `covered` samples. -/
structure Cassspeed.Timed (payload : Cassspeed) (lo covered time : Nat) : Prop where
  timestampstart : payload.timestampstart = some (UInt64.ofNat time)
  timestampend : payload.timestampend = some (UInt64.ofNat (time + covered * 1000 / 120))
  lower : 25 * lo ≤ 3 * time + 3
  upper : 3 * time ≤ 25 * lo + 2
  small : time < lastTime

theorem toUInt64_of_toInt {time : Int64} {n : Nat} (value : time.toInt = n)
    : time.toUInt64 = UInt64.ofNat n := by
  have same : time = Int64.ofNat n := by
    rw [← Int64.ofInt_toInt time, value, Int64.ofInt_eq_ofNat]
  rw [same, Int64.toUInt64_ofNat']

section Steps

variable {r : Request} {size : Nat} {set : Compression × Channel}

namespace Request.InSteps

theorem stepsize_toNat (inSteps : r.InSteps size) : r.stepsize.toUInt32.toNat = size := by
  have nonneg : 0 ≤ r.stepsize.toInt := by
    rw [inSteps.stepsize]
    exact Int.natCast_nonneg size
  have same := CassSpeed.stepsize_toNat nonneg
  rw [inSteps.stepsize] at same
  exact Int.natCast_inj.mp same

/-- A compressor of at least a whole step returns. -/
theorem compressor_returns (inSteps : r.InSteps size) (requested : set ∈ r.sets) {input : Samples}
    (whole : size ≤ input.length) (fits : input.length + size < 2147483648)
    : ∃ output, set.1.compressor input r.stepsize.toUInt32 = .ok output := by
  have step := inSteps.stepsize_toNat
  have compresses : CompressesSamples input r.stepsize.toUInt32 :=
    (compressesSamples_iff (by rw [step]; exact inSteps.positive) (by omega)).mpr (by omega)
  cases compression : set.1 with
  | min => exact compresses.min.imp fun _ returned => returned.1
  | max => exact compresses.max.imp fun _ returned => returned.1
  | avg => exact compresses.avg.imp fun _ returned => returned.1
  | raw => exact ⟨input, rfl⟩
  | skip => exact absurd (compression ▸ (mem_sets_iff.mp requested).1) inSteps.skip

theorem outputs_eq (inSteps : r.InSteps size) (requested : set ∈ r.sets) {n : Nat}
    (whole : size ≤ n) (short : n < 2147483648)
    : set.1.outputs n r.stepsize.toUInt32 = n / size := by
  have step := inSteps.stepsize_toNat
  have positive := inSteps.positive
  have asked := (mem_sets_iff.mp requested).1
  rw [← step]
  by_cases raw : set.1 = .raw
  · rw [raw] at asked ⊢
    rw [step, inSteps.raw asked, Nat.div_one]
    rfl
  · have combining : set.1.CombinesSteps := ⟨raw, fun skip => inSteps.skip (skip ▸ asked)⟩
    refine outputs_combining combining ?_ short
    cases compression : set.1 with
    | min | max | avg => exact ⟨by omega, by omega⟩
    | raw => exact absurd compression combining.1
    | skip => exact absurd compression combining.2

end Request.InSteps

end Steps

-----------------------------------------------------------------------------------------
-- What is found
-----------------------------------------------------------------------------------------

section Answer

variable {archive : Archive} {recording : Recording} {first last : Nat} {tmp tmp2 : UInt64}
  {r : Request} {size : Nat}

/-- The rows of a device for a request. -/
def foundRows (recording : Recording) (tmp tmp2 : UInt64) (device : Text) : List CassRow :=
  (span (tmp.toNat / 1000) ((tmp2.toNat + 999) / 1000)).map (secondRow recording device)

theorem mem_foundRows (inside : Inside first last tmp tmp2) {device : Text} {row : CassRow}
    (member : row ∈ foundRows recording tmp tmp2 device)
    : ∃ e, tmp.toNat / 1000 ≤ e ∧ e < 4294967296 ∧ row = secondRow recording device e := by
  obtain ⟨e, numbered, rfl⟩ := List.mem_map.mp member
  have bounds := mem_span.mp numbered
  have ends := inside.ends
  have small := inside.small
  exact ⟨e, bounds.1, by omega, rfl⟩

theorem length_foundRows (recording : Recording) (tmp tmp2 : UInt64) (device : Text)
    : ((foundRows recording tmp tmp2 device).flatMap CassRow.samples).length
      = sampleLimit tmp2.toNat - 120 * (tmp.toNat / 1000) := by
  rw [foundRows, samples_eq, List.length_map, length_span, sampleLimit]

theorem length_trimmed (asks : r.AsksFor tmp tmp2) (device : Text)
    : (trimmed r (foundRows recording tmp tmp2 device)).length
      = sampleLimit tmp2.toNat - sampleIndex tmp.toNat := by
  rw [foundRows, trimmed_eq asks, List.length_map, length_span]

theorem foundRows_fits (inside : Inside first last tmp tmp2) (device : Text)
    : FitsMemory (foundRows recording tmp tmp2 device) := by
  have ends := inside.ends
  have small := inside.small
  rw [FitsMemory, length_foundRows, sampleLimit]
  omega

/-- All devices have the same seconds, the first of which is that of the start. -/
theorem foundRows_together (inside : Inside first last tmp tmp2) (devices : r.devices ≠ [])
    : Together (r.devices.map fun device => (device, foundRows recording tmp tmp2 device))
        (tmp.toNat / 1000) := by
  have ordered := inside.ordered
  refine ⟨fun empty => devices (List.map_eq_nil_iff.mp empty), fun found member => ?_,
    fun found member => ?_⟩
  · obtain ⟨device, -, rfl⟩ := List.mem_map.mp member
    have small : tmp.toNat / 1000 < 4294967296 := by
      have ends := inside.ends
      have few := inside.small
      omega
    refine ⟨⟨secondRow recording device (tmp.toNat / 1000), ?_, secondRow_toInt small⟩, ?_⟩
    · exact List.mem_map_of_mem (mem_span.mpr ⟨le_rfl, by omega⟩)
    · rintro t ⟨row, found, rfl⟩
      obtain ⟨e, behind, few, rfl⟩ := mem_foundRows inside found
      rw [CassRow.time, secondRow_toInt few]
      omega
  · obtain ⟨device, -, rfl⟩ := List.mem_map.mp member
    rintro t ⟨row, found, rfl⟩
    obtain ⟨e, -, few, rfl⟩ := mem_foundRows inside found
    exact ⟨e, few, secondRow_toInt few⟩

theorem foundRows_answerable (inside : Inside first last tmp tmp2) (asks : r.AsksFor tmp tmp2)
    (inSteps : r.InSteps size) (device : Text)
    (whole : size ≤ sampleLimit tmp2.toNat - sampleIndex tmp.toNat)
    (short : sampleLimit tmp2.toNat - sampleIndex tmp.toNat ≤ 2147483)
    : Answerable r (foundRows recording tmp tmp2 device) := by
  have skip := skip_eq asks
  have positive := inSteps.positive
  refine ⟨fun row member => ?_, ?_, fun set requested => ?_⟩
  · obtain ⟨e, -, few, rfl⟩ := mem_foundRows inside member
    exact (secondRow_archived few).readable
  · rw [length_foundRows]
    omega
  · have length := @length_trimmed recording _ _ _ asks device
    refine inSteps.compressor_returns requested ?_ ?_
    · rw [List.length_map, length]
      exact whole
    · rw [List.length_map, length]
      omega

-----------------------------------------------------------------------------------------
-- What is answered
-----------------------------------------------------------------------------------------

/-- The count that the end time is computed from. -/
theorem lastCount_eq (asks : r.AsksFor tmp tmp2) (inSteps : r.InSteps size)
    (devices : r.devices ≠ [])
    (whole : size ≤ sampleLimit tmp2.toNat - sampleIndex tmp.toNat)
    (short : sampleLimit tmp2.toNat - sampleIndex tmp.toNat ≤ 2147483) (v : Int32)
    : r.lastCount v (r.devices.map fun device => (device, foundRows recording tmp tmp2 device))
      = Int32.ofNat ((sampleLimit tmp2.toNat - sampleIndex tmp.toNat) / size) := by
  have lastSet := List.getLast?_eq_some_getLast inSteps.sets
  have requested := List.getLast_mem inSteps.sets
  rw [Request.lastCount, lastSet, List.getLast?_map, List.getLast?_eq_some_getLast devices]
  dsimp only [Option.map_some]
  rw [Request.outputs, length_trimmed asks, inSteps.outputs_eq requested whole (by omega)]

/-- A request for recorded seconds, at least a step and not too many, is answered with the samples
from its start on to the end of its last second. The end time is that of the last whole step.
-/
theorem chunk_responds {c : Connection} (sent : c.sent ≠ []) (connects : c.connects = true)
    (parsed : parseRequest (receive c.sent c.beyond) = .ok r) (devices : r.devices ≠ [])
    (records : archive.Records recording first last r.devices) (asks : r.AsksFor tmp tmp2)
    (inside : Inside first last tmp tmp2) (inSteps : r.InSteps size)
    (whole : size ≤ sampleLimit tmp2.toNat - sampleIndex tmp.toNat)
    (short : sampleLimit tmp2.toNat - sampleIndex tmp.toNat ≤ 2147483) (v : Int32)
    : ∃ payload w time, (socketHandler archive c).run v = (.ok (.payload payload), w)
      ∧ List.Forall₂
          (OutputSet.Holds recording r.sets r.stepsize (sampleIndex tmp.toNat)
            (sampleLimit tmp2.toNat))
          r.devices payload.outputsets
      ∧ payload.Timed (sampleIndex tmp.toNat)
          ((sampleLimit tmp2.toNat - sampleIndex tmp.toNat) / size * size) time
      ∧ (1000 ∣ tmp.toNat → time = tmp.toNat) := by
  have found : r.found archive
      = r.devices.map fun device => (device, foundRows recording tmp tmp2 device) :=
    found_eq records asks inside
  have answerable
      : ∀ device ∈ r.devices, ∃ rows,
          archive (r.querystr device) = some rows ∧ Answerable r rows := by
    intro device member
    refine ⟨foundRows recording tmp tmp2 device, ?_,
      foundRows_answerable inside asks inSteps device whole short⟩
    rw [asks.querystr, records device member tmp tmp2 inside, foundSeconds_eq inside]
    rfl
  obtain ⟨payload, w, responds⟩ :=
    socketHandler_responds sent connects parsed devices answerable v
  obtain ⟨r', parsed', answers⟩ := socketHandler_leads (Program.leads_eq_iff.mpr responds)
  obtain rfl := Except.ok.inj (parsed.symm.trans parsed')
  have fits : ∀ device ∈ r.found archive, FitsMemory device.2 := by
    rw [found]
    intro entry member
    obtain ⟨device, -, rfl⟩ := List.mem_map.mp member
    exact foundRows_fits inside device
  have summary := answers.summary
  have outputsets := answers.outputsets
  rw [lastStoredAll_eq fits answers.outputsets, found,
    lastCount_eq asks inSteps devices whole short] at summary
  rw [found, List.forall₂_map_left_iff] at outputsets
  obtain ⟨covered, rfl, ends⟩ := summary.timestampend
  have together := @foundRows_together recording _ _ _ _ _ inside devices
  obtain ⟨time, begins, small, lower, upper, exact_⟩ :=
    together.passAll_between (r := r) c.timestampcass
  rw [skip_eq asks] at lower upper
  have counted := Nat.div_mul_le_self (sampleLimit tmp2.toNat - sampleIndex tmp.toNat) size
  have few : (sampleLimit tmp2.toNat - sampleIndex tmp.toNat) / size
      ≤ (sampleLimit tmp2.toNat - sampleIndex tmp.toNat) / size * size :=
    Nat.le_mul_of_pos_right _ inSteps.positive
  have steps : ((sampleLimit tmp2.toNat - sampleIndex tmp.toNat) / size : Nat) * r.stepsize.toInt
      = ((sampleLimit tmp2.toNat - sampleIndex tmp.toNat) / size * size : Nat) := by
    rw [inSteps.stepsize]
    push_cast
    rfl
  have next := endTime_toInt begins small steps few (counted.trans short)
  refine ⟨payload, w, time, responds, ?_, ⟨?_, ?_, lower, upper, small⟩, fun second => ?_⟩
  · refine outputsets.imp fun device output answer => ⟨answer.deviceid, ?_⟩
    have samples := answer.sampleset
    rw [foundRows, trimmed_eq asks] at samples
    exact samples
  · rw [summary.timestampstart, toUInt64_of_toInt begins]
  · rw [ends, toUInt64_of_toInt next]
  · have skip := skip_eq asks
    rw [sampleIndex] at skip
    rw [exact_ (by omega)]
    omega

end Answer

end Sparcs.CassSpeed
