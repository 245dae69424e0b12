import Sparcs.Library.Extremes
import Sparcs.Library.IntExpr
import Sparcs.CassSpeed.OutputLengths
import Sparcs.CassSpeed.TrimmedFront

/-! The end time of a response. It is computed from what the last compressor has stored for the
last device, as if this were a number of steps.
-/

namespace Sparcs.CassSpeed

open Extremes FuelLoop SharedCell SignedArithmetic

-----------------------------------------------------------------------------------------
-- The time that is covered
-----------------------------------------------------------------------------------------

/-- `numsamples*1000*stepsize/120` -/
def coveredMsec (numsamples stepsize : Int32) : IntExpr :=
  (numsamples : IntExpr) * 1000 * stepsize / 120

theorem endTime_eq (timestampcass : Int64) (numsamples stepsize : Int32)
    : endTime timestampcass numsamples stepsize
      = timestampcass + (coveredMsec numsamples stepsize).eval.toInt64 :=
  rfl

/-- Two whole numbers of samples last equally long only if they are the same. -/
theorem tdiv_eq_iff (a : Int) (b : Nat)
    : (a * 1000).tdiv 120 = (b * 1000 / 120 : Nat) ↔ a = b := by
  constructor
  · intro same
    by_cases negative : a < 0
    · have positive : (-(a * 1000)).tdiv 120 = -(a * 1000) / 120 :=
        Int.tdiv_eq_ediv_of_nonneg (by omega)
      rw [Int.neg_tdiv] at positive
      omega
    · rw [Int.tdiv_eq_ediv_of_nonneg (by omega)] at same
      omega
  · rintro rfl
    rw [Int.tdiv_eq_ediv_of_nonneg (by omega)]
    norm_cast

theorem coveredMsec_exact (numsamples stepsize : Int32)
    : (coveredMsec numsamples stepsize).exact
      = (numsamples.toInt * stepsize.toInt * 1000).tdiv 120 := by
  change (numsamples.toInt * 1000 * stepsize.toInt).tdiv 120 = _
  rw [mul_right_comm]

/-- Where nothing overflows, the end time is that of `span` samples just when the count times
the step size is this number.
-/
theorem endTime_eq_iff {timestampcass : Int64} {numsamples stepsize : Int32} {span : Nat}
    (inRange : (coveredMsec numsamples stepsize).InRange) (small : span * 1000 / 120 < 2 ^ 63)
    : (endTime timestampcass numsamples stepsize).toUInt64
        = timestampcass.toUInt64 + (span * 1000 / 120).toUInt64
      ↔ numsamples.toInt * stepsize.toInt = span := by
  have value := inRange.toInt_eval
  rw [coveredMsec_exact] at value
  rw [← tdiv_eq_iff, ← value, endTime_eq, Int64.toUInt64_add]
  generalize (coveredMsec numsamples stepsize).eval = msec
  generalize span * 1000 / 120 = duration at small ⊢
  constructor
  · intro same
    have same := congrArg UInt64.toInt64 (UInt64.add_right_inj _ |>.mp same)
    have toInt := congrArg Int64.toInt same
    rw [Int64.toInt64_toUInt64, Int32.toInt_toInt64, toInt_toInt64] at toInt
    · rw [toInt, Nat.toUInt64_eq, UInt64.toNat_ofNat', Nat.mod_eq_of_lt (by omega)]
    · rw [Nat.toUInt64_eq, UInt64.toNat_ofNat']
      omega
  · intro same
    have toInt : msec.toInt64 = duration.toUInt64.toInt64 := by
      refine Int64.toInt_inj.mp ?_
      rw [Int32.toInt_toInt64, toInt_toInt64, same, Nat.toUInt64_eq, UInt64.toNat_ofNat',
        Nat.mod_eq_of_lt (by omega)]
      rw [Nat.toUInt64_eq, UInt64.toNat_ofNat']
      omega
    rw [toInt, UInt64.toUInt64_toInt64]

-----------------------------------------------------------------------------------------
-- What is returned, and what is computed
-----------------------------------------------------------------------------------------

/-- How many samples of a device the returned ones of each set stand for. -/
def OutputSet.spans (r : Request) (found : Text × List CassRow) (output : OutputSet) : List Nat :=
  (r.sets.zip output.sampleset).map fun set =>
    set.1.1.covers (trimmed r found.2).length r.stepsize.toUInt32 set.2.sample.length

/-- The number of samples that the returned ones cover. -/
def Cassspeed.span (payload : Cassspeed) (r : Request) (found : List (Text × List CassRow)) : Nat :=
  ((found.zip payload.outputsets).flatMap fun device => device.2.spans r device.1).foldl max 0

/-- The end time is the start time and what the returned samples cover, rounded down, and no
part of it overflows.
-/
def EndsRight (r : Request) (found : List (Text × List CassRow)) (payload : Cassspeed) : Prop :=
  ∃ start count, payload.timestampstart = some start
    ∧ payload.numsamples = some (Int32.toUInt32 count)
    ∧ (coveredMsec count r.stepsize).InRange
    ∧ payload.timestampend = some (start + (payload.span r found * 1000 / 120).toUInt64)

namespace Request

variable (r : Request)

/-- The number of outputs of a compression for a device. -/
def outputs (device : Text × List CassRow) (set : Compression × Channel) : Nat :=
  set.1.outputs (trimmed r device.2).length r.stepsize.toUInt32

/-- `numsamples` at the end: what the last compressor stores for the last device, if any. -/
def lastCount (v : Int32) (found : List (Text × List CassRow)) : Int32 :=
  match r.sets.getLast?, found.getLast? with
  | some set, some device => Int32.ofNat (r.outputs device set)
  | _, _ => v

/-- How many samples of a device a compression covers. -/
def covers (device : Text × List CassRow) (set : Compression × Channel) : Nat :=
  set.1.covers (trimmed r device.2).length r.stepsize.toUInt32 (r.outputs device set)

/-- The most samples that a requested compression covers of a device. -/
def widest (found : List (Text × List CassRow)) : Nat :=
  (found.flatMap fun device => r.sets.map (r.covers device)).foldl max 0

end Request

section Payload

variable {v w : Int32} {r : Request} {device : Text × List CassRow}
  {found : List (Text × List CassRow)}
  {output : OutputSet} {outputsets : List OutputSet}

/-- Twelve vectors of four-byte samples fit into the memory. -/
def FitsMemory (rows : List CassRow) : Prop :=
  48 * (rows.flatMap CassRow.samples).length < 2 ^ 64

theorem trimmed_length_le (fits : FitsMemory device.2)
    : 48 * (trimmed r device.2).length < 2 ^ 64 := by
  rw [FitsMemory] at fits
  rw [trimmed, List.length_drop]
  omega

theorem sample_length (fits : FitsMemory device.2) {set : Compression × Channel}
    {entry : SampleSet} (answers : entry.Answers (trimmed r device.2) r.stepsize set)
    : entry.sample.length = r.outputs device set := by
  have memory := @trimmed_length_le r device fits
  have length := compressor_length (by rw [List.length_map]; omega) answers.sample
  rw [List.length_map] at length
  exact length

/-- Two lists that go together, by a function of the first one. -/
theorem map_zip_eq {α β γ : Type} {R : α → β → Prop} {f : α × β → γ} {g : α → γ} {xs : List α}
    {ys : List β} (related : List.Forall₂ R xs ys) (same : ∀ x y, R x y → f (x, y) = g x)
    : (xs.zip ys).map f = xs.map g := by
  induction related with
  | nil => rfl
  | cons first _ ih => rw [List.zip_cons_cons, List.map_cons, List.map_cons, ih, same _ _ first]

theorem spans_eq (fits : FitsMemory device.2) (answers : output.Answers r device)
    : output.spans r device = r.sets.map (r.covers device) := by
  refine map_zip_eq answers.sampleset fun set entry answer => ?_
  rw [sample_length fits answer, Request.covers]

/-- The number of samples that are covered, from the lengths of the vectors alone. -/
theorem span_eq {payload : Cassspeed} (fits : ∀ device ∈ found, FitsMemory device.2)
    (answers : List.Forall₂ (OutputSet.Answers r) found payload.outputsets)
    : payload.span r found = r.widest found := by
  rw [Cassspeed.span, Request.widest, List.flatMap_def, List.flatMap_def]
  congr 2
  have each
      : List.Forall₂ (fun device output => FitsMemory device.2 ∧ OutputSet.Answers r device output)
        found payload.outputsets :=
    (List.forall₂_and_left _ _).mpr ⟨fits, answers⟩
  exact map_zip_eq each fun device output both => spans_eq both.1 both.2

/-- A loop whose turns forget what came before ends with its last element. -/
theorem foldl_forget {α β : Type} (f : α → β) (xs : List α) (b : β)
    : xs.foldl (fun _ x => f x) b = (xs.getLast?.map f).getD b := by
  induction xs using List.reverseRecOn with
  | nil => rfl
  | append_singleton xs x ih => simp

theorem lastStored_eq (fits : FitsMemory device.2) (answers : output.Answers r device)
    : lastStored v output.sampleset
      = (r.sets.getLast?.map fun set => Int32.ofNat (r.outputs device set)).getD v := by
  rw [← foldl_forget]
  have sets := answers.sampleset
  rw [lastStored]
  generalize r.sets = requested at sets
  generalize output.sampleset = sampleset at sets
  induction sets generalizing v with
  | nil => rfl
  | cons first _ ih =>
      rw [List.foldl_cons, List.foldl_cons, ih, sample_length fits first]

theorem lastStoredAll_eq (fits : ∀ device ∈ found, FitsMemory device.2)
    (answers : List.Forall₂ (OutputSet.Answers r) found outputsets)
    : lastStoredAll v outputsets = r.lastCount v found := by
  have folded
      : lastStoredAll v outputsets
        = found.foldl (fun v device =>
            (r.sets.getLast?.map fun set => Int32.ofNat (r.outputs device set)).getD v) v := by
    rw [lastStoredAll]
    induction answers generalizing v with
    | nil => rfl
    | cons first _ ih =>
        rw [List.foldl_cons, List.foldl_cons, lastStored_eq (fits _ List.mem_cons_self) first]
        exact ih fun other member => fits other (List.mem_cons_of_mem _ member)
  rw [folded, Request.lastCount]
  cases r.sets.getLast? with
  | none => exact List.foldl_fixed' (fun _ => rfl) _
  | some set =>
      refine (foldl_forget (fun device => Int32.ofNat (r.outputs device set)) found v).trans ?_
      cases found.getLast? <;> rfl

theorem covers_le_widest {device : Text × List CassRow} {set : Compression × Channel}
    (inside : device ∈ found) (requested : set ∈ r.sets)
    : r.covers device set ≤ r.widest found := by
  refine (foldl_max_isGreatest id 0 (found.flatMap fun device => r.sets.map (r.covers device))).2
    (.inr ⟨r.covers device set, ?_, rfl⟩)
  exact List.mem_flatMap.mpr ⟨device, inside, List.mem_map_of_mem requested⟩

theorem widest_eq {m : Nat}
    (bound : ∀ device ∈ found, ∀ set ∈ r.sets, r.covers device set ≤ m)
    (reached : m = 0 ∨ ∃ device ∈ found, ∃ set ∈ r.sets, r.covers device set = m)
    : r.widest found = m := by
  refine (foldl_max_isGreatest id 0
    (found.flatMap fun device => r.sets.map (r.covers device))).unique ⟨?_, ?_⟩
  · rcases reached with rfl | ⟨device, inside, set, requested, rfl⟩
    · exact Set.mem_insert _ _
    · exact .inr ⟨_, List.mem_flatMap.mpr ⟨device, inside, List.mem_map_of_mem requested⟩, rfl⟩
  · rintro other (rfl | ⟨covered, member, rfl⟩)
    · exact Nat.zero_le m
    · obtain ⟨device, inside, member⟩ := List.mem_flatMap.mp member
      obtain ⟨set, requested, rfl⟩ := List.mem_map.mp member
      exact bound device inside set requested

theorem widest_lt {m : Nat} (positive : 0 < m)
    (bound : ∀ device ∈ found, ∀ set ∈ r.sets, r.covers device set < m)
    : r.widest found < m := by
  have greatest := (foldl_max_isGreatest id 0 (found.flatMap fun device =>
    r.sets.map (r.covers device))).1
  change r.widest found = 0 ∨ _ at greatest
  rcases greatest with zero | ⟨covered, member, same⟩
  · rw [zero]
    exact positive
  · obtain ⟨device, inside, member⟩ := List.mem_flatMap.mp member
    obtain ⟨set, requested, rfl⟩ := List.mem_map.mp member
    change r.covers device set = r.widest found at same
    rw [← same]
    exact bound device inside set requested

/-- No compression covers more than there is. -/
theorem covers_le_length {set : Compression × Channel}
    : r.covers device set ≤ (trimmed r device.2).length := by
  rw [Request.covers, Request.outputs]
  cases set.1 with
  | raw => exact le_rfl
  | min | max | avg | skip => exact min_le_left _ _

theorem widest_small (fits : ∀ device ∈ found, FitsMemory device.2)
    : r.widest found * 1000 / 120 < 2 ^ 63 := by
  have few : r.widest found < 2 ^ 59 := by
    refine widest_lt (by decide) fun device inside set _ => ?_
    have covered := @covers_le_length r device set
    have memory := @trimmed_length_le r device (fits device inside)
    omega
  omega

end Payload

/-- The end time is right just when nothing overflows, and the number that the last compressor
stores for the last device, times the step size, is the most that a requested compression covers
of any device.
-/
theorem timestampend_count_iff {archive : Archive} {c : Connection} {v w : Int32} {r : Request}
    {payload : Cassspeed} (parsed : parseRequest (receive c.sent c.beyond) = .ok r)
    (responds : (socketHandler archive c).run v = (.ok (.payload payload), w))
    (fits : ∀ device ∈ r.found archive, FitsMemory device.2)
    : EndsRight r (r.found archive) payload
      ↔ (coveredMsec (r.lastCount v (r.found archive)) r.stepsize).InRange
        ∧ (r.lastCount v (r.found archive)).toInt * r.stepsize.toInt
          = r.widest (r.found archive) := by
  obtain ⟨r', parsed', answers⟩ := socketHandler_leads (Program.leads_eq_iff.mpr responds)
  obtain rfl := Except.ok.inj (parsed.symm.trans parsed')
  have summary := answers.summary
  rw [lastStoredAll_eq fits answers.outputsets] at summary
  obtain ⟨_, rfl, finish⟩ := summary.timestampend
  obtain ⟨_, rfl, stored⟩ := summary.numsamples
  have span := span_eq fits answers.outputsets
  have small : r.widest (r.found archive) * 1000 / 120 < 2 ^ 63 := widest_small fits
  constructor
  · rintro ⟨start, count, begins, counted, inRange, ends⟩
    rw [summary.timestampstart] at begins
    obtain rfl := Option.some.inj begins
    rw [stored] at counted
    have same := congrArg UInt32.toInt32 (Option.some.inj counted)
    rw [Int32.toInt32_toUInt32, Int32.toInt32_toUInt32] at same
    obtain rfl := same
    have ends := Option.some.inj (finish.symm.trans ends)
    rw [span] at ends
    exact ⟨inRange, (endTime_eq_iff inRange small).mp ends⟩
  · rintro ⟨inRange, same⟩
    refine ⟨_, _, summary.timestampstart, stored, inRange, ?_⟩
    rw [finish, span, (endTime_eq_iff inRange small).mpr same]

end Sparcs.CassSpeed
