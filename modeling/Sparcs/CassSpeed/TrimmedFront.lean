import Mathlib.Data.Rat.Floor
import Sparcs.CassSpeed.HandlerAnswers

/-! When the samples of a row were recorded, and which of them are cut away at the front. How
many these are is computed from the start time alone.
-/

namespace Sparcs.CassSpeed

/-- A row as the archivers store it: 120 samples of a second of the calendar. -/
structure CassRow.Archived (row : CassRow) : Prop where
  second : ∃ e : Int, e < 4294967296 ∧ row.timestampMsec.toInt = 1000 * e
  numsamples : row.data.numsamples = 120
  sample : row.data.sample.length = 120

/-- The milliseconds at which the samples of a row were recorded. -/
def CassRow.times (row : CassRow) : List ℚ :=
  (List.range row.data.numsamples.toNat).map fun k : Nat =>
    (row.timestampMsec.toInt : ℚ) + k * 1000 / 120

def recordedTimes (rows : List CassRow) : List ℚ := rows.flatMap CassRow.times

namespace Request

/-- `tmp` -/
def start (r : Request) : UInt64 := readUInt64 r.timestampstart

/-- The times of the samples that are cut away. -/
def cutTimes (r : Request) (rows : List CassRow) : List ℚ :=
  (recordedTimes rows).take r.skip.toInt.toNat

/-- The times of the samples that are left. -/
def leftTimes (r : Request) (rows : List CassRow) : List ℚ :=
  (recordedTimes rows).drop r.skip.toInt.toNat

end Request

-----------------------------------------------------------------------------------------
-- The number of samples
-----------------------------------------------------------------------------------------

theorem samplesToSkip_small
    : ∀ n < 1000, (samplesToSkip (UInt64.ofNat n)).toInt = (n * 120 / 1000 : Nat) := by
  decide +kernel

/-- The division by a rounded constant is exact after truncation. -/
theorem samplesToSkip_toInt (tmp : UInt64)
    : (samplesToSkip tmp).toInt = (tmp.toNat % 1000 * 120 / 1000 : Nat) := by
  have rest : tmp % 1000 = UInt64.ofNat (tmp.toNat % 1000) := by
    have below : tmp.toNat % 1000 < 2 ^ 64 := lt_trans (Nat.mod_lt _ (by decide)) (by decide)
    refine UInt64.toNat.inj ?_
    rw [UInt64.toNat_mod, UInt64.toNat_ofNat', Nat.mod_eq_of_lt below]
    rfl
  have small := samplesToSkip_small (tmp.toNat % 1000) (Nat.mod_lt _ (by decide))
  rw [← rest, samplesToSkip] at small
  have again : tmp % 1000 % 1000 = tmp % 1000 := by
    refine UInt64.toNat.inj ?_
    rw [UInt64.toNat_mod, UInt64.toNat_mod, Nat.mod_mod]
  rw [again] at small
  exact small

theorem Request.skip_toInt (r : Request)
    : r.skip.toInt = (r.start.toNat % 1000 * 120 / 1000 : Nat) :=
  samplesToSkip_toInt _

theorem Request.skip_toNat (r : Request)
    : r.skip.toInt.toNat = r.start.toNat % 1000 * 120 / 1000 := by
  rw [r.skip_toInt, Int.toNat_natCast]

/-- Never as many as a second has. -/
theorem Request.skip_lt (r : Request) : r.skip.toInt.toNat < 120 := by
  rw [r.skip_toNat]
  omega

-----------------------------------------------------------------------------------------
-- Archived rows
-----------------------------------------------------------------------------------------

section Rows

variable {row : CassRow} {rows : List CassRow} {r : Request}

namespace CassRow.Archived

theorem readable (archived : row.Archived) : row.Readable := by
  rw [CassRow.Readable, archived.numsamples, archived.sample]
  decide

theorem length_samples (archived : row.Archived) : row.samples.length = 120 := by
  rw [CassRow.samples, List.length_take, archived.numsamples, archived.sample]
  decide

theorem length_times (archived : row.Archived) : row.times.length = 120 := by
  rw [CassRow.times, List.length_map, List.length_range, archived.numsamples]
  rfl

theorem mem_times_iff (archived : row.Archived) {time : ℚ}
    : time ∈ row.times
      ↔ ∃ k < 120, time = row.timestampMsec.toInt + (k : ℕ) * 1000 / 120 := by
  rw [CassRow.times, archived.numsamples, List.mem_map]
  simp only [List.mem_range, @eq_comm _ time]
  exact Iff.rfl

/-- The samples that come first were recorded first. -/
theorem mem_take_times_iff (archived : row.Archived) {n : Nat} (few : n ≤ 120) {time : ℚ}
    : time ∈ row.times.take n
      ↔ ∃ k < n, time = row.timestampMsec.toInt + (k : ℕ) * 1000 / 120 := by
  have count : row.data.numsamples.toNat = 120 := by
    rw [archived.numsamples]
    decide
  rw [CassRow.times, count, ← List.map_take, List.take_range, Nat.min_eq_left few, List.mem_map]
  simp only [List.mem_range, @eq_comm _ time]

end CassRow.Archived

theorem length_flatMap_samples (archived : ∀ row ∈ rows, row.Archived)
    : (rows.flatMap CassRow.samples).length = 120 * rows.length := by
  induction rows with
  | nil => rfl
  | cons row rows ih =>
      rw [List.flatMap_cons, List.length_append, ih fun other member =>
        archived other (List.mem_cons_of_mem _ member),
        (archived row List.mem_cons_self).length_samples, List.length_cons]
      ring

/-- Only the first row is cut. -/
theorem cutTimes_cons (archived : row.Archived)
    : r.cutTimes (row :: rows) = row.times.take r.skip.toInt.toNat := by
  rw [Request.cutTimes, recordedTimes, List.flatMap_cons, List.take_append_of_le_length]
  rw [archived.length_times]
  exact r.skip_lt.le

end Rows

-----------------------------------------------------------------------------------------
-- The front
-----------------------------------------------------------------------------------------

/-- Cutting the front stays inside the vectors, and takes no sample that was recorded at the
start or after it.
-/
def CutsBefore (r : Request) (rows : List CassRow) : Prop :=
  (∀ oldest, ∃ read left, readRows oldest rows = .ok read ∧ eraseFront read.2 r.skip = .ok left)
  ∧ ∀ time ∈ r.cutTimes rows, time < r.start.toNat

/-- The first row is the second that contains the start. -/
def BeginsAtStart (r : Request) (rows : List CassRow) : Prop :=
  ∃ first later, rows = first :: later
    ∧ first.timestampMsec.toInt = 1000 * (r.start.toNat / 1000 : Nat)

variable {r : Request} {rows : List CassRow}

theorem erases_iff (archived : ∀ row ∈ rows, row.Archived)
    : (∀ oldest, ∃ read left,
          readRows oldest rows = .ok read ∧ eraseFront read.2 r.skip = .ok left)
      ↔ r.skip.toInt.toNat = 0 ∨ rows ≠ [] := by
  have enough : r.skip.toInt.toNat ≤ (rows.flatMap CassRow.samples).length
      ↔ r.skip.toInt.toNat = 0 ∨ rows ≠ [] := by
    rw [length_flatMap_samples archived, ← List.length_pos_iff]
    have few := r.skip_lt
    omega
  rw [← enough]
  constructor
  · intro erases
    obtain ⟨⟨_, samples⟩, left, read, erased⟩ := erases (unseen 0)
    obtain ⟨-, -, rfl⟩ := readRows_eq_ok_iff.mp read
    exact (eraseFront_eq_ok_iff.mp erased).1
  · intro enough oldest
    exact ⟨_, _,
      readRows_eq_ok_iff.mpr ⟨fun row member => (archived row member).readable, rfl, rfl⟩,
      eraseFront_eq_ok_iff.mpr ⟨enough, rfl⟩⟩

/-- A second that the query finds does not end before the start. -/
theorem found_second_le {row : CassRow} (archived : row.Archived)
    (found : (r.query.timestampstart.toNat : Int) ≤ row.timestampMsec.toInt)
    : 1000 * ((r.start.toNat / 1000 : Nat) : Int) ≤ row.timestampMsec.toInt := by
  obtain ⟨e, -, second⟩ := archived.second
  have bounded := row.timestampMsec.toInt_lt
  have shifted : r.query.timestampstart = r.start - 999 := rfl
  by_cases early : (999 : UInt64) ≤ r.start
  · rw [shifted, UInt64.toNat_sub_of_le _ _ early] at found
    change ((r.start.toNat - 999 : Nat) : Int) ≤ _ at found
    omega
  · rw [UInt64.le_iff_toNat_le] at early
    change ¬999 ≤ r.start.toNat at early
    rw [shifted, UInt64.toNat_sub] at found
    change (((2 ^ 64 - 999 + r.start.toNat) % 2 ^ 64 : Nat) : Int) ≤ _ at found
    omega

/-- Of any archived seconds that the query finds, in any order, the front is cut rightly just
when nothing is cut, or the first row is the second that contains the start.
-/
theorem cutsBefore_iff (r : Request) (rows : List CassRow)
    (archived : ∀ row ∈ rows, row.Archived)
    (found : ∀ row ∈ rows, (r.query.timestampstart.toNat : Int) ≤ row.timestampMsec.toInt)
    : CutsBefore r rows ↔ r.start.toNat % 1000 ≤ 8 ∨ BeginsAtStart r rows := by
  have skip := r.skip_toNat
  rw [CutsBefore, erases_iff archived]
  cases rows with
  | nil =>
      have noBeginning : ¬BeginsAtStart r [] := by
        rintro ⟨_, _, split, -⟩
        cases split
      have nothing : r.cutTimes [] = [] := List.take_nil
      simp only [noBeginning, nothing, ne_eq, not_true_eq_false, or_false, List.not_mem_nil,
        false_implies, implies_true, and_true]
      omega
  | cons first later =>
      have whole := archived first List.mem_cons_self
      have begins : BeginsAtStart r (first :: later)
          ↔ first.timestampMsec.toInt = 1000 * (r.start.toNat / 1000 : Nat) := by
        constructor
        · rintro ⟨_, _, split, same⟩
          obtain ⟨rfl, -⟩ := List.cons.inj split
          exact same
        · exact fun same => ⟨first, later, rfl, same⟩
      have above := found_second_le whole (found first List.mem_cons_self)
      rw [begins, cutTimes_cons whole]
      simp only [ne_eq, reduceCtorEq, not_false_eq_true, or_true, true_and]
      constructor
      · intro before
        by_cases early : r.start.toNat % 1000 ≤ 8
        · exact .inl early
        · have cut := before first.timestampMsec.toInt
            ((whole.mem_take_times_iff r.skip_lt.le).mpr ⟨0, by omega, by simp⟩)
          have cut : first.timestampMsec.toInt < r.start.toNat := by exact_mod_cast cut
          obtain ⟨e, -, second⟩ := whole.second
          right
          omega
      · intro condition time member
        obtain ⟨k, cut, rfl⟩ := (whole.mem_take_times_iff r.skip_lt.le).mp member
        rcases condition with empty | same
        · omega
        · have inside : k * 1000 < r.start.toNat % 1000 * 120 := by omega
          have inside : (k : ℚ) * 1000 < (r.start.toNat % 1000 : Nat) * 120 := by
            exact_mod_cast inside
          have split : (r.start.toNat : ℚ)
              = 1000 * (r.start.toNat / 1000 : Nat) + (r.start.toNat % 1000 : Nat) := by
            exact_mod_cast (Nat.div_add_mod r.start.toNat 1000).symm
          rw [same, split, Int.cast_mul, Int.cast_natCast]
          linarith

/-- A request from the middle of a second on. -/
def fromHalf : Request :=
  { devices := ["P3001199".toList], nosamplesets := 1, timestampstart := "1480355400500".toList,
    timestampend := "1480355402000".toList, requested := true :: List.replicate 11 false,
    compressionMethod := 16, stepsize := 1 }

/-- A second of samples that all are zero. -/
def zerosOf (e : Nat) : CassRow :=
  { timestampMsec := Int64.ofInt (1000 * e), data := zeroSecond.data }

theorem zerosOf_toInt {e : Nat} (small : e < 4294967296)
    : (zerosOf e).timestampMsec.toInt = 1000 * e :=
  Int64.toInt_ofInt_of_le (by simp; omega) (by simp; omega)

theorem zerosOf_archived {e : Nat} (small : e < 4294967296) : (zerosOf e).Archived where
  second := ⟨e, by omega, zerosOf_toInt small⟩
  numsamples := rfl
  sample := List.length_replicate

/-- The second with the start is there: half of its samples are cut away. -/
theorem cutsBefore_iff_half : CutsBefore fromHalf [zerosOf 1480355400] :=
  (cutsBefore_iff fromHalf [zerosOf 1480355400]
    (by simpa using zerosOf_archived (by decide)) (by decide +kernel)).mpr
    (.inr ⟨_, [], rfl, by decide +kernel⟩)

/-- Without rows, `erase` leaves the vectors; when the first second is missing, it takes half of
the next one.
-/
theorem cut_missingSecond
    : ¬CutsBefore fromHalf [] ∧ ¬CutsBefore fromHalf [zerosOf 1480355401] := by
  constructor
  · rintro ⟨erases, -⟩
    rcases (erases_iff (by simp)).mp erases with uncut | cutsAny
    · exact absurd uncut (by decide +kernel)
    · exact cutsAny rfl
  · rintro ⟨-, before⟩
    have archived : (zerosOf 1480355401).Archived := zerosOf_archived (by decide)
    have start : fromHalf.start.toNat = 1480355400500 := by decide +kernel
    have cut := before 1480355401000 (by
      rw [cutTimes_cons archived]
      refine (archived.mem_take_times_iff fromHalf.skip_lt.le).mpr ⟨0, by decide +kernel, ?_⟩
      rw [zerosOf_toInt (by decide)]
      norm_num)
    rw [start] at cut
    norm_num at cut

end Sparcs.CassSpeed
