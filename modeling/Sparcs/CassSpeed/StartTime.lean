import Sparcs.Library.Extremes
import Sparcs.Library.FloatRounding
import Sparcs.CassSpeed.TrimmedFront

/-! The start time of a response. One running minimum serves all devices, and each device moves
it on by the time of the samples that are cut away: a device that comes after the earliest one
moves it once too often.
-/

namespace Sparcs.CassSpeed

open Extremes FloatRounding

-----------------------------------------------------------------------------------------
-- The time of the samples that are cut away
-----------------------------------------------------------------------------------------

/-- `samples_to_skip*8.33333` -/
def skippedTime (skip : Int32) : Float.Model :=
  (Float.ofModel (Float.Model.ofInt32 skip) * 8.33333).toModel

/-- The whole milliseconds of some samples, less one when there is no fraction. -/
def wholeTime (s : Nat) : Nat := (25 * s - 1) / 3

theorem skippedTime_between
    : ∀ s < 120, 0 < s →
        Between (wholeTime s) (wholeTime s + 1) (skippedTime (Int32.ofNat s)).unpack := by
  decide +kernel

theorem skipTime_eq (timestampcass : Int64) (skip : Int32)
    : skipTime timestampcass skip
      = (Float.Model.ofInt64 timestampcass + skippedTime skip).toInt64 :=
  rfl

section SkipTime

variable {timestampcass : Int64} {skip : Int32} {n s : Nat}

/-- The last time of an archived second, with one more second behind it. -/
def lastTime : Nat := 4294967296 * 1000 + 1000

theorem skipTime_zero (time : timestampcass.toInt = n) (small : n < lastTime)
    (skipped : skip.toInt = 0)
    : (skipTime timestampcass skip).toInt = n := by
  obtain rfl : skip = 0 := Int32.toInt_inj.mp skipped
  have zero : (skippedTime 0).unpack = .zero .positive := rfl
  rw [skipTime_eq]
  exact toInt64_add_zero time zero (lt_trans small (by decide))

theorem skipTime_between (time : timestampcass.toInt = n) (small : n < lastTime)
    (skipped : skip.toInt = s) (positive : 0 < s) (few : s < 120)
    : (n + wholeTime s : Int) ≤ (skipTime timestampcass skip).toInt
      ∧ (skipTime timestampcass skip).toInt ≤ n + wholeTime s + 1 := by
  obtain rfl : skip = Int32.ofNat s := by
    refine Int32.toInt_inj.mp ?_
    rw [skipped, Int32.toInt_ofNat_of_lt (by omega)]
  obtain ⟨m, j, stores, lower, upper⟩ := (skippedTime_between s few positive).stores
  have whole : wholeTime s < 1000 := by rw [wholeTime]; omega
  have limit : lastTime + 1000 < 2 ^ 52 := by decide
  have between := toInt64_add_between time stores lower upper (by omega)
  rw [skipTime_eq]
  push_cast at between
  omega

end SkipTime

-----------------------------------------------------------------------------------------
-- The running minimum
-----------------------------------------------------------------------------------------

/-- The time of a row, as a number. -/
def CassRow.time (row : CassRow) : Int := row.timestampMsec.toInt

/-- A time has been seen, and it is the least of these. -/
def Oldest.IsLeastOf (oldest : Oldest) (times : Set Int) : Prop :=
  oldest.firstsample = false ∧ IsLeast times oldest.timestampcass.toInt

theorem see_toInt {oldest : Oldest} (seen : oldest.firstsample = false) (t : Int64)
    : (oldest.see t).firstsample = false
      ∧ (oldest.see t).timestampcass.toInt = min oldest.timestampcass.toInt t.toInt := by
  rw [Oldest.see, seen]
  simp only [Bool.false_eq_true, if_false]
  split_ifs with earlier
  · exact ⟨rfl, (min_eq_right (Int64.lt_iff_toInt_lt.mp earlier).le).symm⟩
  · rw [Int64.lt_iff_toInt_lt, not_lt] at earlier
    exact ⟨seen, (min_eq_left earlier).symm⟩

theorem seeAll_toInt {oldest : Oldest} (seen : oldest.firstsample = false) (rows : List CassRow)
    : (oldest.seeAll rows).firstsample = false
      ∧ (oldest.seeAll rows).timestampcass.toInt
        = rows.foldl (fun least row => min least row.time) oldest.timestampcass.toInt := by
  induction rows generalizing oldest with
  | nil => exact ⟨seen, rfl⟩
  | cons row rows ih =>
      obtain ⟨seen, time⟩ := see_toInt seen row.timestampMsec
      have later := ih seen
      rw [time] at later
      exact later

/-- After some time has been seen, the rows of a device are compared with it. -/
theorem seeAll_isLeastOf {oldest : Oldest} (seen : oldest.firstsample = false)
    (rows : List CassRow)
    : (oldest.seeAll rows).IsLeastOf
        (insert oldest.timestampcass.toInt (CassRow.time '' {row | row ∈ rows})) := by
  obtain ⟨still, time⟩ := seeAll_toInt seen rows
  refine ⟨still, ?_⟩
  rw [time]
  exact foldl_min_isLeast CassRow.time _ rows

/-- Before, the first row sets it. -/
theorem seeAll_isLeastOf_first {oldest : Oldest} (unseen : oldest.firstsample = true)
    {rows : List CassRow} (nonempty : rows ≠ [])
    : (oldest.seeAll rows).IsLeastOf (CassRow.time '' {row | row ∈ rows}) := by
  cases rows with
  | nil => exact absurd rfl nonempty
  | cons row rows =>
      have sets : oldest.see row.timestampMsec
          = { firstsample := false, timestampcass := row.timestampMsec } := by
        rw [Oldest.see, unseen, if_pos rfl]
      have least := @seeAll_isLeastOf (oldest.see row.timestampMsec) (by rw [sets]) rows
      rw [sets] at least
      have times : CassRow.time '' {other | other ∈ row :: rows}
          = insert row.timestampMsec.toInt (CassRow.time '' {other | other ∈ rows}) := by
        rw [← show row.time = row.timestampMsec.toInt from rfl, ← Set.image_insert_eq]
        congr 1
        ext other
        simp
      rw [times, Oldest.seeAll, List.foldl_cons, sets]
      exact least

-----------------------------------------------------------------------------------------
-- The devices one after the other
-----------------------------------------------------------------------------------------

def secondsOf (rows : List CassRow) : Set Int := CassRow.time '' {row | row ∈ rows}

/-- The seconds that are found for any of the devices. -/
def allSeconds (found : List (Text × List CassRow)) : Set Int :=
  {t | ∃ device ∈ found, t ∈ secondsOf device.2}

/-- All times are seconds since 1970. -/
def AreSeconds (rows : List CassRow) : Prop :=
  ∀ t ∈ secondsOf rows, ∃ e : Nat, e < 4294967296 ∧ t = 1000 * e

section Devices

variable {r : Request} {oldest : Oldest} {rows : List CassRow} {device : Text × List CassRow}
  {found : List (Text × List CassRow)} {s : Nat}

theorem allSeconds_append
    : allSeconds (found ++ [device]) = allSeconds found ∪ secondsOf device.2 := by
  ext t
  simp only [allSeconds, List.mem_append, List.mem_singleton, Set.mem_ofPred_eq, Set.mem_union]
  constructor
  · rintro ⟨other, member | rfl, second⟩
    · exact .inl ⟨other, member, second⟩
    · exact .inr second
  · rintro (⟨other, member, second⟩ | second)
    · exact ⟨other, .inl member, second⟩
    · exact ⟨device, .inr rfl, second⟩

/-- What is seen so far, when nothing is cut away. -/
def Oldest.Seen (oldest : Oldest) (times : Set Int) : Prop :=
  oldest.firstsample = true ∧ times = ∅
  ∨ oldest.IsLeastOf times ∧ ∃ e : Nat, e < lastTime ∧ oldest.timestampcass.toInt = e

/-- A device whose front stays moves nothing. -/
theorem passDevice_seen (unskipped : r.skip.toInt = 0) {times : Set Int} (seen : oldest.Seen times)
    (seconds : AreSeconds rows)
    : (oldest.passDevice r rows).Seen (times ∪ secondsOf rows) := by
  have moves {least : Oldest} {t : Nat} (small : t < lastTime)
      (time : least.timestampcass.toInt = t) {all : Set Int} (isLeast : least.IsLeastOf all)
      : Oldest.Seen { least with timestampcass := skipTime least.timestampcass r.skip } all := by
    have same := skipTime_zero time small unskipped
    refine .inr ⟨⟨isLeast.1, ?_⟩, t, small, same⟩
    rw [same, ← time]
    exact isLeast.2
  have limit {t : Int} (second : t ∈ secondsOf rows) : ∃ e : Nat, e < lastTime ∧ t = e := by
    obtain ⟨e, small, rfl⟩ := seconds t second
    exact ⟨1000 * e, by rw [lastTime]; omega, by push_cast; rfl⟩
  rcases seen with ⟨unseen, rfl⟩ | ⟨isLeast, e, small, time⟩
  · rw [Set.empty_union]
    by_cases empty : rows = []
    · rw [empty]
      exact .inl ⟨unseen, by simp [secondsOf]⟩
    · have first := seeAll_isLeastOf_first unseen empty
      obtain ⟨e, small, time⟩ := limit first.2.1
      exact moves small time first
  · have later := seeAll_isLeastOf isLeast.1 rows
    have all : insert oldest.timestampcass.toInt (secondsOf rows) ⊆ times ∪ secondsOf rows :=
      Set.insert_subset (.inl isLeast.2.1) Set.subset_union_right
    have least : (oldest.seeAll rows).IsLeastOf (times ∪ secondsOf rows) := by
      refine ⟨later.1, all later.2.1, ?_⟩
      rintro t (before | now)
      · exact le_trans (later.2.2 (Set.mem_insert _ _)) (isLeast.2.2 before)
      · exact later.2.2 (Set.mem_insert_of_mem _ now)
    rcases later.2.1 with same | second
    · exact moves small (same.trans time) least
    · obtain ⟨e, small, time⟩ := limit second
      exact moves small time least

/-- The loop over the devices, by induction over them. -/
theorem passAll_seen (unskipped : r.skip.toInt = 0) (timestampcass : Int64)
    (seconds : ∀ device ∈ found, AreSeconds device.2)
    : ((unseen timestampcass).passAll r found).Seen (allSeconds found) := by
  induction found using List.reverseRecOn with
  | nil => exact .inl ⟨rfl, by simp [allSeconds]⟩
  | append_singleton found device ih =>
      have before := ih fun other member => seconds other (List.mem_append_left _ member)
      rw [Oldest.passAll, List.foldl_append, allSeconds_append]
      exact passDevice_seen unskipped before (seconds device (by simp))

/-- What is seen when the front of `s` samples is cut away: the earliest second moved on once
if the last device has it, and otherwise at least twice.
-/
structure Oldest.Shifted (oldest : Oldest) (s : Nat) (found : List (Text × List CassRow))
    (m : Int)
    : Prop where
  seen : oldest.firstsample = false
  second : ∃ e : Nat, m = 1000 * e
  least : IsLeast (allSeconds found) m
  bounded : oldest.timestampcass.toInt < lastTime
  once : m + wholeTime s ≤ oldest.timestampcass.toInt
  last
    : (∃ last ∈ found.getLast?, m ∈ secondsOf last.2)
        ∧ oldest.timestampcass.toInt ≤ m + wholeTime s + 1
      ∨ (∀ last ∈ found.getLast?, m ∉ secondsOf last.2)
        ∧ m + 2 * wholeTime s ≤ oldest.timestampcass.toInt

theorem wholeTime_bounds (positive : 0 < s) (few : s < 120)
    : 8 ≤ wholeTime s ∧ wholeTime s ≤ 991 := by
  rw [wholeTime]
  omega

theorem exists_isLeast (nonempty : rows ≠ []) : ∃ m, IsLeast (secondsOf rows) m :=
  ⟨_, (seeAll_isLeastOf_first (rfl : (unseen 0).firstsample = true) nonempty).2⟩

/-- The first device. -/
theorem passDevice_shifted_first (skipped : r.skip.toInt = s) (positive : 0 < s) (few : s < 120)
    (unseen : oldest.firstsample = true) (nonempty : device.2 ≠ []) (seconds : AreSeconds device.2)
    : ∃ m, (oldest.passDevice r device.2).Shifted s [device] m := by
  obtain ⟨seen, least⟩ := seeAll_isLeastOf_first unseen nonempty
  obtain ⟨e, small, second⟩ := seconds _ least.1
  have bounds := wholeTime_bounds positive few
  have limit : lastTime = 4294967296 * 1000 + 1000 := rfl
  have moved := skipTime_between (n := 1000 * e) (by rw [second]; push_cast; rfl) (by omega)
    skipped positive few
  refine ⟨1000 * e, seen, ⟨e, rfl⟩, ?_, ?_, ?_, .inl ⟨⟨device, rfl, ?_⟩, ?_⟩⟩
  · have alone : allSeconds [device] = secondsOf device.2 := by simp [allSeconds]
    rw [alone, ← second]
    exact least
  · exact lt_of_le_of_lt moved.2 (by push_cast; omega)
  · exact le_trans (by push_cast; omega) moved.1
  · rw [← second]
    exact least.1
  · exact le_trans moved.2 (by push_cast; omega)

/-- One more device. When its earliest second is not later than those before, the minimum
starts again there; otherwise it is moved on again.
-/
theorem passDevice_shifted (skipped : r.skip.toInt = s) (positive : 0 < s) (few : s < 120)
    {m : Int} (shifted : oldest.Shifted s found m) (nonempty : device.2 ≠ [])
    (seconds : AreSeconds device.2)
    : ∃ m', (oldest.passDevice r device.2).Shifted s (found ++ [device]) m' := by
  obtain ⟨earliest, least⟩ := exists_isLeast nonempty
  obtain ⟨e, rfl⟩ := shifted.second
  obtain ⟨e', small, rfl⟩ := seconds _ least.1
  obtain ⟨seen, compared⟩ := seeAll_isLeastOf shifted.seen device.2
  have time := compared.unique (least.insert oldest.timestampcass.toInt)
  have bounds := wholeTime_bounds positive few
  have limit : lastTime = 4294967296 * 1000 + 1000 := rfl
  have once := shifted.once
  have bounded := shifted.bounded
  obtain ⟨n, same⟩ : ∃ n : Nat, min oldest.timestampcass.toInt (1000 * (e' : Int)) = n :=
    Int.eq_ofNat_of_zero_le (by omega)
  rw [same] at time
  have moved := skipTime_between time (by omega) skipped positive few
  have all : IsLeast (allSeconds (found ++ [device])) (min (1000 * (e : Int)) (1000 * e')) := by
    rw [allSeconds_append]
    exact shifted.least.union least
  have getLast : (found ++ [device]).getLast? = .some device := List.getLast?_concat
  by_cases again : e' ≤ e
  · rw [min_eq_right (by omega)] at all
    refine ⟨1000 * e', seen, ⟨e', rfl⟩, all, lt_of_le_of_lt moved.2 (by omega),
      le_trans (by omega) moved.1, .inl ⟨⟨device, getLast, least.1⟩, le_trans moved.2 (by omega)⟩⟩
  · rw [min_eq_left (by omega)] at all
    refine ⟨1000 * e, seen, ⟨e, rfl⟩, all, lt_of_le_of_lt moved.2 (by omega),
      le_trans (by omega) moved.1, .inr ⟨?_, le_trans (by omega) moved.1⟩⟩
    rw [getLast]
    rintro _ ⟨⟩ second
    have := least.2 second
    omega

/-- The loop over the devices, each of which has rows. -/
theorem passAll_shifted (skipped : r.skip.toInt = s) (positive : 0 < s) (few : s < 120)
    (timestampcass : Int64) (any : found ≠ []) (filled : ∀ device ∈ found, device.2 ≠ [])
    (seconds : ∀ device ∈ found, AreSeconds device.2)
    : ∃ m, ((unseen timestampcass).passAll r found).Shifted s found m := by
  induction found using List.reverseRecOn with
  | nil => exact absurd rfl any
  | append_singleton found device ih =>
      have rows := filled device (by simp)
      have times := seconds device (by simp)
      rw [Oldest.passAll, List.foldl_append]
      by_cases first : found = []
      · rw [first]
        exact passDevice_shifted_first skipped positive few rfl rows times
      · obtain ⟨m, before⟩ := ih first
          (fun other member => filled other (List.mem_append_left _ member))
          (fun other member => seconds other (List.mem_append_left _ member))
        exact passDevice_shifted skipped positive few before rows times

end Devices

-----------------------------------------------------------------------------------------
-- The samples that are returned
-----------------------------------------------------------------------------------------

/-- The times of the samples that are returned for any of the devices. -/
def returnedTimes (r : Request) (found : List (Text × List CassRow)) : Set ℚ :=
  {time | ∃ device ∈ found, time ∈ r.leftTimes device.2}

/-- The start time of the payload is that of its first sample, to within a millisecond. -/
def StartsRight (r : Request) (found : List (Text × List CassRow)) (payload : Cassspeed) : Prop :=
  ∃ start earliest, payload.timestampstart = some start
    ∧ IsLeast (returnedTimes r found) earliest ∧ |(start.toNat : ℚ) - earliest| ≤ 1

/-- The earliest second that is found for any device is found for the last one too, and for no
device behind its first row.
-/
def LastBegins (found : List (Text × List CassRow)) : Prop :=
  ∃ m, IsLeast (allSeconds found) m ∧ (∃ last ∈ found.getLast?, m ∈ secondsOf last.2)
    ∧ ∀ device ∈ found, m ∉ secondsOf device.2.tail

section Returned

variable {r : Request} {first : CassRow} {rows : List CassRow}
  {found : List (Text × List CassRow)} {m : Int} {time : ℚ}

theorem mem_recordedTimes_iff (archived : ∀ row ∈ rows, row.Archived)
    : time ∈ recordedTimes rows
      ↔ ∃ row ∈ rows, ∃ k < 120, time = row.time + (k : ℕ) * 1000 / 120 := by
  rw [recordedTimes, List.mem_flatMap]
  refine exists_congr fun row => and_congr_right fun member => ?_
  exact (archived row member).mem_times_iff

theorem mem_leftTimes_iff (archived : ∀ row ∈ first :: rows, row.Archived)
    : time ∈ r.leftTimes (first :: rows)
      ↔ (∃ k, r.skip.toInt.toNat ≤ k ∧ k < 120 ∧ time = first.time + (k : ℕ) * 1000 / 120)
        ∨ time ∈ recordedTimes rows := by
  have whole := archived first List.mem_cons_self
  have count : first.data.numsamples.toNat = 120 := by
    rw [whole.numsamples]
    decide
  rw [Request.leftTimes, recordedTimes, List.flatMap_cons, List.drop_append_of_le_length
    (by rw [whole.length_times]; exact r.skip_lt.le), List.mem_append, CassRow.times, count,
    List.mem_drop_iff_getElem]
  refine or_congr_left ?_
  simp only [List.length_map, List.length_range, List.getElem_map, List.getElem_range]
  constructor
  · rintro ⟨k, inside, rfl⟩
    exact ⟨k + r.skip.toInt.toNat, by omega, by omega, by rw [Nat.add_comm]; rfl⟩
  · rintro ⟨k, behind, inside, rfl⟩
    refine ⟨k - r.skip.toInt.toNat, by omega, ?_⟩
    rw [Nat.add_sub_cancel' behind]
    rfl

/-- The rows that are found are archived seconds of the query. -/
def FoundRows (r : Request) (rows : List CassRow) : Prop :=
  ∀ row ∈ rows, row.Archived ∧ (r.query.timestampstart.toNat : Int) ≤ row.time

theorem FoundRows.archived (foundRows : FoundRows r rows) : ∀ row ∈ rows, row.Archived :=
  fun row member => (foundRows row member).1

theorem FoundRows.areSeconds (foundRows : FoundRows r rows) : AreSeconds rows := by
  rintro _ ⟨row, member, rfl⟩
  obtain ⟨archived, selected⟩ := foundRows row member
  obtain ⟨e, small, second⟩ := archived.second
  rw [← show row.time = row.timestampMsec.toInt from rfl] at second
  exact ⟨e.toNat, by omega, by omega⟩

theorem mem_allSeconds {device : Text × List CassRow} {row : CassRow} (member : device ∈ found)
    (inside : row ∈ device.2)
    : row.time ∈ allSeconds found :=
  ⟨device, member, row, inside, rfl⟩

/-- No sample that is returned is earlier than the earliest second. -/
theorem returned_ge (foundRows : ∀ device ∈ found, FoundRows r device.2)
    (least : IsLeast (allSeconds found) m) (returned : time ∈ returnedTimes r found)
    : (m : ℚ) ≤ time := by
  obtain ⟨device, member, left⟩ := returned
  have recorded : time ∈ recordedTimes device.2 := List.mem_of_mem_drop left
  obtain ⟨row, inside, k, -, rfl⟩ :=
    (mem_recordedTimes_iff (foundRows device member).archived).mp recorded
  have above : (m : ℚ) ≤ row.time := by exact_mod_cast least.2 (mem_allSeconds member inside)
  have later : (0 : ℚ) ≤ (k : ℚ) * 1000 / 120 := by positivity
  linarith

/-- When the earliest second is only cut at the front, the samples begin behind the cut. -/
theorem returned_ge_of_apart (foundRows : ∀ device ∈ found, FoundRows r device.2)
    (least : IsLeast (allSeconds found) m)
    (apart : ∀ device ∈ found, m ∉ secondsOf device.2.tail)
    (returned : time ∈ returnedTimes r found)
    : (m : ℚ) + (r.skip.toInt.toNat : ℚ) * 1000 / 120 ≤ time := by
  obtain ⟨device, member, left⟩ := returned
  have rows := foundRows device member
  have behind := apart device member
  have above (row : CassRow) (inside : row ∈ device.2) : m ≤ row.time :=
    least.2 (mem_allSeconds member inside)
  match rest : device.2 with
  | [] =>
      rw [rest, Request.leftTimes] at left
      simp [recordedTimes] at left
  | first :: others =>
      rw [rest] at left rows behind above
      rcases (mem_leftTimes_iff rows.archived).mp left with ⟨k, cut, -, rfl⟩ | recorded
      · have begins : (m : ℚ) ≤ first.time := by exact_mod_cast above first List.mem_cons_self
        have order : (r.skip.toInt.toNat : ℚ) ≤ k := by exact_mod_cast cut
        linarith
      · obtain ⟨row, inside, k, -, rfl⟩ := (mem_recordedTimes_iff fun row inside =>
          rows.archived row (List.mem_cons_of_mem _ inside)).mp recorded
        obtain ⟨e, -, second⟩ := rows.areSeconds row.time ⟨row, List.mem_cons_of_mem _ inside, rfl⟩
        obtain ⟨owner, belongs, earliest⟩ := least.1
        obtain ⟨e', -, second'⟩ := (foundRows owner belongs).areSeconds m earliest
        have different : row.time ≠ m := fun same => behind ⟨row, inside, same⟩
        have order := above row (List.mem_cons_of_mem _ inside)
        have few := r.skip_lt
        have later : m + 1000 ≤ row.time := by omega
        have later : (m : ℚ) + 1000 ≤ row.time := by exact_mod_cast later
        have few : (r.skip.toInt.toNat : ℚ) < 120 := by exact_mod_cast few
        have sample : (0 : ℚ) ≤ (k : ℚ) * 1000 / 120 := by positivity
        linarith

/-- The first sample of a row behind the first one is returned. -/
theorem mem_returned_tail (foundRows : ∀ device ∈ found, FoundRows r device.2)
    {device : Text × List CassRow} (member : device ∈ found)
    (behind : m ∈ secondsOf device.2.tail)
    : (m : ℚ) ∈ returnedTimes r found := by
  have rows := foundRows device member
  refine ⟨device, member, ?_⟩
  match rest : device.2 with
  | [] =>
      rw [rest] at behind
      obtain ⟨row, inside, -⟩ := behind
      cases inside
  | first :: others =>
      rw [rest] at behind rows
      obtain ⟨row, inside, rfl⟩ := behind
      refine (mem_leftTimes_iff rows.archived).mpr (.inr ((mem_recordedTimes_iff fun row inside =>
        rows.archived row (List.mem_cons_of_mem _ inside)).mpr ⟨row, inside, 0, by decide, ?_⟩))
      simp

/-- Of a first row, the sample behind the cut is returned. -/
theorem mem_returned_head (foundRows : ∀ device ∈ found, FoundRows r device.2)
    (second : m ∈ allSeconds found) (apart : ∀ device ∈ found, m ∉ secondsOf device.2.tail)
    : (m : ℚ) + (r.skip.toInt.toNat : ℚ) * 1000 / 120 ∈ returnedTimes r found := by
  obtain ⟨device, member, row, inside, rfl⟩ := second
  have rows := foundRows device member
  have behind := apart device member
  refine ⟨device, member, ?_⟩
  match rest : device.2 with
  | [] =>
      rw [rest] at inside
      cases inside
  | first :: others =>
      rw [rest] at inside rows behind
      rcases List.mem_cons.mp inside with rfl | later
      · exact (mem_leftTimes_iff rows.archived).mpr (.inl ⟨_, le_rfl, r.skip_lt, rfl⟩)
      · exact absurd ⟨row, later, rfl⟩ behind

theorem returned_isLeast (foundRows : ∀ device ∈ found, FoundRows r device.2)
    (least : IsLeast (allSeconds found) m) {device : Text × List CassRow} (member : device ∈ found)
    (behind : m ∈ secondsOf device.2.tail)
    : IsLeast (returnedTimes r found) (m : ℚ) :=
  ⟨mem_returned_tail foundRows member behind, fun _ => returned_ge foundRows least⟩

theorem returned_isLeast_of_apart (foundRows : ∀ device ∈ found, FoundRows r device.2)
    (least : IsLeast (allSeconds found) m)
    (apart : ∀ device ∈ found, m ∉ secondsOf device.2.tail)
    : IsLeast (returnedTimes r found) ((m : ℚ) + (r.skip.toInt.toNat : ℚ) * 1000 / 120) :=
  ⟨mem_returned_head foundRows least.1 apart, fun _ => returned_ge_of_apart foundRows least apart⟩

end Returned

-----------------------------------------------------------------------------------------
-- The start time
-----------------------------------------------------------------------------------------

section Start

variable {r : Request} {found : List (Text × List CassRow)} {payload : Cassspeed}
  {timestampcass : Int64}

theorem toUInt64_toNat {t : Int64} (positive : 0 ≤ t.toInt) : (t.toUInt64.toNat : ℚ) = t.toInt := by
  have value : (t.toUInt64.toNat : Int) = t.toInt := by
    rw [Int64.toNat_toUInt64_of_le (Int64.le_iff_toInt_le.mpr positive), ← Int64.toNat_toInt,
      Int.toNat_of_nonneg positive]
  exact_mod_cast value

/-- The start time that is sent, compared with the earliest sample. -/
theorem startsRight_iff (sent : payload.timestampstart = some timestampcass.toUInt64)
    (positive : 0 ≤ timestampcass.toInt) {earliest : ℚ}
    (least : IsLeast (returnedTimes r found) earliest)
    : StartsRight r found payload ↔ |(timestampcass.toInt : ℚ) - earliest| ≤ 1 := by
  rw [← toUInt64_toNat positive]
  constructor
  · rintro ⟨start, other, same, isLeast, near⟩
    obtain rfl := Option.some.inj (sent.symm.trans same)
    rwa [isLeast.unique least] at near
  · exact fun near => ⟨_, _, sent, least, near⟩

/-- Nothing is cut away: the start time is exact. -/
theorem startsRight_of_none (foundRows : ∀ device ∈ found, FoundRows r device.2)
    (unskipped : r.skip.toInt = 0) (hasRows : ∃ device ∈ found, device.2 ≠ [])
    (sent
      : payload.timestampstart
        = .some ((unseen timestampcass).passAll r found).timestampcass.toUInt64)
    : StartsRight r found payload := by
  obtain ⟨device, member, rows⟩ := hasRows
  obtain ⟨row, inside⟩ := List.exists_mem_of_ne_nil _ rows
  have seen := passAll_seen unskipped timestampcass fun device member =>
    (foundRows device member).areSeconds
  rcases seen with ⟨-, empty⟩ | ⟨⟨-, least⟩, e, -, time⟩
  · have second := mem_allSeconds member inside
    rw [empty] at second
    exact absurd second (Set.notMem_empty _)
  · have isLeast : IsLeast (returnedTimes r found)
        (((unseen timestampcass).passAll r found).timestampcass.toInt : ℚ) := by
      by_cases apart : ∀ device ∈ found,
          ((unseen timestampcass).passAll r found).timestampcass.toInt ∉ secondsOf device.2.tail
      · have begins := returned_isLeast_of_apart foundRows least apart
        rw [unskipped] at begins
        simpa using begins
      · push Not at apart
        obtain ⟨device, member, behind⟩ := apart
        exact returned_isLeast foundRows least member behind
    rw [startsRight_iff sent (by omega) isLeast, sub_self, abs_zero]
    exact zero_le_one

/-- Some samples are cut away: the earliest second must come first where it is found, and be
found last.
-/
theorem startsRight_iff_of_some (foundRows : ∀ device ∈ found, FoundRows r device.2)
    (cut : 0 < r.skip.toInt.toNat) (any : found ≠ []) (filled : ∀ device ∈ found, device.2 ≠ [])
    (sent
      : payload.timestampstart
        = .some ((unseen timestampcass).passAll r found).timestampcass.toUInt64)
    : StartsRight r found payload ↔ LastBegins found := by
  have skipped : r.skip.toInt = (r.skip.toInt.toNat : Nat) := by omega
  obtain ⟨m, shifted⟩ := passAll_shifted skipped cut r.skip_lt timestampcass any filled
    fun device member => (foundRows device member).areSeconds
  obtain ⟨e, second⟩ := shifted.second
  have bounds := wholeTime_bounds cut r.skip_lt
  have whole : 25 * r.skip.toInt.toNat ≤ 3 * wholeTime r.skip.toInt.toNat + 3
      ∧ 3 * wholeTime r.skip.toInt.toNat + 1 ≤ 25 * r.skip.toInt.toNat := by
    rw [wholeTime]
    omega
  obtain ⟨lower, upper⟩ := whole
  have lower : 25 * (r.skip.toInt.toNat : ℚ) ≤ 3 * wholeTime r.skip.toInt.toNat + 3 := by
    exact_mod_cast lower
  have upper : 3 * (wholeTime r.skip.toInt.toNat : ℚ) + 1 ≤ 25 * r.skip.toInt.toNat := by
    exact_mod_cast upper
  have large : (8 : ℚ) ≤ wholeTime r.skip.toInt.toNat := by exact_mod_cast bounds.1
  have once : (m : ℚ) + wholeTime r.skip.toInt.toNat
      ≤ ((unseen timestampcass).passAll r found).timestampcass.toInt := by
    exact_mod_cast shifted.once
  have positive : 0 ≤ ((unseen timestampcass).passAll r found).timestampcass.toInt := by
    have := shifted.once
    omega
  have same {m' : Int} (least : IsLeast (allSeconds found) m') : m' = m :=
    least.unique shifted.least
  by_cases apart : ∀ device ∈ found, m ∉ secondsOf device.2.tail
  · rw [startsRight_iff sent positive
      (returned_isLeast_of_apart foundRows shifted.least apart), abs_le]
    constructor
    · rintro ⟨-, near⟩
      rcases shifted.last with ⟨last, -⟩ | ⟨-, twice⟩
      · exact ⟨m, shifted.least, last, apart⟩
      · have twice : (m : ℚ) + 2 * wholeTime r.skip.toInt.toNat
            ≤ ((unseen timestampcass).passAll r found).timestampcass.toInt := by
          exact_mod_cast twice
        linarith
    · rintro ⟨m', least, ⟨last, isLast, owns⟩, -⟩
      obtain rfl := same least
      rcases shifted.last with ⟨-, most⟩ | ⟨without, -⟩
      · have most : (((unseen timestampcass).passAll r found).timestampcass.toInt : ℚ)
            ≤ m' + wholeTime r.skip.toInt.toNat + 1 := by
          exact_mod_cast most
        constructor <;> linarith
      · exact absurd owns (without last isLast)
  · have early : ¬LastBegins found := by
      rintro ⟨m', least, -, others⟩
      obtain rfl := same least
      exact apart others
    push Not at apart
    obtain ⟨device, member, behind⟩ := apart
    rw [startsRight_iff sent positive (returned_isLeast foundRows shifted.least member behind)]
    simp only [early, iff_false, not_le]
    exact lt_of_lt_of_le (by linarith) (le_abs_self _)

end Start

/-- Whatever other handlers store, of any number of devices and any archived seconds, the start
time that a handler sends is that of its earliest sample, to within a millisecond, just when
nothing is cut away at the front, or the earliest second is found for the last device and is
never behind a first row.
-/
theorem timestampstart_iff {finds : Int32 → Int32 → Prop} {v w : Int32} {archive : Archive}
    {c : Connection} {r : Request} {payload : Cassspeed}
    (parsed : parseRequest (receive c.sent c.beyond) = .ok r)
    (leads : (socketHandler archive c).Leads finds v (.ok (.payload payload), w))
    (foundRows : ∀ device ∈ r.found archive, FoundRows r device.2)
    (hasRows : ∃ device ∈ r.found archive, device.2 ≠ [])
    : StartsRight r (r.found archive) payload
      ↔ r.start.toNat % 1000 ≤ 8 ∨ LastBegins (r.found archive) := by
  obtain ⟨r', parsed', answers⟩ := socketHandler_leads leads
  obtain rfl := Except.ok.inj (parsed.symm.trans parsed')
  have skip := r.skip_toInt
  have sent := answers.summary.timestampstart
  by_cases unskipped : r.skip.toInt.toNat = 0
  · refine iff_of_true (startsRight_of_none foundRows (by omega) hasRows sent) (.inl ?_)
    omega
  · have each
        : List.Forall₂
            (fun device output =>
              r.skip.toInt.toNat ≤ (device.2.flatMap CassRow.samples).length
              ∧ OutputSet.Answers r device output)
            (r.found archive) payload.outputsets :=
      answers.outputsets.imp fun device output answer => ⟨answer.enough, answer⟩
    have enough := ((List.forall₂_and_left _ _).mp each).1
    have rows (device : Text × List CassRow) (member : device ∈ r.found archive)
        : device.2 ≠ [] := by
      intro empty
      have few := enough device member
      rw [empty] at few
      exact unskipped (Nat.le_zero.mp few)
    rw [startsRight_iff_of_some foundRows (Nat.pos_of_ne_zero unskipped) answers.found rows sent]
    refine (or_iff_right ?_).symm
    omega

/-- The first device has the second with the start, the other one only the next. -/
def gapDevice (first : Bool) : Text × List CassRow :=
  if first then
    ("P1".toList, [zerosOf 1480355400])
  else
    ("P2".toList, [zerosOf 1480355401])

def gapQuery : Query.ServerQuery := Query.serverQuery 1480355400500 1480355402000

def gapArchive : Archive := fun query =>
  if query = gapQuery.querystr "1480355402000" "P1" then some (gapDevice true).2
  else some (gapDevice false).2

/-- A request for both devices. -/
def askForBoth (first : Bool) : Connection :=
  askFor ((if first then "2;P1;P2" else "2;P2;P1")
    ++ ";1;1480355400500;1480355402000;1;0;0;0;0;0;0;0;0;0;0;0;16;1")

def gapRequest (first : Bool) : Request :=
  { fromHalf with devices := [(gapDevice first).1, (gapDevice !first).1] }

theorem gap_parsed (first : Bool)
    : parseRequest (receive (askForBoth first).sent (askForBoth first).beyond)
      = .ok (gapRequest first) := by
  cases first <;> decide +kernel

/-- Queries for different devices differ. -/
theorem querystr_injective (q : Query.ServerQuery) (timestampend : String)
    : Function.Injective (q.querystr timestampend) := by
  intro device other same
  unfold Query.ServerQuery.querystr at same
  -- what stands behind the device is the same
  iterate 7 replace same := (String.append_left_inj _).mp same
  exact (String.append_right_inj _).mp same

theorem gapArchive_eq (first : Bool)
    : gapArchive (gapQuery.querystr "1480355402000" (String.ofList (gapDevice first).1))
      = some (gapDevice first).2 := by
  have name : String.ofList (gapDevice first).1 = if first then "P1" else "P2" := by
    cases first <;> exact String.ofList_toList
  rw [name]
  cases first with
  | true => simp only [gapArchive, if_true]
  | false =>
      have other
          : gapQuery.querystr "1480355402000" "P2" ≠ gapQuery.querystr "1480355402000" "P1" :=
        fun same => absurd (querystr_injective gapQuery _ same) (by decide)
      rw [if_neg Bool.false_ne_true, gapArchive, if_neg other]

theorem gap_query (first : Bool) : (gapRequest first).query = gapQuery := by
  have times : readUInt64 (gapRequest first).timestampstart = 1480355400500
      ∧ readUInt64 (gapRequest first).timestampend = 1480355402000 := by
    cases first <;> decide +kernel
  rw [Request.query, times.1, times.2, gapQuery]

theorem gap_querystr (first : Bool) (device : Text)
    : (gapRequest first).querystr device
      = gapQuery.querystr "1480355402000" (String.ofList device) := by
  have stop : (gapRequest first).timestampend = "1480355402000".toList := rfl
  rw [Request.querystr, gap_query, stop, String.ofList_toList]

theorem gap_found (first : Bool)
    : (gapRequest first).found gapArchive = [gapDevice first, gapDevice !first] := by
  have devices : (gapRequest first).devices = [(gapDevice first).1, (gapDevice !first).1] := rfl
  rw [Request.found, findAll, devices]
  simp only [List.filterMap_cons, gap_querystr, gapArchive_eq, Option.map_some,
    List.filterMap_nil]

def sentStart : Except Fault Response → Option UInt64
  | .ok (.payload payload) => payload.timestampstart
  | _ => none

theorem exists_payload_of_sentStart {outcome : Except Fault Response} {start : UInt64}
    (sent : sentStart outcome = some start)
    : ∃ payload, outcome = .ok (.payload payload) ∧ payload.timestampstart = some start := by
  cases outcome with
  | error fault => simp [sentStart] at sent
  | ok response =>
      cases response with
      | nothing => simp [sentStart] at sent
      | code wha => simp [sentStart] at sent
      | payload payload => exact ⟨payload, rfl, sent⟩

/-- The handler of a request that is read, as a loop over its devices. -/
theorem socketHandler_eq {archive : Archive} {c : Connection} {r : Request} (sent : c.sent ≠ [])
    (connects : c.connects = true) (parsed : parseRequest (receive c.sent c.beyond) = .ok r)
    (devices : r.devices ≠ [])
    : socketHandler archive c
      = caught <$> ExceptT.run (do
          let s ← r.devices.foldlM (handleDevice archive r)
            { oldest := unseen c.timestampcass, payload := noPayload, errorcode := "" }
          return s.response) := by
  rw [socketHandler, if_neg sent, handle, if_pos connects, parsed]
  have read (next : Request → Handling Response)
      : (ofExcept (.ok r) >>= next : Handling Response) = next r :=
    pure_bind r next
  rw [read, handleDevices, if_neg devices]
  rfl

/-- With the earlier device in front, its start time is moved on once more. -/
theorem gap_responds (first : Bool)
    : ∃ payload w, (socketHandler gapArchive (askForBoth first)).run 0 = (.ok (.payload payload), w)
      ∧ payload.timestampstart = some (if first then 1480355400998 else 1480355400499) := by
  have turn (s : Progress) (device : Bool)
      : handleDevice gapArchive (gapRequest first) s (gapDevice device).1
        = handleRows (gapRequest first) s (gapDevice device).1 (gapDevice device).2 := by
    rw [handleDevice, gap_querystr, gapArchive_eq]
  have devices : (gapRequest first).devices = [(gapDevice first).1, (gapDevice !first).1] := rfl
  have turns
      : socketHandler gapArchive (askForBoth first)
        = caught <$> ExceptT.run (do
            let s ← handleRows (gapRequest first)
              { oldest := unseen 0, payload := noPayload, errorcode := "" }
              (gapDevice first).1 (gapDevice first).2
            let s ← handleRows (gapRequest first) s (gapDevice !first).1 (gapDevice !first).2
            return s.response) := by
    rw [socketHandler_eq (by cases first <;> decide) (by cases first <;> rfl) (gap_parsed first)
      (List.cons_ne_nil _ _), devices]
    simp only [List.foldlM_cons, List.foldlM_nil, turn, bind_pure, bind_assoc]
    cases first <;> rfl
  have sent
      : sentStart ((socketHandler gapArchive (askForBoth first)).run 0).1
        = some (if first then 1480355400998 else 1480355400499) := by
    rw [turns]
    cases first <;> decide +kernel
  obtain ⟨payload, outcome, starts⟩ := exists_payload_of_sentStart sent
  exact ⟨payload, _, Prod.ext outcome rfl, starts⟩

theorem gapDevice_seconds (first : Bool)
    : secondsOf (gapDevice first).2 = {if first then 1480355400000 else 1480355401000} := by
  have times (e : Nat) (small : e < 4294967296) : secondsOf [zerosOf e] = {1000 * (e : Int)} := by
    simp [secondsOf, CassRow.time, zerosOf_toInt small]
  cases first with
  | true => exact times 1480355400 (by decide)
  | false => exact times 1480355401 (by decide)

theorem gap_foundRows (first : Bool)
    : ∀ device ∈ (gapRequest first).found gapArchive, FoundRows (gapRequest first) device.2 := by
  have rows (e : Nat) (begins : 1480355400 ≤ e) (small : e < 4294967296)
      : FoundRows (gapRequest first) [zerosOf e] := by
    intro row member
    obtain rfl := List.mem_singleton.mp member
    have start : gapQuery.timestampstart.toNat = 1480355399501 := rfl
    have time : (zerosOf e).time = 1000 * e := zerosOf_toInt small
    refine ⟨zerosOf_archived small, ?_⟩
    rw [gap_query, start, time]
    omega
  have both (device : Bool) : FoundRows (gapRequest first) (gapDevice device).2 := by
    cases device with
    | true => exact rows 1480355400 (by decide) (by decide)
    | false => exact rows 1480355401 (by decide) (by decide)
  rw [gap_found]
  simp only [List.mem_cons, List.not_mem_nil, or_false, forall_eq_or_imp, forall_eq]
  exact ⟨both first, both !first⟩

theorem gap_least (first : Bool)
    : IsLeast (allSeconds ((gapRequest first).found gapArchive)) 1480355400000 := by
  have seconds
      : allSeconds ((gapRequest first).found gapArchive)
        = secondsOf (gapDevice first).2 ∪ secondsOf (gapDevice !first).2 := by
    rw [gap_found]
    have append : allSeconds ([gapDevice first] ++ [gapDevice !first]) = _ := allSeconds_append
    refine append.trans ?_
    simp [allSeconds]
  rw [seconds, gapDevice_seconds, gapDevice_seconds]
  cases first <;> constructor <;> simp [lowerBounds]

theorem gap_apart (first : Bool)
    : ∀ device ∈ (gapRequest first).found gapArchive,
        (1480355400000 : Int) ∉ secondsOf device.2.tail := by
  rw [gap_found]
  cases first <;> simp [gapDevice, secondsOf]

/-- The device with the earlier second comes last: the start time is half a second later. -/
theorem timestampstart_iff_lastFirst
    : ∃ payload w, (socketHandler gapArchive (askForBoth false)).run 0 = (.ok (.payload payload), w)
      ∧ StartsRight (gapRequest false) ((gapRequest false).found gapArchive) payload := by
  obtain ⟨payload, w, responds, -⟩ := gap_responds false
  have found : (gapRequest false).found gapArchive = [gapDevice false, gapDevice true] :=
    gap_found false
  have member : gapDevice true ∈ (gapRequest false).found gapArchive := by
    rw [found]
    exact List.mem_cons_of_mem _ List.mem_cons_self
  have last : gapDevice true ∈ ((gapRequest false).found gapArchive).getLast? := by
    rw [found]
    rfl
  have second : 1480355400000 ∈ secondsOf (gapDevice true).2 := by
    rw [gapDevice_seconds, if_pos rfl]
    exact Set.mem_singleton _
  exact ⟨payload, w, responds, (timestampstart_iff (gap_parsed false)
    (SharedCell.Program.leads_eq_iff.mpr responds) (gap_foundRows false)
    ⟨gapDevice true, member, List.cons_ne_nil _ _⟩).mpr
    (.inr ⟨_, gap_least false, ⟨gapDevice true, last, second⟩, gap_apart false⟩)⟩

/-- It comes first: the start time is 498 ms late. -/
theorem timestampstart_late
    : ∃ payload w, (socketHandler gapArchive (askForBoth true)).run 0 = (.ok (.payload payload), w)
      ∧ ¬StartsRight (gapRequest true) ((gapRequest true).found gapArchive) payload := by
  obtain ⟨payload, w, responds, sent⟩ := gap_responds true
  refine ⟨payload, w, responds, ?_⟩
  have skip : (gapRequest true).skip.toInt.toNat = 60 := by decide +kernel
  have late : (1480355400998 : UInt64).toNat = 1480355400998 := by decide
  have least := returned_isLeast_of_apart (gap_foundRows true) (gap_least true) (gap_apart true)
  rintro ⟨start, earliest, same, isLeast, near⟩
  rw [sent, if_pos rfl] at same
  obtain rfl := Option.some.inj same
  rw [isLeast.unique least, skip, late] at near
  norm_num at near

end Sparcs.CassSpeed
