import Sparcs.CassSpeed.CountedSteps
import Sparcs.CassSpeed.SecondArchive

/-! The times of a response to a request for recorded seconds. Its samples begin with that of the
start time and the next request is sent for the end time, which is at most one sample too early.
-/

namespace Sparcs.CassSpeed

open SignedArithmetic
open Spans

-----------------------------------------------------------------------------------------
-- The numbers of samples
-----------------------------------------------------------------------------------------

/-- A sample takes 25 thirds of a millisecond. -/
theorem sampleIndex_eq (msec : Nat) : sampleIndex msec = 3 * msec / 25 := by
  rw [sampleIndex]
  omega

/-- The samples up to the limit are those that have begun. -/
theorem le_sampleLimit (msec : Nat) : 3 * msec ≤ 25 * sampleLimit msec := by
  rw [sampleLimit]
  omega

/-- Where the next request begins, when the times are rounded. -/
theorem sampleIndex_next {first covered time : Nat} (lower : 25 * first ≤ 3 * time + 3)
    (upper : 3 * time ≤ 25 * first + 2)
    : sampleIndex (time + covered * 1000 / 120) ≤ first + covered
      ∧ first + covered ≤ sampleIndex (time + covered * 1000 / 120) + 1 := by
  rw [sampleIndex_eq]
  omega

-----------------------------------------------------------------------------------------
-- The start time
-----------------------------------------------------------------------------------------

section Start

variable {r : Request} {found : List (Text × List CassRow)} {e : Nat}

/-- The devices that are found, all of which have the same earliest second. -/
structure Together (found : List (Text × List CassRow)) (e : Nat) : Prop where
  any : found ≠ []
  least : ∀ device ∈ found, IsLeast (secondsOf device.2) (1000 * e)
  seconds : ∀ device ∈ found, AreSeconds device.2

theorem Together.isLeast (together : Together found e) : IsLeast (allSeconds found) (1000 * e) := by
  obtain ⟨device, member⟩ := List.exists_mem_of_ne_nil found together.any
  refine ⟨⟨device, member, (together.least device member).1⟩, ?_⟩
  rintro t ⟨other, member', second⟩
  exact (together.least other member').2 second

/-- Nothing moves the start time more than once. -/
theorem Together.passAll_between (together : Together found e) (timestampcass : Int64)
    : ∃ time : Nat, ((unseen timestampcass).passAll r found).timestampcass.toInt = time
      ∧ time < lastTime
      ∧ 25 * (120 * e + r.skip.toInt.toNat) ≤ 3 * time + 3
      ∧ 3 * time ≤ 25 * (120 * e + r.skip.toInt.toNat) + 2
      ∧ (r.skip.toInt.toNat = 0 → time = 1000 * e) := by
  have skipped : r.skip.toInt = (r.skip.toInt.toNat : Nat) := by
    rw [r.skip_toNat]
    exact r.skip_toInt
  rcases Nat.eq_zero_or_pos r.skip.toInt.toNat with unskipped | cut
  · have still : r.skip.toInt = 0 := by omega
    have seen := passAll_seen still timestampcass together.seconds
    rcases seen with ⟨-, empty⟩ | ⟨least, time, small, same⟩
    · have second := together.isLeast.1
      rw [empty] at second
      cases second
    · have first := least.2.unique together.isLeast
      exact ⟨time, same, small, by omega, by omega, fun _ => by omega⟩
  · have rows : ∀ device ∈ found, device.2 ≠ [] := by
      rintro device member empty
      obtain ⟨row, inside, -⟩ := (together.least device member).1
      rw [empty] at inside
      cases inside
    obtain ⟨m, shifted⟩ :=
      passAll_shifted skipped cut r.skip_lt timestampcass together.any rows together.seconds
    obtain rfl := shifted.least.unique together.isLeast
    have once := shifted.once
    have bounded := shifted.bounded
    obtain ⟨time, same⟩
        : ∃ time : Nat, ((unseen timestampcass).passAll r found).timestampcass.toInt = time :=
      Int.eq_ofNat_of_zero_le (by omega)
    rw [same] at once bounded
    have most : (time : Int) ≤ 1000 * e + wholeTime r.skip.toInt.toNat + 1 := by
      rcases shifted.last with ⟨-, upper⟩ | ⟨without, -⟩
      · rw [same] at upper
        exact upper
      · have last := List.getLast?_eq_some_getLast together.any
        exact absurd (together.least _ (List.getLast_mem together.any)).1 (without _ last)
    rw [wholeTime] at once most
    exact ⟨time, same, by omega, by omega, by omega, fun zero => absurd zero cut.ne'⟩

end Start

-----------------------------------------------------------------------------------------
-- The end time
-----------------------------------------------------------------------------------------

/-- The end time behind so many samples, in steps. -/
theorem endTime_toInt {timestampcass : Int64} {step : Int32} {time count covered : Nat}
    (begins : timestampcass.toInt = time) (small : time < lastTime)
    (steps : count * step.toInt = covered) (few : count ≤ covered) (short : covered ≤ 2147483)
    : (endTime timestampcass (Int32.ofNat count) step).toInt
      = (time + covered * 1000 / 120 : Nat) := by
  have limit : lastTime = 4294967296 * 1000 + 1000 := rfl
  obtain ⟨inRange, same⟩ := (@counts_iff count covered step few).mpr ⟨steps, short⟩
  have value := inRange.toInt_eval
  rw [coveredMsec_exact, same, Int.tdiv_eq_ediv_of_nonneg (by omega)] at value
  rw [endTime_eq, Int64.toInt_add, begins, Int32.toInt_toInt64, value]
  have range : (time : Int) + covered * 1000 / 120 < 2 ^ 63 := by omega
  rw [Int.bmod_eq_of_le (by omega) (by omega)]
  push_cast
  rfl

end Sparcs.CassSpeed
