import Sparcs.Library.FloatOrder
import Sparcs.Library.RunScan
import Sparcs.VoltageAnalytics.Detector

/-! The detector's comparisons sort every sample into one band or none; NaN has none. -/

namespace Sparcs.VoltageAnalytics

/-- The band whose branch a sample takes. -/
def bandOf (v : Float) : Option Band :=
  if Band.sag.holds v then some .sag
  else if Band.interruption.holds v then some .interruption
  else if Band.swell.holds v then some .swell
  else none

/-- The thresholds are numbers in increasing order, by evaluation. -/
theorem thresholds
    : (0.1 : Float).isNaN = false
      ∧ (0.9 : Float).isNaN = false
      ∧ (1.1 : Float).isNaN = false
      ∧ FloatOrder.rank 0.1 < FloatOrder.rank 0.9
      ∧ FloatOrder.rank 0.9 < FloatOrder.rank 1.1 := by
  decide

/-- Every comparison of the detector as a comparison of ranks. -/
theorem comparisons {v : Float} (number : v.isNaN = false)
    : (0.1 ≤ v ↔ FloatOrder.rank 0.1 ≤ FloatOrder.rank v)
      ∧ (v ≤ 0.9 ↔ FloatOrder.rank v ≤ FloatOrder.rank 0.9)
      ∧ (v < 0.1 ↔ FloatOrder.rank v < FloatOrder.rank 0.1)
      ∧ (1.1 ≤ v ↔ FloatOrder.rank 1.1 ≤ FloatOrder.rank v)
      ∧ (0.9 < v ↔ FloatOrder.rank 0.9 < FloatOrder.rank v)
      ∧ (v < 1.1 ↔ FloatOrder.rank v < FloatOrder.rank 1.1) := by
  obtain ⟨lowNumber, midNumber, highNumber, _, _⟩ := thresholds
  exact ⟨FloatOrder.le_iff lowNumber number, FloatOrder.le_iff number midNumber,
    FloatOrder.lt_iff number lowNumber, FloatOrder.le_iff highNumber number,
    FloatOrder.lt_iff midNumber number, FloatOrder.lt_iff number highNumber⟩

/-- A sample that passes a band's test is a number. -/
theorem holds_number {v : Float} {band : Band} (holds : band.holds v = true)
    : v.isNaN = false := by
  cases band with
  | sag =>
      simp only [Band.holds, Bool.and_eq_true, decide_eq_true_eq] at holds
      exact (FloatOrder.numbers_of_le holds.1).2
  | interruption =>
      simp only [Band.holds, decide_eq_true_eq] at holds
      exact (FloatOrder.numbers_of_lt holds).1
  | swell =>
      simp only [Band.holds, decide_eq_true_eq] at holds
      exact (FloatOrder.numbers_of_le holds).2

/-- A sample that passes a band's test takes that band's branch: no number lies in two
bands, so the branch does not depend on the order of the tests.
-/
theorem bandOf_of_holds {v : Float} {band : Band} (holds : band.holds v = true)
    : bandOf v = some band := by
  obtain ⟨_, _, _, lowMid, midHigh⟩ := thresholds
  obtain ⟨aboveLow, belowMid, belowLow, aboveHigh, _, _⟩ :=
    comparisons (holds_number holds)
  have lowHigh := lowMid.trans midHigh
  revert holds
  cases band <;>
    simp only [bandOf, Band.holds, Bool.and_eq_true, decide_eq_true_eq, ge_iff_le,
      aboveLow, belowMid, belowLow, aboveHigh] <;>
    split_ifs <;> grind

theorem holds_of_bandOf {v : Float} {band : Band} (inBand : bandOf v = some band)
    : band.holds v = true := by
  unfold bandOf at inBand
  split_ifs at inBand with sag interruption swell <;> cases inBand <;> assumption

/-- The tests of the bands are those of the branches, for NaN as well. -/
theorem holds_iff {v : Float} (band : Band)
    : band.holds v = true ↔ bandOf v = some band :=
  ⟨bandOf_of_holds, holds_of_bandOf⟩

theorem bandOf_number {v : Float} {band : Band} (inBand : bandOf v = some band)
    : v.isNaN = false :=
  holds_number (holds_of_bandOf inBand)

/-- The reset test of a band is the negation of its branch test. -/
theorem resets_iff {v : Float} (number : v.isNaN = false) (band : Band)
    : band.resets v = true ↔ bandOf v ≠ some band := by
  rw [Ne, ← holds_iff]
  obtain ⟨aboveLow, belowMid, belowLow, aboveHigh, aboveMid, belowHigh⟩ :=
    comparisons number
  cases band <;>
    simp only [Band.resets, Band.holds, Bool.and_eq_true, Bool.or_eq_true,
      decide_eq_true_eq, ge_iff_le, gt_iff_lt, aboveLow, belowMid, belowLow, aboveHigh,
      aboveMid, belowHigh] <;>
    grind

/-- The final test of a window accepts exactly the samples of no band. -/
theorem normal_iff {v : Float} (number : v.isNaN = false)
    : (v > 0.9 && v < 1.1) = true ↔ bandOf v = none := by
  obtain ⟨_, _, _, lowMid, midHigh⟩ := thresholds
  obtain ⟨aboveLow, belowMid, belowLow, aboveHigh, aboveMid, belowHigh⟩ :=
    comparisons number
  have lowHigh := lowMid.trans midHigh
  simp only [bandOf, Band.holds, Bool.and_eq_true, decide_eq_true_eq, ge_iff_le,
    gt_iff_lt, aboveLow, belowMid, belowLow, aboveHigh, aboveMid, belowHigh]
  split_ifs <;> grind

theorem normal_false {v : Float} (isNaN : v.isNaN = true)
    : ¬(v > 0.9 && v < 1.1) = true := by
  intro normal
  simp only [Bool.and_eq_true, decide_eq_true_eq] at normal
  rw [(FloatOrder.numbers_of_lt normal.2).1] at isNaN
  contradiction

end Sparcs.VoltageAnalytics
