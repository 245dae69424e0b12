import Mathlib

/-! Comparisons of binary64 numbers that are not NaN agree with a linear order.
Each such number has a rank, ordered lexicographically by class, exponent and mantissa;
the zeros of both signs share one rank.
-/

namespace FloatOrder

open Float.Model (UnpackedFloat)

/-- Class, exponent and mantissa, with the latter two reversed below zero. -/
abbrev Rank := Int ×ₗ Int ×ₗ Int

def mkRank (kind exponent mantissa : Int) : Rank :=
  toLex (kind, toLex (exponent, mantissa))

theorem mkRank_lt {kind kind' exponent exponent' mantissa mantissa' : Int}
    : mkRank kind exponent mantissa < mkRank kind' exponent' mantissa'
      ↔ kind < kind'
        ∨ kind = kind'
          ∧ (exponent < exponent' ∨ exponent = exponent' ∧ mantissa < mantissa') := by
  simp only [mkRank, Prod.Lex.toLex_lt_toLex]

def unpackedRank : UnpackedFloat → Rank
  | .notANumber => mkRank 0 0 0
  | .infinity .negative => mkRank (-2) 0 0
  | .infinity .positive => mkRank 2 0 0
  | .zero _ => mkRank 0 0 0
  | .finite .negative mantissa exponent _ => mkRank (-1) (-exponent) (-mantissa)
  | .finite .positive mantissa exponent _ => mkRank 1 exponent mantissa

theorem then_compare_lt {e e' : Int} {m m' : Nat}
    : (compare e e').then (compare m m') = .lt ↔ e < e' ∨ e = e' ∧ m < m' := by
  simp [Ordering.then_eq_lt, compare_lt_iff_lt]

theorem then_compare_gt {e e' : Int} {m m' : Nat}
    : (compare e e').then (compare m m') = .gt ↔ e' < e ∨ e = e' ∧ m' < m := by
  simp [Ordering.then_eq_gt, compare_gt_iff_gt]

/-- IEEE comparison of two numbers is comparison of their ranks, by constructor cases. -/
theorem unpacked_compare {a b : UnpackedFloat} (aNumber : a.isNaN = false)
    (bNumber : b.isNaN = false)
    : (a.compare b = some .lt ↔ unpackedRank a < unpackedRank b)
      ∧ (a.compare b = some .gt ↔ unpackedRank b < unpackedRank a) := by
  cases a with
  | notANumber => simp [UnpackedFloat.isNaN] at aNumber
  | infinity s =>
      cases b with
      | notANumber => simp [UnpackedFloat.isNaN] at bNumber
      | infinity t =>
          cases s <;> cases t <;>
            simp [UnpackedFloat.compare, unpackedRank, mkRank_lt] <;> decide
      | zero t => cases s <;> simp [UnpackedFloat.compare, unpackedRank, mkRank_lt]
      | finite t m e pos =>
          cases s <;> cases t <;> simp [UnpackedFloat.compare, unpackedRank, mkRank_lt]
  | zero s =>
      cases b with
      | notANumber => simp [UnpackedFloat.isNaN] at bNumber
      | infinity t => cases t <;> simp [UnpackedFloat.compare, unpackedRank, mkRank_lt]
      | zero t => simp [UnpackedFloat.compare, unpackedRank]
      | finite t m e pos =>
          cases t <;> simp [UnpackedFloat.compare, unpackedRank, mkRank_lt]
  | finite s m e pos =>
      cases b with
      | notANumber => simp [UnpackedFloat.isNaN] at bNumber
      | infinity t =>
          cases s <;> cases t <;> simp [UnpackedFloat.compare, unpackedRank, mkRank_lt]
      | zero t => cases s <;> simp [UnpackedFloat.compare, unpackedRank, mkRank_lt]
      | finite t m' e' pos' =>
          cases s <;> cases t <;>
            simp [UnpackedFloat.compare, unpackedRank, mkRank_lt, then_compare_lt,
              then_compare_gt, @eq_comm _ e' e]

/-- Numbers are always comparable, by constructor cases. -/
theorem unpacked_comparable {a b : UnpackedFloat} (aNumber : a.isNaN = false)
    (bNumber : b.isNaN = false)
    : ∃ order, a.compare b = some order := by
  unfold UnpackedFloat.compare
  split <;> simp_all [UnpackedFloat.isNaN]

def rank (x : Float) : Rank :=
  unpackedRank x.toModel.unpack

theorem lt_iff {x y : Float} (xNumber : x.isNaN = false) (yNumber : y.isNaN = false)
    : x < y ↔ rank x < rank y := by
  rw [rank, rank, ← (unpacked_compare xNumber yNumber).1]
  change decide (x.toModel < y.toModel) = true ↔ _
  rw [decide_eq_true_iff]
  change (x.toModel.unpack.compare y.toModel.unpack == some .lt) = true ↔ _
  exact beq_iff_eq

theorem le_iff {x y : Float} (xNumber : x.isNaN = false) (yNumber : y.isNaN = false)
    : x ≤ y ↔ rank x ≤ rank y := by
  rw [← not_lt, rank, rank, ← (unpacked_compare xNumber yNumber).2]
  change decide (x.toModel ≤ y.toModel) = true ↔ _
  rw [decide_eq_true_iff]
  change (x.toModel.unpack.compare y.toModel.unpack).any (·.isLE) = true ↔ _
  obtain ⟨order, compared⟩ := unpacked_comparable xNumber yNumber
  rw [compared]
  cases order <;> decide

/-- What compares is a number, by constructor cases. -/
theorem unpacked_numbers {a b : UnpackedFloat} {order : Ordering}
    (compared : a.compare b = some order)
    : a.isNaN = false ∧ b.isNaN = false := by
  cases a with
  | notANumber => simp [UnpackedFloat.compare] at compared
  | infinity s => cases b <;> simp_all [UnpackedFloat.compare, UnpackedFloat.isNaN]
  | zero s => cases b <;> simp_all [UnpackedFloat.compare, UnpackedFloat.isNaN]
  | finite s m e pos => cases b <;> simp_all [UnpackedFloat.compare, UnpackedFloat.isNaN]

/-- Machine comparisons fail on what is not a number. -/
theorem numbers_of_lt {x y : Float} (less : x < y) : x.isNaN = false ∧ y.isNaN = false := by
  change decide (x.toModel < y.toModel) = true at less
  rw [decide_eq_true_iff] at less
  change (x.toModel.unpack.compare y.toModel.unpack == some .lt) = true at less
  exact unpacked_numbers (beq_iff_eq.mp less)

theorem numbers_of_le {x y : Float} (atMost : x ≤ y) : x.isNaN = false ∧ y.isNaN = false := by
  change decide (x.toModel ≤ y.toModel) = true at atMost
  rw [decide_eq_true_iff] at atMost
  change (x.toModel.unpack.compare y.toModel.unpack).any (·.isLE) = true at atMost
  cases compared : x.toModel.unpack.compare y.toModel.unpack with
  | none =>
      rw [compared] at atMost
      cases atMost
  | some order => exact unpacked_numbers compared

/-- Machine comparison of numbers of any format, through their ranks. -/
theorem unpacked_lt {a b : UnpackedFloat}
    : a.compare b = some .lt
      ↔ a.isNaN = false ∧ b.isNaN = false ∧ unpackedRank a < unpackedRank b := by
  constructor
  · intro compared
    obtain ⟨aNumber, bNumber⟩ := unpacked_numbers compared
    exact ⟨aNumber, bNumber, (unpacked_compare aNumber bNumber).1.mp compared⟩
  · rintro ⟨aNumber, bNumber, below⟩
    exact (unpacked_compare aNumber bNumber).1.mpr below

theorem lt32_iff {x y : Float32}
    : x < y ↔ x.toModel.unpack.compare y.toModel.unpack = some .lt := by
  change decide (x.toModel < y.toModel) = true ↔ _
  rw [decide_eq_true_iff]
  change (x.toModel.unpack.compare y.toModel.unpack == some .lt) = true ↔ _
  exact beq_iff_eq

/-- Comparison of binary32 numbers is a strict order, whatever is not a number. -/
instance isStrictOrder32 : IsStrictOrder Float32 (· < ·) where
  irrefl x less := lt_irrefl _ (unpacked_lt.mp (lt32_iff.mp less)).2.2
  trans x y z first second := by
    obtain ⟨xNumber, -, below⟩ := unpacked_lt.mp (lt32_iff.mp first)
    obtain ⟨-, zNumber, above⟩ := unpacked_lt.mp (lt32_iff.mp second)
    exact lt32_iff.mpr (unpacked_lt.mpr ⟨xNumber, zNumber, below.trans above⟩)

end FloatOrder
