import Mathlib

/-! What the sample loop of the RabbitMQ archivers' `processData` works on, with exact
rationals for its floating-point numbers.
-/

namespace Sparcs.Annotations

/-- The six phasor channels, in the order of their array indices. -/
inductive Channel where
  | l1
  | l2
  | l3
  | c1
  | c2
  | c3
  deriving DecidableEq, Repr

def Channel.index : Channel → Nat
  | .l1 => 0
  | .l2 => 1
  | .l3 => 2
  | .c1 => 3
  | .c2 => 4
  | .c3 => 5

def Channel.all : List Channel := [.l1, .l2, .l3, .c1, .c2, .c3]

/-- `array[index]` of an array of six elements; `none` is a read behind its end. -/
def readArray {α : Type} (array : Channel → α) (index : Nat) : Option α :=
  (Channel.all[index]?).map array

/-- One sample: magnitudes, and angles in degrees. The C37 archiver takes its angles relative
to that of L1, which it then sets to 0.
-/
structure Sample where
  mag : Channel → ℚ
  ang : Channel → ℚ

/-- `UPMU_SAMPLES_PER_SEC` -/
def upmuSamplesPerSec : Nat := 120

/-- The samples of one second. -/
structure Second where
  samples : List Sample
  full : samples.length = upmuSamplesPerSec

theorem Second.nonempty (second : Second) : second.samples ≠ [] := by
  intro empty
  have full := second.full
  rw [empty] at full
  cases full

/-- The integer nearest to a quotient on the side of zero. -/
def truncate (x : ℚ) : ℤ :=
  if 0 ≤ x then ⌊x⌋ else ⌈x⌉

/-- `fmod`, which has the sign of `x`. -/
def fmod (x y : ℚ) : ℚ :=
  x - truncate (x / y) * y

theorem fmod_modEq (x y : ℚ) : fmod x y ≡ x [PMOD y] := by
  rw [AddCommGroup.modEq_iff_zsmul]
  refine ⟨truncate (x / y), ?_⟩
  rw [fmod, zsmul_eq_mul]
  ring

/-- The remainder is smaller than the divisor and does not change the sign. -/
theorem fmod_bounds (x : ℚ) {y : ℚ} (positive : 0 < y)
    : (0 ≤ x → 0 ≤ fmod x y ∧ fmod x y < y) ∧ (x < 0 → -y < fmod x y ∧ fmod x y ≤ 0) := by
  have whole : x / y * y = x := div_mul_cancel₀ x positive.ne'
  constructor
  · intro nonneg
    have quotient : 0 ≤ x / y := div_nonneg nonneg positive.le
    have below := mul_le_mul_of_nonneg_right (Int.floor_le (x / y)) positive.le
    have above := mul_lt_mul_of_pos_right (Int.lt_floor_add_one (x / y)) positive
    rw [fmod, truncate, if_pos quotient]
    constructor <;> linarith
  · intro negative
    have quotient : ¬0 ≤ x / y := not_le.mpr (div_neg_of_neg_of_pos negative positive)
    have above := mul_le_mul_of_nonneg_right (Int.le_ceil (x / y)) positive.le
    have below := mul_lt_mul_of_pos_right (Int.ceil_lt_add_one (x / y)) positive
    rw [fmod, truncate, if_neg quotient]
    constructor <;> linarith

/-- `temp=fmod(angle,360); if (temp<0) temp+=360;` -/
def reduced (angle : ℚ) : ℚ :=
  if fmod angle 360 < 0 then fmod angle 360 + 360 else fmod angle 360

/-- The reduced angle is the one in [0, 360). -/
theorem reduced_spec (angle : ℚ)
    : reduced angle ≡ angle [PMOD 360] ∧ 0 ≤ reduced angle ∧ reduced angle < 360 := by
  obtain ⟨upper, lower⟩ := fmod_bounds angle (by norm_num : (0 : ℚ) < 360)
  have congruent := fmod_modEq angle 360
  unfold reduced
  split_ifs with negative
  · have below : angle < 0 := by
      by_contra nonneg
      exact absurd (upper (not_lt.mp nonneg)).1 (not_le.mpr negative)
    refine ⟨?_, by linarith [(lower below).1], by linarith⟩
    simpa using congruent.add (AddCommGroup.self_modEq_zero (p := (360 : ℚ)))
  · refine ⟨congruent, not_lt.mp negative, ?_⟩
    rcases lt_or_ge angle 0 with below | nonneg
    · linarith [(lower below).2]
    · exact (upper nonneg).2

end Sparcs.Annotations
