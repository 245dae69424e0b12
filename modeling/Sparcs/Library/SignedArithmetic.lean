import Mathlib

/-! Signed machine arithmetic that does not overflow is arithmetic of integers. -/

namespace SignedArithmetic

/-- The integers that 32 bits hold. -/
def Fits32 (x : Int) : Prop := -2147483648 ≤ x ∧ x < 2147483648

theorem bmod_fits32 {x : Int} (fits : Fits32 x) : x.bmod (2 ^ 32) = x := by
  obtain ⟨lower, upper⟩ := fits
  exact Int.bmod_eq_of_le_mul_two (by omega) (by omega)

/-- A quotient by a positive number is no larger. -/
theorem fits32_tdiv {x y : Int} (positive : 0 < y) (fits : Fits32 x) : Fits32 (x.tdiv y) := by
  obtain ⟨lower, upper⟩ := fits
  rcases le_total 0 x with nonneg | nonpos
  · have small := Int.ediv_le_self y nonneg
    have quotient := Int.ediv_nonneg nonneg positive.le
    rw [Int.tdiv_eq_ediv_of_nonneg nonneg]
    constructor <;> omega
  · have nonneg : 0 ≤ -x := by omega
    have small := Int.ediv_le_self y nonneg
    have quotient := Int.ediv_nonneg nonneg positive.le
    have opposite : -x.tdiv y = -x / y := by
      rw [← Int.neg_tdiv, Int.tdiv_eq_ediv_of_nonneg nonneg]
    constructor <;> omega

theorem toInt_add32 {a b : Int32} (fits : Fits32 (a.toInt + b.toInt))
    : (a + b).toInt = a.toInt + b.toInt :=
  (Int32.toInt_add a b).trans (bmod_fits32 fits)

theorem toInt_sub32 {a b : Int32} (fits : Fits32 (a.toInt - b.toInt))
    : (a - b).toInt = a.toInt - b.toInt :=
  (Int32.toInt_sub a b).trans (bmod_fits32 fits)

theorem toInt_mul32 {a b : Int32} (fits : Fits32 (a.toInt * b.toInt))
    : (a * b).toInt = a.toInt * b.toInt :=
  (Int32.toInt_mul a b).trans (bmod_fits32 fits)

section Values

variable {a b : Int32} {m n : Int}

theorem toInt_add32_of (left : a.toInt = m) (right : b.toInt = n)
    (lower : -2147483648 ≤ m + n) (upper : m + n < 2147483648)
    : (a + b).toInt = m + n := by
  subst left right
  exact toInt_add32 ⟨lower, upper⟩

theorem toInt_sub32_of (left : a.toInt = m) (right : b.toInt = n)
    (lower : -2147483648 ≤ m - n) (upper : m - n < 2147483648)
    : (a - b).toInt = m - n := by
  subst left right
  exact toInt_sub32 ⟨lower, upper⟩

end Values

/-- A product in 64 bits. -/
theorem toInt_mul64 {a b : Int64} (lower : -9223372036854775808 ≤ a.toInt * b.toInt)
    (upper : a.toInt * b.toInt < 9223372036854775808)
    : (a * b).toInt = a.toInt * b.toInt := by
  rw [Int64.toInt_mul]
  exact Int.bmod_eq_of_le_mul_two (by omega) (by omega)

/-- An unsigned number taken for a signed one. -/
theorem toInt_toInt64 {a : UInt64} (small : a.toNat < 9223372036854775808)
    : a.toInt64.toInt = a.toNat :=
  BitVec.toInt_eq_toNat_of_lt (x := a.toBitVec) (by
    rw [UInt64.toNat_toBitVec]
    omega)

theorem toInt_toInt32 {a : UInt32} (small : a.toNat < 2147483648)
    : a.toInt32.toInt = a.toNat :=
  BitVec.toInt_eq_toNat_of_lt (x := a.toBitVec) (by
    rw [UInt32.toNat_toBitVec]
    omega)

/-- A signed number of 64 bits taken for an unsigned one of 32 bits. -/
theorem toNat_toUInt32_of_toInt {a : Int64} {n : Int} (value : a.toInt = n) (nonneg : 0 ≤ n)
    (small : n < 4294967296)
    : a.toUInt64.toUInt32.toNat = n.toNat := by
  have unsigned : a.toUInt64.toNat = n.toNat := by
    rw [Int64.toNat_toUInt64_of_le, ← Int64.toNat_toInt, value]
    rw [Int64.le_iff_toInt_le, value]
    exact nonneg
  rw [UInt64.toNat_toUInt32, unsigned, Nat.mod_eq_of_lt (by omega)]

/-- A signed number of 32 bits taken for an unsigned one. -/
theorem toNat_toUInt32 {a : Int32} {n : Nat} (value : a.toInt = n) : a.toUInt32.toNat = n := by
  rw [Int32.toNat_toUInt32_of_le, ← Int32.toNat_toInt, value, Int.toNat_natCast]
  rw [Int32.le_iff_toInt_le, value]
  exact Int.natCast_nonneg n

end SignedArithmetic
