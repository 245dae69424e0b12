import Mathlib

/-! Rounding of positive floating-point numbers: what is rounded passes no number of the grid
that the result lies on. So a whole number that is added to a fraction comes out, after
truncation, as the sum with one of the two whole numbers around this fraction.
-/

namespace FloatRounding

open Float.Model
open UnpackedFloat

/-- `q` is one of the two whole numbers around `m / 2 ^ k`, and this quotient if it is whole. -/
def Around (q m k : Nat) : Prop := q = m / 2 ^ k ∨ q = m / 2 ^ k + 1 ∧ ¬2 ^ k ∣ m

section Shifts

theorem shift_succ (em : ExtendedMantissa) (k : Nat)
    : em >>> (k + 1) = (em >>> k).shiftRightOne := rfl

theorem shift_mantissa (em : ExtendedMantissa) (k : Nat)
    : (em >>> k).mantissa = em.mantissa / 2 ^ k := by
  induction k with
  | zero => exact (Nat.div_one _).symm
  | succ k ih =>
      rw [shift_succ, ExtendedMantissa.shiftRightOne, ih, Nat.div_div_eq_div_mul, Nat.pow_succ]

/-- The residual bits of a shifted number are clear just when the shift loses nothing. -/
theorem shift_residual (m k : Nat)
    : ((ExtendedMantissa.ofMantissaAndAccuracy m .exact >>> k).roundBit
        || (ExtendedMantissa.ofMantissaAndAccuracy m .exact >>> k).stickyBit) = false
      ↔ 2 ^ k ∣ m := by
  induction k with
  | zero => simp [ExtendedMantissa.ofMantissaAndAccuracy, HShiftRight.hShiftRight, Nat.repeat]
  | succ k ih =>
      have mantissa : _ = m / 2 ^ k :=
        shift_mantissa (ExtendedMantissa.ofMantissaAndAccuracy m .exact) k
      rw [shift_succ, ExtendedMantissa.shiftRightOne]
      dsimp only
      rw [Bool.or_eq_false_iff, ih, mantissa, Nat.pow_succ, Nat.dvd_iff_mod_eq_zero,
        Nat.dvd_iff_mod_eq_zero, Nat.mod_mul, bne_eq_false_iff_eq]
      have power : 0 < 2 ^ k := Nat.two_pow_pos k
      constructor
      · rintro ⟨even, whole⟩
        rw [even, whole, Nat.mul_zero]
      · intro sum
        obtain ⟨whole, shifted⟩ := Nat.add_eq_zero_iff.mp sum
        exact ⟨(Nat.mul_eq_zero.mp shifted).resolve_left power.ne', whole⟩

theorem roundedMantissa_around (m k : Nat)
    : Around (ExtendedMantissa.ofMantissaAndAccuracy m .exact >>> k).roundedMantissa m k := by
  have residual := shift_residual m k
  have mantissa : _ = m / 2 ^ k :=
    shift_mantissa (ExtendedMantissa.ofMantissaAndAccuracy m .exact) k
  generalize ExtendedMantissa.ofMantissaAndAccuracy m .exact >>> k = em at residual mantissa ⊢
  obtain ⟨quotient, roundBit, stickyBit⟩ := em
  dsimp only at mantissa residual
  rw [Around, ← mantissa, ← residual]
  cases roundBit <;> cases stickyBit <;>
    simp [ExtendedMantissa.roundedMantissa, ExtendedMantissa.accuracy,
      Accuracy.roundToNearestEven]
  omega

variable {q m k c : Nat}

theorem Around.le (around : Around q m k) (above : m ≤ c * 2 ^ k) : q ≤ c := by
  rcases around with rfl | ⟨rfl, inexact⟩
  · exact Nat.div_le_of_le_mul (by rwa [Nat.mul_comm])
  · have different : m ≠ c * 2 ^ k := fun same => inexact ⟨c, by rw [same, Nat.mul_comm]⟩
    exact (Nat.div_lt_iff_lt_mul (Nat.two_pow_pos k)).mpr (lt_of_le_of_ne above different)

theorem Around.ge (around : Around q m k) (below : c * 2 ^ k ≤ m) : c ≤ q := by
  have quotient : c ≤ m / 2 ^ k := (Nat.le_div_iff_mul_le (Nat.two_pow_pos k)).mpr below
  rcases around with rfl | ⟨rfl, -⟩
  · exact quotient
  · exact Nat.le_succ_of_le quotient

end Shifts

section Rounding

variable (spec : Format)

/-- The exponent of the grid on which a normal number of this size lies. -/
def gridExponent (m : Nat) (e : Int) : Int := totalExponent m e - spec.mantissaBits

/-- The mantissa has as many bits as the format has room for. -/
def Full (m : Nat) : Prop := 2 ^ spec.mantissaBitsWithoutImplicit ≤ m ∧ m < 2 ^ spec.mantissaBits

variable {spec} {m : Nat} {e : Int}

theorem targetExponent_eq_grid (normal : spec.minExponent ≤ gridExponent spec m e)
    : spec.targetExponent (totalExponent m e) = gridExponent spec m e :=
  max_eq_left normal

theorem Full.log2 (full : Full spec m) : m.log2 = spec.mantissaBitsWithoutImplicit := by
  have positive : m ≠ 0 := (lt_of_lt_of_le (Nat.two_pow_pos _) full.1).ne'
  have upper := full.2
  rw [Format.mantissaBits, Nat.add_comm] at upper
  exact (Nat.log2_eq_iff positive).mpr ⟨full.1, upper⟩

theorem Full.gridExponent_eq (full : Full spec m) : gridExponent spec m e = e := by
  rw [gridExponent, totalExponent, full.log2, Format.mantissaBits]
  push_cast
  ring

/-- A shift onto the grid leaves the bits that there is room for. -/
theorem full_div {k : Nat} (positive : 0 < m) (onto : e + k = gridExponent spec m e)
    : Full spec (m / 2 ^ k) := by
  rw [gridExponent, totalExponent, Format.mantissaBits] at onto
  have bits : m.log2 = spec.mantissaBitsWithoutImplicit + k := by push_cast at onto; omega
  have bounds := (Nat.log2_eq_iff positive.ne').mp bits
  constructor
  · rw [Nat.le_div_iff_mul_le (Nat.two_pow_pos k), ← Nat.pow_add]
    exact bounds.1
  · rw [Nat.div_lt_iff_lt_mul (Nat.two_pow_pos k), ← Nat.pow_add, Format.mantissaBits]
    refine lt_of_lt_of_eq bounds.2 ?_
    congr 1
    omega

/-- A mantissa for which there is room is not shifted. -/
theorem shiftToTargetExponent_full (full : Full spec m) (normal : spec.minExponent ≤ e)
    : shiftToTargetExponent spec m e .exact = (⟨m, false, false⟩, e) := by
  have grid : gridExponent spec m e = e := full.gridExponent_eq
  rw [shiftToTargetExponent, targetExponent_eq_grid (by rw [grid]; exact normal), grid,
    shiftToExponent, sub_self]
  exact Prod.ext rfl (by simp)

/-- A mantissa that rounding has made one bit too long is shifted by this bit. -/
theorem shiftToTargetExponent_overflow (normal : spec.minExponent ≤ e)
    : shiftToTargetExponent spec (2 ^ spec.mantissaBits) e .exact
      = (⟨2 ^ spec.mantissaBitsWithoutImplicit, false, false⟩, e + 1) := by
  have grid : gridExponent spec (2 ^ spec.mantissaBits) e = e + 1 := by
    rw [gridExponent, totalExponent, Nat.log2_two_pow]
    ring
  rw [shiftToTargetExponent, targetExponent_eq_grid (by rw [grid]; omega), grid,
    shiftToExponent, add_sub_cancel_left]
  have bits : 2 ^ spec.mantissaBits = 2 * 2 ^ spec.mantissaBitsWithoutImplicit := by
    rw [Format.mantissaBits, Nat.add_comm, Nat.pow_succ, Nat.mul_comm]
  refine Prod.ext ?_ (by simp)
  change ExtendedMantissa.mk (2 ^ spec.mantissaBits / 2) (2 ^ spec.mantissaBits % 2 != 0) false = _
  rw [bits]
  simp

/-- What needs no rounding stays. -/
theorem roundWithAccuracy_full (full : Full spec m) (normal : spec.minExponent ≤ e)
    (positive : 0 < m)
    : roundWithAccuracy spec .positive m e .exact = .finite .positive m e positive := by
  have rounded : (ExtendedMantissa.mk m false false).roundedMantissa = m := rfl
  rw [roundWithAccuracy, shiftToTargetExponent_full full normal]
  dsimp only
  rw [rounded, shiftToTargetExponent_full full normal]
  exact dif_neg positive.ne'

/-- Rounded to `q / 2 ^ j'`, the number `m / 2 ^ j` passes no whole number. -/
structure RoundsTo (spec : Format) (m j q j' : Nat) : Prop where
  full : Full spec q
  coarser : j' ≤ j
  le : ∀ c, m ≤ c * 2 ^ j → q ≤ c * 2 ^ j'
  ge : ∀ c, c * 2 ^ j ≤ m → c * 2 ^ j' ≤ q

/-- Rounding of a number with enough bits that lies below the whole numbers without a fraction. -/
theorem round_positive {j : Nat} (enough : 2 ^ spec.mantissaBitsWithoutImplicit ≤ m)
    (small : m < 2 ^ (spec.mantissaBitsWithoutImplicit + j))
    (normal : spec.minExponent ≤ -(j : Int))
    : ∃ (q j' : Nat) (positive : 0 < q),
      round spec .positive m (-(j : Int)) = .finite .positive q (-(j' : Int)) positive
      ∧ RoundsTo spec m j q j' := by
  have positive : 0 < m := lt_of_lt_of_le (Nat.two_pow_pos _) enough
  obtain ⟨k, bits⟩ : ∃ k, m.log2 = spec.mantissaBitsWithoutImplicit + k :=
    Nat.exists_eq_add_of_le ((Nat.le_log2 positive.ne').mpr enough)
  have below : k < j := by
    have := (Nat.log2_lt positive.ne').mpr small
    omega
  have grid : gridExponent spec m (-(j : Int)) = -(j : Int) + k := by
    rw [gridExponent, totalExponent, bits, Format.mantissaBits]
    push_cast
    ring
  have target : spec.targetExponent (totalExponent m (-(j : Int))) = -(j : Int) + k := by
    rw [targetExponent_eq_grid (by rw [grid]; omega), grid]
  have shifted
      : shiftToTargetExponent spec m (-(j : Int)) .exact
        = (ExtendedMantissa.ofMantissaAndAccuracy m .exact >>> k, -(j : Int) + k) := by
    rw [shiftToTargetExponent, target, shiftToExponent, add_sub_cancel_left, Int.toNat_natCast]
  have unshifted : decreaseExponent m (-(j : Int)) (-(j : Int) + k) = (m, -(j : Int)) := by
    have unmoved : (-(j : Int) - (-(j : Int) + k)).toNat = 0 := by omega
    rw [decreaseExponent, unmoved]
    exact Prod.ext rfl (by simp)
  have around := roundedMantissa_around m k
  have quotient : Full spec (m / 2 ^ k) := full_div positive grid.symm
  have split : 2 ^ j = 2 ^ (j - k) * 2 ^ k := by
    rw [← Nat.pow_add, Nat.sub_add_cancel below.le]
  rw [UnpackedFloat.round, target, unshifted]
  dsimp only
  rw [roundWithAccuracy, shifted]
  dsimp only
  generalize (ExtendedMantissa.ofMantissaAndAccuracy m .exact >>> k).roundedMantissa = q at around ⊢
  have le (c : Nat) (above : m ≤ c * 2 ^ j) : q ≤ c * 2 ^ (j - k) :=
    around.le (by rwa [Nat.mul_assoc, ← split])
  have ge (c : Nat) (below : c * 2 ^ j ≤ m) : c * 2 ^ (j - k) ≤ q :=
    around.ge (by rwa [Nat.mul_assoc, ← split])
  have size : q ≤ 2 ^ spec.mantissaBits := by
    have upper := quotient.2
    rcases around with rfl | ⟨rfl, -⟩ <;> omega
  have exponent : -(j : Int) + k = -((j - k : Nat) : Int) := by omega
  rcases size.lt_or_eq with fits | overflow
  · have full : Full spec q := by
      refine ⟨le_trans quotient.1 ?_, fits⟩
      rcases around with rfl | ⟨rfl, -⟩ <;> omega
    have filled : 0 < q := lt_of_lt_of_le (Nat.two_pow_pos _) full.1
    refine ⟨q, j - k, filled, ?_, full, Nat.sub_le _ _, le, ge⟩
    rw [shiftToTargetExponent_full full (by omega), exponent]
    exact dif_neg filled.ne'
  · have half : 2 ^ spec.mantissaBits = 2 ^ spec.mantissaBitsWithoutImplicit * 2 := by
      rw [Format.mantissaBits, Nat.add_comm, Nat.pow_succ]
    have step : 2 ^ (j - k) = 2 ^ (j - k - 1) * 2 := by
      rw [← Nat.pow_succ]
      congr 1
      omega
    refine ⟨2 ^ spec.mantissaBitsWithoutImplicit, j - k - 1, Nat.two_pow_pos _, ?_,
      ⟨⟨le_rfl, by rw [half]; have := Nat.two_pow_pos spec.mantissaBitsWithoutImplicit; omega⟩,
        by omega, fun c above => ?_, fun c below => ?_⟩⟩
    · have next : -((j - k : Nat) : Int) + 1 = -((j - k - 1 : Nat) : Int) := by omega
      rw [overflow, shiftToTargetExponent_overflow (by omega), exponent, next]
      exact dif_neg (Nat.two_pow_pos _).ne'
    · have bound := le c above
      rw [overflow, half, step, ← Nat.mul_assoc] at bound
      exact Nat.le_of_mul_le_mul_right bound two_pos
    · have bound := ge c below
      rw [overflow, half, step, ← Nat.mul_assoc] at bound
      exact Nat.le_of_mul_le_mul_right bound two_pos

end Rounding

section Packing

variable {spec : Format} {m : Nat} {e : Int}

theorem unpackSign_packComponents (s : Sign) (exponent : BitVec spec.exponentBits)
    (mantissa : BitVec spec.mantissaBitsWithoutImplicit)
    : unpackSign (packComponents spec s exponent mantissa) = s.toBitVec := by
  refine BitVec.eq_of_getLsbD_eq fun i inside => ?_
  obtain rfl : i = 0 := by omega
  simp [unpackSign, packComponents, BitVec.getLsbD_append, BitVec.getElem_append]

/-- The first bit of a full mantissa goes without saying. -/
theorem toNat_implicit (full : Full spec m)
    : (1#1 ++ BitVec.ofNat spec.mantissaBitsWithoutImplicit m).toNat = m := by
  obtain ⟨lower, upper⟩ := full
  have rest : (BitVec.ofNat spec.mantissaBitsWithoutImplicit m).toNat
      = m - 2 ^ spec.mantissaBitsWithoutImplicit := by
    rw [Format.mantissaBits, Nat.add_comm, Nat.pow_succ] at upper
    rw [BitVec.toNat_ofNat, Nat.mod_eq_sub_mod lower, Nat.mod_eq_of_lt (by omega)]
  have fits := (BitVec.ofNat spec.mantissaBitsWithoutImplicit m).isLt
  rw [BitVec.toNat_append, ← Nat.shiftLeft_add_eq_or_of_lt fits, rest]
  simp [Nat.shiftLeft_eq]
  omega

/-- Normal numbers that are not too large are stored as they are. -/
theorem unpack_pack {s : Sign} {positive : 0 < m} (full : Full spec m)
    (lower : 1 ≤ e + spec.exponentBias + spec.mantissaBitsWithoutImplicit)
    (upper : e + spec.exponentBias + spec.mantissaBitsWithoutImplicit + 1 < 2 ^ spec.exponentBits)
    : unpack spec (pack spec (.finite s m e positive)) = .finite s m e positive := by
  obtain ⟨biased, same⟩
      : ∃ biased : Nat, e + spec.exponentBias + spec.mantissaBitsWithoutImplicit = biased :=
    Int.eq_ofNat_of_zero_le (by omega)
  rw [same] at lower upper
  have fits : biased + 1 < 2 ^ spec.exponentBits := by exact_mod_cast upper
  have word : (BitVec.ofNat spec.exponentBits biased).toNat = biased := by
    rw [BitVec.toNat_ofNat, Nat.mod_eq_of_lt (by omega)]
  have notZero : BitVec.ofNat spec.exponentBits biased ≠ 0#_ := by
    intro zero
    rw [zero, BitVec.toNat_zero] at word
    omega
  have notOnes : BitVec.ofNat spec.exponentBits biased ≠ -1#_ := by
    intro ones
    rw [ones, BitVec.neg_one_eq_allOnes, BitVec.toNat_allOnes] at word
    omega
  have bits : m.log2 + 1 = spec.mantissaBits := by
    rw [full.log2, Format.mantissaBits, Nat.add_comm]
  have sign : Sign.ofBitVec s.toBitVec = s := by cases s <;> rfl
  rw [UnpackedFloat.pack, same, Int.toNat_natCast, if_neg (by omega), if_pos bits,
    UnpackedFloat.unpack]
  simp only [unpackMantissa_packComponents, unpackExponent_packComponents,
    unpackSign_packComponents, notOnes, notZero, if_false, sign, word, toNat_implicit full]
  congr 1
  omega

end Packing

-----------------------------------------------------------------------------------------
-- Numbers with 53 bits
-----------------------------------------------------------------------------------------

section Binary64

variable {m j : Nat}

/-- A positive number of at most 53 bits, with that many stored. -/
structure Stores (f : Float.Model) (m j : Nat) : Prop where
  full : Full Format.binary64 m
  small : j ≤ 1000
  unpack : ∃ positive, f.unpack = .finite .positive m (-(j : Int)) positive

theorem stores_pack {positive : 0 < m} (full : Full Format.binary64 m) (small : j ≤ 1000)
    : Stores (Float.Model.pack (.finite .positive m (-(j : Int)) positive)) m j := by
  refine ⟨full, small, positive, unpack_pack full ?_ ?_⟩
  · change (1 : Int) ≤ -(j : Int) + (2 ^ 10 - 1 : Nat) + 52
    omega
  · change -(j : Int) + (2 ^ 10 - 1 : Nat) + 52 + 1 < 2 ^ 11
    omega

theorem decreaseExponent_of_le {e target : Int} (below : e ≤ target)
    : decreaseExponent m e target = (m, e) := by
  have unmoved : (e - target).toNat = 0 := by omega
  rw [decreaseExponent, unmoved]
  exact Prod.ext rfl (by simp)

theorem decreaseExponent_neg {j k : Nat} (finer : j ≤ k)
    : decreaseExponent m (-(j : Int)) (-(k : Int)) = (m * 2 ^ (k - j), -(k : Int)) := by
  have amount : (-(j : Int) - -(k : Int)).toNat = k - j := by omega
  rw [decreaseExponent, amount, Nat.shiftLeft_eq]
  exact Prod.ext rfl (by dsimp only; omega)

/-- Conversion to an integer truncates. -/
theorem Stores.toInt64 {f : Float.Model} (stores : Stores f m j)
    : f.toInt64.toInt = (m / 2 ^ j : Nat) := by
  obtain ⟨positive, unpacked⟩ := stores.unpack
  have truncated : roundToInt .positive m (-(j : Int)) = (m / 2 ^ j : Nat) := by
    rw [roundToInt, decreaseExponent_of_le (by omega)]
    dsimp only
    have amount : (0 - -(j : Int)).toNat = j := by omega
    rw [shiftToExponent, amount]
    dsimp only
    rw [shift_mantissa]
    rfl
  have upper : m / 2 ^ j < 2 ^ 53 := lt_of_le_of_lt (Nat.div_le_self _ _) stores.full.2
  rw [Float.Model.toInt64, unpacked, UnpackedFloat.toInt64, UnpackedFloat.toInt, truncated,
    ← Int64.ofIntLE_eq_ofIntClamp, Int64.toInt_ofIntLE]
  · exact le_trans (by decide) (Int.natCast_nonneg _)
  · have limit : Int64.maxValue.toInt = 2 ^ 63 - 1 := by decide
    rw [limit]
    omega

/-- A whole number with at most 53 bits is stored as it is. -/
theorem stores_ofInt64 {t : Int64} {n : Nat} (value : t.toInt = n) (positive : 0 < n)
    (small : n < 2 ^ 53)
    : ∃ j, Stores (Float.Model.ofInt64 t) (n * 2 ^ j) j := by
  have bits : n.log2 < 53 := (Nat.log2_lt positive.ne').mpr small
  have full : Full Format.binary64 (n * 2 ^ (52 - n.log2)) := by
    obtain ⟨lower, upper⟩ := (Nat.log2_eq_iff positive.ne').mp rfl
    have power : 2 ^ n.log2 * 2 ^ (52 - n.log2) = 2 ^ 52 := by
      rw [← Nat.pow_add]
      congr 1
      omega
    constructor
    · rw [← power]
      exact Nat.mul_le_mul_right _ lower
    · have bound := Nat.mul_lt_mul_of_pos_right upper (Nat.two_pow_pos (52 - n.log2))
      rw [Nat.pow_succ, Nat.mul_right_comm, power] at bound
      exact bound
  refine ⟨52 - n.log2, ?_⟩
  have filled : 0 < n * 2 ^ (52 - n.log2) := Nat.mul_pos positive (Nat.two_pow_pos _)
  have target
      : Format.binary64.targetExponent (totalExponent n 0) = -((52 - n.log2 : Nat) : Int) := by
    change max ((n.log2 : Int) + 1 + 0 - ((1 + 52 : Nat) : Int))
      (3 - 2 ^ 10 - ((1 + 52 : Nat) : Int)) = _
    omega
  have whole
      : UnpackedFloat.ofInt64 Format.binary64 t
        = .finite .positive (n * 2 ^ (52 - n.log2)) (-((52 - n.log2 : Nat) : Int)) filled := by
    have above : compare (n : Int) 0 = .gt := by rw [compare_gt_iff_gt]; omega
    have finer : decreaseExponent n 0 (-((52 - n.log2 : Nat) : Int)) = _ :=
      decreaseExponent_neg (Nat.zero_le _)
    have normal : Format.binary64.minExponent ≤ -((52 - n.log2 : Nat) : Int) := by
      change 3 - 2 ^ 10 - ((1 + 52 : Nat) : Int) ≤ _
      omega
    rw [UnpackedFloat.ofInt64, UnpackedFloat.ofInt, value, UnpackedFloat.normalize, above]
    dsimp only
    rw [Int.toNat_natCast, UnpackedFloat.round, target, finer]
    dsimp only
    rw [Nat.sub_zero, roundWithAccuracy_full full normal filled]
  rw [Float.Model.ofInt64, whole]
  exact stores_pack full (by omega)

/-- A sum is rounded from what it is exactly. -/
theorem Stores.add {f g : Float.Model} {n k : Nat} (left : Stores f m j) (right : Stores g n k)
    (small : m * 2 ^ (max j k - j) + n * 2 ^ (max j k - k) < 2 ^ (52 + max j k))
    : ∃ q i, Stores (f + g) q i
      ∧ RoundsTo Format.binary64 (m * 2 ^ (max j k - j) + n * 2 ^ (max j k - k)) (max j k) q i := by
  obtain ⟨positive, unpacked⟩ := left.unpack
  obtain ⟨positive', unpacked'⟩ := right.unpack
  have enough : 2 ^ 52 ≤ m * 2 ^ (max j k - j) + n * 2 ^ (max j k - k) :=
    le_trans left.full.1 (le_trans (Nat.le_mul_of_pos_right m (Nat.two_pow_pos _))
      (Nat.le_add_right _ _))
  have normal : Format.binary64.minExponent ≤ -((max j k : Nat) : Int) := by
    have := left.small
    have := right.small
    change 3 - 2 ^ 10 - ((1 + 52 : Nat) : Int) ≤ _
    omega
  obtain ⟨q, i, filled, rounded, bounds⟩ := round_positive enough small normal
  refine ⟨q, i, ?_, bounds⟩
  have sum
      : UnpackedFloat.add Format.binary64 f.unpack g.unpack
        = .finite .positive q (-(i : Int)) filled := by
    have smaller : min (-(j : Int)) (-(k : Int)) = -((max j k : Nat) : Int) := by omega
    rw [unpacked, unpacked', UnpackedFloat.add]
    dsimp only
    rw [smaller, decreaseExponent_neg (le_max_left j k), decreaseExponent_neg (le_max_right j k)]
    dsimp only [Sign.apply]
    rw [← Nat.cast_add, UnpackedFloat.normalize]
    have above : compare ((m * 2 ^ (max j k - j) + n * 2 ^ (max j k - k) : Nat) : Int) 0 = .gt := by
      rw [compare_gt_iff_gt]
      omega
    rw [above]
    dsimp only
    rw [Int.toNat_natCast, rounded]
  change Stores (Float.Model.pack (UnpackedFloat.add Format.binary64 f.unpack g.unpack)) q i
  rw [sum]
  exact stores_pack bounds.full (le_trans bounds.coarser (max_le left.small right.small))

/-- Zero, and what is added to it. -/
theorem ofInt64_zero : (Float.Model.ofInt64 0).unpack = .zero .positive := rfl

/-- A whole number plus one with a fraction, truncated: no whole bound is passed. -/
theorem toInt64_add_between {t : Int64} {n lo hi : Nat} {x : Float.Model} (value : t.toInt = n)
    (stores : Stores x m j) (lower : lo * 2 ^ j ≤ m) (upper : m ≤ hi * 2 ^ j)
    (small : n + hi < 2 ^ 52)
    : (n + lo : Int) ≤ (Float.Model.ofInt64 t + x).toInt64.toInt
      ∧ (Float.Model.ofInt64 t + x).toInt64.toInt ≤ n + hi := by
  rcases Nat.eq_zero_or_pos n with rfl | positive
  · obtain rfl : t = 0 := Int64.toInt_inj.mp value
    obtain ⟨filled, unpacked⟩ := stores.unpack
    have sum
        : UnpackedFloat.add Format.binary64 (Float.Model.ofInt64 0).unpack x.unpack
          = x.unpack := by
      rw [ofInt64_zero, unpacked]
      rfl
    have least : lo ≤ m / 2 ^ j := (Nat.le_div_iff_mul_le (Nat.two_pow_pos j)).mpr lower
    have most : m / 2 ^ j ≤ hi := Nat.div_le_of_le_mul (by rwa [Nat.mul_comm])
    change _ ≤ (Float.Model.pack (UnpackedFloat.add Format.binary64 _ _)).toInt64.toInt
      ∧ (Float.Model.pack (UnpackedFloat.add Format.binary64 _ _)).toInt64.toInt ≤ _
    rw [sum, unpacked, (stores_pack stores.full stores.small).toInt64]
    omega
  · obtain ⟨i, whole⟩ := stores_ofInt64 value positive (by omega)
    have left : n * 2 ^ i * 2 ^ (max i j - i) = n * 2 ^ max i j := by
      rw [Nat.mul_assoc, ← Nat.pow_add, Nat.add_sub_cancel' (le_max_left i j)]
    have scale : 2 ^ j * 2 ^ (max i j - j) = 2 ^ max i j := by
      rw [← Nat.pow_add, Nat.add_sub_cancel' (le_max_right i j)]
    have lower : lo * 2 ^ max i j ≤ m * 2 ^ (max i j - j) := by
      rw [← scale, ← Nat.mul_assoc]
      exact Nat.mul_le_mul_right _ lower
    have upper : m * 2 ^ (max i j - j) ≤ hi * 2 ^ max i j := by
      rw [← scale, ← Nat.mul_assoc]
      exact Nat.mul_le_mul_right _ upper
    have above
        : n * 2 ^ i * 2 ^ (max i j - i) + m * 2 ^ (max i j - j) ≤ (n + hi) * 2 ^ max i j := by
      rw [left, Nat.add_mul]
      exact Nat.add_le_add_left upper _
    have below
        : (n + lo) * 2 ^ max i j ≤ n * 2 ^ i * 2 ^ (max i j - i) + m * 2 ^ (max i j - j) := by
      rw [left, Nat.add_mul]
      exact Nat.add_le_add_left lower _
    have fits := Nat.mul_lt_mul_of_pos_right small (Nat.two_pow_pos (max i j))
    rw [← Nat.pow_add] at fits
    obtain ⟨q, k, sum, bounds⟩ := whole.add stores (lt_of_le_of_lt above fits)
    have truncated := sum.toInt64
    have least : n + lo ≤ q / 2 ^ k :=
      (Nat.le_div_iff_mul_le (Nat.two_pow_pos k)).mpr (bounds.ge _ below)
    have most : q / 2 ^ k ≤ n + hi :=
      Nat.div_le_of_le_mul (by rw [Nat.mul_comm]; exact bounds.le _ above)
    omega

/-- A whole number plus zero. -/
theorem toInt64_add_zero {t : Int64} {n : Nat} {x : Float.Model} {s : Sign} (value : t.toInt = n)
    (zero : x.unpack = .zero s) (small : n < 2 ^ 53)
    : (Float.Model.ofInt64 t + x).toInt64.toInt = n := by
  rcases Nat.eq_zero_or_pos n with rfl | positive
  · obtain rfl : t = 0 := Int64.toInt_inj.mp value
    change (Float.Model.pack (UnpackedFloat.add Format.binary64 _ _)).toInt64.toInt = _
    rw [ofInt64_zero, zero]
    cases s <;> rfl
  · obtain ⟨i, whole⟩ := stores_ofInt64 value positive small
    obtain ⟨filled, unpacked⟩ := whole.unpack
    have sum
        : UnpackedFloat.add Format.binary64 (Float.Model.ofInt64 t).unpack x.unpack
          = .finite .positive (n * 2 ^ i) (-(i : Int)) filled := by
      rw [unpacked, zero]
      rfl
    change (Float.Model.pack (UnpackedFloat.add Format.binary64 _ _)).toInt64.toInt = n
    rw [sum, (stores_pack whole.full whole.small).toInt64,
      Nat.mul_div_cancel _ (Nat.two_pow_pos i)]

/-- A positive number with 53 bits that lies between two whole numbers. -/
def Between (lo hi : Nat) : UnpackedFloat → Prop
  | .finite .positive m e _ =>
      (2 ^ 52 ≤ m ∧ m < 2 ^ 53) ∧ (-1000 ≤ e ∧ e ≤ 0)
        ∧ lo * 2 ^ (-e).toNat ≤ m ∧ m ≤ hi * 2 ^ (-e).toNat
  | _ => False

instance (lo hi : Nat) : DecidablePred (Between lo hi)
  | .finite .positive _ _ _ => inferInstanceAs (Decidable (_ ∧ _))
  | .finite .negative _ _ _ => isFalse not_false
  | .zero _ => isFalse not_false
  | .infinity _ => isFalse not_false
  | .notANumber => isFalse not_false

theorem Between.stores {lo hi : Nat} {x : Float.Model} (between : Between lo hi x.unpack)
    : ∃ m j, Stores x m j ∧ lo * 2 ^ j ≤ m ∧ m ≤ hi * 2 ^ j := by
  generalize unpacked : x.unpack = f at between
  match f, between with
  | .finite .positive m e positive, ⟨full, ⟨small, whole⟩, lower, upper⟩ =>
      have exponent : e = -((-e).toNat : Int) := by omega
      refine ⟨m, (-e).toNat, ⟨full, by omega, positive, ?_⟩, lower, upper⟩
      rw [unpacked, ← exponent]

end Binary64

end FloatRounding
