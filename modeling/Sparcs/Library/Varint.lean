import Mathlib.Algebra.Order.Ring.Nat
import Mathlib.Tactic.NormNum

/-! Numbers as groups of seven bits, the lowest first, in bytes of which all but the last have
their high bit set.
-/

namespace Varint

def encode (n : Nat) : List UInt8 :=
  if n < 128 then [UInt8.ofNat n] else UInt8.ofNat (n % 128 + 128) :: encode (n / 128)
termination_by n
decreasing_by omega

/-- The number at the front of the bytes, in at most `width` of them, and the bytes behind it. -/
def read : (width : Nat) → List UInt8 → Option (Nat × List UInt8)
  | 0, _ => none
  | _ + 1, [] => none
  | width + 1, byte :: rest =>
      if byte.toNat < 128 then some (byte.toNat, rest)
      else (read width rest).map fun found => (byte.toNat - 128 + 128 * found.1, found.2)

variable {n width : Nat}

/-- The last byte. -/
theorem encode_small (small : n < 128) : encode n = [UInt8.ofNat n] := by
  rw [encode, if_pos small]

/-- A byte with the bytes of the higher bits. -/
theorem encode_large (large : 128 ≤ n)
    : encode n = UInt8.ofNat (n % 128 + 128) :: encode (n / 128) := by
  rw [encode, if_neg (Nat.not_lt.mpr large)]

theorem toNat_small (small : n < 128) : (UInt8.ofNat n).toNat = n := by
  rw [UInt8.toNat_ofNat']
  exact Nat.mod_eq_of_lt (by omega)

theorem toNat_continued (n : Nat) : (UInt8.ofNat (n % 128 + 128)).toNat = n % 128 + 128 := by
  rw [UInt8.toNat_ofNat']
  exact Nat.mod_eq_of_lt (by omega)

/-- How long a number is, by induction over the bytes. -/
theorem encode_length_le_iff (n width : Nat)
    : (encode n).length ≤ width + 1 ↔ n < 128 ^ (width + 1) := by
  induction width generalizing n with
  | zero =>
      by_cases small : n < 128
      · simp [encode_small small, small]
      · have large : 128 ≤ n := Nat.not_lt.mp small
        have more : (encode (n / 128)).length ≠ 0 := by
          rw [encode]
          split <;> simp
        rw [encode_large large, List.length_cons]
        omega
  | succ width ih =>
      by_cases small : n < 128
      · have power : 128 ^ 1 ≤ 128 ^ (width + 1 + 1) :=
          Nat.pow_le_pow_right (by decide) (by omega)
        rw [encode_small small, List.length_singleton]
        omega
      · have large : 128 ≤ n := Nat.not_lt.mp small
        rw [encode_large large, List.length_cons, Nat.add_le_add_iff_right, ih,
          Nat.div_lt_iff_lt_mul (by decide), ← Nat.pow_succ]

theorem encode_length_pos (n : Nat) : 0 < (encode n).length := by
  rw [encode]
  split <;> simp

/-- A number that is not too large is read back, with the bytes behind it. -/
theorem read_encode (small : n < 128 ^ (width + 1)) (rest : List UInt8)
    : read (width + 1) (encode n ++ rest) = some (n, rest) := by
  induction width generalizing n with
  | zero =>
      have last : n < 128 := by simpa using small
      rw [encode_small last, List.singleton_append, read, toNat_small last, if_pos last]
  | succ width ih =>
      rcases Nat.lt_or_ge n 128 with last | large
      · rw [encode_small last, List.singleton_append, read, toNat_small last, if_pos last]
      · have higher : n / 128 < 128 ^ (width + 1) := by
          rwa [Nat.div_lt_iff_lt_mul (by decide), ← Nat.pow_succ]
        rw [encode_large large, List.cons_append, read, toNat_continued,
          if_neg (by omega), ih higher, Option.map_some]
        have bits := Nat.div_add_mod n 128
        simp only [Option.some.injEq, Prod.mk.injEq, and_true]
        omega

/-- The bytes of a number without the last one are not read. -/
theorem read_take_encode {count : Nat} (short : count < (encode n).length) (width : Nat)
    : read width ((encode n).take count) = none := by
  induction width generalizing n count with
  | zero => rfl
  | succ width ih =>
      cases count with
      | zero => rfl
      | succ count =>
          rcases Nat.lt_or_ge n 128 with last | large
          · rw [encode_small last, List.length_singleton] at short
            omega
          · rw [encode_large large, List.length_cons] at short
            rw [encode_large large, List.take_succ_cons, read, toNat_continued,
              if_neg (by omega), ih (by omega), Option.map_none]

end Varint
