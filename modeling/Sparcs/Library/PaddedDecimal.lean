import Mathlib.Data.List.Lex
import Mathlib.Tactic.Ring

/-! Decimal numbers of a fixed width: their digits, their value, and the order of such texts,
which is the order of the numbers.
-/

namespace PaddedDecimal

/-- The last digits of a number, with leading zeros. -/
def padded : (width n : Nat) → List Char
  | 0, _ => []
  | width + 1, n => padded width (n / 10) ++ [Nat.digitChar (n % 10)]

@[simp] theorem length_padded (width n : Nat) : (padded width n).length = width := by
  induction width generalizing n with
  | zero => rfl
  | succ width ih => rw [padded, List.length_append, ih, List.length_singleton]

theorem isDigit_of_mem_padded {width n : Nat} {c : Char} (member : c ∈ padded width n)
    : c.isDigit = true := by
  induction width generalizing n with
  | zero => exact absurd member List.not_mem_nil
  | succ width ih =>
      rw [padded, List.mem_append, List.mem_singleton] at member
      rcases member with front | last
      · exact ih front
      · rw [last]
        rw [Nat.isDigit_digitChar, decide_eq_true_eq]
        exact Nat.mod_lt _ (by decide)

/-- The digits give the number back. -/
theorem ofDigitChars_padded {width n : Nat} (small : n < 10 ^ width)
    : Nat.ofDigitChars 10 (padded width n) 0 = n := by
  induction width generalizing n with
  | zero =>
      rw [Nat.pow_zero, Nat.lt_one_iff] at small
      rw [small]
      rfl
  | succ width ih =>
      rw [Nat.pow_succ] at small
      have digit : (Nat.digitChar (n % 10)).toNat - '0'.toNat = n % 10 := by
        have all : ∀ d < 10, (Nat.digitChar d).toNat - '0'.toNat = d := by decide
        exact all _ (Nat.mod_lt _ (by decide))
      rw [padded, Nat.ofDigitChars_append, ih (by omega), Nat.ofDigitChars_cons, digit,
        Nat.ofDigitChars_nil]
      omega

theorem padded_inj {width n m : Nat} (small : n < 10 ^ width) (small' : m < 10 ^ width)
    (same : padded width n = padded width m)
    : n = m := by
  rw [← ofDigitChars_padded small, same, ofDigitChars_padded small']

/-- Texts whose first parts have one length are ordered by these first. -/
theorem append_lt_append_iff {α : Type} [LT α] {a b s t : List α}
    (same : a.length = b.length)
    : a ++ s < b ++ t ↔ a < b ∨ a = b ∧ s < t := by
  induction a generalizing b with
  | nil =>
      cases b with
      | nil => simp
      | cons y b => cases same
  | cons x a ih =>
      cases b with
      | nil => cases same
      | cons y b =>
          rw [List.cons_append, List.cons_append, List.cons_lt_cons_iff, List.cons_lt_cons_iff,
            ih (Nat.succ.inj same), List.cons.injEq]
          tauto

theorem digitChar_lt_digitChar_iff {d e : Nat} (small : d < 10) (small' : e < 10)
    : Nat.digitChar d < Nat.digitChar e ↔ d < e := by
  have all : ∀ d < 10, ∀ e < 10, Nat.digitChar d < Nat.digitChar e ↔ d < e := by decide
  exact all d small e small'

/-- The order of the texts is the one of the numbers, by induction over the digits. -/
theorem padded_lt_padded_iff {width n m : Nat} (small : n < 10 ^ width)
    (small' : m < 10 ^ width)
    : padded width n < padded width m ↔ n < m := by
  induction width generalizing n m with
  | zero =>
      rw [Nat.pow_zero, Nat.lt_one_iff] at small small'
      rw [small, small']
      exact iff_of_false (List.not_lt_nil _) (lt_irrefl _)
  | succ width ih =>
      rw [Nat.pow_succ] at small small'
      have front := ih (n := n / 10) (m := m / 10) (by omega) (by omega)
      have same : padded width (n / 10) = padded width (m / 10) ↔ n / 10 = m / 10 :=
        ⟨padded_inj (by omega) (by omega), congrArg _⟩
      have last := digitChar_lt_digitChar_iff (Nat.mod_lt n (by decide)) (Nat.mod_lt m (by decide))
      rw [padded, padded, append_lt_append_iff (by simp), front, same, List.cons_lt_cons_iff, last]
      simp only [List.not_lt_nil, and_false, or_false]
      omega

theorem padded_append_lt_iff {width n m : Nat} (small : n < 10 ^ width)
    (small' : m < 10 ^ width) {s t : List Char}
    : padded width n ++ s < padded width m ++ t ↔ n < m ∨ n = m ∧ s < t := by
  have same : padded width n = padded width m ↔ n = m := ⟨padded_inj small small', congrArg _⟩
  rw [append_lt_append_iff (by simp), padded_lt_padded_iff small small', same]

/-- Numbers of one width before the same separator. -/
theorem padded_append_cons_lt_iff {width n m : Nat} (small : n < 10 ^ width)
    (small' : m < 10 ^ width) {separator : Char} {s t : List Char}
    : padded width n ++ separator :: s < padded width m ++ separator :: t
      ↔ n < m ∨ n = m ∧ s < t := by
  rw [padded_append_lt_iff small small', List.cons_lt_cons_iff]
  simp

end PaddedDecimal
