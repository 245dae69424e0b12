import Sparcs.Library.SignedArithmetic

/-! Expressions of the type `int`: what the machine computes, their value among the integers,
and that no part of them overflows.
-/

open SignedArithmetic

/-- An expression over values that are known. -/
inductive IntExpr where
  | value (x : Int32)
  | add (left right : IntExpr)
  | sub (left right : IntExpr)
  | mul (left right : IntExpr)
  | div (left right : IntExpr)
  | mod (left right : IntExpr)
  /-- An entry of a constant table. -/
  | entry (table : List Int32) (index : IntExpr)

namespace IntExpr

instance : Coe Int32 IntExpr := ⟨value⟩
instance (n : Nat) : OfNat IntExpr n := ⟨value (Int32.ofNat n)⟩
instance : Add IntExpr := ⟨add⟩
instance : Sub IntExpr := ⟨sub⟩
instance : Mul IntExpr := ⟨mul⟩
instance : Div IntExpr := ⟨div⟩
instance : Mod IntExpr := ⟨mod⟩

/-- What the machine computes; overflow wraps around. -/
def eval : IntExpr → Int32
  | value x => x
  | add left right => left.eval + right.eval
  | sub left right => left.eval - right.eval
  | mul left right => left.eval * right.eval
  | div left right => left.eval / right.eval
  | mod left right => left.eval % right.eval
  | entry table index => table.getD index.eval.toNatClampNeg 0

/-- The value among the integers, quotients rounded towards zero. -/
def exact : IntExpr → Int
  | value x => x.toInt
  | add left right => left.exact + right.exact
  | sub left right => left.exact - right.exact
  | mul left right => left.exact * right.exact
  | div left right => left.exact.tdiv right.exact
  | mod left right => left.exact.tmod right.exact
  | entry table index => (table.getD index.exact.toNat 0).toInt

/-- No part of the expression overflows, divides by zero or reads outside its table. -/
def InRange : IntExpr → Prop
  | value _ => True
  | add left right => left.InRange ∧ right.InRange ∧ Fits32 (left.exact + right.exact)
  | sub left right => left.InRange ∧ right.InRange ∧ Fits32 (left.exact - right.exact)
  | mul left right => left.InRange ∧ right.InRange ∧ Fits32 (left.exact * right.exact)
  | div left right =>
      left.InRange ∧ right.InRange ∧ right.exact ≠ 0 ∧ Fits32 (left.exact.tdiv right.exact)
  | mod left right =>
      left.InRange ∧ right.InRange ∧ right.exact ≠ 0 ∧ Fits32 (left.exact.tdiv right.exact)
  | entry table index => index.InRange ∧ 0 ≤ index.exact ∧ index.exact < table.length

/-- An expression in range has its value among the integers, by induction over its parts. -/
theorem InRange.toInt_eval {e : IntExpr} (inRange : e.InRange) : e.eval.toInt = e.exact := by
  induction e with
  | value x => rfl
  | add left right leftIh rightIh =>
      obtain ⟨leftRange, rightRange, fits⟩ := inRange
      rw [← leftIh leftRange, ← rightIh rightRange] at fits
      exact (toInt_add32 fits).trans (by rw [leftIh leftRange, rightIh rightRange, exact])
  | sub left right leftIh rightIh =>
      obtain ⟨leftRange, rightRange, fits⟩ := inRange
      rw [← leftIh leftRange, ← rightIh rightRange] at fits
      exact (toInt_sub32 fits).trans (by rw [leftIh leftRange, rightIh rightRange, exact])
  | mul left right leftIh rightIh =>
      obtain ⟨leftRange, rightRange, fits⟩ := inRange
      rw [← leftIh leftRange, ← rightIh rightRange] at fits
      exact (toInt_mul32 fits).trans (by rw [leftIh leftRange, rightIh rightRange, exact])
  | div left right leftIh rightIh =>
      obtain ⟨leftRange, rightRange, nonzero, fits⟩ := inRange
      rw [eval, Int32.toInt_div, leftIh leftRange, rightIh rightRange, exact]
      exact bmod_fits32 fits
  | mod left right leftIh rightIh =>
      obtain ⟨leftRange, rightRange, _⟩ := inRange
      rw [eval, Int32.toInt_mod, leftIh leftRange, rightIh rightRange, exact]
  | entry table index indexIh =>
      obtain ⟨indexRange, _⟩ := inRange
      rw [eval, ← Int32.toNat_toInt, indexIh indexRange, exact]

/-- The expression has a value, and no part of it overflows. -/
structure HasValue (e : IntExpr) (n : Int) : Prop where
  inRange : e.InRange
  exact_eq : e.exact = n

namespace HasValue

variable {a b : IntExpr} {m n : Int}

theorem toInt_eval (value : a.HasValue m) : a.eval.toInt = m :=
  value.inRange.toInt_eval.trans value.exact_eq

theorem of_toInt {x : Int32} (toInt : x.toInt = m) : HasValue (.value x) m :=
  ⟨trivial, toInt⟩

theorem add (left : a.HasValue m) (right : b.HasValue n)
    (lower : -2147483648 ≤ m + n) (upper : m + n < 2147483648)
    : (a + b).HasValue (m + n) := by
  obtain ⟨leftRange, rfl⟩ := left
  obtain ⟨rightRange, rfl⟩ := right
  exact ⟨⟨leftRange, rightRange, lower, upper⟩, rfl⟩

theorem sub (left : a.HasValue m) (right : b.HasValue n)
    (lower : -2147483648 ≤ m - n) (upper : m - n < 2147483648)
    : (a - b).HasValue (m - n) := by
  obtain ⟨leftRange, rfl⟩ := left
  obtain ⟨rightRange, rfl⟩ := right
  exact ⟨⟨leftRange, rightRange, lower, upper⟩, rfl⟩

theorem mul (left : a.HasValue m) (right : b.HasValue n)
    (lower : -2147483648 ≤ m * n) (upper : m * n < 2147483648)
    : (a * b).HasValue (m * n) := by
  obtain ⟨leftRange, rfl⟩ := left
  obtain ⟨rightRange, rfl⟩ := right
  exact ⟨⟨leftRange, rightRange, lower, upper⟩, rfl⟩

theorem tdiv (left : a.HasValue m) (right : b.HasValue n) (nonzero : n ≠ 0)
    (lower : -2147483648 ≤ m.tdiv n) (upper : m.tdiv n < 2147483648)
    : (a / b).HasValue (m.tdiv n) := by
  obtain ⟨leftRange, rfl⟩ := left
  obtain ⟨rightRange, rfl⟩ := right
  exact ⟨⟨leftRange, rightRange, nonzero, lower, upper⟩, rfl⟩

theorem tmod (left : a.HasValue m) (right : b.HasValue n) (nonzero : n ≠ 0)
    (lower : -2147483648 ≤ m.tdiv n) (upper : m.tdiv n < 2147483648)
    : (a % b).HasValue (m.tmod n) := by
  obtain ⟨leftRange, rfl⟩ := left
  obtain ⟨rightRange, rfl⟩ := right
  exact ⟨⟨leftRange, rightRange, nonzero, lower, upper⟩, rfl⟩

/-- A quotient of numbers that are not negative. -/
theorem div (left : a.HasValue m) (right : b.HasValue n) (nonneg : 0 ≤ m) (positive : 0 < n)
    (upper : m / n < 2147483648)
    : (a / b).HasValue (m / n) := by
  have quotient : m.tdiv n = m / n := Int.tdiv_eq_ediv_of_nonneg nonneg
  have lower : 0 ≤ m / n := Int.ediv_nonneg nonneg positive.le
  rw [← quotient] at lower upper ⊢
  exact left.tdiv right positive.ne' (by omega) upper

theorem entry {table : List Int32} (index : a.HasValue m) (lower : 0 ≤ m)
    (upper : m < table.length)
    : HasValue (.entry table a) (table.getD m.toNat 0).toInt := by
  obtain ⟨indexRange, rfl⟩ := index
  exact ⟨⟨indexRange, lower, upper⟩, rfl⟩

end HasValue

end IntExpr
