import Mathlib.Tactic.Common

/-! A memory that remembers which of its addresses were read or written, and the loops that go
over it in strides.
-/

/-- The cells at the addresses, and the addresses touched so far, the latest first. -/
structure TracedMemory (α : Type) where
  cell : Nat → α
  touched : List Nat := []

namespace TracedMemory

variable {α : Type}

/-- All accesses stay below a bound. -/
def StaysBelow (bound : Nat) (m : TracedMemory α) : Prop := ∀ address ∈ m.touched, address < bound

/-- An address is read. -/
def touch (address : Nat) (m : TracedMemory α) : TracedMemory α :=
  { m with touched := address :: m.touched }

/-- An address is written. -/
def write (address : Nat) (value : α) (m : TracedMemory α) : TracedMemory α :=
  { cell := fun i => if i = address then value else m.cell i
    touched := address :: m.touched }

end TracedMemory

section StrideLoop

variable {σ : Type}

/-- `for (p = first; p < last; p += width) body` -/
def strideLoop (width : Nat) (positive : 0 < width) (body : Nat → σ → σ) (last first : Nat)
    (s : σ)
    : σ :=
  if first < last then strideLoop width positive body last (first + width) (body first s) else s
termination_by last - first

/-- What a turn preserves holds after the last one, by induction over the turns. -/
theorem strideLoop_spec {width : Nat} {positive : 0 < width} {body : Nat → σ → σ}
    {last first : Nat} {s : σ} {inv : Nat → σ → Prop} (initially : inv 0 s)
    (step
      : ∀ k s, first + width * k < last → inv k s → inv (k + 1) (body (first + width * k) s))
    : ∃ k, last ≤ first + width * k ∧ (∀ j < k, first + width * j < last)
        ∧ inv k (strideLoop width positive body last first s) := by
  induction first, s using strideLoop.induct width positive body last generalizing inv with
  | case1 first s more ih =>
      have index (k : Nat) : first + width + width * k = first + width * (k + 1) := by
        rw [Nat.mul_succ, Nat.add_assoc, Nat.add_comm width]
      obtain ⟨k, past, before, holds⟩ := @ih (fun k => inv (k + 1)) (step 0 s more initially) (by
        intro k s within holds
        rw [index] at within ⊢
        exact step (k + 1) s within holds)
      refine ⟨k + 1, index k ▸ past, ?_, ?_⟩
      · intro j turn
        cases j with
        | zero => exact more
        | succ j => exact index j ▸ before j (Nat.lt_of_succ_lt_succ turn)
      · rw [strideLoop, if_pos more]
        exact holds
  | case2 first s done =>
      refine ⟨0, Nat.not_lt.mp done, fun j turn => absurd turn (Nat.not_lt_zero j), ?_⟩
      rw [strideLoop, if_neg done]
      exact initially

end StrideLoop
