import Mathlib

/-! A list cut into blocks of one length, from its front on; the last block may be short.
A block is combined by a fold that starts with its first element.
-/

namespace StepBlocks

variable {α : Type}

/-- The elements `k*s` to `(k+1)*s-1`. -/
def block (xs : List α) (s k : Nat) : List α := (xs.drop (k * s)).take s

section Blocks

variable {xs ys : List α} {s k m : Nat}

theorem length_block (whole : k * s + s ≤ xs.length) : (block xs s k).length = s := by
  rw [block, List.length_take, List.length_drop]
  omega

/-- A whole block has a first element, which is the list's. -/
theorem block_eq_cons (positive : 0 < s) (inside : k * s < xs.length)
    : block xs s k = xs[k * s] :: ((xs.drop (k * s + 1)).take (s - 1)) := by
  obtain ⟨r, rfl⟩ : ∃ r, s = r + 1 := ⟨s - 1, by omega⟩
  rw [block, List.drop_eq_getElem_cons inside, List.take_succ_cons, Nat.add_sub_cancel]

theorem block_append_left (whole : k * s + s ≤ xs.length)
    : block (xs ++ ys) s k = block xs s k := by
  rw [block, block, List.drop_append_of_le_length (by omega), List.take_append_of_le_length]
  rw [List.length_drop]
  omega

theorem block_append_right (cut : xs.length = m * s)
    : block (xs ++ ys) s (m + k) = block ys s k := by
  rw [block, block, Nat.add_mul, ← cut, List.drop_append, List.drop_eq_nil_of_le (by omega),
    List.nil_append, Nat.add_sub_cancel_left]

/-- What the blocks before the last short one say of their number. -/
theorem whole_of_lt_div (before : k < xs.length / s) : k * s + s ≤ xs.length := by
  have all : (k + 1) * s ≤ xs.length / s * s := Nat.mul_le_mul_right s before
  rw [Nat.succ_mul] at all
  exact all.trans (Nat.div_mul_le_self _ _)

end Blocks

-----------------------------------------------------------------------------------------
-- Blocks that are combined
-----------------------------------------------------------------------------------------

/-- `v` combines the block with all later elements, in their order. -/
def Combines (combine : α → α → α) (xs : List α) (v : α) : Prop :=
  ∃ first rest, xs = first :: rest ∧ v = rest.foldl combine first

theorem Combines.unique {combine : α → α → α} {xs : List α} {v w : α}
    (left : Combines combine xs v) (right : Combines combine xs w)
    : v = w := by
  obtain ⟨first, rest, same, rfl⟩ := left
  obtain ⟨first', rest', same', rfl⟩ := right
  obtain ⟨rfl, rfl⟩ := List.cons.inj (same.symm.trans same')
  rfl

section Extremes

variable {xs : List α} {v : α} (r : α → α → Prop) [DecidableRel r] [IsStrictOrder α r]

/-- A running choice of what lies before the choice so far, by induction from the right: it is
an element, and nothing lies before it.
-/
theorem foldl_choose (first : α) (rest : List α)
    : rest.foldl (fun best w => if r w best then w else best) first ∈ first :: rest
      ∧ ∀ w ∈ first :: rest,
        ¬r w (rest.foldl (fun best w => if r w best then w else best) first) := by
  induction rest using List.reverseRecOn with
  | nil =>
      refine ⟨by simp, ?_⟩
      intro w member
      obtain rfl := List.mem_singleton.mp member
      exact irrefl w
  | append_singleton rest last ih =>
      obtain ⟨chosen, first_of_all⟩ := ih
      rw [List.foldl_concat, ← List.cons_append]
      split_ifs with before
      · refine ⟨by simp, ?_⟩
        intro w member earlier
        rcases List.mem_append.mp member with old | new
        · exact first_of_all w old (trans_of r earlier before)
        · obtain rfl := List.mem_singleton.mp new
          exact irrefl w earlier
      · refine ⟨List.mem_append_left _ chosen, ?_⟩
        intro w member
        rcases List.mem_append.mp member with old | new
        · exact first_of_all w old
        · obtain rfl := List.mem_singleton.mp new
          exact before

theorem Combines.choose
    (combined : Combines (fun best w => if r w best then w else best) xs v)
    : v ∈ xs ∧ ∀ w ∈ xs, ¬r w v := by
  obtain ⟨first, rest, rfl, rfl⟩ := combined
  exact foldl_choose r first rest

end Extremes

/-- A running sum is the sum. -/
theorem Combines.sum [AddMonoid α] {xs : List α} {v : α}
    (combined : Combines (fun total w => total + w) xs v)
    : v = xs.sum := by
  obtain ⟨first, rest, rfl, rfl⟩ := combined
  rw [List.sum_eq_foldl, List.foldl_cons, zero_add]

end StepBlocks
