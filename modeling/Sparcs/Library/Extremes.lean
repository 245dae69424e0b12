import Mathlib

/-! Loops that keep the least and the greatest of the values seen so far, from a given start. -/

namespace Extremes

section Order

variable {α β : Type} [LinearOrder β]

/-- A running maximum ends with the greatest of its start and all values. -/
theorem foldl_max_isGreatest (value : α → β) (start : β) (xs : List α)
    : IsGreatest (insert start (value '' {x | x ∈ xs}))
        (xs.foldl (fun greatest x => max greatest (value x)) start) := by
  induction xs generalizing start with
  | nil => simp
  | cons x rest ih =>
      obtain ⟨member, bound⟩ := ih (max start (value x))
      rw [List.foldl_cons]
      constructor
      · rcases member with isStart | inRest
        · rw [isStart]
          rcases max_choice start (value x) with left | right
          · exact Or.inl left
          · exact Or.inr ⟨x, List.mem_cons_self .., right.symm⟩
        · obtain ⟨y, isMember, same⟩ := inRest
          exact Or.inr ⟨y, List.mem_cons_of_mem _ isMember, same⟩
      · have startBound := bound (Set.mem_insert _ _)
        intro other isOther
        rcases isOther with isStart | ⟨y, isMember, same⟩
        · rw [isStart]
          exact (le_max_left _ _).trans startBound
        · rcases List.mem_cons.mp isMember with isFirst | isLater
          · rw [← same, isFirst]
            exact (le_max_right _ _).trans startBound
          · exact bound (Or.inr ⟨y, isLater, same⟩)

/-- A running minimum ends with the least of its start and all values, by the dual order. -/
theorem foldl_min_isLeast (value : α → β) (start : β) (xs : List α)
    : IsLeast (insert start (value '' {x | x ∈ xs}))
        (xs.foldl (fun least x => min least (value x)) start) :=
  @foldl_max_isGreatest α βᵒᵈ _ value start xs

/-- A running maximum is that of the values just when one of them reaches its start. -/
theorem foldl_max_isGreatest_iff (value : α → β) (start : β) (xs : List α)
    : IsGreatest (value '' {x | x ∈ xs})
        (xs.foldl (fun greatest x => max greatest (value x)) start)
      ↔ ∃ x ∈ xs, start ≤ value x := by
  obtain ⟨member, bound⟩ := foldl_max_isGreatest value start xs
  constructor
  · intro greatest
    obtain ⟨x, isMember, same⟩ := greatest.1
    exact ⟨x, isMember, same ▸ bound (Set.mem_insert _ _)⟩
  · intro reached
    obtain ⟨x, isMember, above⟩ := reached
    refine ⟨?_, fun other isOther => bound (Or.inr isOther)⟩
    rcases member with isStart | isValue
    · have atStart := le_antisymm above (isStart ▸ bound (Or.inr ⟨x, isMember, rfl⟩))
      exact ⟨x, isMember, by rw [isStart, atStart]⟩
    · exact isValue

/-- From infinity, the running minimum of at least one value is the least value. -/
theorem foldl_min_top (value : α → β) {xs : List α} (nonempty : xs ≠ [])
    : ∃ least : β,
        xs.foldl (fun least x => min least (value x : WithTop β)) ⊤ = least
        ∧ IsLeast (value '' {x | x ∈ xs}) least := by
  obtain ⟨member, bound⟩ := foldl_min_isLeast (fun x => (value x : WithTop β)) ⊤ xs
  obtain ⟨x, isMember⟩ := List.exists_mem_of_ne_nil xs nonempty
  rcases member with isTop | isValue
  · have atMost := bound (Or.inr ⟨x, isMember, rfl⟩)
    rw [isTop, top_le_iff] at atMost
    exact absurd atMost (WithTop.coe_ne_top)
  · obtain ⟨y, isMember', same⟩ := isValue
    refine ⟨value y, same.symm, ⟨y, isMember', rfl⟩, ?_⟩
    intro other isOther
    obtain ⟨z, isMember'', rfl⟩ := isOther
    have below := bound (Or.inr ⟨z, isMember'', rfl⟩)
    rw [← same] at below
    exact WithTop.coe_le_coe.mp below

end Order

/-- A running sum of shares is the share of the sum. -/
theorem foldl_add_div {α κ : Type} [Field κ] (value : α → κ) (share start : κ) (xs : List α)
    : xs.foldl (fun total x => total + value x / share) start
      = start + (xs.map value).sum / share := by
  induction xs generalizing start with
  | nil => simp
  | cons x rest ih =>
      rw [List.foldl_cons, ih, List.map_cons, List.sum_cons, add_div, add_assoc]

end Extremes
