import Mathlib.Data.List.Infix
import Mathlib.Tactic.Common

/-! Searching a text for a pattern: the first position from a given one on. -/

namespace TextSearch

variable {α : Type}

/-- The pattern occurs in the text at position `i`. -/
def OccursAt (pattern text : List α) (i : Nat) : Prop :=
  pattern <+: text.drop i

/-- Position `i` is the first one from `start` on at which the pattern occurs. -/
structure First (pattern text : List α) (start i : Nat) : Prop where
  after : start ≤ i
  occurs : OccursAt pattern text i
  first : ∀ j, start ≤ j → j < i → ¬OccursAt pattern text j

variable {pattern marker text : List α} {start i j : Nat}

theorem OccursAt.le (occurs : OccursAt pattern text i) (nonempty : pattern ≠ [])
    : i + pattern.length ≤ text.length := by
  have shorter := occurs.length_le
  have positive := List.length_pos_iff.mpr nonempty
  rw [List.length_drop] at shorter
  omega

theorem First.unique {i' : Nat} (isFirst : First pattern text start i)
    (isFirst' : First pattern text start i')
    : i = i' := by
  rcases Nat.lt_trichotomy i i' with before | same | behind
  · exact absurd isFirst.occurs (isFirst'.first i isFirst.after before)
  · exact same
  · exact absurd isFirst'.occurs (isFirst.first i' isFirst'.after behind)

/-- No occurrence begins inside a marker that lacks the pattern's first element. -/
theorem OccursAt.not_inside {c : α} {rest : List α} (marks : OccursAt marker text i)
    (foreign : c ∉ marker) (from_ : i ≤ j) (inside : j < i + marker.length)
    : ¬OccursAt (c :: rest) text j := by
  intro occurs
  obtain ⟨behind, split⟩ := marks
  obtain ⟨behind', split'⟩ := occurs
  have offset : j - i < marker.length := by omega
  have here : text[j]? = some c := by
    rw [← List.head?_drop, ← split']
    rfl
  have there : text[j]? = marker[j - i]? := by
    have shifted : text[j]? = (text.drop i)[j - i]? := by
      rw [List.getElem?_drop]
      congr 1
      omega
    rw [shifted, ← split, List.getElem?_append_left offset]
  rw [there] at here
  exact foreign (List.mem_of_getElem? here)

/-- The first occurrence may be searched from any position inside the marker. -/
theorem First.skip {c : α} {rest : List α} (marks : OccursAt marker text j)
    (foreign : c ∉ marker) (from_ : j ≤ start) (inside : start ≤ j + marker.length)
    : First (c :: rest) text start i ↔ First (c :: rest) text (j + marker.length) i := by
  constructor
  · intro isFirst
    obtain ⟨after, occurs, first⟩ := isFirst
    refine ⟨?_, occurs, fun k behind before => first k (by omega) before⟩
    by_contra early
    exact marks.not_inside foreign (by omega) (by omega) occurs
  · intro isFirst
    obtain ⟨after, occurs, first⟩ := isFirst
    refine ⟨by omega, occurs, ?_⟩
    intro k behind before
    by_cases within : k < j + marker.length
    · exact marks.not_inside foreign (by omega) within
    · exact first k (by omega) before

-----------------------------------------------------------------------------------------
-- The search
-----------------------------------------------------------------------------------------

section Search

variable [DecidableEq α]

instance (pattern text : List α) (i : Nat) : Decidable (OccursAt pattern text i) :=
  inferInstanceAs (Decidable (_ <+: _))

/-- The first position from `start` on at which the pattern occurs. -/
def firstFrom (pattern text : List α) (start : Nat) : Option Nat :=
  (List.range (text.length + 1)).find? fun i =>
    decide (start ≤ i) && decide (OccursAt pattern text i)

theorem firstFrom_eq_some_iff (nonempty : pattern ≠ [])
    : firstFrom pattern text start = some i ↔ First pattern text start i := by
  simp only [firstFrom, List.find?_range_eq_some, Bool.and_eq_true, decide_eq_true_eq,
    List.mem_range, Bool.not_eq_true', Bool.and_eq_false_iff, decide_eq_false_iff_not]
  constructor
  · intro found
    obtain ⟨⟨after, occurs⟩, _, first⟩ := found
    refine ⟨after, occurs, ?_⟩
    intro j from_ before
    exact (first j before).resolve_left (not_not.mpr from_)
  · intro isFirst
    obtain ⟨after, occurs, first⟩ := isFirst
    have inside := occurs.le nonempty
    refine ⟨⟨after, occurs⟩, by omega, ?_⟩
    intro j before
    by_cases from_ : start ≤ j
    · exact Or.inr (first j from_ before)
    · exact Or.inl from_

theorem firstFrom_eq_none_iff (nonempty : pattern ≠ [])
    : firstFrom pattern text start = none ↔ ∀ j, start ≤ j → ¬OccursAt pattern text j := by
  simp only [firstFrom, List.find?_eq_none, List.mem_range, Bool.and_eq_true, decide_eq_true_eq,
    not_and]
  constructor
  · intro absent j from_ occurs
    have inside := occurs.le nonempty
    exact absent j (by omega) from_ occurs
  · intro absent j _ from_
    exact absent j from_

/-- A pattern behind a text that lacks its first element. -/
theorem firstFrom_append {c : α} (pattern rest : List α) (absent : c ∉ text)
    : firstFrom (c :: pattern) (text ++ (c :: pattern ++ rest)) 0 = some text.length := by
  refine (firstFrom_eq_some_iff (List.cons_ne_nil _ _)).mpr ⟨Nat.zero_le _, ?_, ?_⟩
  · rw [OccursAt, List.drop_left]
    exact List.prefix_append _ _
  · intro j _ before occurs
    obtain ⟨tail, same⟩ := occurs
    rw [List.drop_append_of_le_length before.le, List.drop_eq_getElem_cons before] at same
    exact absent ((List.cons.inj same).1 ▸ List.getElem_mem before)

end Search

end TextSearch
