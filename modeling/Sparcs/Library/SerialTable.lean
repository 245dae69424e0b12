import Mathlib.Data.List.Nodup

/-! Database tables whose rows get their keys from a sequence. -/

/-- Rows under keys, none above the last number that the sequence gave. -/
structure SerialTable (ρ : Type) where
  rows : List (Nat × ρ) := []
  /-- What `currval` answers. -/
  last : Nat := 0
  keys : (rows.map Prod.fst).Nodup := by simp
  bounded : ∀ row ∈ rows, row.1 ≤ last := by simp

namespace SerialTable

variable {ρ : Type}

/-- `INSERT` with the next number of the sequence. -/
def insert (t : SerialTable ρ) (row : ρ) : SerialTable ρ where
  rows := t.rows ++ [(t.last + 1, row)]
  last := t.last + 1
  keys := by
    rw [List.map_append, List.nodup_append]
    refine ⟨t.keys, List.nodup_singleton _, ?_⟩
    intro key member key' new same
    obtain ⟨old, stored, rfl⟩ := List.mem_map.mp member
    have small := t.bounded old stored
    rw [List.map_singleton, List.mem_singleton] at new
    omega
  bounded := by
    intro row member
    rcases List.mem_append.mp member with stored | new
    · exact Nat.le_succ_of_le (t.bounded row stored)
    · obtain rfl := List.mem_singleton.mp new
      exact Nat.le_refl _

/-- `UPDATE` of the row with a key. -/
def update (t : SerialTable ρ) (key : Nat) (change : ρ → ρ) : SerialTable ρ where
  rows := t.rows.map fun row => if row.1 = key then (row.1, change row.2) else row
  last := t.last
  keys := by
    have same : Prod.fst ∘ (fun row : Nat × ρ =>
        if row.1 = key then (row.1, change row.2) else row) = Prod.fst := by
      funext row
      simp only [Function.comp]
      split_ifs <;> rfl
    rw [List.map_map, same]
    exact t.keys
  bounded := by
    intro row member
    obtain ⟨old, stored, rfl⟩ := List.mem_map.mp member
    split_ifs <;> exact t.bounded old stored

variable {t : SerialTable ρ} {row new : ρ} {key id : Nat} {change : ρ → ρ}

theorem mem_insert
    : (id, row) ∈ (t.insert new).rows ↔ (id, row) ∈ t.rows ∨ id = t.last + 1 ∧ row = new := by
  simp [insert]

/-- A row after an update is another one than the updated one, or a changed one. -/
theorem mem_update
    : (id, row) ∈ (t.update key change).rows
      ↔ id ≠ key ∧ (id, row) ∈ t.rows
        ∨ id = key ∧ ∃ old, (id, old) ∈ t.rows ∧ row = change old := by
  constructor
  · intro member
    obtain ⟨stored, found, same⟩ := List.mem_map.mp member
    split_ifs at same with updated
    · obtain ⟨rfl, rfl⟩ := Prod.mk.inj same
      exact .inr ⟨updated, stored.2, found, rfl⟩
    · subst same
      exact .inl ⟨updated, found⟩
  · intro cases
    rcases cases with other | updated
    · exact List.mem_map.mpr ⟨(id, row), other.2, if_neg other.1⟩
    · obtain ⟨rfl, old, found, rfl⟩ := updated
      exact List.mem_map.mpr ⟨(id, old), found, if_pos rfl⟩

/-- The last number of the sequence is the key of the row just inserted. -/
theorem eq_of_mem_insert (member : (t.last + 1, row) ∈ (t.insert new).rows) : row = new := by
  rcases mem_insert.mp member with stored | inserted
  · exact absurd (t.bounded _ stored) (by simp)
  · exact inserted.2

end SerialTable
