import Mathlib.Algebra.Order.BigOperators.Group.List
import Mathlib.Algebra.Order.Ring.Nat
import Mathlib.Data.List.Perm.Basic

/-! Columns of different lengths, written row by row from the last row on: a column without an
entry in a row leaves no gap there, so that the entries behind it move up.
-/

namespace RaggedRows

variable {α β : Type}

/-- What is left in row `j`. -/
def cells (columns : List (List α)) (j : Nat) : List α :=
  columns.filterMap (·[j]?)

/-- The rows below `rows`, the last one first. -/
def descending (body : Nat → List β) : (rows : Nat) → List β
  | 0 => []
  | j + 1 => body j ++ descending body j

/-- What stands at one position of row `j`. -/
def position (columns : List (List α)) (p j : Nat) : List α :=
  (cells columns j)[p]?.toList

/-- No column is longer than the number of rows, and none than a column before it. -/
structure Upright (columns : List (List α)) (rows : Nat) : Prop where
  fits : ∀ column ∈ columns, column.length ≤ rows
  descends : columns.Pairwise fun column later => later.length ≤ column.length

-----------------------------------------------------------------------------------------
-- Lists that are put together
-----------------------------------------------------------------------------------------

section FlatMap

variable {ι κ : Type}

/-- Item by item or index by index. -/
theorem flatMap_swap_perm (items : List ι) (indices : List κ) (f : ι → κ → List β)
    : (items.flatMap fun item => indices.flatMap (f item)).Perm
        (indices.flatMap fun index => items.flatMap fun item => f item index) := by
  induction items with
  | nil => simp
  | cons item items ih =>
      simp only [List.flatMap_cons]
      exact (ih.append_left _).trans (List.flatMap_append_perm indices (f item) _)

/-- When no item has more in `f` than in `g` and all together have as many, no item has fewer. -/
theorem length_eq_of_flatMap {items : List ι} {f : ι → List α} {g : ι → List β}
    (le : ∀ item ∈ items, (f item).length ≤ (g item).length)
    (same : (items.flatMap f).length = (items.flatMap g).length)
    : ∀ item ∈ items, (f item).length = (g item).length := by
  intro item member
  by_contra different
  have less := List.sum_lt_sum (fun item => (f item).length) (fun item => (g item).length) le
    ⟨item, member, lt_of_le_of_ne (le item member) different⟩
  rw [List.length_flatMap, List.length_flatMap] at same
  exact absurd same (Nat.ne_of_lt less)

theorem flatMap_range_getElem? (l : List β) (count : Nat)
    : ((List.range count).flatMap fun p => l[p]?.toList) = l.take count := by
  induction count with
  | zero => rfl
  | succ count ih =>
      rw [List.range_succ, List.flatMap_append, ih, List.flatMap_singleton, List.take_add_one]

theorem flatMap_range_getD (lists : List (List β))
    : ((List.range lists.length).flatMap fun p => lists.getD p []) = lists.flatMap id := by
  induction lists with
  | nil => rfl
  | cons list lists ih =>
      rw [List.length_cons, List.range_succ_eq_map, List.flatMap_cons, List.flatMap_map]
      simpa using ih

end FlatMap

section Descending

variable {f g : Nat → List β} {rows : Nat}

theorem descending_eq (body : Nat → List β) (rows : Nat)
    : descending body rows = (List.range rows).reverse.flatMap body := by
  induction rows with
  | zero => rfl
  | succ rows ih =>
      rw [descending, ih, List.range_succ, List.reverse_append, List.reverse_singleton,
        List.flatMap_append, List.flatMap_singleton]

theorem descending_congr (same : ∀ j < rows, f j = g j)
    : descending f rows = descending g rows := by
  rw [descending_eq, descending_eq]
  exact List.flatMap_congr fun j member => same j (by simpa using member)

theorem length_descending_le (le : ∀ j < rows, (f j).length ≤ (g j).length)
    : (descending f rows).length ≤ (descending g rows).length := by
  rw [descending_eq, descending_eq, List.length_flatMap, List.length_flatMap]
  exact List.sum_le_sum fun j member => le j (by simpa using member)

theorem length_eq_of_descending (le : ∀ j < rows, (f j).length ≤ (g j).length)
    (same : (descending f rows).length = (descending g rows).length) {j : Nat} (below : j < rows)
    : (f j).length = (g j).length := by
  rw [descending_eq, descending_eq] at same
  exact length_eq_of_flatMap (fun j member => le j (by simpa using member)) same j
    (by simpa using below)

end Descending

-----------------------------------------------------------------------------------------
-- One table
-----------------------------------------------------------------------------------------

section Table

variable {columns : List (List α)} {column : List α} {rows : Nat}

@[simp] theorem cells_nil (j : Nat) : cells ([] : List (List α)) j = [] := rfl

theorem cells_cons (column : List α) (columns : List (List α)) (j : Nat)
    : cells (column :: columns) j = column[j]?.toList ++ cells columns j := by
  rw [cells, List.filterMap_cons]
  cases column[j]? with
  | none => rfl
  | some entry => rfl

theorem descending_getElem? (column : List α) (rows : Nat)
    : descending (fun j => column[j]?.toList) rows = (column.take rows).reverse := by
  induction rows with
  | zero => rfl
  | succ rows ih =>
      rw [descending, ih, List.take_add_one, List.reverse_append]
      cases column[rows]? with
      | none => rfl
      | some entry => rfl

/-- All rows have the entries of the columns that lie in them, by induction over the columns. -/
theorem descending_cells_perm (columns : List (List α)) (rows : Nat)
    : (descending (cells columns) rows).Perm (columns.flatMap (·.take rows)) := by
  induction columns with
  | nil => simp [descending_eq, cells]
  | cons column columns ih =>
      have row : cells (column :: columns) = fun j => column[j]?.toList ++ cells columns j :=
        funext (cells_cons column columns)
      have alone : (descending (fun j => column[j]?.toList) rows).Perm (column.take rows) := by
        rw [descending_getElem?]
        exact List.reverse_perm _
      rw [row, List.flatMap_cons, descending_eq]
      refine (List.flatMap_append_perm _ _ _).symm.trans ?_
      rw [← descending_eq, ← descending_eq]
      exact alone.append ih

theorem cells_length_le (columns : List (List α)) (j : Nat)
    : (cells columns j).length ≤ columns.length :=
  List.length_filterMap_le _ _

/-- The positions of all rows, as many as there are columns, have all their entries. -/
theorem flatMap_position_perm (columns : List (List α)) (rows : Nat)
    : ((List.range columns.length).flatMap fun p => descending (position columns p) rows).Perm
        (columns.flatMap (·.take rows)) := by
  have whole : descending (fun j => (List.range columns.length).flatMap (position columns · j)) rows
      = descending (cells columns) rows := by
    refine descending_congr fun j _ => ?_
    simp only [position]
    rw [flatMap_range_getElem?, List.take_of_length_le (cells_length_le columns j)]
  refine List.Perm.trans ?_ (descending_cells_perm columns rows)
  rw [← whole, descending_eq]
  simp only [descending_eq]
  exact flatMap_swap_perm _ _ _

/-- Without longer columns behind it, each column keeps its position. -/
theorem cells_getElem?
    (descends : columns.Pairwise fun column later => later.length ≤ column.length) (j p : Nat)
    : (cells columns j)[p]? = columns[p]?.bind (·[j]?) := by
  induction columns generalizing p with
  | nil => rfl
  | cons column columns ih =>
      obtain ⟨shorter, descends⟩ := List.pairwise_cons.mp descends
      rw [cells_cons]
      by_cases inside : j < column.length
      · rw [List.getElem?_eq_getElem inside, Option.toList_some, List.singleton_append]
        cases p with
        | zero => simp [inside]
        | succ p => simpa using ih descends p
      · have empty : cells columns j = [] := by
          rw [cells, List.filterMap_eq_nil_iff]
          intro later member
          rw [List.getElem?_eq_none_iff]
          exact (shorter later member).trans (not_lt.mp inside)
        rw [empty, List.getElem?_eq_none_iff.mpr (not_lt.mp inside), Option.toList_none,
          List.append_nil, List.getElem?_nil]
        cases p with
        | zero => simp [not_lt.mp inside]
        | succ p =>
            cases at_ : columns[p]? with
            | none => simp [at_]
            | some later =>
                have short := shorter later (List.mem_of_getElem? at_)
                simp [at_, short.trans (not_lt.mp inside)]

/-- An upright table is read column by column. -/
theorem Upright.position_perm (upright : Upright columns rows) {p : Nat}
    (at_ : columns[p]? = some column)
    : (descending (position columns p) rows).Perm column := by
  have rows_ : descending (position columns p) rows
      = descending (fun j => column[j]?.toList) rows := by
    refine descending_congr fun j _ => ?_
    rw [position, cells_getElem? upright.descends, at_, Option.bind_some]
  rw [rows_, descending_getElem?,
    List.take_of_length_le (upright.fits column (List.mem_of_getElem? at_))]
  exact List.reverse_perm column

end Table

-----------------------------------------------------------------------------------------
-- Several tables
-----------------------------------------------------------------------------------------

section Tables

/-- One position of all tables, each of which has its number of rows. -/
def positions (tables : List (List (List α) × Nat)) (p : Nat) : List α :=
  tables.flatMap fun table => descending (position table.1 p) table.2

/-- What should stand at one position of all tables. -/
def columnsAt (tables : List (List (List α) × Nat)) (p : Nat) : List α :=
  tables.flatMap fun table => table.1.getD p []

variable {tables : List (List (List α) × Nat)} {m : Nat}

/-- Tables whose positions have as many entries as the columns have no column that is too long. -/
theorem fits_of_length_eq (widths : ∀ table ∈ tables, table.1.length = m)
    (same : ∀ p < m, (positions tables p).length = (columnsAt tables p).length)
    : ∀ table ∈ tables, ∀ column ∈ table.1, column.length ≤ table.2 := by
  have entries : ((List.range m).flatMap (positions tables)).Perm
      (tables.flatMap fun table => table.1.flatMap (·.take table.2)) := by
    refine (flatMap_swap_perm _ _ _).trans (List.Perm.flatMap_left _ fun table member => ?_)
    rw [← widths table member]
    exact flatMap_position_perm table.1 table.2
  have all : ((List.range m).flatMap (columnsAt tables)).Perm
      (tables.flatMap fun table => table.1.flatMap id) := by
    refine (flatMap_swap_perm _ _ _).trans (List.Perm.flatMap_left _ fun table member => ?_)
    rw [← widths table member, flatMap_range_getD]
  have total : (tables.flatMap fun table => table.1.flatMap (·.take table.2)).length
      = (tables.flatMap fun table => table.1.flatMap id).length := by
    rw [← entries.length_eq, ← all.length_eq, List.length_flatMap, List.length_flatMap]
    congr 1
    exact List.map_congr_left fun p member => same p (List.mem_range.mp member)
  have cut (table : List (List α) × Nat)
      : ∀ column ∈ table.1, (column.take table.2).length ≤ (id column).length :=
    fun column _ => List.length_take_le' _ _
  have cut' : ∀ table ∈ tables,
      (table.1.flatMap (·.take table.2)).length ≤ (table.1.flatMap id).length := by
    intro table _
    rw [List.length_flatMap, List.length_flatMap]
    exact List.sum_le_sum (cut table)
  intro table member column inside
  have whole := length_eq_of_flatMap (cut table)
    (length_eq_of_flatMap cut' total table member) column inside
  rw [List.length_take, id] at whole
  omega

section Head

variable {column : List α} {columns : List (List α)} {rows j : Nat}

/-- The first position has what the first column has, or more. -/
theorem length_le_position (column : List α) (columns : List (List α)) (j : Nat)
    : (column[j]?.toList).length ≤ (position (column :: columns) 0 j).length := by
  rw [position, cells_cons]
  cases column[j]? <;> simp

/-- When the first position has no more than the first column, no column behind it is longer. -/
theorem cells_eq_nil_of_length_eq (fits : column.length ≤ rows)
    (same : column.length = (descending (position (column :: columns) 0) rows).length)
    (below : j < rows) (behind : column.length ≤ j)
    : cells columns j = [] := by
  have whole : (descending (fun j => column[j]?.toList) rows).length = column.length := by
    rw [descending_getElem?, List.length_reverse, List.take_of_length_le fits]
  have alone := length_eq_of_descending (fun j _ => length_le_position column columns j)
    (whole.trans same) below
  rw [position, cells_cons, List.getElem?_eq_none behind] at alone
  cases left : cells columns j with
  | nil => rfl
  | cons entry entries => simp [left] at alone

/-- Then the later positions are those of the columns behind it. -/
theorem position_succ (nothing : column.length ≤ j → cells columns j = []) (p : Nat)
    : position (column :: columns) (p + 1) j = position columns p j := by
  rw [position, position, cells_cons]
  by_cases inside : j < column.length
  · rw [List.getElem?_eq_getElem inside, Option.toList_some, List.singleton_append,
      List.getElem?_cons_succ]
  · simp [List.getElem?_eq_none (not_lt.mp inside), nothing (not_lt.mp inside)]

end Head

/-- No row of the table has an entry behind the end of the first column. -/
def Leads (table : List (List α) × Nat) : Prop :=
  ∀ column columns, table.1 = column :: columns →
    ∀ j < table.2, column.length ≤ j → cells columns j = []

theorem leads_of_length_eq (widths : ∀ table ∈ tables, table.1.length = m + 1)
    (fits : ∀ table ∈ tables, ∀ column ∈ table.1, column.length ≤ table.2)
    (same : (positions tables 0).length = (columnsAt tables 0).length)
    : ∀ table ∈ tables, Leads table := by
  have le : ∀ table ∈ tables,
      (table.1.getD 0 []).length ≤ (descending (position table.1 0) table.2).length := by
    intro table member
    obtain ⟨column, columns, split⟩ := List.exists_of_length_succ _ (widths table member)
    have short := fits table member column (by rw [split]; exact List.mem_cons_self)
    have whole : (descending (fun j => column[j]?.toList) table.2).length = column.length := by
      rw [descending_getElem?, List.length_reverse, List.take_of_length_le short]
    rw [split, List.getD_cons_zero, ← whole]
    exact length_descending_le fun j _ => length_le_position column columns j
  intro table member column columns split j below behind
  have short := fits table member column (by rw [split]; exact List.mem_cons_self)
  have alone := length_eq_of_flatMap le same.symm table member
  rw [split, List.getD_cons_zero] at alone
  exact cells_eq_nil_of_length_eq short alone below behind

/-- The tables without their first columns. -/
def tails (tables : List (List (List α) × Nat)) : List (List (List α) × Nat) :=
  tables.map fun table => (table.1.tail, table.2)

theorem columnsAt_tails (widths : ∀ table ∈ tables, table.1.length = m + 1) (p : Nat)
    : columnsAt (tails tables) p = columnsAt tables (p + 1) := by
  rw [columnsAt, tails, List.flatMap_map]
  refine List.flatMap_congr fun table member => ?_
  obtain ⟨column, columns, split⟩ := List.exists_of_length_succ _ (widths table member)
  rw [split, List.tail_cons, List.getD_cons_succ]

theorem positions_tails (widths : ∀ table ∈ tables, table.1.length = m + 1)
    (leads : ∀ table ∈ tables, Leads table) (p : Nat)
    : positions (tails tables) p = positions tables (p + 1) := by
  rw [positions, tails, List.flatMap_map]
  refine List.flatMap_congr fun table member => ?_
  obtain ⟨column, columns, split⟩ := List.exists_of_length_succ _ (widths table member)
  rw [split, List.tail_cons]
  exact descending_congr fun j below =>
    (position_succ (leads table member column columns split j below) p).symm

/-- Nor has any a column that is longer than one before it, by induction over the columns. -/
theorem descends_of_length_eq (widths : ∀ table ∈ tables, table.1.length = m)
    (fits : ∀ table ∈ tables, ∀ column ∈ table.1, column.length ≤ table.2)
    (same : ∀ p < m, (positions tables p).length = (columnsAt tables p).length)
    : ∀ table ∈ tables, table.1.Pairwise fun column later => later.length ≤ column.length := by
  induction m generalizing tables with
  | zero =>
      intro table member
      rw [List.length_eq_zero_iff.mp (widths table member)]
      exact List.Pairwise.nil
  | succ m ih =>
      have leads := leads_of_length_eq widths fits (same 0 (Nat.succ_pos m))
      have rest : ∀ table ∈ tails tables,
          table.1.Pairwise fun column later => later.length ≤ column.length := by
        apply ih
        · intro table inside
          obtain ⟨table, member, rfl⟩ := List.mem_map.mp inside
          rw [List.length_tail, widths table member, Nat.add_sub_cancel]
        · intro table inside column ofTail
          obtain ⟨table, member, rfl⟩ := List.mem_map.mp inside
          exact fits table member column (List.mem_of_mem_tail ofTail)
        · intro p below
          rw [positions_tails widths leads, columnsAt_tails widths]
          exact same (p + 1) (Nat.succ_lt_succ below)
      intro table member
      obtain ⟨column, columns, split⟩ := List.exists_of_length_succ _ (widths table member)
      have tail := rest (table.1.tail, table.2) (List.mem_map_of_mem member)
      rw [split, List.tail_cons] at tail
      rw [split, List.pairwise_cons]
      refine ⟨?_, tail⟩
      intro later behind
      by_contra longer
      have short := fits table member later (by rw [split]; exact List.mem_cons_of_mem _ behind)
      have nothing := leads table member column columns split column.length (by omega) le_rfl
      rw [cells, List.filterMap_eq_nil_iff] at nothing
      exact absurd (List.getElem?_eq_none_iff.mp (nothing later behind)) longer

/-- All positions have what the columns there have, in any order, exactly when all tables are
upright.
-/
theorem positions_perm_iff (widths : ∀ table ∈ tables, table.1.length = m)
    : (∀ p < m, (positions tables p).Perm (columnsAt tables p))
      ↔ ∀ table ∈ tables, Upright table.1 table.2 := by
  constructor
  · intro perm table member
    have same : ∀ p < m, (positions tables p).length = (columnsAt tables p).length :=
      fun p below => (perm p below).length_eq
    have fits := fits_of_length_eq widths same
    exact ⟨fits table member, descends_of_length_eq widths fits same table member⟩
  · intro upright p below
    refine List.Perm.flatMap_left _ fun table member => ?_
    have at_ : table.1[p]? = some (table.1.getD p []) := by
      have inside : p < table.1.length := by rwa [widths table member]
      rw [List.getD_eq_getElem?_getD, List.getElem?_eq_getElem inside, Option.getD_some]
    exact (upright table member).position_perm at_

end Tables

end RaggedRows
