import Mathlib

/-! Maps that are filled by a list of writes. A write either replaces what is at its key or is
appended to it.
-/

namespace KeyedWrites

/-- What is written at a key, in order. -/
def valuesAt {κ β : Type} [DecidableEq κ] (writes : List (κ × β)) (key : κ) : List β :=
  (writes.filter (·.1 = key)).map (·.2)

theorem valuesAt_append {κ β : Type} [DecidableEq κ] (left right : List (κ × β)) (key : κ)
    : valuesAt (left ++ right) key = valuesAt left key ++ valuesAt right key := by
  rw [valuesAt, List.filter_append, List.map_append]
  rfl

theorem valuesAt_flatMap {ι κ β : Type} [DecidableEq κ] (items : List ι) (f : ι → List (κ × β))
    (key : κ)
    : valuesAt (items.flatMap f) key = items.flatMap fun item => valuesAt (f item) key := by
  induction items with
  | nil => rfl
  | cons item items ih =>
      rw [List.flatMap_cons, valuesAt_append, ih]
      rfl

/-- Values that are all written at one key. -/
theorem valuesAt_map {κ β : Type} [DecidableEq κ] (values : List β) (at_ key : κ)
    : valuesAt (values.map (at_, ·)) key = if at_ = key then values else [] := by
  rw [valuesAt, List.filter_map, List.map_map]
  split_ifs with same <;> simp [Function.comp_def, same]

-----------------------------------------------------------------------------------------
-- Appending
-----------------------------------------------------------------------------------------

section Collect

variable {κ β : Type} [Ord κ] [Std.TransOrd κ] [Std.LawfulEqOrd κ] [DecidableEq κ]

def append (m : Std.TreeMap κ (List β)) (write : κ × β) : Std.TreeMap κ (List β) :=
  m.insert write.1 (m.getD write.1 [] ++ [write.2])

def collect (writes : List (κ × β)) : Std.TreeMap κ (List β) :=
  writes.foldl append ∅

variable (writes : List (κ × β)) (key : κ)

/-- A key has all that is written there, by induction over the writes from the last one. -/
theorem getElem?_collect
    : (collect writes)[key]?
      = if valuesAt writes key = [] then none else some (valuesAt writes key) := by
  induction writes using List.reverseRecOn with
  | nil => simp [collect, valuesAt]
  | append_singleton writes write ih =>
      obtain ⟨key', value⟩ := write
      rw [collect, List.foldl_concat, ← collect, append, Std.TreeMap.getElem?_insert]
      by_cases same : key' = key
      · subst same
        have before : (collect writes).getD key' [] = valuesAt writes key' := by
          rw [Std.TreeMap.getD_eq_getD_getElem?, ih]
          split_ifs with unwritten
          · rw [unwritten, Option.getD_none]
          · rw [Option.getD_some]
        have now : valuesAt (writes ++ [(key', value)]) key' = valuesAt writes key' ++ [value] := by
          simp [valuesAt]
        simp [before, now]
      · have now : valuesAt (writes ++ [(key', value)]) key = valuesAt writes key := by
          simp [valuesAt, same]
        rw [now, ← ih]
        simp [same]

/-- The entry of a key in the list of all entries. -/
theorem filter_toList_collect
    : (collect writes).toList.filter (·.1 = key)
      = if valuesAt writes key = [] then [] else [(key, valuesAt writes key)] := by
  have at_ := getElem?_collect writes key
  have distinct := (collect writes).distinct_keys_toList
  split_ifs with unwritten
  · rw [if_pos unwritten] at at_
    rw [List.filter_eq_nil_iff]
    intro entry member same
    rw [← of_decide_eq_true same, (Std.TreeMap.mem_toList_iff_getElem?_eq_some).mp member] at at_
    cases at_
  · rw [if_neg unwritten] at at_
    obtain ⟨before, behind, split⟩ :=
      List.append_of_mem (Std.TreeMap.mem_toList_iff_getElem?_eq_some.mpr at_)
    rw [split, List.pairwise_append, List.pairwise_cons] at distinct
    obtain ⟨-, ⟨later, -⟩, earlier⟩ := distinct
    have noneBefore : before.filter (·.1 = key) = [] := by
      rw [List.filter_eq_nil_iff]
      intro entry member same
      exact earlier entry member _ List.mem_cons_self
        (Std.LawfulEqOrd.compare_eq_iff_eq.mpr (of_decide_eq_true same))
    have noneBehind : behind.filter (·.1 = key) = [] := by
      rw [List.filter_eq_nil_iff]
      intro entry member same
      exact later entry member
        (Std.LawfulEqOrd.compare_eq_iff_eq.mpr (of_decide_eq_true same).symm)
    rw [split, List.filter_append, List.filter_cons, noneBefore, noneBehind]
    simp

end Collect

-----------------------------------------------------------------------------------------
-- Replacing
-----------------------------------------------------------------------------------------

section Replace

variable {κ β : Type}

/-- The entries as pairs. -/
def pairs (m : AList fun _ : κ => β) : List (κ × β) :=
  m.entries.map fun entry => (entry.1, entry.2)

theorem map_fst_pairs (m : AList fun _ : κ => β) : (pairs m).map (·.1) = m.keys := by
  rw [pairs, List.map_map]
  rfl

theorem length_pairs (m : AList fun _ : κ => β) : (pairs m).length = m.keys.length := by
  rw [← map_fst_pairs, List.length_map]

variable [DecidableEq κ]

def replace (m : AList fun _ : κ => β) (write : κ × β) : AList fun _ : κ => β :=
  m.insert write.1 write.2

def writeAll (writes : List (κ × β)) : AList fun _ : κ => β :=
  writes.foldl replace ∅

variable {m : AList fun _ : κ => β} {write : κ × β} {writes : List (κ × β)}

theorem pairs_replace (new : write.1 ∉ m.keys) : pairs (replace m write) = write :: pairs m := by
  rw [pairs, replace, AList.entries_insert_of_notMem (mt AList.mem_keys.mp new), List.map_cons]
  rfl

/-- A write at a key that has an entry adds none. -/
theorem length_keys_replace (m : AList fun _ : κ => β) (write : κ × β)
    : (replace m write).keys.length = if write.1 ∈ m.keys then m.keys.length
      else m.keys.length + 1 := by
  rw [replace, AList.keys_insert, List.length_cons]
  split_ifs with old
  · have positive := List.length_pos_of_mem old
    rw [List.length_erase_of_mem old]
    omega
  · rw [List.erase_of_not_mem old]

theorem length_foldl_le (m : AList fun _ : κ => β) (writes : List (κ × β))
    : (writes.foldl replace m).keys.length ≤ m.keys.length + writes.length := by
  induction writes generalizing m with
  | nil => exact Nat.le_refl _
  | cons write writes ih =>
      have one := length_keys_replace m write
      have rest := ih (replace m write)
      rw [List.foldl_cons, List.length_cons]
      split_ifs at one <;> omega

/-- Writes at different keys all stay. -/
theorem pairs_foldl_perm (nodup : (m.keys ++ writes.map (·.1)).Nodup)
    : (pairs (writes.foldl replace m)).Perm (pairs m ++ writes) := by
  induction writes generalizing m with
  | nil => simp
  | cons write writes ih =>
      have middle : (m.keys ++ write.1 :: writes.map (·.1)).Perm
          (write.1 :: (m.keys ++ writes.map (·.1))) :=
        List.perm_middle
      rw [List.map_cons, middle.nodup_iff] at nodup
      have new : write.1 ∉ m.keys := fun old =>
        (List.nodup_cons.mp nodup).1 (List.mem_append_left _ old)
      have keys : (replace m write).keys = write.1 :: m.keys := by
        rw [← map_fst_pairs, pairs_replace new, List.map_cons, map_fst_pairs]
      rw [← List.cons_append, ← keys] at nodup
      rw [List.foldl_cons]
      refine (ih nodup).trans ?_
      rw [pairs_replace new]
      exact List.perm_middle.symm

/-- When as many entries are left as were written, the keys differ. -/
theorem nodup_of_length_foldl
    (same : (writes.foldl replace m).keys.length = m.keys.length + writes.length)
    : (m.keys ++ writes.map (·.1)).Nodup := by
  induction writes generalizing m with
  | nil => simpa using m.keys_nodup
  | cons write writes ih =>
      have one := length_keys_replace m write
      have rest := length_foldl_le (replace m write) writes
      rw [List.foldl_cons, List.length_cons] at same
      have new : write.1 ∉ m.keys := by
        intro old
        rw [if_pos old] at one
        omega
      rw [if_neg new] at one
      have keys : (replace m write).keys = write.1 :: m.keys := by
        rw [← map_fst_pairs, pairs_replace new, List.map_cons, map_fst_pairs]
      have nodup := ih (m := replace m write) (by omega)
      rw [keys, List.cons_append] at nodup
      rw [List.map_cons]
      exact List.perm_middle.nodup_iff.mpr nodup

theorem length_writeAll_le (writes : List (κ × β))
    : (pairs (writeAll writes)).length ≤ writes.length := by
  have few := length_foldl_le ∅ writes
  rwa [AList.keys_empty, List.length_nil, Nat.zero_add, ← length_pairs] at few

theorem pairs_writeAll_perm (nodup : (writes.map (·.1)).Nodup)
    : (pairs (writeAll writes)).Perm writes := by
  have keys : ((∅ : AList fun _ : κ => β).keys ++ writes.map (·.1)).Nodup := by
    simpa using nodup
  exact pairs_foldl_perm keys

/-- Exactly writes at different keys leave as many entries as there are writes. -/
theorem length_writeAll_eq_iff
    : (pairs (writeAll writes)).length = writes.length ↔ (writes.map (·.1)).Nodup := by
  constructor
  · intro same
    rw [length_pairs] at same
    have fromEmpty : (writes.foldl replace ∅).keys.length
        = (∅ : AList fun _ : κ => β).keys.length + writes.length := by
      rw [AList.keys_empty, List.length_nil, Nat.zero_add]
      exact same
    exact nodup_of_length_foldl fromEmpty
  · intro nodup
    exact (pairs_writeAll_perm nodup).length_eq

end Replace

/-- Lists of keyed values with the same values at each key are the same up to order. -/
theorem perm_of_valuesAt {κ β : Type} [DecidableEq κ] {left right : List (κ × β)}
    (same : ∀ key, (valuesAt left key).Perm (valuesAt right key))
    : left.Perm right := by
  classical
  rw [List.perm_iff_count]
  rintro ⟨key, value⟩
  have count (entries : List (κ × β))
      : (valuesAt entries key).count value = entries.count (key, value) := by
    induction entries with
    | nil => rfl
    | cons entry entries ih =>
        obtain ⟨key', value'⟩ := entry
        by_cases sameKey : key' = key
        · subst sameKey
          by_cases sameValue : value' = value
          · subst sameValue
            simpa [valuesAt] using ih
          · simpa [valuesAt, sameValue] using ih
        · simpa [valuesAt, sameKey] using ih
  rw [← count, ← count]
  exact (same key).count_eq value

end KeyedWrites
