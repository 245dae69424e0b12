import Sparcs.CassSpeed.SavedRows

/-! What the JSON file has: all samples are there exactly when all are assigned, and no two at
the same place. Both files are right exactly for what is savable.
-/

namespace Sparcs.CassSpeed

open KeyedWrites RaggedRows

-----------------------------------------------------------------------------------------
-- The assignments
-----------------------------------------------------------------------------------------

/-- The assignments of a device. -/
def OutputSet.assignments (output : OutputSet) (stepSize : Float32) (timestampStart : UInt64)
    : List (JsonPath × Float32) :=
  rowLoop output.jsonWrites (stepOf stepSize) output.rowCount timestampStart

/-- The assignments of all devices. -/
def Cassspeed.assignments (payload : Cassspeed) (stepSize : Float32)
    : List (JsonPath × Float32) :=
  payload.outputsets.flatMap (·.assignments stepSize (payload.timestampstart.getD 0))

/-- An entry with what it is of. -/
def relabel (entry : JsonPath × Float32) : SampleLabel × Float32 := (entry.1.label, entry.2)

section Json

variable {payload : Cassspeed} {stepSize : Float32} {json : AList fun _ : JsonPath => Float32}

theorem saveBodyJson_eq_ok_iff
    : saveBodyJson payload stepSize = .ok json
      ↔ (∀ output ∈ payload.outputsets, output.Writable stepSize)
        ∧ json = writeAll (payload.assignments stepSize) :=
  OutputSet.mapM_rows_eq_ok_iff writeAll

theorem map_jsonWrites (output : OutputSet) (j : Nat) (timestamp : UInt64)
    : (output.jsonWrites j timestamp).filterMap (fun entry => some (relabel entry))
      = cells output.labelled j := by
  rw [OutputSet.jsonWrites, cells, OutputSet.labelled, List.filterMap_map, List.filterMap_filterMap]
  refine List.filterMap_congr fun set _ => ?_
  cases at_ : set.sample[j]? with
  | none => simp [at_]
  | some sample =>
      simp only [at_, Option.map_some, Option.bind_some, Function.comp_apply, List.getElem?_map]
      rfl

/-- What is assigned for a device: the samples that lie in its rows. -/
theorem map_assignments_perm (output : OutputSet) (stepSize : Float32) (timestampStart : UInt64)
    : ((output.assignments stepSize timestampStart).map relabel).Perm
        (output.labelled.flatMap (·.take output.rowCount)) := by
  rw [OutputSet.assignments, ← List.filterMap_eq_map']
  rw [filterMap_rowLoop (map_jsonWrites output)]
  exact descending_cells_perm _ _

/-- No sample set of a device is longer than the first one. -/
def OutputSet.Fits (output : OutputSet) : Prop :=
  ∀ set ∈ output.sampleset, set.sample.length ≤ output.rowCount

theorem Cassspeed.map_assignments_perm (fits : ∀ output ∈ payload.outputsets, output.Fits)
    (stepSize : Float32)
    : ((payload.assignments stepSize).map relabel).Perm payload.samples := by
  rw [Cassspeed.assignments, List.map_flatMap, Cassspeed.samples]
  refine List.Perm.flatMap_left _ fun output member => ?_
  refine (CassSpeed.map_assignments_perm _ _ _).trans (List.Perm.of_eq ?_)
  refine List.flatMap_congr fun labelled inside => ?_
  obtain ⟨set, ofDevice, rfl⟩ := List.mem_map.mp inside
  refine List.take_of_length_le ?_
  rw [List.length_map]
  exact fits output member set ofDevice

/-- As many assignments as samples leave no sample out. -/
theorem length_assignments_le (payload : Cassspeed) (stepSize : Float32)
    : (payload.assignments stepSize).length ≤ payload.samples.length
      ∧ ((payload.assignments stepSize).length = payload.samples.length →
          ∀ output ∈ payload.outputsets, output.Fits) := by
  have single (output : OutputSet)
      : (output.assignments stepSize (payload.timestampstart.getD 0)).length
        = (output.labelled.flatMap (·.take output.rowCount)).length := by
    rw [← (map_assignments_perm output stepSize _).length_eq, List.length_map]
  have cut (output : OutputSet)
      : ∀ labelled ∈ output.labelled,
          (labelled.take output.rowCount).length ≤ (id labelled).length :=
    fun labelled _ => List.length_take_le' _ _
  have le : ∀ output ∈ payload.outputsets,
      (output.assignments stepSize (payload.timestampstart.getD 0)).length
        ≤ (output.labelled.flatMap id).length := by
    intro output _
    rw [single, List.length_flatMap, List.length_flatMap]
    exact List.sum_le_sum (cut output)
  refine ⟨?_, fun same output member set inside => ?_⟩
  · rw [Cassspeed.assignments, Cassspeed.samples, List.length_flatMap, List.length_flatMap]
    exact List.sum_le_sum le
  · have whole := length_eq_of_flatMap le same output member
    rw [single] at whole
    have one := length_eq_of_flatMap (cut output) whole _ (List.mem_map_of_mem inside)
    rw [List.length_take, id, List.length_map] at one
    omega

/-- The JSON file is right exactly when it can be written, with all samples and at different
places.
-/
theorem savesJson_iff
    : SavesJson payload stepSize
      ↔ (∀ output ∈ payload.outputsets, output.Writable stepSize)
        ∧ (∀ output ∈ payload.outputsets, output.Fits)
        ∧ ((payload.assignments stepSize).map (·.1)).Nodup := by
  constructor
  · rintro ⟨json, saved, right⟩
    obtain ⟨writable, rfl⟩ := saveBodyJson_eq_ok_iff.mp saved
    have all := (perm_of_valuesAt right).length_eq
    rw [List.length_map] at all
    have few := length_writeAll_le (payload.assignments stepSize)
    obtain ⟨le, fits⟩ := length_assignments_le payload stepSize
    exact ⟨writable, fits (by omega), length_writeAll_eq_iff.mp (by omega)⟩
  · rintro ⟨writable, fits, nodup⟩
    refine ⟨_, saveBodyJson_eq_ok_iff.mpr ⟨writable, rfl⟩, fun label => ?_⟩
    have all : ((pairs (writeAll (payload.assignments stepSize))).map relabel).Perm
        payload.samples :=
      ((pairs_writeAll_perm nodup).map relabel).trans
        (Cassspeed.map_assignments_perm fits stepSize)
    exact (all.filter _).map _

end Json

-----------------------------------------------------------------------------------------
-- The places of the samples
-----------------------------------------------------------------------------------------

namespace OutputSet

/-- The place of a set in the row at a time. -/
def path (output : OutputSet) (timestamp : UInt64) (set : SampleSet) : JsonPath :=
  ⟨output.deviceid, timestamp, set.name, set.compression⟩

variable {output : OutputSet} {columns names : List String} {stepSize : Float32}
  {timestampStart : UInt64} {j k : Nat} {timestamp : UInt64}

/-- Those of a row. -/
theorem map_fst_jsonWrites (output : OutputSet) (j : Nat) (timestamp : UInt64)
    : (output.jsonWrites j timestamp).map (·.1)
      = (output.sampleset.filter (j < ·.sample.length)).map (output.path timestamp) := by
  rw [jsonWrites]
  induction output.sampleset with
  | nil => rfl
  | cons set sampleset ih =>
      rw [List.filterMap_cons, List.filter_cons]
      by_cases inside : j < set.sample.length
      · rw [if_pos (by simpa using inside), List.getElem?_eq_getElem inside, Option.map_some,
          List.map_cons, List.map_cons, ih]
        rfl
      · rw [if_neg (by simpa using inside), List.getElem?_eq_none (not_lt.mp inside),
          Option.map_none, ih]

/-- A row has no place twice. -/
theorem Covers.nodup_row (covers : output.Covers columns names)
    (distinct : columns.Nodup ∧ names.Nodup) (j : Nat) (timestamp : UInt64)
    : ((output.jsonWrites j timestamp).map (·.1)).Nodup := by
  rw [map_fst_jsonWrites]
  refine (List.filter_sublist.map _).nodup ?_
  have whole : output.sampleset.map (output.path timestamp)
      = (columns ×ˢ names).map fun set => ⟨output.deviceid, timestamp, set.2, set.1⟩ := by
    rw [← covers, List.map_map]
    rfl
  rw [whole]
  refine (List.Nodup.product distinct.1 distinct.2).map ?_
  rintro ⟨compression, name⟩ ⟨compression', name'⟩ same
  obtain ⟨-, -, rfl, rfl⟩ := JsonPath.mk.inj same
  rfl

/-- Those of a device, row by row. -/
theorem map_fst_assignments (output : OutputSet) (stepSize : Float32) (timestampStart : UInt64)
    : (output.assignments stepSize timestampStart).map (·.1)
      = (List.range output.rowCount).flatMap fun k =>
          (output.jsonWrites (output.rowCount - 1 - k)
            (timestampStart + UInt64.ofNat k * stepOf stepSize)).map (·.1) := by
  rw [assignments, rowLoop_eq, List.map_flatMap]

/-- The place of the first set is in all rows. -/
theorem first_mem {first : SampleSet} {others : List SampleSet}
    (split : output.sampleset = first :: others) (below : j < output.rowCount)
    (timestamp : UInt64)
    : output.path timestamp first ∈ (output.jsonWrites j timestamp).map (·.1) := by
  have count : output.rowCount = first.sample.length := by
    rw [rowCount, split]
    rfl
  rw [map_fst_jsonWrites, split]
  refine List.mem_map_of_mem (List.mem_filter.mpr ⟨List.mem_cons_self, ?_⟩)
  exact decide_eq_true (count ▸ below)

theorem timestamp_of_mem {path : JsonPath}
    (member : path ∈ (output.jsonWrites j timestamp).map (·.1))
    : path.deviceid = output.deviceid ∧ path.timestamp = timestamp := by
  rw [map_fst_jsonWrites] at member
  obtain ⟨set, -, rfl⟩ := List.mem_map.mp member
  exact ⟨rfl, rfl⟩

/-- A device has no place twice exactly when the times of its rows differ. -/
theorem Covers.nodup_assignments_iff (covers : output.Covers columns names)
    (distinct : columns.Nodup ∧ names.Nodup) (sets : output.sampleset ≠ [])
    : ((output.assignments stepSize timestampStart).map (·.1)).Nodup
      ↔ (rowTimes (stepOf stepSize) timestampStart output.rowCount).Nodup := by
  obtain ⟨first, others, split⟩ := List.exists_cons_of_ne_nil sets
  rw [map_fst_assignments, List.nodup_flatMap,
    and_iff_right fun k _ => covers.nodup_row distinct _ _, rowTimes, List.Nodup,
    List.pairwise_map]
  constructor
  · intro disjoint
    refine disjoint.imp_of_mem fun {k k'} inside inside' apart same => ?_
    have below := List.mem_range.mp inside
    have below' := List.mem_range.mp inside'
    refine apart (first_mem split (by omega) _) ?_
    rw [same]
    exact first_mem split (by omega) _
  · intro differ
    refine differ.imp fun {k k'} apart path member member' => ?_
    exact apart ((timestamp_of_mem member).2.symm.trans (timestamp_of_mem member').2)

/-- Two devices have no place in common exactly when their ids differ or one has no row. -/
theorem Covers.disjoint_assignments_iff {later : OutputSet} (covers : output.Covers columns names)
    (covers' : later.Covers columns names) (sets : output.sampleset ≠ [])
    (sets' : later.sampleset ≠ [])
    : ((output.assignments stepSize timestampStart).map (·.1)).Disjoint
          ((later.assignments stepSize timestampStart).map (·.1))
      ↔ (output.deviceid = later.deviceid → output.rowCount = 0 ∨ later.rowCount = 0) := by
  rw [map_fst_assignments, map_fst_assignments]
  constructor
  · intro disjoint same
    by_contra rows
    rw [not_or] at rows
    obtain ⟨first, others, split⟩ := List.exists_cons_of_ne_nil sets
    obtain ⟨first', others', split'⟩ := List.exists_cons_of_ne_nil sets'
    rw [Covers, split, List.map_cons] at covers
    rw [Covers, split', List.map_cons, ← covers] at covers'
    obtain ⟨compression, name⟩ := Prod.mk.inj (List.cons.inj covers').1
    have path : output.path (timestampStart + UInt64.ofNat 0 * stepOf stepSize) first
        = later.path (timestampStart + UInt64.ofNat 0 * stepOf stepSize) first' := by
      rw [OutputSet.path, OutputSet.path, same, name, compression]
    refine @disjoint (output.path _ first) (List.mem_flatMap.mpr ⟨0, ?_, first_mem split ?_ _⟩) ?_
    · exact List.mem_range.mpr (by omega)
    · omega
    · rw [path]
      refine List.mem_flatMap.mpr ⟨0, ?_, first_mem split' ?_ _⟩
      · exact List.mem_range.mpr (by omega)
      · omega
  · intro apart path member member'
    obtain ⟨k, inside, member⟩ := List.mem_flatMap.mp member
    obtain ⟨k', inside', member'⟩ := List.mem_flatMap.mp member'
    have below := List.mem_range.mp inside
    have below' := List.mem_range.mp inside'
    have same := (timestamp_of_mem member).1.symm.trans (timestamp_of_mem member').1
    have rows := apart same
    omega

end OutputSet

/-- All devices together have no place twice exactly when the rows can be told apart by device
and time.
-/
theorem nodup_assignments_iff {payload : Cassspeed} {stepSize : Float32}
    {columns names : List String}
    (covers : ∀ output ∈ payload.outputsets, output.Covers columns names)
    (distinct : columns.Nodup ∧ names.Nodup)
    (sets : ∀ output ∈ payload.outputsets, output.sampleset ≠ [])
    : ((payload.assignments stepSize).map (·.1)).Nodup
      ↔ (∀ output ∈ payload.outputsets,
          (rowTimes (OutputSet.stepOf stepSize) (payload.timestampstart.getD 0)
            output.rowCount).Nodup)
        ∧ payload.outputsets.Pairwise fun output later =>
            output.deviceid = later.deviceid → output.rowCount = 0 ∨ later.rowCount = 0 := by
  rw [Cassspeed.assignments, List.map_flatMap, List.nodup_flatMap]
  refine and_congr ?_ (List.Pairwise.iff_of_mem ?_)
  · exact forall₂_congr fun output member =>
      (covers output member).nodup_assignments_iff distinct (sets output member)
  · intro output later member member'
    exact (covers output member).disjoint_assignments_iff (covers later member')
      (sets output member) (sets later member')

-----------------------------------------------------------------------------------------
-- Both files
-----------------------------------------------------------------------------------------

/-- When all devices have the same compressions and channels, both files are right exactly for
what is savable.
-/
theorem saves_iff {payload : Cassspeed} {stepSize : Float32} {compressionMethod : Text}
    {v : Int32} {columns names : List String} (chosen : stoi compressionMethod = .ok v)
    (headed : csvHeader v = ["Device ID", "TimeStamp", "Data Type"] ++ columns)
    (covers : ∀ output ∈ payload.outputsets, output.Covers columns names)
    (distinct : columns.Nodup ∧ names.Nodup)
    : SavesCsv payload stepSize compressionMethod ∧ SavesJson payload stepSize
      ↔ payload.Savable stepSize := by
  rw [savesCsv_iff chosen headed covers distinct, savesJson_iff]
  constructor
  · rintro ⟨⟨writable, upright⟩, -, -, nodup⟩
    have sets := fun output member => (writable output member).sets
    obtain ⟨times, devices⟩ := (nodup_assignments_iff covers distinct sets).mp nodup
    refine ⟨sets, upright, fun output member rows => ?_, devices⟩
    obtain ⟨step, defined⟩ := (writable output member).step rows
    have nodup := times output member
    rw [OutputSet.stepOf, defined] at nodup
    exact ⟨step, defined, nodup⟩
  · intro savable
    have writable : ∀ output ∈ payload.outputsets, output.Writable stepSize := by
      intro output member
      refine ⟨savable.sets output member, fun rows => ?_⟩
      obtain ⟨step, defined, -⟩ := savable.times output member rows
      exact ⟨step, defined⟩
    have fits : ∀ output ∈ payload.outputsets, output.Fits := by
      intro output member set inside
      exact (savable.upright output member set.name).fits _
        (List.mem_map_of_mem (List.mem_filter.mpr ⟨inside, decide_eq_true rfl⟩))
    refine ⟨⟨writable, savable.upright⟩, writable, fits, ?_⟩
    refine (nodup_assignments_iff covers distinct savable.sets).mpr ⟨?_, savable.devices⟩
    intro output member
    rcases Nat.eq_zero_or_pos output.rowCount with rowless | rows
    · rw [rowless]
      exact List.nodup_nil
    · obtain ⟨step, defined, nodup⟩ := savable.times output member rows
      rw [OutputSet.stepOf, defined]
      exact nodup

end Sparcs.CassSpeed
