import Sparcs.CassSpeed.SavedBody

/-! What the CSV file has when all devices have the same compressions and channels: each sample
stands under its compression exactly when the sets of each channel are upright.
-/

namespace Sparcs.CassSpeed

open KeyedWrites RaggedRows

-----------------------------------------------------------------------------------------
-- The loops
-----------------------------------------------------------------------------------------

section Loops

variable {α β γ : Type}

theorem bind_pure_eq_ok_iff {e : Except Fault α} {f : α → β} {b : β}
    : (e >>= fun a => pure (f a)) = .ok b ↔ ∃ a, e = .ok a ∧ b = f a := by
  cases e <;> simp [bind, Except.bind, pure, Except.pure, eq_comm]

theorem mapM_eq_ok_iff {f : α → Except Fault β} {fine : α → Prop} {g : α → β}
    (single : ∀ a b, f a = .ok b ↔ fine a ∧ b = g a) {items : List α} {results : List β}
    : items.mapM f = .ok results ↔ (∀ a ∈ items, fine a) ∧ results = items.map g := by
  induction items generalizing results with
  | nil => simp [pure, Except.pure, eq_comm]
  | cons a items ih =>
      rw [List.mapM_cons, List.forall_mem_cons, List.map_cons]
      constructor
      · intro all
        cases first : f a with
        | error fault =>
            rw [first] at all
            cases all
        | ok b =>
            rw [first] at all
            cases others : items.mapM f with
            | error fault =>
                rw [others] at all
                cases all
            | ok rest =>
                rw [others] at all
                obtain rfl : b :: rest = results := Except.ok.inj all
                obtain ⟨one, rfl⟩ := (single a b).mp first
                obtain ⟨more, rfl⟩ := ih.mp others
                exact ⟨⟨one, more⟩, rfl⟩
      · rintro ⟨⟨one, more⟩, rfl⟩
        rw [(single a (g a)).mpr ⟨one, rfl⟩, ih.mpr ⟨more, rfl⟩]
        rfl

/-- The rows with their times, the first row at the start. -/
theorem rowLoop_eq (body : Nat → UInt64 → List β) (step timestampStart : UInt64) (n : Nat)
    : rowLoop body step n timestampStart
      = (List.range n).flatMap fun k =>
          body (n - 1 - k) (timestampStart + UInt64.ofNat k * step) := by
  induction n generalizing timestampStart with
  | zero => rfl
  | succ n ih =>
      rw [rowLoop, ih, List.range_succ_eq_map, List.flatMap_cons, List.flatMap_map]
      congr 1
      · simp
      · refine List.flatMap_congr fun k _ => ?_
        have time : timestampStart + step + UInt64.ofNat k * step
            = timestampStart + UInt64.ofNat (k + 1) * step := by
          rw [UInt64.ofNat_add, UInt64.add_mul, UInt64.add_assoc]
          congr 1
          rw [UInt64.add_comm]
          simp
        rw [time]
        congr 1
        omega

/-- Where the times are not looked at, only the order of the rows is left. -/
theorem filterMap_rowLoop {body : Nat → UInt64 → List β} {f : β → Option γ} {row : Nat → List γ}
    (timeless : ∀ j t, (body j t).filterMap f = row j) (step timestampStart : UInt64) (n : Nat)
    : (rowLoop body step n timestampStart).filterMap f = descending row n := by
  induction n generalizing timestampStart with
  | zero => rfl
  | succ n ih => rw [rowLoop, List.filterMap_append, timeless, ih, descending]

end Loops

namespace OutputSet

/-- The rows of a device can be written. -/
structure Writable (output : OutputSet) (stepSize : Float32) : Prop where
  sets : output.sampleset ≠ []
  step : 0 < output.rowCount → ∃ step, rowStep stepSize = .ok step

/-- The step of the times, where there is one. -/
def stepOf (stepSize : Float32) : UInt64 :=
  match rowStep stepSize with
  | .ok step => step
  | .error _ => 0

theorem samplesLen_eq {output : OutputSet} (sets : output.sampleset ≠ [])
    : output.samplesLen = .ok output.rowCount := by
  rw [samplesLen, rowCount]
  cases split : output.sampleset with
  | nil => exact absurd split sets
  | cons first others => rfl

theorem rows_eq_ok_iff {β : Type} {output : OutputSet} {stepSize : Float32}
    {timestampStart : UInt64} {body : OutputSet → Nat → UInt64 → List β} {written : List β}
    : output.rows stepSize timestampStart body = .ok written
      ↔ output.Writable stepSize
        ∧ written = rowLoop (body output) (stepOf stepSize) output.rowCount timestampStart := by
  by_cases sets : output.sampleset = []
  · have unwritable : ¬output.Writable stepSize := fun writable => writable.sets sets
    simp [rows, samplesLen, sets, unwritable, bind, Except.bind]
  · rw [rows, samplesLen_eq sets]
    cases count : output.rowCount with
    | zero =>
        have writable : output.Writable stepSize := ⟨sets, fun filled => by omega⟩
        simp [writable, rowLoop, bind, Except.bind, pure, Except.pure, eq_comm]
    | succ n =>
        cases step : rowStep stepSize with
        | error fault =>
            have not : ¬output.Writable stepSize := by
              intro writable
              obtain ⟨step', defined⟩ := writable.step (by omega)
              rw [step] at defined
              cases defined
            simp [not, bind, Except.bind]
        | ok step' =>
            have writable : output.Writable stepSize := ⟨sets, fun _ => ⟨step', step⟩⟩
            simp [writable, stepOf, step, bind, Except.bind, pure, Except.pure, eq_comm]

/-- What is made of the rows of all devices. -/
theorem mapM_rows_eq_ok_iff {β γ : Type} {outputs : List OutputSet} {stepSize : Float32}
    {timestampStart : UInt64} {body : OutputSet → Nat → UInt64 → List β} {saved : γ}
    (file : List β → γ)
    : (outputs.mapM (fun output => output.rows stepSize timestampStart body) >>= fun written =>
          (pure (file written.flatten) : Except Fault γ)) = .ok saved
      ↔ (∀ output ∈ outputs, output.Writable stepSize)
        ∧ saved = file (outputs.flatMap fun output =>
            rowLoop (body output) (stepOf stepSize) output.rowCount timestampStart) := by
  refine bind_pure_eq_ok_iff.trans ?_
  simp only [mapM_eq_ok_iff fun _ _ => rows_eq_ok_iff, List.flatMap_def]
  constructor
  · rintro ⟨rows, ⟨writable, rfl⟩, rfl⟩
    exact ⟨writable, rfl⟩
  · rintro ⟨writable, rfl⟩
    exact ⟨_, ⟨writable, rfl⟩, rfl⟩

end OutputSet

-----------------------------------------------------------------------------------------
-- The sets of a device
-----------------------------------------------------------------------------------------

/-- One set for each compression and channel. -/
def OutputSet.Covers (columns names : List String) (output : OutputSet) : Prop :=
  output.sampleset.map (fun set => (set.compression, set.name)) = columns ×ˢ names

/-- What the devices of a name have of a channel, with their numbers of rows. -/
def Cassspeed.tables (payload : Cassspeed) (deviceid : Text) (name : String)
    : List (List Samples × Nat) :=
  (payload.outputsets.filter (·.deviceid = deviceid)).map fun output =>
    (output.columns name, output.rowCount)

/-- What is put together from the tables of a device. -/
theorem flatMap_tables {β : Type} (payload : Cassspeed) (deviceid : Text) (name : String)
    (f : List Samples × Nat → List β)
    : (payload.tables deviceid name).flatMap f
      = payload.outputsets.flatMap fun output =>
          if output.deviceid = deviceid then f (output.columns name, output.rowCount) else [] := by
  rw [Cassspeed.tables, List.flatMap_map]
  induction payload.outputsets with
  | nil => rfl
  | cons output outputs ih =>
      rw [List.filter_cons, List.flatMap_cons, ← ih]
      by_cases same : output.deviceid = deviceid <;> simp [same]

section Covers

variable {columns names : List String} {output : OutputSet} {name : String}

theorem filter_product (columns : List String) (distinct : names.Nodup)
    : ((columns ×ˢ names).filter (·.2 = name)).map (·.1)
      = if name ∈ names then columns else [] := by
  induction columns with
  | nil => simp
  | cons column columns ih =>
      have first : ((names.map (column, ·)).filter (·.2 = name)).map (·.1)
          = if name ∈ names then [column] else [] := by
        rw [List.filter_map, List.map_map]
        have only : names.filter ((fun set : String × String => decide (set.2 = name))
            ∘ (column, ·)) = if name ∈ names then [name] else [] := by
          have same := List.filter_eq (l := names) name
          split_ifs with member
          · rw [List.count_eq_one_of_mem distinct member] at same
            simpa [Function.comp_def] using same
          · rw [List.count_eq_zero_of_not_mem member] at same
            simpa [Function.comp_def] using same
        rw [only]
        split_ifs <;> rfl
      rw [List.product_cons, List.filter_append, List.map_append, ih, first]
      split_ifs <;> rfl

/-- The compressions of a channel are those of the device. -/
theorem OutputSet.Covers.compressions (covers : output.Covers columns names)
    (distinct : names.Nodup) (name : String)
    : (output.sampleset.filter (·.name = name)).map (·.compression)
      = if name ∈ names then columns else [] := by
  rw [← filter_product columns distinct, ← covers, List.filter_map, List.map_map]
  rfl

theorem OutputSet.Covers.length_columns (covers : output.Covers columns names)
    (distinct : names.Nodup)
    : (output.columns name).length = if name ∈ names then columns.length else 0 := by
  have lengths := congrArg List.length (covers.compressions distinct name)
  rw [List.length_map] at lengths
  rw [OutputSet.columns, List.length_map, lengths]
  split_ifs <;> rfl

variable {compression : String} {p : Nat}

/-- The only item with a key, by induction over the items. -/
theorem flatMap_ite_key {α β κ : Type} [DecidableEq κ] {items : List α} {key : α → κ} {k : κ}
    (distinct : (items.map key).Nodup) (values : α → List β)
    (at_ : (items.map key)[p]? = some k)
    : (items.flatMap fun item => if key item = k then values item else [])
      = (items.map values).getD p [] := by
  induction items generalizing p with
  | nil => cases at_
  | cons item items ih =>
      rw [List.map_cons, List.nodup_cons] at distinct
      rw [List.flatMap_cons]
      cases p with
      | zero =>
          obtain rfl : key item = k := by simpa using at_
          have others : (items.flatMap fun other =>
              if key other = key item then values other else []) = [] := by
            rw [List.flatMap_eq_nil_iff]
            intro other member
            exact if_neg fun same : key other = key item =>
              distinct.1 (same ▸ List.mem_map_of_mem member)
          rw [others, if_pos rfl, List.append_nil]
          rfl
      | succ p =>
          have behind : (items.map key)[p]? = some k := by simpa using at_
          have not : key item ≠ k := fun same =>
            distinct.1 (same ▸ List.mem_of_getElem? behind)
          rw [if_neg not, ih distinct.2 behind]
          rfl

/-- The samples that a device has of a channel and of the compression at one position. -/
theorem OutputSet.Covers.flatMap_sample (covers : output.Covers columns names)
    (distinct : columns.Nodup ∧ names.Nodup) (at_ : columns[p]? = some compression)
    : (output.sampleset.flatMap fun set =>
        if set.name = name ∧ set.compression = compression then set.sample else [])
      = (output.columns name).getD p [] := by
  have compressions := covers.compressions distinct.2 name
  have split : (output.sampleset.flatMap fun set =>
        if set.name = name ∧ set.compression = compression then set.sample else [])
      = (output.sampleset.filter (·.name = name)).flatMap fun set =>
          if set.compression = compression then set.sample else [] := by
    induction output.sampleset with
    | nil => rfl
    | cons set sampleset ih =>
        rw [List.flatMap_cons, List.filter_cons, ih]
        by_cases same : set.name = name <;> simp [same]
  rw [split]
  split_ifs at compressions with member
  · refine flatMap_ite_key ?_ _ ?_
    · rw [compressions]
      exact distinct.1
    · rw [compressions]
      exact at_
  · have nothing := List.map_eq_nil_iff.mp compressions
    rw [OutputSet.columns, nothing]
    rfl

/-- The samples of all devices under a label. -/
theorem valuesAt_samples {payload : Cassspeed}
    (covers : ∀ output ∈ payload.outputsets, output.Covers columns names)
    (distinct : columns.Nodup ∧ names.Nodup) (at_ : columns[p]? = some compression)
    (deviceid : Text)
    : valuesAt payload.samples ⟨deviceid, name, compression⟩
      = columnsAt (payload.tables deviceid name) p := by
  rw [Cassspeed.samples, valuesAt_flatMap, columnsAt, flatMap_tables]
  refine List.flatMap_congr fun output member => ?_
  have sets : valuesAt (output.labelled.flatMap id) ⟨deviceid, name, compression⟩
      = output.sampleset.flatMap fun set =>
          if set.label output.deviceid = ⟨deviceid, name, compression⟩ then set.sample else [] := by
    rw [OutputSet.labelled, List.flatMap_map, valuesAt_flatMap]
    exact List.flatMap_congr fun set _ => valuesAt_map _ _ _
  rw [sets]
  split_ifs with same
  · rw [← (covers output member).flatMap_sample distinct at_]
    refine List.flatMap_congr fun set _ => ?_
    simp [SampleSet.label, same]
  · rw [List.flatMap_eq_nil_iff]
    intro set _
    exact if_neg fun label => same (congrArg SampleLabel.deviceid label)

end Covers

-----------------------------------------------------------------------------------------
-- CSV
-----------------------------------------------------------------------------------------

section Csv

variable {output : OutputSet} {name : String}

/-- The keys of a row have what is left of their columns in it. -/
theorem valuesAt_keyed (output : OutputSet) (j : Nat) (name : String)
    : valuesAt (output.keyed j) name = cells (output.columns name) j := by
  rw [OutputSet.keyed, OutputSet.columns]
  induction output.sampleset with
  | nil => rfl
  | cons set sampleset ih =>
      rw [List.filterMap_cons, List.filter_cons]
      by_cases same : set.name = name
      · rw [if_pos (by simpa using same), List.map_cons, cells_cons, ← ih]
        cases set.sample[j]? with
        | none => rfl
        | some sample => simp [valuesAt, same]
      · rw [if_neg (by simpa using same), ← ih]
        cases set.sample[j]? with
        | none => rfl
        | some sample => simp [valuesAt, same]

theorem filterMap_csvRows (output : OutputSet) (j : Nat) (timestamp : UInt64) (deviceid : Text)
    (name : String) (p : Nat)
    : ((output.csvRows j timestamp).filterMap fun row =>
        if row.deviceid = deviceid ∧ row.name = name then row.cells[p]? else none)
      = if output.deviceid = deviceid then position (output.columns name) p j else [] := by
  rw [OutputSet.csvRows, List.filterMap_map]
  split_ifs with same
  · have entries : ((collect (output.keyed j)).toList.filterMap
          ((fun row : CsvRow =>
              if row.deviceid = deviceid ∧ row.name = name then row.cells[p]? else none)
            ∘ fun entry => ⟨output.deviceid, timestamp, entry.1, entry.2⟩))
        = ((collect (output.keyed j)).toList.filter (·.1 = name)).filterMap (·.2[p]?) := by
      rw [List.filterMap_filter]
      refine List.filterMap_congr fun entry _ => ?_
      simp [same]
    rw [entries, filter_toList_collect, valuesAt_keyed, position]
    split_ifs with unwritten
    · rw [unwritten]
      rfl
    · rw [List.filterMap_cons]
      cases (cells (output.columns name) j)[p]? <;> rfl
  · rw [List.filterMap_eq_nil_iff]
    intro entry _
    exact if_neg fun both => same both.1

theorem length_cells_of_mem_csvRows {j : Nat} {timestamp : UInt64} {row : CsvRow}
    (member : row ∈ output.csvRows j timestamp)
    : row.cells.length ≤ (output.columns row.name).length := by
  obtain ⟨entry, inside, rfl⟩ := List.mem_map.mp member
  have at_ := Std.TreeMap.mem_toList_iff_getElem?_eq_some.mp inside
  rw [getElem?_collect, valuesAt_keyed] at at_
  split_ifs at at_
  obtain same := Option.some.inj at_
  change entry.2.length ≤ _
  rw [← same]
  exact cells_length_le _ _

/-- The lines of a device, last sample first. -/
def OutputSet.csvLines (output : OutputSet) (stepSize : Float32) (timestampStart : UInt64)
    : List CsvRow :=
  rowLoop output.csvRows (stepOf stepSize) output.rowCount timestampStart

/-- The lines of all devices. -/
def Cassspeed.csvLines (payload : Cassspeed) (stepSize : Float32) : List CsvRow :=
  payload.outputsets.flatMap (·.csvLines stepSize (payload.timestampstart.getD 0))

variable {payload : Cassspeed} {stepSize : Float32} {compressionMethod : Text} {v : Int32}
  {file : CsvFile}

theorem saveBodyCSV_eq_ok_iff (chosen : stoi compressionMethod = .ok v)
    : saveBodyCSV payload stepSize compressionMethod = .ok file
      ↔ (∀ output ∈ payload.outputsets, output.Writable stepSize)
        ∧ file = { header := csvHeader v, rows := payload.csvLines stepSize } := by
  rw [saveBodyCSV, chosen]
  exact OutputSet.mapM_rows_eq_ok_iff (CsvFile.mk (csvHeader v))

/-- One position of a device and a channel, over all rows. -/
theorem column_csvLines (header : List String) (deviceid : Text) (name : String) (p : Nat)
    : CsvFile.column ⟨header, payload.csvLines stepSize⟩ deviceid name p
      = positions (payload.tables deviceid name) p := by
  rw [CsvFile.column, Cassspeed.csvLines, positions, flatMap_tables, List.filterMap_flatMap]
  refine List.flatMap_congr fun output _ => ?_
  rw [OutputSet.csvLines, filterMap_rowLoop fun j timestamp => filterMap_csvRows output j timestamp
    deviceid name p]
  split_ifs
  · rfl
  · simp [descending_eq]

theorem length_cells_of_mem_csvLines {row : CsvRow} (member : row ∈ payload.csvLines stepSize)
    : ∃ output ∈ payload.outputsets, row.cells.length ≤ (output.columns row.name).length := by
  obtain ⟨output, inside, member⟩ := List.mem_flatMap.mp member
  rw [OutputSet.csvLines, rowLoop_eq] at member
  obtain ⟨k, -, member⟩ := List.mem_flatMap.mp member
  exact ⟨output, inside, length_cells_of_mem_csvRows member⟩

variable {columns names : List String}

/-- The CSV file is right exactly when it can be written and all channels are upright. -/
theorem savesCsv_iff (chosen : stoi compressionMethod = .ok v)
    (headed : csvHeader v = ["Device ID", "TimeStamp", "Data Type"] ++ columns)
    (covers : ∀ output ∈ payload.outputsets, output.Covers columns names)
    (distinct : columns.Nodup ∧ names.Nodup)
    : SavesCsv payload stepSize compressionMethod
      ↔ (∀ output ∈ payload.outputsets, output.Writable stepSize)
        ∧ ∀ output ∈ payload.outputsets, ∀ name,
            Upright (output.columns name) output.rowCount := by
  have widths (deviceid : Text) (name : String)
      : ∀ table ∈ payload.tables deviceid name,
          table.1.length = if name ∈ names then columns.length else 0 := by
    intro table inside
    obtain ⟨output, member, rfl⟩ := List.mem_map.mp inside
    exact (covers output (List.mem_of_mem_filter member)).length_columns distinct.2
  have head (p : Nat) : (csvHeader v)[p + 3]? = columns[p]? := by rw [headed]; rfl
  constructor
  · rintro ⟨file, saved, -, right⟩
    obtain ⟨writable, rfl⟩ := (saveBodyCSV_eq_ok_iff chosen).mp saved
    refine ⟨writable, fun output member name => ?_⟩
    have table : (output.columns name, output.rowCount) ∈ payload.tables output.deviceid name :=
      List.mem_map_of_mem (List.mem_filter.mpr ⟨member, decide_eq_true rfl⟩)
    refine (positions_perm_iff (widths output.deviceid name)).mp (fun p below => ?_) _ table
    split_ifs at below with known
    · have at_ := List.getElem?_eq_getElem below
      have column := right p _ ((head p).trans at_) output.deviceid name
      rwa [column_csvLines, valuesAt_samples covers distinct at_] at column
    · cases below
  · rintro ⟨writable, upright⟩
    refine ⟨_, (saveBodyCSV_eq_ok_iff chosen).mpr ⟨writable, rfl⟩, ?_, ?_⟩
    · intro row member
      obtain ⟨output, inside, few⟩ := length_cells_of_mem_csvLines member
      rw [(covers output inside).length_columns distinct.2] at few
      simp only [headed]
      split_ifs at few <;> simp <;> omega
    · intro p compression at_ deviceid name
      replace at_ : columns[p]? = some compression := (head p).symm.trans at_
      rw [column_csvLines, valuesAt_samples covers distinct at_]
      have all : ∀ table ∈ payload.tables deviceid name, Upright table.1 table.2 := by
        intro table inside
        obtain ⟨output, member, rfl⟩ := List.mem_map.mp inside
        exact upright output (List.mem_of_mem_filter member) name
      by_cases known : name ∈ names
      · refine (positions_perm_iff (widths deviceid name)).mpr all p ?_
        rw [if_pos known]
        exact (List.getElem?_eq_some_iff.mp at_).1
      · refine List.Perm.flatMap_left _ fun table inside => ?_
        have empty : table.1 = [] := by
          simpa [known] using widths deviceid name table inside
        simp [empty, position, descending_eq]

end Csv

end Sparcs.CassSpeed
