import Sparcs.Library.KeyedWrites
import Sparcs.Library.RaggedRows
import Sparcs.CassSpeed.SocketHandler

/-! `saveBodyCSV` and `saveBodyJson`: the rows of a file from the samples of a response. The
number of rows of a device is that of its first sample set.
-/

namespace Sparcs.CassSpeed

open KeyedWrites

-----------------------------------------------------------------------------------------
-- The rows of a device
-----------------------------------------------------------------------------------------

/-- `(uint64) time_step`, which is undefined for what no `uint64` is. -/
def rowStep (stepSize : Float32) : Except Fault UInt64 :=
  let timeStep := stepSize / 120 * 1000
  if -1 < timeStep ∧ timeStep < 18446744073709551616 then
    .ok timeStep.toModel.toUInt64
  else
    .error .undefined

/-- The loop over `j`, from the last row on; each row adds the step to the time. -/
def rowLoop {β : Type} (body : Nat → UInt64 → List β) (step : UInt64)
    : (samplesLen : Nat) → (timestampStart : UInt64) → List β
  | 0, _ => []
  | j + 1, timestampStart =>
      body j timestampStart ++ rowLoop body step j (timestampStart + step)

namespace OutputSet

/-- `sampleset(0).sample_size()`; there must be a first set. -/
def samplesLen (output : OutputSet) : Except Fault Nat :=
  match output.sampleset with
  | [] => .error .undefined
  | first :: _ => .ok first.sample.length

/-- What is written for a device. The step is only needed where there is a row. -/
def rows {β : Type} (output : OutputSet) (stepSize : Float32) (timestampStart : UInt64)
    (body : OutputSet → Nat → UInt64 → List β)
    : Except Fault (List β) := do
  match ← output.samplesLen with
  | 0 => return []
  | n + 1 => return rowLoop (body output) (← rowStep stepSize) (n + 1) timestampStart

end OutputSet

-----------------------------------------------------------------------------------------
-- CSV
-----------------------------------------------------------------------------------------

/-- A line; a cell is the sample that `to_string` shows. -/
structure CsvRow where
  deviceid : Text
  timestamp : UInt64
  name : String
  cells : List Float32

structure CsvFile where
  header : List String
  rows : List CsvRow

/-- The samples that are appended to `data_keys` in row `j`. -/
def OutputSet.keyed (output : OutputSet) (j : Nat) : List (String × Float32) :=
  output.sampleset.filterMap fun set => set.sample[j]?.map (set.name, ·)

/-- The lines of row `j`, one for each key. -/
def OutputSet.csvRows (output : OutputSet) (j : Nat) (timestamp : UInt64) : List CsvRow :=
  (collect (output.keyed j)).toList.map fun entry =>
    { deviceid := output.deviceid, timestamp, name := entry.1, cells := entry.2 }

/-- The first line, with the compressions whose bits are set. -/
def csvHeader (compressionMethod : Int32) : List String :=
  ["Device ID", "TimeStamp", "Data Type"]
    ++ (Compression.all.filter fun compression =>
        testBit compressionMethod compression.bit).map Compression.label

def saveBodyCSV (payload : Cassspeed) (stepSize : Float32) (compressionMethod : Text)
    : Except Fault CsvFile := do
  let header := csvHeader (← stoi compressionMethod)
  let rows ← payload.outputsets.mapM fun output =>
    output.rows stepSize (payload.timestampstart.getD 0) OutputSet.csvRows
  return { header, rows := rows.flatten }

-----------------------------------------------------------------------------------------
-- JSON
-----------------------------------------------------------------------------------------

/-- The keys under which a value stands in `message_json`, one object inside the other. Times
that differ have keys that differ.
-/
structure JsonPath where
  deviceid : Text
  timestamp : UInt64
  name : String
  compression : String
  deriving DecidableEq

/-- The assignments in row `j`. -/
def OutputSet.jsonWrites (output : OutputSet) (j : Nat) (timestamp : UInt64)
    : List (JsonPath × Float32) :=
  output.sampleset.filterMap fun set =>
    set.sample[j]?.map (⟨output.deviceid, timestamp, set.name, set.compression⟩, ·)

def saveBodyJson (payload : Cassspeed) (stepSize : Float32)
    : Except Fault (AList fun _ : JsonPath => Float32) := do
  let writes ← payload.outputsets.mapM fun output =>
    output.rows stepSize (payload.timestampstart.getD 0) OutputSet.jsonWrites
  return writeAll writes.flatten

-----------------------------------------------------------------------------------------
-- What the files are for
-----------------------------------------------------------------------------------------

/-- What a sample is of. -/
structure SampleLabel where
  deviceid : Text
  name : String
  compression : String
  deriving DecidableEq

def SampleSet.label (set : SampleSet) (deviceid : Text) : SampleLabel :=
  ⟨deviceid, set.name, set.compression⟩

def JsonPath.label (path : JsonPath) : SampleLabel :=
  ⟨path.deviceid, path.name, path.compression⟩

/-- The samples of each set, with its label. -/
def OutputSet.labelled (output : OutputSet) : List (List (SampleLabel × Float32)) :=
  output.sampleset.map fun set => set.sample.map (set.label output.deviceid, ·)

/-- The samples of all sets. -/
def Cassspeed.samples (payload : Cassspeed) : List (SampleLabel × Float32) :=
  payload.outputsets.flatMap fun output => output.labelled.flatMap id

/-- The cells of a device and a channel at one position behind the first three columns. -/
def CsvFile.column (file : CsvFile) (deviceid : Text) (name : String) (p : Nat) : List Float32 :=
  file.rows.filterMap fun row =>
    if row.deviceid = deviceid ∧ row.name = name then row.cells[p]? else none

/-- Each sample stands in the file once, in the column that its compression heads. -/
def SavesCsv (payload : Cassspeed) (stepSize : Float32) (compressionMethod : Text) : Prop :=
  ∃ file, saveBodyCSV payload stepSize compressionMethod = .ok file
    ∧ (∀ row ∈ file.rows, row.cells.length + 3 ≤ file.header.length)
    ∧ ∀ p compression, file.header[p + 3]? = some compression →
        ∀ deviceid name,
          (file.column deviceid name p).Perm
            (valuesAt payload.samples ⟨deviceid, name, compression⟩)

/-- Each sample stands in the file once, under its device, channel and compression. -/
def SavesJson (payload : Cassspeed) (stepSize : Float32) : Prop :=
  ∃ json, saveBodyJson payload stepSize = .ok json
    ∧ ∀ label,
        (valuesAt ((pairs json).map fun entry => (entry.1.label, entry.2)) label).Perm
          (valuesAt payload.samples label)

-----------------------------------------------------------------------------------------
-- When they are right
-----------------------------------------------------------------------------------------

/-- The number of rows. -/
def OutputSet.rowCount (output : OutputSet) : Nat :=
  (output.sampleset.head?.map (·.sample.length)).getD 0

/-- The samples of a channel, compression by compression. -/
def OutputSet.columns (output : OutputSet) (name : String) : List Samples :=
  (output.sampleset.filter (·.name = name)).map (·.sample)

/-- The times of rows. -/
def rowTimes (step timestampStart : UInt64) (rows : Nat) : List UInt64 :=
  (List.range rows).map fun k => timestampStart + UInt64.ofNat k * step

/-- Nothing is lost or misplaced: each device has a first set, the sets of a channel do not get
longer along the compressions and none is longer than the first set, and the rows can be told
apart by device and time.
-/
structure Cassspeed.Savable (payload : Cassspeed) (stepSize : Float32) : Prop where
  sets : ∀ output ∈ payload.outputsets, output.sampleset ≠ []
  upright
    : ∀ output ∈ payload.outputsets, ∀ name,
        RaggedRows.Upright (output.columns name) output.rowCount
  times
    : ∀ output ∈ payload.outputsets, 0 < output.rowCount →
        ∃ step, rowStep stepSize = .ok step
          ∧ (rowTimes step (payload.timestampstart.getD 0) output.rowCount).Nodup
  devices
    : payload.outputsets.Pairwise fun output later =>
        output.deviceid = later.deviceid → output.rowCount = 0 ∨ later.rowCount = 0

end Sparcs.CassSpeed
