import Sparcs.Library.SharedCell
import Sparcs.CassSpeed.Client
import Sparcs.CassSpeed.Compressors
import Sparcs.Query.DayList

/-! The handler of a request: the rows of each device, the samples at their front that are
dropped, the sample sets, and the times of the payload. All handlers share the variable
`numsamples`.
-/

namespace Sparcs.CassSpeed

open SharedCell

/-- The quantities of a sample, in the order of the data codes. -/
inductive Channel where
  | l1mag | l2mag | l3mag | l1ang | l2ang | l3ang
  | c1mag | c2mag | c3mag | c1ang | c2ang | c3ang
  deriving DecidableEq, Repr

namespace Channel

def all : List Channel :=
  [.l1mag, .l2mag, .l3mag, .l1ang, .l2ang, .l3ang, .c1mag, .c2mag, .c3mag, .c1ang, .c2ang, .c3ang]

/-- The argument of `set_name`. -/
def name : Channel → String
  | .l1mag => "L1mag"
  | .l2mag => "L2mag"
  | .l3mag => "L3mag"
  | .l1ang => "L1ang"
  | .l2ang => "L2ang"
  | .l3ang => "L3ang"
  | .c1mag => "C1mag"
  | .c2mag => "C2mag"
  | .c3mag => "C3mag"
  | .c1ang => "C1ang"
  | .c2ang => "C2ang"
  | .c3ang => "C3ang"

end Channel

/-- A sample of an archived second. -/
abbrev UpmuSample := Channel → Float32

structure UpmuData where
  numsamples : UInt32
  sample : List UpmuSample

/-- The columns of an archived row that the handler reads. -/
structure CassRow where
  timestampMsec : Int64
  data : UpmuData

/-- The rows that a query finds in the archive; `none` when it fails. -/
abbrev Archive := String → Option (List CassRow)

structure SampleSet where
  name : String
  compression : String
  sample : Samples

structure OutputSet where
  deviceid : Text
  sampleset : List SampleSet

structure Cassspeed where
  timestampstart : Option UInt64
  timestampend : Option UInt64
  numsamples : Option UInt32
  numdevices : Option Int32
  outputsets : List OutputSet

inductive Response where
  /-- The client has closed its side. -/
  | nothing
  | code (wha : String)
  | payload (payload : Cassspeed)

/-- Functions of a handler, which may throw; the cell is `numsamples`. -/
abbrev Handling := ExceptT Fault (Program Int32)

def readNumsamples : Handling Int32 := ExceptT.lift (.read .done)

def writeNumsamples (v : Int32) : Handling Unit := ExceptT.lift (.write v (.done ()))

/-- `firstsample` and `timestampcass` -/
structure Oldest where
  firstsample : Bool
  timestampcass : Int64

def Oldest.see (oldest : Oldest) (timestampcassnow : Int64) : Oldest :=
  if oldest.firstsample then
    { firstsample := false, timestampcass := timestampcassnow }
  else if timestampcassnow < oldest.timestampcass then
    { oldest with timestampcass := timestampcassnow }
  else
    oldest

/-- The loop over `unpack.sample(i)`. -/
def UpmuData.samples (unpack : UpmuData) : Except Fault (List UpmuSample) :=
  if unpack.numsamples.toNat ≤ unpack.sample.length then
    .ok (unpack.sample.take unpack.numsamples.toNat)
  else
    .error .undefined

/-- One turn of the loop over the rows. The twelve vectors grow together. -/
def readRow (s : Oldest × List UpmuSample) (row : CassRow)
    : Except Fault (Oldest × List UpmuSample) :=
  row.data.samples.map fun samples => (s.1.see row.timestampMsec, s.2 ++ samples)

def readRows (oldest : Oldest) (rows : List CassRow)
    : Except Fault (Oldest × List UpmuSample) :=
  rows.foldlM readRow (oldest, [])

/-- `(tmp%1000)/8.33333333` -/
def samplesToSkip (tmp : UInt64) : Int32 :=
  ((tmp % 1000).toFloat / 8.33333333).toModel.toInt32

/-- `erase(begin(),begin()+samples_to_skip)` of each of the twelve vectors. -/
def eraseFront (samples : List UpmuSample) (skip : Int32) : Except Fault (List UpmuSample) :=
  if skip.toInt.toNat ≤ samples.length then
    .ok (samples.drop skip.toInt.toNat)
  else
    .error .undefined

/-- `timestampcass+samples_to_skip*8.33333` -/
def skipTime (timestampcass : Int64) (skip : Int32) : Int64 :=
  let samples := Float.ofModel (Float.Model.ofInt32 skip)
  (Float.ofModel (Float.Model.ofInt64 timestampcass) + samples * 8.33333).toModel.toInt64

/-- A compressor with its last statement. -/
def compress (compression : Compression) (input : Samples) (stepsize : Int32)
    : Handling Samples := do
  let output ← ofExcept (compression.compressor input stepsize.toUInt32)
  writeNumsamples (Int32.ofNat output.length)
  return output

def addSampleset (samples : List UpmuSample) (stepsize : Int32)
    (set : Compression × Channel)
    : Handling SampleSet := do
  let output ← compress set.1 (samples.map (· set.2)) stepsize
  return { name := set.2.name, compression := set.1.label, sample := output }

namespace Request

/-- The compressions whose bits are set. -/
def compressions (r : Request) : List Compression :=
  Compression.all.filter fun compression => testBit r.compressionMethod compression.bit

/-- The channels whose flags are set. -/
def channels (r : Request) : List Channel :=
  (Channel.all.zip r.requested).filterMap fun flag => if flag.2 then some flag.1 else none

/-- The sample sets of a device in their order. -/
def sets (r : Request) : List (Compression × Channel) :=
  r.compressions.flatMap fun compression => r.channels.map (compression, ·)

def query (r : Request) : Query.ServerQuery :=
  Query.serverQuery (readUInt64 r.timestampstart) (readUInt64 r.timestampend)

def querystr (r : Request) (device : Text) : String :=
  r.query.querystr (String.ofList r.timestampend) (String.ofList device)

def skip (r : Request) : Int32 := samplesToSkip (readUInt64 r.timestampstart)

end Request

/-- What the loop over the devices changes. -/
structure Progress where
  oldest : Oldest
  payload : Cassspeed
  errorcode : String

/-- `timestampcass+(numsamples*1000*stepsize/120)`, where an `int` wraps around. -/
def endTime (timestampcass : Int64) (numsamples stepsize : Int32) : Int64 :=
  timestampcass + (numsamples * 1000 * stepsize / 120).toInt64

/-- One turn of the loop over the devices, for a query that has succeeded. -/
def handleRows (r : Request) (s : Progress) (device : Text) (rows : List CassRow)
    : Handling Progress := do
  let (oldest, samples) ← ofExcept (readRows s.oldest rows)
  let samples ← ofExcept (eraseFront samples r.skip)
  let timestampcass := skipTime oldest.timestampcass r.skip
  let sampleset ← r.sets.mapM (addSampleset samples r.stepsize)
  let covered ← readNumsamples
  let numsamples ← readNumsamples
  return {
    oldest := { oldest with timestampcass }
    payload := {
      timestampstart := some timestampcass.toUInt64
      timestampend := some (endTime timestampcass covered r.stepsize).toUInt64
      numsamples := some numsamples.toUInt32
      numdevices := some (Int32.ofNat r.devices.length)
      outputsets := s.payload.outputsets ++ [{ deviceid := device, sampleset }]
    }
    errorcode := s.errorcode
  }

/-- One turn of the loop over the devices. -/
def handleDevice (archive : Archive) (r : Request) (s : Progress) (device : Text)
    : Handling Progress :=
  match archive (r.querystr device) with
  | none => return { s with errorcode := "-4" }
  | some rows => handleRows r s device rows

/-- What a handler is started with, besides the archive. -/
structure Connection where
  /-- The bytes that `recv` finds. -/
  sent : Text
  /-- The memory behind the buffer. -/
  beyond : Text
  /-- The session with the database can be opened. -/
  connects : Bool
  /-- What the variable without an initial value holds. -/
  timestampcass : Int64

def noPayload : Cassspeed :=
  { timestampstart := none, timestampend := none, numsamples := none, numdevices := none,
    outputsets := [] }

/-- The loop over the devices, the first of which is printed before. -/
def handleDevices (archive : Archive) (timestampcass : Int64) (r : Request)
    : Handling Progress :=
  if r.devices = [] then
    throw .undefined
  else
    r.devices.foldlM (handleDevice archive r)
      { oldest := { firstsample := true, timestampcass }, payload := noPayload, errorcode := "" }

/-- What is sent after the loop: an error if all queries have failed. -/
def Progress.response (s : Progress) : Response :=
  if s.errorcode = "-4" ∧ s.payload.numsamples = none then .code "-4" else .payload s.payload

/-- The block of the handler in which exceptions are caught. -/
def handle (archive : Archive) (c : Connection) : Handling Response :=
  if c.connects then do
    let r ← ofExcept (parseRequest (receive c.sent c.beyond))
    let s ← handleDevices archive c.timestampcass r
    return s.response
  else
    return .code "-3"

/-- The `catch` blocks; the faults that are no exceptions stay. -/
def caught : Except Fault Response → Except Fault Response
  | .error .invalidArgument => .ok (.code "-1")
  | .error .exception => .ok (.code "-2")
  | .error .undefined => .error .undefined
  | .error .runsOn => .error .runsOn
  | .ok response => .ok response

def socketHandler (archive : Archive) (c : Connection)
    : Program Int32 (Except Fault Response) :=
  if c.sent = [] then
    pure (.ok .nothing)
  else
    caught <$> (handle archive c).run

end Sparcs.CassSpeed
