import Sparcs.Library.RepeatedStates
import Sparcs.CassSpeed.Payloads
import Sparcs.CassSpeed.SavedBody

/-! The loop of the client over the chunks of an interval. Each turn asks for the interval from the
time where the last response ended, saves what is sent, and goes on unless the end of the whole
interval has been reached.
-/

namespace Sparcs.CassSpeed

open Blocks (alloc)
open FuelLoop

-----------------------------------------------------------------------------------------
-- What the server sends
-----------------------------------------------------------------------------------------

/-- What a handler writes into its socket; `none` if the size of the payload fits no `int`. Of a
code, six bytes are sent: the text, its zero byte and what stands in memory behind it.
-/
def Response.sent (memory : Nat → UInt8) : Response → Option (List UInt8)
  | .nothing => some []
  | .code wha => some (bytesOf wha.toList ++ 0 :: (List.range 3).map memory)
  | .payload sent =>
      (sendPacket memory (CassspeedMessage.format.serialize sent.message)).map content

/-- What comes of a connection. -/
inductive Answer where
  /-- It cannot be opened or used. -/
  | fails
  | waits
  | sends (bytes : List UInt8)
  deriving DecidableEq, Repr

/-- What a handler is started with, besides the archive and the request. -/
structure Surroundings where
  beyond : Text
  connects : Bool
  timestampcass : Int64
  numsamples : Int32
  memory : Nat → UInt8

/-- The answer of a handler that has nobody beside it. One with undefined behaviour is taken to
break the connection off.
-/
def serve (archive : Archive) (around : Surroundings) (sent : Text) : Answer :=
  let c : Connection :=
    { sent, beyond := around.beyond, connects := around.connects,
      timestampcass := around.timestampcass }
  match (socketHandler archive c).alone around.numsamples with
  | .ok response => (response.sent around.memory).elim .fails .sends
  | .error .runsOn => .waits
  | .error _ => .fails

-----------------------------------------------------------------------------------------
-- What the client reads
-----------------------------------------------------------------------------------------

/-- What a turn finds in the memory of its variables. -/
structure Memory where
  buffer : Nat → UInt8
  size : UInt32
  body : Nat → UInt8
  /-- What is left of a message that cannot be parsed. -/
  unparsed : CassspeedMessage

/-- `strcmp(buffer,wha)==0` -/
def isCode (buffer : List UInt8) (wha : String) : Bool :=
  (bytesOf wha.toList ++ [0]).isPrefixOf buffer

/-- The codes that the client knows, and what it returns for them. -/
def codes : List (String × Int) := [("-1", 101), ("-2", 102), ("-3", 103), ("-4", 104)]

/-- What the client returns for the code in its buffer. -/
def exitCode (buffer : List UInt8) : Option Int :=
  (codes.find? fun code => isCode buffer code.1).map Prod.snd

inductive Received where
  | code (n : Int)
  | payload (payload : Cassspeed)

/-- The buffer after the look at the first four bytes. -/
def peeked (memory : Memory) (sent : List UInt8) : List UInt8 :=
  content ((alloc 1024 memory.buffer).write 0 (sent.take 4))

/-- `payload_result` -/
def receiveBody (memory : Memory) (sent : List UInt8) : CassspeedMessage :=
  (readBody CassspeedMessage.format memory.body sent
    (readHdr memory.size (peeked memory sent))).getD memory.unparsed

/-- The client reads a body unless the first bytes are a code. -/
def receiveResponse (memory : Memory) (sent : List UInt8) : Received :=
  match exitCode (peeked memory sent) with
  | some n => .code n
  | none => .payload (receiveBody memory sent).payload

-----------------------------------------------------------------------------------------
-- What the client saves
-----------------------------------------------------------------------------------------

/-- The arguments that say how responses are printed and saved. -/
structure Saving where
  quiet : Bool
  filename : Text
  format : Text
  /-- What `strtof` makes of the step size. -/
  stepSize : Float32

inductive SavedFile where
  | console (json : AList fun _ : JsonPath => Float32)
  | csv (file : CsvFile)
  | json (json : AList fun _ : JsonPath => Float32)

/-- How the client is done. -/
inductive Ending where
  | exits (exit : Exit)
  /-- No response ever comes. -/
  | waits
  | undefined
  deriving DecidableEq, Repr

def Fault.ending : Fault → Ending
  | .undefined | .runsOn => .undefined
  | .invalidArgument | .exception => .exits .aborts

def Saving.save (saving : Saving) (compressionMethod : Text) (payload : Cassspeed)
    : Except Ending SavedFile :=
  if saving.format = "console".toList then
    ((saveBodyJson payload saving.stepSize).map .console).mapError Fault.ending
  else if saving.format = "csv".toList then
    ((saveBodyCSV payload saving.stepSize compressionMethod).map .csv).mapError Fault.ending
  else if saving.format = "json".toList then
    ((saveBodyJson payload saving.stepSize).map .json).mapError Fault.ending
  else
    .error (.exits (.code (-3)))

-----------------------------------------------------------------------------------------
-- The loop
-----------------------------------------------------------------------------------------

/-- What one turn has asked for and saved. -/
structure Chunk where
  timestampstart : Int64
  timestampend : Int64
  payload : Cassspeed
  filename : Text
  file : SavedFile

/-- The next start: `payload_result.timestampend()` -/
def Chunk.next (chunk : Chunk) : Int64 := (chunk.payload.timestampend.getD 0).toInt64

/-- What the turns change; `loopvar` is the number of the chunks. -/
structure Download where
  timestampstartLoop : Int64
  chunks : List Chunk

/-- The client beside its surroundings. -/
structure Client where
  prepared : Prepared
  saving : Saving
  /-- What the connection of each turn answers to the bytes that are sent. -/
  server : Nat → Text → Answer
  memory : Nat → Memory

namespace Client

variable (client : Client)

/-- `timestampend_loop` -/
def timestampendLoop (timestampstartLoop : Int64) : Int64 :=
  if client.prepared.timestampendGlobal < timestampstartLoop + client.prepared.deltaT then
    client.prepared.timestampendGlobal
  else
    timestampstartLoop + client.prepared.deltaT

/-- `filename+"_"+std::to_string(loopvar)` -/
def filenameLoop (loopvar : Nat) : Text :=
  client.saving.filename ++ '_' :: NumberText.toText loopvar

/-- The start time that the loop stops at; the sum and the product are `int`s. -/
def finished (stepsize : Int32) (timestampstartLoop : Int64) : Bool :=
  client.prepared.timestampendGlobal
    < timestampstartLoop + ((stepsize + 1) * 1000 / 120).toInt64

/-- The end of a turn that has saved its chunk. -/
def goOn (chunks : List Chunk) (chunk : Chunk) : Turn Download (Ending × List Chunk) :=
  match stoi client.prepared.stepsize with
  | .error _ => .leave (.exits .aborts, chunks ++ [chunk])
  | .ok stepsize =>
      if client.finished stepsize chunk.next then
        .leave (.exits (.code 0), chunks ++ [chunk])
      else
        .again { timestampstartLoop := chunk.next, chunks := chunks ++ [chunk] }

/-- What the turn from `s` has saved. -/
def chunkOf (s : Download) (payload : Cassspeed) (file : SavedFile) : Chunk where
  timestampstart := s.timestampstartLoop
  timestampend := client.timestampendLoop s.timestampstartLoop
  payload
  filename := client.filenameLoop s.chunks.length
  file

/-- The end of a turn that has received a payload, the first device of which is printed. -/
def keep (s : Download) (payload : Cassspeed) : Turn Download (Ending × List Chunk) :=
  if !client.saving.quiet && payload.outputsets.isEmpty then
    .leave (.undefined, s.chunks)
  else
    match client.saving.save client.prepared.compressionMethod payload with
    | .error ending => .leave (ending, s.chunks)
    | .ok file => client.goOn s.chunks (client.chunkOf s payload file)

/-- The bytes that a turn sends. -/
def request (timestampstartLoop : Int64) : Text :=
  client.prepared.datatotransmit timestampstartLoop (client.timestampendLoop timestampstartLoop)
    ++ [nul]

def turn (s : Download) : Turn Download (Ending × List Chunk) :=
  match client.server s.chunks.length (client.request s.timestampstartLoop) with
  | .fails => .leave (.exits (.code 0), s.chunks)
  | .waits => .leave (.waits, s.chunks)
  | .sends sent =>
      match receiveResponse (client.memory s.chunks.length) sent with
      | .code n => .leave (.exits (.code n), s.chunks)
      | .payload payload => client.keep s payload

def begin : Download :=
  { timestampstartLoop := client.prepared.timestampstartGlobal, chunks := [] }

-----------------------------------------------------------------------------------------
-- What a turn does
-----------------------------------------------------------------------------------------

/-- A turn asks for its chunk, receives and saves it. -/
structure Obtains (s : Download) (chunk : Chunk) : Prop where
  received
    : ∃ sent, client.server s.chunks.length (client.request s.timestampstartLoop) = .sends sent
      ∧ receiveResponse (client.memory s.chunks.length) sent = .payload chunk.payload
  printed : client.saving.quiet = true ∨ chunk.payload.outputsets ≠ []
  saved
    : client.saving.save client.prepared.compressionMethod chunk.payload = .ok chunk.file
  timestampstart : chunk.timestampstart = s.timestampstartLoop
  timestampend : chunk.timestampend = client.timestampendLoop s.timestampstartLoop
  filename : chunk.filename = client.filenameLoop s.chunks.length

variable {client : Client} {s next : Download} {chunk : Chunk}

theorem Obtains.turn_eq (obtains : client.Obtains s chunk)
    : client.turn s = client.goOn s.chunks chunk := by
  obtain ⟨timestampstart, timestampend, payload, filename, file⟩ := chunk
  obtain ⟨⟨sent, answers, reads⟩, printed, saved, rfl, rfl, rfl⟩ := obtains
  have prints : (!client.saving.quiet && payload.outputsets.isEmpty) = false := by
    rcases printed with quiet | nonempty
    · rw [quiet]
      rfl
    · rw [List.isEmpty_eq_false_iff.mpr nonempty, Bool.and_false]
  dsimp only at reads saved
  simp only [turn, answers, reads, keep, prints, saved, Bool.false_eq_true, if_false, chunkOf]

/-- No code is answered with success. -/
theorem exitCode_ne_zero {buffer : List UInt8} {n : Int} (known : exitCode buffer = some n)
    : n ≠ 0 := by
  obtain ⟨code, found, rfl⟩ := Option.map_eq_some_iff.mp known
  have nonzero : ∀ code ∈ codes, code.2 ≠ 0 := by decide
  exact nonzero code (List.mem_of_find?_eq_some found)

theorem receiveResponse_eq_code {memory : Memory} {sent : List UInt8} {n : Int}
    (received : receiveResponse memory sent = .code n)
    : exitCode (peeked memory sent) = some n := by
  unfold receiveResponse at received
  split at received
  · rename_i known
    rw [known, Received.code.inj received]
  · cases received

theorem mapError_ne_success {α β : Type} {result : Except Fault α} {f : α → β} {ending : Ending}
    (failed : (result.map f).mapError Fault.ending = .error ending)
    : ending ≠ .exits (.code 0) := by
  cases result with
  | error fault => cases failed; cases fault <;> simp [Fault.ending]
  | ok a => cases failed

theorem save_ne_success {saving : Saving} {compressionMethod : Text} {payload : Cassspeed}
    {ending : Ending} (failed : saving.save compressionMethod payload = .error ending)
    : ending ≠ .exits (.code 0) := by
  rw [Saving.save] at failed
  split_ifs at failed
  · exact mapError_ne_success failed
  · exact mapError_ne_success failed
  · exact mapError_ne_success failed
  · cases failed
    simp

/-- A turn obtains its chunk, or it ends the download with the chunks before it; that is a success
only if the connection fails.
-/
theorem turn_cases (client : Client) (s : Download)
    : (∃ chunk, client.Obtains s chunk ∧ client.turn s = client.goOn s.chunks chunk)
      ∨ ∃ ending, client.turn s = .leave (ending, s.chunks)
        ∧ (ending = .exits (.code 0) →
            client.server s.chunks.length (client.request s.timestampstartLoop) = .fails) := by
  cases answers : client.server s.chunks.length (client.request s.timestampstartLoop) with
  | fails => exact .inr ⟨.exits (.code 0), by rw [turn, answers], fun _ => rfl⟩
  | waits => exact .inr ⟨.waits, by rw [turn, answers], by simp⟩
  | sends sent =>
      cases reads : receiveResponse (client.memory s.chunks.length) sent with
      | code n =>
          refine .inr ⟨.exits (.code n), by rw [turn, answers]; simp only [reads], fun same => ?_⟩
          exact absurd (by simpa using same) (exitCode_ne_zero (receiveResponse_eq_code reads))
      | payload payload =>
          by_cases prints : (!client.saving.quiet && payload.outputsets.isEmpty) = true
          · refine .inr ⟨.undefined, ?_, by simp⟩
            rw [turn, answers]
            simp only [reads, keep, prints, if_true]
          · have shown : client.saving.quiet = true ∨ payload.outputsets ≠ [] := by
              simpa [Bool.and_eq_true, imp_iff_not_or] using prints
            cases saves : client.saving.save client.prepared.compressionMethod payload with
            | error ending =>
                refine .inr ⟨ending, ?_, fun same => absurd same (save_ne_success saves)⟩
                rw [turn, answers]
                simp only [reads, keep, prints, saves, Bool.false_eq_true, if_false]
            | ok file =>
                have obtains : client.Obtains s (client.chunkOf s payload file) :=
                  ⟨⟨sent, answers, reads⟩, shown, saves, rfl, rfl, rfl⟩
                exact .inl ⟨_, obtains, obtains.turn_eq⟩

theorem goOn_eq_again {chunks : List Chunk} {stepsize : Int32}
    (step : stoi client.prepared.stepsize = .ok stepsize)
    (goesOn : client.finished stepsize chunk.next = false)
    : client.goOn chunks chunk
      = .again { timestampstartLoop := chunk.next, chunks := chunks ++ [chunk] } := by
  rw [goOn, step]
  simp only [goesOn, Bool.false_eq_true, if_false]

theorem goOn_eq_leave {chunks : List Chunk} {stepsize : Int32}
    (step : stoi client.prepared.stepsize = .ok stepsize)
    (done : client.finished stepsize chunk.next = true)
    : client.goOn chunks chunk = .leave (.exits (.code 0), chunks ++ [chunk]) := by
  rw [goOn, step]
  simp only [done, if_true]

/-- Only with a chunk does a turn go on. -/
theorem obtains_of_again (goes : client.turn s = .again next)
    : ∃ chunk stepsize, client.Obtains s chunk
      ∧ stoi client.prepared.stepsize = .ok stepsize
      ∧ client.finished stepsize chunk.next = false
      ∧ next = { timestampstartLoop := chunk.next, chunks := s.chunks ++ [chunk] } := by
  rcases turn_cases client s with ⟨chunk, obtains, result⟩ | ⟨ending, result, -⟩
  · rw [goes] at result
    cases step : stoi client.prepared.stepsize with
    | error fault => simp [goOn, step] at result
    | ok stepsize =>
        cases done : client.finished stepsize chunk.next with
        | true => rw [goOn_eq_leave step done] at result; cases result
        | false =>
            rw [goOn_eq_again step done] at result
            exact ⟨chunk, stepsize, obtains, rfl, done, Turn.again.inj result⟩
  · rw [goes] at result
    cases result

end Client

end Sparcs.CassSpeed
