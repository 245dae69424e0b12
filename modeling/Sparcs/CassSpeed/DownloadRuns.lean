import Sparcs.CassSpeed.DownloadLoop
import Sparcs.CassSpeed.Interleaving

/-! When a download ends. The next start is the end time that the server has sent, which nothing
compares with the start before it.
-/

namespace Sparcs.CassSpeed

open FuelLoop

namespace Client

variable {client : Client}

/-- The answers depend on the requests alone, not on when they are sent. -/
structure Steady (client : Client) : Prop where
  server : ∀ loopvar sent, client.server loopvar sent = client.server 0 sent
  memory : ∀ loopvar, client.memory loopvar = client.memory 0

/-- What a turn does with the start time depends on the start time alone. -/
theorem Steady.follows (steady : client.Steady)
    : Follows client.turn Download.timestampstartLoop := by
  intro s s' next same goes
  obtain ⟨chunk, stepsize, obtains, step, goesOn, rfl⟩ := obtains_of_again goes
  obtain ⟨sent, answers, reads⟩ := obtains.received
  have obtains'
      : client.Obtains s' { chunk with filename := client.filenameLoop s'.chunks.length } := by
    refine ⟨⟨sent, ?_, ?_⟩, obtains.printed, obtains.saved, ?_, ?_, rfl⟩
    · rw [steady.server, ← same, ← steady.server, answers]
    · rw [steady.memory, ← steady.memory s.chunks.length, reads]
    · rw [← same, obtains.timestampstart]
    · rw [← same, obtains.timestampend]
  exact ⟨_, obtains'.turn_eq.trans (goOn_eq_again step goesOn), rfl⟩

end Client

/-- From a server that answers the same request always the same, whatever it sends, a download ends
just when no two of its requests begin at the same time.
-/
theorem download_halts_iff (client : Client) (steady : client.Steady)
    : Halts client.turn client.begin
      ↔ ∀ i j a b, after client.turn i client.begin = some a →
          after client.turn j client.begin = some b →
          a.timestampstartLoop = b.timestampstartLoop → i = j := by
  have : Finite Int64 :=
    Finite.of_injective Int64.toBitVec fun _ _ same => Int64.toBitVec_inj.mp same
  exact halts_iff_distinct steady.follows client.begin

/-- One sample of each second is asked for, of two seconds. -/
def perSecondArguments : Arguments where
  timestampstart := "1480355400000".toList
  timestampend := "1480355402000".toList
  deviceids := "P3001199".toList
  requested := "1;0;0;0;0;0;0;0;0;0;0;0".toList
  compressionMethod := "8".toList
  stepsize := "120".toList
  calcDeltaT := "0".toList
  ended := by decide

def perSecond : Prepared where
  nodeviceids := "1".toList
  deviceids := "P3001199".toList
  nosamplesets := "1".toList
  requested := "1;0;0;0;0;0;0;0;0;0;0;0".toList
  compressionMethod := "8".toList
  stepsize := "120".toList
  deltaT := 8388608000
  timestampstartGlobal := 1480355400000
  timestampendGlobal := 1480355402000

/-- The archive holds the first second only. -/
def perSecondClient : Client where
  prepared := perSecond
  saving :=
    { quiet := false, filename := "example".toList, format := "csv".toList, stepSize := 120 }
  server := fun _ sent =>
    serve (fun _ => some [zeroSecond])
      { beyond := [], connects := true, timestampcass := 0, numsamples := 0, memory := fun _ => 0 }
      sent
  memory := fun _ =>
    { buffer := fun _ => 0, size := 0, body := fun _ => 0,
      unparsed := CassspeedMessage.format.blank }

/-- No sample is skipped to, so the response ends where it starts and the client asks again. -/
theorem download_repeats
    : prepare perSecondArguments = .ok perSecond
      ∧ ¬Halts perSecondClient.turn perSecondClient.begin := by
  refine ⟨by decide +kernel, ?_⟩
  have again
      : (after perSecondClient.turn 1 perSecondClient.begin).map Download.timestampstartLoop
        = some 1480355400000 := by
    decide +kernel
  obtain ⟨later, reached, start⟩ := Option.map_eq_some_iff.mp again
  intro halts
  have same := (download_halts_iff perSecondClient ⟨fun _ _ => rfl, fun _ => rfl⟩).mp halts 0 1
    perSecondClient.begin later rfl reached start.symm
  exact absurd same (by decide)

-----------------------------------------------------------------------------------------
-- What a download leaves
-----------------------------------------------------------------------------------------

namespace Client

/-- The loop goes on after a response that ends here. -/
def GoesOn (client : Client) (timestampend : Int64) : Prop :=
  ∃ stepsize, stoi client.prepared.stepsize = .ok stepsize
    ∧ client.finished stepsize timestampend = false

/-- The start of the request behind some chunks. -/
def nextStart (client : Client) (chunks : List Chunk) : Int64 :=
  (chunks.getLast?.map Chunk.next).getD client.prepared.timestampstartGlobal

/-- Each chunk begins where the one before it has ended, and its file is that of its number. -/
structure Chained (client : Client) (chunks : List Chunk) : Prop where
  starts
    : ∀ before chunk after, chunks = before ++ chunk :: after →
        chunk.timestampstart = client.nextStart before
        ∧ chunk.timestampend = client.timestampendLoop chunk.timestampstart
        ∧ chunk.filename = client.filenameLoop before.length
        ∧ client.saving.save client.prepared.compressionMethod chunk.payload = .ok chunk.file
  goesOn
    : ∀ before chunk later after, chunks = before ++ chunk :: later :: after →
        client.GoesOn chunk.next

variable {client : Client} {chunks : List Chunk} {chunk : Chunk}

theorem chained_nil (client : Client) : client.Chained [] := by
  refine ⟨fun before chunk after same => ?_, fun before chunk later after same => ?_⟩
  · simp at same
  · simp at same

/-- A turn adds a chunk that begins where the last one has ended. -/
theorem Chained.append {s : Download} (chained : client.Chained s.chunks)
    (goesOn : ∀ last ∈ s.chunks.getLast?, client.GoesOn last.next)
    (start : s.timestampstartLoop = client.nextStart s.chunks)
    (obtains : client.Obtains s chunk)
    : client.Chained (s.chunks ++ [chunk]) := by
  refine ⟨fun before other after split => ?_, fun before other later after split => ?_⟩
  · rcases List.eq_nil_or_concat after with rfl | ⟨after, last, rfl⟩
    · obtain ⟨rfl, same⟩ := List.append_inj' split rfl
      obtain rfl := List.singleton_injective same
      refine ⟨?_, ?_, obtains.filename, obtains.saved⟩
      · rw [obtains.timestampstart, start]
      · rw [obtains.timestampend, obtains.timestampstart]
    · rw [List.concat_eq_append, ← List.cons_append, ← List.append_assoc] at split
      exact chained.starts before other after (List.append_inj' split rfl).1
  · rcases List.eq_nil_or_concat after with rfl | ⟨after, last, rfl⟩
    · rw [List.append_cons before other [later]] at split
      have same := (List.append_inj' split rfl).1
      refine goesOn other ?_
      rw [same, List.getLast?_append_cons]
      rfl
    · rw [List.concat_eq_append, ← List.cons_append, ← List.cons_append,
        ← List.append_assoc] at split
      exact chained.goesOn before other later after (List.append_inj' split rfl).1

/-- What is known when a turn begins. -/
structure Begins (client : Client) (s : Download) : Prop where
  chained : client.Chained s.chunks
  goesOn : ∀ last ∈ s.chunks.getLast?, client.GoesOn last.next
  start : s.timestampstartLoop = client.nextStart s.chunks

/-- The end of the interval has been reached. -/
def Reaches (client : Client) (chunks : List Chunk) : Prop :=
  ∃ last ∈ chunks.getLast?, ∃ stepsize, stoi client.prepared.stepsize = .ok stepsize
    ∧ client.finished stepsize last.next = true

/-- What is known when the client is done. -/
structure Leaves (client : Client) (result : Ending × List Chunk) : Prop where
  chained : client.Chained result.2
  reaches
    : result.1 = .exits (.code 0) →
        client.Reaches result.2
        ∨ client.server result.2.length (client.request (client.nextStart result.2)) = .fails

theorem goOn_spec {s : Download} (begins : client.Begins s) (obtains : client.Obtains s chunk)
    : (client.goOn s.chunks chunk).Spec client.Begins client.Leaves := by
  have chained := begins.chained.append begins.goesOn begins.start obtains
  have last : (s.chunks ++ [chunk]).getLast? = some chunk := List.getLast?_concat
  rw [goOn]
  cases step : stoi client.prepared.stepsize with
  | error fault => exact ⟨chained, by simp⟩
  | ok stepsize =>
      dsimp only
      split_ifs with done
      · exact ⟨chained, fun _ => .inl ⟨chunk, last, stepsize, step, done⟩⟩
      · refine ⟨chained, fun other member => ?_, ?_⟩
        · rw [last, Option.mem_some_iff] at member
          exact ⟨stepsize, step, by rw [← member]; simpa using done⟩
        · rw [nextStart, last]
          rfl

theorem turn_spec {s : Download} (begins : client.Begins s)
    : (client.turn s).Spec client.Begins client.Leaves := by
  rcases turn_cases client s with ⟨chunk, obtains, result⟩ | ⟨ending, result, fails⟩
  · rw [result]
    exact goOn_spec begins obtains
  · rw [result]
    refine ⟨begins.chained, fun success => .inr ?_⟩
    rw [← begins.start]
    exact fails success

end Client

/-- Whatever the connections answer, the chunks that a download leaves are chained: the first begins
at the start of the interval and each other one where the response before it has ended, each asks
for at most a chunk and not behind the end, and the files are numbered in order. A success without
a connection that fails has reached the end.
-/
theorem download_leaves (client : Client) {fuel : Nat} {ending : Ending} {chunks : List Chunk}
    (finished : run client.turn fuel client.begin = some (ending, chunks))
    : client.Chained chunks
      ∧ (ending = .exits (.code 0) →
          client.Reaches chunks
          ∨ client.server chunks.length (client.request (client.nextStart chunks)) = .fails) := by
  have first : client.Begins client.begin := ⟨client.chained_nil, by simp [Client.begin], rfl⟩
  obtain ⟨chained, reaches⟩ := run_spec (fun _ => Client.turn_spec) first finished
  exact ⟨chained, reaches⟩

/-- All samples of one second are asked for. -/
def rawSecondArguments : Arguments where
  timestampstart := "1480355400000".toList
  timestampend := "1480355401000".toList
  deviceids := "P3001199".toList
  requested := "1;0;0;0;0;0;0;0;0;0;0;0".toList
  compressionMethod := "16".toList
  stepsize := "1".toList
  calcDeltaT := "0".toList
  ended := by decide

def rawSecond : Prepared where
  nodeviceids := "1".toList
  deviceids := "P3001199".toList
  nosamplesets := "1".toList
  requested := "1;0;0;0;0;0;0;0;0;0;0;0".toList
  compressionMethod := "16".toList
  stepsize := "1".toList
  deltaT := 69905000
  timestampstartGlobal := 1480355400000
  timestampendGlobal := 1480355401000

/-- The archive holds this second. -/
def rawSecondClient : Client where
  prepared := rawSecond
  saving := { quiet := false, filename := "example".toList, format := "csv".toList, stepSize := 1 }
  server := fun _ sent =>
    serve (fun _ => some [zeroSecond])
      { beyond := [], connects := true, timestampcass := 0, numsamples := 0, memory := fun _ => 0 }
      sent
  memory := fun _ =>
    { buffer := fun _ => 0, size := 0, body := fun _ => 0,
      unparsed := CassspeedMessage.format.blank }

/-- One turn is enough. -/
theorem download_leaves_second
    : ∃ chunk, rawSecondClient.Chained [chunk]
      ∧ (rawSecondClient.Reaches [chunk]
        ∨ rawSecondClient.server 1 (rawSecondClient.request (rawSecondClient.nextStart [chunk]))
          = .fails) := by
  have ended
      : (run rawSecondClient.turn 1 rawSecondClient.begin).map
          (fun result => (result.1, result.2.length))
        = some (.exits (.code 0), 1) := by
    decide +kernel
  obtain ⟨⟨ending, chunks⟩, finished, same⟩ := Option.map_eq_some_iff.mp ended
  obtain ⟨rfl, single⟩ := Prod.mk.inj same
  obtain ⟨chunk, rfl⟩ := List.length_eq_one_iff.mp single
  obtain ⟨chained, reaches⟩ := download_leaves rawSecondClient finished
  exact ⟨chunk, chained, reaches rfl⟩

end Sparcs.CassSpeed
