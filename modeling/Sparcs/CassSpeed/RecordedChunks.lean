import Sparcs.CassSpeed.ChunkAnswers
import Sparcs.CassSpeed.ReceivedResponses
import Sparcs.CassSpeed.RequestFormat
import Sparcs.CassSpeed.SavedPlaces

/-! One turn of a download from an archive without gaps: the request is read as it is meant, the
response is received as it is sent, and the chunk holds the recorded samples.
-/

namespace Sparcs.CassSpeed

open NumberText
open SignedArithmetic
open Spans

-----------------------------------------------------------------------------------------
-- What is downloaded
-----------------------------------------------------------------------------------------

/-- What the texts of a client mean. The times are in milliseconds. -/
structure Plan where
  devices : List Text
  requested : List Bool
  compressionMethod : Int32
  /-- The samples of a step. -/
  size : Nat
  /-- The seconds of a chunk. -/
  seconds : Nat
  start : Nat
  stop : Nat

structure Prepared.Means (p : Prepared) (plan : Plan) : Prop where
  checked : p.Checked
  devices : split p.deviceids sep = plan.devices
  requested : (split p.requested sep).map (atoi · != 0) = plan.requested
  compressionMethod : stoi p.compressionMethod = .ok plan.compressionMethod
  stepsize : ∃ stepsize : Int32, stoi p.stepsize = .ok stepsize ∧ stepsize.toInt = plan.size
  deltaT : p.deltaT.toInt = 1000 * plan.seconds
  timestampstart : p.timestampstartGlobal.toInt = plan.start
  timestampend : p.timestampendGlobal.toInt = plan.stop

namespace Plan

variable (plan : Plan)

/-- A request that means the same, for some times. -/
def request (nosamplesets : Int32) (timestampstart timestampend : Text) : Request where
  devices := plan.devices
  nosamplesets
  timestampstart
  timestampend
  requested := plan.requested
  compressionMethod := plan.compressionMethod
  stepsize := Int32.ofNat plan.size

def sets : List (Compression × Channel) := (plan.request 0 [] []).sets

/-- No chunk has more samples than this. -/
def most : Nat :=
  Min.min (120 * (plan.seconds + 1)) (sampleLimit plan.stop - 120 * (plan.start / 1000))

/-- No response takes more bytes than this. -/
def room : Nat :=
  80 + (plan.devices.map fun device =>
    40 + device.length + plan.sets.length * (89 + 4 * (plan.most / plan.size))).sum

/-- The interval is recorded and holds a step, a chunk holds a step, and the responses are not too
large. Nothing is skipped.
-/
structure Sound (first last : Nat) : Prop where
  sets : plan.sets ≠ []
  skip : .skip ∉ (plan.request 0 [] []).compressions
  positive : 0 < plan.size
  recorded : 0 < first ∧ 1000 * first ≤ plan.start ∧ plan.stop ≤ 1000 * last ∧ last ≤ 4294967296
  ordered : plan.start < plan.stop
  seconds : plan.seconds ≤ 33554432
  step : plan.size ≤ 120 * plan.seconds
  whole : sampleIndex plan.start + plan.size ≤ sampleLimit plan.stop
  few : plan.most ≤ 2147482
  small : plan.room < 2 ^ 28

end Plan

/-- Responses are saved in a format that is known, with a step that is a number. -/
structure Saving.Works (saving : Saving) : Prop where
  format : saving.format ∈ ["console".toList, "csv".toList, "json".toList]
  step : ∃ step, rowStep saving.stepSize = .ok step

/-- The client asks handlers that have nobody beside them, and each request fits the format. -/
structure Client.Asks (client : Client) (archive : Archive) (recording : Recording)
    (first last : Nat) (plan : Plan)
    : Prop where
  means : client.prepared.Means plan
  server
    : ∀ loopvar sent, ∃ around : Surroundings, around.connects = true
        ∧ client.server loopvar sent = serve archive around sent
  records : archive.Records recording first last plan.devices
  deviceids : ∀ device ∈ plan.devices, AreBytes device
  /-- No request is longer than one for the end would be. -/
  readable
    : client.prepared.Readable client.prepared.timestampendGlobal
        client.prepared.timestampendGlobal
  saving : client.saving.Works

-----------------------------------------------------------------------------------------
-- The request
-----------------------------------------------------------------------------------------

/-- A time is read as it is written. -/
theorem readUInt64_toText {n : Nat} (small : n < 2 ^ 63)
    : readUInt64 (toText n) = UInt64.ofNat n := by
  have fits : (n : Int).natAbs < 2 ^ 64 := by omega
  rw [readUInt64, readNumber_toText]
  simp only [fits, if_true]
  rw [UInt64.ofInt, Int.emod_eq_of_lt (Int.natCast_nonneg n) (by omega), Int.toNat_natCast]

theorem ofList_toText {n : Nat} (small : n < 2 ^ 64)
    : String.ofList (toText n) = toString (UInt64.ofNat n) := by
  have value : (UInt64.ofNat n).toNat = n := UInt64.toNat_ofNat_of_lt' small
  change _ = Nat.repr (UInt64.ofNat n).toNat
  rw [value, toText, if_neg (by omega)]
  rfl

/-- Later times do not take less characters. -/
theorem length_toText_le {m n : Int} (nonneg : 0 ≤ m) (before : m ≤ n)
    : (toText m).length ≤ (toText n).length := by
  have digits : (Nat.toDigits 10 m.natAbs).length ≤ (Nat.toDigits 10 n.natAbs).length := by
    have limit := (Nat.length_toDigits_le_iff (n := n.natAbs) (by decide : 1 < 10)
      Nat.length_toDigits_pos).mp le_rfl
    refine (Nat.length_toDigits_le_iff (by decide) Nat.length_toDigits_pos).mpr ?_
    omega
  rw [toText, toText, if_neg (by omega), if_neg (by omega)]
  exact digits

section Request

variable {p : Prepared} {plan : Plan} {first last : Nat}

/-- Of the times, only the lengths matter. -/
theorem Prepared.Readable.of_le {start stop latest : Int64} (readable : p.Readable latest latest)
    (nonneg : 0 ≤ start.toInt) (ordered : start.toInt ≤ stop.toInt)
    (before : stop.toInt ≤ latest.toInt)
    : p.Readable start stop := by
  have starts := length_toText_le nonneg (ordered.trans before)
  have stops := length_toText_le (nonneg.trans ordered) before
  have short := readable.short
  refine ⟨readable.devices, readable.codes, readable.raw, readable.step, ?_⟩
  simp only [Prepared.beforeStep, List.intercalate_cons_cons, List.intercalate_singleton,
    List.length_append] at short ⊢
  omega

theorem Plan.request_sets (plan : Plan) (nosamplesets : Int32) (timestampstart timestampend : Text)
    : (plan.request nosamplesets timestampstart timestampend).sets = plan.sets :=
  rfl

theorem Plan.Sound.size_le (sound : plan.Sound first last) : plan.size ≤ plan.most := by
  have step := sound.step
  have whole := sound.whole
  rw [Plan.most]
  rw [sampleIndex] at whole
  omega

/-- The server reads what is meant. -/
theorem Prepared.Means.parsed (means : p.Means plan) {start stop : Int64}
    (small : plan.size < 2147483648) (readable : p.Readable start stop) (beyond : Text)
    : ∃ nosamplesets,
      parseRequest (receive (p.datatotransmit start stop ++ [nul]) beyond)
        = .ok (plan.request nosamplesets (toText start.toInt) (toText stop.toInt)) := by
  have trips := readable.roundTrips means.checked
  obtain ⟨⟨devices, nosamplesets, timestampstart, timestampend, requested, method, stepsize⟩,
    parsed, rfl, rfl, rfl, rfl, compression, step⟩ := trips.parsed beyond
  obtain ⟨size, reads, value⟩ := means.stepsize
  obtain rfl : plan.compressionMethod = method :=
    Except.ok.inj (means.compressionMethod.symm.trans compression)
  obtain rfl : size = stepsize := Except.ok.inj (reads.symm.trans step)
  have same : Int32.ofNat plan.size = size := by
    refine Int32.toInt_inj.mp ?_
    rw [value, Int32.toInt_ofNat_of_lt small]
  refine ⟨nosamplesets, ?_⟩
  rw [parsed, Plan.request, ← means.devices, ← means.requested, same]

/-- It is compressed in whole steps. -/
theorem Plan.Sound.inSteps (sound : plan.Sound first last) (means : p.Means plan)
    {start stop : Int64} (readable : p.Readable start stop) (nosamplesets : Int32)
    (timestampstart timestampend : Text)
    : (plan.request nosamplesets timestampstart timestampend).InSteps plan.size := by
  have size := sound.size_le
  have few := sound.few
  have value : (Int32.ofNat plan.size).toInt = plan.size :=
    Int32.toInt_ofNat_of_lt (by omega)
  refine ⟨sound.sets, sound.skip, fun raw => ?_, sound.positive, value⟩
  obtain ⟨stepsize, reads, step⟩ := means.stepsize
  have one := readable.raw plan.compressionMethod means.compressionMethod
    (List.mem_filter.mp raw).2
  obtain rfl : stepsize = 1 := Except.ok.inj (reads.symm.trans one)
  exact Int.natCast_inj.mp step.symm

end Request

-----------------------------------------------------------------------------------------
-- The response
-----------------------------------------------------------------------------------------

section Response

variable {plan : Plan} {recording : Recording} {lo hi : Nat}

/-- The names of channels and compressions are short. -/
theorem SampleSet.Answers.room_le {samples : List UpmuSample} {stepsize : Int32}
    {set : Compression × Channel} {entry : SampleSet} {n : Nat}
    (answers : entry.Answers samples stepsize set) (length : entry.sample.length ≤ n)
    : 20 + entry.room ≤ 89 + 4 * n := by
  have name : entry.name.toList.length = 5 := by
    rw [answers.name]
    cases set.2 <;> rfl
  have compression : entry.compression.toList.length ≤ 4 := by
    rw [answers.compression]
    cases set.1 <;> decide
  rw [SampleSet.room]
  omega

/-- A response to a plan takes no more bytes than the plan has room for. -/
theorem Plan.Sound.room_le {first last : Nat} (sound : plan.Sound first last) {r : Request}
    (sets : r.sets = plan.sets) (inSteps : r.InSteps plan.size) (whole : plan.size ≤ hi - lo)
    (few : hi - lo ≤ plan.most) {payload : Cassspeed}
    (holds
      : List.Forall₂ (OutputSet.Holds recording r.sets r.stepsize lo hi) plan.devices
          payload.outputsets)
    : payload.room ≤ plan.room := by
  have most := sound.few
  have each
      : List.Forall₂
          (fun device output => 20 + OutputSet.room output
            ≤ 40 + device.length + plan.sets.length * (89 + 4 * (plan.most / plan.size)))
          plan.devices payload.outputsets := by
    refine holds.imp fun device output holds => ?_
    have count : output.sampleset.length = plan.sets.length := by
      rw [← sets]
      exact holds.sampleset.length_eq.symm
    have short : ∀ entry ∈ output.sampleset,
        20 + entry.room ≤ 89 + 4 * (plan.most / plan.size) := by
      intro entry member
      obtain ⟨set, requested, answers⟩ := exists_partner holds.sampleset member
      have samples := compressor_length (by
        rw [List.length_map, List.length_map, length_span]
        omega) answers.sample
      rw [List.length_map, List.length_map, length_span,
        inSteps.outputs_eq requested whole (by omega)] at samples
      refine answers.room_le (samples.trans_le ?_)
      exact Nat.div_le_div_right few
    have sum := List.sum_le_card_nsmul (output.sampleset.map fun entry => 20 + entry.room) _
      fun room member => by
        obtain ⟨entry, inside, rfl⟩ := List.mem_map.mp member
        exact short entry inside
    rw [List.length_map, count, smul_eq_mul] at sum
    rw [OutputSet.room, holds.deviceid]
    omega
  have sums := List.Forall₂.sum_le_sum
    (List.forall₂_map_left_iff.mpr (List.forall₂_map_right_iff.mpr each.flip))
  rw [Cassspeed.room, Plan.room]
  exact Nat.add_le_add_left sums 80

theorem labelled_of_holds {sets : List (Compression × Channel)} {stepsize : Int32}
    {devices : List Text} {payload : Cassspeed}
    (holds
      : List.Forall₂ (OutputSet.Holds recording sets stepsize lo hi) devices payload.outputsets)
    (bytes : ∀ device ∈ devices, AreBytes device)
    : payload.Labelled := by
  intro output member
  obtain ⟨device, requested, answer⟩ := exists_partner holds member
  refine ⟨?_, fun set inside => ?_⟩
  · rw [answer.deviceid]
    exact bytes device requested
  · obtain ⟨pair, -, entry⟩ := exists_partner answer.sampleset inside
    exact ⟨pair.1, pair.2, entry.name, entry.compression⟩

/-- A payload with a sample set for each device is saved. -/
theorem Saving.Works.save_eq_ok {saving : Saving} (works : saving.Works) {compressionMethod : Text}
    {v : Int32} (chosen : stoi compressionMethod = .ok v) {payload : Cassspeed}
    (sets : ∀ output ∈ payload.outputsets, output.sampleset ≠ [])
    : ∃ file, saving.save compressionMethod payload = .ok file := by
  have writable : ∀ output ∈ payload.outputsets, output.Writable saving.stepSize :=
    fun output member => ⟨sets output member, fun _ => works.step⟩
  have csv := (saveBodyCSV_eq_ok_iff chosen).mpr ⟨writable, rfl⟩
  have json := saveBodyJson_eq_ok_iff.mpr ⟨writable, rfl⟩
  have known := works.format
  simp only [List.mem_cons, List.not_mem_nil, or_false] at known
  rw [Saving.save, csv, json]
  split_ifs with console isCsv isJson
  · exact ⟨_, rfl⟩
  · exact ⟨_, rfl⟩
  · exact ⟨_, rfl⟩
  · rcases known with same | same | same
    · exact absurd same console
    · exact absurd same isCsv
    · exact absurd same isJson

end Response

-----------------------------------------------------------------------------------------
-- A turn
-----------------------------------------------------------------------------------------

namespace Chunk

/-- The number of the first sample of a chunk. -/
def first (chunk : Chunk) : Nat := sampleIndex chunk.timestampstart.toInt.toNat

/-- The number behind its last sample. -/
def limit (chunk : Chunk) : Nat := sampleLimit chunk.timestampend.toInt.toNat

/-- The number behind its last whole step. -/
def behind (plan : Plan) (chunk : Chunk) : Nat :=
  chunk.first + (chunk.limit - chunk.first) / plan.size * plan.size

/-- For each device and each sample set of the plan, a chunk holds what the compressor makes of the
recorded samples of the chunk.
-/
def Holds (recording : Recording) (plan : Plan) (chunk : Chunk) : Prop :=
  List.Forall₂
    (OutputSet.Holds recording plan.sets (Int32.ofNat plan.size) chunk.first chunk.limit)
    plan.devices chunk.payload.outputsets

end Chunk

section Turn

variable {archive : Archive} {recording : Recording} {first last : Nat} {plan : Plan}
  {client : Client}

theorem Client.Asks.timestampendLoop (asks : client.Asks archive recording first last plan)
    (sound : plan.Sound first last) {timestampstartLoop : Int64} {t : Nat}
    (now : timestampstartLoop.toInt = t) (before : t < plan.stop)
    : (client.timestampendLoop timestampstartLoop).toInt
      = (Min.min plan.stop (t + 1000 * plan.seconds) : Nat) := by
  obtain ⟨-, -, ends, small⟩ := sound.recorded
  have seconds := sound.seconds
  have next : (timestampstartLoop + client.prepared.deltaT).toInt
      = (t + 1000 * plan.seconds : Nat) := by
    rw [Int64.toInt_add, now, asks.means.deltaT, Int.bmod_eq_of_le (by omega) (by omega)]
    push_cast
    rfl
  rw [Client.timestampendLoop]
  split_ifs with reaches
  · rw [Int64.lt_iff_toInt_lt, next, asks.means.timestampend] at reaches
    rw [asks.means.timestampend, Nat.min_eq_left (by omega)]
  · rw [Int64.lt_iff_toInt_lt, next, asks.means.timestampend] at reaches
    rw [next, Nat.min_eq_right (by omega)]

/-- The samples up to the end of a chunk: a whole step at least, and not too many. -/
theorem Plan.Sound.chunk_bounds (sound : plan.Sound first last) {t : Nat}
    (begun : plan.start ≤ t) (before : t < plan.stop)
    (whole : sampleIndex t + plan.size ≤ sampleLimit plan.stop)
    : plan.size
        ≤ sampleLimit (Min.min plan.stop (t + 1000 * plan.seconds)) - sampleIndex t
      ∧ sampleLimit (Min.min plan.stop (t + 1000 * plan.seconds)) - sampleIndex t
        ≤ plan.most := by
  have step := sound.step
  rw [Plan.most]
  rw [sampleLimit, sampleIndex] at whole ⊢
  rw [sampleLimit]
  omega

/-- A turn that begins in the interval obtains a chunk of the recorded samples, and the times from
which the download goes on.
-/
theorem Client.Asks.obtains_chunk (asks : client.Asks archive recording first last plan)
    (sound : plan.Sound first last) {s : Download} {t : Nat}
    (now : s.timestampstartLoop.toInt = t) (begun : plan.start ≤ t) (before : t < plan.stop)
    (whole : sampleIndex t + plan.size ≤ sampleLimit plan.stop)
    : ∃ chunk time, client.Obtains s chunk ∧ chunk.Holds recording plan
      ∧ chunk.timestampstart.toInt = t
      ∧ chunk.timestampend.toInt = (Min.min plan.stop (t + 1000 * plan.seconds) : Nat)
      ∧ chunk.payload.Timed chunk.first (chunk.behind plan - chunk.first) time
      ∧ (1000 ∣ t → time = t) := by
  obtain ⟨positive, begins, ends, small⟩ := sound.recorded
  have ending := asks.timestampendLoop sound now before
  obtain ⟨step, few⟩ := sound.chunk_bounds begun before whole
  have size := sound.size_le
  have most := sound.few
  generalize stopEq : Min.min plan.stop (t + 1000 * plan.seconds) = stop at ending step few ⊢
  have ordered : t < stop := by
    have first' := sound.step
    have positive := sound.positive
    omega
  have late : stop ≤ plan.stop := by omega
  -- the request
  have global := asks.means.timestampend
  have readable
      : client.prepared.Readable s.timestampstartLoop
          (client.timestampendLoop s.timestampstartLoop) :=
    asks.readable.of_le (by omega) (by omega) (by omega)
  obtain ⟨around, connects, serves⟩ :=
    asks.server s.chunks.length (client.request s.timestampstartLoop)
  obtain ⟨nosamplesets, parsed⟩ := asks.means.parsed (by omega) readable around.beyond
  rw [now, ending] at parsed
  have inSteps := sound.inSteps asks.means readable nosamplesets (toText t) (toText stop)
  have asksFor
      : (plan.request nosamplesets (toText t) (toText stop)).AsksFor (UInt64.ofNat t)
          (UInt64.ofNat stop) :=
    ⟨readUInt64_toText (by omega), readUInt64_toText (by omega), ofList_toText (by omega)⟩
  have startNat : (UInt64.ofNat t).toNat = t := by
    rw [UInt64.toNat_ofNat']
    exact Nat.mod_eq_of_lt (by omega)
  have stopNat : (UInt64.ofNat stop).toNat = stop := by
    rw [UInt64.toNat_ofNat']
    exact Nat.mod_eq_of_lt (by omega)
  have inside : Inside first last (UInt64.ofNat t) (UInt64.ofNat stop) :=
    ⟨positive, by omega, by omega, by omega, small⟩
  have devices : plan.devices ≠ [] := by
    rw [← asks.means.devices, ← (splitOn_eq_split_iff _).mpr readable.devices]
    exact List.splitOn_ne_nil _ _
  have sent : client.request s.timestampstartLoop ≠ [] := by
    rw [Client.request]
    exact List.append_ne_nil_of_right_ne_nil _ (List.cons_ne_nil _ _)
  -- the response
  obtain ⟨payload, w, time, responds, holds, timed, same⟩ :=
    chunk_responds
      (c := {
        sent := client.request s.timestampstartLoop, beyond := around.beyond,
        connects := around.connects, timestampcass := around.timestampcass })
      sent connects parsed devices asks.records asksFor inside inSteps
      (by rw [startNat, stopNat]; exact step) (by rw [startNat, stopNat]; omega)
      around.numsamples
  rw [startNat, stopNat] at holds timed
  rw [startNat] at same
  have sets := plan.request_sets nosamplesets (toText t) (toText stop)
  have room := sound.room_le sets inSteps step few holds
  have length := payload.length_serialize_le (by
    have limit := sound.small
    omega)
  have outputs : ∀ output ∈ payload.outputsets, output.sampleset ≠ [] := by
    intro output member empty
    obtain ⟨device, -, holds⟩ := exists_partner holds member
    have sets := holds.sampleset
    rw [empty, List.forall₂_nil_right_iff] at sets
    exact sound.sets sets
  have shown : payload.outputsets ≠ [] := by
    intro empty
    rw [empty, List.forall₂_nil_right_iff] at holds
    exact devices holds
  obtain ⟨file, saved⟩ := asks.saving.save_eq_ok asks.means.compressionMethod outputs
  obtain ⟨bytes, sends, received⟩ := receiveResponse_payload
    (labelled_of_holds holds asks.deviceids)
    (by rw [timed.timestampstart]; exact Option.some_ne_none _)
    (by
      have limit := sound.small
      omega)
    around.memory (client.memory s.chunks.length)
  have answers : client.server s.chunks.length (client.request s.timestampstartLoop)
      = .sends bytes := by
    rw [serves, serve, SharedCell.Program.alone, responds]
    dsimp only
    rw [sends]
    rfl
  have firstEq : (client.chunkOf s payload file).first = sampleIndex t := by
    rw [Chunk.first]
    change sampleIndex s.timestampstartLoop.toInt.toNat = _
    rw [now, Int.toNat_natCast]
  have limitEq : (client.chunkOf s payload file).limit = sampleLimit stop := by
    rw [Chunk.limit]
    change sampleLimit (client.timestampendLoop s.timestampstartLoop).toInt.toNat = _
    rw [ending, Int.toNat_natCast]
  refine ⟨client.chunkOf s payload file, time, ⟨⟨bytes, answers, received⟩, .inr shown, saved, rfl,
    rfl, rfl⟩, ?_, now, ending, ?_, same⟩
  · rw [Chunk.Holds, firstEq, limitEq]
    exact holds
  · rw [Chunk.behind, firstEq, limitEq, Nat.add_sub_cancel_left]
    exact timed

end Turn

end Sparcs.CassSpeed
