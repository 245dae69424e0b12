import Sparcs.CassSpeed.HandlerAnswers
import Sparcs.CassSpeed.OutputLengths
import Sparcs.CassSpeed.SavedPlaces

/-! The files of the responses that the server sends: each device has one set for each
compression and channel of the request.
-/

namespace Sparcs.CassSpeed

open SharedCell

-----------------------------------------------------------------------------------------
-- What is requested
-----------------------------------------------------------------------------------------

namespace Request

theorem labels_nodup (r : Request) : (r.compressions.map Compression.label).Nodup :=
  (List.filter_sublist.map Compression.label).nodup (by decide)

theorem channels_sublist (r : Request) : r.channels.Sublist Channel.all := by
  have flags (channels : List Channel) (requested : List Bool)
      : ((channels.zip requested).filterMap fun flag =>
          if flag.2 then some flag.1 else none).Sublist channels := by
    induction channels generalizing requested with
    | nil => exact .slnil
    | cons channel channels ih =>
        cases requested with
        | nil => exact List.nil_sublist _
        | cons flag requested =>
            rw [List.zip_cons_cons, List.filterMap_cons]
            cases flag with
            | false => exact (ih requested).cons _
            | true => exact (ih requested).cons_cons _
  exact flags _ _

theorem names_nodup (r : Request) : (r.channels.map Channel.name).Nodup :=
  (r.channels_sublist.map Channel.name).nodup (by decide)

end Request

/-- A device has one set for each compression and channel that are requested. -/
theorem OutputSet.Answers.covers {r : Request} {found : Text × List CassRow} {output : OutputSet}
    (answers : output.Answers r found)
    : output.Covers (r.compressions.map Compression.label) (r.channels.map Channel.name) := by
  have named (sets : List (Compression × Channel)) (sampleset : List SampleSet)
      (all : List.Forall₂ (SampleSet.Answers (trimmed r found.2) r.stepsize) sets sampleset)
      : sampleset.map (fun set => (set.compression, set.name))
        = sets.map fun set => (set.1.label, set.2.name) := by
    induction all with
    | nil => rfl
    | cons entry _ ih => rw [List.map_cons, List.map_cons, ih, entry.compression, entry.name]
  have requested (compressions : List Compression)
      : (compressions.flatMap fun compression => r.channels.map (compression, ·)).map
          (fun set => (set.1.label, set.2.name))
        = compressions.map Compression.label ×ˢ r.channels.map Channel.name := by
    induction compressions with
    | nil => rfl
    | cons compression compressions ih =>
        rw [List.flatMap_cons, List.map_append, ih, List.map_cons, List.product_cons, List.map_map,
          List.map_map]
        rfl
  exact (named _ _ answers.sampleset).trans (requested _)

-----------------------------------------------------------------------------------------
-- Which requests get upright responses
-----------------------------------------------------------------------------------------

section Upright

variable {r : Request} {n : Nat} {s : UInt32}

/-- Compressions that come before raw have fewer samples, unless the step is one and they are
not Skip.
-/
theorem le_outputs_iff {compression : Compression} (accepts : compression.Accepts n s.toNat)
    (before : compression ≠ .raw) (full : s.toNat ≤ n) (begun : 0 < n) (small : n < 2147483648)
    : n ≤ compression.outputs n s ↔ s = 1 ∧ compression ≠ .skip := by
  by_cases skip : compression = .skip
  · subst skip
    obtain ⟨-, empty⟩ | ⟨positive, -⟩ := accepts
    · omega
    · have less := Nat.div_le_self (n - 1) s.toNat
      rw [outputs_skip positive begun (by omega), if_neg (by omega)]
      exact iff_of_false (by omega) (by simp)
  · have combining : compression.CombinesSteps := ⟨before, skip⟩
    have positive : 0 < s.toNat := by
      cases compression with
      | raw => exact absurd rfl before
      | skip => exact absurd rfl skip
      | min | max | avg => exact accepts.1
    rw [outputs_combining combining accepts small, and_iff_left skip]
    constructor
    · intro all
      refine UInt32.toNat.inj (le_antisymm ?_ positive)
      by_contra more
      exact absurd (Nat.div_lt_self begun (not_le.mp more)) (not_lt.mpr all)
    · rintro rfl
      exact (Nat.div_one n).ge

/-- The sets get no longer exactly when raw stands alone, or beside those that combine one sample
each.
-/
theorem pairwise_outputs_iff
    (accepts : ∀ compression ∈ r.compressions, compression.Accepts n s.toNat)
    (full : s.toNat ≤ n) (begun : 0 < n) (small : n < 2147483648)
    : (r.compressions.Pairwise fun compression later => later.outputs n s ≤ compression.outputs n s)
      ↔ (.raw ∈ r.compressions →
          ∀ compression ∈ r.compressions, compression ≠ .raw → s = 1 ∧ compression ≠ .skip) := by
  have ordered : r.compressions.Pairwise fun compression later => compression.bit < later.bit :=
    List.Pairwise.sublist List.filter_sublist (by decide)
  constructor
  · intro shrinks raw compression member before
    refine (le_outputs_iff (accepts _ member) before full begun small).mp ?_
    have last : Compression.all = [.min, .max, .avg, .skip] ++ [.raw] := rfl
    rw [Request.compressions, List.pairwise_filter, last, List.pairwise_append] at shrinks
    have chosen := (List.mem_filter.mp member).2
    have rawChosen := (List.mem_filter.mp raw).2
    refine shrinks.2.2 compression ?_ .raw List.mem_cons_self chosen rawChosen
    cases compression with
    | raw => exact absurd rfl before
    | min | max | avg | skip => decide
  · intro alone
    refine ordered.imp_of_mem fun {compression later} member member' less => ?_
    have before : compression ≠ .raw := by
      rintro rfl
      cases later <;> exact absurd less (by decide)
    by_cases raw : later = .raw
    · subst raw
      exact (le_outputs_iff (accepts _ member) before full begun small).mpr
        (alone member' compression member before)
    · have combining : compression.CombinesSteps := by
        refine ⟨before, ?_⟩
        rintro rfl
        cases later with
        | raw => exact raw rfl
        | min | max | avg | skip => exact absurd less (by decide)
      rw [outputs_combining combining (accepts _ member) small]
      by_cases skip : later = .skip
      · subst skip
        obtain ⟨-, empty⟩ | ⟨positive, -⟩ := accepts _ member'
        · omega
        · rw [outputs_skip positive begun (by omega), if_neg (by omega)]
          exact Nat.div_le_div_right (by omega)
      · rw [outputs_combining ⟨raw, skip⟩ (accepts _ member') small]

theorem label_injective : Function.Injective Compression.label := by
  intro compression other same
  cases compression <;> cases other <;> first | rfl | exact absurd same (by decide)

variable {found : Text × List CassRow} {output : OutputSet}

theorem SampleSet.Answers.length_sample {samples : List UpmuSample} {stepsize : Int32}
    {set : Compression × Channel} {entry : SampleSet} (answers : entry.Answers samples stepsize set)
    (memory : samples.length < 2 ^ 63)
    : entry.sample.length = set.1.outputs samples.length stepsize.toUInt32 := by
  rw [compressor_length (by rwa [List.length_map]) answers.sample, List.length_map]

/-- The numbers of samples that a device has of a channel. -/
theorem OutputSet.Answers.lengths (answers : output.Answers r found)
    (memory : (trimmed r found.2).length < 2 ^ 63) (name : String)
    : (output.columns name).map List.length
      = if name ∈ r.channels.map Channel.name then
          r.compressions.map (·.outputs (trimmed r found.2).length r.stepsize.toUInt32)
        else [] := by
  have labels := answers.covers.compressions r.names_nodup name
  rw [OutputSet.columns, List.map_map]
  split_ifs at labels ⊢ with known
  · rw [← List.forall₂_eq_eq_eq, List.forall₂_map_left_iff, List.forall₂_map_right_iff] at labels ⊢
    refine ((List.forall₂_and_left _ _).mpr ⟨fun set inside => inside, labels⟩).imp ?_
    rintro set compression ⟨inside, named⟩
    obtain ⟨requested, entry⟩ :=
      exists_of_forall₂ answers.sampleset.flip (List.mem_of_mem_filter inside)
    obtain rfl := label_injective (entry.compression.symm.trans named)
    exact entry.length_sample memory
  · rw [List.map_eq_nil_iff.mp labels]
    rfl

/-- The number of rows is that of the first compression. -/
theorem OutputSet.Answers.rowCount_eq (answers : output.Answers r found)
    (memory : (trimmed r found.2).length < 2 ^ 63) (channels : r.channels ≠ [])
    : output.rowCount
      = (r.compressions.map
          (·.outputs (trimmed r found.2).length r.stepsize.toUInt32)).headD 0 := by
  have sampleset := answers.sampleset
  obtain ⟨channel, others, first⟩ := List.exists_cons_of_ne_nil channels
  rw [Request.sets, first] at sampleset
  rw [OutputSet.rowCount]
  cases compressions : r.compressions with
  | nil =>
      rw [compressions, List.flatMap_nil, List.forall₂_nil_left_iff] at sampleset
      rw [sampleset]
      rfl
  | cons compression later =>
      rw [compressions, List.flatMap_cons, List.map_cons, List.cons_append,
        List.forall₂_cons_left_iff] at sampleset
      obtain ⟨entry, rest, answer, -, split⟩ := sampleset
      rw [split]
      exact answer.length_sample memory

/-- The response to a request of a full step is upright exactly when raw stands alone, or beside
those that combine one sample each.
-/
theorem OutputSet.Answers.upright_iff (answers : output.Answers r found)
    (channels : r.channels ≠ []) (remains : trimmed r found.2 ≠ [])
    (full : r.stepsize.toUInt32.toNat ≤ (trimmed r found.2).length)
    (small : (trimmed r found.2).length < 2147483648)
    : (∀ name, RaggedRows.Upright (output.columns name) output.rowCount)
      ↔ (.raw ∈ r.compressions →
          ∀ compression ∈ r.compressions, compression ≠ .raw →
            r.stepsize.toUInt32 = 1 ∧ compression ≠ .skip) := by
  have memory : (trimmed r found.2).length < 2 ^ 63 := by omega
  have accepts : ∀ compression ∈ r.compressions,
      compression.Accepts (trimmed r found.2).length r.stepsize.toUInt32.toNat := by
    intro compression member
    obtain ⟨channel, inside⟩ := List.exists_mem_of_ne_nil _ channels
    have requested : (compression, channel) ∈ r.sets :=
      List.mem_flatMap.mpr ⟨compression, member, List.mem_map_of_mem inside⟩
    obtain ⟨entry, answer⟩ := exists_of_forall₂ answers.sampleset requested
    have accepts := compressor_accepts (by rwa [List.length_map]) answer.sample
    rwa [List.length_map] at accepts
  rw [← pairwise_outputs_iff accepts full (List.length_pos_iff.mpr remains) small]
  have lengths := answers.lengths memory
  constructor
  · intro upright
    obtain ⟨channel, inside⟩ := List.exists_mem_of_ne_nil _ channels
    have known := lengths channel.name
    rw [if_pos (List.mem_map_of_mem inside)] at known
    have descends := (upright channel.name).descends
    rw [← @List.pairwise_map _ _ List.length (fun n m => m ≤ n), known, List.pairwise_map]
      at descends
    exact descends
  · intro shrinks name
    have length := lengths name
    split_ifs at length with known
    · rw [← @List.pairwise_map _ _ _ (fun n m => m ≤ n), ← length, List.pairwise_map] at shrinks
      refine ⟨?_, shrinks⟩
      rw [answers.rowCount_eq memory channels, ← length]
      intro column inside
      cases columns : output.columns name with
      | nil =>
          rw [columns] at inside
          cases inside
      | cons first later =>
          rw [columns] at inside shrinks
          rcases List.mem_cons.mp inside with rfl | behind
          · exact le_rfl
          · exact (List.pairwise_cons.mp shrinks).1 column behind
    · rw [List.map_eq_nil_iff.mp length]
      exact ⟨fun column inside => absurd inside List.not_mem_nil, List.Pairwise.nil⟩

end Upright

/-- All devices of a response have them. -/
theorem Cassspeed.Answers.covers {finds : Int32 → Int32 → Prop} {archive : Archive}
    {timestampcass : Int64} {v : Int32} {r : Request} {payload : Cassspeed}
    (answers : payload.Answers finds archive timestampcass v r)
    : ∀ output ∈ payload.outputsets,
        output.Covers (r.compressions.map Compression.label) (r.channels.map Channel.name) := by
  intro output member
  obtain ⟨found, answer⟩ := exists_of_forall₂ answers.outputsets.flip member
  exact answer.covers

-----------------------------------------------------------------------------------------
-- The responses of the handlers
-----------------------------------------------------------------------------------------

/-- The channels, compressions and lengths of the sets, device by device. -/
def sentLengths : Except Fault Response → Option (List (List (String × String × Nat)))
  | .ok (.payload payload) =>
      some (payload.outputsets.map fun output =>
        output.sampleset.map fun set => (set.name, set.compression, set.sample.length))
  | _ => none

theorem exists_of_sentLengths {outcome : Option (Except Fault Response)}
    {sets : List (String × String × Nat)} (sent : outcome.bind sentLengths = some [sets])
    : ∃ payload output, outcome = some (.ok (.payload payload))
      ∧ payload.outputsets = [output]
      ∧ output.sampleset.map (fun set => (set.name, set.compression, set.sample.length))
        = sets := by
  obtain ⟨response, rfl, sent⟩ := Option.bind_eq_some_iff.mp sent
  rcases response with fault | (_ | code | payload)
  · cases sent
  · cases sent
  · cases sent
  · have outputs := Option.some.inj sent
    obtain ⟨output, rest, split, one, others⟩ := List.map_eq_cons_iff.mp outputs
    rw [List.map_eq_nil_iff.mp others] at split
    exact ⟨payload, output, rfl, split, one⟩

/-- One device of which one second is asked for. -/
def askSecond (compressionMethod : String) (_ : Unit) : Connection :=
  askFor ("1;P3001199;1;1480355400000;1480355401000;1;0;0;0;0;0;0;0;0;0;0;0;"
    ++ compressionMethod ++ ";1")

/-- One set of one device is savable when the times of its samples differ. -/
theorem savable_of_single {payload : Cassspeed} {output : OutputSet} {set : SampleSet}
    {stepSize : Float32} {step : UInt64} (one : payload.outputsets = [output])
    (alone : output.sampleset = [set]) (defined : rowStep stepSize = .ok step)
    (differ : (rowTimes step (payload.timestampstart.getD 0) set.sample.length).Nodup)
    : payload.Savable stepSize := by
  have count : output.rowCount = set.sample.length := by
    rw [OutputSet.rowCount, alone]
    rfl
  refine ⟨?_, ?_, ?_, by rw [one]; exact List.pairwise_singleton _ _⟩
  · rw [one, List.forall_mem_singleton, alone]
    exact List.cons_ne_nil _ _
  · rw [one, List.forall_mem_singleton, count]
    intro name
    rw [OutputSet.columns, alone, List.filter_cons, List.filter_nil]
    split_ifs
    · exact ⟨by simp, List.pairwise_singleton _ _⟩
    · exact ⟨by simp, List.Pairwise.nil⟩
  · rw [one, List.forall_mem_singleton, count]
    exact fun _ => ⟨step, defined, differ⟩

theorem nodup_rowTimes {step : UInt64} {n : Nat} (differ : (rowTimes step 0 n).Nodup)
    (timestampStart : UInt64)
    : (rowTimes step timestampStart n).Nodup := by
  have shifted : rowTimes step timestampStart n = (rowTimes step 0 n).map (timestampStart + ·) := by
    rw [rowTimes, rowTimes, List.map_map]
    exact List.map_congr_left fun k _ => by simp
  rw [shifted]
  exact differ.map fun _ _ same => (UInt64.add_right_inj timestampStart).mp same

/-- In every interleaving, both files that a client makes of the response to its request have
each sample once in its place exactly when the response is savable.
-/
theorem handlers_saved_iff {ι : Type} [DecidableEq ι] (archive : Archive)
    (connections : ι → Connection) (numsamples : Int32) (schedule : List ι) (i : ι)
    (payload : Cassspeed) (r : Request) (stepSize : Float32) (compressionMethod : Text)
    (ended
      : (((handlers archive connections numsamples).run schedule).programs i).result?
        = some (.ok (.payload payload)))
    (requested : parseRequest (receive (connections i).sent (connections i).beyond) = .ok r)
    (chosen : stoi compressionMethod = .ok r.compressionMethod)
    : SavesCsv payload stepSize compressionMethod ∧ SavesJson payload stepSize
      ↔ payload.Savable stepSize := by
  obtain ⟨r', parsed, answers⟩ := handlers_lead ended
  obtain rfl : r = r' := Except.ok.inj (requested.symm.trans parsed)
  exact saves_iff chosen rfl answers.covers ⟨r.labels_nodup, r.names_nodup⟩

/-- The samples of a second, raw: both files have them. -/
theorem handlers_saved_raw
    : ∃ payload,
      (((handlers (fun _ => some [zeroSecond]) (askSecond "16") 0).run
          [(), (), ()]).programs ()).result? = some (.ok (.payload payload))
      ∧ SavesCsv payload 1 "16".toList ∧ SavesJson payload 1 := by
  have sent
      : (((handlers (fun _ => some [zeroSecond]) (askSecond "16") 0).run
            [(), (), ()]).programs ()).result?.bind sentLengths
        = some [[("L1mag", "Raw", 120)]] := by
    decide +kernel
  obtain ⟨payload, output, ended, one, alone⟩ := exists_of_sentLengths sent
  obtain ⟨set, rest, sampleset, raw, others⟩ := List.map_eq_cons_iff.mp alone
  rw [List.map_eq_nil_iff.mp others] at sampleset
  obtain ⟨-, -, length⟩ : set.name = "L1mag" ∧ set.compression = "Raw"
    ∧ set.sample.length = 120 := by simpa using raw
  obtain ⟨r, parsed, -⟩ := handlers_lead ended
  have chosen : (parseRequest (receive (askSecond "16" ()).sent (askSecond "16" ()).beyond)).map
      (·.compressionMethod) = stoi "16".toList := by
    decide +kernel
  rw [parsed] at chosen
  have differ : (rowTimes 8 0 120).Nodup := by decide +kernel
  refine ⟨payload, ended, ?_⟩
  refine (handlers_saved_iff _ _ _ _ _ _ r 1 _ ended parsed chosen.symm).mpr ?_
  exact savable_of_single one sampleset (by decide +kernel) (length ▸ nodup_rowTimes differ _)

/-- One second raw, beside Min and Skip, one sample each: Skip has no sample in the first row, so
the raw one stands in its column.
-/
theorem handlers_not_saved
    : ∃ payload,
      (((handlers (fun _ => some [zeroSecond]) (askSecond "25") 0).run
          [(), (), (), (), ()]).programs ()).result? = some (.ok (.payload payload))
      ∧ ¬SavesCsv payload 1 "25".toList := by
  have sent
      : (((handlers (fun _ => some [zeroSecond]) (askSecond "25") 0).run
            [(), (), (), (), ()]).programs ()).result?.bind sentLengths
        = some [[("L1mag", "Min", 120), ("L1mag", "Skip", 119), ("L1mag", "Raw", 120)]] := by
    decide +kernel
  obtain ⟨payload, output, ended, one, lengths⟩ := exists_of_sentLengths sent
  obtain ⟨r, parsed, answers⟩ := handlers_lead ended
  have chosen : (parseRequest (receive (askSecond "25" ()).sent (askSecond "25" ()).beyond)).map
      (·.compressionMethod) = stoi "25".toList := by
    decide +kernel
  rw [parsed] at chosen
  refine ⟨payload, ended, fun saves => ?_⟩
  have upright := ((savesCsv_iff chosen.symm rfl answers.covers
    ⟨r.labels_nodup, r.names_nodup⟩).mp saves).2 output (by rw [one]; exact List.mem_cons_self)
  have columns : (output.columns "L1mag").map List.length = [120, 119, 120] := by
    have all := congrArg (fun sets => (sets.filter (·.1 = "L1mag")).map (·.2.2)) lengths
    rw [List.filter_map, List.map_map] at all
    rw [OutputSet.columns, List.map_map]
    exact all
  have descends := (upright "L1mag").descends
  rw [← @List.pairwise_map _ _ List.length (fun n m => m ≤ n), columns] at descends
  exact absurd descends (by decide)

end Sparcs.CassSpeed
