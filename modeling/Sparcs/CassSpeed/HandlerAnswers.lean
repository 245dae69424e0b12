import Sparcs.CassSpeed.Interleaving
import Sparcs.CassSpeed.SampleVectors

/-! What a handler sends for its request, whatever the others store in `numsamples`: one output
set for each device whose query has succeeded, and in it one sample set for each compression
and channel that are requested.
-/

namespace Sparcs.CassSpeed

open SharedCell

variable {α β γ : Type} {finds : Int32 → Int32 → Prop} {v w : Int32}

/-- A function of the handler returns beside others; `v` and `w` are the last values that the
handler has stored itself, before and after it.
-/
def Handling.Returns (finds : Int32 → Int32 → Prop) (h : Handling α) (v : Int32) (a : α)
    (w : Int32)
    : Prop :=
  (ExceptT.run h).Leads finds v (.ok a, w)

namespace Handling

@[simp] theorem returns_pure_iff {a b : α}
    : (pure a : Handling α).Returns finds v b w ↔ b = a ∧ w = v := by
  refine Program.leads_pure_iff.trans ?_
  simp

@[simp] theorem returns_throw_iff {fault : Fault} {a : α}
    : (throw fault : Handling α).Returns finds v a w ↔ False := by
  refine Program.leads_pure_iff.trans ?_
  simp

@[simp] theorem returns_ofExcept_iff {e : Except Fault α} {a : α}
    : (ofExcept e : Handling α).Returns finds v a w ↔ e = .ok a ∧ w = v := by
  cases e with
  | error fault => exact returns_throw_iff.trans (by simp)
  | ok b => exact returns_pure_iff.trans (by simp [eq_comm])

@[simp] theorem returns_readNumsamples_iff {found : Int32}
    : readNumsamples.Returns finds v found w ↔ finds v found ∧ w = v := by
  refine Program.leads_read_iff.trans ?_
  constructor
  · rintro ⟨x, allowed, leads⟩
    obtain ⟨⟨⟩, rfl⟩ := Prod.mk.inj (Program.leads_pure_iff.mp leads)
    exact ⟨allowed, rfl⟩
  · rintro ⟨allowed, rfl⟩
    exact ⟨found, allowed, Program.leads_pure_iff.mpr rfl⟩

@[simp] theorem returns_writeNumsamples_iff {x : Int32} {u : Unit}
    : (writeNumsamples x).Returns finds v u w ↔ w = x := by
  refine Program.leads_write_iff.trans (Program.leads_pure_iff.trans ?_)
  simp

theorem returns_bind_iff {h : Handling α} {next : α → Handling β} {b : β}
    : (h >>= next).Returns finds v b w
      ↔ ∃ a u, h.Returns finds v a u ∧ (next a).Returns finds u b w := by
  rw [Returns, ExceptT.run_bind, Program.leads_bind_iff]
  constructor
  · rintro ⟨outcome, u, first, rest⟩
    cases outcome with
    | error fault => cases rest
    | ok a => exact ⟨a, u, first, rest⟩
  · rintro ⟨a, u, first, rest⟩
    exact ⟨.ok a, u, first, rest⟩

end Handling

open Handling

/-- Lists that go together have a partner for each element. -/
theorem exists_of_forall₂ {α β : Type} {R : α → β → Prop} {xs : List α} {ys : List β} {x : α}
    (related : List.Forall₂ R xs ys) (member : x ∈ xs)
    : ∃ y, R x y := by
  induction related with
  | nil => cases member
  | cons first _ ih =>
      rcases List.mem_cons.mp member with rfl | member
      · exact ⟨_, first⟩
      · exact ih member

-----------------------------------------------------------------------------------------
-- The sample sets of a device
-----------------------------------------------------------------------------------------

/-- The samples that are left when the front is cut. -/
def trimmed (r : Request) (rows : List CassRow) : List UpmuSample :=
  (rows.flatMap CassRow.samples).drop r.skip.toInt.toNat

/-- The entry for a compression and a channel. -/
structure SampleSet.Answers (samples : List UpmuSample) (stepsize : Int32)
    (set : Compression × Channel) (entry : SampleSet)
    : Prop where
  name : entry.name = set.2.name
  compression : entry.compression = set.1.label
  sample : set.1.compressor (samples.map (· set.2)) stepsize.toUInt32 = .ok entry.sample

/-- What the last compressor stores, if there is one. -/
def lastStored (v : Int32) (sampleset : List SampleSet) : Int32 :=
  sampleset.foldl (fun _ entry => Int32.ofNat entry.sample.length) v

theorem addSampleset_returns {samples : List UpmuSample} {stepsize : Int32}
    {set : Compression × Channel} {entry : SampleSet}
    (returns : (addSampleset samples stepsize set).Returns finds v entry w)
    : entry.Answers samples stepsize set ∧ w = Int32.ofNat entry.sample.length := by
  rw [addSampleset, returns_bind_iff] at returns
  obtain ⟨output, u, compressed, returns⟩ := returns
  obtain ⟨rfl, rfl⟩ := returns_pure_iff.mp returns
  rw [compress, returns_bind_iff] at compressed
  obtain ⟨output', u, compressed, rest⟩ := compressed
  obtain ⟨result, rfl⟩ := returns_ofExcept_iff.mp compressed
  obtain ⟨⟨⟩, u, stored, rest⟩ := returns_bind_iff.mp rest
  obtain rfl := returns_writeNumsamples_iff.mp stored
  obtain ⟨rfl, rfl⟩ := returns_pure_iff.mp rest
  exact ⟨⟨rfl, rfl, result⟩, rfl⟩

/-- The loops over the compressions and the channels, by induction over the sample sets. -/
theorem addSamplesets_returns {samples : List UpmuSample} {stepsize : Int32}
    {sets : List (Compression × Channel)} {sampleset : List SampleSet}
    (returns : (sets.mapM (addSampleset samples stepsize)).Returns finds v sampleset w)
    : List.Forall₂ (SampleSet.Answers samples stepsize) sets sampleset
      ∧ w = lastStored v sampleset := by
  induction sets generalizing v sampleset with
  | nil =>
      obtain ⟨rfl, rfl⟩ := returns_pure_iff.mp returns
      exact ⟨.nil, rfl⟩
  | cons set sets ih =>
      rw [List.mapM_cons, returns_bind_iff] at returns
      obtain ⟨entry, u, first, returns⟩ := returns
      obtain ⟨others, u', rest, returns⟩ := returns_bind_iff.mp returns
      obtain ⟨rfl, rfl⟩ := returns_pure_iff.mp returns
      obtain ⟨answers, rfl⟩ := addSampleset_returns first
      obtain ⟨more, same⟩ := ih rest
      exact ⟨.cons answers more, same⟩

/-- The output set of a device with its rows. -/
structure OutputSet.Answers (r : Request) (found : Text × List CassRow) (output : OutputSet)
    : Prop where
  readable : ∀ row ∈ found.2, row.Readable
  enough : r.skip.toInt.toNat ≤ (found.2.flatMap CassRow.samples).length
  deviceid : output.deviceid = found.1
  sampleset
    : List.Forall₂ (SampleSet.Answers (trimmed r found.2) r.stepsize) r.sets output.sampleset

/-- `timestampcass` after a device. -/
def Oldest.passDevice (r : Request) (oldest : Oldest) (rows : List CassRow) : Oldest :=
  { oldest.seeAll rows with timestampcass := skipTime (oldest.seeAll rows).timestampcass r.skip }

/-- What the statements behind the loops over the samples store in the payload. -/
structure Cassspeed.Summarises (finds : Int32 → Int32 → Prop) (r : Request)
    (timestampcass : Int64) (w : Int32) (payload : Cassspeed)
    : Prop where
  timestampstart : payload.timestampstart = some timestampcass.toUInt64
  timestampend
    : ∃ covered, finds w covered
      ∧ payload.timestampend = some (endTime timestampcass covered r.stepsize).toUInt64
  numsamples : ∃ count, finds w count ∧ payload.numsamples = some count.toUInt32
  numdevices : payload.numdevices = some (Int32.ofNat r.devices.length)

/-- One turn of the loop over the devices, for a query that has succeeded. -/
theorem handleRows_returns {r : Request} {s s' : Progress} {device : Text} {rows : List CassRow}
    (returns : (handleRows r s device rows).Returns finds v s' w)
    : ∃ output, OutputSet.Answers r (device, rows) output
      ∧ w = lastStored v output.sampleset
      ∧ s'.oldest = s.oldest.passDevice r rows
      ∧ s'.payload.outputsets = s.payload.outputsets ++ [output]
      ∧ s'.payload.Summarises finds r (s.oldest.passDevice r rows).timestampcass w
      ∧ s'.errorcode = s.errorcode := by
  obtain ⟨⟨oldest, samples⟩, u, read, returns⟩ := returns_bind_iff.mp returns
  obtain ⟨all, rfl⟩ := returns_ofExcept_iff.mp read
  obtain ⟨readable, rfl, rfl⟩ := readRows_eq_ok_iff.mp all
  obtain ⟨left, u, cut, returns⟩ := returns_bind_iff.mp returns
  obtain ⟨inside, rfl⟩ := returns_ofExcept_iff.mp cut
  obtain ⟨enough, rfl⟩ := eraseFront_eq_ok_iff.mp inside
  obtain ⟨sampleset, u, added, returns⟩ := returns_bind_iff.mp returns
  obtain ⟨answers, rfl⟩ := addSamplesets_returns added
  obtain ⟨covered, u, first, returns⟩ := returns_bind_iff.mp returns
  obtain ⟨reads, rfl⟩ := returns_readNumsamples_iff.mp first
  obtain ⟨count, u, second, returns⟩ := returns_bind_iff.mp returns
  obtain ⟨reads', rfl⟩ := returns_readNumsamples_iff.mp second
  obtain ⟨rfl, rfl⟩ := returns_pure_iff.mp returns
  exact ⟨{ deviceid := device, sampleset }, ⟨readable, enough, rfl, answers⟩, rfl, rfl, rfl,
    ⟨rfl, ⟨covered, reads, rfl⟩, ⟨count, reads', rfl⟩, rfl⟩, rfl⟩

-----------------------------------------------------------------------------------------
-- The loop over the devices
-----------------------------------------------------------------------------------------

/-- The devices whose queries succeed, with their rows. -/
def findAll (archive : Archive) (r : Request) (devices : List Text)
    : List (Text × List CassRow) :=
  devices.filterMap fun device =>
    (archive (r.querystr device)).map (device, ·)

/-- `timestampcass` after some devices. -/
def Oldest.passAll (r : Request) (oldest : Oldest) (found : List (Text × List CassRow)) : Oldest :=
  found.foldl (fun oldest found => oldest.passDevice r found.2) oldest

/-- What the last compressor of all devices stores. -/
def lastStoredAll (v : Int32) (outputsets : List OutputSet) : Int32 :=
  outputsets.foldl (fun v output => lastStored v output.sampleset) v

/-- The loop over some devices that have been found as `found`. -/
structure Passes (finds : Int32 → Int32 → Prop) (r : Request)
    (found : List (Text × List CassRow)) (failed : Prop) (s s' : Progress) (v w : Int32)
    : Prop where
  oldest : s'.oldest = s.oldest.passAll r found
  outputsets
    : ∃ outputsets, List.Forall₂ (OutputSet.Answers r) found outputsets
      ∧ s'.payload.outputsets = s.payload.outputsets ++ outputsets
      ∧ w = lastStoredAll v outputsets
  summary
    : found = [] ∧ s'.payload = s.payload
      ∨ found ≠ [] ∧ s'.payload.Summarises finds r s'.oldest.timestampcass w
  errorcode : s'.errorcode = "-4" ↔ failed ∨ s.errorcode = "-4"

/-- The loop over the devices, by induction over them. -/
theorem foldlM_handleDevice {archive : Archive} {r : Request} {devices : List Text}
    {s s' : Progress}
    (returns : (devices.foldlM (handleDevice archive r) s).Returns finds v s' w)
    : Passes finds r (findAll archive r devices)
        ((findAll archive r devices).length < devices.length) s s' v w := by
  induction devices generalizing s v with
  | nil =>
      obtain ⟨rfl, rfl⟩ := returns_pure_iff.mp returns
      exact ⟨rfl, ⟨[], .nil, by simp, rfl⟩, .inl ⟨rfl, rfl⟩, by simp⟩
  | cons device devices ih =>
      rw [List.foldlM_cons, returns_bind_iff] at returns
      obtain ⟨t, u, turn, rest⟩ := returns
      have passes := ih rest
      rw [handleDevice] at turn
      have few : (findAll archive r devices).length ≤ devices.length := List.length_filterMap_le _ _
      rw [findAll, List.filterMap_cons]
      cases query : archive (r.querystr device) with
      | none =>
          rw [query] at turn
          obtain ⟨rfl, rfl⟩ := returns_pure_iff.mp turn
          refine ⟨passes.oldest, passes.outputsets, passes.summary, ?_⟩
          rw [passes.errorcode]
          exact iff_of_true (.inr rfl) (.inl (Nat.lt_succ_of_le few))
      | some rows =>
          rw [query] at turn
          obtain ⟨output, answers, rfl, oldest, outputs, summary, errorcode⟩ :=
            handleRows_returns turn
          obtain ⟨outputsets, others, appended, stored⟩ := passes.outputsets
          refine ⟨?_, ⟨output :: outputsets, .cons answers others, ?_, stored⟩, .inr ⟨?_, ?_⟩, ?_⟩
          · rw [passes.oldest, oldest]
            rfl
          · rw [appended, outputs, List.append_assoc, List.singleton_append]
          · exact List.cons_ne_nil _ _
          · rcases passes.summary with ⟨nothing, same⟩ | ⟨-, later⟩
            · rw [same, passes.oldest, nothing, oldest]
              have stored := stored
              rw [nothing, List.forall₂_nil_left_iff] at others
              rw [others] at stored
              rw [stored]
              exact summary
            · exact later
          · rw [passes.errorcode, errorcode]
            exact or_congr_left Nat.succ_lt_succ_iff.symm

-----------------------------------------------------------------------------------------
-- The handler
-----------------------------------------------------------------------------------------

/-- The devices of the request that are found in the archive. -/
def Request.found (r : Request) (archive : Archive) : List (Text × List CassRow) :=
  findAll archive r r.devices

/-- What `firstsample` and `timestampcass` are at first. -/
def unseen (timestampcass : Int64) : Oldest := { firstsample := true, timestampcass }

/-- The payload that answers a request. -/
structure Cassspeed.Answers (finds : Int32 → Int32 → Prop) (archive : Archive)
    (timestampcass : Int64) (v : Int32) (r : Request) (payload : Cassspeed)
    : Prop where
  found : r.found archive ≠ []
  outputsets : List.Forall₂ (OutputSet.Answers r) (r.found archive) payload.outputsets
  summary
    : payload.Summarises finds r
        ((unseen timestampcass).passAll r (r.found archive)).timestampcass
        (lastStoredAll v payload.outputsets)

theorem handleDevices_returns {archive : Archive} {timestampcass : Int64} {r : Request}
    {s : Progress} {payload : Cassspeed}
    (returns : (handleDevices archive timestampcass r).Returns finds v s w)
    (responds : s.response = .payload payload)
    : payload.Answers finds archive timestampcass v r := by
  rw [handleDevices] at returns
  split_ifs at returns with devices
  · cases returns_throw_iff.mp returns
  · have passes := foldlM_handleDevice returns
    obtain ⟨outputsets, answers, appended, stored⟩ := passes.outputsets
    rw [Progress.response] at responds
    split_ifs at responds with failed
    obtain rfl := Response.payload.inj responds
    rcases passes.summary with ⟨empty, same⟩ | ⟨found, summary⟩
    · refine absurd ⟨passes.errorcode.mpr (.inl ?_), by rw [same]; rfl⟩ failed
      rw [empty]
      exact List.length_pos_iff.mpr devices
    · refine ⟨found, ?_, ?_⟩
      · rw [appended]
        exact answers
      · rw [passes.oldest, stored] at summary
        rw [appended]
        exact summary

/-- Whatever a handler comes to, a payload answers the request that it has read. -/
theorem socketHandler_leads {archive : Archive} {c : Connection} {payload : Cassspeed}
    (leads : (socketHandler archive c).Leads finds v (.ok (.payload payload), w))
    : ∃ r, parseRequest (receive c.sent c.beyond) = .ok r
      ∧ payload.Answers finds archive c.timestampcass v r := by
  rw [socketHandler] at leads
  split_ifs at leads with closed
  · cases leads
  · rw [map_eq_pure_bind, Program.leads_bind_iff] at leads
    obtain ⟨outcome, u, leads, result⟩ := leads
    obtain ⟨same, rfl⟩ := Prod.mk.inj (Program.leads_pure_iff.mp result)
    cases outcome with
    | error fault => cases fault <;> cases same
    | ok response =>
        obtain rfl : Response.payload payload = response := Except.ok.inj same
        change (handle archive c).Returns finds v _ _ at leads
        rw [handle] at leads
        split_ifs at leads with connected
        · obtain ⟨r, u, first, rest⟩ := returns_bind_iff.mp leads
          obtain ⟨parsed, rfl⟩ := returns_ofExcept_iff.mp first
          obtain ⟨s, u, handled, last⟩ := returns_bind_iff.mp rest
          obtain ⟨responds, rfl⟩ := returns_pure_iff.mp last
          exact ⟨r, parsed, handleDevices_returns handled responds.symm⟩
        · cases (returns_pure_iff.mp leads).1

section Interleaving

variable {ι : Type} [DecidableEq ι]

/-- Beside any others, too, with some values of `numsamples` that its reads find. -/
theorem handlers_lead {archive : Archive} {connections : ι → Connection} {numsamples : Int32}
    {schedule : List ι} {i : ι} {payload : Cassspeed}
    (ended
      : (((handlers archive connections numsamples).run schedule).programs i).result?
        = some (.ok (.payload payload)))
    : ∃ r, parseRequest (receive (connections i).sent (connections i).beyond) = .ok r
      ∧ payload.Answers (fun _ _ => True) archive (connections i).timestampcass numsamples r := by
  obtain ⟨w, leads⟩ := Threads.leads_of_run ended
  exact socketHandler_leads leads

/-- In every interleaving, a handler that sends a payload sends one output set for each device
whose query has succeeded, in the order of the request. In it is, for each compression whose
bit is set and each channel whose flag is set, in their orders, an entry with the names of both
and what that compressor makes of the trimmed vector of that channel. The twelve vectors of the
code are those of the channels.
-/
theorem handlers_sendRequested (archive : Archive) (connections : ι → Connection)
    (numsamples : Int32) (schedule : List ι) (i : ι) (payload : Cassspeed)
    (ended
      : (((handlers archive connections numsamples).run schedule).programs i).result?
        = some (.ok (.payload payload)))
    : handleVectors = handleRows
      ∧ ∃ r, parseRequest (receive (connections i).sent (connections i).beyond) = .ok r
        ∧ List.Forall₂ (OutputSet.Answers r) (r.found archive) payload.outputsets := by
  refine ⟨handleVectors_eq, ?_⟩
  obtain ⟨r, parsed, answers⟩ := handlers_lead ended
  exact ⟨r, parsed, answers.outputsets⟩

end Interleaving

/-- Two handlers of one second in turn: the one that copies the samples. -/
theorem handlers_sendRequested_raw
    : ∃ (r : Request) (payload : Cassspeed),
      parseRequest (receive (rawAndSkip false).sent []) = .ok r
      ∧ List.Forall₂ (OutputSet.Answers r) (r.found fun _ => some [zeroSecond])
        payload.outputsets := by
  have sent
      : ((((handlers (fun _ => some [zeroSecond]) rawAndSkip 0).run
            [false, true, false, true, false, true]).programs false).result?.bind
          sentNumsamples).isSome := by
    decide +kernel
  obtain ⟨count, sent⟩ := Option.isSome_iff_exists.mp sent
  obtain ⟨outcome, ended, counted⟩ := Option.bind_eq_some_iff.mp sent
  match outcome, counted with
  | .ok (.payload payload), _ =>
      obtain ⟨-, r, parsed, answers⟩ := handlers_sendRequested _ _ _ _ _ _ ended
      exact ⟨r, payload, parsed, answers⟩

end Sparcs.CassSpeed
