import Sparcs.CassSpeed.HandlerRows

/-! The statements of the handler that are written out for each of the twelve vectors of a
device: those that collect, that cut the front, and that add a sample set. All vectors being
treated alike, they amount to one list of samples.
-/

namespace Sparcs.CassSpeed

open SharedCell

/-- The vectors of a device. -/
structure SampleVectors where
  l1mag : Samples
  l2mag : Samples
  l3mag : Samples
  l1ang : Samples
  l2ang : Samples
  l3ang : Samples
  c1mag : Samples
  c2mag : Samples
  c3mag : Samples
  c1ang : Samples
  c2ang : Samples
  c3ang : Samples

namespace SampleVectors

def empty : SampleVectors :=
  { l1mag := [], l2mag := [], l3mag := [], l1ang := [], l2ang := [], l3ang := [],
    c1mag := [], c2mag := [], c3mag := [], c1ang := [], c2ang := [], c3ang := [] }

/-- The calls of `push_back`. -/
def collect (v : SampleVectors) (loop : UpmuSample) : SampleVectors :=
  { l1mag := v.l1mag ++ [loop .l1mag]
    l2mag := v.l2mag ++ [loop .l2mag]
    l3mag := v.l3mag ++ [loop .l3mag]
    l1ang := v.l1ang ++ [loop .l1ang]
    l2ang := v.l2ang ++ [loop .l2ang]
    l3ang := v.l3ang ++ [loop .l3ang]
    c1mag := v.c1mag ++ [loop .c1mag]
    c2mag := v.c2mag ++ [loop .c2mag]
    c3mag := v.c3mag ++ [loop .c3mag]
    c1ang := v.c1ang ++ [loop .c1ang]
    c2ang := v.c2ang ++ [loop .c2ang]
    c3ang := v.c3ang ++ [loop .c3ang] }

/-- `erase(begin(),begin()+samples_to_skip)` of one vector -/
def eraseVector (vector : Samples) (skip : Int32) : Except Fault Samples :=
  if skip.toInt.toNat ≤ vector.length then
    .ok (vector.drop skip.toInt.toNat)
  else
    .error .undefined

/-- The calls of `erase`. -/
def erase (v : SampleVectors) (skip : Int32) : Except Fault SampleVectors := do
  let l1mag ← eraseVector v.l1mag skip
  let l2mag ← eraseVector v.l2mag skip
  let l3mag ← eraseVector v.l3mag skip
  let l1ang ← eraseVector v.l1ang skip
  let l2ang ← eraseVector v.l2ang skip
  let l3ang ← eraseVector v.l3ang skip
  let c1mag ← eraseVector v.c1mag skip
  let c2mag ← eraseVector v.c2mag skip
  let c3mag ← eraseVector v.c3mag skip
  let c1ang ← eraseVector v.c1ang skip
  let c2ang ← eraseVector v.c2ang skip
  let c3ang ← eraseVector v.c3ang skip
  return { l1mag, l2mag, l3mag, l1ang, l2ang, l3ang, c1mag, c2mag, c3mag, c1ang, c2ang, c3ang }

end SampleVectors

/-- `if (requested[k])` with its block -/
def addIfRequested (requested : Bool) (name : String) (compression : Compression)
    (vector : Samples) (stepsize : Int32) (sampleset : List SampleSet)
    : Handling (List SampleSet) := do
  if requested then
    let output ← compress compression vector stepsize
    return sampleset ++ [{ name, compression := compression.label, sample := output }]
  else
    return sampleset

/-- `requested[k]` -/
def Request.flag (r : Request) (k : Nat) : Bool := r.requested.getD k false

/-- The twelve blocks of a turn. -/
def addRequested (r : Request) (v : SampleVectors) (compression : Compression)
    (sampleset : List SampleSet)
    : Handling (List SampleSet) := do
  let sampleset ← addIfRequested (r.flag 0) "L1mag" compression v.l1mag r.stepsize sampleset
  let sampleset ← addIfRequested (r.flag 1) "L2mag" compression v.l2mag r.stepsize sampleset
  let sampleset ← addIfRequested (r.flag 2) "L3mag" compression v.l3mag r.stepsize sampleset
  let sampleset ← addIfRequested (r.flag 3) "L1ang" compression v.l1ang r.stepsize sampleset
  let sampleset ← addIfRequested (r.flag 4) "L2ang" compression v.l2ang r.stepsize sampleset
  let sampleset ← addIfRequested (r.flag 5) "L3ang" compression v.l3ang r.stepsize sampleset
  let sampleset ← addIfRequested (r.flag 6) "C1mag" compression v.c1mag r.stepsize sampleset
  let sampleset ← addIfRequested (r.flag 7) "C2mag" compression v.c2mag r.stepsize sampleset
  let sampleset ← addIfRequested (r.flag 8) "C3mag" compression v.c3mag r.stepsize sampleset
  let sampleset ← addIfRequested (r.flag 9) "C1ang" compression v.c1ang r.stepsize sampleset
  let sampleset ← addIfRequested (r.flag 10) "C2ang" compression v.c2ang r.stepsize sampleset
  addIfRequested (r.flag 11) "C3ang" compression v.c3ang r.stepsize sampleset

/-- One turn of the loop over the compressions. -/
def addCompression (r : Request) (v : SampleVectors) (sampleset : List SampleSet)
    (compression : Compression)
    : Handling (List SampleSet) :=
  if !testBit r.compressionMethod compression.bit then
    return sampleset
  else
    addRequested r v compression sampleset

/-- One turn of the loop over the rows. -/
def collectRow (s : Oldest × SampleVectors) (row : CassRow)
    : Except Fault (Oldest × SampleVectors) :=
  row.data.samples.map fun samples =>
    (s.1.see row.timestampMsec, samples.foldl SampleVectors.collect s.2)

/-- `handleRows` with the twelve vectors. -/
def handleVectors (r : Request) (s : Progress) (device : Text) (rows : List CassRow)
    : Handling Progress := do
  let (oldest, v) ← ofExcept (rows.foldlM collectRow (s.oldest, .empty))
  let v ← ofExcept (v.erase r.skip)
  let timestampcass := skipTime oldest.timestampcass r.skip
  let sampleset ← Compression.all.foldlM (addCompression r v) []
  let covered ← readNumsamples
  let numsamples ← readNumsamples
  return {
    oldest := { oldest with timestampcass }
    payload := {
      timestampstart := some timestampcass.toUInt64
      timestampend := some (endTime timestampcass covered r.stepsize).toUInt64
      numsamples := some numsamples.toUInt32
      numdevices := some (Int32.ofNat r.devices.length)
      outputsets := s.payload.outputsets ++ [{ deviceid := device, sampleset }]
    }
    errorcode := s.errorcode
  }

-----------------------------------------------------------------------------------------
-- The vectors of a list of samples
-----------------------------------------------------------------------------------------

namespace SampleVectors

def get (v : SampleVectors) : Channel → Samples
  | .l1mag => v.l1mag
  | .l2mag => v.l2mag
  | .l3mag => v.l3mag
  | .l1ang => v.l1ang
  | .l2ang => v.l2ang
  | .l3ang => v.l3ang
  | .c1mag => v.c1mag
  | .c2mag => v.c2mag
  | .c3mag => v.c3mag
  | .c1ang => v.c1ang
  | .c2ang => v.c2ang
  | .c3ang => v.c3ang

/-- Each vector has the values of one channel. -/
def ofSamples (samples : List UpmuSample) : SampleVectors :=
  { l1mag := samples.map (· .l1mag), l2mag := samples.map (· .l2mag)
    l3mag := samples.map (· .l3mag), l1ang := samples.map (· .l1ang)
    l2ang := samples.map (· .l2ang), l3ang := samples.map (· .l3ang)
    c1mag := samples.map (· .c1mag), c2mag := samples.map (· .c2mag)
    c3mag := samples.map (· .c3mag), c1ang := samples.map (· .c1ang)
    c2ang := samples.map (· .c2ang), c3ang := samples.map (· .c3ang) }

@[simp] theorem get_ofSamples (samples : List UpmuSample) (channel : Channel)
    : (ofSamples samples).get channel = samples.map (· channel) := by
  cases channel <;> rfl

theorem collect_ofSamples (samples : List UpmuSample) (loop : UpmuSample)
    : (ofSamples samples).collect loop = ofSamples (samples ++ [loop]) := by
  simp only [collect, ofSamples, List.map_append, List.map_cons, List.map_nil]

theorem foldl_collect (samples more : List UpmuSample)
    : more.foldl collect (ofSamples samples) = ofSamples (samples ++ more) := by
  induction more generalizing samples with
  | nil => rw [List.append_nil, List.foldl_nil]
  | cons loop more ih =>
      rw [List.foldl_cons, collect_ofSamples, ih, List.append_assoc, List.singleton_append]

theorem erase_ofSamples (samples : List UpmuSample) (skip : Int32)
    : (ofSamples samples).erase skip = (eraseFront samples skip).map ofSamples := by
  by_cases inside : skip.toInt.toNat ≤ samples.length
  · have each (channel : Channel)
        : eraseVector (samples.map (· channel)) skip
          = .ok ((samples.drop skip.toInt.toNat).map (· channel)) := by
      rw [eraseVector, List.length_map, if_pos inside, List.map_drop]
    rw [eraseFront, if_pos inside, erase]
    simp only [ofSamples, each]
    rfl
  · have first : eraseVector (ofSamples samples).l1mag skip = .error .undefined := by
      rw [eraseVector, ofSamples, List.length_map, if_neg inside]
    rw [eraseFront, if_neg inside, erase, first]
    rfl

end SampleVectors

open SampleVectors

theorem collectRow_eq (oldest : Oldest) (samples : List UpmuSample) (row : CassRow)
    : collectRow (oldest, ofSamples samples) row
      = (readRow (oldest, samples) row).map fun s => (s.1, ofSamples s.2) := by
  rw [collectRow, readRow]
  cases row.data.samples with
  | error fault => rfl
  | ok more =>
      change Except.ok (_, more.foldl collect (ofSamples samples)) = _
      rw [foldl_collect]
      rfl

theorem foldlM_collectRow (rows : List CassRow) (oldest : Oldest) (samples : List UpmuSample)
    : rows.foldlM collectRow (oldest, ofSamples samples)
      = (rows.foldlM readRow (oldest, samples)).map fun s => (s.1, ofSamples s.2) := by
  induction rows generalizing oldest samples with
  | nil => rfl
  | cons row rows ih =>
      rw [List.foldlM_cons, List.foldlM_cons, collectRow_eq]
      cases readRow (oldest, samples) row with
      | error fault => rfl
      | ok s => exact ih s.1 s.2

-----------------------------------------------------------------------------------------
-- The sample sets
-----------------------------------------------------------------------------------------

section Sets

variable {m : Type → Type} [Monad m] [LawfulMonad m] {α β : Type}

/-- A loop that appends one output for each input. -/
theorem foldlM_append_eq (f : α → m β) (xs : List α) (ys : List β)
    : xs.foldlM (fun ys x => (fun y => ys ++ [y]) <$> f x) ys = (ys ++ ·) <$> xs.mapM f := by
  induction xs generalizing ys with
  | nil => simp
  | cons x xs ih => simp [ih]

theorem foldlM_flatMap {γ : Type} (g : γ → List α) (f : β → α → m β) (cs : List γ) (b : β)
    : (cs.flatMap g).foldlM f b = cs.foldlM (fun b c => (g c).foldlM f b) b := by
  induction cs generalizing b with
  | nil => rfl
  | cons c cs ih =>
      rw [List.flatMap_cons, List.foldlM_append, List.foldlM_cons]
      exact congrArg _ (funext ih)

/-- A loop over the channels whose flags are set, by induction over the channels. -/
theorem foldlM_flags (f : β → Channel → m β) (flags : List Bool) (channels : List Channel)
    (k : Nat) (b : β)
    : ((channels.zip (flags.drop k)).filterMap
          fun flag => if flag.2 then some flag.1 else none).foldlM f b
      = (channels.zipIdx k).foldlM
          (fun b channel => if flags.getD channel.2 false then f b channel.1 else pure b) b := by
  induction channels generalizing k b with
  | nil => rfl
  | cons channel channels ih =>
      rw [List.zipIdx_cons, List.foldlM_cons]
      by_cases inside : k < flags.length
      · rw [List.drop_eq_getElem_cons inside, List.zip_cons_cons, List.filterMap_cons]
        dsimp only
        rw [List.getD_eq_getElem _ _ inside]
        cases flags[k] with
        | false =>
            simp only [Bool.false_eq_true, if_false, pure_bind]
            exact ih (k + 1) b
        | true =>
            simp only [if_true, List.foldlM_cons]
            exact congrArg _ (funext (ih (k + 1)))
      · have unflagged := ih (k + 1) b
        rw [List.drop_eq_nil_of_le (by omega), List.zip_nil_right] at unflagged ⊢
        dsimp only
        rw [List.getD_eq_default _ _ (by omega), if_neg Bool.false_ne_true, pure_bind]
        exact unflagged

end Sets

/-- A block is `addSampleset` under a condition. -/
theorem addIfRequested_eq (requested : Bool) (compression : Compression) (channel : Channel)
    (samples : List UpmuSample) (stepsize : Int32) (sampleset : List SampleSet)
    : addIfRequested requested channel.name compression (samples.map (· channel)) stepsize
        sampleset
      = if requested then
          (fun set => sampleset ++ [set]) <$> addSampleset samples stepsize (compression, channel)
        else
          pure sampleset := by
  rw [addIfRequested, addSampleset]
  cases requested with
  | false => rfl
  | true => simp

/-- The twelve blocks are a loop over the requested channels. -/
theorem addRequested_eq (r : Request) (samples : List UpmuSample) (compression : Compression)
    (sampleset : List SampleSet)
    : addRequested r (ofSamples samples) compression sampleset
      = (r.channels.map (compression, ·)).foldlM
          (fun sampleset set =>
            (fun added => sampleset ++ [added]) <$> addSampleset samples r.stepsize set)
          sampleset := by
  have blocks (k : Nat) (channel : Channel) (sampleset : List SampleSet) :=
    addIfRequested_eq (r.flag k) compression channel samples r.stepsize sampleset
  have flags := @foldlM_flags Handling _ _ _
    (fun sampleset channel =>
      (fun added => sampleset ++ [added])
        <$> addSampleset samples r.stepsize (compression, channel))
    r.requested Channel.all 0 sampleset
  rw [List.drop_zero] at flags
  rw [List.foldlM_map, Request.channels, flags]
  change _ = Channel.all.zipIdx.foldlM
    (fun sampleset channel =>
      if r.flag channel.2 then
        (fun added => sampleset ++ [added])
          <$> addSampleset samples r.stepsize (compression, channel.1)
      else
        pure sampleset)
    sampleset
  simp only [← blocks]
  rw [← bind_pure (addRequested r (ofSamples samples) compression sampleset), addRequested]
  simp only [bind_assoc]
  rfl

/-- All blocks of all turns add the sample sets of the request in their order. -/
theorem foldlM_addCompression (r : Request) (samples : List UpmuSample)
    : Compression.all.foldlM (addCompression r (ofSamples samples)) []
      = r.sets.mapM (addSampleset samples r.stepsize) := by
  rw [← id_map (r.sets.mapM _)]
  refine Eq.trans ?_ (foldlM_append_eq (addSampleset samples r.stepsize) r.sets [])
  rw [Request.sets, foldlM_flatMap, Request.compressions, List.foldlM_filter]
  refine congrArg (fun turn => Compression.all.foldlM turn []) (funext fun sampleset =>
    funext fun compression => ?_)
  rw [addCompression, addRequested_eq]
  cases testBit r.compressionMethod compression.bit <;> rfl

/-- With its twelve vectors, the handler does what it does with one list of samples. -/
theorem handleVectors_eq : handleVectors = handleRows := by
  funext r s device rows
  rw [handleVectors, handleRows]
  have read := foldlM_collectRow rows s.oldest []
  change rows.foldlM collectRow (s.oldest, SampleVectors.empty) = _ at read
  rw [read, ← readRows]
  cases readRows s.oldest rows with
  | error fault => rfl
  | ok p =>
      have erased := erase_ofSamples p.2 r.skip
      change (ofExcept ((ofSamples p.2).erase r.skip) >>= _ : Handling Progress)
        = (ofExcept (eraseFront p.2 r.skip) >>= _)
      rw [erased]
      cases eraseFront p.2 r.skip with
      | error fault => rfl
      | ok left =>
          change (Compression.all.foldlM (addCompression r (ofSamples left)) [] >>= _)
            = (r.sets.mapM (addSampleset left r.stepsize) >>= _ : Handling Progress)
          rw [foldlM_addCompression]

end Sparcs.CassSpeed
