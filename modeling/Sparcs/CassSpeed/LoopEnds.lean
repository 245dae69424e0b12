import Sparcs.CassSpeed.CompressedSteps
import Sparcs.CassSpeed.HandlerRows
import Sparcs.CassSpeed.Interleaving

/-! The loops of the compressors for any step size that a request holds. A negative one is a
huge unsigned number, with which the index soon leaves the vector; with zero it stays.
-/

namespace Sparcs.CassSpeed

open FuelLoop SignedArithmetic

section Ends

variable {α : Type} {input : List α} {stepsize : UInt32}

/-- The loop over the samples of a step ends wherever it starts. -/
theorem blockTurn_halts (combine : α → α → α) (input : List α) (stop : UInt32) (s : Int32 × α)
    : Halts (blockTurn combine input stop) s
      ∧ (runLoop (blockTurn combine input stop) s ≠ .error .runsOn) := by
  refine runLoop_total (fun _ => True) (· ≠ .error .runsOn)
    (fun s => stop.toNat - s.1.toUInt32.toNat) ?_ trivial
    (lt_of_le_of_lt (Nat.sub_le _ _) stop.toNat_lt)
  rintro ⟨j, acc⟩ -
  rw [blockTurn]
  dsimp only
  have bounded := stop.toNat_lt
  split_ifs with before
  · rw [UInt32.lt_iff_toNat_lt] at before
    rw [sampleAt]
    cases input[(asSize j).toNat]? with
    | none => exact fun same => by cases same
    | some v =>
        have next : (j + 1).toUInt32.toNat = j.toUInt32.toNat + 1 := succ_toNat rfl (by omega)
        refine ⟨trivial, ?_⟩
        dsimp only
        omega
  · exact fun same => by cases same

/-- The value of a step throws outside the vector, and never runs on. -/
structure Guards (value : Int32 → Except Fault α) (input : List α) : Prop where
  inside : ∀ i v, value i = .ok v → i.toUInt32.toNat < 2147483648 ∧ i.toUInt32.toNat < input.length
  ends : ∀ i, value i ≠ .error .runsOn

theorem sampleAt_guards (memory : input.length < 2 ^ 63) : Guards (sampleAt input) input where
  inside i v sample := by
    obtain ⟨small, found⟩ := (sampleAt_eq_ok_iff memory rfl).mp sample
    exact ⟨small, (List.getElem?_eq_some_iff.mp found).1⟩
  ends i := by
    rw [sampleAt]
    cases input[(asSize i).toNat]? <;> simp

theorem blockValue_guards (combine : α → α → α) (finish : α → α)
    (memory : input.length < 2 ^ 63)
    : Guards (fun i => (blockValue combine input stepsize i).map finish) input := by
  have guards := sampleAt_guards memory
  constructor
  · intro i v returned
    cases sample : sampleAt input i with
    | error fault => rw [blockValue, sample] at returned; cases returned
    | ok first => exact guards.inside i first sample
  · intro i
    cases sample : sampleAt input i with
    | error fault =>
        rw [blockValue, sample]
        intro same
        refine guards.ends i (sample.trans ?_)
        injection same with same
        rw [same]
    | ok first =>
        rw [blockValue, sample]
        have ends := (blockTurn_halts combine input (i.toUInt32 + stepsize) (i + 1, first)).2
        intro same
        refine ends ?_
        change Except.map finish (runLoop _ _) = _ at same
        cases result : runLoop (blockTurn combine input (i.toUInt32 + stepsize)) (i + 1, first) with
        | error fault =>
            rw [result] at same
            injection same with same
            rw [same]
        | ok v => rw [result] at same; cases same

variable {continues : UInt64 → Bool} {value : Int32 → Except Fault α}

/-- A loop over steps of any other size ends, with no more outputs than samples: before the
index leaves the vector it has passed one sample for each output.
-/
theorem stepTurn_halts (guards : Guards value input) (moves : stepsize ≠ 0)
    : Halts (stepTurn continues value stepsize) (0, [])
      ∧ stepLoop continues value stepsize ≠ .error .runsOn
      ∧ ∀ output, stepLoop continues value stepsize = .ok output →
        output.length ≤ input.length := by
  have positive : 0 < stepsize.toNat := by
    rw [Nat.pos_iff_ne_zero]
    exact fun zero => moves (UInt32.toNat.inj zero)
  have bounded := stepsize.toNat_lt
  refine runLoop_total
    (fun s : Int32 × List α => s.2.length ≤ input.length
      ∧ (s.1.toUInt32.toNat < 2147483648 →
        s.2.length ≤ s.1.toUInt32.toNat
        ∧ (stepsize.toNat < 2147483648 ∨ s.1.toUInt32.toNat = 0)))
    (fun result : Except Fault (List α) => result ≠ .error .runsOn
      ∧ ∀ output, result = .ok output → output.length ≤ input.length)
    (fun s => 2147483648 - s.1.toUInt32.toNat) ?_
    ⟨Nat.zero_le _, fun _ => ⟨Nat.zero_le _, .inr rfl⟩⟩ (by dsimp only; omega)
  rintro ⟨i, outputs⟩ ⟨few, passed⟩
  dsimp only at few passed
  rw [stepTurn]
  dsimp only
  split_ifs with goesOn
  · cases result : value i with
    | error fault =>
        refine ⟨fun same => ?_, fun output same => by cases same⟩
        injection same with same
        exact guards.ends i (result.trans (by rw [same]))
    | ok v =>
        obtain ⟨small, inside⟩ := guards.inside i v result
        obtain ⟨passed, slow⟩ := passed small
        have next : (i.toUInt32 + stepsize).toInt32.toUInt32.toNat
            = i.toUInt32.toNat + stepsize.toNat := next_toNat rfl (by omega)
        refine ⟨⟨?_, ?_⟩, ?_⟩
        · rw [List.length_append, List.length_singleton]
          omega
        · dsimp only
          rw [next, List.length_append, List.length_singleton]
          omega
        · dsimp only
          omega
  · refine ⟨fun same => (by cases same), fun output same => ?_⟩
    obtain rfl := Except.ok.inj same
    exact few

/-- With step size zero, a loop that begins goes on forever. -/
theorem stepTurn_runsOn {v : α} (goesOn : continues (asSize 0) = true) (first : value 0 = .ok v)
    : ¬Halts (stepTurn continues value 0) (0, []) := by
  refine @not_halts_of_invariant _ _ _ (fun s : Int32 × List α => s.1 = 0) ?_ _ rfl
  rintro ⟨i, outputs⟩ rfl
  refine ⟨(0, outputs ++ [v]), ?_, rfl⟩
  rw [stepTurn]
  dsimp only
  rw [if_pos goesOn, first]
  rfl

end Ends

-----------------------------------------------------------------------------------------
-- The loops of a request
-----------------------------------------------------------------------------------------

/-- The loop over the steps and the one over the samples of each step end. -/
def CombiningEnds (combine : Float32 → Float32 → Float32) (finish : Float32 → Float32)
    (input : Samples) (stepsize : UInt32)
    : Prop :=
  Halts (stepTurn (· ≤ sizeMinus input stepsize)
      (fun i => (blockValue combine input stepsize i).map finish) stepsize) (0, [])
  ∧ ∀ i first, Halts (blockTurn combine input (i.toUInt32 + stepsize)) (i + 1, first)

/-- The loops of a compressor end. -/
def Compression.LoopsEnd (input : Samples) (stepsize : UInt32) : Compression → Prop
  | .min => CombiningEnds (fun min v => if v < min then v else min) id input stepsize
  | .max => CombiningEnds (fun max v => if v > max then v else max) id input stepsize
  | .avg =>
      CombiningEnds (fun avg v => avg + v) (fun avg => avg / OfStepsize.ofStepsize stepsize)
        input stepsize
  | .skip => Halts (stepTurn (· < sizeMinus input stepsize) (sampleAt input) stepsize) (0, [])
  | .raw => True

/-- No more outputs than samples. -/
def Compression.Shortens (input : Samples) (stepsize : UInt32) (compression : Compression)
    : Prop :=
  ∀ output, compression.compressor input stepsize = .ok output → output.length ≤ input.length

section Vectors

variable {input : Samples} {stepsize : UInt32}

theorem combining_ends (memory : input.length < 2 ^ 63) (moves : stepsize ≠ 0)
    (combine : Float32 → Float32 → Float32) (finish : Float32 → Float32)
    : CombiningEnds combine finish input stepsize
      ∧ combineSteps combine finish input stepsize ≠ .error .runsOn
      ∧ ∀ output, combineSteps combine finish input stepsize = .ok output →
        output.length ≤ input.length := by
  obtain ⟨halts, ends, shortens⟩ := stepTurn_halts (blockValue_guards combine finish memory) moves
  exact ⟨⟨halts, fun i first => (blockTurn_halts combine input _ _).1⟩, ends, shortens⟩

/-- Any other step size than zero, by cases on the compressor. -/
theorem compressor_ends (memory : input.length < 2 ^ 63) (moves : stepsize ≠ 0)
    (compression : Compression)
    : compression.LoopsEnd input stepsize
      ∧ compression.compressor input stepsize ≠ .error .runsOn
      ∧ compression.Shortens input stepsize := by
  cases compression with
  | min => exact combining_ends memory moves _ _
  | max => exact combining_ends memory moves _ _
  | avg => exact combining_ends memory moves _ _
  | skip => exact stepTurn_halts (sampleAt_guards memory) moves
  | raw =>
      refine ⟨trivial, fun same => (by cases same), fun output same => ?_⟩
      obtain rfl := Except.ok.inj same
      exact le_rfl

/-- A step of no samples has the value of its first one. -/
theorem blockValue_zero (combine : Float32 → Float32 → Float32) {first : Float32}
    (sample : sampleAt input 0 = .ok first)
    : blockValue combine input 0 0 = .ok first := by
  rw [blockValue, sample]
  change runLoop (blockTurn combine input (Int32.toUInt32 0 + 0)) (0 + 1, first) = _
  refine (runLoop_total (fun s => s = (0 + 1, first)) (· = .ok first) (fun _ => 0) ?_ rfl
    (by decide)).2
  rintro _ rfl
  rfl

theorem first_sample (memory : input.length < 2 ^ 63) (nonempty : input ≠ [])
    : ∃ first, sampleAt input 0 = .ok first ∧ asSize 0 < sizeMinus input 0 := by
  have zero : (0 : Int32).toUInt32.toNat = 0 := rfl
  have filled := List.length_pos_iff.mpr nonempty
  refine ⟨input[0], (sampleAt_eq_ok_iff memory zero).mpr ⟨by decide, ?_⟩, ?_⟩
  · exact List.getElem?_eq_getElem filled
  · rw [UInt64.lt_iff_toNat_lt, asSize_toNat zero (by decide),
      sizeMinus_toNat (Nat.zero_le _) memory]
    exact filled

theorem combining_runsOn (memory : input.length < 2 ^ 63) (nonempty : input ≠ [])
    (combine : Float32 → Float32 → Float32) (finish : Float32 → Float32)
    : ¬CombiningEnds combine finish input 0 := by
  obtain ⟨first, sample, begins⟩ := first_sample memory nonempty
  have value : (blockValue combine input 0 0).map finish = .ok (finish first) := by
    rw [blockValue_zero combine sample]
    rfl
  exact fun ends => stepTurn_runsOn (decide_eq_true (UInt64.le_of_lt begins)) value ends.1

theorem combining_ends_nil (combine : Float32 → Float32 → Float32)
    (finish : Float32 → Float32)
    : CombiningEnds combine finish [] 0 :=
  ⟨⟨1, rfl⟩, fun _ _ => (blockTurn_halts combine [] _ _).1⟩

/-- Step size zero: only what has no loop, or no samples, ends. -/
theorem compressor_ends_zero_iff (memory : input.length < 2 ^ 63) (compression : Compression)
    : compression.LoopsEnd input 0 ∧ compression.Shortens input 0
      ↔ compression = .raw ∨ input = [] := by
  by_cases empty : input = []
  · rw [empty]
    simp only [or_true, iff_true]
    cases compression with
    | min => exact ⟨combining_ends_nil _ _, fun output same => by cases same⟩
    | max => exact ⟨combining_ends_nil _ _, fun output same => by cases same⟩
    | avg => exact ⟨combining_ends_nil _ _, fun output same => by cases same⟩
    | skip =>
        refine ⟨⟨1, rfl⟩, fun output same => ?_⟩
        cases same
        exact le_rfl
    | raw =>
        refine ⟨trivial, fun output same => ?_⟩
        cases same
        exact le_rfl
  · obtain ⟨first, sample, begins⟩ := first_sample memory empty
    simp only [empty, or_false]
    cases compression with
    | min => exact iff_of_false (fun both => combining_runsOn memory empty _ _ both.1) (by decide)
    | max => exact iff_of_false (fun both => combining_runsOn memory empty _ _ both.1) (by decide)
    | avg => exact iff_of_false (fun both => combining_runsOn memory empty _ _ both.1) (by decide)
    | skip =>
        refine iff_of_false (fun both => ?_) (by decide)
        exact stepTurn_runsOn (decide_eq_true begins) sample both.1
    | raw =>
        refine iff_of_true ⟨trivial, fun output same => ?_⟩ rfl
        cases same
        exact le_rfl

/-- A compressor's loops end just when its index moves, or it has none, or no samples. -/
theorem compressor_ends_iff (memory : input.length < 2 ^ 63) (compression : Compression)
    : compression.LoopsEnd input stepsize ∧ compression.Shortens input stepsize
      ↔ stepsize ≠ 0 ∨ compression = .raw ∨ input = [] := by
  by_cases zero : stepsize = 0
  · rw [zero, compressor_ends_zero_iff memory]
    simp
  · obtain ⟨ends, -, shortens⟩ := compressor_ends memory zero compression
    exact iff_of_true ⟨ends, shortens⟩ (.inl zero)

end Vectors

-----------------------------------------------------------------------------------------
-- The handler of a request
-----------------------------------------------------------------------------------------

section Handler

variable {β γ : Type}

/-- No loop of the function runs on. -/
def Handling.Ends (h : Handling β) : Prop := ∀ v, (h.eval v).1 ≠ .error .runsOn

namespace Handling

theorem Ends.pure (b : β) : (Pure.pure b : Handling β).Ends := by
  intro v
  simp

theorem ends_throw {fault : Fault} (other : fault ≠ .runsOn) : (throw fault : Handling β).Ends := by
  intro v
  simpa using other

theorem ends_ofExcept {e : Except Fault β} (ends : e ≠ .error .runsOn)
    : (ofExcept e : Handling β).Ends := by
  intro v
  simpa using ends

theorem Ends.bind {h : Handling β} {next : β → Handling γ} (ends : h.Ends)
    (nexts : ∀ b v, (h.eval v).1 = .ok b → (next b).Ends)
    : (h >>= next).Ends := by
  intro v
  rw [eval_bind]
  cases result : (h.eval v).1 with
  | error fault =>
      have other := ends v
      rw [result] at other
      simpa using other
  | ok b => exact nexts b v result _

theorem Ends.foldlM {turn : β → γ → Handling β} (turns : ∀ b c, (turn b c).Ends) (cs : List γ)
    (b : β)
    : (cs.foldlM turn b).Ends := by
  induction cs generalizing b with
  | nil => exact Ends.pure b
  | cons c cs ih => exact (turns b c).bind fun b _ _ => ih b

theorem Ends.mapM {f : γ → Handling β} {cs : List γ} (each : ∀ c ∈ cs, (f c).Ends)
    : (cs.mapM f).Ends := by
  induction cs with
  | nil => exact Ends.pure _
  | cons c cs ih =>
      rw [List.mapM_cons]
      exact (each c List.mem_cons_self).bind fun _ _ _ =>
        (ih fun other member => each other (List.mem_cons_of_mem _ member)).bind
          fun _ _ _ => Ends.pure _

end Handling

open Handling

/-- The rows that any query finds fit into the vectors. -/
def ArchiveFits (archive : Archive) : Prop :=
  ∀ query rows, archive query = some rows → (rows.flatMap CassRow.samples).length < 2 ^ 63

/-- A device whose rows fit, with a step size that moves on. -/
theorem handleRows_ends {r : Request} (moves : r.stepsize.toUInt32 ≠ 0) (s : Progress)
    (device : Text) {rows : List CassRow}
    (fits : (rows.flatMap CassRow.samples).length < 2 ^ 63)
    : (handleRows r s device rows).Ends := by
  refine (ends_ofExcept (readRows_ends _ _)).bind fun read v result => ?_
  rw [eval_ofExcept] at result
  obtain ⟨-, -, samples⟩ := readRows_eq_ok_iff.mp result
  refine (ends_ofExcept (eraseFront_ends _ _)).bind fun left v result => ?_
  rw [eval_ofExcept] at result
  obtain ⟨-, rfl⟩ := eraseFront_eq_ok_iff.mp result
  refine (Ends.mapM fun set _ => ?_).bind fun _ _ _ => ?_
  · refine Ends.bind (Ends.bind (ends_ofExcept ?_) fun _ _ _ => ?_) fun _ _ _ => Ends.pure _
    · refine (compressor_ends ?_ moves set.1).2.1
      rw [List.length_map, List.length_drop, samples]
      omega
    · exact Ends.bind (fun v => by simp) fun _ _ _ => Ends.pure _
  · exact Ends.bind (fun v => by simp) fun _ _ _ =>
      Ends.bind (fun v => by simp) fun _ _ _ => Ends.pure _

/-- No archive makes the handler of such a request run on. -/
theorem socketHandler_ends {archive : Archive} (fits : ArchiveFits archive) {c : Connection}
    {r : Request} (parsed : parseRequest (receive c.sent c.beyond) = .ok r)
    (moves : r.stepsize.toUInt32 ≠ 0) (v : Int32)
    : (socketHandler archive c).alone v ≠ .error .runsOn := by
  have ends : (handle archive c).Ends := by
    rw [handle, parsed]
    split_ifs
    · refine Ends.bind (ends_ofExcept (by simp)) fun r' v same => ?_
      rw [eval_ofExcept] at same
      obtain rfl := Except.ok.inj same
      refine Ends.bind ?_ fun _ _ _ => Ends.pure _
      rw [handleDevices]
      split_ifs
      · exact ends_throw (by decide)
      · refine Ends.foldlM (fun s device => ?_) _ _
        rw [handleDevice]
        cases found : archive (r.querystr device) with
        | none => exact Ends.pure _
        | some rows => exact handleRows_ends moves s device (fits _ _ found)
    · exact Ends.pure _
  rw [socketHandler_alone]
  split_ifs
  · simp
  · have notRunsOn := ends v
    cases outcome : ((handle archive c).eval v).1 with
    | ok response => simp [caught]
    | error fault =>
        rw [outcome] at notRunsOn
        cases fault <;> simp [caught] at notRunsOn ⊢

end Handler

theorem toUInt32_ne_zero_iff (stepsize : Int32) : stepsize.toUInt32 ≠ 0 ↔ stepsize ≠ 0 := by
  refine not_congr ⟨fun same => ?_, fun same => congrArg Int32.toUInt32 same⟩
  rw [← Int32.toInt32_toUInt32 stepsize, same]
  rfl

/-- Of any accepted request, each loop ends with no more outputs than samples just when the
step size is not zero, or the compressor copies, or there are no samples; and no archive hangs
the handler of a request with another step size.
-/
theorem request_loopsEnd_iff {strbuffer : Text} {r : Request}
    (parsed : parseRequest strbuffer = .ok r)
    : (∀ set ∈ r.sets, ∀ samples : List UpmuSample, samples.length < 2 ^ 63 →
        (set.1.LoopsEnd (samples.map (· set.2)) r.stepsize.toUInt32
          ∧ set.1.Shortens (samples.map (· set.2)) r.stepsize.toUInt32
        ↔ r.stepsize ≠ 0 ∨ set.1 = .raw ∨ samples = []))
      ∧ (r.stepsize ≠ 0 → ∀ (archive : Archive) (c : Connection) (v : Int32),
        ArchiveFits archive → receive c.sent c.beyond = strbuffer →
        (socketHandler archive c).alone v ≠ .error .runsOn) := by
  constructor
  · intro set _ samples memory
    rw [compressor_ends_iff (by rwa [List.length_map]), toUInt32_ne_zero_iff, List.map_eq_nil_iff]
  · rintro moves archive c v fits rfl
    exact socketHandler_ends fits parsed ((toUInt32_ne_zero_iff _).mpr moves) v

/-- The request for the minimum of each two samples of a second. -/
theorem request_loopsEnd_iff_two
    : ∃ r, parseRequest
          "1;P3001199;1;1480355400000;1480355401000;1;0;0;0;0;0;0;0;0;0;0;0;1;2".toList = .ok r
      ∧ Compression.min.LoopsEnd (zeroSecond.samples.map (· .l1mag)) r.stepsize.toUInt32
      ∧ (socketHandler (fun _ => some [zeroSecond]) (askFor
          "1;P3001199;1;1480355400000;1480355401000;1;0;0;0;0;0;0;0;0;0;0;0;1;2")).alone 0
        ≠ .error .runsOn := by
  have parsed
      : parseRequest
          "1;P3001199;1;1480355400000;1480355401000;1;0;0;0;0;0;0;0;0;0;0;0;1;2".toList
        = .ok ⟨["P3001199".toList], 1, "1480355400000".toList, "1480355401000".toList,
            true :: List.replicate 11 false, 1, 2⟩ := by
    decide +kernel
  obtain ⟨ends, handled⟩ := request_loopsEnd_iff parsed
  refine ⟨_, parsed, ?_, ?_⟩
  · exact ((ends (.min, .l1mag) (by decide) zeroSecond.samples (by decide)).mpr
      (.inl (by decide))).1
  · refine handled (by decide) _ _ _ ?_ (by decide +kernel)
    rintro _ _ ⟨⟩
    decide

/-- With step size zero, the loop for the same second never ends. -/
theorem zeroStep_runsOn
    : ∃ r, parseRequest
          "1;P3001199;1;1480355400000;1480355401000;1;0;0;0;0;0;0;0;0;0;0;0;1;0".toList = .ok r
      ∧ (.min, .l1mag) ∈ r.sets
      ∧ ¬Compression.min.LoopsEnd (zeroSecond.samples.map (· .l1mag)) r.stepsize.toUInt32 := by
  refine ⟨⟨["P3001199".toList], 1, "1480355400000".toList, "1480355401000".toList,
    true :: List.replicate 11 false, 1, 0⟩, by decide +kernel, by decide, ?_⟩
  exact combining_runsOn (by decide) (by decide) _ _

end Sparcs.CassSpeed
