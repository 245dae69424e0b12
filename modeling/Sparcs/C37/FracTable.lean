import Sparcs.C37.LearnedSecond

/-! The indices with which the reformatter reads and writes `fracSecValues`. -/

namespace Sparcs.C37

open OutputRun (Every)

namespace C37Reformat

-----------------------------------------------------------------------------------------
-- The indices of one call
-----------------------------------------------------------------------------------------

/-- The indices that a frame uses in the state `syncToSec`. -/
def syncIndices (r : C37Reformat) (fracSec : UInt32) : List Nat :=
  if ¬r.syncStarted then
    if fracSec = 0 then [0] else []
  else
    -- The condition is `(sec = presentSec + 1) && (fracSec == 0)`, with an assignment.
    let sec := r.presentSec + 1
    if sec ≠ 0 ∧ fracSec = 0 then []
    else if sec < r.presentSec then []
    else [r.sampleCnt.toNat]

/-- The indices that a frame uses in the state `fillBuffer`: one for the comparison with the
expected fraction, and after a gap those of the search.
-/
def fillIndices (r : C37Reformat) (fracSec sec : UInt32) : List Nat :=
  if sec = r.presentSec ∧ fracSec ≠ 0 then
    [r.currentSampleCnt.toNat]
  else if sec = r.presentSec + 1 ∧ fracSec = 0 then
    []
  else
    match (List.range r.sampleCnt.toNat).find? (fun i => fracSec = r.fracSecValues i) with
    | some i => List.range (i + 1)
    | none => List.range r.sampleCnt.toNat

/-- The indices into `fracSecValues` of a call of `processC37event`, in order. -/
def tableIndices (r : C37Reformat) (frame : C37Buffer) : List Nat :=
  if frame.msgLenBytes ≠ c37DatumTypicalLen then
    []
  else
    match r.currentState with
    | .syncToSec => r.syncIndices (fracTime frame)
    | .fillBuffer => r.fillIndices (fracTime frame) (time frame)

/-- A call stays inside the array. -/
def InTable (r : C37Reformat) (frame : C37Buffer) : Prop :=
  ∀ index ∈ r.tableIndices frame, index < fracSecValuesLen

instance (r : C37Reformat) (frame : C37Buffer) : Decidable (r.InTable frame) :=
  inferInstanceAs (Decidable (∀ index ∈ _, _))

-----------------------------------------------------------------------------------------
-- Frames that are counted
-----------------------------------------------------------------------------------------

/-- The counter of the state that the machine is in. -/
def counter (r : C37Reformat) : UInt16 :=
  match r.currentState with
  | .syncToSec => r.sampleCnt
  | .fillBuffer => r.currentSampleCnt

/-- The frame is a later one of the second under way, for which the counter advances. The
synchronisation does not look at its second. (In the last second of the clock every frame
makes it give up.)
-/
def Counted (r : C37Reformat) (frame : C37Buffer) : Prop :=
  fracTime frame ≠ 0
  ∧ match r.currentState with
    | .syncToSec => r.syncStarted = true ∧ r.presentSec + 1 ≠ 0
    | .fillBuffer => time frame = r.presentSec

section Step

variable {r next : C37Reformat} {frame : C37Buffer} {out : List EventBuffer}

theorem tableIndices_foreign (foreign : ¬IsStd frame) : r.tableIndices frame = [] :=
  if_pos foreign

theorem tableIndices_std (std : IsStd frame)
    : r.tableIndices frame
      = match r.currentState with
        | .syncToSec => r.syncIndices (fracTime frame)
        | .fillBuffer => r.fillIndices (fracTime frame) (time frame) := by
  have standard : ¬frame.msgLenBytes ≠ c37DatumTypicalLen := not_not.mpr std
  rw [tableIndices, if_neg standard]

/-- A counted frame uses the counter as its index. -/
theorem Counted.tableIndices (counted : r.Counted frame) (std : IsStd frame)
    : r.tableIndices frame = [r.counter.toNat] := by
  obtain ⟨frac, inState⟩ := counted
  rw [tableIndices_std std, counter]
  cases state : r.currentState with
  | syncToSec =>
      simp only [state] at inState ⊢
      obtain ⟨started, notLast⟩ := inState
      simp [syncIndices, started, frac, not_succ_lt notLast]
  | fillBuffer =>
      simp only [state] at inState ⊢
      rw [fillIndices, if_pos ⟨inState, frac⟩]

/-- No more entries are learned than the array has. -/
def Bounded (r : C37Reformat) : Prop :=
  r.sampleCnt.toNat ≤ fracSecValuesLen

/-- A frame that fills the buffer leaves the table, and its number of entries or none. -/
theorem fillStep_keeps (r : C37Reformat) (fracSec soc : UInt32) (frame : C37Buffer)
    : (r.fillStep fracSec soc frame).1.fracSecValues = r.fracSecValues
      ∧ ((r.fillStep fracSec soc frame).1.sampleCnt = r.sampleCnt
        ∨ (r.fillStep fracSec soc frame).1.sampleCnt = 0) := by
  unfold fillStep
  split
  · exact ⟨rfl, .inl rfl⟩
  · split
    · exact ⟨rfl, .inl rfl⟩
    · dsimp only
      split
      · exact ⟨rfl, .inl rfl⟩
      · exact ⟨rfl, .inr rfl⟩

theorem Bounded.step (bounded : r.Bounded) (received : r.receive frame = some (next, out))
    : next.Bounded := by
  by_cases std : IsStd frame
  · cases state : r.currentState with
    | syncToSec =>
        rw [receive_sync std state, Option.map_eq_some_iff] at received
        obtain ⟨next', stepped, same⟩ := received
        obtain ⟨rfl, rfl⟩ := Prod.mk.inj same
        unfold syncStep at stepped
        dsimp only at stepped
        split_ifs at stepped with started second healthy back room begins <;>
          obtain rfl := Option.some.inj stepped
        · exact bounded
        · exact Nat.zero_le _
        · exact Nat.zero_le _
        · change (r.sampleCnt + 1).toNat ≤ fracSecValuesLen
          rw [fracSecValuesLen] at room ⊢
          rw [UInt16.toNat_add]
          change (r.sampleCnt.toNat + 1) % 2 ^ 16 ≤ 512
          omega
        · change (1 : UInt16).toNat ≤ fracSecValuesLen
          decide
        · exact bounded
    | fillBuffer =>
        rw [receive_fill std state] at received
        have keeps := (r.fillStep_keeps (fracTime frame) (time frame) frame).2
        rw [Option.some.inj received] at keeps
        rcases keeps with same | cleared
        · rw [Bounded, same]
          exact bounded
        · rw [Bounded, cleared]
          exact Nat.zero_le _
  · rw [receive_nonStd std] at received
    obtain ⟨rfl, _⟩ := Prod.mk.inj (Option.some.inj received)
    exact bounded

/-- Other frames stay inside the array: the search ends before the learned count. -/
theorem Bounded.inTable (bounded : r.Bounded) (other : ¬r.Counted frame) : r.InTable frame := by
  by_cases std : IsStd frame
  · rw [InTable, tableIndices_std std]
    cases state : r.currentState with
    | syncToSec =>
        simp only [Counted, state] at other ⊢
        unfold syncIndices
        dsimp only
        split_ifs with started second back begins <;>
          simp only [List.not_mem_nil, List.mem_singleton, false_implies, implies_true,
            forall_eq]
        · exfalso
          refine other ⟨?_, started, ?_⟩
          · intro first
            refine back ?_
            have last : r.presentSec + 1 = 0 := by
              by_contra notLast
              exact second ⟨notLast, first⟩
            exact lt_of_succ_eq_zero last
          · intro last
            exact back (lt_of_succ_eq_zero last)
        · decide
    | fillBuffer =>
        simp only [Counted, state] at other ⊢
        have notSave : ¬(time frame = r.presentSec ∧ fracTime frame ≠ 0) :=
          fun save => other ⟨save.2, save.1⟩
        rw [fillIndices, if_neg notSave]
        split_ifs
        · simp
        · intro index member
          split at member
          · next i found =>
              have inside := List.mem_range.mp (List.mem_of_find?_eq_some found)
              have index := List.mem_range.mp member
              exact lt_of_lt_of_le (lt_of_lt_of_le index inside) bounded
          · exact lt_of_lt_of_le (List.mem_range.mp member) bounded
  · rw [InTable, tableIndices_foreign std]
    simp

/-- A call writes no entry but those at its indices. -/
theorem receive_fracSecValues {i : Nat} (received : r.receive frame = some (next, out))
    (outside : i ∉ r.tableIndices frame)
    : next.fracSecValues i = r.fracSecValues i := by
  by_cases std : IsStd frame
  · rw [tableIndices_std std] at outside
    cases state : r.currentState with
    | syncToSec =>
        simp only [state] at outside
        rw [receive_sync std state, Option.map_eq_some_iff] at received
        obtain ⟨next', stepped, same⟩ := received
        obtain ⟨rfl, rfl⟩ := Prod.mk.inj same
        unfold syncIndices at outside
        unfold syncStep at stepped
        dsimp only at stepped outside
        split_ifs at stepped outside <;>
          obtain rfl := Option.some.inj stepped <;>
          first
          | rfl
          | exact Function.update_of_ne (List.ne_of_not_mem_cons outside) _ _
    | fillBuffer =>
        rw [receive_fill std state] at received
        have keeps := (r.fillStep_keeps (fracTime frame) (time frame) frame).1
        rw [Option.some.inj received] at keeps
        rw [keeps]
  · rw [receive_nonStd std] at received
    obtain ⟨rfl, _⟩ := Prod.mk.inj (Option.some.inj received)
    rfl

/-- A frame that is counted inside the array advances the counter. -/
theorem Counted.step (counted : r.Counted frame) (std : IsStd frame)
    (room : r.counter.toNat < fracSecValuesLen)
    : ∃ next, r.receive frame = some (next, []) ∧ next.counter = r.counter + 1 := by
  obtain ⟨frac, inState⟩ := counted
  cases state : r.currentState with
  | syncToSec =>
      simp only [counter, state] at inState room ⊢
      obtain ⟨started, notLast⟩ := inState
      have notSecond : ¬(r.presentSec + 1 ≠ 0 ∧ fracTime frame = 0) := fun second =>
        frac second.2
      let next : C37Reformat :=
        { r with
          fracSecValues := Function.update r.fracSecValues r.sampleCnt.toNat (fracTime frame)
          sampleCnt := r.sampleCnt + 1 }
      refine ⟨next, ?_, ?_⟩
      · rw [receive_sync std state, syncStep, if_neg (by simp [started])]
        simp only [notSecond, not_succ_lt notLast, room, if_false, if_true]
        rfl
      · have same : next.currentState = .syncToSec := state
        simp only [same]
        rfl
  | fillBuffer =>
      simp only [counter, state] at inState ⊢
      let next : C37Reformat :=
        { r.saveC37event frame with currentSampleCnt := r.currentSampleCnt + 1 }
      refine ⟨next, ?_, ?_⟩
      · rw [receive_fill std state, fillStep, if_pos ⟨inState, frac⟩]
        rfl
      · have same : next.currentState = .fillBuffer := state
        simp only [same]
        rfl

/-- Any other frame leaves or sets the counter to a number of learned entries at most. -/
theorem Bounded.counter_set (bounded : r.Bounded) (std : IsStd frame)
    (other : ¬r.Counted frame) (received : r.receive frame = some (next, out))
    : next.counter.toNat ≤ fracSecValuesLen := by
  cases state : r.currentState with
  | syncToSec =>
      rw [receive_sync std state, Option.map_eq_some_iff] at received
      obtain ⟨next', stepped, same⟩ := received
      obtain ⟨rfl, rfl⟩ := Prod.mk.inj same
      simp only [Counted, state] at other
      unfold syncStep at stepped
      dsimp only at stepped
      split_ifs at stepped with started second healthy back room begins <;>
        obtain rfl := Option.some.inj stepped
      · change (1 : UInt16).toNat ≤ fracSecValuesLen
        decide
      · simp only [counter, state]
        exact Nat.zero_le _
      · simp only [counter, state]
        exact Nat.zero_le _
      · exfalso
        refine other ⟨?_, started, ?_⟩
        · intro first
          exact second ⟨fun last => back (lt_of_succ_eq_zero last), first⟩
        · intro last
          exact back (lt_of_succ_eq_zero last)
      · simp only [counter, state]
        decide
      · simp only [counter, state]
        exact bounded
  | fillBuffer =>
      rw [receive_fill std state] at received
      have stepped := Option.some.inj received
      simp only [Counted, state] at other
      have notSave : ¬(time frame = r.presentSec ∧ fracTime frame ≠ 0) :=
        fun save => other ⟨save.2, save.1⟩
      rw [fillStep, if_neg notSave] at stepped
      split at stepped
      · obtain ⟨rfl, _⟩ := Prod.mk.inj stepped
        simp only [counter, saveC37event, state]
        decide
      · dsimp only at stepped
        split at stepped
        · next i found =>
            obtain ⟨rfl, _⟩ := Prod.mk.inj stepped
            have inside := List.mem_range.mp (List.mem_of_find?_eq_some found)
            have below : r.sampleCnt.toNat ≤ 512 := bounded
            simp only [counter, state]
            rw [UInt16.toNat_ofNat', fracSecValuesLen]
            omega
        · obtain ⟨rfl, _⟩ := Prod.mk.inj stepped
          exact Nat.zero_le _

end Step

-----------------------------------------------------------------------------------------
-- Runs
-----------------------------------------------------------------------------------------

section Run

variable {r final : C37Reformat} {frames : List C37Buffer} {out : List EventBuffer}

/-- Frames that are counted as long as the machine processes them at all. -/
def CountedFrames (r : C37Reformat) (frames : List C37Buffer) : Prop :=
  Every receive (fun r frame => IsStd frame → r.Counted frame) r frames

/-- As long as the frames stay inside the array, so does the counter after them. -/
theorem CountedFrames.counter_le (counted : r.CountedFrames frames)
    (inTable : Every receive InTable r frames) (start : r.counter.toNat ≤ fracSecValuesLen)
    : r.counter.toNat + (standardFrames frames).length ≤ fracSecValuesLen := by
  induction frames generalizing r with
  | nil => exact start
  | cons frame rest ih =>
      by_cases std : IsStd frame
      · have isCounted := counted.1 std
        have room : r.counter.toNat < fracSecValuesLen :=
          inTable.1 _ (by rw [isCounted.tableIndices std]; exact List.mem_singleton_self _)
        obtain ⟨next, received, advanced⟩ := isCounted.step std room
        rw [fracSecValuesLen] at room
        have value : next.counter.toNat = r.counter.toNat + 1 := by
          rw [advanced, UInt16.toNat_add]
          change (r.counter.toNat + 1) % 2 ^ 16 = _
          omega
        have rest' := ih (counted.2 next [] received) (inTable.2 next [] received)
          (by rw [value, fracSecValuesLen]; omega)
        have length
            : (standardFrames (frame :: rest)).length = (standardFrames rest).length + 1 := by
          simp [standardFrames, std]
        omega
      · have received := receive_nonStd (r := r) std
        have rest' := ih (counted.2 _ [] received) (inTable.2 _ [] received) start
        have same : standardFrames (frame :: rest) = standardFrames rest := by
          simp [standardFrames, std]
        rw [same]
        exact rest'

/-- Counted frames advance the counter by their number, if they fit into the array. -/
theorem CountedFrames.counter_eq (counted : r.CountedFrames frames)
    (ran : r.run frames = some (final, out))
    (room : r.counter.toNat + (standardFrames frames).length ≤ fracSecValuesLen)
    : final.counter.toNat = r.counter.toNat + (standardFrames frames).length := by
  induction frames generalizing r out with
  | nil =>
      obtain ⟨rfl, _⟩ := Prod.mk.inj (Option.some.inj ran)
      rfl
  | cons frame rest ih =>
      obtain ⟨next, first, later, received, restRan, _⟩ := OutputRun.run_cons_inv ran
      by_cases std : IsStd frame
      · have length
            : (standardFrames (frame :: rest)).length = (standardFrames rest).length + 1 := by
          simp [standardFrames, std]
        rw [length, fracSecValuesLen] at room
        obtain ⟨next', received', advanced⟩ :=
          (counted.1 std).step std (by rw [fracSecValuesLen]; omega)
        obtain ⟨rfl, _⟩ := receive_unique received received'
        have value : next.counter.toNat = r.counter.toNat + 1 := by
          rw [advanced, UInt16.toNat_add]
          change (r.counter.toNat + 1) % 2 ^ 16 = _
          omega
        have rest' := ih (counted.2 next first received) restRan
          (by rw [value, fracSecValuesLen]; omega)
        omega
      · have same : standardFrames (frame :: rest) = standardFrames rest := by
          simp [standardFrames, std]
        rw [same] at room ⊢
        obtain ⟨rfl, _⟩ := receive_unique received (receive_nonStd std)
        have room' : (r.withNonStd (r.nonStdC37events + 1)).counter.toNat
            + (standardFrames rest).length ≤ fracSecValuesLen := room
        have advanced := ih (counted.2 _ first received) restRan room'
        exact advanced

/-- A machine that waits counts nothing. -/
theorem Waiting.not_counted {frame : C37Buffer} (waiting : r.Waiting) : ¬r.Counted frame := by
  intro counted
  have started := counted.2
  simp only [waiting.state] at started
  rw [waiting.notStarted] at started
  exact absurd started.1 Bool.false_ne_true

/-- Frames that it does not process leave it waiting. -/
theorem Waiting.stays (waiting : r.Waiting) (counted : r.CountedFrames frames)
    (ran : r.run frames = some (final, out))
    : final.Waiting := by
  induction frames generalizing r out with
  | nil =>
      obtain ⟨rfl, _⟩ := Prod.mk.inj (Option.some.inj ran)
      exact waiting
  | cons frame rest ih =>
      obtain ⟨next, first, later, received, restRan, _⟩ := OutputRun.run_cons_inv ran
      have foreign : ¬IsStd frame := fun std => waiting.not_counted (counted.1 std)
      obtain ⟨rfl, _⟩ := receive_unique received (receive_nonStd foreign)
      have waiting' : (r.withNonStd (r.nonStdC37events + 1)).Waiting :=
        ⟨waiting.state, waiting.notStarted⟩
      exact ih waiting' (counted.2 _ first received) restRan

theorem Bounded.run (bounded : r.Bounded) (ran : r.run frames = some (final, out))
    : final.Bounded :=
  (OutputRun.run_invariant
    (fun _ _ _ _ holds received =>
      ⟨Bounded.step holds received, fun _ _ => (trivial : (fun _ => True) _)⟩) bounded ran).1

/-- After `before`, the frame `first` is processed without being counted and leaves the
counter at `set`, and from then on the frames are counted.
-/
def CountsOn (r : C37Reformat) (before : List C37Buffer) (first : C37Buffer)
    (counted : List C37Buffer) (set : UInt16) : Prop :=
  ∃ reached out next out',
    r.run before = some (reached, out)
    ∧ IsStd first
    ∧ ¬reached.Counted first
    ∧ reached.receive first = some (next, out')
    ∧ next.counter = set
    ∧ next.CountedFrames counted

/-- Never are more frames counted than the array has entries behind the counter. -/
def FitTable (r : C37Reformat) (frames : List C37Buffer) : Prop :=
  ∀ before first counted after set,
    frames = before ++ first :: counted ++ after →
      r.CountsOn before first counted set →
        set.toNat + (standardFrames counted).length ≤ fracSecValuesLen

theorem bounded_initial (fracSecValues : Nat → UInt32)
    : (initialReformat fracSecValues).Bounded :=
  Nat.zero_le _

/-- Inside the array the counted frames fit, since each of them uses the counter. -/
theorem Bounded.fitTable (bounded : r.Bounded) (inTable : Every receive InTable r frames)
    : r.FitTable frames := by
  intro before first counted after set split countsOn
  obtain ⟨reached, out, next, out', ran, std, other, received, rfl, isCounted⟩ := countsOn
  have reachedBounded := bounded.run ran
  have stretch : Every receive InTable next counted := by
    rw [OutputRun.every_iff]
    intro front frame back same middle out'' ran'
    refine OutputRun.every_iff.mp inTable (before ++ first :: front) frame (back ++ after) ?_
      middle _ (OutputRun.run_append ran (OutputRun.run_cons received ran'))
    rw [split, same]
    simp
  exact isCounted.counter_le stretch (reachedBounded.counter_set std other received)

/-- If the counted frames fit, every index is inside the array: the last frame that is not
counted has set the counter, and those since then have advanced it.
-/
theorem Waiting.inTable (waiting : r.Waiting) (bounded : r.Bounded) (fits : r.FitTable frames)
    : Every receive InTable r frames := by
  rw [OutputRun.every_iff]
  intro front frame after split reached out ran
  by_cases isCounted : IsStd frame ∧ reached.Counted frame
  · obtain ⟨std, counted⟩ := isCounted
    have last : reached.CountedFrames [frame] := ⟨fun _ => counted, fun _ _ _ => trivial⟩
    rcases OutputRun.every_or_last ran with every | setter
    · exact absurd counted (waiting.stays every ran).not_counted
    · obtain ⟨before, first, stretch, setting, next, out₁, out₂, out₃, rfl, ran₁, sets, received,
        every, ran₂⟩ := setter
      obtain ⟨setStd, notCounted⟩ := Classical.not_imp.mp sets
      have room := fits before first (stretch ++ [frame]) after next.counter
        (by rw [split]; simp)
        ⟨setting, out₁, next, out₂, ran₁, setStd, notCounted, received, rfl,
          OutputRun.every_append every ran₂ last⟩
      have one : (standardFrames (stretch ++ [frame])).length
          = (standardFrames stretch).length + 1 := by
        rw [standardFrames_append_std std, List.length_append, List.length_singleton]
      rw [one] at room
      have value := CountedFrames.counter_eq every ran₂ (by omega)
      intro index member
      rw [counted.tableIndices std, List.mem_singleton] at member
      omega
  · by_cases std : IsStd frame
    · exact (bounded.run ran).inTable fun counted => isCounted ⟨std, counted⟩
    · rw [InTable, tableIndices_foreign std]
      simp

/-- In a run every index into `fracSecValues` is inside the array if and only if the counted
frames always fit into what is left of it.
-/
theorem run_inTable_iff (fracSecValues : Nat → UInt32) (frames : List C37Buffer)
    : Every receive InTable (initialReformat fracSecValues) frames
      ↔ (initialReformat fracSecValues).FitTable frames :=
  ⟨(bounded_initial fracSecValues).fitTable,
    (waiting_initial fracSecValues).inTable (bounded_initial fracSecValues)⟩

-----------------------------------------------------------------------------------------
-- A second that is too long
-----------------------------------------------------------------------------------------

/-- While the samples of a second are counted, frames inside a second are counted. -/
theorem Syncing.countedFrames {sec : UInt32} {count : UInt16} (syncing : r.Syncing sec count)
    (notLast : sec + 1 ≠ 0) (std : ∀ frame ∈ frames, IsStd frame)
    (frac : ∀ frame ∈ frames, fracTime frame ≠ 0)
    : r.CountedFrames frames := by
  induction frames generalizing r count with
  | nil => trivial
  | cons frame rest ih =>
      have own := frac frame (by simp)
      refine ⟨?_, ?_⟩
      · intro _
        refine ⟨own, ?_⟩
        simp only [syncing.state]
        exact ⟨syncing.started, syncing.presentSec ▸ notLast⟩
      · intro next out received
        by_cases room : count.toNat < fracSecValuesLen
        · obtain ⟨_, received', syncing', _⟩ := syncing.save notLast (std frame (by simp)) own room
          obtain ⟨rfl, _⟩ := receive_unique received' received
          exact ih syncing' (fun f member => std f (List.mem_cons_of_mem _ member))
            (fun f member => frac f (List.mem_cons_of_mem _ member))
        · rw [syncing.overrun notLast (std frame (by simp)) own room] at received
          cases received

/-- The 513th frame of a second is written behind the array, here for one that begins with
the fraction zero and goes on with the fraction one.
-/
theorem run_longSecond_not_inTable
    : ¬∀ (fracSecValues : Nat → UInt32) (frames : List C37Buffer),
        Every receive InTable (initialReformat fracSecValues) frames := by
  intro always
  have inTable := always (fun _ => 0) (frameAt 7 0 :: List.replicate 512 (frameAt 7 1))
  have std : ∀ frame ∈ List.replicate 512 (frameAt 7 1), IsStd frame := by
    intro frame member
    rw [List.eq_of_mem_replicate member]
    rfl
  have frac : ∀ frame ∈ List.replicate 512 (frameAt 7 1), fracTime frame ≠ 0 := by
    intro frame member
    rw [List.eq_of_mem_replicate member, fracTime_frameAt (by decide)]
    decide
  obtain ⟨next, received, syncing, _⟩ := (waiting_initial fun _ => 0).start
    (show IsStd (frameAt 7 0) from rfl) (fracTime_frameAt (by decide))
  rw [time_frameAt] at syncing
  have counted := syncing.countedFrames (by decide) std frac
  have start : next.counter = 1 := by
    simp only [counter, syncing.state]
    exact syncing.sampleCnt
  have fits := (bounded_initial fun _ => 0).fitTable inTable [] (frameAt 7 0)
    (List.replicate 512 (frameAt 7 1)) [] 1 (List.append_nil _).symm
    ⟨_, [], next, [], rfl, rfl, (waiting_initial fun _ => 0).not_counted, received, start, counted⟩
  have all : standardFrames (List.replicate 512 (frameAt 7 1))
      = List.replicate 512 (frameAt 7 1) :=
    List.filter_eq_self.mpr fun frame member => decide_eq_true (std frame member)
  rw [all, List.length_replicate] at fits
  exact absurd fits (by decide)

end Run

end C37Reformat

end Sparcs.C37
