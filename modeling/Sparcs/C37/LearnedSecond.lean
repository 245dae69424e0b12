import Sparcs.C37.Reached

/-! The second that the synchronisation learns, over whole runs: which frames are recorded in
`fracSecValues`, and of which second they and the completing frame are.
-/

namespace Sparcs.C37

/-- The frames that the reformatter processes. -/
def standardFrames (frames : List C37Buffer) : List C37Buffer :=
  frames.filter fun frame => IsStd frame

namespace C37Reformat

/-- The array holds the fractions of these frames, and `sampleCnt` their number. -/
structure Recorded (r : C37Reformat) (frames : List C37Buffer) : Prop where
  length : frames.length = r.sampleCnt.toNat
  values : frames.map fracTime = (List.range frames.length).map r.fracSecValues

/-- After these frames the recorded ones, which are the latest, are all of one second, the last
frame is of the second after it, and so is what the machine holds for the present.
-/
def LearnsOneSecond (before : List C37Buffer) (last : C37Buffer) (next : C37Reformat) : Prop :=
  ∃ sec older recorded,
    standardFrames before = older ++ recorded
    ∧ next.Recorded recorded
    ∧ (∀ frame ∈ recorded, time frame = sec)
    ∧ time last = sec + 1
    ∧ next.presentSec = time last

/-- While the samples of a second are counted, a later frame is of that second, and one that
would complete a healthy count begins the next second. (In the last second of the clock
every frame makes the machine give up.)
-/
def InSync (r : C37Reformat) (frame : C37Buffer) : Prop :=
  r.currentState = .syncToSec → r.syncStarted = true → IsStd frame → r.presentSec + 1 ≠ 0
    → (fracTime frame ≠ 0 → time frame = r.presentSec)
      ∧ (fracTime frame = 0 → r.sampleCnt % 10 = 0 → time frame = r.presentSec + 1)

instance (r : C37Reformat) (frame : C37Buffer) : Decidable (r.InSync frame) :=
  inferInstanceAs (Decidable (_ → _))

/-- Every frame of the run is in sync in the state that it meets. -/
def SyncRun : C37Reformat → List C37Buffer → Prop
  | _, [] => True
  | r, frame :: rest =>
      r.InSync frame
      ∧ match r.receive frame with
        | none => True
        | some (next, _) => next.SyncRun rest

instance decidableSyncRun : (r : C37Reformat) → (frames : List C37Buffer)
    → Decidable (r.SyncRun frames)
  | _, [] => inferInstanceAs (Decidable True)
  | r, frame :: rest =>
      have : Decidable (match r.receive frame with
          | none => True
          | some (next, _) => next.SyncRun rest) :=
        match r.receive frame with
        | none => inferInstanceAs (Decidable True)
        | some (next, _) => decidableSyncRun next rest
      inferInstanceAs (Decidable (_ ∧ _))

/-- The samples that are counted are those of the latest frames, all of the present second. -/
def Counts (r : C37Reformat) (history : List C37Buffer) : Prop :=
  r.currentState = .syncToSec → r.syncStarted = true
    → ∃ older recorded,
        standardFrames history = older ++ recorded
        ∧ r.Recorded recorded
        ∧ ∀ frame ∈ recorded, time frame = r.presentSec

section Step

variable {r next : C37Reformat} {frame : C37Buffer} {out : List EventBuffer}
  {history : List C37Buffer}

theorem standardFrames_append_std (std : IsStd frame)
    : standardFrames (history ++ [frame]) = standardFrames history ++ [frame] := by
  simp [standardFrames, std]

theorem standardFrames_append_foreign (foreign : ¬IsStd frame)
    : standardFrames (history ++ [frame]) = standardFrames history := by
  simp [standardFrames, foreign]

/-- What a frame can do to a machine that synchronises. -/
inductive SyncStep (r : C37Reformat) (frame : C37Buffer) : C37Reformat → Prop where
  | skip (notStarted : r.syncStarted = false) : SyncStep r frame r
  | start (frac : fracTime frame = 0)
    : SyncStep r frame
        { r with
          syncStarted := true
          fracSecValues := Function.update r.fracSecValues 0 0
          presentSec := time frame
          sampleCnt := 1 }
  | finish {next : C37Reformat} (started : r.syncStarted = true) (notLast : r.presentSec + 1 ≠ 0)
    (frac : fracTime frame = 0) (healthy : r.sampleCnt % 10 = 0)
    (state : next.currentState = .fillBuffer) (presentSec : next.presentSec = r.presentSec + 1)
    (sampleCnt : next.sampleCnt = r.sampleCnt) (values : next.fracSecValues = r.fracSecValues)
    : SyncStep r frame next
  | giveUp {next : C37Reformat} (notStarted : next.syncStarted = false)
    (state : next.currentState = .syncToSec)
    : SyncStep r frame next
  | save (started : r.syncStarted = true) (notLast : r.presentSec + 1 ≠ 0)
    (frac : fracTime frame ≠ 0) (room : r.sampleCnt.toNat < fracSecValuesLen)
    : SyncStep r frame
        { r with
          fracSecValues := Function.update r.fracSecValues r.sampleCnt.toNat (fracTime frame)
          sampleCnt := r.sampleCnt + 1 }

theorem syncStep_cases {c37Buf : C37Buffer} (state : r.currentState = .syncToSec)
    (stepped : r.syncStep (fracTime frame) (time frame) c37Buf = some next)
    : SyncStep r frame next := by
  unfold syncStep at stepped
  dsimp only at stepped
  split_ifs at stepped with started second healthy back room begins
  · obtain rfl := Option.some.inj stepped
    exact .finish started second.1 second.2 healthy rfl rfl rfl rfl
  · obtain rfl := Option.some.inj stepped
    exact .giveUp rfl state
  · obtain rfl := Option.some.inj stepped
    exact .giveUp rfl state
  · obtain rfl := Option.some.inj stepped
    have notLast : r.presentSec + 1 ≠ 0 := fun last => back (lt_of_succ_eq_zero last)
    exact .save started notLast (fun zero => second ⟨notLast, zero⟩) room
  · obtain rfl := Option.some.inj stepped
    exact .start begins
  · obtain rfl := Option.some.inj stepped
    exact .skip (by simpa using started)

/-- The first frame of a second is recorded alone. -/
theorem recorded_start {values : Nat → UInt32} (sampleCnt : r.sampleCnt = 1)
    (written : r.fracSecValues = Function.update values 0 0) (frac : fracTime frame = 0)
    : r.Recorded [frame] := by
  refine ⟨by rw [sampleCnt]; rfl, ?_⟩
  rw [written]
  simp [frac]

/-- A later frame is recorded behind the others. -/
theorem Recorded.save {recorded : List C37Buffer} (holds : r.Recorded recorded)
    (room : r.sampleCnt.toNat < fracSecValuesLen)
    (sampleCnt : next.sampleCnt = r.sampleCnt + 1)
    (written
      : next.fracSecValues
        = Function.update r.fracSecValues r.sampleCnt.toNat (fracTime frame))
    : next.Recorded (recorded ++ [frame]) := by
  have counted : (r.sampleCnt + 1).toNat = r.sampleCnt.toNat + 1 := by
    rw [fracSecValuesLen] at room
    rw [UInt16.toNat_add]
    change (r.sampleCnt.toNat + 1) % 2 ^ 16 = r.sampleCnt.toNat + 1
    omega
  refine ⟨?_, ?_⟩
  · rw [List.length_append, holds.length, sampleCnt, counted]
    rfl
  · have before
        : (List.range recorded.length).map next.fracSecValues
          = (List.range recorded.length).map r.fracSecValues := by
      apply List.map_congr_left
      intro i member
      have other : i ≠ r.sampleCnt.toNat := by
        rw [List.mem_range, holds.length] at member
        omega
      rw [written, Function.update_of_ne other]
    rw [List.map_append, List.length_append, List.length_singleton, List.range_succ,
      List.map_append, before, holds.values, List.map_singleton, List.map_singleton, written,
      holds.length, Function.update_self]

/-- A frame keeps the count, as long as it is in sync. -/
theorem Counts.step (counts : r.Counts history) (inSync : r.InSync frame)
    (received : r.receive frame = some (next, out))
    : next.Counts (history ++ [frame]) := by
  by_cases std : IsStd frame
  · cases state : r.currentState with
    | syncToSec =>
        rw [receive_sync std state, Option.map_eq_some_iff] at received
        obtain ⟨stepped, isStep, same⟩ := received
        obtain ⟨rfl, -⟩ := Prod.mk.inj same
        cases syncStep_cases state isStep with
        | skip notStarted =>
            intro _ started
            rw [notStarted] at started
            cases started
        | start frac =>
            intro _ _
            refine ⟨standardFrames history, [frame], standardFrames_append_std std,
              recorded_start rfl rfl frac, ?_⟩
            simp
        | finish _ _ _ _ filling =>
            intro syncs
            rw [filling] at syncs
            cases syncs
        | giveUp notStarted =>
            intro _ started
            rw [notStarted] at started
            cases started
        | save started notLast frac room =>
            intro _ _
            obtain ⟨older, recorded, split, holds, sameSec⟩ := counts state started
            refine ⟨older, recorded ++ [frame], ?_, holds.save room rfl rfl, ?_⟩
            · rw [standardFrames_append_std std, split, List.append_assoc]
            · have ofSecond := (inSync state started std notLast).1 frac
              intro other member
              rcases List.mem_append.mp member with old | new
              · exact sameSec other old
              · rw [List.mem_singleton.mp new]
                exact ofSecond
    | fillBuffer =>
        have filling : r.Filling r.sampleCnt r.presentSec r.c37eventBuf r.currentSampleCnt :=
          ⟨state, rfl, rfl, rfl, rfl⟩
        intro syncs started
        cases filling.step std received with
        | save _ _ filling' => cases syncs.symm.trans filling'.state
        | advance _ _ filling' => cases syncs.symm.trans filling'.state
        | stray filling' => cases syncs.symm.trans filling'.state
        | lose waiting => cases started.symm.trans waiting.notStarted
  · rw [receive_nonStd std] at received
    obtain ⟨rfl, -⟩ := Prod.mk.inj (Option.some.inj received)
    intro syncs started
    obtain ⟨older, recorded, split, holds, sameSec⟩ := counts syncs started
    exact ⟨older, recorded, (standardFrames_append_foreign std).trans split,
      ⟨holds.length, holds.values⟩, sameSec⟩

/-- The frame that ends the synchronisation ends it with one second learned. -/
theorem Counts.learns (counts : r.Counts history) (inSync : r.InSync frame)
    (received : r.receive frame = some (next, out)) (syncs : r.currentState = .syncToSec)
    (fills : next.currentState = .fillBuffer)
    : LearnsOneSecond history frame next := by
  by_cases std : IsStd frame
  · rw [receive_sync std syncs, Option.map_eq_some_iff] at received
    obtain ⟨stepped, isStep, same⟩ := received
    obtain ⟨rfl, -⟩ := Prod.mk.inj same
    cases syncStep_cases syncs isStep with
    | skip => cases fills.symm.trans syncs
    | start => cases fills.symm.trans syncs
    | giveUp _ state => cases fills.symm.trans state
    | save => cases fills.symm.trans syncs
    | finish started notLast frac healthy _ presentSec sampleCnt values =>
        obtain ⟨older, recorded, split, holds, sameSec⟩ := counts syncs started
        have nextSec := (inSync syncs started std notLast).2 frac healthy
        refine ⟨r.presentSec, older, recorded, split, ⟨?_, ?_⟩, sameSec, nextSec,
          presentSec.trans nextSec.symm⟩
        · rw [holds.length, sampleCnt]
        · rw [holds.values, values]
  · rw [receive_nonStd std] at received
    obtain ⟨rfl, -⟩ := Prod.mk.inj (Option.some.inj received)
    cases fills.symm.trans syncs

end Step

section Run

variable {r : C37Reformat}

/-- A run that is in sync is so in all of its beginnings and ends. -/
theorem SyncRun.split {front back : List C37Buffer} (inSync : r.SyncRun (front ++ back))
    {middle : C37Reformat} {out : List EventBuffer} (ran : r.run front = some (middle, out))
    : r.SyncRun front ∧ middle.SyncRun back := by
  induction front generalizing r out with
  | nil =>
      obtain ⟨rfl, -⟩ := Prod.mk.inj (Option.some.inj ran)
      exact ⟨trivial, inSync⟩
  | cons frame rest ih =>
      obtain ⟨next, first, later, received, runs, -⟩ := OutputRun.run_cons_inv ran
      rw [List.cons_append, SyncRun, received] at inSync
      obtain ⟨front', back'⟩ := ih inSync.2 runs
      rw [SyncRun, received]
      exact ⟨⟨inSync.1, front'⟩, back'⟩

/-- By induction over the frames, with those that are already received as the history. -/
theorem Counts.run {history frames : List C37Buffer} (counts : r.Counts history)
    (inSync : r.SyncRun frames) {final : C37Reformat} {out : List EventBuffer}
    (ran : r.run frames = some (final, out))
    : final.Counts (history ++ frames) := by
  induction frames generalizing r history out with
  | nil =>
      obtain ⟨rfl, -⟩ := Prod.mk.inj (Option.some.inj ran)
      rwa [List.append_nil]
  | cons frame rest ih =>
      obtain ⟨next, first, later, received, runs, -⟩ := OutputRun.run_cons_inv ran
      rw [SyncRun, received] at inSync
      have counts' := ih (counts.step inSync.1 received) inSync.2 runs
      rwa [List.append_assoc, List.singleton_append] at counts'

end Run

theorem counts_initial (fracSecValues : Nat → UInt32)
    : (initialReformat fracSecValues).Counts [] := by
  intro _ started
  cases started

/-- In a run from the initial state whose frames are in sync, every frame that moves the
machine from `syncToSec` to `fillBuffer` does so with one second learned.
-/
theorem run_learnsOneSecond (fracSecValues : Nat → UInt32) (frames : List C37Buffer)
    (inSync : (initialReformat fracSecValues).SyncRun frames)
    : ∀ before last after, frames = before ++ last :: after
      → ∀ r out, (initialReformat fracSecValues).run before = some (r, out)
      → ∀ next out', r.receive last = some (next, out')
      → r.currentState = .syncToSec → next.currentState = .fillBuffer
      → LearnsOneSecond before last next := by
  intro before last after split r out ran next out' received syncs fills
  rw [split] at inSync
  obtain ⟨inFront, inBack⟩ := inSync.split ran
  have counts := (counts_initial fracSecValues).run inFront ran
  exact counts.learns inBack.1 received syncs fills

/-- The frames of a second of ten samples and the first frame of the next one. -/
def tenSamples : List C37Buffer :=
  secondAt 7 [1, 2, 3, 4, 5, 6, 7, 8, 9] ++ [frameAt 8 0]

theorem tenSamples_learnsOneSecond
    : ∃ r next,
        (initialReformat fun _ => 0).run (secondAt 7 [1, 2, 3, 4, 5, 6, 7, 8, 9]) = some (r, [])
        ∧ r.receive (frameAt 8 0) = some (next, [])
        ∧ LearnsOneSecond (secondAt 7 [1, 2, 3, 4, 5, 6, 7, 8, 9]) (frameAt 8 0) next := by
  have second : IsSecond 7 (frameAt 7 0) ([1, 2, 3, 4, 5, 6, 7, 8, 9].map (frameAt 7)) :=
    isSecond_secondAt 7 (by simp)
  obtain ⟨r, ran, syncing, _⟩ :=
    (waiting_initial fun _ => 0).sync (by decide) second (by decide)
  obtain ⟨next, received, filling, _⟩ :=
    syncing.finish (by decide) (rfl : IsStd (frameAt 8 0)) (fracTime_frameAt (by decide))
      (by decide)
  exact ⟨r, next, ran, received,
    run_learnsOneSecond (fun _ => 0) tenSamples (by decide +kernel) _ _ [] rfl r [] ran next []
      received syncing.state filling.state⟩

/-- Nine frames of the second 500 are recorded for the second 7, and a frame of the second 900
completes it, after which the machine holds 8 for the present second.
-/
theorem run_jumpingSeconds_not_learnsOneSecond
    : ∃ r next,
        (initialReformat fun _ => 0).run
            (frameAt 7 0 :: [1, 2, 3, 4, 5, 6, 7, 8, 9].map (frameAt 500))
          = some (r, [])
        ∧ r.receive (frameAt 900 0) = some (next, [])
        ∧ r.currentState = .syncToSec ∧ next.currentState = .fillBuffer
        ∧ next.presentSec = 8
        ∧ ¬LearnsOneSecond (frameAt 7 0 :: [1, 2, 3, 4, 5, 6, 7, 8, 9].map (frameAt 500))
          (frameAt 900 0) next := by
  have later : IsSecond 500 (frameAt 500 0) ([1, 2, 3, 4, 5, 6, 7, 8, 9].map (frameAt 500)) :=
    isSecond_secondAt 500 (by simp)
  obtain ⟨started, received, syncing, _⟩ :=
    (waiting_initial fun _ => 0).start (rfl : IsStd (frameAt 7 0)) (fracTime_frameAt (by decide))
  rw [time_frameAt] at syncing
  obtain ⟨r, ran, syncing', _⟩ :=
    syncing.rest (by decide) later.restStd later.restFrac (by decide)
  obtain ⟨next, received', filling, _⟩ :=
    syncing'.finish (by decide) (rfl : IsStd (frameAt 900 0)) (fracTime_frameAt (by decide))
      (by decide)
  refine ⟨r, next, OutputRun.run_cons received ran, received', syncing'.state, filling.state,
    filling.presentSec, ?_⟩
  intro learns
  obtain ⟨_, _, _, _, _, _, _, present⟩ := learns
  rw [filling.presentSec, time_frameAt] at present
  exact absurd present (by decide)

end C37Reformat

end Sparcs.C37
