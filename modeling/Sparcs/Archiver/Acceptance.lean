import Sparcs.Archiver.Archivers
import Sparcs.C37.Relearning

/-! Which states lead to blocks that the archivers accept once all seconds are complete. -/

namespace Sparcs.Archiver

open Blocks (Block)
open C37 (C37Buffer C37Reformat Complete EventBuffer IsSecond frameAt fracTime secondAt)

/-- Both archivers find that the block has the full length. -/
def Accepted (block : EventBuffer) : Prop :=
  ∀ bpr,
    (ServiceDataArchiver.preProcessData bpr block.byteLen).1 = 1
    ∧ (ServiceDataArchiverRabbitMQ.preProcessData bpr block.byteLen).1 = 1

theorem preProcessSecond_accepts_iff (fullLen : Nat) (bpr : BufferProcessingRecord)
    (byteLen : Nat)
    : (preProcessSecond fullLen bpr byteLen).1 = 1 ↔ byteLen = fullLen := by
  rw [preProcessSecond]
  by_cases same : byteLen = fullLen
  · simp [same]
  · simp [same]

/-- The length of a block shows the count of a full second. -/
theorem accepted_iff {block : EventBuffer} : Accepted block ↔ block.sampleCnt = 120 := by
  have count : block.byteLen = C37.secblkLenBytes * 120 + 4 ↔ block.sampleCnt = 120 := by
    rw [EventBuffer.byteLen, C37.secblkLenBytes, ← UInt16.toNat_inj]
    change _ ↔ _ = 120
    omega
  constructor
  · intro accepted
    exact count.mp ((preProcessSecond_accepts_iff _ _ _).mp (accepted ⟨0, 0, 0⟩).1)
  · intro full bpr
    have length := (preProcessSecond_accepts_iff _ bpr _).mpr (count.mpr full)
    exact ⟨length, length⟩

/-- Once all seconds are complete, every block from the third one on is accepted. -/
def Archives (r : C37Reformat) (pattern : List UInt32) (sec : UInt32) : Prop :=
  ∀ first second later, Complete pattern sec (first :: second :: later)
  → ∃ middle out final blocks,
    r.run (first ++ second) = some (middle, out)
    ∧ middle.run later.flatten = some (final, blocks)
    ∧ ∀ block ∈ blocks, Accepted block

section Archives

variable {r : C37Reformat} {sec : UInt32}

/-- A state from which the full count is used or learned anew archives every second. -/
theorem archives_of_learnsFull {pattern : List UInt32} (reached : r.Reached)
    (length : pattern.length = 120) (learns : r.LearnsFull pattern sec)
    : Archives r pattern sec := by
  intro first second later complete
  obtain ⟨_, whole, complete'⟩ := complete.cons_inv
  cases complete.consecutive with
  | cons now then_ =>
      obtain ⟨next, out, ran, ready, _⟩ := reached.first now (whole (by simp)) length
      obtain ⟨final, blocks, runs, full⟩ := (ready learns).seconds length complete'
      rw [List.flatten_cons] at runs
      obtain ⟨middle, blocks', blocks'', ran', ran'', rfl⟩ := OutputRun.run_append_inv runs
      refine ⟨middle, _, final, blocks'', OutputRun.run_append ran ran', ran'', ?_⟩
      intro block member
      exact accepted_iff.mpr (full block (List.mem_append_right _ member))

variable {rest : List UInt32} (fits : ∀ frac ∈ rest, frac < 0x1000000 ∧ frac ≠ 0)

include fits

theorem map_fracTime_secondAt (sec : UInt32)
    : (secondAt sec rest).map fracTime = 0 :: rest := by
  rw [secondAt, List.map_cons, C37.fracTime_frameAt (by decide), List.map_map]
  congr 1
  conv_rhs => rw [← List.map_id rest]
  apply List.map_congr_left
  intro frac member
  exact C37.fracTime_frameAt (fits frac member).1

/-- Three seconds with any fractions that a frame can hold. -/
theorem complete_secondAt (sec : UInt32)
    : Complete (0 :: rest) sec
      [secondAt sec rest, secondAt (sec + 1) rest, secondAt (sec + 1 + 1) rest] := by
  refine ⟨.cons (C37.isSecond_secondAt _ fits) (.cons (C37.isSecond_secondAt _ fits)
    (.cons (C37.isSecond_secondAt _ fits) (.nil _))), ?_, ?_⟩
  · simp [map_fracTime_secondAt fits]
  · simp [map_fracTime_secondAt fits]

/-- A count that is wrong and not learned anew shows in the third second's block. -/
theorem not_archives_of_filling {next : C37Reformat} {out : List EventBuffer}
    {sampleCnt count : UInt16} {events : List Block} (wrong : sampleCnt ≠ 120)
    (ran : r.run (secondAt sec rest) = some (next, out))
    (filling : next.Filling sampleCnt sec events count)
    : ¬Archives r (0 :: rest) sec := by
  intro archives
  obtain ⟨middle, _, final, blocks, ran', runs, accepted⟩ :=
    archives _ _ _ (complete_secondAt fits sec)
  obtain ⟨second, ranSecond, filling', _⟩ :=
    filling.second (C37.isSecond_secondAt (sec + 1) fits)
  obtain ⟨third, ranThird, _, _⟩ :=
    filling'.second (C37.isSecond_secondAt (sec + 1 + 1) fits)
  obtain ⟨rfl, _⟩ := Prod.mk.inj (Option.some.inj
    (ran'.symm.trans (OutputRun.run_append ran ranSecond)))
  rw [List.flatten_cons, List.flatten_nil, List.append_nil] at runs
  obtain ⟨_, rfl⟩ := Prod.mk.inj (Option.some.inj (runs.symm.trans ranThird))
  exact wrong (accepted_iff.mp (accepted _ (List.mem_singleton_self _)))

/-- From a state that can be reached, complete seconds of 120 frames lead to accepted
blocks from the third one on, if and only if the count of a full second is 120 or is
learned anew.
-/
theorem archives_iff (reachable : r.Reachable) (length : rest.length = 119)
    (sec : UInt32)
    : Archives r (0 :: rest) sec ↔ r.LearnsFull (0 :: rest) sec := by
  have samples : (0 :: rest).length = 120 := by
    rw [List.length_cons, length]
  constructor
  · intro archives
    obtain ⟨next, out, ran, _, spoilt⟩ :=
      reachable.reached.first (C37.isSecond_secondAt sec fits)
        (map_fracTime_secondAt fits sec) samples
    by_contra notLearns
    obtain ⟨sampleCnt, events, count, wrong, filling⟩ := spoilt notLearns
    exact not_archives_of_filling fits wrong ran filling archives
  · exact archives_of_learnsFull reachable.reached samples

end Archives

/-- After a second that was counted whole, complete seconds are archived; after one of which ten
samples arrived, they are not.
-/
theorem archives_iff_counted
    : (∃ r,
        (C37.initialReformat fun _ => 0).run (secondAt 4 (List.replicate 119 1)) = some (r, [])
        ∧ Archives r (0 :: List.replicate 119 1) 5)
      ∧ ∃ r,
        (C37.initialReformat fun _ => 0).run (secondAt 7 [1, 2, 3, 4, 5, 6, 7, 8, 9])
          = some (r, [])
        ∧ ¬Archives r (0 :: List.replicate 119 1) 8 := by
  have fits : ∀ frac ∈ List.replicate 119 (1 : UInt32), frac < 0x1000000 ∧ frac ≠ 0 := by simp
  have waiting := C37.C37Reformat.waiting_initial fun _ => 0
  constructor
  · obtain ⟨r, ran, syncing, _⟩ :=
      waiting.sync (by decide) (C37.isSecond_secondAt 4 fits) (by simp; decide)
    have full : r.sampleCnt = 120 := syncing.sampleCnt.trans (by simp)
    refine ⟨r, ran, (archives_iff fits ⟨fun _ => 0, _, [], ran⟩ (by simp) 5).mpr ?_⟩
    exact ⟨fun _ => full, fun _ _ _ _ _ => full⟩
  · have tenFrames
        : IsSecond 7 (frameAt 7 0) ([1, 2, 3, 4, 5, 6, 7, 8, 9].map (frameAt 7)) :=
      C37.isSecond_secondAt 7 (by simp)
    obtain ⟨r, ran, syncing, _⟩ := waiting.sync (by decide) tenFrames (by simp; decide)
    have ten : r.sampleCnt = 10 := syncing.sampleCnt.trans (by simp)
    have next : r.presentSec + 1 = 8 := by
      rw [syncing.presentSec]
      rfl
    refine ⟨r, ran, fun archives => ?_⟩
    have learns := (archives_iff fits ⟨fun _ => 0, _, [], ran⟩ (by simp) 8).mp archives
    have full : r.sampleCnt = 120 :=
      learns.syncing syncing.state syncing.started (by rw [next]; decide) (by rw [ten]; decide)
        (.inl next)
    exact absurd (ten.symm.trans full) (by decide)

/-- After a second of which ten samples arrived, blocks are as long as for ten samples. -/
theorem archives_ten_wrong
    : ∃ r middle out final block,
        (C37.initialReformat fun _ => 0).run (secondAt 7 [1, 2, 3, 4, 5, 6, 7, 8, 9])
          = some (r, [])
        ∧ r.run (secondAt 8 (List.replicate 119 1) ++ secondAt 9 (List.replicate 119 1))
          = some (middle, out)
        ∧ middle.run (secondAt 10 (List.replicate 119 1)) = some (final, [block])
        ∧ block.byteLen = 604
        ∧ ¬Accepted block := by
  have ten : IsSecond 7 (frameAt 7 0) ([1, 2, 3, 4, 5, 6, 7, 8, 9].map (frameAt 7)) :=
    C37.isSecond_secondAt 7 (by simp)
  have full (sec : UInt32)
      : IsSecond sec (frameAt sec 0) ((List.replicate 119 1).map (frameAt sec)) :=
    C37.isSecond_secondAt sec (by simp)
  obtain ⟨r, ran, syncing, _⟩ :=
    (C37.C37Reformat.waiting_initial fun _ => 0).sync (by decide) ten (by simp; decide)
  obtain ⟨filled, ran', filling, _⟩ := syncing.second (by decide) (by decide) (full 8)
  obtain ⟨middle, ran'', filling', _⟩ := filling.second (full 9)
  obtain ⟨final, ran3, _⟩ := filling'.second (full 10)
  refine ⟨r, middle, _, final, _, ran, OutputRun.run_append ran' ran'', ran3, rfl, ?_⟩
  intro accepted
  exact absurd (accepted_iff.mp accepted) (by decide)

end Sparcs.Archiver
