import Sparcs.C37.Packing
import Sparcs.C37.Reached

/-! When the blocks that are handed over are of one second and have room for their events. -/

namespace Sparcs.C37

open Blocks (Block bigEndian32)

/-- The second of the frame that is saved as this event. -/
def eventSecond (event : Block) : UInt32 :=
  bigEndian32 (event.byte (4 + socIndx)) (event.byte (4 + socIndx + 1))
    (event.byte (4 + socIndx + 2)) (event.byte (4 + socIndx + 3))

theorem eventSecond_savedEvent {frame : C37Buffer} (std : IsStd frame)
    : eventSecond (savedEvent frame) = time frame := by
  have byte {i : Nat} (inside : i < c37DatumTypicalLen)
      : (savedEvent frame).byte (4 + i) = frame.byte i :=
    savedEvent_byte (inside.trans_eq std.symm)
  rw [eventSecond, byte (by decide), Nat.add_assoc, Nat.add_assoc, Nat.add_assoc,
    byte (by decide), byte (by decide), byte (by decide)]
  rfl

/-- The events are of one second, there are at most as many as a full second has, and the
bytes that are written for them stay inside the block.
-/
structure EventBuffer.Safe (e : EventBuffer) : Prop where
  oneSecond : ∀ event ∈ e.events, ∀ event' ∈ e.events, eventSecond event = eventSecond event'
  atMost : e.events.length ≤ e.sampleCnt.toNat
  inside : ∀ malloc, (e.dataBuf malloc).beyond = 0

theorem EventBuffer.safe_iff (e : EventBuffer)
    : e.Safe
      ↔ (∀ event ∈ e.events, ∀ event' ∈ e.events, eventSecond event = eventSecond event')
        ∧ e.events.length ≤ e.sampleCnt.toNat := by
  constructor
  · intro safe
    exact ⟨safe.oneSecond, safe.atMost⟩
  · intro both
    obtain ⟨oneSecond, atMost⟩ := both
    refine ⟨oneSecond, atMost, ?_⟩
    intro malloc
    rw [EventBuffer.dataBuf_beyond]
    have bytes := Nat.mul_le_mul_left secblkLenBytes atMost
    omega

namespace C37Reformat

/-- A frame that is saved as a later one of the present second is of the second of all
events that are saved already, and there is room for it in a full second.
-/
def Clean (r : C37Reformat) (frame : C37Buffer) : Prop :=
  r.currentState = .fillBuffer → IsStd frame → time frame = r.presentSec
    → fracTime frame ≠ 0
    → (∀ event ∈ r.c37eventBuf, eventSecond event = time frame)
      ∧ r.c37eventBuf.length < r.sampleCnt.toNat

/-- The saved events make a safe block whenever they are handed over. -/
structure Orderly (r : C37Reformat) : Prop where
  reached : r.Reached
  safe : r.currentState = .fillBuffer → EventBuffer.Safe ⟨r.c37eventBuf, r.sampleCnt⟩

section Step

variable {r next : C37Reformat} {frame : C37Buffer} {out : List EventBuffer}
  {sec : UInt32} {count sampleCnt : UInt16} {events : List Block}

theorem Waiting.orderly (waiting : r.Waiting) : r.Orderly := by
  refine ⟨.waiting waiting, ?_⟩
  intro state
  rw [waiting.state] at state
  cases state

theorem Syncing.orderly (syncing : r.Syncing sec count) : r.Orderly := by
  refine ⟨.syncing syncing, ?_⟩
  intro state
  rw [syncing.state] at state
  cases state

theorem Filling.orderly (filling : r.Filling sampleCnt sec events count)
    (reached : r.Reached) (safe : EventBuffer.Safe ⟨events, sampleCnt⟩) : r.Orderly := by
  obtain ⟨_, rfl, _, rfl, _⟩ := filling
  exact ⟨reached, fun _ => safe⟩

/-- One event is safe in any second that has samples. -/
theorem safe_single (event : Block) (positive : 0 < sampleCnt.toNat)
    : EventBuffer.Safe ⟨[event], sampleCnt⟩ := by
  rw [EventBuffer.safe_iff]
  refine ⟨?_, positive⟩
  intro first member second member'
  rw [List.mem_singleton.mp member, List.mem_singleton.mp member']

/-- So are more events of one second, as long as there is room. -/
theorem safe_append {event : Block}
    (same : ∀ saved ∈ events, eventSecond saved = eventSecond event)
    (room : events.length < sampleCnt.toNat)
    : EventBuffer.Safe ⟨events ++ [event], sampleCnt⟩ := by
  have single {saved : Block} (member : saved ∈ events ++ [event])
      : eventSecond saved = eventSecond event := by
    rcases List.mem_append.mp member with old | new
    · exact same saved old
    · rw [List.mem_singleton.mp new]
  rw [EventBuffer.safe_iff]
  refine ⟨?_, ?_⟩
  · intro first member second member'
    rw [single member, single member']
  · rw [List.length_append]
    exact room

/-- A step hands over nothing but the events that are saved, as one block. -/
theorem Orderly.blocks (orderly : r.Orderly) (received : r.receive frame = some (next, out))
    : ∀ block ∈ out, block.Safe := by
  have empty : ∀ block ∈ ([] : List EventBuffer), block.Safe := by simp
  by_cases std : IsStd frame
  · cases orderly.reached with
    | waiting waiting =>
        obtain ⟨_, received', _⟩ := waiting.step std
        obtain ⟨_, rfl⟩ := receive_unique received' received
        exact empty
    | syncing syncing =>
        rw [(syncing.step std received).1]
        exact empty
    | learned learned =>
        cases learned.filling.step std received with
        | save => exact empty
        | advance =>
            intro block member
            rw [List.mem_singleton.mp member]
            exact orderly.safe learned.state
        | stray => exact empty
        | lose => exact empty
  · rw [receive_nonStd std] at received
    obtain ⟨_, rfl⟩ := Prod.mk.inj (Option.some.inj received)
    exact empty

/-- A clean frame keeps the saved events orderly. -/
theorem Orderly.step (orderly : r.Orderly) (clean : r.Clean frame)
    (received : r.receive frame = some (next, out))
    : next.Orderly := by
  have reached := orderly.reached.step received
  by_cases std : IsStd frame
  · cases orderly.reached with
    | waiting waiting =>
        obtain ⟨_, received', steps⟩ := waiting.step std
        obtain ⟨rfl, _⟩ := receive_unique received' received
        rcases steps with ⟨_, syncing⟩ | ⟨_, rfl⟩
        · exact syncing.orderly
        · exact orderly
    | syncing syncing =>
        rcases (syncing.step std received).2 with waiting | syncing' | ⟨_, filling, _⟩
        · exact waiting.orderly
        · exact syncing'.orderly
        · exact filling.orderly reached (safe_single _ syncing.positive)
    | learned learned =>
        have safe := orderly.safe learned.state
        cases learned.filling.step std received with
        | save sameSec frac filling _ =>
            obtain ⟨same, room⟩ := clean learned.state std sameSec frac
            rw [← eventSecond_savedEvent std] at same
            exact filling.orderly reached (safe_append same room)
        | advance _ _ filling _ =>
            exact filling.orderly reached (safe_single _ learned.positive)
        | stray filling _ => exact filling.orderly reached safe
        | lose waiting => exact waiting.orderly
  · rw [receive_nonStd std] at received
    obtain ⟨rfl, _⟩ := Prod.mk.inj (Option.some.inj received)
    exact ⟨reached, orderly.safe⟩

end Step

/-- Whenever the next frame makes the machine hand over a block, the block is safe. -/
def HandsOverSafe (r : C37Reformat) : Prop :=
  ∀ frame next out, r.receive frame = some (next, out) → ∀ block ∈ out, block.Safe

/-- Every frame of the run is clean in the state that it meets. -/
def CleanRun (r : C37Reformat) (frames : List C37Buffer) : Prop :=
  ∀ before frame after, frames = before ++ frame :: after
    → ∀ reached out, r.run before = some (reached, out) → reached.Clean frame

section Run

variable {r : C37Reformat} {frames : List C37Buffer}

/-- By induction over the frames that are already received. -/
theorem CleanRun.orderly (clean : r.CleanRun frames) (orderly : r.Orderly)
    {before : List C37Buffer} (isPrefix : before <+: frames) {reached : C37Reformat}
    {out : List EventBuffer} (ran : r.run before = some (reached, out))
    : reached.Orderly := by
  induction before using List.reverseRecOn generalizing reached out with
  | nil =>
      obtain ⟨rfl, _⟩ := Prod.mk.inj (Option.some.inj ran)
      exact orderly
  | append_singleton before frame ih =>
      obtain ⟨after, rfl⟩ := isPrefix
      obtain ⟨middle, first, later, ran', runs, _⟩ := OutputRun.run_append_inv ran
      obtain ⟨next, _, _, received, runs', _⟩ := OutputRun.run_cons_inv runs
      obtain ⟨rfl, _⟩ := Prod.mk.inj (Option.some.inj runs')
      have split : before ++ [frame] ++ after = before ++ frame :: after := by simp
      have orderly' := ih ⟨frame :: after, split.symm⟩ ran'
      exact orderly'.step (clean before frame after split middle first ran') received

/-- A frame that is saved can be followed by the first one of the next second. -/
theorem clean_of_handsOverSafe {frame : C37Buffer}
    (safe : ∀ next out, r.receive frame = some (next, out) → next.HandsOverSafe)
    : r.Clean frame := by
  intro state std sameSec frac
  have filling : r.Filling r.sampleCnt r.presentSec r.c37eventBuf r.currentSampleCnt :=
    ⟨state, rfl, rfl, rfl, rfl⟩
  obtain ⟨saved, received, filling', _, _⟩ := filling.save std sameSec frac
  let head := frameAt (r.presentSec + 1) 0
  have headStd : IsStd head := rfl
  have headFrac : fracTime head = 0 := fracTime_frameAt (by decide)
  obtain ⟨_, advanced, _⟩ :=
    filling'.advance headStd (time_frameAt (r.presentSec + 1) 0) headFrac
  have block := safe _ _ received _ _ _ advanced _ (List.mem_singleton_self _)
  refine ⟨?_, ?_⟩
  · intro event member
    rw [← eventSecond_savedEvent std]
    exact block.oneSecond event (List.mem_append_left _ member) _ (by simp)
  · have atMost := block.atMost
    rw [List.length_append] at atMost
    exact atMost

end Run

/-- In a run from the initial state, all blocks that are or can be handed over on the way
are safe if and only if all frames are clean.
-/
theorem run_handsOverSafe_iff (fracSecValues : Nat → UInt32) (frames : List C37Buffer)
    : (∀ before, before <+: frames
        → ∀ r out, (initialReformat fracSecValues).run before = some (r, out)
        → r.HandsOverSafe)
      ↔ (initialReformat fracSecValues).CleanRun frames := by
  constructor
  · intro safe before frame after split reached out ran
    apply clean_of_handsOverSafe
    intro next blocks received
    have isPrefix : before ++ [frame] <+: frames := ⟨after, by simp [split]⟩
    exact safe _ isPrefix next _ (OutputRun.run_append ran (OutputRun.run_cons received rfl))
  · intro clean before isPrefix r out ran frame next blocks received
    have orderly := clean.orderly (waiting_initial fracSecValues).orderly isPrefix ran
    exact orderly.blocks received

/-- After a second of ten samples, eleven frames of one second are handed over together. -/
theorem run_block_overflow
    : ∃ r next block,
        (initialReformat fun _ => 0).run
            (secondAt 7 [1, 2, 3, 4, 5, 6, 7, 8, 9]
              ++ secondAt 8 [1, 2, 3, 4, 5, 5, 6, 7, 8, 9])
          = some (r, [])
        ∧ r.receive (frameAt 9 0) = some (next, [block])
        ∧ ¬block.Safe
        ∧ (block.dataBuf fun _ => 0).beyond = 60 := by
  have ten : IsSecond 7 (frameAt 7 0) ([1, 2, 3, 4, 5, 6, 7, 8, 9].map (frameAt 7)) :=
    isSecond_secondAt 7 (by simp)
  have eleven
      : IsSecond 8 (frameAt 8 0) ([1, 2, 3, 4, 5, 5, 6, 7, 8, 9].map (frameAt 8)) :=
    isSecond_secondAt 8 (by simp)
  have next : IsSecond 9 (frameAt 9 0) (([] : List UInt32).map (frameAt 9)) :=
    isSecond_secondAt 9 (by simp)
  obtain ⟨synced, ran, syncing, _⟩ := (waiting_initial fun _ => 0).sync (by decide) ten (by decide)
  obtain ⟨started, received, filling, _, _⟩ :=
    syncing.finish (by decide) eleven.headStd eleven.headFrac (by decide)
  obtain ⟨filled, ran', filling', _, _⟩ :=
    filling.rest eleven.restStd eleven.restTime eleven.restFrac
  obtain ⟨advanced, received', _⟩ :=
    filling'.advance next.headStd next.headTime next.headFrac
  refine ⟨filled, advanced, _,
    OutputRun.run_append ran (OutputRun.run_cons received ran'), received', ?_, ?_⟩
  · intro safe
    exact absurd safe.atMost (by decide)
  · rw [EventBuffer.dataBuf_beyond]
    decide

end C37Reformat

end Sparcs.C37
