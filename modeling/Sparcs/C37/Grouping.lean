import Sparcs.C37.Reached

/-! A regular stream is grouped into exact seconds. -/

namespace Sparcs.C37

open Blocks (Block)

namespace C37Reformat

theorem syncStep_withNonStd (r : C37Reformat) (count : UInt64) (fracSec sec : UInt32)
    (frame : C37Buffer)
    : (r.withNonStd count).syncStep fracSec sec frame
      = (r.syncStep fracSec sec frame).map fun next => next.withNonStd count := by
  unfold syncStep
  dsimp only
  split_ifs <;> rfl

theorem fillStep_withNonStd (r : C37Reformat) (count : UInt64) (fracSec sec : UInt32)
    (frame : C37Buffer)
    : (r.withNonStd count).fillStep fracSec sec frame
      = ((r.fillStep fracSec sec frame).1.withNonStd count,
          (r.fillStep fracSec sec frame).2) := by
  unfold fillStep
  dsimp only
  split_ifs
  · rfl
  · rfl
  · rfl
  · generalize (List.range r.sampleCnt.toNat).find? _ = found
    cases found <;> rfl

/-- No step looks at that count. -/
theorem receive_withNonStd {r : C37Reformat} {frame : C37Buffer} (std : IsStd frame)
    (count : UInt64)
    : (r.withNonStd count).receive frame
      = (r.receive frame).map fun (next, blocks) => (next.withNonStd count, blocks) := by
  cases state : r.currentState with
  | syncToSec =>
      have state' : (r.withNonStd count).currentState = .syncToSec := state
      rw [receive_sync std state, receive_sync std state', syncStep_withNonStd,
        Option.map_map, Option.map_map]
      rfl
  | fillBuffer =>
      have state' : (r.withNonStd count).currentState = .fillBuffer := state
      rw [receive_fill std state, receive_fill std state', fillStep_withNonStd]
      rfl

/-- Frames of another length change nothing but their count, wherever they stand. -/
theorem run_of_filter {r final : C37Reformat} {frames : List C37Buffer}
    {blocks : List EventBuffer} (count : UInt64)
    (ran : r.run (frames.filter IsStd) = some (final, blocks))
    : ∃ count',
        (r.withNonStd count).run frames = some (final.withNonStd count', blocks) := by
  induction frames generalizing r blocks count with
  | nil =>
      obtain ⟨rfl, rfl⟩ := Prod.mk.inj (Option.some.inj ran)
      exact ⟨count, rfl⟩
  | cons frame frames ih =>
      by_cases std : IsStd frame
      · rw [List.filter_cons_of_pos (by simpa using std)] at ran
        obtain ⟨next, first, later, received, runs, rfl⟩ := OutputRun.run_cons_inv ran
        obtain ⟨count', runs'⟩ := ih count runs
        refine ⟨count', OutputRun.run_cons ?_ runs'⟩
        rw [receive_withNonStd std, received]
        rfl
      · rw [List.filter_cons_of_neg (by simpa using std)] at ran
        obtain ⟨count', runs'⟩ := ih (count + 1) ran
        exact ⟨count', OutputRun.run_cons (receive_nonStd std) runs'⟩

/-- A stream that starts inside a second and runs through whole seconds from `sec` on: the
first one has `n` frames and the later ones have at most as many. Frames of another length
may stand anywhere, and the stream may stop anywhere.
-/
structure RegularStream (n : Nat) (sec : UInt32) (seconds : List (List C37Buffer))
    (frames : List C37Buffer) : Prop where
  tens : n % 10 = 0
  room : n ≤ fracSecValuesLen
  leadIn
    : ∃ leadIn,
        frames.filter IsStd = leadIn ++ seconds.flatten
        ∧ ∀ frame ∈ leadIn, fracTime frame ≠ 0
  consecutive : Consecutive sec seconds
  firstFull : ∀ first second later, seconds = first :: second :: later → first.length = n
  lengths : ∀ second ∈ seconds, second.length ≤ n
  inRange : sec.toNat + seconds.length ≤ 2 ^ 32 - 1

section Regular

variable {n : Nat} {sec : UInt32} {seconds : List (List C37Buffer)}
  {frames : List C37Buffer}

theorem ofNat_mod_ten (tens : n % 10 = 0) (room : n ≤ fracSecValuesLen)
    : UInt16.ofNat n % 10 = 0 := by
  rw [fracSecValuesLen] at room
  apply UInt16.toNat.inj
  rw [UInt16.toNat_mod, UInt16.toNat_ofNat']
  change n % 2 ^ 16 % 10 = 0
  have small : n < 2 ^ 16 := by omega
  rw [Nat.mod_eq_of_lt small, tens]

theorem succ_ne_zero_of_lt {sec : UInt32} (inRange : sec.toNat + 1 < 2 ^ 32)
    : sec + 1 ≠ 0 := by
  intro wraps
  have value := congrArg UInt32.toNat wraps
  rw [UInt32.toNat_add] at value
  change (sec.toNat + 1) % 2 ^ 32 = 0 at value
  omega

/-- Two counts that fit the array differ as 16-bit numbers if they differ. -/
theorem ofNat_ne_iff {count : Nat} (fits : count ≤ n) (room : n ≤ fracSecValuesLen)
    : UInt16.ofNat count ≠ UInt16.ofNat n ↔ count ≠ n := by
  rw [fracSecValuesLen] at room
  rw [not_iff_not, ← UInt16.toNat_inj, UInt16.toNat_ofNat', UInt16.toNat_ofNat']
  omega

/-- The seconds that are counted as incomplete are those of another length. -/
theorem RegularStream.countP_eq (stream : RegularStream n sec seconds frames)
    : seconds.tail.dropLast.countP (fun frames => UInt16.ofNat frames.length ≠ UInt16.ofNat n)
      = seconds.tail.dropLast.countP (fun frames => frames.length ≠ n) := by
  apply List.countP_congr
  intro second member
  have inSeconds := List.mem_of_mem_tail (List.mem_of_mem_dropLast member)
  simpa using not_congr (not_iff_not.mp (ofNat_ne_iff (stream.lengths second inSeconds)
    stream.room))

/-- The first second is counted and the later ones are saved; the machine ends in one of
three places, by how many seconds have begun.
-/
theorem RegularStream.run_seconds (stream : RegularStream n sec seconds frames)
    {r : C37Reformat} (waiting : r.Waiting)
    : ∃ final,
        r.run seconds.flatten
          = some (final, seconds.tail.dropLast.map (secondBlock (UInt16.ofNat n)))
        ∧ final.missingC37events
          = r.missingC37events
            + UInt64.ofNat
              (seconds.tail.dropLast.countP
                (fun frames => UInt16.ofNat frames.length ≠ UInt16.ofNat n)) := by
  obtain ⟨tens, room, _, consecutive, firstFull, lengths, inRange⟩ := stream
  cases consecutive with
  | nil => exact ⟨r, rfl, by simp⟩
  | @cons _ head rest later now then_ =>
      rw [List.length_cons] at inRange
      have notLast : sec + 1 ≠ 0 := succ_ne_zero_of_lt (by omega)
      have fits := (lengths _ List.mem_cons_self).trans room
      obtain ⟨synced, ran, syncing, missing⟩ := waiting.sync notLast now fits
      cases then_ with
      | nil =>
          refine ⟨synced, ?_, by simpa using missing⟩
          rw [List.flatten_cons, List.flatten_nil, List.append_nil]
          exact ran
      | @cons _ head' rest' later' now' then' =>
          rw [firstFull _ _ _ rfl] at syncing
          obtain ⟨filled, ran', filling, missing'⟩ :=
            syncing.second notLast (ofNat_mod_ten tens room) now'
          obtain ⟨final, ran'', _, counted⟩ := filling.seconds then'
          refine ⟨final, ?_, ?_⟩
          · rw [List.flatten_cons, List.flatten_cons]
            exact OutputRun.run_append ran (OutputRun.run_append ran' ran'')
          · rw [counted, missing', missing, List.tail_cons]

end Regular

/-- On a regular stream, each second after the first full one that is followed by a
successor gives one block, with the frames of that second in the order of arrival, and
nothing else gives a block. The seconds of another length are counted.
-/
theorem run_regularStream {n : Nat} {sec : UInt32} {seconds : List (List C37Buffer)}
    {frames : List C37Buffer} (fracSecValues : Nat → UInt32)
    (stream : RegularStream n sec seconds frames)
    : ∃ final blocks,
        (initialReformat fracSecValues).run frames = some (final, blocks)
        ∧ blocks.map EventBuffer.events = seconds.tail.dropLast.map (List.map savedEvent)
        ∧ final.missingC37events.toNat
          = seconds.tail.dropLast.countP (fun frames => frames.length ≠ n) := by
  obtain ⟨leadIn, filtered, fractions⟩ := stream.leadIn
  have waiting := waiting_initial fracSecValues
  have standard : ∀ frame ∈ leadIn, IsStd frame := by
    intro frame member
    have kept : frame ∈ frames.filter IsStd := by
      rw [filtered]
      exact List.mem_append_left _ member
    simpa using (List.mem_filter.mp kept).2
  obtain ⟨final, ran, missing⟩ := stream.run_seconds waiting
  have runs := OutputRun.run_append (waiting.skips standard fractions) ran
  rw [← filtered] at runs
  obtain ⟨count, runs'⟩ := run_of_filter (initialReformat fracSecValues).nonStdC37events runs
  refine ⟨_, _, runs', ?_, ?_⟩
  · rw [List.nil_append, List.map_map]
    rfl
  · have counted := stream.countP_eq
    have bounded : seconds.tail.dropLast.countP (fun frames => frames.length ≠ n)
        ≤ seconds.length :=
      List.countP_le_length.trans (by simp; omega)
    have inRange := stream.inRange
    change final.missingC37events.toNat = _
    rw [missing, counted]
    change (0 + UInt64.ofNat _).toNat = _
    rw [UInt64.zero_add, UInt64.toNat_ofNat', Nat.mod_eq_of_lt (by omega)]

/-- Ten frames, then three of the next second, then a second that is cut, with a frame of
another length among them.
-/
theorem run_regularStream_three
    : ∃ final blocks,
        (initialReformat fun _ => 0).run
            (frameAt 6 8 :: { frameAt 0 0 with msgLenBytes := 90 }
              :: (secondAt 7 [1, 2, 3, 4, 5, 6, 7, 8, 9] ++ secondAt 8 [2, 5]
                ++ secondAt 9 [1]))
          = some (final, blocks)
        ∧ blocks.map EventBuffer.events = [(secondAt 8 [2, 5]).map savedEvent]
        ∧ final.missingC37events.toNat = 1 := by
  have consecutive : Consecutive 7
      [secondAt 7 [1, 2, 3, 4, 5, 6, 7, 8, 9], secondAt 8 [2, 5], secondAt 9 [1]] :=
    .cons (isSecond_secondAt 7 (by simp))
      (.cons (isSecond_secondAt 8 (by simp))
        (.cons (isSecond_secondAt 9 (by simp)) (.nil _)))
  have leadIn : ∀ frame ∈ [frameAt 6 8], fracTime frame ≠ 0 := by
    intro frame member
    rw [List.mem_singleton.mp member, fracTime_frameAt (by decide)]
    decide
  exact run_regularStream (fun _ => 0)
    (RegularStream.mk (n := 10) (by decide) (by decide) ⟨[frameAt 6 8], rfl, leadIn⟩
      consecutive
      (by intro first second later split; obtain ⟨rfl, _⟩ := List.cons.inj split; rfl)
      (by simp [secondAt]) (by decide))

end C37Reformat

end Sparcs.C37
