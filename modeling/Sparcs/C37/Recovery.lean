import Sparcs.C37.Seconds

/-! What is left of a gap is gone after one block. -/

namespace Sparcs.C37

open Blocks (Block)

/-- Seconds in a row from `sec` on, each with the fractions of the pattern. The stream may
stop anywhere in the last one.
-/
structure Complete (pattern : List UInt32) (sec : UInt32) (seconds : List (List C37Buffer))
    : Prop where
  consecutive : Consecutive sec seconds
  fractions : ∀ second ∈ seconds.dropLast, second.map fracTime = pattern
  lastFractions : ∀ last ∈ seconds.getLast?, last.map fracTime <+: pattern

theorem Complete.pattern_head {pattern : List UInt32} {sec : UInt32}
    {second : List C37Buffer} {later : List (List C37Buffer)}
    (complete : Complete pattern sec (second :: later))
    : ∃ rest, pattern = 0 :: rest := by
  obtain ⟨consecutive, fractions, lastFractions⟩ := complete
  cases consecutive with
  | @cons _ head frames _ now _ =>
      have isPrefix : (head :: frames).map fracTime <+: pattern := by
        cases later with
        | nil => exact lastFractions _ rfl
        | cons next later =>
            rw [fractions (head :: frames) (by simp)]
      rw [List.map_cons, now.headFrac] at isPrefix
      obtain ⟨more, rfl⟩ := isPrefix
      exact ⟨_, rfl⟩

/-- All seconds but the last one have the fractions of the pattern. -/
theorem Complete.cons_inv {pattern : List UInt32} {sec : UInt32} {second : List C37Buffer}
    {later : List (List C37Buffer)} (complete : Complete pattern sec (second :: later))
    : second.length ≤ pattern.length
      ∧ (later ≠ [] → second.map fracTime = pattern)
      ∧ Complete pattern (sec + 1) later := by
  obtain ⟨consecutive, fractions, lastFractions⟩ := complete
  have later' : Consecutive (sec + 1) later := by
    cases consecutive with
    | cons _ then_ => exact then_
  cases later with
  | nil =>
      have isPrefix := lastFractions second rfl
      exact ⟨by simpa using isPrefix.length_le, by simp, ⟨later', by simp, by simp⟩⟩
  | cons next later =>
      have whole : second.map fracTime = pattern := fractions second (by simp)
      refine ⟨by rw [← whole, List.length_map], fun _ => whole, later', ?_, lastFractions⟩
      intro member inLater
      exact fractions member (List.mem_cons_of_mem _ inLater)

namespace C37Reformat

section Recover

variable {r : C37Reformat} {sec : UInt32}

/-- The first frame of a second is the next one of that second or is found at the first
place of the array. Only then are the saved events left as they are.
-/
theorem Learned.head (learned : r.Learned) {head : C37Buffer} (std : IsStd head)
    (headTime : time head = sec) (headFrac : fracTime head = 0)
    : ∃ next out events,
        r.receive head = some (next, out)
        ∧ next.Filling r.sampleCnt sec events 1
        ∧ next.fracSecValues = r.fracSecValues := by
  by_cases nextSec : sec = r.presentSec + 1
  · obtain ⟨next, received, filling, values, _⟩ :=
      learned.filling.advance std (headTime.trans nextSec) headFrac
    rw [← nextSec] at filling
    exact ⟨next, _, _, received, filling, values⟩
  · have notSave : ¬(time head = r.presentSec ∧ fracTime head ≠ 0) := by
      simp [headFrac]
    have notNext : ¬(time head = r.presentSec + 1 ∧ fracTime head = 0) := by
      rw [headTime]
      exact fun both => nextSec both.1
    have found : (List.range r.sampleCnt.toNat).find?
          (fun i => fracTime head = r.fracSecValues i)
        = some 0 := by
      obtain ⟨count, counted⟩ := Nat.exists_eq_succ_of_ne_zero learned.positive.ne'
      rw [counted, List.range_succ_eq_map]
      simp [headFrac, learned.firstValue]
    obtain ⟨next, received, filling, values⟩ :=
      learned.filling.stray std notSave notNext found
    rw [headTime] at filling
    exact ⟨next, _, _, received, filling, values⟩

/-- Whatever the state was before, a second leaves the machine at its end. -/
theorem Learned.second (learned : r.Learned) {head : C37Buffer} {rest : List C37Buffer}
    (second : IsSecond sec head rest)
    : ∃ next out events,
        r.run (head :: rest) = some (next, out)
        ∧ next.Filling r.sampleCnt sec events (UInt16.ofNat (head :: rest).length)
        ∧ next.fracSecValues = r.fracSecValues := by
  obtain ⟨middle, out, events, received, filling, values⟩ :=
    learned.head second.headStd second.headTime second.headFrac
  obtain ⟨next, ran, filling', values', _⟩ :=
    filling.rest second.restStd second.restTime second.restFrac
  refine ⟨next, _, events ++ rest.map savedEvent, OutputRun.run_cons received ran, ?_,
    values'.trans values⟩
  rw [List.length_cons, UInt16.ofNat_add, UInt16.add_comm]
  exact filling'

/-- The first two seconds may put out anything, and from then on each block holds the
second that has just ended.
-/
theorem Learned.recover (learned : r.Learned) {first second : List C37Buffer}
    {later : List (List C37Buffer)}
    (consecutive : Consecutive sec (first :: second :: later))
    : ∃ middle out final,
        r.run (first ++ second) = some (middle, out)
        ∧ middle.run later.flatten
          = some (final, (second :: later).dropLast.map (secondBlock r.sampleCnt))
        ∧ final.currentState = .fillBuffer := by
  cases consecutive with
  | cons now then_ =>
      obtain ⟨afterFirst, out, events, ran, filling, _⟩ := learned.second now
      cases then_ with
      | cons now' then' =>
          obtain ⟨middle, ran', filling', _⟩ := filling.second now'
          obtain ⟨final, ran'', state, _⟩ := filling'.seconds then'
          exact ⟨middle, _, final, OutputRun.run_append ran ran', ran'', state⟩

/-- The machine stays in the state, for it is there whenever the stream stops. -/
theorem Learned.stays (learned : r.Learned) {seconds : List (List C37Buffer)}
    (consecutive : Consecutive sec seconds)
    : ∃ final out,
        r.run seconds.flatten = some (final, out) ∧ final.currentState = .fillBuffer := by
  cases seconds with
  | nil => exact ⟨r, [], rfl, learned.state⟩
  | cons first later =>
      cases later with
      | nil =>
          cases consecutive with
          | cons now _ =>
              obtain ⟨final, out, _, ran, filling, _⟩ := learned.second now
              rw [List.flatten_cons, List.flatten_nil, List.append_nil]
              exact ⟨final, out, ran, filling.state⟩
      | cons second later =>
          obtain ⟨middle, out, final, ran, ran', state⟩ := learned.recover consecutive
          rw [List.flatten_cons, List.flatten_cons, ← List.append_assoc]
          exact ⟨final, _, OutputRun.run_append ran ran', state⟩

end Recover

/-- The machine fills a buffer and has the count and the fractions of the pattern. -/
structure Knows (r : C37Reformat) (pattern : List UInt32) : Prop where
  state : r.currentState = .fillBuffer
  sampleCnt : r.sampleCnt.toNat = pattern.length
  values : ∀ i (inside : i < pattern.length), r.fracSecValues i = pattern[i]

/-- Whatever is left of a gap, complete seconds keep the machine in `fillBuffer`, and from
the third one on each block holds the frames of the second that has just ended.
-/
theorem fillBuffer_recovers {r : C37Reformat} {pattern : List UInt32} {sec : UInt32}
    {seconds : List (List C37Buffer)} (known : r.Knows pattern)
    (complete : Complete pattern sec seconds)
    : (∃ final out,
        r.run seconds.flatten = some (final, out) ∧ final.currentState = .fillBuffer)
      ∧ ∀ first second later, seconds = first :: second :: later
        → ∃ middle out final,
          r.run (first ++ second) = some (middle, out)
          ∧ middle.run later.flatten
            = some (final, (second :: later).dropLast.map (secondBlock r.sampleCnt))
          ∧ ∀ ended ∈ (second :: later).dropLast, ended.length = pattern.length := by
  cases seconds with
  | nil => exact ⟨⟨r, [], rfl, known.state⟩, by simp⟩
  | cons first later =>
      obtain ⟨rest, rfl⟩ := complete.pattern_head
      have learned : r.Learned :=
        ⟨known.state, by simp [known.sampleCnt], known.values 0 (by simp)⟩
      refine ⟨learned.stays complete.consecutive, ?_⟩
      intro _ second later' split
      obtain ⟨rfl, rfl⟩ := List.cons.inj split
      obtain ⟨middle, out, final, ran, ran', _⟩ := learned.recover complete.consecutive
      refine ⟨middle, out, final, ran, ran', ?_⟩
      intro ended member
      have whole : ended.map fracTime = 0 :: rest :=
        complete.fractions ended (List.mem_cons_of_mem _ member)
      rw [← whole, List.length_map]

/-- Events of another second and a wrong count, as after a jump of the clock. -/
theorem fillBuffer_recovers_jump
    : let seconds := [secondAt 90 [5], secondAt 91 [5], secondAt 92 [5], secondAt 93 []]
      let r : C37Reformat :=
        { initialReformat (fun i => if i = 1 then 5 else 0) with
          currentState := .fillBuffer
          sampleCnt := 2
          presentSec := 40
          currentSampleCnt := 17
          c37eventBuf := [savedEvent (frameAt 3 3)] }
      ∃ middle out final,
        r.run (secondAt 90 [5] ++ secondAt 91 [5]) = some (middle, out)
        ∧ middle.run (secondAt 92 [5] ++ secondAt 93 [])
          = some (final, [secondBlock 2 (secondAt 91 [5]), secondBlock 2 (secondAt 92 [5])])
        ∧ ∀ ended ∈ (seconds.drop 1).dropLast, ended.length = 2 := by
  intro seconds r
  have known : r.Knows [0, 5] := by
    refine ⟨rfl, rfl, ?_⟩
    intro i inside
    have which : i = 0 ∨ i = 1 := by
      rw [List.length_cons, List.length_singleton] at inside
      omega
    rcases which with rfl | rfl <;> rfl
  have consecutive : Consecutive 90 seconds :=
    .cons (isSecond_secondAt 90 (by simp))
      (.cons (isSecond_secondAt 91 (by simp))
        (.cons (isSecond_secondAt 92 (by simp))
          (.cons (isSecond_secondAt 93 (by simp)) (.nil _))))
  have complete : Complete [0, 5] 90 seconds := by
    refine ⟨consecutive, ?_, ?_⟩
    · simp [seconds, secondAt, fracTime_frameAt]
    · simp [seconds, secondAt, fracTime_frameAt]
  exact (fillBuffer_recovers known complete).2 _ _ _ rfl

end C37Reformat

end Sparcs.C37
