import Sparcs.C37.Reformat

/-! Whole seconds of frames in both states of the reformatter. -/

namespace Sparcs.C37

open Blocks (Block)

/-- A frame of the length that the reformatter processes. -/
def IsStd (frame : C37Buffer) : Prop :=
  frame.msgLenBytes = c37DatumTypicalLen

instance : DecidablePred IsStd :=
  fun frame => inferInstanceAs (Decidable (frame.msgLenBytes = c37DatumTypicalLen))

/-- The frames of one second: the first one alone has the fraction zero. -/
structure IsSecond (sec : UInt32) (head : C37Buffer) (rest : List C37Buffer) : Prop where
  headStd : IsStd head
  headTime : time head = sec
  headFrac : fracTime head = 0
  restStd : ∀ frame ∈ rest, IsStd frame
  restTime : ∀ frame ∈ rest, time frame = sec
  restFrac : ∀ frame ∈ rest, fracTime frame ≠ 0

/-- Seconds in a row, each with its frames, from second `sec` on. -/
inductive Consecutive : UInt32 → List (List C37Buffer) → Prop where
  | nil (sec : UInt32) : Consecutive sec []
  | cons {sec : UInt32} {head : C37Buffer} {rest : List C37Buffer}
    {later : List (List C37Buffer)} (now : IsSecond sec head rest)
    (then_ : Consecutive (sec + 1) later)
    : Consecutive sec ((head :: rest) :: later)

/-- A data frame of the processed length that holds nothing but its time. -/
def frameAt (sec fracSec : UInt32) : C37Buffer :=
  { buffer := fun k =>
      if socIndx ≤ k.val ∧ k.val < socIndx + 4 then
        UInt8.ofNat (sec.toNat / 256 ^ (socIndx + 3 - k.val))
      else if fracsecIndx ≤ k.val ∧ k.val < fracsecIndx + 4 then
        UInt8.ofNat (fracSec.toNat / 256 ^ (fracsecIndx + 3 - k.val))
      else
        0
    msgType := dataMsgTypeValue
    msgLenBytes := c37DatumTypicalLen }

/-- The bytes of a word, most significant first, make the word. -/
theorem word_bytes (word : UInt32)
    : ((UInt8.ofNat (word.toNat / 256 ^ 3)).toUInt32 <<< 24)
        + ((UInt8.ofNat (word.toNat / 256 ^ 2)).toUInt32 <<< 16)
        + ((UInt8.ofNat (word.toNat / 256 ^ 1)).toUInt32 <<< 8)
        + (UInt8.ofNat (word.toNat / 256 ^ 0)).toUInt32
      = word := by
  have bounded := word.toNat_lt
  apply UInt32.toNat.inj
  simp [UInt32.toNat_add, UInt32.toNat_shiftLeft, Nat.shiftLeft_eq]
  omega

theorem time_frameAt (sec fracSec : UInt32) : time (frameAt sec fracSec) = sec :=
  word_bytes sec

theorem fracTime_frameAt {sec fracSec : UInt32} (fits : fracSec < 0x1000000)
    : fracTime (frameAt sec fracSec) = fracSec := by
  have whole := word_bytes fracSec
  have top : UInt8.ofNat (fracSec.toNat / 256 ^ 3) = 0 := by
    have small : fracSec.toNat < 256 ^ 3 := UInt32.lt_iff_toNat_lt.mp fits
    rw [Nat.div_eq_of_lt small]
    rfl
  have topByte : (0 : UInt8).toUInt32 <<< 24 = 0 := rfl
  rw [top, topByte, UInt32.zero_add] at whole
  exact whole

/-- The first frame of a second and, with these fractions, the later ones. -/
def secondAt (sec : UInt32) (fracs : List UInt32) : List C37Buffer :=
  frameAt sec 0 :: fracs.map (frameAt sec)

theorem isSecond_secondAt (sec : UInt32) {fracs : List UInt32}
    (fits : ∀ frac ∈ fracs, frac < 0x1000000 ∧ frac ≠ 0)
    : IsSecond sec (frameAt sec 0) (fracs.map (frameAt sec)) := by
  refine ⟨rfl, time_frameAt sec 0, fracTime_frameAt (by decide), ?_, ?_, ?_⟩
  all_goals
    intro frame member
    obtain ⟨frac, isFrac, rfl⟩ := List.mem_map.mp member
  · rfl
  · exact time_frameAt sec frac
  · rw [fracTime_frameAt (fits frac isFrac).1]
    exact (fits frac isFrac).2

namespace C37Reformat

/-- The state with another count of frames that were not processed. -/
abbrev withNonStd (r : C37Reformat) (count : UInt64) : C37Reformat :=
  { r with nonStdC37events := count }

theorem receive_nonStd {r : C37Reformat} {frame : C37Buffer} (foreign : ¬IsStd frame)
    : r.receive frame = some (r.withNonStd (r.nonStdC37events + 1), []) := by
  have other : frame.msgLenBytes ≠ c37DatumTypicalLen := foreign
  rw [receive, processC37event, if_pos other]

section Receive

variable {r : C37Reformat} {frame : C37Buffer}

theorem receive_sync (std : IsStd frame) (state : r.currentState = .syncToSec)
    : r.receive frame
      = (r.syncStep (fracTime frame) (time frame) frame).map fun r => (r, []) := by
  have standard : ¬frame.msgLenBytes ≠ c37DatumTypicalLen := not_not.mpr std
  rw [receive, processC37event, if_neg standard]
  simp only [state]

theorem receive_fill (std : IsStd frame) (state : r.currentState = .fillBuffer)
    : r.receive frame = some (r.fillStep (fracTime frame) (time frame) frame) := by
  have standard : ¬frame.msgLenBytes ≠ c37DatumTypicalLen := not_not.mpr std
  rw [receive, processC37event, if_neg standard]
  simp only [state]

end Receive

-----------------------------------------------------------------------------------------
-- The state fillBuffer
-----------------------------------------------------------------------------------------

/-- The machine waits for the first frame of a second. -/
structure Waiting (r : C37Reformat) : Prop where
  state : r.currentState = .syncToSec
  notStarted : r.syncStarted = false

/-- The machine fills a buffer, with fractions of a second that begins with zero. -/
structure Learned (r : C37Reformat) : Prop where
  state : r.currentState = .fillBuffer
  positive : 0 < r.sampleCnt.toNat
  firstValue : r.fracSecValues 0 = 0

/-- The second `sec` is being filled: these events are saved and counted so far. -/
structure Filling (r : C37Reformat) (sampleCnt : UInt16) (sec : UInt32)
    (events : List Block) (count : UInt16) : Prop where
  state : r.currentState = .fillBuffer
  sampleCnt : r.sampleCnt = sampleCnt
  presentSec : r.presentSec = sec
  events : r.c37eventBuf = events
  count : r.currentSampleCnt = count

theorem Learned.filling {r : C37Reformat} (learned : r.Learned)
    : r.Filling r.sampleCnt r.presentSec r.c37eventBuf r.currentSampleCnt :=
  ⟨learned.state, rfl, rfl, rfl, rfl⟩

section Filling

variable {r : C37Reformat} {sampleCnt count : UInt16} {sec : UInt32} {events : List Block}

/-- A later frame of the second is saved. -/
theorem Filling.save (filling : r.Filling sampleCnt sec events count) {frame : C37Buffer}
    (std : IsStd frame) (sameSec : time frame = sec) (frac : fracTime frame ≠ 0)
    : ∃ next,
        r.receive frame = some (next, [])
        ∧ next.Filling sampleCnt sec (events ++ [savedEvent frame]) (count + 1)
        ∧ next.fracSecValues = r.fracSecValues
        ∧ next.missingC37events = r.missingC37events := by
  obtain ⟨state, cnt, present, saved, counted⟩ := filling
  let next : C37Reformat :=
    { r.saveC37event frame with currentSampleCnt := r.currentSampleCnt + 1 }
  have branch : time frame = r.presentSec ∧ fracTime frame ≠ 0 :=
    ⟨sameSec.trans present.symm, frac⟩
  refine ⟨next, ?_, ⟨state, cnt, present, ?_, ?_⟩, rfl, rfl⟩
  · rw [receive_fill std state, fillStep, if_pos branch]
    rfl
  · change r.c37eventBuf ++ [savedEvent frame] = _
    rw [saved]
  · change r.currentSampleCnt + 1 = _
    rw [counted]

/-- The first frame of the next second hands over the events and starts anew. -/
theorem Filling.advance (filling : r.Filling sampleCnt sec events count)
    {frame : C37Buffer} (std : IsStd frame) (nextSec : time frame = sec + 1)
    (frac : fracTime frame = 0)
    : ∃ next,
        r.receive frame = some (next, [⟨events, sampleCnt⟩])
        ∧ next.Filling sampleCnt (sec + 1) [savedEvent frame] 1
        ∧ next.fracSecValues = r.fracSecValues
        ∧ next.missingC37events
          = if count ≠ sampleCnt then r.missingC37events + 1 else r.missingC37events := by
  obtain ⟨state, cnt, present, saved, counted⟩ := filling
  have notSave : ¬(time frame = r.presentSec ∧ fracTime frame ≠ 0) := by
    simp [frac]
  have branch : time frame = r.presentSec + 1 ∧ fracTime frame = 0 := by
    rw [present]
    exact ⟨nextSec, frac⟩
  let next : C37Reformat :=
    { r with
      missingC37events :=
        if r.currentSampleCnt ≠ r.sampleCnt then r.missingC37events + 1
        else r.missingC37events
      processedC37oneSecBuffers := r.processedC37oneSecBuffers + 1
      c37eventBuf := [savedEvent frame]
      currentSampleCnt := 1
      previousSec := r.presentSec
      presentSec := time frame }
  have stepped : r.fillStep (fracTime frame) (time frame) frame
      = (next, [⟨r.c37eventBuf, r.sampleCnt⟩]) := by
    rw [fillStep, if_neg notSave, if_pos branch]
    rfl
  refine ⟨next, ?_, ⟨state, cnt, nextSec, rfl, rfl⟩, rfl, ?_⟩
  · rw [receive_fill std state, stepped, saved, cnt]
  · rw [← cnt, ← counted]

/-- A frame that neither belongs to the second nor begins the next one, and whose fraction
is known, moves the machine to its second with the events that are saved already.
-/
theorem Filling.stray (filling : r.Filling sampleCnt sec events count)
    {frame : C37Buffer} (std : IsStd frame) (notSave : ¬(time frame = sec ∧ fracTime frame ≠ 0))
    (notNext : ¬(time frame = sec + 1 ∧ fracTime frame = 0)) {i : Nat}
    (found
      : (List.range sampleCnt.toNat).find? (fun i => fracTime frame = r.fracSecValues i)
        = some i)
    : ∃ next,
        r.receive frame = some (next, [])
        ∧ next.Filling sampleCnt (time frame) events (UInt16.ofNat (i + 1))
        ∧ next.fracSecValues = r.fracSecValues := by
  obtain ⟨state, rfl, rfl, rfl, rfl⟩ := filling
  let next : C37Reformat :=
    { r with
      extendedMissingC37events := r.extendedMissingC37events + 1
      previousSec := r.presentSec
      presentSec := time frame
      currentSampleCnt := UInt16.ofNat (i + 1) }
  refine ⟨next, ?_, ⟨state, rfl, rfl, rfl, rfl⟩, rfl⟩
  rw [receive_fill std state, fillStep, if_neg notSave, if_neg notNext]
  simp only [found]
  rfl

/-- If its fraction is not known, the synchronisation starts anew. -/
theorem Filling.lose (filling : r.Filling sampleCnt sec events count)
    {frame : C37Buffer} (std : IsStd frame) (notSave : ¬(time frame = sec ∧ fracTime frame ≠ 0))
    (notNext : ¬(time frame = sec + 1 ∧ fracTime frame = 0))
    (lost
      : (List.range sampleCnt.toNat).find? (fun i => fracTime frame = r.fracSecValues i)
        = none)
    : ∃ next, r.receive frame = some (next, []) ∧ next.Waiting := by
  obtain ⟨state, rfl, rfl, rfl, rfl⟩ := filling
  let next : C37Reformat :=
    { r with
      extendedMissingC37events := r.extendedMissingC37events + 1
      previousSec := r.presentSec
      presentSec := time frame
      currentState := .syncToSec
      syncStarted := false
      sampleCnt := 0
      c37eventSequenceFailures := r.c37eventSequenceFailures + 1 }
  refine ⟨next, ?_, ⟨rfl, rfl⟩⟩
  rw [receive_fill std state, fillStep, if_neg notSave, if_neg notNext]
  simp only [lost]
  rfl

/-- The later frames of a second, by induction over them. -/
theorem Filling.rest (filling : r.Filling sampleCnt sec events count)
    {frames : List C37Buffer} (std : ∀ frame ∈ frames, IsStd frame)
    (sameSec : ∀ frame ∈ frames, time frame = sec)
    (frac : ∀ frame ∈ frames, fracTime frame ≠ 0)
    : ∃ next,
        r.run frames = some (next, [])
        ∧ next.Filling sampleCnt sec (events ++ frames.map savedEvent)
            (count + UInt16.ofNat frames.length)
        ∧ next.fracSecValues = r.fracSecValues
        ∧ next.missingC37events = r.missingC37events := by
  induction frames generalizing r events count with
  | nil => exact ⟨r, rfl, by simpa using filling, rfl, rfl⟩
  | cons frame frames ih =>
      obtain ⟨next, received, filling', values, missing⟩ :=
        filling.save (std frame (by simp)) (sameSec frame (by simp)) (frac frame (by simp))
      obtain ⟨final, ran, filling'', values', missing'⟩ :=
        ih filling' (fun f member => std f (by simp [member]))
          (fun f member => sameSec f (by simp [member]))
          (fun f member => frac f (by simp [member]))
      refine ⟨final, OutputRun.run_cons received ran, ?_, values'.trans values,
        missing'.trans missing⟩
      have length : count + UInt16.ofNat (frame :: frames).length
          = count + 1 + UInt16.ofNat frames.length := by
        rw [List.length_cons, UInt16.ofNat_add, UInt16.add_assoc,
          UInt16.add_comm (UInt16.ofNat frames.length)]
        rfl
      rw [length, List.map_cons, ← List.singleton_append, ← List.append_assoc]
      exact filling''

/-- A whole second after a second that is being filled. -/
theorem Filling.second (filling : r.Filling sampleCnt sec events count)
    {head : C37Buffer} {rest : List C37Buffer} (second : IsSecond (sec + 1) head rest)
    : ∃ next,
        r.run (head :: rest) = some (next, [⟨events, sampleCnt⟩])
        ∧ next.Filling sampleCnt (sec + 1) ((head :: rest).map savedEvent)
            (UInt16.ofNat (head :: rest).length)
        ∧ next.fracSecValues = r.fracSecValues
        ∧ next.missingC37events
          = if count ≠ sampleCnt then r.missingC37events + 1 else r.missingC37events := by
  obtain ⟨middle, received, filling', values, missing⟩ :=
    filling.advance second.headStd second.headTime second.headFrac
  obtain ⟨next, ran, filling'', values', missing'⟩ :=
    filling'.rest second.restStd second.restTime second.restFrac
  refine ⟨next, OutputRun.run_cons received ran, ?_, values'.trans values,
    missing'.trans missing⟩
  rw [List.length_cons, UInt16.ofNat_add, UInt16.add_comm]
  exact filling''

/-- The block of a second's frames. -/
def secondBlock (sampleCnt : UInt16) (frames : List C37Buffer) : EventBuffer :=
  ⟨frames.map savedEvent, sampleCnt⟩

/-- Seconds after one that is being filled: each second with a successor gives its block,
and those of another length are counted. The induction carries the last second.
-/
theorem Filling.seconds {frames : List C37Buffer}
    (filling
      : r.Filling sampleCnt sec (frames.map savedEvent) (UInt16.ofNat frames.length))
    {later : List (List C37Buffer)} (consecutive : Consecutive (sec + 1) later)
    : ∃ next,
        r.run later.flatten
          = some (next, (frames :: later).dropLast.map (secondBlock sampleCnt))
        ∧ next.currentState = .fillBuffer
        ∧ next.missingC37events
          = r.missingC37events
            + UInt64.ofNat
              ((frames :: later).dropLast.countP
                (fun frames => UInt16.ofNat frames.length ≠ sampleCnt)) := by
  induction later generalizing r sec frames with
  | nil => exact ⟨r, rfl, filling.state, by simp⟩
  | cons second later ih =>
      cases consecutive with
      | cons now then_ =>
          obtain ⟨middle, ran, filling', _, missing⟩ := filling.second now
          obtain ⟨next, ran', state, missing'⟩ := ih filling' then_
          refine ⟨next, ?_, state, ?_⟩
          · rw [List.flatten_cons, List.dropLast_cons_cons, List.map_cons]
            exact OutputRun.run_append ran ran'
          · rw [missing', missing, List.dropLast_cons_cons, List.countP_cons]
            split_ifs <;> simp_all [UInt64.add_assoc, UInt64.add_comm]

end Filling

-----------------------------------------------------------------------------------------
-- The state syncToSec
-----------------------------------------------------------------------------------------

/-- The samples of the second `sec` are being counted. -/
structure Syncing (r : C37Reformat) (sec : UInt32) (count : UInt16) : Prop where
  state : r.currentState = .syncToSec
  started : r.syncStarted = true
  presentSec : r.presentSec = sec
  sampleCnt : r.sampleCnt = count
  positive : 1 ≤ count.toNat
  bounded : count.toNat ≤ fracSecValuesLen
  firstValue : r.fracSecValues 0 = 0

theorem not_succ_lt {sec : UInt32} (notLast : sec + 1 ≠ 0) : ¬sec + 1 < sec := by
  rw [UInt32.lt_iff_toNat_lt, UInt32.toNat_add]
  have bounded := sec.toNat_lt
  have inRange : sec.toNat + 1 ≠ 2 ^ 32 := by
    intro last
    apply notLast
    apply UInt32.toNat.inj
    rw [UInt32.toNat_add]
    change (sec.toNat + 1) % 2 ^ 32 = 0
    omega
  change ¬(sec.toNat + 1) % 2 ^ 32 < sec.toNat
  omega

theorem lt_of_succ_eq_zero {sec : UInt32} (last : sec + 1 = 0) : sec + 1 < sec := by
  have value := congrArg UInt32.toNat last
  rw [UInt32.toNat_add] at value
  change (sec.toNat + 1) % 2 ^ 32 = 0 at value
  rw [last, UInt32.lt_iff_toNat_lt]
  change 0 < sec.toNat
  omega

section Sync

variable {r : C37Reformat} {frame : C37Buffer}

/-- Frames inside a second do not start the synchronisation. -/
theorem Waiting.skip (waiting : r.Waiting) (std : IsStd frame)
    (frac : fracTime frame ≠ 0)
    : r.receive frame = some (r, []) := by
  rw [receive_sync std waiting.state, syncStep]
  simp [waiting.notStarted, frac]

theorem Waiting.skips (waiting : r.Waiting) {frames : List C37Buffer}
    (std : ∀ frame ∈ frames, IsStd frame) (frac : ∀ frame ∈ frames, fracTime frame ≠ 0)
    : r.run frames = some (r, []) := by
  induction frames with
  | nil => rfl
  | cons frame frames ih =>
      have skipped := waiting.skip (std frame (by simp)) (frac frame (by simp))
      exact OutputRun.run_cons skipped
        (ih (fun f member => std f (by simp [member]))
          (fun f member => frac f (by simp [member])))

/-- The first frame of a second starts it. -/
theorem Waiting.start (waiting : r.Waiting) (std : IsStd frame)
    (frac : fracTime frame = 0)
    : ∃ next,
        r.receive frame = some (next, [])
        ∧ next.Syncing (time frame) 1
        ∧ next.missingC37events = r.missingC37events := by
  let next : C37Reformat :=
    { r with
      syncStarted := true
      fracSecValues := Function.update r.fracSecValues 0 0
      presentSec := time frame
      sampleCnt := 1 }
  refine ⟨next, ?_, ⟨waiting.state, rfl, rfl, rfl, by decide, by decide, ?_⟩, rfl⟩
  · rw [receive_sync std waiting.state, syncStep, if_pos (by simp [waiting.notStarted]),
      if_pos frac]
    rfl
  · exact Function.update_self 0 0 r.fracSecValues

variable {sec : UInt32} {count : UInt16}

/-- A later frame's fraction is remembered, whatever its second is. -/
theorem Syncing.save (syncing : r.Syncing sec count) (notLast : sec + 1 ≠ 0)
    (std : IsStd frame) (frac : fracTime frame ≠ 0)
    (room : count.toNat < fracSecValuesLen)
    : ∃ next,
        r.receive frame = some (next, [])
        ∧ next.Syncing sec (count + 1)
        ∧ next.missingC37events = r.missingC37events := by
  obtain ⟨state, started, present, cnt, positive, bounded, firstValue⟩ := syncing
  let next : C37Reformat :=
    { r with
      fracSecValues := Function.update r.fracSecValues r.sampleCnt.toNat (fracTime frame)
      sampleCnt := r.sampleCnt + 1 }
  have counted : (count + 1).toNat = count.toNat + 1 := by
    rw [fracSecValuesLen] at room
    rw [UInt16.toNat_add]
    change (count.toNat + 1) % 2 ^ 16 = count.toNat + 1
    omega
  refine ⟨next, ?_, ⟨state, started, present, ?_, ?_, ?_, ?_⟩, rfl⟩
  · have notSecond : ¬(r.presentSec + 1 ≠ 0 ∧ fracTime frame = 0) := by
      simp [frac]
    have notBack : ¬r.presentSec + 1 < r.presentSec := by
      rw [present]
      exact not_succ_lt notLast
    rw [receive_sync std state, syncStep, if_neg (by simp [started])]
    simp only [notSecond, notBack, if_false, cnt, room, if_true]
    rw [← cnt]
    rfl
  · change r.sampleCnt + 1 = count + 1
    rw [cnt]
  · omega
  · omega
  · change Function.update r.fracSecValues r.sampleCnt.toNat (fracTime frame) 0 = 0
    rw [Function.update_of_ne (by rw [cnt]; omega), firstValue]

theorem Syncing.rest (syncing : r.Syncing sec count) (notLast : sec + 1 ≠ 0)
    {frames : List C37Buffer} (std : ∀ frame ∈ frames, IsStd frame)
    (frac : ∀ frame ∈ frames, fracTime frame ≠ 0)
    (room : count.toNat + frames.length ≤ fracSecValuesLen)
    : ∃ next,
        r.run frames = some (next, [])
        ∧ next.Syncing sec (count + UInt16.ofNat frames.length)
        ∧ next.missingC37events = r.missingC37events := by
  induction frames generalizing r count with
  | nil => exact ⟨r, rfl, by simpa using syncing, rfl⟩
  | cons frame frames ih =>
      rw [List.length_cons] at room
      obtain ⟨next, received, syncing', missing⟩ :=
        syncing.save notLast (std frame (by simp)) (frac frame (by simp)) (by omega)
      have counted : (count + 1).toNat = count.toNat + 1 := by
        rw [fracSecValuesLen] at room
        rw [UInt16.toNat_add]
        change (count.toNat + 1) % 2 ^ 16 = count.toNat + 1
        omega
      obtain ⟨final, ran, syncing'', missing'⟩ :=
        ih syncing' (fun f member => std f (by simp [member]))
          (fun f member => frac f (by simp [member])) (by omega)
      refine ⟨final, OutputRun.run_cons received ran, ?_, missing'.trans missing⟩
      have length : count + UInt16.ofNat (frame :: frames).length
          = count + 1 + UInt16.ofNat frames.length := by
        rw [List.length_cons, UInt16.ofNat_add, UInt16.add_assoc,
          UInt16.add_comm (UInt16.ofNat frames.length)]
        rfl
      rw [length]
      exact syncing''

/-- The first whole second is counted, and the first frame of the next one is the first
that is saved.
-/
theorem Waiting.sync (waiting : r.Waiting)
    (notLast : sec + 1 ≠ 0) {head : C37Buffer} {rest : List C37Buffer}
    (second : IsSecond sec head rest) (room : (head :: rest).length ≤ fracSecValuesLen)
    : ∃ next,
        r.run (head :: rest) = some (next, [])
        ∧ next.Syncing sec (UInt16.ofNat (head :: rest).length)
        ∧ next.missingC37events = r.missingC37events := by
  obtain ⟨started, received, syncing, missing⟩ := waiting.start second.headStd second.headFrac
  rw [second.headTime] at syncing
  rw [List.length_cons] at room
  obtain ⟨next, ran, syncing', missing'⟩ :=
    syncing.rest notLast second.restStd second.restFrac
      (by change 1 + rest.length ≤ fracSecValuesLen; omega)
  refine ⟨next, OutputRun.run_cons received ran, ?_, missing'.trans missing⟩
  rw [List.length_cons, UInt16.ofNat_add, UInt16.add_comm]
  exact syncing'

/-- The next frame with fraction zero ends a second of a healthy count, whatever the
frame's own second is.
-/
theorem Syncing.finish (syncing : r.Syncing sec count) (notLast : sec + 1 ≠ 0)
    (std : IsStd frame) (frac : fracTime frame = 0) (healthy : count % 10 = 0)
    : ∃ next,
        r.receive frame = some (next, [])
        ∧ next.Filling count (sec + 1) [savedEvent frame] 1
        ∧ next.fracSecValues = r.fracSecValues
        ∧ next.missingC37events = r.missingC37events := by
  obtain ⟨state, started, rfl, rfl, positive, bounded, firstValue⟩ := syncing
  let next : C37Reformat :=
    { r with
      sampleCntValid := true
      currentState := .fillBuffer
      c37eventBuf := [savedEvent frame]
      currentSampleCnt := 1
      previousSec := r.presentSec
      presentSec := r.presentSec + 1 }
  refine ⟨next, ?_, ⟨rfl, rfl, rfl, rfl, rfl⟩, rfl, rfl⟩
  have second : r.presentSec + 1 ≠ 0 ∧ fracTime frame = 0 := ⟨notLast, frac⟩
  rw [receive_sync std state, syncStep, if_neg (by simp [started]), if_pos second,
    if_pos healthy]
  rfl

/-- A second after one that is counted with a healthy count. -/
theorem Syncing.second (syncing : r.Syncing sec count) (notLast : sec + 1 ≠ 0)
    (healthy : count % 10 = 0) {head : C37Buffer} {rest : List C37Buffer}
    (second : IsSecond (sec + 1) head rest)
    : ∃ next,
        r.run (head :: rest) = some (next, [])
        ∧ next.Filling count (sec + 1) ((head :: rest).map savedEvent)
          (UInt16.ofNat (head :: rest).length)
        ∧ next.missingC37events = r.missingC37events := by
  obtain ⟨started, received, filling, _, missing⟩ :=
    syncing.finish notLast second.headStd second.headFrac healthy
  obtain ⟨next, ran, filling', _, missing'⟩ :=
    filling.rest second.restStd second.restTime second.restFrac
  refine ⟨next, OutputRun.run_cons received ran, ?_, missing'.trans missing⟩
  rw [List.length_cons, UInt16.ofNat_add, UInt16.add_comm]
  exact filling'

/-- The synchronisation is given up when the next second is zero, for any frame, and when
the count at the end of the second is not a healthy one.
-/
theorem Syncing.abort (syncing : r.Syncing sec count) (std : IsStd frame)
    (fails : sec + 1 = 0 ∨ (fracTime frame = 0 ∧ count % 10 ≠ 0))
    : ∃ next, r.receive frame = some (next, []) ∧ next.Waiting := by
  obtain ⟨state, started, rfl, rfl, positive, bounded, firstValue⟩ := syncing
  let next : C37Reformat :=
    { r with
      syncStarted := false
      sampleCnt := 0
      syncToSecAborts := r.syncToSecAborts + 1 }
  refine ⟨next, ?_, ⟨state, rfl⟩⟩
  rw [receive_sync std state, syncStep, if_neg (by simp [started])]
  by_cases wraps : r.presentSec + 1 = 0
  · have back : r.presentSec + 1 < r.presentSec := lt_of_succ_eq_zero wraps
    simp only [wraps] at back ⊢
    simp [back, next]
  · have unhealthy := fails.resolve_left wraps
    simp [wraps, unhealthy.1, unhealthy.2, next]

end Sync

end C37Reformat

end Sparcs.C37
