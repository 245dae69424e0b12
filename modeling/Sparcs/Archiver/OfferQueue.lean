import Sparcs.Archiver.Archivers
import Mathlib.Logic.Relation

/-! The queue between the thread that offers data buffers and the archiver's thread. All
archivers share this code, so that it is modelled once for any functions that check and
process a buffer.
-/

namespace Sparcs.Archiver

/-- `DATA_QUEUE_LEN` -/
def dataQueueLen : UInt64 := 16

inductive DataBufferOffer where
  | accepted
  | released
  | refused
  deriving DecidableEq, Repr

/-- The switch of `dataBufferOffer` on the room that is left, in unsigned arithmetic. -/
def dataBufferOffer (size : UInt64) : DataBufferOffer :=
  if dataQueueLen - size = 0 then .refused else .accepted

/-- The result, the record and the output of a call of `processData`. -/
structure ProcessResult (ρ ο : Type) where
  complete : Bool
  bpr : ρ
  output : List ο

/-- The functions of an archiver: buffers `β`, processing records `ρ`, outputs `ο`, and
answers `α` of all that the functions depend on besides.
-/
structure ArchiverFunctions (α β ρ ο : Type) where
  preProcessData : α → ρ → β → Int32 × ρ
  processData : α → ρ → β → ProcessResult ρ ο

/-- Where the offering thread is in `dataBufferOffer`. -/
inductive Offering (β : Type) where
  | outside
  | pushing (offeredBuf : β) (sizeAtTest : Nat)
  deriving DecidableEq

/-- Where the archiver's thread is in its loop. -/
inductive Looping where
  | loopTop
  | taking
  | stopped
  deriving DecidableEq, Repr

inductive QueueEvent (β ο : Type) where
  | offered (buf : β) (sizeAtTest : Nat) (result : DataBufferOffer)
  | taken (buf : β)
  | output (out : ο)
  | completed (buf : β)
  | abandoned (buf : β)
  deriving DecidableEq

/-- An archiver service: its queue, both threads, and what has happened so far. -/
structure Service (β ρ ο : Type) where
  dataQueue : List β := []
  offering : Offering β := .outside
  looping : Looping := .loopTop
  dataBuf : Option β := none
  processingBuffer : Bool := false
  bpr : ρ
  history : List (QueueEvent β ο) := []

namespace Service

variable {α β ρ ο : Type} (archiver : ArchiverFunctions α β ρ ο)

/-- The size test of `dataBufferOffer`, without the lock. -/
def testSize (s : Service β ρ ο) (offeredBuf : β) : Service β ρ ο :=
  match dataBufferOffer s.dataQueue.length.toUInt64 with
  | .refused =>
      { s with history := s.history ++ [.offered offeredBuf s.dataQueue.length .refused] }
  | _ => { s with offering := .pushing offeredBuf s.dataQueue.length }

/-- The push of an offered buffer, under the lock. -/
def push (s : Service β ρ ο) (offeredBuf : β) (sizeAtTest : Nat) : Service β ρ ο :=
  { s with
    dataQueue := s.dataQueue ++ [offeredBuf]
    offering := .outside
    history := s.history ++ [.offered offeredBuf sizeAtTest .accepted] }

/-- One call of `processData` for the buffer at work, if there is one. -/
def processStep (s : Service β ρ ο) (answer : α) : Service β ρ ο :=
  match s.dataBuf with
  | none => s
  | some buf =>
      let result := archiver.processData answer s.bpr buf
      let history := s.history ++ result.output.map .output
      if result.complete then
        { s with
          bpr := result.bpr
          dataBuf := none
          processingBuffer := false
          history := history ++ [.completed buf] }
      else
        { s with bpr := result.bpr, history }

/-- `front` and `pop` under the lock for a queue that starts with `buf`, and
`preProcessData`.
-/
def takeFront (s : Service β ρ ο) (answer : α) (buf : β) (rest : List β)
    : Service β ρ ο :=
  let checked := archiver.preProcessData answer s.bpr buf
  if checked.1 ≤ 0 then
    { s with
      dataQueue := rest
      looping := .loopTop
      dataBuf := none
      bpr := checked.2
      history := s.history ++ [.taken buf, .abandoned buf] }
  else
    { s with
      dataQueue := rest
      looping := .loopTop
      dataBuf := some buf
      processingBuffer := true
      bpr := checked.2
      history := s.history ++ [.taken buf] }

/-- The top of the loop: a call of `processData`, or the test for an empty queue, without
the lock.
-/
def loopTop (s : Service β ρ ο) (answer : α) : Service β ρ ο :=
  if s.processingBuffer then
    s.processStep archiver answer
  else if s.dataQueue.isEmpty then
    s
  else
    { s with looping := .taking }

/-- The steps of the archiver's thread. An exception or a request ends its loop at any
time.
-/
inductive LoopStep : Service β ρ ο → Service β ρ ο → Prop where
  | loopTop {s} (answer : α) : s.looping = .loopTop → LoopStep s (s.loopTop archiver answer)
  | takeFront {s} (answer : α) {buf : β} {rest : List β} :
      s.looping = .taking → s.dataQueue = buf :: rest →
      LoopStep s (s.takeFront archiver answer buf rest)
  | stop {s} : LoopStep s { s with looping := .stopped }

/-- The steps of both threads in any order. -/
inductive Step : Service β ρ ο → Service β ρ ο → Prop where
  | testSize {s} (offeredBuf : β) : s.offering = .outside → Step s (s.testSize offeredBuf)
  | push {s} {offeredBuf : β} {sizeAtTest : Nat} :
      s.offering = .pushing offeredBuf sizeAtTest → Step s (s.push offeredBuf sizeAtTest)
  | loop {s next} : LoopStep archiver s next → Step s next

/-- One pass through the loop with nobody in between. -/
def pass (s : Service β ρ ο) (answer : α) : Service β ρ ο :=
  if s.processingBuffer then
    s.processStep archiver answer
  else
    match s.dataQueue with
    | [] => s
    | buf :: rest => s.takeFront archiver answer buf rest

def passes (s : Service β ρ ο) (answers : List α) : Service β ρ ο :=
  answers.foldl (pass archiver) s

/-- States that steps lead to from a new service. -/
def Reachable (s : Service β ρ ο) : Prop :=
  ∃ bpr, Relation.ReflTransGen (Step archiver) { bpr } s

end Service

-----------------------------------------------------------------------------------------
-- What a history says
-----------------------------------------------------------------------------------------

section History

variable {β ο : Type}

@[simp] def QueueEvent.acceptedBuf? : QueueEvent β ο → Option β
  | .offered buf _ .accepted => some buf
  | _ => none

@[simp] def QueueEvent.takenBuf? : QueueEvent β ο → Option β
  | .taken buf => some buf
  | _ => none

@[simp] def QueueEvent.finishedBuf? : QueueEvent β ο → Option β
  | .completed buf => some buf
  | .abandoned buf => some buf
  | _ => none

def accepted (history : List (QueueEvent β ο)) : List β :=
  history.filterMap QueueEvent.acceptedBuf?

def taken (history : List (QueueEvent β ο)) : List β :=
  history.filterMap QueueEvent.takenBuf?

/-- The buffers that were completed or abandoned. -/
def finished (history : List (QueueEvent β ο)) : List β :=
  history.filterMap QueueEvent.finishedBuf?

@[simp] theorem accepted_append (h more : List (QueueEvent β ο))
    : accepted (h ++ more) = accepted h ++ accepted more :=
  List.filterMap_append

@[simp] theorem taken_append (h more : List (QueueEvent β ο))
    : taken (h ++ more) = taken h ++ taken more :=
  List.filterMap_append

@[simp] theorem finished_append (h more : List (QueueEvent β ο))
    : finished (h ++ more) = finished h ++ finished more :=
  List.filterMap_append

@[simp] theorem accepted_cons (event : QueueEvent β ο) (h : List (QueueEvent β ο))
    : accepted (event :: h) = event.acceptedBuf?.toList ++ accepted h := by
  rw [accepted, List.filterMap_cons]
  cases event.acceptedBuf? <;> rfl

@[simp] theorem taken_cons (event : QueueEvent β ο) (h : List (QueueEvent β ο))
    : taken (event :: h) = event.takenBuf?.toList ++ taken h := by
  rw [taken, List.filterMap_cons]
  cases event.takenBuf? <;> rfl

@[simp] theorem finished_cons (event : QueueEvent β ο) (h : List (QueueEvent β ο))
    : finished (event :: h) = event.finishedBuf?.toList ++ finished h := by
  rw [finished, List.filterMap_cons]
  cases event.finishedBuf? <;> rfl

@[simp] theorem accepted_nil : accepted ([] : List (QueueEvent β ο)) = [] := rfl

@[simp] theorem taken_nil : taken ([] : List (QueueEvent β ο)) = [] := rfl

@[simp] theorem finished_nil : finished ([] : List (QueueEvent β ο)) = [] := rfl

/-- Outputs neither accept nor take nor finish a buffer. -/
@[simp] theorem accepted_output (out : List ο)
    : accepted (out.map (QueueEvent.output : ο → QueueEvent β ο)) = [] := by
  induction out with
  | nil => rfl
  | cons _ _ ih => simp [ih]

@[simp] theorem taken_output (out : List ο)
    : taken (out.map (QueueEvent.output : ο → QueueEvent β ο)) = [] := by
  induction out with
  | nil => rfl
  | cons _ _ ih => simp [ih]

@[simp] theorem finished_output (out : List ο)
    : finished (out.map (QueueEvent.output : ο → QueueEvent β ο)) = [] := by
  induction out with
  | nil => rfl
  | cons _ _ ih => simp [ih]

/-- Whenever a buffer was taken, all buffers taken before it were finished. -/
def OneAtATime (history : List (QueueEvent β ο)) : Prop :=
  ∀ before buf, before ++ [.taken buf] <+: history → finished before = taken before

theorem OneAtATime.concat {h : List (QueueEvent β ο)} (holds : OneAtATime h)
    {event : QueueEvent β ο} (idle : ∀ buf, event = .taken buf → finished h = taken h)
    : OneAtATime (h ++ [event]) := by
  intro before buf cut
  rcases List.prefix_concat_iff.mp cut with whole | earlier
  · obtain ⟨rfl, last⟩ := List.append_inj' whole rfl
    exact idle buf (List.singleton_inj.mp last).symm
  · exact holds before buf earlier

/-- Events that take nothing do not matter, by induction over them. -/
theorem OneAtATime.append {h more : List (QueueEvent β ο)} (holds : OneAtATime h)
    (quiet : taken more = [])
    : OneAtATime (h ++ more) := by
  induction more generalizing h with
  | nil => simpa using holds
  | cons event more ih =>
      have notTaken : event.takenBuf? = none ∧ taken more = [] := by
        simpa using quiet
      rw [List.append_cons]
      refine ih (holds.concat ?_) notTaken.2
      intro buf isTaken
      rw [isTaken] at notTaken
      cases notTaken.1

end History

-----------------------------------------------------------------------------------------
-- The discipline of the queue
-----------------------------------------------------------------------------------------

variable {α β ρ ο : Type} {archiver : ArchiverFunctions α β ρ ο} {s next : Service β ρ ο}

/-- The unsigned subtraction is zero for a full queue and not for a shorter one. -/
theorem dataBufferOffer_eq {size : Nat} (bounded : size ≤ 16)
    : dataBufferOffer size.toUInt64 = if size = 16 then .refused else .accepted := by
  rw [dataBufferOffer]
  congr 1
  rw [dataQueueLen, ← UInt64.toNat_inj, UInt64.toNat_sub]
  simp
  omega

theorem Service.testSize_of_room (room : s.dataQueue.length < 16) (buf : β)
    : s.testSize buf = { s with offering := .pushing buf s.dataQueue.length } := by
  rw [testSize, dataBufferOffer_eq room.le, if_neg room.ne]

theorem Service.testSize_of_full (full : s.dataQueue.length = 16) (buf : β)
    : s.testSize buf = { s with history := s.history ++ [.offered buf 16 .refused] } := by
  rw [testSize, dataBufferOffer_eq full.le, if_pos full, full]

/-- What holds between any two steps. -/
structure Service.Sound (s : Service β ρ ο) : Prop where
  bounded : s.dataQueue.length ≤ 16
  room : ∀ buf size, s.offering = .pushing buf size → s.dataQueue.length < 16 ∧ size < 16
  refusals
    : ∀ buf size result, .offered buf size result ∈ s.history →
        result = if size = 16 then .refused else .accepted
  inOrder : accepted s.history = taken s.history ++ s.dataQueue
  atWork : taken s.history = finished s.history ++ s.dataBuf.toList
  oneAtATime : OneAtATime s.history
  processing : s.processingBuffer = s.dataBuf.isSome
  frontThere : s.looping = .taking → s.dataBuf = none ∧ s.dataQueue ≠ []

namespace Service.Sound

theorem initial (bpr : ρ) : Sound ({ bpr } : Service β ρ ο) where
  bounded := by simp
  room := by simp
  refusals := by simp
  inOrder := by simp [accepted, taken]
  atWork := by simp [taken, finished]
  oneAtATime := by simp [OneAtATime]
  processing := rfl
  frontThere := by simp

theorem testSize (sound : s.Sound) (buf : β)
    : (s.testSize buf).Sound := by
  by_cases full : s.dataQueue.length = 16
  · rw [testSize_of_full full]
    exact { sound with
      refusals := by
        intro buf' size result member
        rcases List.mem_append.mp member with earlier | now
        · exact sound.refusals buf' size result earlier
        · simp at now
          simp [now]
      inOrder := by simpa using sound.inOrder
      atWork := by simpa using sound.atWork
      oneAtATime := sound.oneAtATime.append rfl }
  · have room : s.dataQueue.length < 16 := lt_of_le_of_ne sound.bounded full
    rw [testSize_of_room room]
    exact { sound with
      room := by
        intro buf' size pushing
        cases pushing
        exact ⟨room, room⟩ }

theorem push (sound : s.Sound) {buf : β} {size : Nat}
    (pushing : s.offering = .pushing buf size)
    : (s.push buf size).Sound := by
  obtain ⟨room, tested⟩ := sound.room buf size pushing
  exact { sound with
    bounded := by
      rw [Service.push, List.length_append]
      exact room
    room := by simp [Service.push]
    refusals := by
      intro buf' size' result member
      rcases List.mem_append.mp member with earlier | now
      · exact sound.refusals buf' size' result earlier
      · simp at now
        simp [now, tested.ne]
    inOrder := by simp [Service.push, sound.inOrder]
    atWork := by simpa [Service.push] using sound.atWork
    oneAtATime := sound.oneAtATime.append rfl
    frontThere := by
      intro taking
      exact ⟨(sound.frontThere taking).1, by simp [Service.push]⟩ }

/-- A call of `processData` keeps its buffer or completes it. -/
theorem processStep (sound : s.Sound) (answer : α) (top : s.looping = .loopTop)
    : (s.processStep archiver answer).Sound := by
  rw [Service.processStep]
  cases working : s.dataBuf with
  | none => exact sound
  | some buf =>
      have atWork := sound.atWork
      rw [working] at atWork
      simp only
      split_ifs with complete
      · exact { sound with
          refusals := by
            intro buf' size result member
            simp at member
            exact sound.refusals buf' size result member
          inOrder := by simpa using sound.inOrder
          atWork := by simpa using atWork
          oneAtATime := (sound.oneAtATime.append (by simp)).append rfl
          processing := rfl
          frontThere := by simp [top] }
      · exact { sound with
          refusals := by
            intro buf' size result member
            simp at member
            exact sound.refusals buf' size result member
          inOrder := by simpa using sound.inOrder
          atWork := by simpa [working] using atWork
          oneAtATime := sound.oneAtATime.append (by simp)
          processing := by simpa [working] using sound.processing
          frontThere := by simp [top] }

/-- A buffer is taken when no other is at work. -/
theorem takeFront (sound : s.Sound) (answer : α) (taking : s.looping = .taking) {buf : β}
    {rest : List β} (front : s.dataQueue = buf :: rest)
    : (s.takeFront archiver answer buf rest).Sound := by
  have idle := (sound.frontThere taking).1
  have finished := sound.atWork
  have inOrder := sound.inOrder
  have bounded := sound.bounded
  rw [idle, Option.toList_none, List.append_nil] at finished
  rw [front] at inOrder bounded
  rw [List.length_cons] at bounded
  have room (buf' : β) (size : Nat) (pushing : s.offering = .pushing buf' size)
      : rest.length < 16 ∧ size < 16 := by
    obtain ⟨room, tested⟩ := sound.room buf' size pushing
    rw [front, List.length_cons] at room
    exact ⟨by omega, tested⟩
  have taken : OneAtATime (s.history ++ [.taken buf]) :=
    sound.oneAtATime.concat fun _ _ => finished.symm
  have abandoned : OneAtATime (s.history ++ [.taken buf] ++ [.abandoned buf]) :=
    taken.append rfl
  rw [Service.takeFront]
  split_ifs with refused
  · exact {
      bounded := by simpa using Nat.le_of_succ_le bounded
      room
      refusals := by simpa using sound.refusals
      inOrder := by simp [inOrder]
      atWork := by simp [finished]
      oneAtATime := by simpa using abandoned
      processing := by simpa [idle] using sound.processing
      frontThere := by simp }
  · exact {
      bounded := by simpa using Nat.le_of_succ_le bounded
      room
      refusals := by simpa using sound.refusals
      inOrder := by simp [inOrder]
      atWork := by simp [finished]
      oneAtATime := taken
      processing := rfl
      frontThere := by simp }

theorem loopTop (sound : s.Sound) (answer : α) (top : s.looping = .loopTop)
    : (s.loopTop archiver answer).Sound := by
  rw [Service.loopTop]
  split_ifs with processing empty
  · exact sound.processStep answer top
  · exact sound
  · exact { sound with
      frontThere := by
        intro _
        have idle := sound.processing
        simp [processing] at idle
        simp at empty
        exact ⟨Option.not_isSome_iff_eq_none.mp (by simp [idle]), empty⟩ }

theorem loopStep (sound : s.Sound) (steps : LoopStep archiver s next) : next.Sound := by
  cases steps with
  | loopTop answer top => exact sound.loopTop answer top
  | takeFront answer taking front => exact sound.takeFront answer taking front
  | stop => exact { sound with frontThere := by simp }

/-- Every step of either thread keeps the queue sound. -/
theorem step (sound : s.Sound) (steps : Step archiver s next) : next.Sound := by
  cases steps with
  | testSize buf outside => exact sound.testSize buf
  | push pushing => exact sound.push pushing
  | loop steps => exact sound.loopStep steps

end Service.Sound

theorem Service.LoopStep.history_prefix (steps : LoopStep archiver s next)
    : s.history <+: next.history := by
  cases steps with
  | loopTop answer _ =>
      rw [Service.loopTop, Service.processStep]
      split_ifs
      · cases s.dataBuf with
        | none => exact List.prefix_rfl
        | some buf =>
            simp only
            split_ifs
            · exact (List.prefix_append ..).trans (List.prefix_append ..)
            · exact List.prefix_append ..
      · exact List.prefix_rfl
      · exact List.prefix_rfl
  | takeFront answer _ _ =>
      rw [Service.takeFront]
      split_ifs
      · exact List.prefix_append ..
      · exact List.prefix_append ..
  | stop => exact List.prefix_rfl

/-- What the archiver's thread leaves as it is, and where its buffers come from. -/
structure Service.LoopFrame (s next : Service β ρ ο) : Prop where
  offering : next.offering = s.offering
  accepted : accepted next.history = accepted s.history
  offered
    : ∀ buf size result, .offered buf size result ∈ next.history →
        .offered buf size result ∈ s.history
  dataQueue : ∀ buf ∈ next.dataQueue, buf ∈ s.dataQueue
  dataBuf
    : ∀ buf, next.dataBuf = some buf → next.looping ≠ .stopped →
        buf ∈ s.dataQueue ∨ (s.dataBuf = some buf ∧ s.looping ≠ .stopped)

theorem Service.LoopStep.frame (steps : LoopStep archiver s next) : s.LoopFrame next := by
  cases steps with
  | loopTop answer top =>
      have running : s.looping ≠ .stopped := by simp [top]
      rw [Service.loopTop, Service.processStep]
      split_ifs
      · cases working : s.dataBuf with
        | none => exact ⟨rfl, rfl, by simp, by simp, by simp [working]⟩
        | some buf =>
            simp only
            split_ifs
            · exact ⟨rfl, by simp, by simp, by simp, by simp⟩
            · exact ⟨rfl, by simp, by simp, by simp, by simp [working, running]⟩
      · exact ⟨rfl, rfl, by simp, by simp, fun buf held _ => .inr ⟨held, running⟩⟩
      · exact ⟨rfl, rfl, by simp, by simp, fun buf held _ => .inr ⟨held, running⟩⟩
  | takeFront answer taking front =>
      have queued := fun buf' => (congrArg (buf' ∈ ·) front).mpr
      rw [Service.takeFront]
      split_ifs
      · exact ⟨rfl, by simp, by simp, fun buf' => queued buf' ∘ .tail _, by simp⟩
      · exact ⟨rfl, by simp, by simp, fun buf' => queued buf' ∘ .tail _, by simp [front]⟩
  | stop => exact ⟨rfl, rfl, by simp, by simp, by simp⟩

/-- A history only grows. -/
theorem Service.Step.history_prefix (steps : Step archiver s next)
    : s.history <+: next.history := by
  cases steps with
  | testSize buf _ =>
      rw [Service.testSize]
      split
      · exact List.prefix_append ..
      · exact List.prefix_rfl
  | push _ => exact List.prefix_append ..
  | loop steps => exact steps.history_prefix

/-- A pass is a step of the thread or two. -/
theorem Service.steps_of_pass (answer : α) (top : s.looping = .loopTop)
    : Relation.ReflTransGen (LoopStep archiver) s (s.pass archiver answer) := by
  have first : LoopStep archiver s (s.loopTop archiver answer) := .loopTop answer top
  rw [Service.pass]
  rw [Service.loopTop] at first
  by_cases processing : s.processingBuffer
  · rw [if_pos processing] at first ⊢
    exact .single first
  · rw [if_neg processing] at first ⊢
    split
    next => exact .refl
    next buf rest queued =>
        rw [if_neg (by simp [queued])] at first
        exact (Relation.ReflTransGen.single first).tail (.takeFront answer rfl queued)

theorem Service.pass_looping (answer : α) (top : s.looping = .loopTop)
    : (s.pass archiver answer).looping = .loopTop := by
  rw [Service.pass, Service.processStep]
  split_ifs
  · cases s.dataBuf with
    | none => exact top
    | some buf =>
        simp only
        split_ifs <;> exact top
  · split
    · exact top
    · rw [Service.takeFront]
      split_ifs <;> rfl

/-- Passes are steps of the thread, by induction over them. -/
theorem Service.steps_of_passes (answers : List α) (top : s.looping = .loopTop)
    : Relation.ReflTransGen (LoopStep archiver) s (s.passes archiver answers) := by
  induction answers generalizing s with
  | nil => exact .refl
  | cons answer answers ih =>
      exact (steps_of_pass answer top).trans (ih (pass_looping answer top))

theorem Service.history_prefix_of_steps (run : Relation.ReflTransGen (Step archiver) s next)
    : s.history <+: next.history := by
  induction run with
  | refl => exact List.prefix_rfl
  | tail _ steps ih => exact ih.trans steps.history_prefix

theorem Service.Reachable.sound (reachable : s.Reachable archiver) : s.Sound := by
  obtain ⟨bpr, run⟩ := reachable
  induction run with
  | refl => exact .initial bpr
  | tail _ steps ih => exact ih.step steps

/-- The discipline of the queue. -/
structure Service.QueueDiscipline (archiver : ArchiverFunctions α β ρ ο)
    (s : Service β ρ ο) : Prop where
  bounded : s.dataQueue.length ≤ dataQueueLen.toNat
  refusedIff
    : ∀ buf sizeAtTest result, .offered buf sizeAtTest result ∈ s.history →
        (result = .refused ↔ sizeAtTest = dataQueueLen.toNat)
  /-- What is accepted is taken in this order, once each, or still in the queue. -/
  inOrder : accepted s.history = taken s.history ++ s.dataQueue
  /-- An idle archiver goes on to take the front of a queue that is not empty. -/
  startsNext
    : s.looping = .loopTop → s.dataBuf = none → s.dataQueue ≠ [] →
        ∀ answer, (s.loopTop archiver answer).looping = .taking
  frontThere : s.looping = .taking → s.dataQueue ≠ []
  /-- What is accepted now is taken before as many more buffers as the queue holds. -/
  takenSoon
    : ∀ next, Relation.ReflTransGen (Step archiver) s next →
        (taken s.history).length + dataQueueLen.toNat ≤ (taken next.history).length →
        accepted s.history <+: taken next.history
  oneAtATime : OneAtATime s.history

/-- In every order of the steps of both threads, for any functions of the archiver. -/
theorem Service.Reachable.queueDiscipline (reachable : s.Reachable archiver)
    : s.QueueDiscipline archiver where
  bounded := reachable.sound.bounded
  refusedIff := by
    intro buf size result member
    rw [reachable.sound.refusals buf size result member, show dataQueueLen.toNat = 16 from rfl]
    split_ifs with full <;> simp [full]
  inOrder := reachable.sound.inOrder
  startsNext := by
    intro _ idle waiting answer
    have processing := reachable.sound.processing
    rw [idle, Option.isSome_none] at processing
    simp [loopTop, processing, waiting]
  frontThere := fun taking => (reachable.sound.frontThere taking).2
  takenSoon := by
    intro next run soon
    have later : next.Reachable archiver := by
      obtain ⟨bpr, before⟩ := reachable
      exact ⟨bpr, before.trans run⟩
    obtain ⟨more, grown⟩ := history_prefix_of_steps run
    have acceptedFirst : accepted s.history <+: taken next.history ++ next.dataQueue := by
      rw [← later.sound.inOrder, ← grown, accepted_append]
      exact List.prefix_append ..
    refine List.prefix_of_prefix_length_le acceptedFirst (List.prefix_append ..) ?_
    have bounded := reachable.sound.bounded
    rw [reachable.sound.inOrder, List.length_append]
    exact le_trans (Nat.add_le_add_left bounded _) soon
  oneAtATime := reachable.sound.oneAtATime

-----------------------------------------------------------------------------------------
-- A run of the Cassandra archiver
-----------------------------------------------------------------------------------------

/-- `serviceDataBuffer`, as far as an archiver reads it. -/
structure ServiceDataBuffer where
  byteLen : UInt32
  dataBuffer : Blocks.Block

def ServiceDataArchiver.functions
    : ArchiverFunctions Setting ServiceDataBuffer BufferProcessingRecord Row where
  preProcessData _ bpr buf := preProcessData bpr buf.byteLen.toNat
  processData setting bpr buf :=
    let processed := processData setting bpr buf.dataBuffer
    { complete := processed.complete, bpr := processed.bpr, output := processed.row.toList }

/-- An offer with nobody in between, while there is room. -/
theorem Service.steps_of_offer (buf : β) (outside : s.offering = .outside)
    (room : s.dataQueue.length < 16)
    : Relation.ReflTransGen (Step archiver) s (s.push buf s.dataQueue.length) := by
  have tested : Step archiver s { s with offering := .pushing buf s.dataQueue.length } :=
    testSize_of_room room buf ▸ .testSize buf outside
  have pushed : Step archiver { s with offering := .pushing buf s.dataQueue.length }
      (s.push buf s.dataQueue.length) :=
    .push rfl
  exact (Relation.ReflTransGen.single tested).tail pushed

/-- An offer to a full queue. -/
theorem Service.step_of_refusal (buf : β) (outside : s.offering = .outside)
    (full : s.dataQueue.length = 16)
    : Step archiver s { s with history := s.history ++ [.offered buf 16 .refused] } :=
  testSize_of_full full buf ▸ .testSize buf outside

/-- The history of offers that are all accepted, the first one at a queue of length `size`. -/
def acceptedOffers (bufs : List β) (size : Nat) : List (QueueEvent β ο) :=
  (bufs.zipIdx size).map fun offer => .offered offer.1 offer.2 .accepted

/-- Offers one after the other, by induction over them. -/
theorem Service.steps_of_offers (bufs : List β) (outside : s.offering = .outside)
    (room : s.dataQueue.length + bufs.length ≤ 16)
    : Relation.ReflTransGen (Step archiver) s
      { s with
        dataQueue := s.dataQueue ++ bufs
        history := s.history ++ acceptedOffers bufs s.dataQueue.length } := by
  induction bufs generalizing s with
  | nil => simpa [acceptedOffers] using .refl
  | cons buf bufs ih =>
      rw [List.length_cons] at room
      have length : (s.push buf s.dataQueue.length).dataQueue.length = s.dataQueue.length + 1 :=
        List.length_append
      have later := ih (s := s.push buf s.dataQueue.length) rfl (by omega)
      refine (steps_of_offer buf outside (by omega)).trans ?_
      rw [length] at later
      simpa [push, outside, acceptedOffers, List.zipIdx_cons] using later

/-- A buffer of the wrong length for the archiver. -/
def shortBuffer : ServiceDataBuffer := ⟨4, Blocks.alloc 4 fun _ => 0⟩

/-- Sixteen buffers are accepted and one is refused; when the first one has been taken and
abandoned, another one is accepted.
-/
theorem Service.Reachable.queueDiscipline_refused
    : ∃ s : Service ServiceDataBuffer BufferProcessingRecord ServiceDataArchiver.Row,
        s.dataQueue.length = 16
        ∧ s.history
          = acceptedOffers (List.replicate 16 shortBuffer) 0
            ++ [.offered shortBuffer 16 .refused, .taken shortBuffer, .abandoned shortBuffer,
              .offered shortBuffer 15 .accepted]
        ∧ s.QueueDiscipline ServiceDataArchiver.functions := by
  let setting : ServiceDataArchiver.Setting := ⟨true, true, true⟩
  let full : Service ServiceDataBuffer BufferProcessingRecord ServiceDataArchiver.Row :=
    { bpr := ⟨0, 0, 0⟩
      dataQueue := List.replicate 16 shortBuffer
      history := acceptedOffers (List.replicate 16 shortBuffer) 0 }
  let refused : Service ServiceDataBuffer BufferProcessingRecord ServiceDataArchiver.Row :=
    { full with history := full.history ++ [.offered shortBuffer 16 .refused] }
  let taking := { refused with looping := .taking }
  let taken := taking.takeFront ServiceDataArchiver.functions setting shortBuffer
    (List.replicate 15 shortBuffer)
  have filled
      : Relation.ReflTransGen (Step ServiceDataArchiver.functions) { bpr := ⟨0, 0, 0⟩ } full :=
    steps_of_offers (List.replicate 16 shortBuffer) rfl (by simp)
  have refuses : Step ServiceDataArchiver.functions full refused :=
    step_of_refusal shortBuffer rfl rfl
  have loops : LoopStep ServiceDataArchiver.functions refused taking :=
    .loopTop setting rfl
  have takes : LoopStep ServiceDataArchiver.functions taking taken :=
    .takeFront setting rfl rfl
  have offers : Relation.ReflTransGen (Step ServiceDataArchiver.functions) taken
      (taken.push shortBuffer 15) :=
    steps_of_offer shortBuffer rfl (by decide)
  have run := (((filled.tail refuses).tail (.loop loops)).tail (.loop takes)).trans offers
  exact ⟨_, rfl, rfl, Reachable.queueDiscipline ⟨_, run⟩⟩

end Sparcs.Archiver
