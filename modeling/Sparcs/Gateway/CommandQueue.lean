import Mathlib
import Sparcs.Library.OutputRun

/-! `SynchronisedCommandQueue`: the queue of commands, with any number of threads in it.
`Enqueue` tests the capacity before it takes the lock.
-/

namespace Sparcs.Gateway

open OutputRun (Every)

/-- `queueState_t` -/
inductive QueueState where
  | queueEmpty
  | queueAvailable
  | queueFull
  deriving DecidableEq, Repr

/-- `SynchronisedCommandQueue<T>`, with the threads that are inside `Enqueue` and have passed
its capacity test: what they are about to push.
-/
structure CommandQueue (Thread T : Type) where
  mQueue : List T := []
  queueLength : Int32
  queueState : QueueState := .queueEmpty
  passed : Thread → Option T := fun _ => none

/-- The steps of a thread. A locked section is one step, since no other step changes the queue
meanwhile.
-/
inductive QueueStep (Thread T : Type) where
  /-- `Enqueue` up to its lock. -/
  | test (thread : Thread) (data : T)
  /-- `Enqueue` under the lock. -/
  | push (thread : Thread)
  /-- `Dequeue` -/
  | pop (thread : Thread)
  deriving DecidableEq, Repr

/-- What a completed call has returned. -/
inductive Completion (T : Type) where
  /-- `Enqueue` has returned 0. -/
  | refused
  | enqueued (data : T) (size : Nat)
  | dequeued (result : Option T)
  deriving DecidableEq, Repr

namespace CommandQueue

variable {Thread T : Type}

/-- `queueLength` as the comparisons with `size()` take it. -/
def capacity (q : CommandQueue Thread T) : Nat :=
  q.queueLength.toInt64.toUInt64.toNat

/-- The capacity test of `Enqueue`. -/
def isFull (q : CommandQueue Thread T) : Prop :=
  q.capacity ≤ q.mQueue.length

instance (q : CommandQueue Thread T) : Decidable q.isFull :=
  inferInstanceAs (Decidable (_ ≤ _))

/-- The locked part of `Enqueue`. -/
def push (q : CommandQueue Thread T) (data : T) : CommandQueue Thread T :=
  let mQueue := q.mQueue ++ [data]
  { q with
    mQueue
    queueState := if mQueue.length < q.capacity then .queueAvailable else .queueFull }

/-- `Dequeue` -/
def dequeue (q : CommandQueue Thread T) : CommandQueue Thread T × Option T :=
  match q.mQueue with
  | [] => (q, none)
  | result :: mQueue =>
      ({ q with
          mQueue
          queueState := if 0 < mQueue.length then .queueAvailable else .queueEmpty },
        some result)

section Steps

variable [DecidableEq Thread]

/-- One step, with the call that it completes; `none` is a step that the thread cannot make. -/
def step (q : CommandQueue Thread T)
    : QueueStep Thread T → Option (CommandQueue Thread T × List (Completion T))
  | .test thread data =>
      if (q.passed thread).isSome then none
      else if q.isFull then some (q, [.refused])
      else some ({ q with passed := Function.update q.passed thread (some data) }, [])
  | .push thread =>
      match q.passed thread with
      | none => none
      | some data =>
          let q := { q.push data with passed := Function.update q.passed thread none }
          some (q, [.enqueued data q.mQueue.length])
  | .pop thread =>
      if (q.passed thread).isSome then none
      else some (q.dequeue.1, [.dequeued q.dequeue.2])

/-- Steps of the threads in the order in which they happen. -/
def run (q : CommandQueue Thread T) (steps : List (QueueStep Thread T))
    : Option (CommandQueue Thread T × List (Completion T)) :=
  OutputRun.run step q steps

end Steps

/-- The constructor. -/
def ofLength (len : Int32) : CommandQueue Thread T :=
  { queueLength := len }

-----------------------------------------------------------------------------------------
-- What the queue is for
-----------------------------------------------------------------------------------------

/-- The items that `Enqueue` has taken, in order. -/
def enqueuedItems (done : List (Completion T)) : List T :=
  done.filterMap fun
    | .enqueued data _ => some data
    | _ => none

/-- The items that `Dequeue` has returned, in order. -/
def dequeuedItems (done : List (Completion T)) : List T :=
  done.filterMap fun
    | .dequeued result => result
    | _ => none

/-- The state of a queue with so many items. -/
def stateOf (items : Nat) (queueLength : Int) : QueueState :=
  if items = 0 then .queueEmpty
  else if items < queueLength then .queueAvailable
  else .queueFull

/-- The queue keeps its bound, it holds what was enqueued and not yet dequeued, in order, and
`queueState` fits the number of items.
-/
structure Disciplined (q : CommandQueue Thread T) (done : List (Completion T)) : Prop where
  bound : (q.mQueue.length : Int) ≤ q.queueLength.toInt
  order : dequeuedItems done ++ q.mQueue = enqueuedItems done
  state : q.queueState = stateOf q.mQueue.length q.queueLength.toInt

/-- A thread that takes the lock to push would still pass the capacity test. -/
def FindsRoom (q : CommandQueue Thread T) : QueueStep Thread T → Prop
  | .push thread => (q.passed thread).isSome → ¬q.isFull
  | _ => True

-----------------------------------------------------------------------------------------
-- One step
-----------------------------------------------------------------------------------------

/-- A length that is not negative is compared as it is. -/
theorem capacity_eq {q : CommandQueue Thread T} (nonneg : 0 ≤ q.queueLength.toInt)
    : (q.capacity : Int) = q.queueLength.toInt := by
  have wide : q.queueLength.toInt64.toInt = q.queueLength.toInt := Int32.toInt_toInt64 _
  have nonneg' : 0 ≤ q.queueLength.toInt64 := by
    rw [Int64.le_iff_toInt_le, wide]
    exact nonneg
  rw [capacity, Int64.toNat_toUInt64_of_le nonneg', ← Int64.toNat_toInt, wide]
  exact Int.toNat_of_nonneg nonneg

theorem stateOf_pushed {items capacity : Nat} {queueLength : Int}
    (same : (capacity : Int) = queueLength)
    : (if items + 1 < capacity then QueueState.queueAvailable else .queueFull)
      = stateOf (items + 1) queueLength := by
  rw [stateOf, if_neg (Nat.succ_ne_zero items)]
  by_cases room : items + 1 < capacity
  · rw [if_pos room, if_pos (by omega)]
  · rw [if_neg room, if_neg (by omega)]

theorem stateOf_popped {items : Nat} {queueLength : Int}
    (bound : ((items + 1 : Nat) : Int) ≤ queueLength)
    : (if 0 < items then QueueState.queueAvailable else .queueEmpty)
      = stateOf items queueLength := by
  rcases Nat.eq_zero_or_pos items with rfl | positive
  · rfl
  · rw [if_pos positive, stateOf, if_neg (by omega), if_pos (by omega)]

/-- The constructor's queue, before any call. -/
theorem disciplined_ofLength {len : Int32} (nonneg : 0 ≤ len.toInt)
    : (ofLength len : CommandQueue Thread T).Disciplined [] :=
  ⟨nonneg, rfl, rfl⟩

section Call

variable {q : CommandQueue Thread T} {done : List (Completion T)} {data : T}

theorem Disciplined.push (disciplined : q.Disciplined done) (nonneg : 0 ≤ q.queueLength.toInt)
    (room : ¬q.isFull) (passed : Thread → Option T)
    : Disciplined { q.push data with passed }
        (done ++ [.enqueued data (q.push data).mQueue.length]) := by
  obtain ⟨_, order, _⟩ := disciplined
  have same := capacity_eq nonneg
  rw [isFull] at room
  refine ⟨?_, ?_, ?_⟩
  · simp only [CommandQueue.push, List.length_append, List.length_singleton]
    omega
  · have later : enqueuedItems (done ++ [.enqueued data (q.push data).mQueue.length])
        = enqueuedItems done ++ [data] := by
      simp [enqueuedItems]
    have unchanged : dequeuedItems (done ++ [.enqueued data (q.push data).mQueue.length])
        = dequeuedItems done := by
      simp [dequeuedItems]
    rw [later, unchanged, ← order, List.append_assoc]
    rfl
  · simp only [CommandQueue.push, List.length_append, List.length_singleton]
    exact stateOf_pushed same

theorem Disciplined.dequeue (disciplined : q.Disciplined done)
    : q.dequeue.1.Disciplined (done ++ [.dequeued q.dequeue.2]) := by
  obtain ⟨bound, order, state⟩ := disciplined
  cases items : q.mQueue with
  | nil =>
      simp only [CommandQueue.dequeue, items]
      refine ⟨bound, ?_, state⟩
      simpa [dequeuedItems, enqueuedItems] using order
  | cons result mQueue =>
      rw [items, List.length_cons] at bound
      simp only [CommandQueue.dequeue, items]
      refine ⟨?_, ?_, stateOf_popped bound⟩
      · simp only
        push_cast at bound
        omega
      · rw [items] at order
        simpa [dequeuedItems, enqueuedItems] using order

/-- A refused call leaves everything as it is. -/
theorem Disciplined.refuse (disciplined : q.Disciplined done)
    : q.Disciplined (done ++ [.refused]) := by
  obtain ⟨bound, order, state⟩ := disciplined
  refine ⟨bound, ?_, state⟩
  simpa [dequeuedItems, enqueuedItems] using order

end Call

@[simp] theorem dequeue_queueLength (q : CommandQueue Thread T)
    : q.dequeue.1.queueLength = q.queueLength := by
  rw [dequeue]
  cases q.mQueue <;> rfl

section Runs

variable [DecidableEq Thread] {q next : CommandQueue Thread T} {input : QueueStep Thread T}
  {done more : List (Completion T)}

/-- Every step that a thread can make, with its guard. -/
theorem step_cases (steps : q.step input = some (next, more))
    : (∃ thread data, input = .test thread data ∧ q.isFull ∧ next = q ∧ more = [.refused])
      ∨ (∃ thread data, input = .test thread data ∧ ¬q.isFull
          ∧ next = { q with passed := Function.update q.passed thread (some data) } ∧ more = [])
      ∨ (∃ thread data, input = .push thread ∧ q.passed thread = some data
          ∧ next = { q.push data with passed := Function.update q.passed thread none }
          ∧ more = [.enqueued data (q.push data).mQueue.length])
      ∨ ∃ thread, input = .pop thread ∧ next = q.dequeue.1 ∧ more = [.dequeued q.dequeue.2] := by
  cases input with
  | test thread data =>
      simp only [step] at steps
      split_ifs at steps with busy full
      · obtain ⟨rfl, rfl⟩ := Prod.mk.inj (Option.some.inj steps)
        exact Or.inl ⟨thread, data, rfl, full, rfl, rfl⟩
      · obtain ⟨rfl, rfl⟩ := Prod.mk.inj (Option.some.inj steps)
        exact Or.inr (Or.inl ⟨thread, data, rfl, full, rfl, rfl⟩)
  | push thread =>
      cases holds : q.passed thread with
      | none => simp [step, holds] at steps
      | some data =>
          simp only [step, holds] at steps
          obtain ⟨rfl, rfl⟩ := Prod.mk.inj (Option.some.inj steps)
          exact Or.inr (Or.inr (Or.inl ⟨thread, data, rfl, holds, rfl, rfl⟩))
  | pop thread =>
      simp only [step] at steps
      split_ifs at steps with busy
      obtain ⟨rfl, rfl⟩ := Prod.mk.inj (Option.some.inj steps)
      exact Or.inr (Or.inr (Or.inr ⟨thread, rfl, rfl, rfl⟩))

theorem step_queueLength (steps : q.step input = some (next, more))
    : next.queueLength = q.queueLength := by
  obtain ⟨_, _, _, _, rfl, _⟩ | ⟨_, _, _, _, rfl, _⟩ | ⟨_, _, _, _, rfl, _⟩ | ⟨_, _, rfl, _⟩ :=
    step_cases steps
  · rfl
  · rfl
  · rfl
  · exact dequeue_queueLength q

/-- What a step keeps, when a push finds room. -/
theorem Disciplined.step (disciplined : q.Disciplined done) (nonneg : 0 ≤ q.queueLength.toInt)
    (room : q.FindsRoom input) (steps : q.step input = some (next, more))
    : next.Disciplined (done ++ more) := by
  obtain ⟨_, _, rfl, _, rfl, rfl⟩ | ⟨_, _, rfl, _, rfl, rfl⟩ | ⟨_, _, rfl, waits, rfl, rfl⟩
    | ⟨_, rfl, rfl, rfl⟩ := step_cases steps
  · exact disciplined.refuse
  · rw [List.append_nil]
    exact ⟨disciplined.bound, disciplined.order, disciplined.state⟩
  · exact disciplined.push nonneg (room (by rw [waits]; rfl)) _
  · exact disciplined.dequeue

/-- A push that keeps the bound had found room. -/
theorem findsRoom_of_bound
    (bound
      : ∀ next more, q.step input = some (next, more)
          → (next.mQueue.length : Int) ≤ next.queueLength.toInt)
    : q.FindsRoom input := by
  cases input with
  | test thread data => trivial
  | pop thread => trivial
  | push thread =>
      intro waits full
      obtain ⟨data, waits⟩ := Option.isSome_iff_exists.mp waits
      have kept := bound _ _ (by rw [CommandQueue.step, waits])
      simp only [CommandQueue.push, List.length_append, List.length_singleton] at kept
      have same := capacity_eq (q := q) (by omega)
      rw [isFull] at full
      omega

-----------------------------------------------------------------------------------------
-- Any interleaving
-----------------------------------------------------------------------------------------

/-- A run in which every push finds room, by induction over its steps. -/
theorem Disciplined.run {steps : List (QueueStep Thread T)} (disciplined : q.Disciplined done)
    (nonneg : 0 ≤ q.queueLength.toInt) (rooms : Every CommandQueue.step FindsRoom q steps)
    (runs : q.run steps = some (next, more))
    : next.Disciplined (done ++ more) := by
  induction steps generalizing q done more with
  | nil =>
      obtain ⟨rfl, rfl⟩ := Prod.mk.inj (Option.some.inj runs)
      rwa [List.append_nil]
  | cons input rest ih =>
      obtain ⟨middle, first, later, steps, restRuns, rfl⟩ := OutputRun.run_cons_inv runs
      rw [← List.append_assoc]
      exact ih (disciplined.step nonneg rooms.1 steps) (by rwa [step_queueLength steps])
        (rooms.2 middle first steps) restRuns

/-- The queue keeps its discipline through a run exactly when its length is not negative and
every push still finds the room that its test has found.
-/
theorem run_disciplined_iff (len : Int32) (steps : List (QueueStep Thread T))
    : (∀ before after q done, steps = before ++ after →
        (ofLength len : CommandQueue Thread T).run before = some (q, done) → q.Disciplined done)
      ↔ 0 ≤ len.toInt
        ∧ Every CommandQueue.step FindsRoom (ofLength len : CommandQueue Thread T) steps := by
  constructor
  · intro disciplined
    refine ⟨(disciplined [] steps (ofLength len) [] rfl rfl).bound, ?_⟩
    rw [OutputRun.every_iff]
    intro before input after split reached done runs
    apply findsRoom_of_bound
    intro next more stepped
    -- the run up to and with this step is a prefix as well
    have prefix_ : steps = (before ++ [input]) ++ after := by simp [split]
    exact (disciplined (before ++ [input]) after next (done ++ (more ++ [])) prefix_
      (OutputRun.run_append runs (OutputRun.run_cons stepped rfl))).bound
  · intro ⟨nonneg, rooms⟩ before after q done split runs
    rw [split] at rooms
    have disciplined := (disciplined_ofLength nonneg).run nonneg (OutputRun.every_left rooms) runs
    rwa [List.nil_append] at disciplined

/-- 33 threads test the empty queue of the services before the first of them pushes. -/
theorem run_allTestedFirst_not_disciplined
    : ∃ q done,
        (ofLength 32 : CommandQueue Nat Nat).run
            ((List.range 33).map (fun thread => .test thread thread)
              ++ (List.range 33).map .push)
          = some (q, done)
        ∧ ¬q.Disciplined done := by
  have items : ((ofLength 32 : CommandQueue Nat Nat).run
        ((List.range 33).map (fun thread => .test thread thread)
          ++ (List.range 33).map .push)).map (fun reached =>
            (reached.1.mQueue.length, reached.1.queueLength.toInt))
      = some (33, 32) := by
    decide +kernel
  obtain ⟨⟨q, done⟩, runs, held⟩ := Option.map_eq_some_iff.mp items
  obtain ⟨length, queueLength⟩ := Prod.mk.inj held
  refine ⟨q, done, runs, ?_⟩
  intro disciplined
  have bound := disciplined.bound
  simp only at length queueLength
  omega

-----------------------------------------------------------------------------------------
-- One enqueuer at a time
-----------------------------------------------------------------------------------------

/-- A thread calls `Enqueue` only when no thread is in it. -/
def CallsAlone (q : CommandQueue Thread T) : QueueStep Thread T → Prop
  | .test _ _ => ∀ thread, q.passed thread = none
  | _ => True

/-- At most one thread is between its test and its push, and the room is still there. -/
def HasRoomForPassed (q : CommandQueue Thread T) : Prop :=
  ∀ thread, (q.passed thread).isSome →
    ¬q.isFull ∧ ∀ other, other ≠ thread → q.passed other = none

omit [DecidableEq Thread] in
theorem HasRoomForPassed.findsRoom (room : q.HasRoomForPassed) : q.FindsRoom input := by
  cases input with
  | test thread data => trivial
  | pop thread => trivial
  | push thread => exact fun waits => (room thread waits).1

theorem HasRoomForPassed.step (room : q.HasRoomForPassed) (alone : q.CallsAlone input)
    (steps : q.step input = some (next, more))
    : next.HasRoomForPassed := by
  obtain ⟨_, _, rfl, _, rfl, _⟩ | ⟨tester, _, rfl, notFull, rfl, _⟩
    | ⟨pusher, _, rfl, waits, rfl, _⟩ | ⟨_, rfl, rfl, _⟩ := step_cases steps
  · exact room
  · intro thread waits
    refine ⟨notFull, ?_⟩
    intro other different
    by_cases same : other = tester
    · -- then `thread` had passed its test before
      subst same
      simp [Function.update_of_ne different.symm, alone thread] at waits
    · simp only [Function.update_of_ne same]
      exact alone other
  · -- nobody waits after the only one has pushed
    intro thread waits'
    have passedNothing : Function.update q.passed pusher none thread = none := by
      by_cases same : thread = pusher
      · rw [same, Function.update_self]
      · rw [Function.update_of_ne same]
        exact (room pusher (by rw [waits]; rfl)).2 thread same
    simp [passedNothing] at waits'
  · have fewer : q.dequeue.1.mQueue.length ≤ q.mQueue.length := by
      cases items : q.mQueue with
      | nil => simp [dequeue, items]
      | cons result mQueue => simp [dequeue, items]
    have unchanged : q.dequeue.1.passed = q.passed := by
      rw [dequeue]
      cases q.mQueue <;> rfl
    intro thread waits
    rw [unchanged] at waits ⊢
    obtain ⟨notFull, others⟩ := room thread waits
    refine ⟨?_, others⟩
    rw [isFull, capacity, dequeue_queueLength, not_le]
    exact Nat.lt_of_le_of_lt fewer (not_le.mp notFull)

/-- With one enqueuer at a time every push finds room, by induction over the steps. -/
theorem every_findsRoom_of_callsAlone {steps : List (QueueStep Thread T)}
    (room : q.HasRoomForPassed) (alone : Every CommandQueue.step CallsAlone q steps)
    : Every CommandQueue.step FindsRoom q steps := by
  induction steps generalizing q with
  | nil => trivial
  | cons input rest ih =>
      refine ⟨room.findsRoom, ?_⟩
      intro next more steps
      exact ih (room.step alone.1 steps) (alone.2 next more steps)

/-- The services' queue keeps its bound with a single enqueuing thread. -/
theorem run_disciplined_of_callsAlone {len : Int32} (nonneg : 0 ≤ len.toInt)
    {steps : List (QueueStep Thread T)}
    (alone : Every CommandQueue.step CallsAlone (ofLength len : CommandQueue Thread T) steps)
    (runs : (ofLength len : CommandQueue Thread T).run steps = some (next, done))
    : next.Disciplined done := by
  have roomy : (ofLength len : CommandQueue Thread T).HasRoomForPassed := by
    intro thread waits
    exact absurd waits (by simp [ofLength])
  have disciplined := (disciplined_ofLength nonneg).run nonneg
    (every_findsRoom_of_callsAlone roomy alone) runs
  rwa [List.nil_append] at disciplined

end Runs

end CommandQueue

end Sparcs.Gateway
