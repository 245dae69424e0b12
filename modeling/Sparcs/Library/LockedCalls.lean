import Mathlib

/-! Programs that take a lock, make calls that may throw, and give the lock back: the lock
operations that they execute, and how many times the lock is still held in the end.
-/

inductive LockEvent where
  | acquired
  | released
  deriving DecidableEq, Repr

/-- What the operation adds to the number of times that the lock is held. -/
def LockEvent.sign : LockEvent → Int
  | .acquired => 1
  | .released => -1

/-- The lock operations that are executed, every acquisition taken to be granted, and the
result; `none` where an exception leaves the program.
-/
structure Locked (α : Type) where
  events : List LockEvent
  result : Option α

namespace Locked

variable {α β : Type}

instance : Monad Locked where
  pure value := ⟨[], some value⟩
  bind first next :=
    match first.result with
    | some value => ⟨first.events ++ (next value).events, (next value).result⟩
    | none => ⟨first.events, none⟩

def acquire : Locked Unit := ⟨[.acquired], some ()⟩

def release : Locked Unit := ⟨[.released], some ()⟩

/-- A call under whatever lock is held; without an answer it throws. -/
def call (answer : Option α) : Locked α := ⟨[], answer⟩

/-- A call without a value. -/
def throwUnless (succeeds : Bool) : Locked Unit := call (if succeeds then some () else none)

/-- `try` with a handler for every exception. -/
def catching (body handler : Locked α) : Locked α :=
  match body.result with
  | some _ => body
  | none => ⟨body.events ++ handler.events, handler.result⟩

/-- Acquisitions less releases. -/
def balance (program : Locked α) : Int := (program.events.map LockEvent.sign).sum

/-- The lock is given back exactly as often as it is taken. -/
def GivesBack (program : Locked α) : Prop := program.balance = 0

instance (program : Locked α) : Decidable program.GivesBack := inferInstanceAs (Decidable (_ = _))

/-- Started with the lock held `held` times, the program leaves it held `after` times, or
once where an exception leaves the program.
-/
def Leaves (held after : Int) (program : Locked α) : Prop :=
  held + program.balance = if program.result.isSome then after else 1

variable {first body handler : Locked α} {next : α → Locked β} {value : α} {held middle after : Int}

@[simp] theorem result_pure : (pure value : Locked α).result = some value := rfl

@[simp] theorem result_acquire : acquire.result = some () := rfl

@[simp] theorem result_release : release.result = some () := rfl

@[simp] theorem result_call (answer : Option α) : (call answer).result = answer := rfl

theorem bind_of_some (result : first.result = some value)
    : first >>= next = ⟨first.events ++ (next value).events, (next value).result⟩ := by
  simp only [bind, result]

theorem bind_of_none (throws : first.result = none)
    : first >>= next = ⟨first.events, none⟩ := by
  simp only [bind, throws]

@[simp] theorem call_some_bind : call (some value) >>= next = next value := rfl

@[simp] theorem result_bind
    : (first >>= next).result = first.result.bind fun value => (next value).result := by
  cases result : first.result with
  | none => rw [bind_of_none result]; rfl
  | some value => rw [bind_of_some result]; rfl

theorem result_pure_eq_some {last : α}
    : (pure value : Locked α).result = some last ↔ last = value := by
  rw [result_pure, Option.some.injEq, eq_comm]

/-- A program for its effect, and then a value. -/
theorem result_then_eq_some {value last : β}
    : (first >>= fun _ => pure value).result = some last
      ↔ first.result.isSome ∧ last = value := by
  rw [result_bind]
  cases first.result with
  | none => simp
  | some _ => simp [eq_comm]

theorem result_bind_isSome
    : (first >>= next).result.isSome
      ↔ ∃ value, first.result = some value ∧ (next value).result.isSome := by
  rw [result_bind]
  cases first.result <;> simp

namespace Leaves

theorem pure : Leaves held held (Pure.pure value : Locked α) := by
  simp [Leaves, balance, Pure.pure]

theorem acquire : Leaves 0 1 acquire := by
  simp [Leaves, balance, Locked.acquire, LockEvent.sign]

theorem release : Leaves 1 0 release := by
  simp [Leaves, balance, Locked.release, LockEvent.sign]

theorem call (answer : Option α) : Leaves 1 1 (call answer) := by
  cases answer <;> rfl

theorem throwUnless (succeeds : Bool) : Leaves 1 1 (throwUnless succeeds) :=
  call _

theorem bind (start : Leaves held middle first) (rest : ∀ value, Leaves middle after (next value))
    : Leaves held after (first >>= next) := by
  cases result : first.result with
  | none =>
      rw [bind_of_none result]
      simp only [Leaves, balance, result, Option.isSome_none, Bool.false_eq_true, if_false]
        at start ⊢
      exact start
  | some value =>
      have rest := rest value
      rw [bind_of_some result]
      simp only [Leaves, balance, result, Option.isSome_some, if_true] at start rest ⊢
      rw [← rest, ← start, List.map_append, List.sum_append, Int.add_assoc]

/-- A handler starts with the lock held once. -/
theorem catching (tried : Leaves held after body) (handles : Leaves 1 after handler)
    : Leaves held after (catching body handler) := by
  unfold Locked.catching
  cases result : body.result with
  | some value => exact tried
  | none =>
      simp only [Leaves, balance, result, Option.isSome_none, Bool.false_eq_true, if_false]
        at tried handles ⊢
      rw [List.map_append, List.sum_append, ← Int.add_assoc, tried]
      exact handles

theorem givesBack (leaves : Leaves 0 0 body) (ends : body.result.isSome) : GivesBack body := by
  unfold Leaves at leaves
  rw [if_pos ends, Int.zero_add] at leaves
  exact leaves

/-- Where exceptions are all that leaves the lock held, a handler without lock operations
makes the balance a matter of the result.
-/
theorem givesBack_catching_iff (leaves : Leaves 0 0 body) (handled : α)
    : GivesBack (Locked.catching body (Pure.pure handled)) ↔ body.result.isSome := by
  unfold Leaves balance at leaves
  unfold GivesBack balance Locked.catching
  cases result : body.result with
  | none =>
      rw [result] at leaves
      simp [Pure.pure] at leaves ⊢
      omega
  | some value =>
      rw [result] at leaves
      simpa using leaves

end Leaves

/-- What gives back the lock as often as it takes it can follow without changing the balance. -/
theorem givesBack_bind_iff (rest : ∀ value, GivesBack (next value))
    : GivesBack (first >>= next) ↔ GivesBack first := by
  cases result : first.result with
  | none => rw [bind_of_none result]; rfl
  | some value =>
      have rest := rest value
      rw [bind_of_some result]
      unfold GivesBack balance at rest ⊢
      rw [List.map_append, List.sum_append, rest, Int.add_zero]

theorem GivesBack.pure : GivesBack (Pure.pure value : Locked α) := rfl

theorem GivesBack.bind (start : GivesBack first) (rest : ∀ value, GivesBack (next value))
    : GivesBack (first >>= next) :=
  (givesBack_bind_iff rest).mpr start

theorem result_catching {handled : α}
    : (catching body (pure handled)).result = some (body.result.getD handled) := by
  unfold catching
  cases result : body.result with
  | some value => exact result
  | none => rfl

theorem catching_isSome (handles : handler.result.isSome)
    : (catching body handler).result.isSome := by
  unfold catching
  cases result : body.result with
  | some value => simp [result]
  | none => exact handles

end Locked
