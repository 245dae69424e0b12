import Mathlib.Logic.Function.Basic
import Mathlib.Tactic.Common

/-! Programs that write and read one cell, alone and in every interleaving. A thread whose
reads all find what it wrote itself ends as it would alone; what any thread comes to, it comes
to by itself with some values for its reads.
-/

namespace SharedCell

/-- A program ends, writes the cell, or goes on with what it reads there. -/
inductive Program (σ α : Type) where
  | done (a : α)
  | write (v : σ) (rest : Program σ α)
  | read (rest : σ → Program σ α)

namespace Program

variable {σ α β γ : Type}

def bind : Program σ α → (α → Program σ β) → Program σ β
  | .done a, next => next a
  | .write v rest, next => .write v (rest.bind next)
  | .read rest, next => .read fun v => (rest v).bind next

instance : Monad (Program σ) where
  pure := .done
  bind := bind

theorem bind_done (program : Program σ α) : program.bind .done = program := by
  induction program with
  | done a => rfl
  | write v rest ih => rw [bind, ih]
  | read rest ih => rw [bind, funext ih]

theorem bind_assoc (program : Program σ α) (next : α → Program σ β) (last : β → Program σ γ)
    : (program.bind next).bind last = program.bind fun a => (next a).bind last := by
  induction program with
  | done a => rfl
  | write v rest ih => rw [bind, bind, bind, ih]
  | read rest ih => rw [bind, bind, bind, funext ih]

instance : LawfulMonad (Program σ) :=
  LawfulMonad.mk' (Program σ) bind_done (fun _ _ => rfl) bind_assoc

/-- The result of a program that runs alone, and what it leaves in the cell. -/
def run : Program σ α → σ → α × σ
  | .done a, v => (a, v)
  | .write v rest, _ => rest.run v
  | .read rest, v => (rest v).run v

/-- The result of a program that has ended. -/
def result? : Program σ α → Option α
  | .done a => some a
  | _ => none

/-- The result of a program that runs alone. -/
def alone (program : Program σ α) (v : σ) : α := (program.run v).1

/-- What a program may come to beside others, together with the last value that it has written
itself; with that value at hand, a read finds one that `finds` allows.
-/
inductive Leads (finds : σ → σ → Prop) : Program σ α → σ → α × σ → Prop where
  | done (a : α) (v : σ) : Leads finds (.done a) v (a, v)
  | write {w v : σ} {rest : Program σ α} {result : α × σ} (leads : Leads finds rest w result)
      : Leads finds (.write w rest) v result
  | read {v found : σ} {rest : σ → Program σ α} {result : α × σ} (allowed : finds v found)
      (leads : Leads finds (rest found) v result)
      : Leads finds (.read rest) v result

theorem result?_eq_some {program : Program σ α} {a : α}
    : program.result? = some a ↔ program = .done a := by
  cases program <;> simp [result?]

@[simp] theorem run_pure (a : α) (v : σ) : (pure a : Program σ α).run v = (a, v) := rfl

@[simp] theorem run_write (w v : σ) (rest : Program σ α)
    : (write w rest).run v = rest.run w := rfl

@[simp] theorem run_read (rest : σ → Program σ α) (v : σ)
    : (read rest).run v = (rest v).run v := rfl

@[simp] theorem run_bind (program : Program σ α) (next : α → Program σ β) (v : σ)
    : (program >>= next).run v = (next (program.run v).1).run (program.run v).2 := by
  induction program generalizing v with
  | done a => rfl
  | write w rest ih => exact ih w
  | read rest ih => exact ih v v

@[simp] theorem run_map (f : α → β) (program : Program σ α) (v : σ)
    : (f <$> program).run v = (f (program.run v).1, (program.run v).2) :=
  run_bind program (pure ∘ f) v

variable {finds : σ → σ → Prop} {v : σ}

@[simp] theorem leads_pure_iff {a : α} {result : α × σ}
    : (pure a : Program σ α).Leads finds v result ↔ result = (a, v) := by
  constructor
  · rintro ⟨⟩
    rfl
  · rintro rfl
    exact .done a v

@[simp] theorem leads_write_iff {w : σ} {rest : Program σ α} {result : α × σ}
    : (write w rest).Leads finds v result ↔ rest.Leads finds w result :=
  ⟨fun | .write leads => leads, .write⟩

@[simp] theorem leads_read_iff {rest : σ → Program σ α} {result : α × σ}
    : (read rest).Leads finds v result
      ↔ ∃ found, finds v found ∧ (rest found).Leads finds v result :=
  ⟨fun | .read allowed leads => ⟨_, allowed, leads⟩,
    fun ⟨_, allowed, leads⟩ => .read allowed leads⟩

theorem leads_bind_iff {program : Program σ α} {next : α → Program σ β} {result : β × σ}
    : (program >>= next).Leads finds v result
      ↔ ∃ a w, program.Leads finds v (a, w) ∧ (next a).Leads finds w result := by
  induction program generalizing v with
  | done a =>
      constructor
      · exact fun leads => ⟨a, v, .done a v, leads⟩
      · rintro ⟨_, _, ⟨⟩, leads⟩
        exact leads
  | write w rest ih =>
      simp only [leads_write_iff]
      exact leads_write_iff.trans ih
  | read rest ih =>
      refine leads_read_iff.trans ?_
      constructor
      · rintro ⟨found, allowed, leads⟩
        obtain ⟨a, w, first, last⟩ := (ih found).mp leads
        exact ⟨a, w, .read allowed first, last⟩
      · rintro ⟨a, w, first, last⟩
        obtain ⟨found, allowed, first⟩ := leads_read_iff.mp first
        exact ⟨found, allowed, (ih found).mpr ⟨a, w, first, last⟩⟩

/-- A program whose reads find its own value runs alone. -/
theorem leads_eq_iff {program : Program σ α} {result : α × σ}
    : program.Leads (· = ·) v result ↔ program.run v = result := by
  induction program generalizing v with
  | done a => exact leads_pure_iff.trans eq_comm
  | write w rest ih => exact leads_write_iff.trans ih
  | read rest ih => exact leads_read_iff.trans (exists_eq_left'.trans (ih v))

end Program

variable {ι σ α : Type} [DecidableEq ι]

/-- Threads that share the cell. `own` is the last value that each of them has written, or
that it has found at the start.
-/
structure Threads (ι σ α : Type) where
  cell : σ
  programs : ι → Program σ α
  own : ι → σ

namespace Threads

def start (programs : ι → Program σ α) (cell : σ) : Threads ι σ α :=
  { cell, programs, own := fun _ => cell }

/-- One access of a thread to the cell. -/
def step (s : Threads ι σ α) (i : ι) : Threads ι σ α :=
  match s.programs i with
  | .done _ => s
  | .write v rest =>
      { cell := v, programs := Function.update s.programs i rest,
        own := Function.update s.own i v }
  | .read rest => { s with programs := Function.update s.programs i (rest s.cell) }

/-- The threads after the accesses that a schedule gives them. -/
def run (s : Threads ι σ α) (schedule : List ι) : Threads ι σ α := schedule.foldl step s

/-- If the thread is about to read, it finds what it has written itself. -/
def ReadsOwn (s : Threads ι σ α) (i : ι) : Prop :=
  match s.programs i with
  | .read _ => s.cell = s.own i
  | _ => True

/-- At each step of the schedule, the thread whose turn it is reads its own value. -/
def Undisturbed (s : Threads ι σ α) (schedule : List ι) : Prop :=
  ∀ earlier i later, schedule = earlier ++ i :: later → (s.run earlier).ReadsOwn i

/-- What the thread would come to if nothing disturbed it from here on. -/
def prospect (s : Threads ι σ α) (i : ι) : α := (s.programs i).alone (s.own i)

variable {s : Threads ι σ α} {i j : ι}

/-- A step that reads the thread's own value changes no prospect. -/
theorem prospect_step (reads : s.ReadsOwn i) : (s.step i).prospect j = s.prospect j := by
  rw [ReadsOwn] at reads
  rw [prospect, prospect, step]
  by_cases same : j = i
  · subst same
    cases program : s.programs j with
    | done a => rw [program]
    | write v rest =>
        simp only [Function.update_self]
        rfl
    | read rest =>
        rw [program] at reads
        simp only [Function.update_self]
        rw [reads]
        rfl
  · cases s.programs i with
    | done a => rfl
    | write v rest => simp only [Function.update_of_ne same]
    | read rest => simp only [Function.update_of_ne same]

theorem undisturbed_nil : s.Undisturbed [] := by
  intro earlier i later split
  simp at split

theorem undisturbed_cons {schedule : List ι}
    : s.Undisturbed (i :: schedule) ↔ s.ReadsOwn i ∧ (s.step i).Undisturbed schedule := by
  constructor
  · intro undisturbed
    refine ⟨undisturbed [] i schedule rfl, ?_⟩
    intro earlier k later split
    exact undisturbed (i :: earlier) k later (by rw [split, List.cons_append])
  · rintro ⟨first, others⟩ earlier k later split
    cases earlier with
    | nil =>
        obtain ⟨rfl, rfl⟩ := List.cons.inj split
        exact first
    | cons j earlier =>
        obtain ⟨rfl, rfl⟩ := List.cons.inj split
        exact others earlier k later rfl

instance [DecidableEq σ] (s : Threads ι σ α) (i : ι) : Decidable (s.ReadsOwn i) :=
  match program : s.programs i with
  | .done _ => isTrue (by simp [ReadsOwn, program])
  | .write _ _ => isTrue (by simp [ReadsOwn, program])
  | .read _ => decidable_of_iff (s.cell = s.own i) (by simp [ReadsOwn, program])

instance decidableUndisturbed [DecidableEq σ]
    : (schedule : List ι) → (s : Threads ι σ α) → Decidable (s.Undisturbed schedule)
  | [], _ => isTrue undisturbed_nil
  | i :: schedule, s =>
      have := decidableUndisturbed schedule (s.step i)
      decidable_of_iff _ undisturbed_cons.symm

/-- In an undisturbed run no prospect changes, by induction over the schedule. -/
theorem prospect_run {schedule : List ι} (undisturbed : s.Undisturbed schedule)
    : (s.run schedule).prospect j = s.prospect j := by
  induction schedule generalizing s with
  | nil => rfl
  | cons i schedule ih =>
      obtain ⟨first, others⟩ := undisturbed_cons.mp undisturbed
      exact (ih others).trans (prospect_step first)

/-- A thread that ends in an undisturbed run has the result that it has alone. -/
theorem result_of_undisturbed {programs : ι → Program σ α} {cell : σ} {schedule : List ι}
    {a : α} (undisturbed : (start programs cell).Undisturbed schedule)
    (ended : (((start programs cell).run schedule).programs i).result? = some a)
    : a = (programs i).alone cell := by
  have same := @prospect_run _ _ _ _ _ i _ undisturbed
  rw [prospect, Program.result?_eq_some.mp ended] at same
  exact same

/-- A thread that ends in any run comes to its result by itself, for some values that its reads
find.
-/
theorem leads_of_run {schedule : List ι} {a : α}
    (ended : ((s.run schedule).programs i).result? = some a)
    : ∃ w, (s.programs i).Leads (fun _ _ => True) (s.own i) (a, w) := by
  induction schedule generalizing s with
  | nil =>
      have program : s.programs i = .done a := Program.result?_eq_some.mp ended
      rw [program]
      exact ⟨s.own i, .done a _⟩
  | cons j schedule ih =>
      obtain ⟨w, leads⟩ := @ih (s.step j) ended
      refine ⟨w, ?_⟩
      rw [step] at leads
      by_cases same : i = j
      · subst same
        cases program : s.programs i with
        | done b =>
            rw [program] at leads
            simpa only [program] using leads
        | write v rest =>
            rw [program] at leads
            simp only [Function.update_self] at leads
            exact .write leads
        | read rest =>
            rw [program] at leads
            simp only [Function.update_self] at leads
            exact .read trivial leads
      · cases program : s.programs j with
        | done b => simpa only [program] using leads
        | write v rest => simpa only [program, Function.update_of_ne same] using leads
        | read rest => simpa only [program, Function.update_of_ne same] using leads

end Threads

end SharedCell
