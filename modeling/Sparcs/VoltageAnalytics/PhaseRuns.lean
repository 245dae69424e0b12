import Sparcs.VoltageAnalytics.Windows

/-! Windows one after the other: the detector's reports of a phase, window by window, are
those of a detector that only has this phase.
-/

namespace Sparcs.VoltageAnalytics

/-- A run over windows as `processWindows`, with the reports of each window by themselves. -/
def processWindowsEach : Analyser → List (Fin 3 → List Float)
    → Option (Analyser × List (List ReportMe))
  | a, [] => some (a, [])
  | a, window :: rest => do
      let (next, reports) ← processWindow a window
      let (final, later) ← processWindowsEach next rest
      pure (final, reports :: later)

/-- The reports of a run are those of its windows in order. -/
theorem processWindows_eq_flatten (a : Analyser) (windows : List (Fin 3 → List Float))
    : processWindows a windows
      = (processWindowsEach a windows).map (fun ran => (ran.1, ran.2.flatten)) := by
  induction windows generalizing a with
  | nil => rfl
  | cons window rest ih =>
      rw [processWindows, processWindowsEach]
      cases processWindow a window with
      | none => rfl
      | some called =>
          simp only [Option.bind_eq_bind, Option.bind_some, ih]
          cases processWindowsEach called.1 rest with
          | none => rfl
          | some later => rfl

/-- The same windows of one phase; `kk` is incremented before each of them. -/
def Phase.steps (size : BitVec 32) (phase : Fin 3)
    : BitVec 32 → Phase → List (List Float) → Option (List (List ReportMe))
  | _, _, [] => some []
  | kk, p, input :: rest => do
      let (next, reports) ← p.step (kk + 1) size phase input
      let later ← Phase.steps size phase (kk + 1) next rest
      pure (reports :: later)

theorem Phase.steps_cons {size : BitVec 32} {phase : Fin 3} {kk : BitVec 32} {p : Phase}
    {input : List Float} {rest : List (List Float)} {each : List (List ReportMe)}
    : Phase.steps size phase kk p (input :: rest) = some each
      ↔ ∃ next reports later,
          p.step (kk + 1) size phase input = some (next, reports)
          ∧ Phase.steps size phase (kk + 1) next rest = some later
          ∧ reports :: later = each := by
  rw [Phase.steps]
  simp only [Option.bind_eq_bind, Option.bind_eq_some_iff, Option.pure_def,
    Option.some.injEq, Prod.exists]
  grind

/-- The reports of one phase among the reports that the phases add one after the other. -/
theorem reportsOf_steps {kk size : BitVec 32} {phases kept : Fin 3 → Phase}
    {input : Fin 3 → List Float} {reports : Fin 3 → List ReportMe}
    (steps
      : ∀ phase,
          (phases phase).step kk size phase (input phase)
          = some (kept phase, reports phase))
    (phase : Fin 3)
    : reportsOf phase (reports 0 ++ reports 1 ++ reports 2) = reports phase := by
  have own (other : Fin 3) := reportsOf_named phase (Phase.step_phase (steps other))
  simp only [reportsOf_append, own]
  match phase with
  | 0 => simp
  | 1 => simp
  | 2 => simp

/-- The detector runs its phases side by side, by induction over the windows. -/
theorem processWindowsEach_of_steps {a : Analyser} {windows : List (Fin 3 → List Float)}
    {each : Fin 3 → List (List ReportMe)}
    (steps
      : ∀ phase,
          Phase.steps a.size phase a.kk (a.phases phase) (windows.map (· phase))
          = some (each phase))
    : ∃ final reports,
        processWindowsEach a windows = some (final, reports)
        ∧ ∀ phase, reports.map (reportsOf phase) = each phase := by
  induction windows generalizing a each with
  | nil =>
      refine ⟨a, [], rfl, ?_⟩
      intro phase
      exact Option.some.inj (steps phase)
  | cons window rest ih =>
      have first (phase : Fin 3) := Phase.steps_cons.mp (steps phase)
      choose kept reports later step more grown using first
      obtain ⟨final, others, ran, same⟩ :=
        @ih { a with kk := a.kk + 1, phases := kept } later more
      refine ⟨final, (reports 0 ++ reports 1 ++ reports 2) :: others, ?_, ?_⟩
      · rw [processWindowsEach, processWindow_of_steps step]
        simp only [Option.bind_eq_bind, Option.bind_some, ran, Option.pure_def]
      · intro phase
        rw [List.map_cons, same phase, reportsOf_steps step phase, grown phase]

end Sparcs.VoltageAnalytics
