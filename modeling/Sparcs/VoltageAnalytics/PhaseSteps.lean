import Sparcs.VoltageAnalytics.Detector

/-! The detector of three phases is three detectors of one phase side by side.
`printReports` runs for all phases as soon as one of them has something to report, and it
adds nothing for a phase that has nothing.
-/

namespace Sparcs.VoltageAnalytics

/-- What one call of `VoltageLimitMain` does for one phase, if `printReports` is called. -/
def Phase.step (kk size : BitVec 32) (phase : Fin 3) (input : List Float) (p : Phase)
    : Option (Phase × List ReportMe) := do
  let scanned ← p.scan kk size input
  let reports ← scanned.printReports phase input
  let kept ← scanned.keepWindow input
  pure (kept, reports)

/-- A phase without pushes and without an event to end adds nothing to the reports. -/
theorem Phase.printReports_quiet {p : Phase} {input : List Float} {first : Float}
    (phase : Fin 3) (head : input[0]? = some first) (noReport : p.report = 0)
    (noOpen : p.lastWindowRep = false)
    : p.printReports phase input = some [] := by
  have quiet {α : Type} (xs : List α) : p.reported first xs = some [] := by
    simp only [Phase.reported, Phase.eventEnded, noReport, noOpen, Bool.false_and,
      Bool.false_eq_true, if_false]
    split_ifs <;> rfl
  simp [Phase.printReports, head, quiet]

/-- What a step has done: the phase is scanned, it may report, and its window is kept. -/
theorem Phase.step_eq_some {kk size : BitVec 32} {phase : Fin 3} {input : List Float}
    {p kept : Phase} {reports : List ReportMe}
    (steps : p.step kk size phase input = some (kept, reports))
    : ∃ scanned,
        p.scan kk size input = some scanned
        ∧ scanned.printReports phase input = some reports
        ∧ scanned.keepWindow input = some kept
        ∧ (scanned.report = 0 → scanned.lastWindowRep = false → reports = []) := by
  simp only [Phase.step, Option.bind_eq_bind, Option.bind_eq_some_iff, Option.pure_def,
    Option.some.injEq, Prod.mk.injEq] at steps
  obtain ⟨scanned, scans, printed, prints, kept', keeps, rfl, rfl⟩ := steps
  refine ⟨scanned, scans, prints, keeps, ?_⟩
  intro noReport noOpen
  obtain ⟨first, head, _⟩ := Option.bind_eq_some_iff.mp prints
  rw [Phase.printReports_quiet phase head noReport noOpen] at prints
  exact (Option.some.inj prints).symm

/-- A call works on each phase by itself: whether another phase makes it print is neutral
for the phases that have nothing to report.
-/
theorem voltageLimitMain_of_steps {a : Analyser} {input : Fin 3 → List Float}
    {kept : Fin 3 → Phase} {reports : Fin 3 → List ReportMe}
    (steps
      : ∀ phase,
          (a.phases phase).step a.kk a.size phase (input phase)
          = some (kept phase, reports phase))
    : voltageLimitMain a input
      = some ({ a with phases := kept }, reports 0 ++ reports 1 ++ reports 2) := by
  have done (phase : Fin 3) := Phase.step_eq_some (steps phase)
  choose scanned scans prints keeps silent using done
  have all : ![kept 0, kept 1, kept 2] = kept := by
    funext phase
    match phase with
    | 0 => rfl
    | 1 => rfl
    | 2 => rfl
  simp only [voltageLimitMain, scans, Option.bind_eq_bind, Option.bind_some, keeps,
    Option.pure_def, all]
  split_ifs with speaks
  · simp [printReports, prints]
  · simp only [Bool.or_eq_true, decide_eq_true_eq, not_or, Nat.not_lt, Nat.le_zero,
      Bool.not_eq_true] at speaks
    obtain ⟨⟨⟨⟨⟨none0, none1⟩, none2⟩, quiet0⟩, quiet1⟩, quiet2⟩ := speaks
    rw [silent 0 none0 quiet0, silent 1 none1 quiet1, silent 2 none2 quiet2]
    rfl

theorem processWindow_of_steps {a : Analyser} {input : Fin 3 → List Float}
    {kept : Fin 3 → Phase} {reports : Fin 3 → List ReportMe}
    (steps
      : ∀ phase,
          (a.phases phase).step (a.kk + 1) a.size phase (input phase)
          = some (kept phase, reports phase))
    : processWindow a input
      = some ({ a with kk := a.kk + 1, phases := kept },
          reports 0 ++ reports 1 ++ reports 2) :=
  @voltageLimitMain_of_steps { a with kk := a.kk + 1 } input kept reports steps

/-- A phase is named in its own reports only. -/
theorem Phase.step_phase {kk size : BitVec 32} {phase : Fin 3} {input : List Float}
    {p kept : Phase} {reports : List ReportMe}
    (steps : p.step kk size phase input = some (kept, reports))
    : ∀ report ∈ reports, report.phase = phase := by
  obtain ⟨scanned, _, prints, _, _⟩ := Phase.step_eq_some steps
  simp only [Phase.printReports, Option.bind_eq_bind, Option.bind_eq_some_iff,
    Option.pure_def, Option.some.injEq] at prints
  obtain ⟨_, _, _, _, _, _, _, _, rfl⟩ := prints
  intro report member
  obtain ⟨entry, _, rfl⟩ := List.mem_map.mp member
  rfl

end Sparcs.VoltageAnalytics
