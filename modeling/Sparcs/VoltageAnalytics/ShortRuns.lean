import Sparcs.VoltageAnalytics.LongRuns
import Sparcs.VoltageAnalytics.PhaseSafety

/-! Samples that are NaN. Inside a window they end a run as any other foreign sample does.
At a window's edges the detector's tests all fail on them: the counters are not reset, the
end of an event is not seen, and a flag is not cleared.
-/

namespace Sparcs.VoltageAnalytics

open RunScan (OpenRun Segment IsRun)

/-- Every ended run with a label and at most `over` samples is reported exactly once, with
its own stamps.
-/
def ReportsShortRuns (phase : Fin 3) (stream : List Float) (reports : List ReportMe)
    : Prop :=
  ∀ run : BandRun, run.Reportable stream → run.next - run.first ≤ overLimit
    → reports.count (run.report phase) = 1

-----------------------------------------------------------------------------------------
-- The events of a stream with long runs
-----------------------------------------------------------------------------------------

section Stream

variable {stream : List Float}

/-- A labelled event that was not cut ends where a labelled run ends. -/
theorem reportable_of_event {segment : Segment Band}
    (event : segment ∈ events (RunScan.scan overLimit 0 none (symbols stream)).2)
    (whole : segment.capped = false)
    : ∃ start, BandRun.Reportable stream ⟨segment.kind, start, segment.stop⟩ := by
  have tracks := @RunScan.scan_tracks Band _ overLimit (symbols stream)
  obtain ⟨emitted, labelled⟩ := List.mem_filter.mp event
  obtain ⟨start, run, counted, _⟩ := tracks.finished segment emitted whole
  have inside := tracks.inside segment emitted
  rw [List.length_map] at inside
  refine ⟨start, run, inside, ?_⟩
  intro sag
  change segment.kind = .sag at sag
  rw [hasLabel, whole, sag, Bool.false_or, labelled_sag] at labelled
  exact labelled.trans_le counted

/-- A run within the limit that has a label is one event. -/
theorem event_of_reportable {run : BandRun} (reportable : run.Reportable stream)
    (short : run.next - run.first ≤ overLimit)
    : ⟨run.band, run.next - run.first, run.next, false⟩
      ∈ events (RunScan.scan overLimit 0 none (symbols stream)).2 := by
  obtain ⟨isRun, ended, long⟩ := reportable
  have tracks := @RunScan.scan_tracks Band _ overLimit (symbols stream)
  refine List.mem_filter.mpr
    ⟨tracks.complete _ _ _ isRun (by rwa [List.length_map]) short, ?_⟩
  rw [hasLabel, Bool.false_or]
  cases kind : run.band with
  | sag => exact (labelled_sag _).mpr (long kind)
  | interruption => rfl
  | swell => rfl

/-- Events of one stream that end at the same index are the same. -/
theorem event_unique {left right : Segment Band}
    (first : left ∈ events (RunScan.scan overLimit 0 none (symbols stream)).2)
    (second : right ∈ events (RunScan.scan overLimit 0 none (symbols stream)).2)
    (stops : left.stop = right.stop)
    : left = right := by
  have tracks := @RunScan.scan_tracks Band _ overLimit (symbols stream)
  have distinct : ((RunScan.scan overLimit 0 none (symbols stream)).2.map (·.stop)).Nodup :=
    List.pairwise_map.mpr (tracks.sorted.imp Nat.ne_of_lt)
  exact List.inj_on_of_nodup_map distinct (List.mem_filter.mp first).1
    (List.mem_filter.mp second).1 stops

/-- Only the labels of cut events are those of long runs. -/
theorem label_eq_description {segment : Segment Band} {band : Band}
    (same : label segment = band.description)
    : segment.capped = false := by
  cases capped : segment.capped with
  | false => rfl
  | true =>
      rw [label, if_pos capped] at same
      cases kind : segment.kind <;> cases band <;> rw [kind] at same <;>
        exact absurd same (by decide)

/-- An element that no other element of the list shares its image with is counted once. -/
theorem count_map_eq_one {α β : Type} [DecidableEq α] [DecidableEq β] {xs : List α} {f : α → β}
    {x : α} (nodup : xs.Nodup) (member : x ∈ xs) (only : ∀ y ∈ xs, f y = f x → y = x)
    : (xs.map f).count (f x) = 1 := by
  rw [← List.count_eq_one_of_mem nodup member, List.count_eq_countP, List.countP_map,
    List.count_eq_countP]
  apply List.countP_congr
  intro y listed
  simp only [Function.comp_apply, beq_iff_eq]
  constructor
  · exact only y listed
  · intro same
    rw [same]

/-- The finished reports name the runs within the limit once each, as long as no end stamp
leaves the range of `int`.
-/
theorem finishedReports_shortRuns (phase : Fin 3)
    (fits : ∀ run : BandRun, run.Reportable stream → run.next < 2 ^ 31)
    : ReportsShortRuns phase stream (finishedReports 0 none stream phase) := by
  intro run reportable short
  have nonempty := reportable.1.nonempty
  have event := event_of_reportable reportable short
  have tracks := @RunScan.scan_tracks Band _ overLimit (symbols stream)
  have same : (bandRunOf ⟨run.band, run.next - run.first, run.next, false⟩) = run := by
    simp only [bandRunOf, Nat.sub_sub_self nonempty.le]
  have own := @reportOf_eq_report ⟨run.band, run.next - run.first, run.next, false⟩ phase rfl
    (Nat.zero_lt_of_lt nonempty) (Nat.sub_le _ _) (fits run reportable)
  rw [same] at own
  rw [finishedReports, ← own]
  refine count_map_eq_one ?_ event ?_
  · exact (tracks.sorted.filter _).imp fun earlier same => by rw [same] at earlier; omega
  · intro other listed reports
    rw [own] at reports
    have whole : other.capped = false :=
      label_eq_description (congrArg ReportMe.description reports)
    obtain ⟨start, otherRun⟩ := reportable_of_event listed whole
    have otherFits := fits _ otherRun
    have stamps : toInt (stopStamp other) = ((run.next - 1 : Nat) : Int) + 1 :=
      congrArg ReportMe.endtime reports
    simp only at otherFits
    rw [stopStamp, wrapped_of_lt otherFits, toInt, if_pos (by omega)] at stamps
    exact event_unique listed event (by simp only; omega)

end Stream

-----------------------------------------------------------------------------------------
-- Windows whose edges are clear
-----------------------------------------------------------------------------------------

/-- NaN at an edge of a window finds nothing that its tests would have to change: no open
counter at the first sample, and no labelled event of the window before at the last one.
-/
structure Phase.ClearAt (p : Phase) (window : List Float) : Prop where
  first : ∀ v, window.head? = some v → v.isNaN = true → ∀ band, p.vR band = 0
  last : ∀ v, window.getLast? = some v → v.isNaN = true → p.lastWindowRep = false

/-- Every window of the run is clear in the state that the windows before it lead to. -/
def Analyser.ClearRun (a : Analyser) (phase : Fin 3) (windows : List (Fin 3 → List Float))
    : Prop :=
  ∀ before window after, windows = before ++ window :: after →
    ∀ reached reports, processWindows a before = some (reached, reports) →
      (reached.phases phase).ClearAt (window phase)

theorem Analyser.ClearRun.head {a : Analyser} {phase : Fin 3} {window : Fin 3 → List Float}
    {rest : List (Fin 3 → List Float)} (clear : a.ClearRun phase (window :: rest))
    : (a.phases phase).ClearAt (window phase) :=
  clear [] window rest rfl a [] rfl

theorem Analyser.ClearRun.tail {a next : Analyser} {phase : Fin 3}
    {window : Fin 3 → List Float} {rest : List (Fin 3 → List Float)} {reports : List ReportMe}
    (clear : a.ClearRun phase (window :: rest))
    (called : processWindow a window = some (next, reports))
    : next.ClearRun phase rest := by
  intro before later after split reached others ran
  apply clear (window :: before) later after (by rw [split]; rfl) reached (reports ++ others)
  rw [processWindows, called]
  simp only [Option.bind_eq_bind, Option.bind_some, ran, Option.pure_def]

theorem Phase.Between.clearEdges {p : Phase} {run : OpenRun Band} {base : Nat}
    (between : p.Between run base) {window : List Float} (clear : p.ClearAt window)
    : ClearEdges run base window := by
  constructor
  · intro v head isNaN
    cases run with
    | none => rfl
    | some pair =>
        have counted := between.carries.counters pair.1
        have positive := (between.carries.lengths pair.1 pair.2 rfl).2.1
        rw [clear.first v head isNaN pair.1] at counted
        simp only [OpenRun.countOf, if_true] at counted
        omega
  · intro v last isNaN
    by_contra labelled
    have rep := between.lastWindowRep.mpr labelled
    rw [clear.last v last isNaN] at rep
    contradiction

/-- The windows report what one scan of the phase's samples finishes, whatever the other
phases contain, by induction over the windows.
-/
theorem processWindows_clearRun {a : Analyser} {phase : Fin 3} {run : OpenRun Band}
    {base : Nat} (settled : ∀ other, (a.phases other).Settled)
    (between : (a.phases phase).Between run base) (starts : StartsAt (a.kk + 1) a.size base)
    (nonempty : 0 < a.size.toNat) (windows : List (Fin 3 → List Float))
    (whole : ∀ window ∈ windows, ∀ other, (window other).length = a.size.toNat)
    (clear : a.ClearRun phase windows)
    : ∃ final reports,
        processWindows a windows = some (final, reports)
        ∧ reportsOf phase reports
          = finishedReports base run (windows.flatMap (· phase)) phase := by
  induction windows generalizing a run base with
  | nil => exact ⟨a, [], rfl, rfl⟩
  | cons window rest ih =>
      have windowWhole := whole window (by simp)
      have step (other : Fin 3) :=
        @Phase.Settled.step (a.kk + 1) a.size (window other) (a.phases other) (settled other)
          (windowWhole other) nonempty other
      choose kept reports steps next using step
      obtain ⟨kept', own, nextBetween⟩ := between.step starts (windowWhole phase) nonempty
        (between.clearEdges clear.head) phase
      obtain ⟨rfl, same⟩ := Prod.mk.inj (Option.some.inj ((steps phase).symm.trans own))
      have called := processWindow_of_steps steps
      obtain ⟨final, later, ran, reported⟩ :=
        @ih { a with kk := a.kk + 1, phases := kept } _ _ next nextBetween starts.next nonempty
          (fun window member => whole window (List.mem_cons_of_mem _ member))
          (clear.tail called)
      refine ⟨final, reports 0 ++ reports 1 ++ reports 2 ++ later, ?_, ?_⟩
      · rw [processWindows, called]
        simp only [Option.bind_eq_bind, Option.bind_some, ran, Option.pure_def]
      · rw [reportsOf_append, reportsOf_steps steps phase, same, reported, List.flatMap_cons,
          finishedReports_append, windowWhole phase]

/-- In a run whose windows are all clear for a phase, every ended run of the phase with a
label and at most `over` samples is reported exactly once, as long as no end stamp leaves
the range of `int`.
-/
theorem processWindows_reportsShortRuns {m : Nat} {streams : Fin 3 → List Float}
    (lengths : ∀ phase, (streams phase).length = 120 * m) (phase : Fin 3)
    (clear : Analyser.ClearRun {} phase (windowsOf 120 m streams))
    (fits : ∀ run : BandRun, run.Reportable (streams phase) → run.next < 2 ^ 31)
    : ∃ final reports,
        processWindows {} (windowsOf 120 m streams) = some (final, reports)
        ∧ ReportsShortRuns phase (streams phase) (reportsOf phase reports) := by
  obtain ⟨final, reports, ran, reported⟩ :=
    @processWindows_clearRun {} phase none 0 (fun _ => Phase.Settled.initial)
      Phase.Between.initial (StartsAt.first 120) (by decide) (windowsOf 120 m streams)
      (windowsOf_length fun other => (lengths other).ge) clear
  refine ⟨final, reports, ran, ?_⟩
  rw [reported, windowsOf_flatMap, List.take_of_length_le (lengths phase).le]
  exact finishedReports_shortRuns phase fits

-----------------------------------------------------------------------------------------
-- A sag that NaN ends
-----------------------------------------------------------------------------------------

/-- Normal voltage, a sag of four samples, and NaN as the first sample after it. -/
def sagThenNaN (before after : Nat) : List Float :=
  .replicate before 1.0 ++ .replicate 4 0.5 ++ Float.nan :: .replicate after 1.0

theorem sagThenNaN_length (before after : Nat)
    : (sagThenNaN before after).length = before + 4 + (after + 1) := by
  simp only [sagThenNaN, List.length_append, List.length_replicate, List.length_cons]

/-- Without NaN at its edges a window is clear in any state. -/
theorem Phase.clearAt_of_edges (p : Phase) {window : List Float}
    (numbers
      : (window.head?.all (!·.isNaN) && window.getLast?.all (!·.isNaN)) = true)
    : p.ClearAt window := by
  obtain ⟨first, last⟩ := Bool.and_eq_true_iff.mp numbers
  constructor
  · intro v head isNaN
    rw [head, Option.all_some, isNaN] at first
    contradiction
  · intro v tail isNaN
    rw [tail, Option.all_some, isNaN] at last
    contradiction

theorem sagThenNaN_clearRun
    : Analyser.ClearRun {} 0 (windowsOf 120 2 (fun _ => sagThenNaN 56 179)) := by
  intro before window after split reached reports _
  have member : window ∈ windowsOf 120 2 (fun _ => sagThenNaN 56 179) := by
    rw [split]
    simp
  obtain ⟨n, inside, rfl⟩ := List.mem_map.mp member
  apply Phase.clearAt_of_edges
  rcases Nat.le_one_iff_eq_zero_or_eq_one.mp
    (Nat.lt_succ_iff.mp (List.mem_range.mp inside)) with rfl | rfl <;> decide +kernel

/-- A sag inside the first window, ended by NaN, is reported. -/
theorem processWindows_reportsShortRuns_sagThenNaN
    : ∃ final reports,
        processWindows {} (windowsOf 120 2 (fun _ => sagThenNaN 56 179)) = some (final, reports)
        ∧ ReportsShortRuns 0 (sagThenNaN 56 179) (reportsOf 0 reports) :=
  @processWindows_reportsShortRuns 2 (fun _ => sagThenNaN 56 179)
    (fun _ => sagThenNaN_length 56 179) 0 sagThenNaN_clearRun
    (fun run reportable => by
      have ended := reportable.2.1
      rw [sagThenNaN_length] at ended
      omega)

/-- A sag up to the end of the first window is never reported if the second one begins with
NaN: the detector takes the event to go on.
-/
theorem processWindows_sagThenNaN_lost
    : ¬∀ (m : Nat) (streams : Fin 3 → List Float),
        (∀ phase, (streams phase).length = 120 * m) →
        ∀ phase, ∃ final reports,
          processWindows {} (windowsOf 120 m streams) = some (final, reports)
          ∧ ReportsShortRuns phase (streams phase) (reportsOf phase reports) := by
  intro complete
  obtain ⟨final, reports, ran, once⟩ :=
    complete 2 (fun _ => sagThenNaN 116 119) (fun _ => sagThenNaN_length 116 119) 0
  have silent : (processWindows {} (windowsOf 120 2 (fun _ => sagThenNaN 116 119))).map (·.2)
      = some [] := by
    decide +kernel
  have scanned : RunScan.scan overLimit 0 none (symbols (sagThenNaN 116 119))
      = (none, [⟨.sag, 4, 120, false⟩]) := by
    decide +kernel
  have tracks := @RunScan.scan_tracks Band _ overLimit (symbols (sagThenNaN 116 119))
  rw [scanned] at tracks
  obtain ⟨start, isRun, _, counted⟩ := tracks.finished ⟨.sag, 4, 120, false⟩ (by simp) rfl
  have count : 4 = 120 - start := counted (show 120 - start ≤ overLimit by rw [overLimit]; omega)
  have reported := once ⟨.sag, start, 120⟩
    ⟨isRun, by simp only [sagThenNaN_length]; omega, fun _ => count ▸ by decide⟩
    (count ▸ by decide)
  rw [ran] at silent
  obtain rfl : reports = [] := Option.some.inj silent
  simp [reportsOf] at reported

end Sparcs.VoltageAnalytics
