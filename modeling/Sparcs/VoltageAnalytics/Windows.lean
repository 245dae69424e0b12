import Sparcs.VoltageAnalytics.PhaseSteps
import Sparcs.VoltageAnalytics.WindowReports

/-! Calls of the detector one after the other: the windows of a stream together report the
events of one scan over the whole stream.
-/

namespace Sparcs.VoltageAnalytics

open RunScan (OpenRun Segment)

/-- The state of all three phases before the sample at stream index `index`. -/
def Analyser.Between (a : Analyser) (runs : Fin 3 → OpenRun Band) (index : Nat) : Prop :=
  ∀ phase, (a.phases phase).Between (runs phase) index

/-- The reports of the events that the samples from stream index `base` on finish. -/
def finishedReports (base : Nat) (run : OpenRun Band) (samples : List Float)
    (phase : Fin 3) : List ReportMe :=
  (events (RunScan.scan overLimit base run (symbols samples)).2).map (reportOf phase)

/-- Samples in two pieces: the open run is all that crosses the cut. -/
theorem finishedReports_append (base : Nat) (run : OpenRun Band) (first rest : List Float)
    (phase : Fin 3)
    : finishedReports base run (first ++ rest) phase
      = finishedReports base run first phase
        ++ finishedReports (base + first.length)
          (RunScan.scan overLimit base run (symbols first)).1 rest phase := by
  simp only [finishedReports, symbols, List.map_append]
  rw [RunScan.scan_append, events_append, List.map_append, List.length_map]

/-- The reports of one window, phase after phase. -/
def windowReports (base : Nat) (runs : Fin 3 → OpenRun Band) (input : Fin 3 → List Float)
    : List ReportMe :=
  (List.finRange 3).flatMap fun phase =>
    finishedReports base (runs phase) (input phase) phase

theorem windowReports_eq (base : Nat) (runs : Fin 3 → OpenRun Band)
    (input : Fin 3 → List Float)
    : windowReports base runs input
      = finishedReports base (runs 0) (input 0) 0
        ++ finishedReports base (runs 1) (input 1) 1
        ++ finishedReports base (runs 2) (input 2) 2 := by
  simp [windowReports, List.finRange_succ]

/-- One call scans a phase's window and reports the events that end in it. -/
theorem Phase.Between.step {p : Phase} {run : OpenRun Band} {base : Nat}
    (between : p.Between run base) {kk size : BitVec 32} (starts : StartsAt kk size base)
    {input : List Float} (whole : input.length = size.toNat) (nonempty : 0 < size.toNat)
    (edges : ClearEdges run base input) (phase : Fin 3)
    : ∃ kept,
        p.step kk size phase input = some (kept, finishedReports base run input phase)
        ∧ kept.Between (RunScan.scan overLimit base run (symbols input)).1
            (base + size.toNat) := by
  have inputNonempty : input ≠ [] := by
    rw [← List.length_pos_iff, whole]
    exact nonempty
  have head : input[0]? = some (input.head inputNonempty) := by
    rw [← List.head?_eq_getElem?, List.head?_eq_some_head inputNonempty]
  have edge := edges.first _ (List.head?_eq_some_head inputNonempty)
  obtain ⟨q, run', segments, scanned, swept⟩ := between.scan starts edges head whole.symm
  obtain ⟨kept, keeps, next⟩ := swept.keepWindow inputNonempty
  refine ⟨kept, ?_, ?_⟩
  · rw [Phase.step, scanned, finishedReports, swept.scanned]
    simp only [Option.bind_eq_bind, Option.bind_some,
      swept.printReports between edge head phase, keeps, Option.pure_def]
  · rw [swept.scanned, ← whole]
    exact next

/-- One call scans the windows of all phases. -/
theorem Analyser.Between.voltageLimitMain {a : Analyser} {runs : Fin 3 → OpenRun Band}
    {base : Nat} (between : a.Between runs base) (starts : StartsAt a.kk a.size base)
    {input : Fin 3 → List Float} (whole : ∀ phase, (input phase).length = a.size.toNat)
    (nonempty : 0 < a.size.toNat) (numbers : ∀ phase, AllNumbers (input phase))
    : ∃ phases,
        VoltageAnalytics.voltageLimitMain a input
          = some ({ a with phases }, windowReports base runs input)
        ∧ Analyser.Between { a with phases }
            (fun phase => (RunScan.scan overLimit base (runs phase) (symbols (input phase))).1)
            (base + a.size.toNat) := by
  have one (phase : Fin 3) :=
    (between phase).step starts (whole phase) nonempty
      ((numbers phase).clearEdges (runs phase) base) phase
  choose kept steps next using one
  exact ⟨kept, by rw [voltageLimitMain_of_steps steps, windowReports_eq], next⟩

/-- The reports of one phase, in order. -/
def reportsOf (phase : Fin 3) (reports : List ReportMe) : List ReportMe :=
  reports.filter (fun report => report.phase = phase)

@[simp] theorem reportsOf_append (phase : Fin 3) (left right : List ReportMe)
    : reportsOf phase (left ++ right) = reportsOf phase left ++ reportsOf phase right :=
  List.filter_append left right

/-- Reports that all name one phase. -/
theorem reportsOf_named (phase : Fin 3) {other : Fin 3} {reports : List ReportMe}
    (named : ∀ report ∈ reports, report.phase = other)
    : reportsOf phase reports = if other = phase then reports else [] := by
  rw [reportsOf]
  split_ifs with same
  · apply List.filter_eq_self.mpr
    intro report member
    rw [named report member]
    exact decide_eq_true same
  · apply List.filter_eq_nil_iff.mpr
    intro report member
    rw [named report member]
    simpa using same

theorem reportsOf_finishedReports (phase other : Fin 3) (base : Nat)
    (run : OpenRun Band) (samples : List Float)
    : reportsOf phase (finishedReports base run samples other)
      = if other = phase then finishedReports base run samples other else [] := by
  apply reportsOf_named
  intro report member
  obtain ⟨event, _, rfl⟩ := List.mem_map.mp member
  rfl

/-- Each phase's reports of a call depend on that phase's samples alone. -/
theorem reportsOf_window (phase : Fin 3) (base : Nat) (runs : Fin 3 → OpenRun Band)
    (input : Fin 3 → List Float)
    : reportsOf phase (windowReports base runs input)
      = finishedReports base (runs phase) (input phase) phase := by
  simp only [windowReports_eq, reportsOf_append, reportsOf_finishedReports]
  match phase with
  | 0 => simp
  | 1 => simp
  | 2 => simp

/-- The next call's stamps go on where this call's end. -/
theorem StartsAt.next {kk size : BitVec 32} {base : Nat} (starts : StartsAt kk size base)
    : StartsAt (kk + 1) size (base + size.toNat) := by
  rw [StartsAt] at starts ⊢
  rw [BitVec.ofNat_add, BitVec.ofNat_toNat, BitVec.setWidth_eq, ← starts]
  grind

/-- Windows in a row report what one scan over their samples finishes, by induction over
the windows with the open runs that each of them leaves.
-/
theorem Analyser.Between.processWindows {a : Analyser} {runs : Fin 3 → OpenRun Band}
    {base : Nat} (between : a.Between runs base) (starts : StartsAt (a.kk + 1) a.size base)
    (nonempty : 0 < a.size.toNat) (windows : List (Fin 3 → List Float))
    (whole : ∀ window ∈ windows, ∀ phase, (window phase).length = a.size.toNat)
    (numbers : ∀ window ∈ windows, ∀ phase, AllNumbers (window phase))
    : ∃ final reports,
        VoltageAnalytics.processWindows a windows = some (final, reports)
        ∧ ∀ phase,
            reportsOf phase reports
            = finishedReports base (runs phase) (windows.flatMap (· phase)) phase := by
  induction windows generalizing a runs base with
  | nil => exact ⟨a, [], rfl, fun _ => rfl⟩
  | cons window rest ih =>
      have windowWhole := whole window (by simp)
      have incremented : ({ a with kk := a.kk + 1 } : Analyser).Between runs base := between
      obtain ⟨phases, called, next⟩ := incremented.voltageLimitMain starts
        (fun phase => windowWhole phase) nonempty (numbers window (by simp))
      obtain ⟨final, later, ran, reported⟩ := ih next starts.next nonempty
        (fun window member => whole window (by simp [member]))
        (fun window member => numbers window (by simp [member]))
      refine ⟨final, windowReports base runs window ++ later, ?_, ?_⟩
      · rw [VoltageAnalytics.processWindows, processWindow, called]
        simp only [Option.bind_eq_bind, Option.bind_some, ran, Option.pure_def]
      · intro phase
        rw [reportsOf_append, reportsOf_window, reported phase, List.flatMap_cons,
          finishedReports_append, windowWhole phase]

/-- `count` consecutive windows of `size` samples. -/
def windowsOf (size count : Nat) (streams : Fin 3 → List Float)
    : List (Fin 3 → List Float) :=
  (List.range count).map fun n phase => ((streams phase).drop (size * n)).take size

theorem windowsOf_flatMap (size count : Nat) (streams : Fin 3 → List Float)
    (phase : Fin 3)
    : (windowsOf size count streams).flatMap (· phase)
      = (streams phase).take (size * count) := by
  induction count with
  | zero => simp [windowsOf]
  | succ count ih =>
      rw [windowsOf] at ih ⊢
      rw [List.range_succ, List.map_append, List.flatMap_append, ih, Nat.mul_succ,
        List.take_add]
      simp

section Stream

variable {size count : Nat} {streams : Fin 3 → List Float}

theorem windowsOf_length (lengths : ∀ phase, size * count ≤ (streams phase).length)
    : ∀ window ∈ windowsOf size count streams, ∀ phase, (window phase).length = size := by
  intro window member phase
  obtain ⟨n, inside, rfl⟩ := List.mem_map.mp member
  have room : size * n + size ≤ size * count := by
    rw [← Nat.mul_succ]
    exact Nat.mul_le_mul_left size (List.mem_range.mp inside)
  have enough := lengths phase
  rw [List.length_take, List.length_drop]
  omega

theorem windowsOf_numbers (numbers : ∀ phase, AllNumbers (streams phase))
    : ∀ window ∈ windowsOf size count streams, ∀ phase, AllNumbers (window phase) := by
  intro window member phase v sample
  obtain ⟨n, _, rfl⟩ := List.mem_map.mp member
  exact numbers phase v (List.mem_of_mem_drop (List.mem_of_mem_take sample))

end Stream

theorem Analyser.Between.initial (kk size : BitVec 32)
    : ({ kk, size } : Analyser).Between (fun _ => none) 0 :=
  fun _ => Phase.Between.initial

theorem StartsAt.first (size : BitVec 32) : StartsAt 2 size 0 := by
  rw [StartsAt, BitVec.sub_self, BitVec.zero_mul]

/-- All windows of a stream, from the initialisers on: each phase's reports are the events
that one scan of its whole stream finishes.
-/
theorem processWindows_initial {count : Nat} {streams : Fin 3 → List Float}
    (lengths : ∀ phase, (streams phase).length = 120 * count)
    (numbers : ∀ phase, AllNumbers (streams phase))
    : ∃ final reports,
        processWindows {} (windowsOf 120 count streams) = some (final, reports)
        ∧ ∀ phase,
            reportsOf phase reports = finishedReports 0 none (streams phase) phase := by
  obtain ⟨final, reports, ran, reported⟩ :=
    (Analyser.Between.initial 1 120).processWindows (StartsAt.first 120) (by decide)
      (windowsOf 120 count streams) (windowsOf_length fun phase => (lengths phase).ge)
      (windowsOf_numbers numbers)
  refine ⟨final, reports, ran, ?_⟩
  intro phase
  rw [reported phase, windowsOf_flatMap, List.take_of_length_le (lengths phase).le]

/-- The detector reports the same events however the stream is cut: `m` windows of 120
samples and one window with all of them agree on every phase.
-/
theorem processWindows_reports_eq_single {m : Nat} (positive : 1 ≤ m)
    (fits : 120 * m < 2 ^ 31) {streams : Fin 3 → List Float}
    (lengths : ∀ phase, (streams phase).length = 120 * m)
    (numbers : ∀ phase, AllNumbers (streams phase))
    : ∃ final reports single singleReports,
        processWindows {} (windowsOf 120 m streams) = some (final, reports)
        ∧ voltageLimitMain { kk := 2, size := BitVec.ofNat 32 (120 * m) } streams
          = some (single, singleReports)
        ∧ ∀ phase, reportsOf phase reports = reportsOf phase singleReports := by
  obtain ⟨final, reports, ran, reported⟩ := processWindows_initial lengths numbers
  have size : (BitVec.ofNat 32 (120 * m)).toNat = 120 * m := by
    rw [BitVec.toNat_ofNat, Nat.mod_eq_of_lt (by omega)]
  obtain ⟨phases, called, _⟩ :=
    (Analyser.Between.initial 2 (BitVec.ofNat 32 (120 * m))).voltageLimitMain
      (StartsAt.first _) (fun phase => (lengths phase).trans size.symm)
      (by rw [size]; omega) numbers
  refine ⟨final, reports, _, _, ran, called, ?_⟩
  intro phase
  rw [reported phase, reportsOf_window]

/-- A sag over the edge of two windows. -/
theorem processWindows_reports_eq_single_sag
    : ∃ final reports single singleReports,
        processWindows {}
            (windowsOf 120 2
              (fun _ => .replicate 118 1.0 ++ .replicate 4 0.5 ++ .replicate 118 1.0))
          = some (final, reports)
        ∧ voltageLimitMain { kk := 2, size := BitVec.ofNat 32 (120 * 2) }
            (fun _ => .replicate 118 1.0 ++ .replicate 4 0.5 ++ .replicate 118 1.0)
          = some (single, singleReports)
        ∧ ∀ phase, reportsOf phase reports = reportsOf phase singleReports := by
  apply processWindows_reports_eq_single (by decide) (by decide)
  · exact fun _ => rfl
  · intro phase v member
    simp only [List.mem_append, List.mem_replicate] at member
    rcases member with (⟨_, rfl⟩ | ⟨_, rfl⟩) | ⟨_, rfl⟩ <;> decide

end Sparcs.VoltageAnalytics
