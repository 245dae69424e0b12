import Sparcs.VoltageAnalytics.WindowLoop

/-! One call of the detector: the state between two windows, and the reports of a window. -/

namespace Sparcs.VoltageAnalytics

open RunScan (OpenRun Segment)

/-- How the open run sits in the counters and flags between two windows. After a window
that ends with NaN, the flag of a run without a label may still stand.
-/
structure Phase.Carries (p : Phase) (run : OpenRun Band) : Prop where
  counters : ∀ band, p.vR band = run.countOf band
  flags
    : ∀ band count, run = some (band, count)
        → p.lastSampleV = fun other => decide (other = band)
  lengths
    : ∀ band count, run = some (band, count)
        → p.tmpVR band = count ∧ 0 < count ∧ count ≤ overLimit
  stale
    : run = none → ∀ band, p.lastSampleV band = true
        → 0 < p.tmpVR band ∧ band.labelled (p.tmpVR band) = false

/-- The state of one phase before the sample at stream index `index`. -/
structure Phase.Between (p : Phase) (run : OpenRun Band) (index : Nat) : Prop where
  carries : p.Carries run
  lastWindowRep : p.lastWindowRep = true ↔ openEvents run index ≠ []
  lastWindowVal
    : ∀ band count, run = some (band, count)
        → bandOf p.lastWindowVal = some band
  stacked : ∃ pre, p.Stacked (pre ++ openEvents run index)

/-- The initialisers of the globals are the state before the first sample. -/
theorem Phase.Between.initial : ({} : Phase).Between none 0 :=
  ⟨⟨fun _ => rfl, by simp, by simp, by simp⟩, by simp [openEvents, OpenRun.close, events], by simp,
    ⟨[], rfl, rfl, rfl⟩⟩

/-- Every set flag has the length of its run. -/
theorem Phase.Carries.positive {p : Phase} {run : OpenRun Band} (carries : p.Carries run)
    : ∀ band, p.lastSampleV band = true → 0 < p.tmpVR band := by
  intro band flagged
  cases run with
  | none => exact (carries.stale rfl band flagged).1
  | some pair =>
      rw [carries.flags pair.1 pair.2 rfl, decide_eq_true_iff] at flagged
      obtain ⟨length, positive, _⟩ := carries.lengths pair.1 pair.2 rfl
      rw [flagged, length]
      exact positive

/-- A window ends in a labelled event if a flag stands for a labelled run. -/
theorem Phase.endsLabelled_iff {p : Phase}
    : p.endsLabelled = true
      ↔ ∃ band, p.lastSampleV band = true ∧ band.labelled (p.tmpVR band) = true := by
  simp only [Phase.endsLabelled, Bool.or_eq_true, Bool.and_eq_true]
  constructor
  · intro ends
    rcases ends with (sag | interruption) | swell
    · exact ⟨.sag, sag⟩
    · exact ⟨.interruption, interruption, rfl⟩
    · exact ⟨.swell, swell, rfl⟩
  · intro flagged
    obtain ⟨band, set, labelled⟩ := flagged
    cases band with
    | sag => exact Or.inl (Or.inl ⟨set, labelled⟩)
    | interruption => exact Or.inl (Or.inr set)
    | swell => exact Or.inr set

/-- The window ends in a labelled event exactly if its open run is one. -/
theorem Phase.Carries.endsLabelled {p : Phase} {run : OpenRun Band}
    (carries : p.Carries run) (index : Nat)
    : p.endsLabelled = true ↔ openEvents run index ≠ [] := by
  rw [Phase.endsLabelled_iff]
  cases run with
  | none =>
      simp only [openEvents, OpenRun.close, events, List.filter_nil, ne_eq, not_true,
        iff_false, not_exists, not_and, Bool.not_eq_true]
      exact fun band flagged => (carries.stale rfl band flagged).2
  | some pair =>
      obtain ⟨band, count⟩ := pair
      obtain ⟨length, _, _⟩ := carries.lengths band count rfl
      rw [carries.flags band count rfl, openEvents_some, ← length]
      simp

/-- Without a labelled event that is open, no flag stands for a labelled run. -/
theorem Phase.Carries.unlabelled {p : Phase} {run : OpenRun Band} (carries : p.Carries run)
    {index : Nat} (closed : openEvents run index = [])
    : ∀ band, p.lastSampleV band = true → band.labelled (p.tmpVR band) = false := by
  intro band flagged
  rw [← Bool.not_eq_true]
  intro labelled
  have ends := Phase.endsLabelled_iff.mpr ⟨band, flagged, labelled⟩
  exact (carries.endsLabelled index).mp ends closed

/-- NaN at an edge of the window meets nothing that is still open from the window before:
no run at the first sample, no labelled event at the last one.
-/
structure ClearEdges (start : OpenRun Band) (base : Nat) (window : List Float) : Prop where
  first : ∀ v, window.head? = some v → v.isNaN = true → start = none
  last : ∀ v, window.getLast? = some v → v.isNaN = true → openEvents start base = []

theorem AllNumbers.clearEdges {window : List Float} (numbers : AllNumbers window)
    (start : OpenRun Band) (base : Nat)
    : ClearEdges start base window := by
  constructor
  · intro v head isNaN
    rw [numbers v (List.mem_of_mem_head? head)] at isNaN
    contradiction
  · intro v last isNaN
    rw [numbers v (List.mem_of_mem_getLast? last)] at isNaN
    contradiction

/-- The events of the open run that the window's first sample ends. -/
def endedEvents (run : OpenRun Band) (base : Nat) (first : Float)
    : List (Segment Band) :=
  if run.map Prod.fst = bandOf first then [] else openEvents run base

/-- One phase after the outer loop and the test on the window's last sample. -/
structure Phase.Swept (entry p : Phase) (base : Nat) (window : List Float)
    (start : OpenRun Band) (extra : Nat) (run : OpenRun Band)
    (segments : List (Segment Band)) : Prop where
  scanned : RunScan.scan overLimit base start (symbols window) = (run, segments)
  carries : p.Carries run
  holds : p.Holds extra (events segments ++ openEvents run (base + window.length))
  lastWindowRep : p.lastWindowRep = entry.lastWindowRep
  lastWindowVal : p.lastWindowVal = entry.lastWindowVal

section Window

variable {kk size : BitVec 32} {base : Nat} {window : List Float} {start : OpenRun Band}

/-- The open run after a non-empty window is of the last sample's band. -/
theorem scan_last_kind {init : List Float} {last : Float}
    : (RunScan.scan overLimit base start (symbols (init ++ [last]))).1.map Prod.fst
      = bandOf last := by
  rw [symbols, List.map_append, RunScan.scan_append]
  exact RunScan.step_kind _ _ _

/-- The test on the last sample leaves the flag of the open run. -/
theorem Scanned.sweep {entry p : Phase} {extra : Nat} {run : OpenRun Band}
    {segments : List (Segment Band)} {last : Float}
    (scanned : Scanned base window entry start extra ⟨p, window.length⟩ run segments)
    (kind : run.map Prod.fst = bandOf last)
    (unlabelled
      : last.isNaN = true → ∀ band, entry.lastSampleV band = true
          → band.labelled (entry.tmpVR band) = false)
    : entry.Swept
        (if last > 0.9 && last < 1.1 then { p with lastSampleV := fun _ => false } else p)
        base window start extra run segments := by
  have done : RunScan.scan overLimit base start (symbols window) = (run, segments) := by
    have split := scanned.progress.split
    simpa using split
  have counted := scanned.control.counted rfl
  have flagged := scanned.control.flagged rfl
  obtain ⟨⟨pre, ts, te, an⟩, report⟩ := scanned.holds
  cases run with
  | none =>
      cases number : last.isNaN with
      | false =>
          rw [if_pos ((normal_iff number).mpr kind.symm)]
          exact ⟨done, ⟨counted, by simp, by simp, by simp⟩, ⟨⟨pre, ts, te, an⟩, report⟩,
            scanned.control.lastWindowRep, scanned.control.lastWindowVal⟩
      | true =>
          -- NaN fails the test, so the flags of the window's start stay.
          rw [if_neg (normal_false number)]
          obtain ⟨flags, lengths⟩ := scanned.control.flags (Or.inr rfl)
          refine ⟨done, ⟨counted, by simp, by simp, ?_⟩, ⟨⟨pre, ts, te, an⟩, report⟩,
            scanned.control.lastWindowRep, scanned.control.lastWindowVal⟩
          intro _ band set
          rw [flags] at set
          rw [lengths]
          exact ⟨scanned.stale band set, unlabelled number band set⟩
  | some pair =>
      obtain ⟨band, count⟩ := pair
      have number := bandOf_number kind.symm
      have inBand : bandOf last ≠ none := by rw [← kind]; simp
      rw [if_neg (fun normal => inBand ((normal_iff number).mp normal))]
      obtain ⟨flags, length, positive, short⟩ := flagged band count rfl
      refine ⟨done, ⟨counted, ?_, ?_, by simp⟩, ⟨⟨pre, ts, te, an⟩, report⟩,
        scanned.control.lastWindowRep, scanned.control.lastWindowVal⟩
      · intro other count' opened
        obtain ⟨rfl, rfl⟩ := Prod.mk.inj (Option.some.inj opened)
        exact flags
      · intro other count' opened
        obtain ⟨rfl, rfl⟩ := Prod.mk.inj (Option.some.inj opened)
        exact ⟨length, positive, short⟩

/-- The phase with which the outer loop starts. -/
def Phase.enter (p : Phase) (first : Float) : Phase :=
  { p with vR := fun band => if band.resets first then 0 else p.vR band, report := 0 }

/-- The counters that survive the reset at a window's first sample. NaN resets none, so no
run may be open before it.
-/
theorem Phase.Carries.enter {p : Phase} (carries : p.Carries start) {first : Float}
    (edge : first.isNaN = true → start = none) (band : Band)
    : (p.enter first).vR band
      = if bandOf first = some band then start.countOf band else 0 := by
  change (if band.resets first = true then 0 else p.vR band) = _
  rw [carries.counters]
  cases number : first.isNaN with
  | false =>
      by_cases inside : bandOf first = some band
      · have kept : ¬band.resets first = true := by
          rw [resets_iff number]
          simpa using inside
        rw [if_neg kept, if_pos inside]
      · rw [if_pos ((resets_iff number band).mpr inside), if_neg inside]
  | true =>
      rw [edge number]
      simp [OpenRun.countOf]

theorem Phase.scan_eq {p q : Phase} {first last : Float} (head : window[0]? = some first)
    (tail : window[size.toNat - 1]? = some last)
    (loop
      : FuelLoop.run (scanTurn kk size window) (scanFuel window) ⟨p.enter first, 0⟩
        = some (some q))
    : p.scan kk size window
      = some
          (if last > 0.9 && last < 1.1 then { q with lastSampleV := fun _ => false }
          else q) := by
  rw [Phase.enter] at loop
  simp [Phase.scan, head, tail, loop]

/-- The loop of a window whose first sample does not continue the open run. -/
theorem Phase.Between.loop_fresh (starts : StartsAt kk size base)
    (edges : ClearEdges start base window) {p : Phase} (between : p.Between start base)
    {first : Float} (head : window[0]? = some first)
    (foreign : ∀ band count, start = some (band, count) → bandOf first ≠ some band)
    : ∃ q run segments,
        FuelLoop.run (scanTurn kk size window) (scanFuel window) ⟨p.enter first, 0⟩
          = some (some q)
        ∧ Scanned base window p start (openEvents start base).length ⟨q, window.length⟩
            run segments := by
  obtain ⟨rest, rfl⟩ := List.head?_eq_some_iff.mp (by simpa [List.head?_eq_getElem?] using head)
  have edge := edges.first first rfl
  have scanned
      : Scanned base (first :: rest) p start (openEvents start base).length
          ⟨p.enter first, 0⟩ start [] := by
    refine ⟨between.carries.positive, Progress.initial _ _ _, ?_, ?_,
      ⟨rfl, rfl, ?_, fun _ => ⟨rfl, rfl⟩, by simp, by simp⟩⟩
    · intro band count opened
      simpa using foreign band count opened
    · obtain ⟨pre, ts, te, an⟩ := between.stacked
      exact ⟨⟨pre, ts, te, an⟩, by simp [Phase.enter, events]⟩
    · intro _ band
      rw [between.carries.enter edge]
      split_ifs with inside
      · cases start with
        | none => rfl
        | some pair =>
            have other := foreign pair.1 pair.2 rfl
            rw [inside, Ne, Option.some.injEq] at other
            simp [OpenRun.countOf, Ne.symm other]
      · rfl
  exact scanned.finish starts (by simp [scanFuel]; omega)

/-- The loop of a window whose first sample continues the open run. -/
theorem Phase.Between.loop_continued (starts : StartsAt kk size base)
    {p : Phase} {band : Band} {count : Nat}
    (between : p.Between (some (band, count)) base) {first : Float}
    (head : window[0]? = some first) (continued : bandOf first = some band)
    : ∃ q run segments,
        FuelLoop.run (scanTurn kk size window) (scanFuel window) ⟨p.enter first, 0⟩
          = some (some q)
        ∧ Scanned base window p (some (band, count)) 0 ⟨q, window.length⟩
            run segments := by
  obtain ⟨rest, rfl⟩ := List.head?_eq_some_iff.mp (by simpa [List.head?_eq_getElem?] using head)
  have edge : first.isNaN = true → some (band, count) = none := by
    rw [bandOf_number continued]
    simp
  have next : (symbols (first :: rest)).head? = some (some band) := by simp [continued]
  have flagged : p.lastSampleV band = true := by
    rw [between.carries.flags band count rfl]
    exact decide_eq_true rfl
  obtain ⟨length, positive, short⟩ := between.carries.lengths band count rfl
  obtain ⟨pre, stacked⟩ := between.stacked
  have ready : p.Ready band (p.enter first) := by
    refine ⟨rfl, rfl, ?_, rfl, rfl⟩
    intro other different
    rw [between.carries.enter edge, continued,
      if_neg (fun same => different (Option.some.inj same).symm)]
  have counter : (p.enter first).vR band = count := by
    rw [between.carries.enter edge, if_pos continued]
    simp [OpenRun.countOf]
  obtain ⟨cursor, run, segments, goes, scanned⟩ :=
    Scanned.first starts between.carries.positive ready counter flagged length short rfl
      ⟨stacked.ts, stacked.te, stacked.an⟩ next
  have enough : (first :: rest).length < scanFuel (first :: rest) - 1 := by
    simp only [List.length_cons, scanFuel]
    omega
  obtain ⟨q, run', segments', finished, last⟩ := scanned.finish starts enough
  refine ⟨q, run', segments', ?_, last⟩
  rw [← finished]
  apply FuelLoop.run_again
  rw [scanTurn_branch kk size _ _ (v := first) rfl, continued]
  exact goes

/-- One phase of a window is scanned without an undefined step. -/
theorem Phase.Between.scan (starts : StartsAt kk size base) {p : Phase}
    (between : p.Between start base) (edges : ClearEdges start base window) {first : Float}
    (head : window[0]? = some first) (whole : size.toNat = window.length)
    : ∃ q run segments,
        p.scan kk size window = some q
        ∧ p.Swept q base window start (endedEvents start base first).length run
            segments := by
  have nonempty : window ≠ [] := by
    intro empty
    simp [empty] at head
  have tail : window[size.toNat - 1]? = some (window.getLast nonempty) := by
    rw [whole, ← List.getLast?_eq_getElem?, List.getLast?_eq_some_getLast nonempty]
  have kind (run : OpenRun Band) (segments : List (Segment Band))
      (scanned : RunScan.scan overLimit base start (symbols window) = (run, segments))
      : run.map Prod.fst = bandOf (window.getLast nonempty) := by
    have last := @scan_last_kind base start window.dropLast (window.getLast nonempty)
    rwa [List.dropLast_concat_getLast nonempty, scanned] at last
  have loop
      : ∃ q run segments,
          FuelLoop.run (scanTurn kk size window) (scanFuel window) ⟨p.enter first, 0⟩
            = some (some q)
          ∧ Scanned base window p start (endedEvents start base first).length
              ⟨q, window.length⟩ run segments := by
    by_cases continued : start.map Prod.fst = bandOf first
    · rw [endedEvents, if_pos continued]
      cases start with
      | none =>
          exact between.loop_fresh starts edges head (by simp)
      | some pair =>
          obtain ⟨band, count⟩ := pair
          exact between.loop_continued starts head continued.symm
    · rw [endedEvents, if_neg continued]
      apply between.loop_fresh starts edges head
      intro band count opened same
      exact continued (by rw [opened, same]; rfl)
  obtain ⟨q, run, segments, finished, scanned⟩ := loop
  refine ⟨_, run, segments, Phase.scan_eq head tail finished, scanned.sweep ?_ ?_⟩
  · apply kind run segments
    have split := scanned.progress.split
    simpa using split
  · intro isNaN
    have closed := edges.last _ (List.getLast?_eq_some_getLast nonempty) isNaN
    exact between.carries.unlabelled closed

end Window

/-- A slice that the vector contains is read without leaving it. -/
theorem sliceAt?_middle {α : Type} (pre middle post : List α)
    : sliceAt? (pre ++ middle ++ post) pre.length middle.length = some middle := by
  induction middle generalizing pre with
  | nil => rfl
  | cons x rest ih =>
      have head : at? (pre ++ x :: rest ++ post) (pre.length + (0 : Nat)) = some x := by
        simp [at?]
      have shifted
          : (fun yy : Nat => at? (pre ++ x :: rest ++ post) (pre.length + (yy + 1 : Nat)))
            = fun yy : Nat => at? (pre ++ [x] ++ rest ++ post) ((pre ++ [x]).length + yy) := by
        funext yy
        congr 1
        · simp
        · rw [List.length_append, List.length_singleton]
          omega
      have later := ih (pre ++ [x])
      rw [sliceAt?] at later
      rw [sliceAt?, List.length_cons, List.range_succ_eq_map, List.mapM_cons, head,
        List.mapM_map]
      simp only [Function.comp_def, Nat.succ_eq_add_one]
      rw [shifted, later]
      rfl

/-- The eight comparisons of `printReports` are the branch test of the last sample's band
with the reset test of the same band.
-/
theorem Phase.eventEnded_eq (p : Phase) (first : Float)
    : p.eventEnded first
      = (p.lastWindowRep
          && ((Band.interruption.holds p.lastWindowVal && Band.interruption.resets first)
            || (Band.sag.holds p.lastWindowVal && Band.sag.resets first)
            || (Band.swell.holds p.lastWindowVal && Band.swell.resets first))) := by
  simp only [Phase.eventEnded, Band.holds, Band.resets, ge_iff_le, gt_iff_lt]
  grind

theorem openEvents_length_le_one (run : OpenRun Band) (index : Nat)
    : (openEvents run index).length ≤ 1 := by
  cases run with
  | none => simp [openEvents, OpenRun.close, events]
  | some pair =>
      rw [openEvents_some]
      split_ifs <;> simp

/-- The last window's event is recognised as ended exactly if this window ends it. -/
theorem Phase.Between.eventEnded {p : Phase} {start : OpenRun Band} {base : Nat}
    (between : p.Between start base) {q : Phase}
    (rep : q.lastWindowRep = p.lastWindowRep) (val : q.lastWindowVal = p.lastWindowVal)
    {first : Float} (edge : first.isNaN = true → start = none)
    : q.eventEnded first = true ↔ endedEvents start base first ≠ [] := by
  rw [Phase.eventEnded_eq, rep, val, Bool.and_eq_true, between.lastWindowRep, endedEvents]
  cases start with
  | none => simp [openEvents, OpenRun.close, events]
  | some pair =>
      obtain ⟨band, count⟩ := pair
      have inBand := between.lastWindowVal band count rfl
      have holds (other : Band) : other.holds p.lastWindowVal = decide (other = band) := by
        rw [Bool.eq_iff_iff, holds_iff, inBand, decide_eq_true_iff,
          Option.some.injEq, eq_comm]
      have number : first.isNaN = false := by
        cases isNaN : first.isNaN with
        | false => rfl
        | true => exact absurd (edge isNaN) (by simp)
      have resets := resets_iff number band
      rw [Option.map_some]
      by_cases continued : bandOf first = some band
      · have kept : band.resets first = false := by
          rw [Bool.eq_false_iff, Ne, resets]
          simpa using continued
        cases band <;> simp [holds, kept, continued]
      · have ended := resets.mpr continued
        have other : some band ≠ bandOf first := Ne.symm continued
        cases band <;> simp [holds, ended, other]

theorem endedEvents_length_le_one (start : OpenRun Band) (base : Nat) (first : Float)
    : (endedEvents start base first).length ≤ 1 := by
  rw [endedEvents]
  split_ifs
  · exact Nat.zero_le 1
  · exact openEvents_length_le_one start base

section Reports

variable {base : Nat} {window : List Float} {start run : OpenRun Band} {p q : Phase}
variable {segments : List (Segment Band)} {first : Float}

/-- The four index computations of `printReports` all select the finished events. -/
theorem Phase.Swept.reported {α : Type} (between : p.Between start base)
    (swept
      : p.Swept q base window start (endedEvents start base first).length run segments)
    (edge : first.isNaN = true → start = none) (entry : Segment Band → α)
    (pre : List (Segment Band))
    : q.reported first
        ((pre ++ (events segments ++ openEvents run (base + window.length))).map entry)
      = some ((events segments).map entry) := by
  have count := swept.holds.report
  rw [List.length_append] at count
  have labelled := swept.carries.endsLabelled (base + window.length)
  have ended := between.eventEnded swept.lastWindowRep swept.lastWindowVal edge
  have openLength := openEvents_length_le_one run (base + window.length)
  have endedLength := endedEvents_length_le_one start base first
  rw [← List.length_pos_iff] at labelled ended
  have middle := sliceAt?_middle (pre.map entry) ((events segments).map entry)
    ((openEvents run (base + window.length)).map entry)
  rw [← List.map_append, ← List.map_append, List.append_assoc, List.length_map,
    List.length_map] at middle
  have slice (from_ : Int) (many : Nat) (start : from_ = pre.length)
      (all : many = (events segments).length)
      : sliceAt? ((pre ++ (events segments ++ openEvents run (base + window.length))).map
          entry) from_ many
        = some ((events segments).map entry) := by
    rw [start, all, middle]
  rw [Phase.reported, List.length_map, List.length_append, List.length_append]
  split_ifs with closes ends ends <;>
    simp only [closes, ends, true_iff, false_iff, Bool.false_eq_true] at labelled ended <;>
    apply slice <;>
    omega

/-- The report made for an event. -/
def reportOf (phase : Fin 3) (event : Segment Band) : ReportMe :=
  makereport phase (toInt (startStamp event)) (toInt (stopStamp event)) 10 (label event)

/-- A window's reports are the events that end in it. -/
theorem Phase.Swept.printReports (between : p.Between start base)
    (swept
      : p.Swept q base window start (endedEvents start base first).length run segments)
    (edge : first.isNaN = true → start = none) (head : window[0]? = some first)
    (phase : Fin 3)
    : q.printReports phase window = some ((events segments).map (reportOf phase)) := by
  obtain ⟨pre, stacked⟩ := swept.holds.stacked
  have entries {α : Type} (entry : Segment Band → α) :=
    Phase.Swept.reported between swept edge entry pre
  rw [Phase.printReports, head, stacked.ts, stacked.te, stacked.an]
  simp only [Option.bind_eq_bind, Option.bind_some, entries, List.zip_map', List.map_map]
  rfl

/-- The assignments after the reports restore the state between windows. -/
theorem Phase.Swept.keepWindow
    (swept : p.Swept q base window start extra run segments) (nonempty : window ≠ [])
    : ∃ kept,
        q.keepWindow window = some kept ∧ kept.Between run (base + window.length) := by
  have tail : window[window.length - 1]? = some (window.getLast nonempty) := by
    rw [← List.getLast?_eq_getElem?, List.getLast?_eq_some_getLast nonempty]
  have kind := @scan_last_kind base start window.dropLast (window.getLast nonempty)
  rw [List.dropLast_concat_getLast nonempty, swept.scanned] at kind
  obtain ⟨pre, ts, te, an⟩ := swept.holds.stacked
  rw [← List.append_assoc] at ts te an
  refine ⟨{ q with lastWindowRep := q.endsLabelled,
                   lastWindowVal := window.getLast nonempty },
    by rw [Phase.keepWindow, tail]; rfl,
    ⟨swept.carries.counters, swept.carries.flags, swept.carries.lengths,
      swept.carries.stale⟩,
    swept.carries.endsLabelled _, ?_, pre ++ events segments, ts, te, an⟩
  intro band count opened
  rw [opened] at kind
  exact kind.symm

end Reports

end Sparcs.VoltageAnalytics
