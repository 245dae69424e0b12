import Sparcs.VoltageAnalytics.BandRuns

/-! Runs above the limit of `over` samples. Every event with a label of long runs ends at a
sample of its band, so none ends with the run that it is part of. Samples may be NaN.
-/

namespace Sparcs.VoltageAnalytics

open FuelLoop (Turn)
open RunScan (IsRun)

/-- The run has ended in the stream and is longer than the limit. -/
structure BandRun.Long (stream : List Float) (run : BandRun) : Prop where
  isRun : IsRun (symbols stream) run.band run.first run.next
  ended : run.next < stream.length
  long : overLimit < run.next - run.first

/-- The report that a run above the limit should get. -/
def BandRun.longReport (phase : Fin 3) (run : BandRun) : ReportMe :=
  { run.report phase with description := run.band.overDescription }

/-- The event of a long run ends at a sample of its band. -/
def EndsInside (samples : List Float) (stop : Int) (label : String) : Prop :=
  ∀ band : Band, label = band.overDescription →
    ∃ index v, samples[index]? = some v ∧ band.holds v = true ∧ stop = wrapped index

/-- All events of the phase do so, and its counters are within the limit. -/
structure Phase.OverInside (samples : List Float) (p : Phase) : Prop where
  bounded : ∀ band, p.vR band ≤ overLimit
  aligned : p.te.length = p.an.length
  inside : ∀ entry ∈ p.te.zip p.an, EndsInside samples entry.1 entry.2

theorem EndsInside.extend {samples : List Float} {stop : Int} {label : String}
    (ends : EndsInside samples stop label) (more : List Float)
    : EndsInside (samples ++ more) stop label := by
  intro band same
  obtain ⟨index, v, sample, holds, last⟩ := ends band same
  refine ⟨index, v, ?_, holds, last⟩
  rw [List.getElem?_append_left (List.getElem?_eq_some_iff.mp sample).1]
  exact sample

/-- The labels of short events are other ones. -/
theorem endsInside_description (samples : List Float) (stop : Int) (band : Band)
    : EndsInside samples stop band.description := by
  intro other same
  cases band <;> cases other <;> exact absurd same (by decide)

namespace Phase.OverInside

variable {samples window : List Float} {p : Phase} {kk size : BitVec 32} {base : Nat}

theorem extend (labels : p.OverInside samples) (more : List Float)
    : p.OverInside (samples ++ more) where
  bounded := labels.bounded
  aligned := labels.aligned
  inside := fun entry member => (labels.inside entry member).extend more

theorem pushEvent (labels : p.OverInside samples) (start : Int) {stop : Int} {label : String}
    (ends : EndsInside samples stop label)
    : (p.pushEvent start stop label).OverInside samples where
  bounded := labels.bounded
  aligned := by simp [Phase.pushEvent, labels.aligned]
  inside := by
    intro entry member
    rw [Phase.pushEvent, List.zip_append labels.aligned, List.mem_append] at member
    rcases member with before | new
    · exact labels.inside entry before
    · obtain rfl := List.mem_singleton.mp new
      exact ends

theorem popBack_eq {α : Type} {xs ys : List α} (popped : popBack xs = some ys)
    : ys = xs.take (xs.length - 1) := by
  cases xs with
  | nil => cases popped
  | cons x xs => rw [← Option.some.inj popped, List.dropLast_eq_take]

theorem popEvent (labels : p.OverInside samples) {q : Phase} (popped : p.popEvent = some q)
    : q.OverInside samples := by
  simp only [Phase.popEvent, Option.bind_eq_bind, Option.bind_eq_some_iff, Option.pure_def,
    Option.some.injEq] at popped
  obtain ⟨ts, _, an, shorterAn, te, shorterTe, rfl⟩ := popped
  have teTaken := popBack_eq shorterTe
  have anTaken := popBack_eq shorterAn
  have aligned := labels.aligned
  refine ⟨labels.bounded, ?_, ?_⟩
  · simp only [teTaken, anTaken, List.length_take]
    omega
  · intro entry member
    simp only [teTaken, anTaken, aligned] at member
    rw [List.zip, ← List.take_zipWith] at member
    exact labels.inside entry (List.mem_of_mem_take member)

/-- The inner loop goes above the limit only at a sample of the band. -/
theorem countBand_over {band : Band} (window : List Float) {count jj count' jj' : Nat}
    (within : count ≤ overLimit) (counted : countBand band window count jj = (count', jj'))
    (above : overLimit < count')
    : ∃ k v, jj' = jj + k ∧ window[k]? = some v ∧ band.holds v = true := by
  induction window generalizing count jj with
  | nil =>
      obtain ⟨rfl, _⟩ := Prod.mk.inj counted
      omega
  | cons v rest ih =>
      rw [countBand] at counted
      split_ifs at counted with holds last
      · exact ⟨0, v, (Prod.mk.inj counted).2.symm, rfl, holds⟩
      · obtain ⟨k, w, reached, sample, inBand⟩ := ih (not_lt.mp last) counted
        exact ⟨k + 1, w, by omega, sample, inBand⟩
      · obtain ⟨rfl, _⟩ := Prod.mk.inj counted
        omega

theorem recordRun (labels : p.OverInside samples) {band : Band} {count jj : Nat} {q : Phase}
    (ends : overLimit < count → EndsInside samples (stamp kk size jj) band.overDescription)
    (recorded : p.recordRun kk size band count jj = some q)
    : q.OverInside samples := by
  unfold Phase.recordRun at recorded
  split_ifs at recorded with above labelled continued
  · exact Option.some.inj recorded ▸ labels.pushEvent _ (ends above)
  · obtain ⟨popped, pops, pushed⟩ := Option.bind_eq_some_iff.mp recorded
    exact Option.some.inj pushed ▸
      (labels.popEvent pops).pushEvent _ (endsInside_description samples _ band)
  · exact Option.some.inj recorded ▸
      labels.pushEvent _ (endsInside_description samples _ band)
  · exact Option.some.inj recorded ▸ labels

theorem closeRun (labels : p.OverInside samples) (len : Nat) (band : Band) (count jj : Nat)
    : (p.closeRun len band count jj).OverInside samples := by
  have updated {value : Nat} (fits : value ≤ overLimit) (other : Band)
      : Function.update p.vR band value other ≤ overLimit := by
    by_cases same : other = band
    · rw [same, Function.update_self]
      exact fits
    · rw [Function.update_of_ne same]
      exact labels.bounded other
  unfold Phase.closeRun
  split_ifs with ends
  · simp only [Bool.and_eq_true, decide_eq_true_eq] at ends
    exact ⟨updated ends.2, labels.aligned, labels.inside⟩
  · exact ⟨updated (Nat.zero_le _), labels.aligned, labels.inside⟩

end Phase.OverInside

section Window

variable {samples window : List Float} {kk size : BitVec 32}

/-- The branch of a band keeps the invariant, if the window follows the samples before it. -/
theorem bandBranch_overInside (starts : StartsAt kk size samples.length) (band : Band)
    {cursor : Cursor} (labels : cursor.phase.OverInside (samples ++ window))
    : (bandBranch kk size window band cursor).Spec
        (fun next => next.phase.OverInside (samples ++ window))
        (fun result => ∀ p, result = some p → p.OverInside (samples ++ window)) := by
  unfold bandBranch
  generalize counted : countBand band (window.drop cursor.jj) (cursor.phase.vR band) cursor.jj
    = reached
  obtain ⟨count, jj⟩ := reached
  have ends (above : overLimit < count)
      : EndsInside (samples ++ window) (stamp kk size jj) band.overDescription := by
    obtain ⟨k, v, rfl, sample, holds⟩ :=
      Phase.OverInside.countBand_over _ (labels.bounded band) counted above
    intro other same
    have band : other = band := by
      cases band <;> cases other <;> first | rfl | exact absurd same (by decide)
    rw [List.getElem?_drop] at sample
    refine ⟨samples.length + (cursor.jj + k), v, ?_, band ▸ holds, starts.stamp _⟩
    rw [List.getElem?_append_right (by omega), Nat.add_sub_cancel_left]
    exact sample
  dsimp only
  cases recorded : cursor.phase.recordRun kk size band count jj with
  | none =>
      intro p undefined
      cases undefined
  | some p => exact (labels.recordRun ends recorded).closeRun window.length band count jj

theorem scanTurn_overInside (starts : StartsAt kk size samples.length) {cursor : Cursor}
    (labels : cursor.phase.OverInside (samples ++ window))
    : (scanTurn kk size window cursor).Spec
        (fun next => next.phase.OverInside (samples ++ window))
        (fun result => ∀ p, result = some p → p.OverInside (samples ++ window)) := by
  unfold scanTurn
  cases window[cursor.jj]? with
  | none =>
      intro p same
      exact Option.some.inj same ▸ labels
  | some v =>
      dsimp only
      split_ifs
      · exact bandBranch_overInside starts .sag labels
      · exact bandBranch_overInside starts .interruption labels
      · exact bandBranch_overInside starts .swell labels
      · exact labels

/-- A scanned window keeps the invariant. -/
theorem Phase.OverInside.scan {p q : Phase} (labels : p.OverInside samples)
    (starts : StartsAt kk size samples.length) (scanned : p.scan kk size window = some q)
    : q.OverInside (samples ++ window) := by
  unfold Phase.scan at scanned
  simp only [Option.bind_eq_bind, Option.bind_eq_some_iff, Option.pure_def,
    Option.some.injEq] at scanned
  obtain ⟨first, _, reached, ran, last, _, rfl⟩ := scanned
  have entered : Phase.OverInside (samples ++ window)
      { p with
        vR := fun band => if Band.resets band first then 0 else p.vR band
        report := 0 } := by
    refine ⟨fun band => ?_, (labels.extend window).aligned, (labels.extend window).inside⟩
    dsimp only
    split_ifs
    · exact Nat.zero_le _
    · exact labels.bounded band
  have finished := FuelLoop.run_spec (fun _ labels => scanTurn_overInside starts labels) entered
    (Option.join_eq_some_iff.mp ran) reached rfl
  split_ifs
  · exact ⟨finished.bounded, finished.aligned, finished.inside⟩
  · exact finished

end Window

/-- Entries that two vectors have at the same indices. -/
theorem mem_zip_of_mapM {ι α β : Type} {f : ι → Option α} {g : ι → Option β}
    {indices : List ι} {xs : List α} {ys : List β} (left : indices.mapM f = some xs)
    (right : indices.mapM g = some ys)
    : ∀ entry ∈ xs.zip ys, ∃ index, f index = some entry.1 ∧ g index = some entry.2 := by
  induction indices generalizing xs ys with
  | nil =>
      intro entry member
      rw [List.mapM_nil] at left
      obtain rfl := Option.some.inj left
      cases member
  | cons index rest ih =>
      simp only [List.mapM_cons, Option.bind_eq_bind, Option.bind_eq_some_iff, Option.pure_def,
        Option.some.injEq] at left right
      obtain ⟨x, isX, xs', tailX, rfl⟩ := left
      obtain ⟨y, isY, ys', tailY, rfl⟩ := right
      intro entry member
      rcases List.mem_cons.mp member with rfl | later
      · exact ⟨index, isX, isY⟩
      · exact ih tailX tailY entry later

theorem mem_zip_of_sliceAt? {α β : Type} {xs xs' : List α} {ys ys' : List β} {start : Int}
    {count : Nat} (left : sliceAt? xs start count = some xs')
    (right : sliceAt? ys start count = some ys')
    : ∀ entry ∈ xs'.zip ys', entry ∈ xs.zip ys := by
  intro entry member
  obtain ⟨yy, first, second⟩ := mem_zip_of_mapM left right entry member
  unfold at? at first second
  split_ifs at first second
  exact List.mem_of_getElem? (List.getElem?_zip_eq_some.mpr ⟨first, second⟩)

theorem Phase.mem_zip_of_reported {α β : Type} {p : Phase} {first : Float} {xs xs' : List α}
    {ys ys' : List β} (aligned : xs.length = ys.length)
    (left : p.reported first xs = some xs') (right : p.reported first ys = some ys')
    : ∀ entry ∈ xs'.zip ys', entry ∈ xs.zip ys := by
  unfold Phase.reported at left right
  rw [aligned] at left
  split_ifs at left right <;> exact mem_zip_of_sliceAt? left right

/-- The reports of a window with a label of long runs end at samples of their bands. -/
def ReportsInside (samples : Fin 3 → List Float) (report : ReportMe) : Prop :=
  ∃ stop, report.endtime = toInt stop
    ∧ EndsInside (samples report.phase) stop report.description

theorem Phase.OverInside.printReports {samples : Fin 3 → List Float} {phase : Fin 3}
    {p : Phase} (labels : p.OverInside (samples phase)) {window : List Float}
    {reports : List ReportMe} (printed : p.printReports phase window = some reports)
    : ∀ report ∈ reports, ReportsInside samples report := by
  unfold Phase.printReports at printed
  simp only [Option.bind_eq_bind, Option.bind_eq_some_iff, Option.pure_def,
    Option.some.injEq] at printed
  obtain ⟨first, _, starttime, _, endtime, stops, description, labelled, rfl⟩ := printed
  intro report member
  obtain ⟨entry, listed, rfl⟩ := List.mem_map.mp member
  have entries := Phase.mem_zip_of_reported labels.aligned stops labelled entry.2
    (List.of_mem_zip listed).2
  exact ⟨entry.2.1, rfl, labels.inside entry.2 entries⟩

/-- All phases of the detector. -/
def Analyser.OverInside (samples : Fin 3 → List Float) (a : Analyser) : Prop :=
  ∀ phase, (a.phases phase).OverInside (samples phase)

/-- One window: its reports are as they should be, and so are the events that are kept. -/
theorem Analyser.OverInside.voltageLimitMain {samples : Fin 3 → List Float} {a next : Analyser}
    (labels : a.OverInside samples)
    (starts : ∀ phase, StartsAt a.kk a.size (samples phase).length)
    {window : Fin 3 → List Float} {reports : List ReportMe}
    (called : VoltageAnalytics.voltageLimitMain a window = some (next, reports))
    : next.OverInside (fun phase => samples phase ++ window phase)
      ∧ next.kk = a.kk ∧ next.size = a.size
      ∧ ∀ report ∈ reports,
          ReportsInside (fun phase => samples phase ++ window phase) report := by
  unfold VoltageAnalytics.voltageLimitMain at called
  simp only [Option.bind_eq_bind, Option.bind_eq_some_iff, Option.pure_def] at called
  obtain ⟨scanned0, scan0, scanned1, scan1, scanned2, scan2, called⟩ := called
  have over0 := (labels 0).scan (starts 0) scan0
  have over1 := (labels 1).scan (starts 1) scan1
  have over2 := (labels 2).scan (starts 2) scan2
  have keep {phase : Fin 3} {scanned kept : Phase}
      (labels : scanned.OverInside (samples phase ++ window phase))
      (keeps : scanned.keepWindow (window phase) = some kept)
      : kept.OverInside (samples phase ++ window phase) := by
    unfold Phase.keepWindow at keeps
    simp only [Option.bind_eq_bind, Option.bind_eq_some_iff, Option.pure_def,
      Option.some.injEq] at keeps
    obtain ⟨last, _, rfl⟩ := keeps
    exact ⟨labels.bounded, labels.aligned, labels.inside⟩
  have all {kept0 kept1 kept2 : Phase} (keep0 : scanned0.keepWindow (window 0) = some kept0)
      (keep1 : scanned1.keepWindow (window 1) = some kept1)
      (keep2 : scanned2.keepWindow (window 2) = some kept2)
      : Analyser.OverInside (fun phase => samples phase ++ window phase)
          { a with phases := ![kept0, kept1, kept2] } := by
    intro phase
    match phase with
    | 0 => exact keep over0 keep0
    | 1 => exact keep over1 keep1
    | 2 => exact keep over2 keep2
  split_ifs at called
  · simp only [Option.bind_eq_some_iff, Option.some.injEq, Prod.mk.injEq] at called
    obtain ⟨printed, prints, kept0, keep0, kept1, keep1, kept2, keep2, rfl, rfl⟩ := called
    refine ⟨all keep0 keep1 keep2, rfl, rfl, ?_⟩
    unfold printReports at prints
    simp only [Option.bind_eq_bind, Option.bind_eq_some_iff, Option.pure_def,
      Option.some.injEq] at prints
    obtain ⟨reports0, print0, reports1, print1, reports2, print2, rfl⟩ := prints
    intro report member
    rcases List.mem_append.mp member with first | third
    · rcases List.mem_append.mp first with first | second
      · exact @Phase.OverInside.printReports (fun phase => samples phase ++ window phase) 0
          scanned0 over0 _ _ print0 report first
      · exact @Phase.OverInside.printReports (fun phase => samples phase ++ window phase) 1
          scanned1 over1 _ _ print1 report second
    · exact @Phase.OverInside.printReports (fun phase => samples phase ++ window phase) 2
        scanned2 over2 _ _ print2 report third
  · simp only [Option.bind_eq_some_iff, Option.some.injEq, Prod.mk.injEq] at called
    obtain ⟨_, rfl, kept0, keep0, kept1, keep1, kept2, keep2, rfl, rfl⟩ := called
    refine ⟨all keep0 keep1 keep2, rfl, rfl, ?_⟩
    intro report member
    cases member

theorem ReportsInside.extend {samples : Fin 3 → List Float} {report : ReportMe}
    (inside : ReportsInside samples report) (more : Fin 3 → List Float)
    : ReportsInside (fun phase => samples phase ++ more phase) report := by
  obtain ⟨stop, same, ends⟩ := inside
  exact ⟨stop, same, ends.extend (more report.phase)⟩

/-- Windows in a row, by induction with the samples before them. -/
theorem Analyser.OverInside.processWindows {samples : Fin 3 → List Float} {a final : Analyser}
    (labels : a.OverInside samples)
    (starts : ∀ phase, StartsAt (a.kk + 1) a.size (samples phase).length)
    (windows : List (Fin 3 → List Float))
    (whole : ∀ window ∈ windows, ∀ phase, (window phase).length = a.size.toNat)
    {reports : List ReportMe}
    (ran : VoltageAnalytics.processWindows a windows = some (final, reports))
    : ∀ report ∈ reports,
        ReportsInside (fun phase => samples phase ++ windows.flatMap (· phase)) report := by
  induction windows generalizing a samples reports with
  | nil =>
      obtain ⟨_, rfl⟩ := Prod.mk.inj (Option.some.inj ran)
      intro report member
      cases member
  | cons window rest ih =>
      simp only [VoltageAnalytics.processWindows, Option.bind_eq_bind, Option.bind_eq_some_iff,
        Option.pure_def, Option.some.injEq, Prod.exists, Prod.mk.injEq] at ran
      obtain ⟨next, now, called, last, later, ranLater, rfl, rfl⟩ := ran
      have incremented : ({ a with kk := a.kk + 1 } : Analyser).OverInside samples := labels
      obtain ⟨kept, kk, size, inside⟩ := incremented.voltageLimitMain starts called
      intro report member
      simp only [List.flatMap_cons, ← List.append_assoc]
      rcases List.mem_append.mp member with first | second
      · exact (inside report first).extend fun phase => rest.flatMap (· phase)
      · refine ih kept (fun phase => ?_) (fun window member => ?_) ranLater report second
        · rw [kk, size, List.length_append, whole window List.mem_cons_self phase]
          exact (starts phase).next
        · rw [size]
          exact whole window (List.mem_cons_of_mem _ member)

/-- From the initialisers on, each report with a label of long runs ends at a sample of its
band.
-/
theorem processWindows_overInside {count : Nat} {streams : Fin 3 → List Float}
    (lengths : ∀ phase, 120 * count ≤ (streams phase).length) {final : Analyser}
    {reports : List ReportMe}
    (ran : processWindows {} (windowsOf 120 count streams) = some (final, reports))
    : ∀ report ∈ reports,
        ReportsInside (fun phase => (streams phase).take (120 * count)) report := by
  have initial : Analyser.OverInside (fun _ => []) {} := by
    intro phase
    exact ⟨fun band => Nat.zero_le _, rfl, fun entry member => by cases member⟩
  intro report member
  have inside := initial.processWindows (fun _ => StartsAt.first 120)
    (windowsOf 120 count streams) (windowsOf_length lengths) ran report member
  simp only [List.nil_append, windowsOf_flatMap] at inside
  exact inside

/-- In the window in which a run ends, no report is made with its label and its two stamps. -/
theorem BandRun.Long.longReport_notMem {m : Nat} {streams : Fin 3 → List Float}
    (lengths : ∀ phase, (streams phase).length = 120 * m) {phase : Fin 3} {run : BandRun}
    (long : run.Long (streams phase)) {final : Analyser} {reports : List ReportMe}
    (ran
      : processWindows {} (windowsOf 120 (run.next / 120 + 1) streams) = some (final, reports))
    : run.longReport phase ∉ reports := by
  intro member
  have ended := long.ended
  have nonempty := long.isRun.nonempty
  have windows (phase : Fin 3) : 120 * (run.next / 120 + 1) ≤ (streams phase).length := by
    rw [lengths] at ended ⊢
    omega
  obtain ⟨stop, endtime, ends⟩ := processWindows_overInside windows ran _ member
  obtain ⟨index, v, sample, holds, rfl⟩ := ends run.band rfl
  have within := (List.getElem?_eq_some_iff.mp sample).1
  rw [List.length_take] at within
  -- An index whose stamp is the run's end is the run's end.
  have same : index = run.next := by
    change ((run.next - 1 : Nat) : Int) + 1 = toInt (wrapped index) at endtime
    rw [wrapped, BitVec.toInt_ofNat'] at endtime
    simp only [Int.bmod_def, toInt] at endtime
    split_ifs at endtime <;> omega
  subst same
  refine long.isRun.right ?_
  change ((streams phase).take _)[run.next]? = some v at sample
  rw [List.getElem?_take_of_lt (by omega)] at sample
  rw [symbols, List.getElem?_map, sample, Option.map_some, bandOf_of_holds holds]

/-- The windows make exactly one report of the run as one event. -/
def ReportedOnce (phase : Fin 3) (run : BandRun) (windows : List (Fin 3 → List Float)) : Prop :=
  ∃ final reports,
    processWindows {} windows = some (final, reports)
    ∧ reports.count (run.longReport phase) = 1

/-- No run above the limit is reported as one event when it has ended: the windows up to the
one in which it ends make no report with its label and its two stamps.
-/
theorem processWindows_longRun_not_reportedOnce {m : Nat} {streams : Fin 3 → List Float}
    (lengths : ∀ phase, (streams phase).length = 120 * m) (phase : Fin 3) (run : BandRun)
    (long : run.Long (streams phase))
    : ¬ReportedOnce phase run (windowsOf 120 (run.next / 120 + 1) streams) := by
  intro reported
  obtain ⟨final, reports, ran, once⟩ := reported
  exact long.longReport_notMem lengths ran (List.count_pos_iff.mp (by omega))

/-- A sag from the start of the stream on, with normal voltage after it. -/
def sagThenNormal (during after : Nat) : List Float :=
  .replicate during 0.5 ++ .replicate after 1.0

theorem sagThenNormal_length (during after : Nat)
    : (sagThenNormal during after).length = during + after := by
  rw [sagThenNormal, List.length_append, List.length_replicate, List.length_replicate]

theorem sagThenNormal_long {during after : Nat} (long : overLimit < during) (ends : 0 < after)
    : BandRun.Long (sagThenNormal during after) ⟨.sag, 0, during⟩ := by
  have sag : bandOf 0.5 = some .sag := by decide
  have normal : bandOf 1.0 = none := by decide
  have symbols : symbols (sagThenNormal during after)
      = .replicate during (some .sag) ++ .replicate after none := by
    rw [sagThenNormal, VoltageAnalytics.symbols, List.map_append, List.map_replicate,
      List.map_replicate, sag, normal]
  refine ⟨⟨Nat.zero_lt_of_lt long, ?_, ?_, ?_, ?_⟩, ?_, long⟩
  · rw [symbols, List.length_append, List.length_replicate]
    exact Nat.le_add_right during _
  · intro index _ inside
    rw [symbols, List.getElem?_append_left (by simpa using inside), List.getElem?_replicate,
      if_pos inside]
  · intro index before
    cases before
  · rw [symbols, List.getElem?_append_right (by simp), List.length_replicate, Nat.sub_self,
      List.getElem?_replicate, if_pos ends]
    simp
  · rw [sagThenNormal_length]
    exact Nat.lt_add_of_pos_right ends

theorem processWindows_longRun_not_reportedOnce_sag
    : ¬ReportedOnce 0 ⟨.sag, 0, 7201⟩ (windowsOf 120 61 (fun _ => sagThenNormal 7201 119)) :=
  @processWindows_longRun_not_reportedOnce 61 (fun _ => sagThenNormal 7201 119)
    (fun _ => sagThenNormal_length 7201 119) 0 ⟨.sag, 0, 7201⟩
    (sagThenNormal_long (by decide) (by decide))

/-- The sag of 7201 samples is not reported as one event with its stamps. -/
theorem processWindows_longSag_wrong
    : ¬∀ (m : Nat) (streams : Fin 3 → List Float),
        (∀ phase, (streams phase).length = 120 * m) →
        ∀ (phase : Fin 3) (run : BandRun), run.Long (streams phase) →
        ∀ count ≤ m, run.next < 120 * count →
          ReportedOnce phase run (windowsOf 120 count streams) := by
  intro once
  have lengths (phase : Fin 3) : (sagThenNormal 7201 119).length = 120 * 61 :=
    sagThenNormal_length 7201 119
  have long : BandRun.Long (sagThenNormal 7201 119) ⟨.sag, 0, 7201⟩ :=
    sagThenNormal_long (by decide) (by decide)
  obtain ⟨final, reports, ran, one⟩ := once 61 (fun _ => sagThenNormal 7201 119) lengths 0
    ⟨.sag, 0, 7201⟩ long 61 le_rfl (by decide)
  have unreported := @BandRun.Long.longReport_notMem 61 (fun _ => sagThenNormal 7201 119) lengths 0
    ⟨.sag, 0, 7201⟩ long _ _ ran
  exact unreported (List.count_pos_iff.mp (by omega))

end Sparcs.VoltageAnalytics
