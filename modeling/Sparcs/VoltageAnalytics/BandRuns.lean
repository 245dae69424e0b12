import Sparcs.VoltageAnalytics.Windows

/-! The reports of a stream are its ended band runs, as long as their stamps fit an `int`. -/

namespace Sparcs.VoltageAnalytics

open RunScan (OpenRun Segment IsRun Short)

/-- A maximal run of samples of one band: its first sample and the one after its last. -/
structure BandRun where
  band : Band
  first : Nat
  next : Nat
  deriving DecidableEq, Repr

/-- The run has ended in the stream and is long enough for a label. -/
def BandRun.Reportable (stream : List Float) (run : BandRun) : Prop :=
  IsRun (symbols stream) run.band run.first run.next
  ∧ run.next < stream.length
  ∧ (run.band = .sag → 3 < run.next - run.first)

/-- The report that the run should get. -/
def BandRun.report (phase : Fin 3) (run : BandRun) : ReportMe :=
  { phase
    starttime := (run.first : Int) - 1
    endtime := ((run.next - 1 : Nat) : Int) + 1
    severity := 10
    description := run.band.description }

/-- The reports are exactly those of the ended band runs, once each and in stream order. -/
def ReportsBandRuns (phase : Fin 3) (stream : List Float) (reports : List ReportMe)
    : Prop :=
  ∃ runs : List BandRun,
    runs.Pairwise (fun earlier later => earlier.next < later.next)
    ∧ (∀ run, run ∈ runs ↔ run.Reportable stream)
    ∧ reports = runs.map (BandRun.report phase)

/-- The band run of a finished segment that was not cut at the limit. -/
def bandRunOf (segment : Segment Band) : BandRun :=
  ⟨segment.kind, segment.stop - segment.count, segment.stop⟩

theorem wrapped_of_lt {index : Nat} (fits : index < 2 ^ 31) : wrapped index = index := by
  rw [wrapped, BitVec.toInt_ofNat']
  simp only [Int.bmod_def]
  omega

theorem toInt_lt (x : Int) : toInt x < 2 ^ 31 := by
  rw [toInt]
  split_ifs <;> omega

theorem reportOf_eq_report {segment : Segment Band} (phase : Fin 3)
    (whole : segment.capped = false) (positive : 0 < segment.stop)
    (counted : segment.count ≤ segment.stop) (fits : segment.stop < 2 ^ 31)
    : reportOf phase segment = (bandRunOf segment).report phase := by
  have start : toInt (startStamp segment)
      = ((segment.stop - segment.count : Nat) : Int) - 1 := by
    rw [startStamp, wrapped_of_lt fits, toInt, if_pos (by omega)]
    omega
  have stop : toInt (stopStamp segment) = ((segment.stop - 1 : Nat) : Int) + 1 := by
    rw [stopStamp, wrapped_of_lt fits, toInt, if_pos (by omega)]
    omega
  simp [reportOf, makereport, BandRun.report, bandRunOf, start, stop, label, whole]

section Stream

variable {stream : List Float}

theorem labelled_sag (count : Nat) : Band.labelled .sag count = true ↔ 3 < count :=
  decide_eq_true_iff

theorem mem_events_iff (short : Short overLimit (symbols stream)) (segment : Segment Band)
    : segment ∈ events (RunScan.scan overLimit 0 none (symbols stream)).2
      ↔ segment.capped = false
        ∧ segment.count ≤ segment.stop
        ∧ (bandRunOf segment).Reportable stream := by
  have complete := RunScan.scan_complete short
  rw [events, List.mem_filter, complete.exact segment, symbols, List.length_map]
  constructor
  · intro event
    obtain ⟨⟨whole, ended, counted, run⟩, labelled⟩ := event
    refine ⟨whole, counted, run, ended, ?_⟩
    have inside := run.nonempty
    intro sag
    change segment.kind = Band.sag at sag
    rw [hasLabel, whole, sag, Bool.false_or, labelled_sag] at labelled
    change 3 < segment.stop - (segment.stop - segment.count)
    omega
  · intro listed
    obtain ⟨whole, counted, run, ended, long⟩ := listed
    refine ⟨⟨whole, ended, counted, run⟩, ?_⟩
    rw [hasLabel, whole, Bool.false_or]
    cases kind : segment.kind with
    | sag =>
        have enough : 3 < segment.stop - (segment.stop - segment.count) := long kind
        rw [labelled_sag]
        omega
    | interruption => rfl
    | swell => rfl

/-- The finished events, as band runs, are listed completely and in order. -/
theorem bandRuns_exact (short : Short overLimit (symbols stream)) (run : BandRun)
    : run ∈ (events (RunScan.scan overLimit 0 none (symbols stream)).2).map bandRunOf
      ↔ run.Reportable stream := by
  rw [List.mem_map]
  constructor
  · intro listed
    obtain ⟨segment, event, same⟩ := listed
    rw [← same]
    exact ((mem_events_iff short segment).mp event).2.2
  · intro reportable
    have nonempty := reportable.1.nonempty
    have same : bandRunOf ⟨run.band, run.next - run.first, run.next, false⟩ = run := by
      simp only [bandRunOf, Nat.sub_sub_self nonempty.le]
    refine ⟨_, (mem_events_iff short _).mpr ⟨rfl, Nat.sub_le _ _, ?_⟩, same⟩
    rwa [same]

theorem bandRuns_sorted (short : Short overLimit (symbols stream))
    : ((events (RunScan.scan overLimit 0 none (symbols stream)).2).map bandRunOf).Pairwise
        (fun earlier later => earlier.next < later.next) := by
  rw [List.pairwise_map]
  exact (RunScan.scan_complete short).sorted.filter hasLabel

/-- The finished reports are right exactly if no end stamp leaves the range of `int`. -/
theorem finishedReports_exact_iff (phase : Fin 3) (short : Short overLimit (symbols stream))
    : ReportsBandRuns phase stream (finishedReports 0 none stream phase)
      ↔ ∀ run : BandRun, run.Reportable stream → run.next < 2 ^ 31 := by
  constructor
  · intro right run reportable
    obtain ⟨runs, _, exact_, same⟩ := right
    have reported : run.report phase ∈ finishedReports 0 none stream phase := by
      rw [same]
      exact List.mem_map_of_mem ((exact_ run).mpr reportable)
    obtain ⟨segment, _, made⟩ := List.mem_map.mp reported
    have stamps := congrArg ReportMe.endtime made
    have bounded := toInt_lt (stopStamp segment)
    change toInt (stopStamp segment) = ((run.next - 1 : Nat) : Int) + 1 at stamps
    have nonempty := reportable.1.nonempty
    omega
  · intro fits
    refine ⟨_, bandRuns_sorted short, bandRuns_exact short, ?_⟩
    rw [finishedReports, List.map_map]
    apply List.map_congr_left
    intro segment event
    obtain ⟨whole, counted, reportable⟩ := (mem_events_iff short segment).mp event
    have nonempty := reportable.1.nonempty
    exact reportOf_eq_report phase whole (Nat.zero_lt_of_lt nonempty) counted
      (fits _ reportable)

end Stream

/-- On streams without runs above the limit, the reports of a phase are exactly its ended
band runs if and only if none of these ends at a sample index of `2 ^ 31` or more, where
the stamp overflows.
-/
theorem processWindows_reports_bandRuns_iff {m : Nat}
    {streams : Fin 3 → List Float}
    (lengths : ∀ phase, (streams phase).length = 120 * m)
    (numbers : ∀ phase, AllNumbers (streams phase))
    (short : ∀ phase, Short overLimit (symbols (streams phase)))
    : ∃ final reports,
        processWindows {} (windowsOf 120 m streams) = some (final, reports)
        ∧ ∀ phase,
            ReportsBandRuns phase (streams phase) (reportsOf phase reports)
            ↔ ∀ run : BandRun, run.Reportable (streams phase) → run.next < 2 ^ 31 := by
  obtain ⟨final, reports, ran, reported⟩ := processWindows_initial lengths numbers
  refine ⟨final, reports, ran, ?_⟩
  intro phase
  rw [reported phase]
  exact finishedReports_exact_iff phase (short phase)

/-- Normal voltage apart from one sample. -/
def oneSwell (before after : Nat) : List Float :=
  .replicate before 1.0 ++ 1.2 :: .replicate after 1.0

section OneSwell

variable (before after : Nat)

theorem oneSwell_symbols
    : symbols (oneSwell before after)
      = .replicate before none ++ some .swell :: .replicate after none := by
  have normal : bandOf 1.0 = none := by decide
  have swell : bandOf 1.2 = some .swell := by decide
  rw [oneSwell, symbols, List.map_append, List.map_cons, List.map_replicate,
    List.map_replicate, normal, swell]

theorem oneSwell_numbers : AllNumbers (oneSwell before after) := by
  intro v member
  simp only [oneSwell, List.mem_append, List.mem_cons, List.mem_replicate] at member
  rcases member with ⟨_, rfl⟩ | rfl | ⟨_, rfl⟩ <;> decide

/-- Only the swell's sample has a band. -/
theorem oneSwell_band {index : Nat} {band : Band}
    (symbol : (symbols (oneSwell before after))[index]? = some (some band))
    : index = before ∧ band = .swell := by
  rw [oneSwell_symbols, List.getElem?_append, List.length_replicate] at symbol
  split_ifs at symbol with earlier
  · simp [earlier] at symbol
  · rw [List.getElem?_cons] at symbol
    split_ifs at symbol with here
    · exact ⟨by omega, (Option.some.inj (Option.some.inj symbol)).symm⟩
    · simp [List.getElem?_replicate] at symbol

theorem oneSwell_run_iff {band : Band} {start stop : Nat}
    : IsRun (symbols (oneSwell before after)) band start stop
      ↔ band = .swell ∧ start = before ∧ stop = before + 1 := by
  constructor
  · intro run
    have nonempty := run.nonempty
    obtain ⟨rfl, rfl⟩ := oneSwell_band before after (run.inside start (by omega) nonempty)
    refine ⟨rfl, rfl, ?_⟩
    by_contra longer
    have second := run.inside (start + 1) (by omega) (by omega)
    obtain ⟨same, _⟩ := oneSwell_band start after second
    omega
  · intro same
    obtain ⟨rfl, rfl, rfl⟩ := same
    refine ⟨Nat.lt_succ_self _, by simp [oneSwell], ?_, ?_, ?_⟩
    · intro index from_ upto
      obtain rfl : index = start := by omega
      rw [oneSwell_symbols]
      simp
    · intro index next symbol
      obtain ⟨same, _⟩ := oneSwell_band start after symbol
      omega
    · intro symbol
      obtain ⟨same, _⟩ := oneSwell_band start after symbol
      omega

theorem oneSwell_short : Short overLimit (symbols (oneSwell before after)) := by
  intro band start stop run
  obtain ⟨_, rfl, rfl⟩ := (oneSwell_run_iff before after).mp run
  rw [Nat.add_sub_cancel_left]
  decide

/-- A swell at sample index `2 ^ 31 - 1` or later is reported with wrong stamps. -/
theorem oneSwell_not_exact (late : 2 ^ 31 ≤ before + 1) (follows : 0 < after)
    (phase : Fin 3)
    : ¬ReportsBandRuns phase (oneSwell before after)
        (finishedReports 0 none (oneSwell before after) phase) := by
  intro reported
  have fits := (finishedReports_exact_iff phase (oneSwell_short before after)).mp reported
    ⟨.swell, before, before + 1⟩ ⟨(oneSwell_run_iff before after).mpr ⟨rfl, rfl, rfl⟩,
      by simp [oneSwell]; omega, by simp⟩
  exact absurd fits (Nat.not_lt.mpr late)

end OneSwell

/-- A swell of one sample at index 119 is reported in every phase. -/
theorem processWindows_reports_bandRuns_iff_swell
    : ∃ final reports,
        processWindows {} (windowsOf 120 2 (fun _ => oneSwell 119 120))
          = some (final, reports)
        ∧ ∀ phase,
            ReportsBandRuns phase (oneSwell 119 120) (reportsOf phase reports) := by
  obtain ⟨final, reports, ran, reported⟩ :=
    @processWindows_reports_bandRuns_iff 2 (fun _ => oneSwell 119 120)
      (fun _ => rfl) (fun _ => oneSwell_numbers 119 120) (fun _ => oneSwell_short 119 120)
  refine ⟨final, reports, ran, fun phase => (reported phase).mpr fun run reportable => ?_⟩
  have inside : run.next < 240 := reportable.2.1
  omega

/-- A swell of one sample at index `2 ^ 31`, 207 days into the stream: no phase's reports
are its band runs, since the stamp arithmetic has overflowed.
-/
theorem processWindows_late_swell_wrong
    : (oneSwell (2 ^ 31) 111).length = 120 * 17895698
      ∧ AllNumbers (oneSwell (2 ^ 31) 111)
      ∧ Short overLimit (symbols (oneSwell (2 ^ 31) 111))
      ∧ ∃ final reports,
          processWindows {} (windowsOf 120 17895698 (fun _ => oneSwell (2 ^ 31) 111))
            = some (final, reports)
          ∧ ∀ phase,
              ¬ReportsBandRuns phase (oneSwell (2 ^ 31) 111)
                (reportsOf phase reports) := by
  have length : (oneSwell (2 ^ 31) 111).length = 120 * 17895698 := by
    rw [oneSwell, List.length_append, List.length_cons, List.length_replicate,
      List.length_replicate]
    omega
  have numbers := oneSwell_numbers (2 ^ 31) 111
  obtain ⟨final, reports, ran, reported⟩ :=
    @processWindows_initial 17895698 (fun _ => oneSwell (2 ^ 31) 111) (fun _ => length)
      (fun _ => numbers)
  refine ⟨length, numbers, oneSwell_short _ _, final, reports, ran, ?_⟩
  intro phase
  rw [reported phase]
  exact oneSwell_not_exact (2 ^ 31) 111 (by omega) (by omega) phase

end Sparcs.VoltageAnalytics
