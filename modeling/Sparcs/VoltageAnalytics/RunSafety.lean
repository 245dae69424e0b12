import Sparcs.VoltageAnalytics.PhaseSafety

/-! Runs of the detector over any windows: its loops end, its event vectors stay aligned, and
`printReports` reads inside them.
-/

namespace Sparcs.VoltageAnalytics

open FuelLoop (Turn Reaches)

-----------------------------------------------------------------------------------------
-- The loops as they are written
-----------------------------------------------------------------------------------------

/-- One turn of a band's inner loop, with the band's counter and `jj`. The outer `none` is a
sample read behind the window.
-/
def countTurn (band : Band) (input : List Float) : Nat × Nat → Turn (Nat × Nat) (Option (Nat × Nat))
  | (count, jj) =>
      match input[jj]? with
      | none => .leave none
      | some v =>
          if band.holds v then
            if overLimit < count + 1 then .leave (some (count + 1, jj))
            else if input.length ≤ jj + 1 then .leave (some (count + 1, jj + 1))
            else .again (count + 1, jj + 1)
          else .leave (some (count, jj))

/-- The inner loop takes a turn for each sample that is left at most, and `countBand` is its
result, by induction over the turns.
-/
theorem run_countTurn (band : Band) (input : List Float) {fuel count jj : Nat}
    (inside : jj < input.length) (enough : input.length - jj ≤ fuel)
    : FuelLoop.run (countTurn band input) fuel (count, jj)
      = some (some (countBand band (input.drop jj) count jj)) := by
  induction fuel generalizing count jj with
  | zero => omega
  | succ fuel ih =>
      have sample : input[jj]? = some input[jj] := List.getElem?_eq_getElem inside
      rw [List.drop_eq_getElem_cons inside]
      by_cases holds : band.holds input[jj] = true
      · by_cases crosses : overLimit < count + 1
        · apply FuelLoop.run_leave
          simp only [countTurn, countBand, sample, holds, crosses, if_true]
        · by_cases last : input.length ≤ jj + 1
          · have rest : input.drop (jj + 1) = [] := List.drop_eq_nil_of_le last
            apply FuelLoop.run_leave
            simp only [countTurn, countBand, sample, holds, crosses, last, rest, if_true, if_false]
          · have goes : countTurn band input (count, jj) = .again (count + 1, jj + 1) := by
              simp only [countTurn, sample, holds, crosses, last, if_true, if_false]
            rw [FuelLoop.run_again fuel goes, ih (by omega) (by omega)]
            simp only [countBand, holds, crosses, if_true, if_false]
      · apply FuelLoop.run_leave
        simp only [countTurn, countBand, sample, holds, Bool.false_eq_true, if_false]

/-- The loop ends with a result in which no step was undefined. -/
def Ends {σ ρ : Type} (turn : σ → Turn σ (Option ρ)) (state : σ) : Prop :=
  ∃ fuel result, FuelLoop.run turn fuel state = some (some result)

/-- The outer loop of a window ends, and so does every inner loop that it enters. -/
structure Phase.LoopsEnd (kk size : BitVec 32) (window : List Float) (start : Cursor)
    : Prop where
  outer : Ends (scanTurn kk size window) start
  inner
    : ∀ cursor, Reaches (scanTurn kk size window) start cursor →
        cursor.jj < window.length →
          ∀ band, Ends (countTurn band window) (cursor.phase.vR band, cursor.jj)

section Window

variable {kk size : BitVec 32} {window : List Float} {entry p : Phase} {first : Float}

/-- Every turn of the outer loop begins with the invariant of the window. -/
theorem Guarded.reaches (settled : entry.Sound) (head : window.head? = some first)
    {start cursor : Cursor} (guarded : Guarded entry window first start)
    (reached : Reaches (scanTurn kk size window) start cursor)
    : Guarded entry window first cursor := by
  refine reached.invariant guarded ?_
  intro state next holds goes
  by_cases within : state.jj < window.length
  · obtain ⟨next', moves, kept, _⟩ := holds.turn settled head within
    rw [goes] at moves
    rw [Turn.again.inj moves]
    exact kept
  · have outside : window[state.jj]? = none := List.getElem?_eq_none (not_lt.mp within)
    rw [scanTurn, outside] at goes
    cases goes

/-- From a state between two windows the loops end. -/
theorem Phase.Settled.loopsEnd (settled : p.Settled) (head : window.head? = some first)
    : Phase.LoopsEnd kk size window ⟨p.enter first, 0⟩ := by
  have nonempty : 0 < window.length := List.length_pos_of_mem (List.mem_of_head? head)
  constructor
  · obtain ⟨q, ran, _⟩ := @Guarded.finish kk size window p first _ settled.sound head
      (settled.enter nonempty) _ (Nat.lt_succ_self _)
    exact ⟨_, q, ran⟩
  · intro cursor _ inside band
    exact ⟨_, _, run_countTurn band window inside le_rfl⟩

end Window

-----------------------------------------------------------------------------------------
-- Runs
-----------------------------------------------------------------------------------------

/-- The state between two calls, with the size of the windows. -/
structure Analyser.Settled (a : Analyser) : Prop where
  size : a.size = 120
  phases : ∀ phase, (a.phases phase).Settled

theorem Analyser.Settled.initial : ({} : Analyser).Settled :=
  ⟨rfl, fun _ => Phase.Settled.initial⟩

/-- The three vectors of a call hold a window each. -/
def IsWindow (window : Fin 3 → List Float) : Prop :=
  ∀ phase, (window phase).length = 120

theorem IsWindow.head? {window : Fin 3 → List Float} (whole : IsWindow window) (phase : Fin 3)
    : ∃ first, (window phase).head? = some first := by
  have nonempty : window phase ≠ [] := List.ne_nil_of_length_eq_add_one (whole phase)
  exact ⟨_, List.head?_eq_some_head nonempty⟩

theorem Analyser.Settled.processWindow {a : Analyser} (settled : a.Settled)
    {window : Fin 3 → List Float} (whole : IsWindow window)
    : ∃ next reports, processWindow a window = some (next, reports) ∧ next.Settled := by
  have sized : a.size.toNat = 120 := by rw [settled.size]; rfl
  have step (phase : Fin 3) :=
    @Phase.Settled.step (a.kk + 1) a.size (window phase) (a.phases phase) (settled.phases phase)
      ((whole phase).trans sized.symm) (by omega) phase
  choose kept reports steps next using step
  exact ⟨_, _, processWindow_of_steps steps, settled.size, next⟩

/-- A run over windows goes through, by induction over them. -/
theorem Analyser.Settled.processWindows {a : Analyser} (settled : a.Settled)
    {windows : List (Fin 3 → List Float)} (whole : ∀ window ∈ windows, IsWindow window)
    : ∃ final reports, processWindows a windows = some (final, reports) ∧ final.Settled := by
  induction windows generalizing a with
  | nil => exact ⟨a, [], rfl, settled⟩
  | cons window rest ih =>
      obtain ⟨next, reports, called, settled'⟩ := settled.processWindow (whole window (by simp))
      obtain ⟨final, later, ran, settled''⟩ :=
        ih settled' (fun other member => whole other (List.mem_cons_of_mem _ member))
      refine ⟨final, reports ++ later, ?_, settled''⟩
      rw [VoltageAnalytics.processWindows, called]
      simp only [Option.bind_eq_bind, Option.bind_some, ran, Option.pure_def]

/-- After any windows, in any window, the outer loop of each phase and its inner loops end. -/
theorem processWindows_loopsEnd {earlier : List (Fin 3 → List Float)}
    (whole : ∀ window ∈ earlier, IsWindow window)
    : ∃ a reports,
        processWindows {} earlier = some (a, reports)
        ∧ ∀ window, IsWindow window → ∀ phase, ∃ first,
            (window phase).head? = some first
            ∧ Phase.LoopsEnd (a.kk + 1) a.size (window phase)
              ⟨(a.phases phase).enter first, 0⟩ := by
  obtain ⟨a, reports, ran, settled⟩ := Analyser.Settled.initial.processWindows whole
  refine ⟨a, reports, ran, ?_⟩
  intro window isWindow phase
  obtain ⟨first, head⟩ := isWindow.head? phase
  exact ⟨first, head, (settled.phases phase).loopsEnd head⟩

/-- A window of NaN leaves the counters of the sag before it as they were. -/
theorem processWindows_loopsEnd_stale
    : ∃ a reports,
        processWindows {} [fun _ => .replicate 120 0.5, fun _ => .replicate 120 Float.nan]
          = some (a, reports)
        ∧ ∀ window, IsWindow window → ∀ phase, ∃ first,
            (window phase).head? = some first
            ∧ Phase.LoopsEnd (a.kk + 1) a.size (window phase)
              ⟨(a.phases phase).enter first, 0⟩ :=
  processWindows_loopsEnd (by
    intro window member phase
    simp only [List.mem_cons, List.not_mem_nil, or_false] at member
    rcases member with rfl | rfl <;> exact List.length_replicate)

-----------------------------------------------------------------------------------------
-- The event vectors
-----------------------------------------------------------------------------------------

/-- The three event vectors of a phase have equal length. -/
structure Phase.Aligned (p : Phase) : Prop where
  te : p.te.length = p.ts.length
  an : p.an.length = p.ts.length

theorem Phase.Sound.aligned {p : Phase} (sound : p.Sound) : p.Aligned :=
  ⟨sound.te, sound.an⟩

/-- The indices that `printReports` computes for `at`, for a vector with `size` entries. -/
def Phase.reportIndices (p : Phase) (first : Float) (size : Nat) : List Int :=
  if p.endsLabelled then
    if p.eventEnded first then
      (List.range p.report).map fun (yy : Nat) => (size : Int) - p.report + yy - 1
    else
      (List.range (p.report - 1)).map fun (yy : Nat) => (size : Int) - p.report + yy
  else
    if p.eventEnded first then
      (List.range (p.report + 1)).map fun (yy : Nat) => (size : Int) - p.report + yy - 1
    else
      (List.range p.report).map fun (yy : Nat) => (size : Int) - p.report + yy

/-- The entries that are copied are those at the computed indices. -/
theorem Phase.reported_eq {α : Type} (p : Phase) (first : Float) (xs : List α)
    : p.reported first xs = (p.reportIndices first xs.length).mapM (at? xs) := by
  have shift (yy : Nat)
      : (xs.length : Int) - p.report - 1 + yy = (xs.length : Int) - p.report + yy - 1 := by
    omega
  rw [Phase.reported, Phase.reportIndices]
  split_ifs <;> simp only [sliceAt?, List.mapM_map, shift] <;> rfl

theorem length_of_mapM_eq_some {α β : Type} {f : α → Option β} {xs : List α} {ys : List β}
    (mapped : xs.mapM f = some ys)
    : ys.length = xs.length := by
  induction xs generalizing ys with
  | nil =>
      obtain rfl : [] = ys := Option.some.inj mapped
      rfl
  | cons x xs ih =>
      simp only [List.mapM_cons, Option.bind_eq_bind, Option.bind_eq_some_iff, Option.pure_def,
        Option.some.injEq] at mapped
      obtain ⟨_, _, rest, mapped', rfl⟩ := mapped
      rw [List.length_cons, List.length_cons, ih mapped']

/-- As many entries are copied as there are events to report, from each vector. -/
theorem Phase.reported_length {α β : Type} {p : Phase} {first : Float} {xs copied : List α}
    {ys copied' : List β} (copies : p.reported first xs = some copied)
    (copies' : p.reported first ys = some copied')
    : copied'.length = copied.length := by
  rw [Phase.reported_eq] at copies copies'
  rw [length_of_mapM_eq_some copies, length_of_mapM_eq_some copies', Phase.reportIndices,
    Phase.reportIndices]
  split_ifs <;> simp only [List.length_map]

/-- The indices lie inside a vector that holds the events of the window, and one below them
if an event has ended.
-/
theorem Phase.reportIndices_inside {p : Phase} {first : Float} {size : Nat}
    (kept : p.eventEnded first = true → p.report + 1 ≤ size) (pushed : p.report ≤ size)
    : ∀ index ∈ p.reportIndices first size, 0 ≤ index ∧ index < size := by
  intro index member
  rw [Phase.reportIndices] at member
  split_ifs at member with labelled ended ended <;>
    obtain ⟨yy, inRange, rfl⟩ := List.mem_map.mp member <;>
    have below := List.mem_range.mp inRange
  · have := kept ended
    omega
  · omega
  · have := kept ended
    omega
  · omega

/-- What a call does to the vectors of one phase: they stay aligned at every turn of the
loop, no turn pops from an empty vector, and `printReports` reads inside them and inside the
lists that it copies from them.
-/
structure Phase.StacksSafe (kk size : BitVec 32) (phase : Fin 3) (window : List Float)
    (p : Phase) (first : Float) : Prop where
  aligned
    : ∀ cursor, Reaches (scanTurn kk size window) ⟨p.enter first, 0⟩ cursor →
        cursor.phase.Aligned
  pops
    : ∀ cursor, Reaches (scanTurn kk size window) ⟨p.enter first, 0⟩ cursor →
        scanTurn kk size window cursor ≠ .leave none
  indices
    : ∀ scanned, p.scan kk size window = some scanned →
        scanned.Aligned
        ∧ ∀ index ∈ scanned.reportIndices first scanned.ts.length,
            0 ≤ index ∧ index < scanned.ts.length
  prints
    : ∃ scanned starttime endtime description reports,
        p.scan kk size window = some scanned
        ∧ scanned.reported first scanned.ts = some starttime
        ∧ scanned.reported first scanned.te = some endtime
        ∧ scanned.reported first scanned.an = some description
        ∧ endtime.length = starttime.length
        ∧ description.length = starttime.length
        ∧ scanned.printReports phase window = some reports

/-- From a state between two windows a call is safe. -/
theorem Phase.Settled.stacksSafe {kk size : BitVec 32} {window : List Float} {p : Phase}
    {first : Float} (settled : p.Settled) (head : window.head? = some first)
    (whole : window.length = size.toNat) (phase : Fin 3)
    : p.StacksSafe kk size phase window first := by
  have nonempty : 0 < window.length := List.length_pos_of_mem (List.mem_of_head? head)
  have begins := @Settled.enter window p settled first nonempty
  obtain ⟨scanned, scans, guarded⟩ := settled.scan head whole
  constructor
  · intro cursor reached
    exact (begins.reaches settled.sound head reached).sound.aligned
  · intro cursor reached leaves
    have guarded := begins.reaches settled.sound head reached
    by_cases within : cursor.jj < window.length
    · obtain ⟨_, moves, _, _⟩ := guarded.turn settled.sound head within
      rw [leaves] at moves
      cases moves
    · have outside : window[cursor.jj]? = none := List.getElem?_eq_none (not_lt.mp within)
      rw [scanTurn, outside] at leaves
      cases leaves
  · intro scanned' scans'
    obtain rfl : scanned = scanned' := Option.some.inj (scans.symm.trans scans')
    exact ⟨guarded.sound.aligned,
      Phase.reportIndices_inside (guarded.ended_below settled) guarded.report_le⟩
  · obtain ⟨reports, prints⟩ := guarded.printReports settled head phase
    have printed := prints
    rw [List.head?_eq_getElem?] at head
    simp only [Phase.printReports, head, Option.bind_eq_bind, Option.bind_some,
      Option.bind_eq_some_iff] at printed
    obtain ⟨starttime, starts, endtime, ends, description, describes, _⟩ := printed
    exact ⟨scanned, starttime, endtime, description, reports, scans, starts, ends, describes,
      Phase.reported_length starts ends, Phase.reported_length starts describes, prints⟩

/-- A run over any windows goes through with aligned vectors, and the call for the next
window is safe for each phase.
-/
theorem processWindows_stacksSafe {earlier : List (Fin 3 → List Float)}
    (whole : ∀ window ∈ earlier, IsWindow window)
    : ∃ a reports,
        processWindows {} earlier = some (a, reports)
        ∧ (∀ phase, (a.phases phase).Aligned)
        ∧ ∀ window, IsWindow window → ∀ phase, ∃ first,
            (window phase).head? = some first
            ∧ (a.phases phase).StacksSafe (a.kk + 1) a.size phase (window phase) first := by
  obtain ⟨a, reports, ran, settled⟩ := Analyser.Settled.initial.processWindows whole
  refine ⟨a, reports, ran, fun phase => (settled.phases phase).sound.aligned, ?_⟩
  intro window isWindow phase
  obtain ⟨first, head⟩ := isWindow.head? phase
  refine ⟨first, head, (settled.phases phase).stacksSafe head ?_ phase⟩
  rw [isWindow phase, settled.size]
  rfl

/-- A sag at the end of one window, and NaN in the next one. -/
theorem processWindows_stacksSafe_stale
    : ∃ a reports,
        processWindows {} [fun _ => .replicate 120 0.5, fun _ => .replicate 120 Float.nan]
          = some (a, reports)
        ∧ (∀ phase, (a.phases phase).Aligned)
        ∧ ∀ window, IsWindow window → ∀ phase, ∃ first,
            (window phase).head? = some first
            ∧ (a.phases phase).StacksSafe (a.kk + 1) a.size phase (window phase) first :=
  processWindows_stacksSafe (by
    intro window member phase
    simp only [List.mem_cons, List.not_mem_nil, or_false] at member
    rcases member with rfl | rfl <;> exact List.length_replicate)

end Sparcs.VoltageAnalytics
