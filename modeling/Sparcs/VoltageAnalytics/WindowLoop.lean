import Sparcs.VoltageAnalytics.WindowScan

/-! The outer loop of one window: an invariant of its cursor, kept by every turn. -/

namespace Sparcs.VoltageAnalytics

open RunScan (OpenRun Segment)
open FuelLoop (Turn)

-----------------------------------------------------------------------------------------
-- The parts of the invariant
-----------------------------------------------------------------------------------------

/-- The samples before `jj` are scanned: `run` is open there and `segments` are finished. -/
structure Progress (base : Nat) (window : List Float) (start : OpenRun Band) (jj : Nat)
    (run : OpenRun Band) (segments : List (Segment Band)) : Prop where
  inside : jj ≤ window.length
  split
    : RunScan.scan overLimit base start (symbols window)
      = ((RunScan.scan overLimit (base + jj) run (symbols (window.drop jj))).1,
          segments ++ (RunScan.scan overLimit (base + jj) run (symbols (window.drop jj))).2)

/-- The latest events of the vectors. `extra` of them were pushed in an earlier window. -/
structure Phase.Holds (p : Phase) (extra : Nat) (latest : List (Segment Band)) : Prop where
  stacked : ∃ pre, p.Stacked (pre ++ latest)
  report : p.report + extra = latest.length

/-- The flags of a phase with their lengths are still those of the window's start. -/
structure Phase.KeepsFlags (entry p : Phase) : Prop where
  lastSampleV : p.lastSampleV = entry.lastSampleV
  tmpVR : p.tmpVR = entry.tmpVR

/-- The counters and flags at `jj`. Inside the window all counters are zero. The flags are
those of the last window until a run reaches the window's end.
-/
structure Phase.Control (entry : Phase) (len jj : Nat) (run : OpenRun Band)
    (p : Phase) : Prop where
  lastWindowRep : p.lastWindowRep = entry.lastWindowRep
  lastWindowVal : p.lastWindowVal = entry.lastWindowVal
  counters : jj < len → ∀ band, p.vR band = 0
  flags : jj < len ∨ run = none → entry.KeepsFlags p
  counted : jj = len → ∀ band, p.vR band = run.countOf band
  flagged
    : jj = len → ∀ band count, run = some (band, count)
        → p.lastSampleV = (fun other => decide (other = band))
          ∧ p.tmpVR band = count
          ∧ 0 < count
          ∧ count ≤ overLimit

structure Scanned (base : Nat) (window : List Float) (entry : Phase)
    (start : OpenRun Band) (extra : Nat) (cursor : Cursor) (run : OpenRun Band)
    (segments : List (Segment Band)) : Prop where
  stale : ∀ band, entry.lastSampleV band = true → 0 < entry.tmpVR band
  progress : Progress base window start cursor.jj run segments
  foreign
    : ∀ band count, run = some (band, count)
        → (symbols (window.drop cursor.jj)).head? ≠ some (some band)
  holds : cursor.phase.Holds extra (events segments ++ openEvents run (base + cursor.jj))
  control : entry.Control window.length cursor.jj run cursor.phase

-----------------------------------------------------------------------------------------
-- How the parts advance
-----------------------------------------------------------------------------------------

theorem Progress.initial (base : Nat) (window : List Float) (start : OpenRun Band)
    : Progress base window start 0 start [] :=
  ⟨Nat.zero_le _, rfl⟩

section Advance

variable {base : Nat} {window : List Float} {start run : OpenRun Band} {jj : Nat}
variable {segments : List (Segment Band)}

theorem Progress.advance (progress : Progress base window start jj run segments)
    {jj' : Nat} {run' : OpenRun Band} {more : List (Segment Band)}
    (inside : jj' ≤ window.length)
    (scanned
      : RunScan.scan overLimit (base + jj) run (symbols (window.drop jj))
        = ((RunScan.scan overLimit (base + jj') run' (symbols (window.drop jj'))).1,
            more ++ (RunScan.scan overLimit (base + jj') run' (symbols (window.drop jj'))).2))
    : Progress base window start jj' run' (segments ++ more) :=
  ⟨inside, by rw [progress.split, scanned, List.append_assoc]⟩

/-- What is left of the window behind a known front of it. -/
theorem symbols_drop {front rest : List (Option Band)}
    (split : symbols (window.drop jj) = front ++ rest) {count : Nat}
    (length : front.length = count)
    : symbols (window.drop (jj + count)) = rest := by
  rw [← List.drop_drop]
  calc symbols ((window.drop jj).drop count)
      = (symbols (window.drop jj)).drop count := List.map_drop
    _ = rest := by rw [split, ← length, List.drop_left]

/-- The front of what is left does not reach past the window. -/
theorem jj_add_le {front rest : List (Option Band)}
    (split : symbols (window.drop jj) = front ++ rest) (inside : jj ≤ window.length)
    : jj + front.length + rest.length = window.length := by
  have lengths := congrArg List.length split
  simp only [List.length_map, List.length_drop, List.length_append] at lengths
  omega

theorem Phase.Holds.push {p : Phase} {extra : Nat} {latest : List (Segment Band)}
    (holds : p.Holds extra latest) (new : List (Segment Band))
    : (p.pushAll new).Holds extra (latest ++ new) := by
  obtain ⟨⟨pre, stacked⟩, report⟩ := holds
  refine ⟨⟨pre, ?_⟩, ?_⟩
  · rw [← List.append_assoc]
    exact stacked.pushAll new
  · rw [Phase.pushAll_report, List.length_append]
    omega

/-- The vectors do not depend on how a branch closes its run. -/
theorem Phase.Holds.closeRun {p : Phase} {extra : Nat} {latest : List (Segment Band)}
    (holds : p.Holds extra latest) (len : Nat) (band : Band) (count jj : Nat)
    : (p.closeRun len band count jj).Holds extra latest := by
  obtain ⟨⟨pre, ts, te, an⟩, report⟩ := holds
  rw [Phase.closeRun]
  split_ifs
  · exact ⟨⟨pre, ts, te, an⟩, report⟩
  · exact ⟨⟨pre, ts, te, an⟩, report⟩

end Advance

/-- What a band's branch needs of the counters and flags before it. -/
structure Phase.Ready (entry : Phase) (band : Band) (p : Phase) : Prop where
  lastWindowRep : p.lastWindowRep = entry.lastWindowRep
  lastWindowVal : p.lastWindowVal = entry.lastWindowVal
  counters : ∀ other, other ≠ band → p.vR other = 0
  flags : entry.KeepsFlags p

theorem Phase.Ready.sameControl {entry p q : Phase} {band : Band}
    (ready : entry.Ready band p) (same : p.SameControl q)
    : entry.Ready band q := by
  obtain ⟨vR, tmpVR, lastSampleV, lastWindowRep, lastWindowVal⟩ := same
  refine ⟨lastWindowRep.trans ready.lastWindowRep, lastWindowVal.trans ready.lastWindowVal,
    ?_, lastSampleV.trans ready.flags.lastSampleV, tmpVR.trans ready.flags.tmpVR⟩
  rw [vR]
  exact ready.counters

/-- A run within the limit leaves the branch counted at the window's end, else closed. -/
theorem Phase.Ready.closeRun_short {entry p : Phase} {band : Band}
    (ready : entry.Ready band p) {len count jj : Nat} (positive : 0 < count)
    (short : count ≤ overLimit)
    : entry.Control len jj (some (band, count)) (p.closeRun len band count jj) := by
  by_cases atEnd : jj = len
  · subst atEnd
    rw [closeRun_end positive short]
    refine ⟨ready.lastWindowRep, ready.lastWindowVal, by omega, by simp, ?_, ?_⟩
    · intro _ other
      by_cases same : other = band
      · subst same
        simp [OpenRun.countOf]
      · simp [OpenRun.countOf, Function.update_of_ne same, ready.counters other same,
          Ne.symm same]
    · intro _ other count' opened
      obtain ⟨rfl, rfl⟩ := Prod.mk.inj (Option.some.inj opened)
      exact ⟨rfl, by simp, positive, short⟩
  · rw [closeRun_restart (Or.inl atEnd)]
    refine ⟨ready.lastWindowRep, ready.lastWindowVal, ?_,
      fun _ => ⟨ready.flags.lastSampleV, ready.flags.tmpVR⟩, by omega, by omega⟩
    intro _ other
    by_cases same : other = band
    · simp [same]
    · simp [Function.update_of_ne same, ready.counters other same]

/-- A run above the limit leaves all counters at zero. -/
theorem Phase.Ready.closeRun_long {entry p : Phase} {band : Band}
    (ready : entry.Ready band p) {len count jj : Nat} (long : overLimit < count)
    (inside : jj < len)
    : entry.Control len jj none (p.closeRun len band count jj) := by
  rw [closeRun_restart (Or.inr long)]
  refine ⟨ready.lastWindowRep, ready.lastWindowVal, ?_,
    fun _ => ⟨ready.flags.lastSampleV, ready.flags.tmpVR⟩, by omega, by omega⟩
  intro _ other
  by_cases same : other = band
  · simp [same]
  · simp [Function.update_of_ne same, ready.counters other same]

-----------------------------------------------------------------------------------------
-- The turns of the outer loop
-----------------------------------------------------------------------------------------

section Turns

variable {kk size : BitVec 32} {base : Nat} {window : List Float} {entry : Phase}
variable {start : OpenRun Band} {extra : Nat}

/-- A sample of no band closes the open run. -/
theorem Scanned.skip {cursor : Cursor} {run : OpenRun Band}
    {segments : List (Segment Band)}
    (scanned : Scanned base window entry start extra cursor run segments)
    {rest : List (Option Band)}
    (next : symbols (window.drop cursor.jj) = none :: rest)
    : Scanned base window entry start extra { cursor with jj := cursor.jj + 1 } none
        (segments ++ run.close (base + cursor.jj)) := by
  have split : symbols (window.drop cursor.jj) = [none] ++ rest := next
  have inside := jj_add_le split scanned.progress.inside
  have remaining := symbols_drop split List.length_singleton
  rw [List.length_singleton] at inside
  refine ⟨scanned.stale, ?_, by simp, ?_, ?_⟩
  · apply scanned.progress.advance (by simp only; omega)
    rw [next, RunScan.scan_cons, RunScan.step_close (base + cursor.jj), remaining]
    · rfl
    · intro band count opened continued
      exact scanned.foreign band count opened (by rw [next, continued]; rfl)
  · have holds := scanned.holds
    rw [events_append]
    simpa [openEvents, OpenRun.close, events] using holds
  · have zero := scanned.control.counters (by omega)
    refine ⟨scanned.control.lastWindowRep, scanned.control.lastWindowVal, fun _ => zero,
      fun _ => scanned.control.flags (Or.inl (by omega)), fun _ => zero, ?_⟩
    intro _ band count opened
    exact absurd opened (by simp)

/-- A band's branch on a run that the open one does not continue into. -/
theorem Scanned.branch (starts : StartsAt kk size base)
    {cursor : Cursor} {run : OpenRun Band} {segments : List (Segment Band)}
    (scanned : Scanned base window entry start extra cursor run segments) {band : Band}
    (next : (symbols (window.drop cursor.jj)).head? = some (some band))
    : ∃ cursor' run' segments',
        bandBranch kk size window band cursor = .again cursor'
        ∧ Scanned base window entry start extra cursor' run' segments'
        ∧ cursor.jj < cursor'.jj := by
  have within : cursor.jj < window.length := by
    by_contra outside
    rw [List.drop_eq_nil_of_le (by omega)] at next
    simp at next
  have other : ∀ count, run ≠ some (band, count) :=
    fun count opened => scanned.foreign band count opened next
  have zero := scanned.control.counters within
  have ready : entry.Ready band cursor.phase :=
    ⟨scanned.control.lastWindowRep, scanned.control.lastWindowVal,
      fun other _ => zero other, scanned.control.flags (Or.inl within)⟩
  cases countBand_counted band (window.drop cursor.jj) 0 cursor.jj (Nat.zero_le _) with
  | stopped more rest result short split foreign =>
      obtain ⟨more, rfl⟩ : ∃ less, more = less + 1 := by
        cases more with
        | zero =>
            rw [split] at next
            exact absurd next foreign
        | succ less => exact ⟨less, rfl⟩
      rw [Nat.zero_add] at result short
      have inside := jj_add_le split scanned.progress.inside
      have remaining := symbols_drop split (List.length_replicate ..)
      rw [List.length_replicate] at inside
      have recorded := recordRun_fresh starts band (more + 1) (cursor.jj + (more + 1))
        cursor.phase short (by
          intro flagged _
          rw [ready.flags.lastSampleV] at flagged
          have positive := scanned.stale band flagged
          rw [ready.flags.tmpVR]
          omega)
      refine ⟨_, some (band, more + 1), segments ++ run.close (base + cursor.jj),
        bandBranch_eq (by rw [zero band]; exact result) recorded, ?_, by simp⟩
      refine ⟨scanned.stale, ?_, ?_, ?_, ?_⟩
      · apply scanned.progress.advance (by simp only; omega)
        rw [split, RunScan.scan_append, RunScan.scan_fresh _ band more other short,
          List.length_replicate, remaining, Nat.add_assoc]
      · intro band' count' opened
        obtain ⟨rfl, _⟩ := Prod.mk.inj (Option.some.inj opened)
        rw [remaining]
        exact foreign
      · rw [events_append, Nat.add_comm]
        exact (scanned.holds.push _).closeRun window.length band _ _
      · exact (ready.sameControl (cursor.phase.pushAll_sameControl _)).closeRun_short
          (Nat.succ_pos more) short
  | crossed more rest result limit split =>
      obtain rfl : more = overLimit := by omega
      have inside := jj_add_le split scanned.progress.inside
      rw [List.length_replicate] at inside
      have split' := split
      rw [List.replicate_succ', List.append_assoc] at split'
      have remaining := symbols_drop split' (List.length_replicate ..)
      have recorded := recordRun_over starts band (overLimit + 1) (cursor.jj + overLimit)
        cursor.phase (Nat.lt_succ_self _)
      refine ⟨_, none,
        segments
          ++ (run.close (base + cursor.jj)
            ++ [⟨band, overLimit + 1, base + (cursor.jj + overLimit), true⟩]),
        bandBranch_eq (by rw [zero band]; exact result) recorded, ?_, by simp [overLimit]⟩
      refine ⟨scanned.stale, ?_, by simp, ?_, ?_⟩
      · apply scanned.progress.advance (by simp only; omega)
        rw [split, RunScan.scan_fresh_cross _ band other (by decide), remaining,
          Nat.add_assoc]
        simp
      · have pushed := scanned.holds.push
          [⟨band, overLimit + 1, base + (cursor.jj + overLimit), true⟩]
        simpa [openEvents, OpenRun.close, events, hasLabel]
          using pushed.closeRun window.length band _ _
      · exact (ready.sameControl (cursor.phase.pushAll_sameControl _)).closeRun_long
          (Nat.lt_succ_self _) (by simp only; omega)

/-- The first branch of a window whose first sample continues the open run: its event
replaces the one that the last window pushed for the run.
-/
theorem Scanned.first (starts : StartsAt kk size base)
    (stale : ∀ band, entry.lastSampleV band = true → 0 < entry.tmpVR band)
    {p : Phase} {band : Band} {count : Nat} (ready : entry.Ready band p)
    (counter : p.vR band = count) (flagged : p.lastSampleV band = true)
    (length : p.tmpVR band = count) (within : count ≤ overLimit) (report : p.report = 0)
    {pre : List (Segment Band)}
    (stacked : p.Stacked (pre ++ openEvents (some (band, count)) base))
    (next : (symbols window).head? = some (some band))
    : ∃ cursor' run' segments',
        bandBranch kk size window band ⟨p, 0⟩ = .again cursor'
        ∧ Scanned base window entry (some (band, count)) 0 cursor' run' segments' := by
  have initial := Progress.initial base window (some (band, count))
  cases countBand_counted band (window.drop 0) count 0 within with
  | stopped more rest result short split foreign =>
      have inside := jj_add_le split (Nat.zero_le _)
      have remaining := symbols_drop split (List.length_replicate ..)
      rw [List.length_replicate] at inside
      rw [Nat.zero_add] at result remaining
      have nonempty : 0 < more := by
        cases more with
        | zero =>
            rw [List.drop_zero] at split
            rw [split] at next
            exact absurd next foreign
        | succ less => exact Nat.succ_pos less
      obtain ⟨q, recorded, below, noReport, same⟩ :=
        recordRun_merge starts band count more p short flagged length stacked
      refine ⟨_, some (band, count + more), [],
        bandBranch_eq (by rw [counter]; exact result) recorded, ?_⟩
      refine ⟨stale, ?_, ?_, ?_, ?_⟩
      · apply initial.advance (by simp only; omega)
        rw [split, RunScan.scan_append, RunScan.scan_replicate _ band count more short,
          List.length_replicate, remaining, Nat.add_zero]
      · intro band' count' opened
        obtain ⟨rfl, _⟩ := Prod.mk.inj (Option.some.inj opened)
        rw [remaining]
        exact foreign
      · have empty : q.Holds 0 [] :=
          ⟨⟨pre, by rwa [List.append_nil]⟩, by rw [noReport, report]; rfl⟩
        exact (empty.push _).closeRun window.length band _ _
      · have popped := ready.sameControl same
        exact (popped.sameControl (q.pushAll_sameControl _)).closeRun_short (by omega) short
  | crossed more rest result limit split =>
      have inside := jj_add_le split (Nat.zero_le _)
      rw [List.length_replicate] at inside
      have split' := split
      rw [List.replicate_succ', List.append_assoc] at split'
      have remaining := symbols_drop split' (List.length_replicate ..)
      rw [Nat.zero_add] at result remaining
      have recorded := recordRun_over starts band (overLimit + 1) more p (Nat.lt_succ_self _)
      refine ⟨_, none, [⟨band, overLimit + 1, base + more, true⟩],
        bandBranch_eq (by rw [counter]; exact result) recorded, ?_⟩
      refine ⟨stale, ?_, by simp, ?_, ?_⟩
      · apply initial.advance (by simp only; omega)
        rw [split, RunScan.scan_cross _ band count more limit, remaining, Nat.add_zero]
        simp
      · have empty : p.Holds 0 [] :=
          ⟨⟨pre ++ openEvents (some (band, count)) base, by rwa [List.append_nil]⟩,
            by rw [report]; rfl⟩
        have pushed := empty.push [⟨band, overLimit + 1, base + more, true⟩]
        simpa [openEvents, OpenRun.close, events, hasLabel]
          using pushed.closeRun window.length band _ _
      · exact (ready.sameControl (p.pushAll_sameControl _)).closeRun_long
          (Nat.lt_succ_self _) (by simp only; omega)

/-- A turn inside the window keeps the invariant and moves on. -/
theorem Scanned.turn (starts : StartsAt kk size base)
    {cursor : Cursor} {run : OpenRun Band} {segments : List (Segment Band)}
    (scanned : Scanned base window entry start extra cursor run segments)
    (within : cursor.jj < window.length)
    : ∃ cursor' run' segments',
        scanTurn kk size window cursor = .again cursor'
        ∧ Scanned base window entry start extra cursor' run' segments'
        ∧ cursor.jj < cursor'.jj := by
  have sample : window[cursor.jj]? = some window[cursor.jj] := by simp [within]
  have next : symbols (window.drop cursor.jj)
      = bandOf window[cursor.jj] :: symbols (window.drop (cursor.jj + 1)) := by
    rw [List.drop_eq_getElem_cons within]
    rfl
  rw [scanTurn_branch kk size window cursor sample]
  cases symbol : bandOf window[cursor.jj] with
  | none =>
      rw [symbol] at next
      exact ⟨_, _, _, rfl, scanned.skip next, Nat.lt_succ_self _⟩
  | some band =>
      rw [symbol] at next
      exact scanned.branch starts (by rw [next]; rfl)

/-- The outer loop reaches the window's end, if its turns keep an invariant and take from a
measure.
-/
theorem scanLoop_total {inv : Cursor → Prop} (measure : Cursor → Nat)
    (inside : ∀ cursor, inv cursor → cursor.jj ≤ window.length)
    (turn
      : ∀ cursor, inv cursor → cursor.jj < window.length
          → ∃ next,
              scanTurn kk size window cursor = .again next
              ∧ inv next
              ∧ measure next < measure cursor)
    {cursor : Cursor} (holds : inv cursor) {fuel : Nat} (enough : measure cursor < fuel)
    : ∃ p,
        FuelLoop.run (scanTurn kk size window) fuel cursor = some (some p)
        ∧ inv ⟨p, window.length⟩ := by
  have total := @FuelLoop.run_total _ _ (scanTurn kk size window) inv
    (fun result => ∃ p, result = some p ∧ inv ⟨p, window.length⟩) measure ?_ ?_ fuel cursor
    holds enough
  · obtain ⟨result, finished, p, rfl, last⟩ := total
    exact ⟨p, finished, last⟩
  · intro cursor next holds goes
    by_cases within : cursor.jj < window.length
    · obtain ⟨cursor', moves, kept, fewer⟩ := turn cursor holds within
      obtain rfl : cursor' = next := by
        rw [goes] at moves
        exact (Turn.again.inj moves).symm
      exact ⟨kept, fewer⟩
    · have outside : window[cursor.jj]? = none := by simp; omega
      rw [scanTurn, outside] at goes
      cases goes
  · intro cursor result holds goes
    by_cases within : cursor.jj < window.length
    · obtain ⟨_, moves, _, _⟩ := turn cursor holds within
      rw [goes] at moves
      cases moves
    · have atEnd : cursor.jj = window.length := by
        have := inside cursor holds
        omega
      have outside : window[cursor.jj]? = none := by simp; omega
      rw [scanTurn, outside] at goes
      refine ⟨cursor.phase, (Turn.leave.inj goes).symm, ?_⟩
      rw [← atEnd]
      exact holds

/-- The rest of the loop scans the rest of the window. -/
theorem Scanned.finish (starts : StartsAt kk size base)
    {cursor : Cursor} {run : OpenRun Band} {segments : List (Segment Band)}
    (scanned : Scanned base window entry start extra cursor run segments) {fuel : Nat}
    (enough : window.length < fuel)
    : ∃ p run' segments',
        FuelLoop.run (scanTurn kk size window) fuel cursor = some (some p)
        ∧ Scanned base window entry start extra ⟨p, window.length⟩ run' segments' := by
  have total := @scanLoop_total kk size window
    (fun cursor => ∃ run segments, Scanned base window entry start extra cursor run segments)
    (fun cursor => window.length - cursor.jj) ?_ ?_ cursor ⟨run, segments, scanned⟩ fuel
    (by omega)
  · obtain ⟨p, finished, run', segments', last⟩ := total
    exact ⟨p, run', segments', finished, last⟩
  · intro cursor invariant
    obtain ⟨_, _, scanned⟩ := invariant
    exact scanned.progress.inside
  · intro cursor invariant within
    obtain ⟨_, _, scanned⟩ := invariant
    obtain ⟨cursor', run', segments', moves, kept, further⟩ := scanned.turn starts within
    exact ⟨cursor', moves, ⟨run', segments', kept⟩, by omega⟩

end Turns

end Sparcs.VoltageAnalytics
