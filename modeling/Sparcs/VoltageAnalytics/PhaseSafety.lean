import Sparcs.VoltageAnalytics.PhaseRuns

/-! Whatever the samples are, NaN included, no step of the detector is undefined: it pops
no event from an empty vector and reads no entry outside one.
-/

namespace Sparcs.VoltageAnalytics

open FuelLoop (Turn)

/-- The vectors have one length, a counter is open or carried whole, and each flag has the
length of its run, with an event if that is labelled.
-/
structure Phase.Sound (p : Phase) : Prop where
  te : p.te.length = p.ts.length
  an : p.an.length = p.ts.length
  bounded : ∀ band, p.vR band ≤ overLimit
  counters : ∀ band, p.vR band = 0 ∨ p.vR band = p.tmpVR band
  positive : ∀ band, p.lastSampleV band = true → 0 < p.tmpVR band
  stored
    : ∀ band, p.lastSampleV band = true → band.labelled (p.tmpVR band) = true
        → 0 < p.ts.length

/-- What a branch does to the vectors: `removed` events go, the others stay below the new
ones.
-/
structure Phase.Grows (p q : Phase) (removed : Nat) : Prop where
  same : p.SameControl q
  te : q.te.length = q.ts.length
  an : q.an.length = q.ts.length
  report : q.ts.length + removed + p.report = p.ts.length + q.report
  longer : p.ts.length ≤ q.ts.length

section Record

variable {kk size : BitVec 32} {p : Phase} {band : Band} {count jj : Nat}

theorem Phase.Sound.pushEvent (sound : p.Sound) (start stop : Int) (text : String)
    : p.Grows (p.pushEvent start stop text) 0
      ∧ 0 < (p.pushEvent start stop text).ts.length := by
  refine ⟨⟨⟨rfl, rfl, rfl, rfl, rfl⟩, ?_, ?_, ?_, ?_⟩, ?_⟩ <;>
    simp [Phase.pushEvent, sound.te, sound.an]
  omega

theorem popBack_some {α : Type} {xs : List α} (nonempty : 0 < xs.length)
    : popBack xs = some xs.dropLast := by
  cases xs with
  | nil => simp at nonempty
  | cons x rest => rfl

/-- A pop from vectors that hold an event, with the push that follows it. -/
theorem Phase.Sound.replaceEvent (sound : p.Sound) (stored : 0 < p.ts.length)
    (start stop : Int) (text : String)
    : ∃ popped,
        p.popEvent = some popped
        ∧ p.Grows (popped.pushEvent start stop text) 1
        ∧ 0 < (popped.pushEvent start stop text).ts.length := by
  refine ⟨{ p with ts := p.ts.dropLast, an := p.an.dropLast, te := p.te.dropLast }, ?_, ?_, ?_⟩
  · rw [Phase.popEvent, popBack_some stored, popBack_some (sound.an.symm ▸ stored),
      popBack_some (sound.te.symm ▸ stored)]
    rfl
  · refine ⟨⟨rfl, rfl, rfl, rfl, rfl⟩, ?_, ?_, ?_, ?_⟩ <;>
      simp [Phase.pushEvent, sound.te, sound.an] <;> omega
  · simp [Phase.pushEvent]

theorem Phase.Sound.record_over (sound : p.Sound) (long : overLimit < count)
    : ∃ q, p.recordRun kk size band count jj = some q ∧ p.Grows q 0 := by
  rw [Phase.recordRun, if_pos long]
  exact ⟨_, rfl, (sound.pushEvent ..).1⟩

/-- A run within the limit: an event is replaced only where the run began at the window's
start with the counter of a flagged run.
-/
theorem Phase.Sound.record_within (sound : p.Sound) (short : count ≤ overLimit)
    : ∃ q removed,
        p.recordRun kk size band count jj = some q
        ∧ p.Grows q removed
        ∧ (band.labelled count = true → 0 < q.ts.length)
        ∧ (removed = 0
          ∨ removed = 1
            ∧ p.lastSampleV band = true
            ∧ band.labelled (p.tmpVR band) = true
            ∧ (jj : Int) - count + p.tmpVR band = 0) := by
  rw [Phase.recordRun, if_neg (not_lt.mpr short)]
  cases labelled : band.labelled count with
  | false =>
      refine ⟨p, 0, rfl, ⟨⟨rfl, rfl, rfl, rfl, rfl⟩, sound.te, sound.an, rfl, le_rfl⟩, ?_,
        Or.inl rfl⟩
      simp
  | true =>
      rw [if_pos rfl]
      split_ifs with continues
      · simp only [Bool.and_eq_true, decide_eq_true_eq] at continues
        obtain ⟨⟨begins, flagged⟩, long⟩ := continues
        have stored := sound.stored band flagged long
        obtain ⟨popped, pops, grows, nonempty⟩ := sound.replaceEvent stored
          (stamp kk size jj - count - 1) (stamp kk size jj) band.description
        rw [pops]
        exact ⟨_, 1, rfl, grows, fun _ => nonempty, Or.inr ⟨rfl, flagged, long, begins⟩⟩
      · obtain ⟨grows, nonempty⟩ := sound.pushEvent (stamp kk size jj - count - 1)
          (stamp kk size jj) band.description
        exact ⟨_, 0, rfl, grows, fun _ => nonempty, Or.inl rfl⟩

theorem Phase.Sound.grow {q : Phase} {removed : Nat} (sound : p.Sound)
    (grows : p.Grows q removed)
    : q.Sound := by
  obtain ⟨⟨vR, tmpVR, lastSampleV, _, _⟩, te, an, _, longer⟩ := grows
  refine ⟨te, an, ?_, ?_, ?_, ?_⟩
  · rw [vR]
    exact sound.bounded
  · rw [vR, tmpVR]
    exact sound.counters
  · rw [lastSampleV, tmpVR]
    exact sound.positive
  · rw [lastSampleV, tmpVR]
    exact fun band flagged labelled =>
      (sound.stored band flagged labelled).trans_le longer

/-- The end of a branch keeps the invariant if a labelled run is recorded. -/
theorem Phase.Sound.closeRun {len : Nat} (sound : p.Sound)
    (recorded : count ≤ overLimit → band.labelled count = true → 0 < p.ts.length)
    : (p.closeRun len band count jj).Sound := by
  have bounded (value : Nat) (small : value ≤ overLimit) (other : Band)
      : Function.update p.vR band value other ≤ overLimit := by
    rw [Function.update_apply]
    split_ifs
    · exact small
    · exact sound.bounded other
  have counters (value length : Nat) (open_ : value = 0 ∨ value = length) (other : Band)
      : Function.update p.vR band value other = 0
        ∨ Function.update p.vR band value other
          = Function.update p.tmpVR band length other := by
    rw [Function.update_apply, Function.update_apply]
    split_ifs
    · exact open_
    · exact sound.counters other
  rw [Phase.closeRun]
  split_ifs with ends
  · simp only [Bool.and_eq_true, decide_eq_true_eq] at ends
    obtain ⟨⟨_, positive⟩, short⟩ := ends
    refine ⟨sound.te, sound.an, bounded count short, counters count count (Or.inr rfl), ?_, ?_⟩
    · intro other flagged
      obtain rfl := of_decide_eq_true flagged
      simpa using positive
    · intro other flagged labelled
      obtain rfl := of_decide_eq_true flagged
      exact recorded short (by simpa using labelled)
  · refine ⟨sound.te, sound.an, bounded 0 (Nat.zero_le _), ?_, sound.positive, sound.stored⟩
    intro other
    simpa using counters 0 (p.tmpVR band) (Or.inl rfl) other

end Record

section CloseRun

variable (p : Phase) (len : Nat) (band : Band) (count jj : Nat)

@[simp] theorem Phase.closeRun_ts : (p.closeRun len band count jj).ts = p.ts := by
  rw [Phase.closeRun]
  split_ifs <;> rfl

@[simp] theorem Phase.closeRun_report : (p.closeRun len band count jj).report = p.report := by
  rw [Phase.closeRun]
  split_ifs <;> rfl

@[simp] theorem Phase.closeRun_lastWindowRep
    : (p.closeRun len band count jj).lastWindowRep = p.lastWindowRep := by
  rw [Phase.closeRun]
  split_ifs <;> rfl

@[simp] theorem Phase.closeRun_lastWindowVal
    : (p.closeRun len band count jj).lastWindowVal = p.lastWindowVal := by
  rw [Phase.closeRun]
  split_ifs <;> rfl

end CloseRun

-----------------------------------------------------------------------------------------
-- The outer loop of one window
-----------------------------------------------------------------------------------------

/-- The vectors inside a window. At most one event of an earlier window is replaced, by a
run that goes on at the first sample; its counter is gone then.
-/
inductive Phase.Pushed (entry p : Phase) (first : Float) (jj : Nat) : Prop where
  | onTop (length : p.ts.length = entry.ts.length + p.report)
  | inPlace (band : Band) (inBand : bandOf first = some band)
    (flagged : entry.lastSampleV band = true) (below : 0 < entry.ts.length)
    (length : p.ts.length + 1 = entry.ts.length + p.report)
    (past : 0 < jj ∨ p.vR band = 0)

/-- What the outer loop keeps, from the phase with which the window begins. -/
structure Guarded (entry : Phase) (window : List Float) (first : Float)
    (cursor : Cursor) : Prop where
  inside : cursor.jj ≤ window.length
  sound : cursor.phase.Sound
  lastWindowRep : cursor.phase.lastWindowRep = entry.lastWindowRep
  lastWindowVal : cursor.phase.lastWindowVal = entry.lastWindowVal
  flags : cursor.jj < window.length → entry.KeepsFlags cursor.phase
  pushed : entry.Pushed cursor.phase first cursor.jj
  final
    : cursor.jj = window.length → ∀ band, (symbols window).getLast? = some (some band)
        → ∀ other, cursor.phase.lastSampleV other = true → other = band

/-- A sample takes a second turn if its band's counter is open: the first one may meet the
limit there.
-/
def turnsLeft (window : List Float) (cursor : Cursor) : Nat :=
  2 * (window.length - cursor.jj)
    + match (symbols (window.drop cursor.jj)).head? with
      | some (some band) => if cursor.phase.vR band = 0 then 0 else 1
      | _ => 0

theorem turnsLeft_bounds (window : List Float) (cursor : Cursor)
    : 2 * (window.length - cursor.jj) ≤ turnsLeft window cursor
      ∧ turnsLeft window cursor ≤ 2 * (window.length - cursor.jj) + 1 := by
  rw [turnsLeft]
  split
  · split_ifs <;> omega
  · omega

section Turns

variable {kk size : BitVec 32} {window : List Float} {entry : Phase} {first : Float}
variable {cursor : Cursor}

theorem turnsLeft_band {band : Band}
    (next : (symbols (window.drop cursor.jj)).head? = some (some band))
    : turnsLeft window cursor
      = 2 * (window.length - cursor.jj) + if cursor.phase.vR band = 0 then 0 else 1 := by
  simp only [turnsLeft, next]

/-- The window's last symbol is that of what is left. -/
theorem getLast?_symbols {front : List (Option Band)} {symbol : Option Band}
    (split : symbols (window.drop cursor.jj) = front ++ [symbol])
    : (symbols window).getLast? = some symbol := by
  rw [← List.take_append_drop cursor.jj window, symbols, List.map_append]
  change (_ ++ symbols (window.drop cursor.jj)).getLast? = _
  rw [split, ← List.append_assoc, List.getLast?_concat]

theorem Guarded.skip (guarded : Guarded entry window first cursor)
    {rest : List (Option Band)}
    (next : symbols (window.drop cursor.jj) = none :: rest)
    : Guarded entry window first { cursor with jj := cursor.jj + 1 } := by
  have split : symbols (window.drop cursor.jj) = [none] ++ rest := next
  have inside := jj_add_le split guarded.inside
  rw [List.length_singleton] at inside
  refine ⟨by simp only; omega, guarded.sound, guarded.lastWindowRep, guarded.lastWindowVal,
    fun _ => guarded.flags (by omega), ?_, ?_⟩
  · cases guarded.pushed with
    | onTop length => exact .onTop length
    | inPlace band inBand flagged below length past =>
        exact .inPlace band inBand flagged below length (Or.inl (Nat.succ_pos _))
  · intro atEnd band last
    -- The window's last sample has just been skipped, so it has no band.
    obtain rfl : rest = [] := List.eq_nil_of_length_eq_zero (by simp only at atEnd; omega)
    have symbol := @getLast?_symbols window cursor [] none next
    rw [symbol] at last
    cases last

/-- The vectors after a run within the limit: an event that is replaced belongs to the run that
goes on at the first sample.
-/
theorem Guarded.pushed_stopped (settled : entry.Sound)
    (guarded : Guarded entry window first cursor) (flags : entry.KeepsFlags cursor.phase)
    {band : Band} (firstBand : cursor.jj = 0 → bandOf first = some band) {q : Phase}
    {removed more : Nat} (grows : cursor.phase.Grows q removed)
    (replaced
      : removed = 0
        ∨ removed = 1
          ∧ cursor.phase.lastSampleV band = true
          ∧ band.labelled (cursor.phase.tmpVR band) = true
          ∧ ((cursor.jj + (more + 1) : Nat) : Int) - (cursor.phase.vR band + (more + 1) : Nat)
              + cursor.phase.tmpVR band
            = 0)
    : entry.Pushed
        (q.closeRun window.length band (cursor.phase.vR band + (more + 1))
          (cursor.jj + (more + 1)))
        first (cursor.jj + (more + 1)) := by
  have report := grows.report
  rcases replaced with rfl | ⟨rfl, flagged, labelled, begins⟩
  · cases guarded.pushed with
    | onTop length =>
        refine .onTop ?_
        simp only [Phase.closeRun_ts, Phase.closeRun_report]
        omega
    | inPlace other inBand flagged below length past =>
        refine .inPlace other inBand flagged below ?_ (Or.inl (by simp))
        simp only [Phase.closeRun_ts, Phase.closeRun_report]
        omega
  · have positive := guarded.sound.positive band flagged
    have carried := guarded.sound.counters band
    have inBand := firstBand (by omega)
    rw [flags.lastSampleV] at flagged
    have below : 0 < entry.ts.length := settled.stored band flagged (flags.tmpVR ▸ labelled)
    cases guarded.pushed with
    | onTop length =>
        refine .inPlace band inBand flagged below ?_ (Or.inl (by simp))
        simp only [Phase.closeRun_ts, Phase.closeRun_report]
        omega
    | inPlace other otherBand _ _ length past =>
        obtain rfl := Option.some.inj (inBand.symm.trans otherBand)
        omega

/-- A run that stops within the limit. -/
theorem Guarded.stopped (settled : entry.Sound) (head : window.head? = some first)
    (guarded : Guarded entry window first cursor) {band : Band} {more : Nat}
    {rest : List (Option Band)}
    (result
      : countBand band (window.drop cursor.jj) (cursor.phase.vR band) cursor.jj
        = (cursor.phase.vR band + (more + 1), cursor.jj + (more + 1)))
    (short : cursor.phase.vR band + (more + 1) ≤ overLimit)
    (split : symbols (window.drop cursor.jj) = List.replicate (more + 1) (some band) ++ rest)
    : ∃ cursor',
        bandBranch kk size window band cursor = .again cursor'
        ∧ Guarded entry window first cursor'
        ∧ turnsLeft window cursor' < turnsLeft window cursor := by
  have next : (symbols (window.drop cursor.jj)).head? = some (some band) := by
    rw [split]
    rfl
  have inside := jj_add_le split guarded.inside
  rw [List.length_replicate] at inside
  have flags := guarded.flags (by omega)
  have firstBand (begins : cursor.jj = 0) : bandOf first = some band := by
    rw [begins, List.drop_zero, symbols, List.head?_map, head] at next
    exact Option.some.inj next
  obtain ⟨q, removed, recorded, grows, stored, replaced⟩ :=
    @Phase.Sound.record_within kk size cursor.phase band _ (cursor.jj + (more + 1))
      guarded.sound short
  refine ⟨_, bandBranch_eq result recorded, ⟨?_, ?_, ?_, ?_, ?_, ?_, ?_⟩, ?_⟩
  · simp only
    omega
  · exact (guarded.sound.grow grows).closeRun fun _ => stored
  · simpa using grows.same.lastWindowRep.trans guarded.lastWindowRep
  · simpa using grows.same.lastWindowVal.trans guarded.lastWindowVal
  · intro further
    rw [closeRun_restart (Or.inl further.ne)]
    exact ⟨grows.same.lastSampleV.trans flags.lastSampleV,
      grows.same.tmpVR.trans flags.tmpVR⟩
  · exact guarded.pushed_stopped settled flags firstBand grows replaced
  · intro atEnd last symbol
    obtain rfl : rest = [] := List.eq_nil_of_length_eq_zero (by simp only at atEnd; omega)
    rw [List.append_nil, List.replicate_succ'] at split
    rw [getLast?_symbols split] at symbol
    obtain rfl := Option.some.inj (Option.some.inj symbol)
    simp only at atEnd ⊢
    rw [atEnd, closeRun_end (by omega) short]
    exact fun other flagged => of_decide_eq_true flagged
  · have turns := turnsLeft_band next
    have bounds := turnsLeft_bounds window
      ⟨q.closeRun window.length band (cursor.phase.vR band + (more + 1))
        (cursor.jj + (more + 1)), cursor.jj + (more + 1)⟩
    simp only at bounds
    omega

/-- A run that crosses the limit, and whose counter is closed then. -/
theorem Guarded.crossed (guarded : Guarded entry window first cursor) {band : Band} {more : Nat}
    {rest : List (Option Band)}
    (result
      : countBand band (window.drop cursor.jj) (cursor.phase.vR band) cursor.jj
        = (overLimit + 1, cursor.jj + more))
    (limit : cursor.phase.vR band + more = overLimit)
    (split : symbols (window.drop cursor.jj) = List.replicate (more + 1) (some band) ++ rest)
    : ∃ cursor',
        bandBranch kk size window band cursor = .again cursor'
        ∧ Guarded entry window first cursor'
        ∧ turnsLeft window cursor' < turnsLeft window cursor := by
  have next : (symbols (window.drop cursor.jj)).head? = some (some band) := by
    rw [split]
    rfl
  have turns := turnsLeft_band next
  have inside := jj_add_le split guarded.inside
  rw [List.length_replicate] at inside
  have flags := guarded.flags (by omega)
  obtain ⟨q, recorded, grows⟩ :=
    @Phase.Sound.record_over kk size cursor.phase band _ (cursor.jj + more)
      guarded.sound (Nat.lt_succ_self overLimit)
  have restarts := @closeRun_restart q window.length band (overLimit + 1) (cursor.jj + more)
    (Or.inr (Nat.lt_succ_self _))
  refine ⟨_, bandBranch_eq result recorded, ⟨?_, ?_, ?_, ?_, ?_, ?_, ?_⟩, ?_⟩
  · simp only
    omega
  · exact (guarded.sound.grow grows).closeRun fun short => absurd short (by omega)
  · simpa using grows.same.lastWindowRep.trans guarded.lastWindowRep
  · simpa using grows.same.lastWindowVal.trans guarded.lastWindowVal
  · intro _
    rw [restarts]
    exact ⟨grows.same.lastSampleV.trans flags.lastSampleV,
      grows.same.tmpVR.trans flags.tmpVR⟩
  · have report := grows.report
    cases guarded.pushed with
    | onTop length =>
        refine .onTop ?_
        simp only [Phase.closeRun_ts, Phase.closeRun_report]
        omega
    | inPlace other inBand flagged below length past =>
        refine .inPlace other inBand flagged below ?_ ?_
        · simp only [Phase.closeRun_ts, Phase.closeRun_report]
          omega
        · rcases past with past | closed
          · exact Or.inl (Nat.add_pos_left past more)
          · refine Or.inr ?_
            simp only [restarts, Function.update_apply, grows.same.vR, closed, ite_self]
  · intro atEnd
    simp only at atEnd
    omega
  · cases more with
    | succ more =>
        have bounds := turnsLeft_bounds window
          ⟨q.closeRun window.length band (overLimit + 1) (cursor.jj + (more + 1)),
            cursor.jj + (more + 1)⟩
        simp only at bounds
        omega
    | zero =>
        -- The limit is met at once, but the counter is closed for the next turn.
        have opened : cursor.phase.vR band ≠ 0 := by
          rw [Nat.add_zero] at limit
          rw [limit]
          decide
        have after := @turnsLeft_band window
          ⟨{ q with vR := Function.update q.vR band 0 }, cursor.jj + 0⟩ band next
        rw [turns, if_neg opened, restarts, after]
        simp

/-- A branch pops nothing twice, records what it flags, and takes a turn off the rest. -/
theorem Guarded.branch (settled : entry.Sound) (head : window.head? = some first)
    (guarded : Guarded entry window first cursor) {band : Band}
    (next : (symbols (window.drop cursor.jj)).head? = some (some band))
    : ∃ cursor',
        bandBranch kk size window band cursor = .again cursor'
        ∧ Guarded entry window first cursor'
        ∧ turnsLeft window cursor' < turnsLeft window cursor := by
  cases countBand_counted band (window.drop cursor.jj) _ cursor.jj
      (guarded.sound.bounded band) with
  | stopped more rest result short split foreign =>
      cases more with
      | zero =>
          rw [split] at next
          exact absurd next foreign
      | succ more => exact guarded.stopped settled head result short split
  | crossed more rest result limit split => exact guarded.crossed result limit split

theorem Guarded.turn (settled : entry.Sound) (head : window.head? = some first)
    (guarded : Guarded entry window first cursor) (within : cursor.jj < window.length)
    : ∃ cursor',
        scanTurn kk size window cursor = .again cursor'
        ∧ Guarded entry window first cursor'
        ∧ turnsLeft window cursor' < turnsLeft window cursor := by
  have sample : window[cursor.jj]? = some window[cursor.jj] := by simp [within]
  have next : symbols (window.drop cursor.jj)
      = bandOf window[cursor.jj] :: symbols (window.drop (cursor.jj + 1)) := by
    rw [List.drop_eq_getElem_cons within]
    rfl
  rw [scanTurn_branch kk size window cursor sample]
  cases symbol : bandOf window[cursor.jj] with
  | none =>
      rw [symbol] at next
      refine ⟨_, rfl, guarded.skip next, ?_⟩
      have before := turnsLeft_bounds window cursor
      have after := turnsLeft_bounds window { cursor with jj := cursor.jj + 1 }
      simp only at after
      omega
  | some band =>
      rw [symbol] at next
      exact guarded.branch settled head (by rw [next]; rfl)

/-- The loop ends at the window's end, and not by an undefined step. -/
theorem Guarded.finish (settled : entry.Sound) (head : window.head? = some first)
    (guarded : Guarded entry window first cursor) {fuel : Nat}
    (enough : 2 * window.length + 1 < fuel)
    : ∃ p,
        FuelLoop.run (scanTurn kk size window) fuel cursor = some (some p)
        ∧ Guarded entry window first ⟨p, window.length⟩ := by
  have turnsBound := turnsLeft_bounds window cursor
  exact scanLoop_total (turnsLeft window) (fun _ guarded => guarded.inside)
    (fun _ guarded within => guarded.turn settled head within) guarded (by omega)

/-- The last sample's test may clear the flags. -/
theorem Guarded.clear {p : Phase} (guarded : Guarded entry window first ⟨p, window.length⟩)
    : Guarded entry window first ⟨{ p with lastSampleV := fun _ => false }, window.length⟩ where
  inside := le_rfl
  sound := ⟨guarded.sound.te, guarded.sound.an, guarded.sound.bounded,
    guarded.sound.counters, by simp, by simp⟩
  lastWindowRep := guarded.lastWindowRep
  lastWindowVal := guarded.lastWindowVal
  flags := fun further => absurd further (lt_irrefl _)
  pushed := by
    cases guarded.pushed with
    | onTop length => exact .onTop length
    | inPlace band inBand flagged below length past =>
        exact .inPlace band inBand flagged below length past
  final := by simp

end Turns

-----------------------------------------------------------------------------------------
-- Windows
-----------------------------------------------------------------------------------------

/-- The state of a phase between two windows, whatever their samples were. -/
structure Phase.Settled (p : Phase) : Prop where
  sound : p.Sound
  lastWindowRep : p.lastWindowRep = p.endsLabelled
  lastWindowVal
    : p.lastWindowRep = true → ∀ band, bandOf p.lastWindowVal = some band
        → ∀ other, p.lastSampleV other = true → other = band

theorem Phase.Settled.initial : ({} : Phase).Settled where
  sound := ⟨rfl, rfl, fun _ => Nat.zero_le _, fun _ => Or.inl rfl, by simp, by simp⟩
  lastWindowRep := rfl
  lastWindowVal := by simp

/-- A slice inside the vector is read without leaving it. -/
theorem sliceAt?_inside {α : Type} {xs : List α} {start : Int} {from_ count : Nat}
    (same : start = from_) (inside : from_ + count ≤ xs.length)
    : ∃ entries, sliceAt? xs start count = some entries := by
  have middle := sliceAt?_middle (xs.take from_) ((xs.drop from_).take count)
    ((xs.drop from_).drop count)
  rw [List.append_assoc, List.take_append_drop, List.take_append_drop, List.length_take,
    List.length_take, List.length_drop, Nat.min_eq_left (by omega),
    Nat.min_eq_left (by omega), ← same] at middle
  exact ⟨_, middle⟩

section Window

variable {kk size : BitVec 32} {window : List Float} {p : Phase}

/-- All four cases of `printReports` copy entries that the vector has. -/
theorem Phase.reported_some {α : Type} {first : Float} {xs : List α}
    (kept : p.eventEnded first = true → p.report + 1 ≤ xs.length)
    (pushed : p.report ≤ xs.length)
    : ∃ entries, p.reported first xs = some entries := by
  rw [Phase.reported]
  split_ifs with labelled ended ended
  · have := kept ended
    exact @sliceAt?_inside _ _ _ (xs.length - p.report - 1) _ (by omega) (by omega)
  · rcases Nat.eq_zero_or_pos p.report with zero | positive
    · exact @sliceAt?_inside _ _ _ xs.length _ (by omega) (by omega)
    · exact @sliceAt?_inside _ _ _ (xs.length - p.report) _ (by omega) (by omega)
  · have := kept ended
    exact @sliceAt?_inside _ _ _ (xs.length - p.report - 1) _ (by omega) (by omega)
  · exact @sliceAt?_inside _ _ _ (xs.length - p.report) _ (by omega) (by omega)

/-- The counters are reset or not; no vector changes before the first turn. -/
theorem Phase.Settled.enter (settled : p.Settled) {first : Float}
    (nonempty : 0 < window.length)
    : Guarded p window first ⟨p.enter first, 0⟩ where
  inside := Nat.zero_le _
  sound := by
    obtain ⟨te, an, bounded, counters, positive, stored⟩ := settled.sound
    refine ⟨te, an, ?_, ?_, positive, stored⟩
    · intro band
      change (if band.resets first = true then 0 else p.vR band) ≤ overLimit
      split_ifs
      · exact Nat.zero_le _
      · exact bounded band
    · intro band
      change (if band.resets first = true then 0 else p.vR band) = 0
        ∨ (if band.resets first = true then 0 else p.vR band) = p.tmpVR band
      split_ifs
      · exact Or.inl rfl
      · exact counters band
  lastWindowRep := rfl
  lastWindowVal := rfl
  flags := fun _ => ⟨rfl, rfl⟩
  pushed := .onTop rfl
  final := fun atEnd => absurd atEnd nonempty.ne

/-- Scanning a window never fails. -/
theorem Phase.Settled.scan (settled : p.Settled) {first : Float}
    (head : window.head? = some first) (whole : window.length = size.toNat)
    : ∃ q,
        p.scan kk size window = some q
        ∧ Guarded p window first ⟨q, window.length⟩ := by
  have nonempty : window ≠ [] := by
    intro empty
    simp [empty] at head
  have tail : window[size.toNat - 1]? = some (window.getLast nonempty) := by
    rw [← whole, ← List.getLast?_eq_getElem?, List.getLast?_eq_some_getLast nonempty]
  obtain ⟨q, ran, guarded⟩ :=
    @Guarded.finish kk size window p first ⟨p.enter first, 0⟩ settled.sound head
      (settled.enter (List.length_pos_iff.mpr nonempty)) (scanFuel window)
      (by rw [scanFuel]; omega)
  refine ⟨_, Phase.scan_eq (by rwa [← List.head?_eq_getElem?]) tail ran, ?_⟩
  split_ifs
  · exact guarded.clear
  · exact guarded

/-- A band whose reset test a sample passes is not the sample's band. -/
theorem bandOf_ne_of_resets {v : Float} {band : Band} (resets : band.resets v = true)
    : bandOf v ≠ some band := by
  intro inBand
  exact (resets_iff (bandOf_number inBand) band).mp resets inBand

/-- An event that has ended was not replaced: its flag is the only one, and the first sample
is in another band.
-/
theorem Guarded.ended_below (settled : p.Settled) {q : Phase} {first : Float}
    (guarded : Guarded p window first ⟨q, window.length⟩)
    (ended : q.eventEnded first = true)
    : q.report + 1 ≤ q.ts.length := by
  rw [Phase.eventEnded_eq, guarded.lastWindowRep, guarded.lastWindowVal,
    Bool.and_eq_true] at ended
  obtain ⟨rep, breaks⟩ := ended
  have labelled := settled.lastWindowRep ▸ rep
  obtain ⟨band, flagged, long⟩ := Phase.endsLabelled_iff.mp labelled
  have stored := settled.sound.stored band flagged long
  cases guarded.pushed with
  | onTop length => simp only at length; omega
  | inPlace other inBand otherFlagged _ _ _ =>
      have only (last : Band) (holds : last.holds p.lastWindowVal = true) : other = last :=
        settled.lastWindowVal rep last (bandOf_of_holds holds) other otherFlagged
      simp only [Bool.or_eq_true, Bool.and_eq_true] at breaks
      rcases breaks with (⟨holds, resets⟩ | ⟨holds, resets⟩) | ⟨holds, resets⟩ <;>
        exact absurd (only _ holds ▸ inBand) (bandOf_ne_of_resets resets)

theorem Guarded.report_le {q : Phase} {first : Float}
    (guarded : Guarded p window first ⟨q, window.length⟩)
    : q.report ≤ q.ts.length := by
  cases guarded.pushed with
  | onTop length => simp only at length; omega
  | inPlace _ _ _ below length _ => simp only at length; omega

/-- The reports of a scanned window can be made. -/
theorem Guarded.printReports (settled : p.Settled) {q : Phase} {first : Float}
    (head : window.head? = some first) (guarded : Guarded p window first ⟨q, window.length⟩)
    (phase : Fin 3)
    : ∃ reports, q.printReports phase window = some reports := by
  have copied {α : Type} (xs : List α) (aligned : xs.length = q.ts.length)
      : ∃ entries, q.reported first xs = some entries :=
    Phase.reported_some (aligned.symm ▸ guarded.ended_below settled)
      (aligned.symm ▸ guarded.report_le)
  obtain ⟨starttime, starts⟩ := copied q.ts rfl
  obtain ⟨endtime, ends⟩ := copied q.te guarded.sound.te
  obtain ⟨description, describes⟩ := copied q.an guarded.sound.an
  rw [List.head?_eq_getElem?] at head
  simp only [Phase.printReports, head, starts, ends, describes, Option.bind_eq_bind,
    Option.bind_some, Option.pure_def]
  exact ⟨_, rfl⟩

/-- A call works through on any samples, and leaves a state for the next one. -/
theorem Phase.Settled.step (settled : p.Settled) (whole : window.length = size.toNat)
    (nonempty : 0 < size.toNat) (phase : Fin 3)
    : ∃ kept reports,
        p.step kk size phase window = some (kept, reports) ∧ kept.Settled := by
  have samples : window ≠ [] := by
    rw [← List.length_pos_iff, whole]
    exact nonempty
  have head := List.head?_eq_some_head samples
  obtain ⟨q, scans, guarded⟩ := @Phase.Settled.scan kk size window p settled _ head whole
  obtain ⟨reports, prints⟩ := guarded.printReports settled head phase
  have tail : window[window.length - 1]? = some (window.getLast samples) := by
    rw [← List.getLast?_eq_getElem?, List.getLast?_eq_some_getLast samples]
  refine ⟨{ q with lastWindowRep := q.endsLabelled, lastWindowVal := window.getLast samples },
    reports, ?_, ?_⟩
  · simp only [Phase.step, scans, prints, Phase.keepWindow, tail, Option.bind_eq_bind,
      Option.bind_some, Option.pure_def]
  · refine ⟨⟨guarded.sound.te, guarded.sound.an, guarded.sound.bounded,
      guarded.sound.counters, guarded.sound.positive, guarded.sound.stored⟩, rfl, ?_⟩
    intro _ band last
    refine guarded.final rfl band ?_
    rw [symbols, List.getLast?_map, List.getLast?_eq_some_getLast samples, Option.map_some]
    exact congrArg some last

/-- Windows in a row work through on any samples. -/
theorem Phase.Settled.steps (settled : p.Settled) (phase : Fin 3) (nonempty : 0 < size.toNat)
    (windows : List (List Float)) (whole : ∀ window ∈ windows, window.length = size.toNat)
    : ∃ each, Phase.steps size phase kk p windows = some each := by
  induction windows generalizing p kk with
  | nil => exact ⟨[], rfl⟩
  | cons window rest ih =>
      obtain ⟨kept, reports, step, next⟩ :=
        @Phase.Settled.step (kk + 1) size window p settled (whole window (by simp)) nonempty
          phase
      obtain ⟨later, more⟩ := @ih (kk + 1) kept next
        (fun window member => whole window (List.mem_cons_of_mem _ member))
      exact ⟨reports :: later, Phase.steps_cons.mpr ⟨kept, reports, later, step, more, rfl⟩⟩

end Window

-----------------------------------------------------------------------------------------
-- The phases do not interfere
-----------------------------------------------------------------------------------------

/-- Two runs over as many windows, whose samples of one phase agree in every window, make
the same reports for that phase in the same windows. Neither run meets an undefined step.
-/
theorem processWindowsEach_reportsOf_eq (phase : Fin 3)
    {windows windows' : List (Fin 3 → List Float)}
    (whole : ∀ window ∈ windows, ∀ other, (window other).length = 120)
    (whole' : ∀ window ∈ windows', ∀ other, (window other).length = 120)
    (agree : windows.map (· phase) = windows'.map (· phase))
    : ∃ final reports final' reports',
        processWindowsEach {} windows = some (final, reports)
        ∧ processWindowsEach {} windows' = some (final', reports')
        ∧ reports.map (reportsOf phase) = reports'.map (reportsOf phase) := by
  have total (inputs : List (Fin 3 → List Float))
      (lengths : ∀ window ∈ inputs, ∀ other, (window other).length = 120) (other : Fin 3)
      : ∃ each,
          Phase.steps 120 other 1 {} (inputs.map (· other)) = some each := by
    apply Phase.Settled.initial.steps other (by decide)
    intro window member
    obtain ⟨input, listed, rfl⟩ := List.mem_map.mp member
    exact lengths input listed other
  choose each steps using total windows whole
  choose each' steps' using total windows' whole'
  obtain ⟨final, reports, ran, same⟩ := @processWindowsEach_of_steps {} windows each steps
  obtain ⟨final', reports', ran', same'⟩ := @processWindowsEach_of_steps {} windows' each' steps'
  refine ⟨final, reports, final', reports', ran, ran', ?_⟩
  have own := steps phase
  rw [agree, steps' phase] at own
  rw [same phase, same' phase, Option.some.inj own]

/-- A sag over the edge of two windows in phase 0, with one sample in the other phases. -/
def besideSag (other : Float) : Fin 3 → List Float
  | 0 => .replicate 118 1.0 ++ .replicate 4 0.5 ++ .replicate 118 1.0
  | _ => .replicate 240 other

theorem besideSag_length (other : Float) (phase : Fin 3)
    : (besideSag other phase).length = 240 := by
  match phase with
  | 0 =>
      rw [besideSag, List.length_append, List.length_append, List.length_replicate,
        List.length_replicate]
  | 1 => exact List.length_replicate
  | 2 => exact List.length_replicate

/-- The sag next to normal voltage and next to NaN. -/
theorem processWindowsEach_reportsOf_eq_sag
    : ∃ final reports final' reports',
        processWindowsEach {} (windowsOf 120 2 (besideSag 1.0)) = some (final, reports)
        ∧ processWindowsEach {} (windowsOf 120 2 (besideSag Float.nan)) = some (final', reports')
        ∧ reports.map (reportsOf 0) = reports'.map (reportsOf 0) :=
  processWindowsEach_reportsOf_eq 0
    (windowsOf_length fun phase => (besideSag_length 1.0 phase).ge)
    (windowsOf_length fun phase => (besideSag_length Float.nan phase).ge) rfl

end Sparcs.VoltageAnalytics
