import Sparcs.VoltageAnalytics.PhaseScan

/-! The outer loop of one window keeps the run scan of the samples before `jj`. -/

namespace Sparcs.VoltageAnalytics

open RunScan (OpenRun Segment)
open FuelLoop (Turn)

def Phase.pushAll (p : Phase) : List (Segment Band) → Phase
  | [] => p
  | segment :: rest =>
      (p.pushEvent (startStamp segment) (stopStamp segment) (label segment)).pushAll rest

theorem Phase.Stacked.pushAll {p : Phase} {stack : List (Segment Band)}
    (stacked : p.Stacked stack) (more : List (Segment Band))
    : (p.pushAll more).Stacked (stack ++ more) := by
  induction more generalizing p stack with
  | nil => simpa [Phase.pushAll] using stacked
  | cons segment rest ih =>
      simpa [Phase.pushAll, List.append_assoc] using ih (stacked.push segment)

/-- Two phases that differ at most in their event vectors and their number of events. -/
structure Phase.SameControl (p q : Phase) : Prop where
  vR : q.vR = p.vR
  tmpVR : q.tmpVR = p.tmpVR
  lastSampleV : q.lastSampleV = p.lastSampleV
  lastWindowRep : q.lastWindowRep = p.lastWindowRep
  lastWindowVal : q.lastWindowVal = p.lastWindowVal

theorem Phase.pushAll_sameControl (p : Phase) (more : List (Segment Band))
    : p.SameControl (p.pushAll more) := by
  induction more generalizing p with
  | nil => exact ⟨rfl, rfl, rfl, rfl, rfl⟩
  | cons segment rest ih =>
      have pushed := ih (p.pushEvent (startStamp segment) (stopStamp segment) (label segment))
      exact ⟨pushed.vR, pushed.tmpVR, pushed.lastSampleV, pushed.lastWindowRep,
        pushed.lastWindowVal⟩

theorem Phase.pushAll_report (p : Phase) (more : List (Segment Band))
    : (p.pushAll more).report = p.report + more.length := by
  induction more generalizing p with
  | nil => rfl
  | cons segment rest ih =>
      rw [Phase.pushAll, ih, List.length_cons]
      change p.report + 1 + rest.length = _
      omega

/-- The base stamp of a window that starts at stream index `base`. -/
def StartsAt (kk size : BitVec 32) (base : Nat) : Prop :=
  (kk - 2) * size = BitVec.ofNat 32 base

theorem StartsAt.stamp {kk size : BitVec 32} {base : Nat} (starts : StartsAt kk size base)
    (jj : Nat)
    : stamp kk size jj = wrapped (base + jj) := by
  rw [VoltageAnalytics.stamp, starts, wrapped, BitVec.ofNat_add]

section Branch

variable {kk size : BitVec 32} {base : Nat}

/-- A run above the limit is recorded with its long label. -/
theorem recordRun_over (starts : StartsAt kk size base) (band : Band) (count jj : Nat)
    (p : Phase) (long : overLimit < count)
    : p.recordRun kk size band count jj
      = some (p.pushAll [⟨band, count, base + jj, true⟩]) := by
  simp [Phase.recordRun, long, starts.stamp, Phase.pushAll, startStamp, stopStamp, label]

/-- A run that does not continue the last window's event is recorded if it has a label. -/
theorem recordRun_fresh (starts : StartsAt kk size base) (band : Band) (count jj : Nat)
    (p : Phase) (short : count ≤ overLimit)
    (fresh
      : p.lastSampleV band = true → band.labelled (p.tmpVR band) = true
          → (jj : Int) - count + p.tmpVR band ≠ 0)
    : p.recordRun kk size band count jj
      = some (p.pushAll (openEvents (some (band, count)) (base + jj))) := by
  have within : ¬overLimit < count := by omega
  have noPop
      : ((jj : Int) - count + p.tmpVR band = 0 && p.lastSampleV band
          && band.labelled (p.tmpVR band)) = false := by
    cases flagged : p.lastSampleV band with
    | false => simp
    | true =>
        cases labelled : band.labelled (p.tmpVR band) with
        | false => simp
        | true => simpa using fresh flagged labelled
  rw [Phase.recordRun, if_neg within, noPop, openEvents_some]
  cases band.labelled count with
  | false => simp [Phase.pushAll]
  | true => simp [starts.stamp, Phase.pushAll, startStamp, stopStamp, label]

/-- A run that continues the last window's event takes the place of that event. -/
theorem recordRun_merge (starts : StartsAt kk size base) (band : Band)
    (count more : Nat) (p : Phase) (short : count + more ≤ overLimit)
    (flagged : p.lastSampleV band = true) (length : p.tmpVR band = count)
    {pre : List (Segment Band)}
    (stacked : p.Stacked (pre ++ openEvents (some (band, count)) base))
    : ∃ q : Phase,
        p.recordRun kk size band (count + more) more
          = some (q.pushAll (openEvents (some (band, count + more)) (base + more)))
        ∧ q.Stacked pre
        ∧ q.report = p.report
        ∧ p.SameControl q := by
  rw [openEvents_some] at stacked
  cases labelled : band.labelled count with
  | false =>
      refine ⟨p, ?_, by simpa [labelled] using stacked, rfl,
        ⟨rfl, rfl, rfl, rfl, rfl⟩⟩
      apply recordRun_fresh starts band (count + more) more p short
      intro _ labelled'
      rw [length, labelled] at labelled'
      contradiction
  | true =>
      have longer : band.labelled (count + more) = true := by
        cases band <;> simp_all [Band.labelled]
        omega
      have within : ¬overLimit < count + more := by omega
      have atStart : ((more : Int) - ((count + more : Nat) : Int) + (count : Int) = 0) := by
        omega
      simp only [labelled, if_true] at stacked
      let popped : Phase :=
        { p with
          ts := pre.map startStamp
          an := pre.map label
          te := pre.map stopStamp }
      refine ⟨popped, ?_, ⟨rfl, rfl, rfl⟩, rfl, ⟨rfl, rfl, rfl, rfl, rfl⟩⟩
      rw [Phase.recordRun, if_neg within, if_pos longer, length, flagged, labelled,
        decide_eq_true atStart, openEvents_some, if_pos longer]
      simp [popped, stacked.pop, starts.stamp, Phase.pushAll, startStamp, stopStamp, label]

end Branch

/-- The branch of a turn is the band of the sample at `jj`. -/
theorem scanTurn_branch (kk size : BitVec 32) (window : List Float) (cursor : Cursor)
    {v : Float} (sample : window[cursor.jj]? = some v)
    : scanTurn kk size window cursor
      = match bandOf v with
        | some band => bandBranch kk size window band cursor
        | none => .again { cursor with jj := cursor.jj + 1 } := by
  simp only [scanTurn, sample, bandOf]
  split_ifs <;> rfl

theorem bandBranch_eq {kk size : BitVec 32} {window : List Float} {band : Band}
    {cursor : Cursor} {count jj : Nat} {p : Phase}
    (counted
      : countBand band (window.drop cursor.jj) (cursor.phase.vR band) cursor.jj
        = (count, jj))
    (recorded : cursor.phase.recordRun kk size band count jj = some p)
    : bandBranch kk size window band cursor
      = .again ⟨p.closeRun window.length band count jj, jj⟩ := by
  simp only [bandBranch, counted, recorded]

/-- A run that reaches the window's end within the limit stays in its counter. -/
theorem closeRun_end {p : Phase} {len : Nat} {band : Band} {count : Nat}
    (positive : 0 < count) (short : count ≤ overLimit)
    : p.closeRun len band count len
      = { p with
          vR := Function.update p.vR band count
          lastSampleV := fun other => other = band
          tmpVR := Function.update p.tmpVR band count } := by
  simp [Phase.closeRun, positive, short]

/-- Every other run leaves a counter of zero. -/
theorem closeRun_restart {p : Phase} {len : Nat} {band : Band} {count jj : Nat}
    (restarts : jj ≠ len ∨ overLimit < count)
    : p.closeRun len band count jj = { p with vR := Function.update p.vR band 0 } := by
  rw [Phase.closeRun, if_neg]
  rcases restarts with inside | long
  · simp [inside]
  · simp [long]

end Sparcs.VoltageAnalytics
