import Sparcs.Library.Loop
import Mathlib

/-! The voltage event detector of both RabbitMQ archivers: `VoltageLimitMain` and
`printReports` with the globals they carry from one window to the next.
-/

namespace Sparcs.VoltageAnalytics

open FuelLoop (Turn)

-----------------------------------------------------------------------------------------
-- Bands and their thresholds
-----------------------------------------------------------------------------------------

/-- The columns of `last_sample_V`, which are also the counters `V_r1`, `V_r2`, `V_r3`. -/
inductive Band where
  | sag
  | interruption
  | swell
  deriving DecidableEq, Repr

/-- `max_wdw_sag`: a sag is labelled when it has more samples than this. -/
def maxWdwSag : Nat := 3

/-- `over`: 60 seconds of samples. -/
def overLimit : Nat := 120 * 60

/-- The condition of the band's branch and of its inner loop. -/
def Band.holds : Band → Float → Bool
  | .sag, v => 0.1 ≤ v && v ≤ 0.9
  | .interruption, v => v < 0.1
  | .swell, v => v ≥ 1.1

/-- The condition on a window's first sample that resets the band's counter. -/
def Band.resets : Band → Float → Bool
  | .sag, v => v > 0.9 || v < 0.1
  | .interruption, v => v ≥ 0.1
  | .swell, v => v < 1.1

/-- Whether a run of this length gets a label; only sags have a minimal length. -/
def Band.labelled : Band → Nat → Bool
  | .sag, count => maxWdwSag < count
  | .interruption, _ => true
  | .swell, _ => true

def Band.description : Band → String
  | .sag => "voltage sag"
  | .interruption => "interruption"
  | .swell => "voltage swell"

def Band.overDescription : Band → String
  | .sag => "under voltage"
  | .interruption => "sustained interruption"
  | .swell => "over voltage"

-----------------------------------------------------------------------------------------
-- State
-----------------------------------------------------------------------------------------

/-- What `upmuanalyticsASU` and `last_sample_V` hold at one phase index. The counters are
doubles with small integer values in the source, and the stamps doubles with integer ones.
-/
structure Phase where
  vR : Band → Nat := fun _ => 0
  tmpVR : Band → Nat := fun _ => 0
  lastSampleV : Band → Bool := fun _ => false
  ts : List Int := []
  te : List Int := []
  an : List String := []
  report : Nat := 0
  lastWindowRep : Bool := false
  lastWindowVal : Float := 0

/-- `reportme` -/
structure ReportMe where
  phase : Fin 3
  starttime : Int
  endtime : Int
  severity : Int
  description : String
  deriving DecidableEq, Repr

/-- The globals `kk` and `size` are C++ `int`s; their arithmetic wraps at 32 bits. -/
structure Analyser where
  kk : BitVec 32 := 1
  size : BitVec 32 := 120
  phases : Fin 3 → Phase := fun _ => {}

/-- `(kk-2)*size+jj` -/
def stamp (kk size : BitVec 32) (jj : Nat) : Int :=
  ((kk - 2) * size + BitVec.ofNat 32 jj).toInt

/-- The three `push_back`s and the count that go with every event. -/
def Phase.pushEvent (p : Phase) (start stop : Int) (label : String) : Phase :=
  { p with
    ts := p.ts ++ [start]
    an := p.an ++ [label]
    te := p.te ++ [stop]
    report := p.report + 1 }

/-- `pop_back`, undefined on an empty vector. -/
def popBack {α : Type} : List α → Option (List α)
  | [] => none
  | first :: rest => some (first :: rest).dropLast

def Phase.popEvent (p : Phase) : Option Phase := do
  let ts ← popBack p.ts
  let an ← popBack p.an
  let te ← popBack p.te
  pure { p with ts, an, te }

-----------------------------------------------------------------------------------------
-- Scanning one window of one phase
-----------------------------------------------------------------------------------------

/-- The inner loop of a band over the samples from index `jj` on, with the band's counter.
It leaves at the first foreign sample, at the window's end, or with `jj` still at the
sample that takes the counter above `over`.
-/
def countBand (band : Band) : List Float → Nat → Nat → Nat × Nat
  | [], count, jj => (count, jj)
  | v :: rest, count, jj =>
      if band.holds v then
        if overLimit < count + 1 then (count + 1, jj)
        else countBand band rest (count + 1) (jj + 1)
      else (count, jj)

/-- The pushes of a band's branch after its inner loop, for the window that starts at the
stamps of `kk` and `size`. An event that continues the one at the end of the last window
replaces it.
-/
def Phase.recordRun (kk size : BitVec 32) (band : Band) (count jj : Nat) (p : Phase)
    : Option Phase :=
  if overLimit < count then
    some (p.pushEvent (stamp kk size jj - count - 1) (stamp kk size jj) band.overDescription)
  else if band.labelled count then do
    let p ←
      if (jj : Int) - count + p.tmpVR band = 0 && p.lastSampleV band
          && band.labelled (p.tmpVR band) then
        p.popEvent
      else
        some p
    pure (p.pushEvent (stamp kk size jj - count - 1) (stamp kk size jj) band.description)
  else
    some p

/-- The end of a band's branch: a run that reaches the window's end is flagged and keeps
its counter, every other counter restarts.
-/
def Phase.closeRun (len : Nat) (band : Band) (count jj : Nat) (p : Phase) : Phase :=
  if jj = len && 0 < count && count ≤ overLimit then
    { p with
      vR := Function.update p.vR band count
      lastSampleV := fun other => other = band
      tmpVR := Function.update p.tmpVR band count }
  else
    { p with vR := Function.update p.vR band 0 }

/-- The loop variable `jj` with the phase that the loop works on. -/
structure Cursor where
  phase : Phase
  jj : Nat

/-- The branch of one band at index `jj` of the window. -/
def bandBranch (kk size : BitVec 32) (input : List Float) (band : Band) (cursor : Cursor)
    : Turn Cursor (Option Phase) :=
  let (count, jj) :=
    countBand band (input.drop cursor.jj) (cursor.phase.vR band) cursor.jj
  match cursor.phase.recordRun kk size band count jj with
  | none => .leave none
  | some p => .again ⟨p.closeRun input.length band count jj, jj⟩

/-- One turn of the outer loop `while (jj<Len)`. -/
def scanTurn (kk size : BitVec 32) (input : List Float) (cursor : Cursor)
    : Turn Cursor (Option Phase) :=
  match input[cursor.jj]? with
  | none => .leave (some cursor.phase)
  | some v =>
      if Band.sag.holds v then bandBranch kk size input .sag cursor
      else if Band.interruption.holds v then bandBranch kk size input .interruption cursor
      else if Band.swell.holds v then bandBranch kk size input .swell cursor
      else .again { cursor with jj := cursor.jj + 1 }

/-- A turn that meets the limit of `over` samples leaves `jj` where it is, so a window may
take two turns for a sample.
-/
def scanFuel (input : List Float) : Nat :=
  2 * input.length + 2

/-- The body of `VoltageLimitMain`'s first loop for one phase; `none` is a `pop_back` or an
index that C++ leaves undefined.
-/
def Phase.scan (kk size : BitVec 32) (input : List Float) (p : Phase) : Option Phase := do
  let first ← input[0]?
  let vR := fun band => if Band.resets band first then 0 else p.vR band
  let p ← (FuelLoop.run (scanTurn kk size input) (scanFuel input)
    ⟨{ p with vR, report := 0 }, 0⟩).join
  let last ← input[size.toNat - 1]?
  pure (if last > 0.9 && last < 1.1 then { p with lastSampleV := fun _ => false } else p)

-----------------------------------------------------------------------------------------
-- Reports of one window
-----------------------------------------------------------------------------------------

/-- `vector::at`, which throws outside the vector. -/
def at? {α : Type} (xs : List α) (index : Int) : Option α :=
  if index < 0 then none else xs[index.toNat]?

/-- `count` elements from index `start` on. -/
def sliceAt? {α : Type} (xs : List α) (start : Int) (count : Nat) : Option (List α) :=
  (List.range count).mapM fun (yy : Nat) => at? xs (start + yy)

/-- The window ends inside an event that has a label. -/
def Phase.endsLabelled (p : Phase) : Bool :=
  (p.lastSampleV .sag && Band.labelled .sag (p.tmpVR .sag))
  || p.lastSampleV .interruption
  || p.lastSampleV .swell

/-- The labelled event at the end of the last window does not go on in this one. -/
def Phase.eventEnded (p : Phase) (first : Float) : Bool :=
  p.lastWindowRep
  && ((p.lastWindowVal < 0.1 && first ≥ 0.1)
    || (p.lastWindowVal ≥ 0.1 && p.lastWindowVal ≤ 0.9 && first < 0.1)
    || (p.lastWindowVal ≥ 0.1 && p.lastWindowVal ≤ 0.9 && first > 0.9)
    || (p.lastWindowVal ≥ 1.1 && first < 1.1))

/-- The entries of one event vector that `printReports` copies, in its four cases. -/
def Phase.reported {α : Type} (p : Phase) (first : Float) (xs : List α)
    : Option (List α) :=
  if p.endsLabelled then
    if p.eventEnded first then sliceAt? xs (xs.length - p.report - 1) p.report
    else sliceAt? xs (xs.length - p.report) (p.report - 1)
  else
    if p.eventEnded first then sliceAt? xs (xs.length - p.report - 1) (p.report + 1)
    else sliceAt? xs (xs.length - p.report) p.report

/-- Conversion of a double to `int`: outside the range the conversion instruction gives the
least `int`.
-/
def toInt (x : Int) : Int :=
  if -2 ^ 31 ≤ x ∧ x < 2 ^ 31 then x else -2 ^ 31

def makereport (phase : Fin 3) (starttime endtime severity : Int) (description : String)
    : ReportMe :=
  { phase, starttime, endtime, severity, description }

/-- What `printReports` adds to `reportp1` for one phase. -/
def Phase.printReports (phase : Fin 3) (p : Phase) (input : List Float)
    : Option (List ReportMe) := do
  let first ← input[0]?
  let starttime ← p.reported first p.ts
  let endtime ← p.reported first p.te
  let description ← p.reported first p.an
  pure
    ((starttime.zip (endtime.zip description)).map
      (fun (start, stop, label) => makereport phase (toInt start) (toInt stop) 10 label))

/-- `printReports`; the text it also appends to a log file is left out. -/
def printReports (phases : Fin 3 → Phase) (input : Fin 3 → List Float)
    : Option (List ReportMe) := do
  let first ← (phases 0).printReports 0 (input 0)
  let second ← (phases 1).printReports 1 (input 1)
  let third ← (phases 2).printReports 2 (input 2)
  pure (first ++ second ++ third)

/-- The two assignments that end `VoltageLimitMain`. -/
def Phase.keepWindow (p : Phase) (input : List Float) : Option Phase := do
  let last ← input[input.length - 1]?
  pure { p with lastWindowRep := p.endsLabelled, lastWindowVal := last }

/-- `VoltageLimitMain(v_mag, 3)`, with the reports it leaves in `reportp1`. The caller fills
the three vectors together, so `Len` is the length of each.
-/
def voltageLimitMain (a : Analyser) (input : Fin 3 → List Float)
    : Option (Analyser × List ReportMe) := do
  let scanned0 ← (a.phases 0).scan a.kk a.size (input 0)
  let scanned1 ← (a.phases 1).scan a.kk a.size (input 1)
  let scanned2 ← (a.phases 2).scan a.kk a.size (input 2)
  let scanned := ![scanned0, scanned1, scanned2]
  let reportp1 ←
    if 0 < scanned0.report || 0 < scanned1.report || 0 < scanned2.report
        || scanned0.lastWindowRep || scanned1.lastWindowRep || scanned2.lastWindowRep then
      printReports scanned input
    else
      some []
  let kept0 ← scanned0.keepWindow (input 0)
  let kept1 ← scanned1.keepWindow (input 1)
  let kept2 ← scanned2.keepWindow (input 2)
  pure ({ a with phases := ![kept0, kept1, kept2] }, reportp1)

-----------------------------------------------------------------------------------------
-- Windows one after the other
-----------------------------------------------------------------------------------------

/-- The detector's part of `processData`: `kk` is incremented before each call, and
`reportp1` is collected and cleared after it.
-/
def processWindow (a : Analyser) (input : Fin 3 → List Float)
    : Option (Analyser × List ReportMe) :=
  voltageLimitMain { a with kk := a.kk + 1 } input

/-- A run over windows, with all the reports in order. -/
def processWindows : Analyser → List (Fin 3 → List Float)
    → Option (Analyser × List ReportMe)
  | a, [] => some (a, [])
  | a, window :: rest => do
      let (next, reports) ← processWindow a window
      let (final, later) ← processWindows next rest
      pure (final, reports ++ later)

end Sparcs.VoltageAnalytics
