import Sparcs.VoltageAnalytics.Bands

/-! One window of one phase simulates the run scan of its band symbols.
Between windows the detector keeps the open run in a counter and in three flags, and its
event as the top of the three vectors.
-/

namespace Sparcs.VoltageAnalytics

open RunScan (OpenRun Segment)

abbrev symbols (window : List Float) : List (Option Band) :=
  window.map bandOf

def AllNumbers (window : List Float) : Prop :=
  ∀ v ∈ window, v.isNaN = false

/-- A segment cut at the limit always gets a label, a finished one by its length. -/
def hasLabel (segment : Segment Band) : Bool :=
  segment.capped || segment.kind.labelled segment.count

def events (segments : List (Segment Band)) : List (Segment Band) :=
  segments.filter hasLabel

@[simp] theorem events_append (left right : List (Segment Band))
    : events (left ++ right) = events left ++ events right :=
  List.filter_append left right

/-- The labelled event of an open run that ended before `index`. -/
def openEvents (run : OpenRun Band) (index : Nat) : List (Segment Band) :=
  events (run.close index)

theorem openEvents_some (band : Band) (count index : Nat)
    : openEvents (some (band, count)) index
      = if band.labelled count then [⟨band, count, index, false⟩] else [] := by
  cases labelled : band.labelled count <;>
    simp [openEvents, OpenRun.close, events, hasLabel, labelled]

/-- A sample index as the source's `int` holds it. -/
def wrapped (index : Nat) : Int :=
  (BitVec.ofNat 32 index).toInt

def startStamp (segment : Segment Band) : Int :=
  wrapped segment.stop - segment.count - 1

def stopStamp (segment : Segment Band) : Int :=
  wrapped segment.stop

def label (segment : Segment Band) : String :=
  if segment.capped then segment.kind.overDescription else segment.kind.description

/-- The three event vectors hold these events in order. -/
structure Phase.Stacked (p : Phase) (stack : List (Segment Band)) : Prop where
  ts : p.ts = stack.map startStamp
  te : p.te = stack.map stopStamp
  an : p.an = stack.map label

theorem Phase.Stacked.push {p : Phase} {stack : List (Segment Band)}
    (stacked : p.Stacked stack) (segment : Segment Band)
    : (p.pushEvent (startStamp segment) (stopStamp segment) (label segment)).Stacked
        (stack ++ [segment]) :=
  ⟨by simp [Phase.pushEvent, stacked.ts], by simp [Phase.pushEvent, stacked.te],
    by simp [Phase.pushEvent, stacked.an]⟩

theorem popBack_concat {α : Type} (xs : List α) (x : α)
    : popBack (xs ++ [x]) = some xs := by
  cases xs with
  | nil => rfl
  | cons first rest =>
      change some ((first :: rest) ++ [x]).dropLast = _
      rw [List.dropLast_concat]

/-- Popping a known top event leaves the rest and touches nothing else. -/
theorem Phase.Stacked.pop {p : Phase} {stack : List (Segment Band)}
    {segment : Segment Band} (stacked : p.Stacked (stack ++ [segment]))
    : p.popEvent
      = some
          { p with
            ts := stack.map startStamp
            an := stack.map label
            te := stack.map stopStamp } := by
  obtain ⟨ts, te, an⟩ := stacked
  simp only [List.map_append, List.map_cons, List.map_nil] at ts te an
  simp [Phase.popEvent, ts, te, an, popBack_concat]

/-- How the inner loop ends on a list of samples, from a count within the limit. -/
inductive Counted (band : Band) (samples : List Float) (count jj : Nat) : Prop where
  | stopped (more : Nat) (rest : List (Option Band))
    (result : countBand band samples count jj = (count + more, jj + more))
    (within : count + more ≤ overLimit)
    (split : symbols samples = List.replicate more (some band) ++ rest)
    (foreign : rest.head? ≠ some (some band))
  | crossed (more : Nat) (rest : List (Option Band))
    (result : countBand band samples count jj = (overLimit + 1, jj + more))
    (limit : count + more = overLimit)
    (split : symbols samples = List.replicate (more + 1) (some band) ++ rest)

/-- The inner loop consumes exactly a run's samples, by induction over the window. -/
theorem countBand_counted (band : Band) (samples : List Float) (count jj : Nat)
    (within : count ≤ overLimit)
    : Counted band samples count jj := by
  induction samples generalizing count jj with
  | nil => exact .stopped 0 [] rfl within rfl (by simp)
  | cons v rest ih =>
      by_cases inside : band.holds v = true
      · have symbol := bandOf_of_holds inside
        by_cases last : overLimit < count + 1
        · refine .crossed 0 (symbols rest) ?_ (by omega) (by simp [symbols, symbol])
          simp only [countBand, inside, last, if_true]
          congr 1
          omega
        · have step : countBand band (v :: rest) count jj
              = countBand band rest (count + 1) (jj + 1) := by
            simp only [countBand, inside, last, if_true, if_false]
          cases ih (count + 1) (jj + 1) (by omega) with
          | stopped more tail result within split foreign =>
              refine .stopped (more + 1) tail ?_ (by omega) ?_ foreign
              · rw [step, result]
                congr 1 <;> omega
              · rw [List.replicate_succ, List.cons_append, ← split]
                simp [symbols, symbol]
          | crossed more tail result limit split =>
              refine .crossed (more + 1) tail ?_ (by omega) ?_
              · rw [step, result]
                congr 1
                omega
              · rw [List.replicate_succ, List.cons_append, ← split]
                simp [symbols, symbol]
      · refine .stopped 0 (symbols (v :: rest)) ?_ within rfl ?_
        · simp only [countBand, inside]
          rfl
        · intro continued
          exact inside (holds_of_bandOf (by simpa [symbols] using continued))

end Sparcs.VoltageAnalytics
