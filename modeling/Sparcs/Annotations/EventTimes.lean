import Sparcs.VoltageAnalytics.Detector
import Sparcs.Annotations.Samples

/-! The times of the `VoltageLimit` messages: how `processData` turns the sample indices of
the detector's reports into microseconds.
-/

namespace Sparcs.Annotations

open VoltageAnalytics (Analyser ReportMe processWindow)

/-- Conversion of a float to `uint64_t`; `none` where C++ leaves it undefined. -/
def toUInt64? (x : Float32) : Option UInt64 :=
  if x.isFinite && x > -1 && x < 18446744073709551616 then some x.toUInt64 else none

/-- `(epochTimeMsec+uint64_t(float(time-mahdiruns)/float(UPMU_SAMPLES_PER_SEC/1000)))*1000`, where
the quotient of integers is zero. A division of floats by zero gives an infinity or no number,
neither of which has a conversion.
-/
def publishedTime (epochTimeMsec : UInt64) (mahdiruns : BitVec 32) (time : Int) : Option UInt64 :=
  let divisor : Int := upmuSamplesPerSec / 1000
  if divisor = 0 then
    none
  else do
    let offset ←
      toUInt64?
        (Float32.ofInt (BitVec.ofInt 32 time - mahdiruns).toInt / Float32.ofInt divisor)
    pure ((epochTimeMsec + offset) * 1000)

/-- A report with what its times are computed from. -/
structure EventMessage where
  report : ReportMe
  epochTimeMsec : UInt64
  mahdiruns : BitVec 32

/-- `STARTTIME_UTC` -/
def EventMessage.startp1 (message : EventMessage) : Option UInt64 :=
  publishedTime message.epochTimeMsec message.mahdiruns message.report.starttime

/-- `ENDTIME_UTC` -/
def EventMessage.endp1 (message : EventMessage) : Option UInt64 :=
  publishedTime message.epochTimeMsec message.mahdiruns message.report.endtime

/-- The detector with the run counter that is started 60 seconds before it. -/
structure EventState where
  analyser : Analyser := {}
  mahdiruns : BitVec 32 := -7200

/-- A second of the analysis: its `epochTime` and the samples of the three phases. -/
structure AnalysedSecond where
  epochTime : UInt32
  window : Fin 3 → List Float

/-- The second half of `processData`: the detector's call, a message for each report, and
the step of the run counter.
-/
def processEvents (state : EventState) (second : AnalysedSecond)
    : Option (EventState × List EventMessage) := do
  let (analyser, reports) ← processWindow state.analyser second.window
  let messages :=
    reports.map fun report =>
      { report
        epochTimeMsec := second.epochTime.toUInt64 * 1000
        mahdiruns := state.mahdiruns }
  pure ({ analyser, mahdiruns := state.mahdiruns + 120 }, messages)

/-- Seconds one after the other, with the messages of each. -/
def processAllEvents : EventState → List AnalysedSecond
    → Option (EventState × List (List EventMessage))
  | state, [] => some (state, [])
  | state, second :: rest => do
      let (next, messages) ← processEvents state second
      let (final, later) ← processAllEvents next rest
      pure (final, messages :: later)

/-- A published time is that of a sample, counted from the first sample of the second. -/
def IsTimeOf (epochTimeMsec : UInt64) (offset : Int) (published : Option UInt64) : Prop :=
  ∃ time : UInt64,
    published = some time
    ∧ |(time.toNat : ℚ) - (epochTimeMsec.toNat * 1000 + offset * 1000000 / upmuSamplesPerSec)| < 1

/-- Both times of a message are those of its report's samples, where the second is number
`window` of the run.
-/
structure EventMessage.TimesTrue (message : EventMessage) (window : Nat) : Prop where
  start :
    IsTimeOf message.epochTimeMsec (message.report.starttime - upmuSamplesPerSec * window)
      message.startp1
  stop :
    IsTimeOf message.epochTimeMsec (message.report.endtime - upmuSamplesPerSec * window)
      message.endp1

theorem processEvents_mahdiruns {state next : EventState} {second : AnalysedSecond}
    {messages : List EventMessage}
    (processed : processEvents state second = some (next, messages))
    : next.mahdiruns = state.mahdiruns + 120
      ∧ ∀ message ∈ messages, message.mahdiruns = state.mahdiruns := by
  obtain ⟨⟨analyser, reports⟩, _, same⟩ := Option.bind_eq_some_iff.mp processed
  obtain ⟨rfl, rfl⟩ := Prod.mk.inj (Option.some.inj same)
  refine ⟨rfl, ?_⟩
  intro message member
  obtain ⟨report, _, rfl⟩ := List.mem_map.mp member
  rfl

/-- The run counter in every message of a run, by induction over the seconds. -/
theorem processAllEvents_mahdiruns {state final : EventState} {seconds : List AnalysedSecond}
    {all : List (List EventMessage)}
    (processed : processAllEvents state seconds = some (final, all))
    {window : Nat} {messages : List EventMessage} (isWindow : all[window]? = some messages)
    {message : EventMessage} (member : message ∈ messages)
    : message.mahdiruns = state.mahdiruns + 120 * BitVec.ofNat 32 window := by
  induction seconds generalizing state all window with
  | nil =>
      obtain ⟨_, rfl⟩ := Prod.mk.inj (Option.some.inj processed)
      simp at isWindow
  | cons second rest ih =>
      obtain ⟨⟨next, now⟩, isNow, processed⟩ := Option.bind_eq_some_iff.mp processed
      obtain ⟨⟨final', later⟩, isLater, same⟩ := Option.bind_eq_some_iff.mp processed
      obtain ⟨rfl, rfl⟩ := Prod.mk.inj (Option.some.inj same)
      obtain ⟨counted, ofNow⟩ := processEvents_mahdiruns isNow
      cases window with
      | zero =>
          obtain rfl := Option.some.inj isWindow
          simpa using ofNow message member
      | succ window =>
          rw [ih isLater isWindow, counted, BitVec.ofNat_add, BitVec.mul_add, BitVec.add_assoc,
            BitVec.add_comm (120 * BitVec.ofNat 32 window)]
          rfl

/-- In every run and for every report, both times are divided by zero. What is divided is wrong
too: the counter that is taken off lags 7200 samples behind the first sample of the second.
-/
theorem processAllEvents_not_timesTrue {seconds : List AnalysedSecond} {final : EventState}
    {all : List (List EventMessage)}
    (processed : processAllEvents {} seconds = some (final, all))
    : ∀ window messages, all[window]? = some messages → ∀ message ∈ messages,
        message.startp1 = none
        ∧ message.endp1 = none
        ∧ ¬message.TimesTrue window
        ∧ ∀ time : Int,
          BitVec.ofInt 32 time - message.mahdiruns
            = BitVec.ofInt 32 time - 120 * BitVec.ofNat 32 window + 7200 := by
  intro window messages isWindow message member
  refine ⟨rfl, rfl, ?_, ?_⟩
  · intro timesTrue
    obtain ⟨time, published, _⟩ := timesTrue.start
    cases published
  · intro time
    have counter := processAllEvents_mahdiruns processed isWindow member
    have initial : ({} : EventState).mahdiruns = -7200 := rfl
    rw [counter, initial, BitVec.sub_eq_add_neg, BitVec.neg_add, BitVec.sub_eq_add_neg,
      BitVec.sub_eq_add_neg, BitVec.neg_neg, BitVec.add_assoc,
      BitVec.add_comm (7200 : BitVec 32)]

/-- A second that begins with one sample of a swell in each phase. -/
def swellSecond : AnalysedSecond where
  epochTime := 1500000000
  window := fun _ => 1.2 :: List.replicate 119 1.0

theorem processAllEvents_swellSecond
    : (processAllEvents {} [swellSecond]).map (fun result => result.2.map List.length)
      = some [3] := by
  decide +kernel

/-- Its three reports are annotated, and none of the times can be computed. -/
theorem processAllEvents_not_timesTrue_swellSecond
    : ∃ final messages,
        processAllEvents {} [swellSecond] = some (final, [messages])
        ∧ messages.length = 3
        ∧ ∀ message ∈ messages, ¬message.TimesTrue 0 := by
  obtain ⟨⟨final, all⟩, processed, lengths⟩ :=
    Option.map_eq_some_iff.mp processAllEvents_swellSecond
  obtain ⟨messages, rfl, three⟩ := List.map_eq_singleton_iff.mp lengths
  refine ⟨final, messages, processed, three, ?_⟩
  intro message member
  exact (processAllEvents_not_timesTrue processed 0 messages rfl message member).2.2.1

/-- At its first report, the division by zero leaves no start time. -/
theorem swellSecond_times_undefined
    : ∃ final messages,
        processAllEvents {} [swellSecond] = some (final, [messages])
        ∧ messages ≠ []
        ∧ ∀ message ∈ messages,
          message.startp1 = none ∧ ¬message.TimesTrue 0 := by
  obtain ⟨⟨final, all⟩, processed, lengths⟩ :=
    Option.map_eq_some_iff.mp processAllEvents_swellSecond
  obtain ⟨messages, rfl, three⟩ := List.map_eq_singleton_iff.mp lengths
  refine ⟨final, messages, processed, ?_, ?_⟩
  · intro same
    rw [same] at three
    cases three
  · intro message _
    refine ⟨rfl, ?_⟩
    intro timesTrue
    obtain ⟨time, published, _⟩ := timesTrue.start
    cases published

end Sparcs.Annotations
