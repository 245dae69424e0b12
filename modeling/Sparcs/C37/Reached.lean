import Sparcs.C37.Seconds

/-! Where any frames can lead the reformatter. -/

namespace Sparcs.C37

open Blocks (Block)

namespace C37Reformat

/-- The machine waits, counts the samples of a second, or has learned them. -/
inductive Reached (r : C37Reformat) : Prop where
  | waiting (waiting : r.Waiting)
  | syncing {sec : UInt32} {count : UInt16} (syncing : r.Syncing sec count)
  | learned (learned : r.Learned)

section Step

variable {r next : C37Reformat} {frame : C37Buffer} {out : List EventBuffer}
  {sec : UInt32} {count sampleCnt : UInt16} {events : List Block}

/-- A frame has one result. -/
theorem receive_unique {next' : C37Reformat} {out' : List EventBuffer}
    (received : r.receive frame = some (next, out))
    (received' : r.receive frame = some (next', out'))
    : next = next' ∧ out = out' :=
  Prod.mk.inj (Option.some.inj (received.symm.trans received'))

theorem Filling.learned (filling : r.Filling sampleCnt sec events count)
    (positive : 0 < sampleCnt.toNat) (firstValue : r.fracSecValues 0 = 0)
    : r.Learned := by
  obtain ⟨state, rfl, _, _, _⟩ := filling
  exact ⟨state, positive, firstValue⟩

theorem Reached.withNonStd (reached : r.Reached) (count : UInt64)
    : (r.withNonStd count).Reached := by
  rcases reached with ⟨state, notStarted⟩ | ⟨⟨state, started, present, cnt, pos, bound, first⟩⟩
    | ⟨state, positive, firstValue⟩
  · exact .waiting ⟨state, notStarted⟩
  · exact .syncing ⟨state, started, present, cnt, pos, bound, first⟩
  · exact .learned ⟨state, positive, firstValue⟩

/-- A frame begins a second or is passed over. -/
theorem Waiting.step (waiting : r.Waiting) (std : IsStd frame)
    : ∃ next,
        r.receive frame = some (next, [])
        ∧ ((fracTime frame = 0 ∧ next.Syncing (time frame) 1)
          ∨ (fracTime frame ≠ 0 ∧ next = r)) := by
  by_cases frac : fracTime frame = 0
  · obtain ⟨next, received, syncing, _⟩ := waiting.start std frac
    exact ⟨next, received, .inl ⟨frac, syncing⟩⟩
  · exact ⟨r, waiting.skip std frac, .inr ⟨frac, rfl⟩⟩

/-- A 513th fraction would be written behind the array. -/
theorem Syncing.overrun (syncing : r.Syncing sec count) (notLast : sec + 1 ≠ 0)
    (std : IsStd frame) (frac : fracTime frame ≠ 0) (noRoom : ¬count.toNat < fracSecValuesLen)
    : r.receive frame = none := by
  obtain ⟨state, started, rfl, rfl, positive, bounded, firstValue⟩ := syncing
  have notSecond : ¬(r.presentSec + 1 ≠ 0 ∧ fracTime frame = 0) := by
    simp [frac]
  rw [receive_sync std state, syncStep, if_neg (by simp [started])]
  simp only [notSecond, not_succ_lt notLast, noRoom, if_false]
  rfl

/-- What a frame does while the samples of a second are counted. -/
theorem Syncing.step (syncing : r.Syncing sec count) (std : IsStd frame)
    (received : r.receive frame = some (next, out))
    : out = []
      ∧ (next.Waiting
        ∨ next.Syncing sec (count + 1)
        ∨ (fracTime frame = 0
          ∧ next.Filling count (sec + 1) [savedEvent frame] 1
          ∧ next.fracSecValues = r.fracSecValues)) := by
  by_cases aborts : sec + 1 = 0 ∨ (fracTime frame = 0 ∧ count % 10 ≠ 0)
  · obtain ⟨_, received', waiting⟩ := syncing.abort std aborts
    obtain ⟨rfl, rfl⟩ := receive_unique received' received
    exact ⟨rfl, .inl waiting⟩
  · obtain ⟨notLast, healthy⟩ := not_or.mp aborts
    by_cases frac : fracTime frame = 0
    · have tens : count % 10 = 0 := by
        by_contra odd
        exact healthy ⟨frac, odd⟩
      obtain ⟨_, received', filling, values, _⟩ := syncing.finish notLast std frac tens
      obtain ⟨rfl, rfl⟩ := receive_unique received' received
      exact ⟨rfl, .inr (.inr ⟨frac, filling, values⟩)⟩
    · by_cases room : count.toNat < fracSecValuesLen
      · obtain ⟨_, received', syncing', _⟩ := syncing.save notLast std frac room
        obtain ⟨rfl, rfl⟩ := receive_unique received' received
        exact ⟨rfl, .inr (.inl syncing')⟩
      · rw [syncing.overrun notLast std frac room] at received
        cases received

/-- What a frame does while a second is being filled. -/
inductive FillStep (r : C37Reformat) (frame : C37Buffer) (sampleCnt : UInt16) (sec : UInt32)
    (events : List Block) (count : UInt16) : C37Reformat → List EventBuffer → Prop where
  | save {next : C37Reformat} (sameSec : time frame = sec) (frac : fracTime frame ≠ 0)
    (filling : next.Filling sampleCnt sec (events ++ [savedEvent frame]) (count + 1))
    (values : next.fracSecValues = r.fracSecValues)
    : FillStep r frame sampleCnt sec events count next []
  | advance {next : C37Reformat} (nextSec : time frame = sec + 1) (frac : fracTime frame = 0)
    (filling : next.Filling sampleCnt (sec + 1) [savedEvent frame] 1)
    (values : next.fracSecValues = r.fracSecValues)
    : FillStep r frame sampleCnt sec events count next [⟨events, sampleCnt⟩]
  | stray {next : C37Reformat} {count' : UInt16}
    (filling : next.Filling sampleCnt (time frame) events count')
    (values : next.fracSecValues = r.fracSecValues)
    : FillStep r frame sampleCnt sec events count next []
  | lose {next : C37Reformat} (waiting : next.Waiting)
    : FillStep r frame sampleCnt sec events count next []

theorem Filling.step (filling : r.Filling sampleCnt sec events count) (std : IsStd frame)
    (received : r.receive frame = some (next, out))
    : FillStep r frame sampleCnt sec events count next out := by
  by_cases save : time frame = sec ∧ fracTime frame ≠ 0
  · obtain ⟨_, received', filling', values, _⟩ := filling.save std save.1 save.2
    obtain ⟨rfl, rfl⟩ := receive_unique received' received
    exact .save save.1 save.2 filling' values
  · by_cases advance : time frame = sec + 1 ∧ fracTime frame = 0
    · obtain ⟨_, received', filling', values, _⟩ :=
        filling.advance std advance.1 advance.2
      obtain ⟨rfl, rfl⟩ := receive_unique received' received
      exact .advance advance.1 advance.2 filling' values
    · cases found : (List.range sampleCnt.toNat).find?
          (fun i => fracTime frame = r.fracSecValues i) with
      | some i =>
          obtain ⟨_, received', filling', values⟩ :=
            filling.stray std save advance found
          obtain ⟨rfl, rfl⟩ := receive_unique received' received
          exact .stray filling' values
      | none =>
          obtain ⟨_, received', waiting⟩ := filling.lose std save advance found
          obtain ⟨rfl, rfl⟩ := receive_unique received' received
          exact .lose waiting

/-- Every frame keeps the machine in one of the three places. -/
theorem Reached.step (reached : r.Reached) (received : r.receive frame = some (next, out))
    : next.Reached := by
  by_cases std : IsStd frame
  · cases reached with
    | waiting waiting =>
        obtain ⟨_, received', steps⟩ := waiting.step std
        obtain ⟨rfl, rfl⟩ := receive_unique received' received
        rcases steps with ⟨_, syncing⟩ | ⟨_, rfl⟩
        · exact .syncing syncing
        · exact .waiting waiting
    | @syncing sec count syncing =>
        rcases (syncing.step std received).2 with waiting | syncing' | ⟨_, filling, values⟩
        · exact .waiting waiting
        · exact .syncing syncing'
        · exact .learned
            (filling.learned syncing.positive ((congrFun values 0).trans syncing.firstValue))
    | learned learned =>
        have stays {next : C37Reformat} {sec : UInt32} {events : List Block}
            {count : UInt16} (filling : next.Filling r.sampleCnt sec events count)
            (values : next.fracSecValues = r.fracSecValues) : next.Reached :=
          .learned
            (filling.learned learned.positive ((congrFun values 0).trans learned.firstValue))
        cases learned.filling.step std received with
        | save _ _ filling values => exact stays filling values
        | advance _ _ filling values => exact stays filling values
        | stray filling values => exact stays filling values
        | lose waiting => exact .waiting waiting
  · rw [receive_nonStd std] at received
    obtain ⟨rfl, rfl⟩ := Prod.mk.inj (Option.some.inj received)
    exact reached.withNonStd _

end Step

theorem waiting_initial (fracSecValues : Nat → UInt32)
    : (initialReformat fracSecValues).Waiting :=
  ⟨rfl, rfl⟩

/-- A state that some frames lead to from the initial one. -/
def Reachable (r : C37Reformat) : Prop :=
  ∃ fracSecValues frames out, (initialReformat fracSecValues).run frames = some (r, out)

theorem Reachable.reached {r : C37Reformat} (reachable : r.Reachable) : r.Reached := by
  obtain ⟨fracSecValues, frames, out, ran⟩ := reachable
  have kept : ∀ state input next out, Reached state → receive state input = some (next, out)
      → Reached next ∧ ∀ result ∈ out, True :=
    fun _ _ _ _ reached received => ⟨reached.step received, fun _ _ => trivial⟩
  exact (OutputRun.run_invariant kept (.waiting (waiting_initial fracSecValues)) ran).1

end C37Reformat

end Sparcs.C37
