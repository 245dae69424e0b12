import Sparcs.C37.Recovery
import Sparcs.C37.Reached

/-! How the count of a full second is learned, or kept wrong, once all seconds are complete. -/

namespace Sparcs.C37

open Blocks (Block)

namespace C37Reformat

/-- At the end of the second `sec` with `count` samples, no wrong count is learned. -/
inductive Ready (r : C37Reformat) (sec : UInt32) (count : UInt16) : Prop where
  | waiting (waiting : r.Waiting)
  | syncing (syncing : r.Syncing sec count)
  | filling {events : List Block} {count' : UInt16} (filling : r.Filling 120 sec events count')

section Seconds

variable {r : C37Reformat} {sec : UInt32} {head : C37Buffer} {rest : List C37Buffer}

/-- A second is skipped from where the synchronisation was given up at its first frame. -/
theorem Syncing.abortSecond {present : UInt32} {count : UInt16}
    (syncing : r.Syncing present count) (fails : present + 1 = 0 ∨ count % 10 ≠ 0)
    (second : IsSecond sec head rest)
    : ∃ next, r.run (head :: rest) = some (next, []) ∧ next.Waiting := by
  obtain ⟨next, received, waiting⟩ :=
    syncing.abort second.headStd (fails.imp_right fun odd => ⟨second.headFrac, odd⟩)
  exact ⟨next, OutputRun.run_cons received (waiting.skips second.restStd second.restFrac),
    waiting⟩

/-- The second that is counted first is counted as a whole, unless it is the last one that
the clock can show.
-/
theorem Waiting.second (waiting : r.Waiting) (second : IsSecond sec head rest)
    (room : (head :: rest).length ≤ fracSecValuesLen)
    : ∃ next,
        r.run (head :: rest) = some (next, [])
        ∧ next.Ready sec (UInt16.ofNat (head :: rest).length) := by
  by_cases last : sec + 1 = 0
  · obtain ⟨started, received, syncing, _⟩ := waiting.start second.headStd second.headFrac
    rw [second.headTime] at syncing
    cases rest with
    | nil => exact ⟨started, OutputRun.run_cons received rfl, .syncing syncing⟩
    | cons frame rest =>
        obtain ⟨next, received', waiting'⟩ :=
          syncing.abort (second.restStd frame (by simp)) (.inl last)
        have skips := waiting'.skips
          (fun f member => second.restStd f (List.mem_cons_of_mem _ member))
          (fun f member => second.restFrac f (List.mem_cons_of_mem _ member))
        exact ⟨next, OutputRun.run_cons received (OutputRun.run_cons received' skips),
          .waiting waiting'⟩
  · obtain ⟨next, ran, syncing, _⟩ := waiting.sync last second room
    exact ⟨next, ran, .syncing syncing⟩

/-- A second of at most 120 frames after a complete one. -/
theorem Ready.second (ready : r.Ready sec 120) (second : IsSecond (sec + 1) head rest)
    (room : (head :: rest).length ≤ 120)
    : ∃ next out,
        r.run (head :: rest) = some (next, out)
        ∧ next.Ready (sec + 1) (UInt16.ofNat (head :: rest).length)
        ∧ ∀ block ∈ out, block.sampleCnt = 120 := by
  cases ready with
  | waiting waiting =>
      obtain ⟨next, ran, ready'⟩ := waiting.second second (room.trans (by decide))
      exact ⟨next, [], ran, ready', by simp⟩
  | syncing syncing =>
      by_cases last : sec + 1 = 0
      · obtain ⟨next, ran, waiting⟩ := syncing.abortSecond (.inl last) second
        exact ⟨next, [], ran, .waiting waiting, by simp⟩
      · obtain ⟨next, ran, filling, _⟩ := syncing.second last (by decide) second
        exact ⟨next, [], ran, .filling filling, by simp⟩
  | filling filling =>
      obtain ⟨next, ran, filling', _⟩ := filling.second second
      exact ⟨next, _, ran, .filling filling', by simp⟩

/-- Complete seconds after a complete one, by induction over them. -/
theorem Ready.seconds (ready : r.Ready sec 120) {pattern : List UInt32}
    (length : pattern.length = 120) {seconds : List (List C37Buffer)}
    (complete : Complete pattern (sec + 1) seconds)
    : ∃ final out,
        r.run seconds.flatten = some (final, out) ∧ ∀ block ∈ out, block.sampleCnt = 120 := by
  induction seconds generalizing r sec with
  | nil => exact ⟨r, [], rfl, by simp⟩
  | cons second later ih =>
      obtain ⟨room, whole, complete'⟩ := complete.cons_inv
      rw [length] at room
      cases complete.consecutive with
      | @cons _ head rest _ now _ =>
          obtain ⟨next, out, ran, ready', full⟩ := ready.second now room
          cases later with
          | nil =>
              rw [List.flatten_cons, List.flatten_nil, List.append_nil]
              exact ⟨next, out, ran, full⟩
          | cons next' later =>
              have samples : (head :: rest).length = 120 := by
                rw [← length, ← whole (by simp), List.length_map]
              rw [samples] at ready'
              obtain ⟨final, out', ran', full'⟩ := ih ready' complete'
              refine ⟨final, out ++ out', ?_, ?_⟩
              · rw [List.flatten_cons]
                exact OutputRun.run_append ran ran'
              · intro block member
                rcases List.mem_append.mp member with old | new
                · exact full block old
                · exact full' block new

end Seconds

/-- A machine that starts to fill the wrong second stays in the state, because it does so
in the right one or because the fraction of the second frame is in the array.
-/
def Keeps (r : C37Reformat) (pattern : List UInt32) (sec : UInt32) : Prop :=
  r.presentSec + 1 = sec
  ∨ ∃ i, i < r.sampleCnt.toNat ∧ pattern[1]? = some (r.fracSecValues i)

/-- The count of a full second is 120 or will be learned anew. -/
structure LearnsFull (r : C37Reformat) (pattern : List UInt32) (sec : UInt32) : Prop where
  filling : r.currentState = .fillBuffer → r.sampleCnt = 120
  syncing
    : r.currentState = .syncToSec → r.syncStarted = true → r.presentSec + 1 ≠ 0
      → r.sampleCnt % 10 = 0 → r.Keeps pattern sec → r.sampleCnt = 120

section First

variable {r : C37Reformat} {sec : UInt32} {count sampleCnt : UInt16} {head : C37Buffer}
  {rest : List C37Buffer} {pattern : List UInt32}

/-- A machine that fills another second than that of the frames goes on in theirs if it
finds the fraction of the first one.
-/
theorem Filling.enter {present : UInt32} {events : List Block}
    (filling : r.Filling sampleCnt present events count) (other : present ≠ sec)
    (std : ∀ frame ∈ head :: rest, IsStd frame)
    (sameSec : ∀ frame ∈ head :: rest, time frame = sec)
    (frac : ∀ frame ∈ head :: rest, fracTime frame ≠ 0)
    : ∃ next,
        r.run (head :: rest) = some (next, [])
        ∧ if ∃ i, i < sampleCnt.toNat ∧ fracTime head = r.fracSecValues i then
            ∃ events' count', next.Filling sampleCnt sec events' count'
          else
            next.Waiting := by
  have headSec := sameSec head List.mem_cons_self
  have headFrac := frac head List.mem_cons_self
  have notSave : ¬(time head = present ∧ fracTime head ≠ 0) := by
    rw [headSec]
    exact fun both => other both.1.symm
  have notNext : ¬(time head = present + 1 ∧ fracTime head = 0) :=
    fun both => headFrac both.2
  have std' : ∀ frame ∈ rest, IsStd frame := fun f member => std f (List.mem_cons_of_mem _ member)
  have frac' : ∀ frame ∈ rest, fracTime frame ≠ 0 :=
    fun f member => frac f (List.mem_cons_of_mem _ member)
  cases found : (List.range sampleCnt.toNat).find?
      (fun i => fracTime head = r.fracSecValues i) with
  | some i =>
      obtain ⟨moved, received, filling', _⟩ :=
        filling.stray (std head List.mem_cons_self) notSave notNext found
      rw [headSec] at filling'
      obtain ⟨next, ran, filling'', _⟩ := filling'.rest std'
        (fun f member => sameSec f (List.mem_cons_of_mem _ member)) frac'
      have known : ∃ i, i < sampleCnt.toNat ∧ fracTime head = r.fracSecValues i :=
        ⟨i, List.mem_range.mp (List.mem_of_find?_eq_some found),
          by simpa using List.find?_some found⟩
      refine ⟨next, OutputRun.run_cons received ran, ?_⟩
      rw [if_pos known]
      exact ⟨_, _, filling''⟩
  | none =>
      obtain ⟨moved, received, waiting⟩ :=
        filling.lose (std head List.mem_cons_self) notSave notNext found
      have unknown : ¬∃ i, i < sampleCnt.toNat ∧ fracTime head = r.fracSecValues i := by
        intro known
        obtain ⟨i, inside, same⟩ := known
        have unlearned := List.find?_eq_none.mp found i (List.mem_range.mpr inside)
        simp [same] at unlearned
      refine ⟨moved, OutputRun.run_cons received (waiting.skips std' frac'), ?_⟩
      rw [if_neg unknown]
      exact waiting

/-- A second after one that ended the count, whatever second that was. -/
theorem Syncing.first (syncing : r.Syncing r.presentSec r.sampleCnt)
    (notLast : r.presentSec + 1 ≠ 0) (healthy : r.sampleCnt % 10 = 0)
    (second : IsSecond sec head rest) (fractions : (head :: rest).map fracTime = pattern)
    (more : 2 ≤ pattern.length)
    : ∃ next,
        r.run (head :: rest) = some (next, [])
        ∧ (r.Keeps pattern sec
          → ∃ events count', next.Filling r.sampleCnt sec events count')
        ∧ (¬r.Keeps pattern sec → next.Waiting) := by
  by_cases nextSec : r.presentSec + 1 = sec
  · rw [← nextSec] at second ⊢
    obtain ⟨next, ran, filling, _⟩ := syncing.second notLast healthy second
    exact ⟨next, ran, fun _ => ⟨_, _, filling⟩, fun strays => absurd (.inl rfl) strays⟩
  · obtain ⟨started, received, filling, values, _⟩ :=
      syncing.finish notLast second.headStd second.headFrac healthy
    cases rest with
    | nil =>
        rw [← fractions] at more
        exact absurd more (by simp)
    | cons frame rest =>
        obtain ⟨next, ran, result⟩ :=
          filling.enter nextSec second.restStd second.restTime second.restFrac
        have second' : pattern[1]? = some (fracTime frame) := by
          rw [← fractions]
          rfl
        have keeps_iff : r.Keeps pattern sec
            ↔ ∃ i, i < r.sampleCnt.toNat ∧ fracTime frame = started.fracSecValues i := by
          rw [Keeps, or_iff_right nextSec, second', values]
          simp only [Option.some.injEq]
        refine ⟨next, OutputRun.run_cons received ran, ?_, ?_⟩
        · intro keeps
          rw [if_pos (keeps_iff.mp keeps)] at result
          exact result
        · intro strays
          rw [if_neg (mt keeps_iff.mpr strays)] at result
          exact result

/-- After the first complete second, a machine that can be reached either is ready for
complete seconds or fills one with another count.
-/
theorem Reached.first (reached : r.Reached) (second : IsSecond sec head rest)
    (fractions : (head :: rest).map fracTime = pattern) (length : pattern.length = 120)
    : ∃ next out,
        r.run (head :: rest) = some (next, out)
        ∧ (r.LearnsFull pattern sec → next.Ready sec 120)
        ∧ (¬r.LearnsFull pattern sec
          → ∃ sampleCnt events count,
            sampleCnt ≠ 120 ∧ next.Filling sampleCnt sec events count) := by
  have samples : (head :: rest).length = 120 := by
    rw [← length, ← fractions, List.length_map]
  cases reached with
  | waiting waiting =>
      obtain ⟨next, ran, ready⟩ := waiting.second second (by rw [samples]; decide)
      rw [samples] at ready
      have learns : r.LearnsFull pattern sec := by
        refine ⟨?_, ?_⟩
        · intro state
          rw [waiting.state] at state
          cases state
        · intro _ started
          rw [waiting.notStarted] at started
          cases started
      exact ⟨next, [], ran, fun _ => ready, fun spoilt => absurd learns spoilt⟩
  | syncing syncing =>
      obtain ⟨state, started, rfl, rfl, _, _, _⟩ := id syncing
      have notFilling : r.currentState ≠ .fillBuffer := by
        rw [state]
        decide
      by_cases fails : r.presentSec + 1 = 0 ∨ r.sampleCnt % 10 ≠ 0
      · obtain ⟨next, ran, waiting⟩ := syncing.abortSecond fails second
        have learns : r.LearnsFull pattern sec := by
          refine ⟨fun filling => absurd filling notFilling, ?_⟩
          intro _ _ notLast healthy
          exact absurd fails (not_or.mpr ⟨notLast, not_not.mpr healthy⟩)
        exact ⟨next, [], ran, fun _ => .waiting waiting, fun spoilt => absurd learns spoilt⟩
      · obtain ⟨notLast, healthy⟩ := not_or.mp fails
        obtain ⟨next, ran, keeps, strays⟩ :=
          syncing.first notLast (not_not.mp healthy) second fractions (by omega)
        refine ⟨next, [], ran, ?_, ?_⟩
        · intro learns
          by_cases kept : r.Keeps pattern sec
          · obtain ⟨events, count, filling⟩ := keeps kept
            rw [learns.syncing state started notLast (not_not.mp healthy) kept] at filling
            exact .filling filling
          · exact .waiting (strays kept)
        · intro spoilt
          by_cases kept : r.Keeps pattern sec
          · obtain ⟨events, count, filling⟩ := keeps kept
            refine ⟨_, events, count, ?_, filling⟩
            intro full
            exact spoilt ⟨fun filling => absurd filling notFilling, fun _ _ _ _ _ => full⟩
          · have learns : r.LearnsFull pattern sec :=
              ⟨fun filling => absurd filling notFilling,
                fun _ _ _ _ keeps => absurd keeps kept⟩
            exact absurd learns spoilt
  | learned learned =>
      obtain ⟨next, out, events, ran, filling, _⟩ := learned.second second
      have notSyncing : r.currentState ≠ .syncToSec := by
        rw [learned.state]
        decide
      refine ⟨next, out, ran, ?_, ?_⟩
      · intro learns
        rw [learns.filling learned.state] at filling
        exact .filling filling
      · intro spoilt
        refine ⟨_, events, _, ?_, filling⟩
        intro full
        exact spoilt ⟨fun _ => full, fun state => absurd state notSyncing⟩

end First

end C37Reformat

end Sparcs.C37
