import Sparcs.Archiver.OfferQueue

/-! What an archiver puts out over whole runs, in every order of the steps of both threads. Each
buffer has results that should come of it; calls of `processData` bring them out piece by piece.
-/

namespace Sparcs.Archiver

variable {α β ρ ο : Type}

/-- How what has come out stands to what should have: alike, or a part of it, say. -/
structure Additive (related : List ο → List ο → Prop) : Prop where
  refl : ∀ due, related due due
  append
    : ∀ {out out' due due'}, related out due → related out' due' →
        related (out ++ out') (due ++ due')

theorem additive_eq : Additive (fun out due : List ο => out = due) :=
  ⟨fun _ => rfl, fun same same' => by rw [same, same']⟩

theorem additive_sublist : Additive (fun out due : List ο => out.Sublist due) :=
  ⟨.refl, .append⟩

/-- The archiver when only some answers are given. -/
def ArchiverFunctions.under (archiver : ArchiverFunctions α β ρ ο) (given : α → Prop)
    : ArchiverFunctions { answer // given answer } β ρ ο where
  preProcessData answer := archiver.preProcessData answer.1
  processData answer := archiver.processData answer.1

@[simp] theorem ArchiverFunctions.under_processData (archiver : ArchiverFunctions α β ρ ο)
    (given : α → Prop) (answer : { answer // given answer })
    : (archiver.under given).processData answer = archiver.processData answer.1 :=
  rfl

/-- The archiver brings out of each buffer what is due. The record `bpr` stands where `before` was
due so far if `progress buf bpr before` holds.
-/
structure ArchiverFunctions.Delivers (archiver : ArchiverFunctions α β ρ ο)
    (related : List ο → List ο → Prop) (due : β → List ο) (progress : β → ρ → List ο → Prop)
    : Prop where
  additive : Additive related
  inside : ∀ buf bpr before, progress buf bpr before → before <+: due buf
  abandons
    : ∀ answer bpr buf, (archiver.preProcessData answer bpr buf).1 ≤ 0 →
        related [] (due buf)
  begins
    : ∀ answer bpr buf, ¬(archiver.preProcessData answer bpr buf).1 ≤ 0 →
        progress buf (archiver.preProcessData answer bpr buf).2 []
  completes
    : ∀ answer bpr buf before, progress buf bpr before →
        (archiver.processData answer bpr buf).complete = true →
        ∃ more, due buf = before ++ more
          ∧ related (archiver.processData answer bpr buf).output more
  goesOn
    : ∀ answer bpr buf before, progress buf bpr before →
        (archiver.processData answer bpr buf).complete = false →
        ∃ more, progress buf (archiver.processData answer bpr buf).bpr (before ++ more)
          ∧ related (archiver.processData answer bpr buf).output more

@[simp] def QueueEvent.output? : QueueEvent β ο → Option ο
  | .output out => some out
  | _ => none

/-- All that came out, in order. -/
def outputs (history : List (QueueEvent β ο)) : List ο :=
  history.filterMap QueueEvent.output?

@[simp] theorem outputs_append (h more : List (QueueEvent β ο))
    : outputs (h ++ more) = outputs h ++ outputs more :=
  List.filterMap_append

@[simp] theorem outputs_cons (event : QueueEvent β ο) (h : List (QueueEvent β ο))
    : outputs (event :: h) = event.output?.toList ++ outputs h := by
  rw [outputs, List.filterMap_cons]
  cases event.output? <;> rfl

@[simp] theorem outputs_nil : outputs ([] : List (QueueEvent β ο)) = [] := rfl

@[simp] theorem outputs_output (out : List ο)
    : outputs (out.map (QueueEvent.output : ο → QueueEvent β ο)) = out := by
  induction out with
  | nil => rfl
  | cons first out ih => simp [ih]

variable {archiver : ArchiverFunctions α β ρ ο} {related : List ο → List ο → Prop}
  {due : β → List ο} {progress : β → ρ → List ο → Prop} {s next : Service β ρ ο}

/-- What is due has come out: of the finished buffers all, and of the one at work as much as its
record stands for.
-/
def Service.Delivered (related : List ο → List ο → Prop) (due : β → List ο)
    (progress : β → ρ → List ο → Prop) (s : Service β ρ ο) : Prop :=
  ∃ before, related (outputs s.history) ((finished s.history).flatMap due ++ before)
    ∧ match s.dataBuf with
      | none => before = []
      | some buf => progress buf s.bpr before

namespace Service.Delivered

/-- Events in which nothing comes out and no buffer is finished do not matter. -/
theorem quiet (delivered : s.Delivered related due progress)
    (outputs_ : outputs next.history = outputs s.history)
    (finished_ : finished next.history = finished s.history) (dataBuf : next.dataBuf = s.dataBuf)
    (bpr : next.bpr = s.bpr)
    : next.Delivered related due progress := by
  rw [Delivered, outputs_, finished_, dataBuf, bpr]
  exact delivered

theorem processStep (delivers : archiver.Delivers related due progress)
    (delivered : s.Delivered related due progress) (answer : α)
    : (s.processStep archiver answer).Delivered related due progress := by
  obtain ⟨before, come, work⟩ := delivered
  rw [Service.processStep]
  cases working : s.dataBuf with
  | none => exact ⟨before, come, by rw [working] at work ⊢; exact work⟩
  | some buf =>
      rw [working] at work
      simp only
      split_ifs with complete
      · obtain ⟨more, whole, out⟩ :=
          delivers.completes answer s.bpr buf before work complete
        refine ⟨[], ?_, rfl⟩
        have all := delivers.additive.append come out
        rw [List.append_assoc, ← whole] at all
        simpa using all
      · obtain ⟨more, work', out⟩ :=
          delivers.goesOn answer s.bpr buf before work (by simpa using complete)
        refine ⟨before ++ more, ?_, work'⟩
        have all := delivers.additive.append come out
        rw [List.append_assoc] at all
        simpa using all

/-- A buffer is taken when no other is at work. -/
theorem takeFront (delivers : archiver.Delivers related due progress)
    (delivered : s.Delivered related due progress) (idle : s.dataBuf = none)
    (answer : α) (buf : β) (rest : List β)
    : (s.takeFront archiver answer buf rest).Delivered related due progress := by
  obtain ⟨before, come, nothingLeft⟩ := delivered
  rw [idle] at nothingLeft
  obtain rfl : before = [] := nothingLeft
  rw [List.append_nil] at come
  rw [Service.takeFront]
  split_ifs with refused
  · refine ⟨[], ?_, rfl⟩
    have all :=
      delivers.additive.append come (delivers.abandons answer s.bpr buf refused)
    simpa using all
  · refine ⟨[], ?_, delivers.begins answer s.bpr buf refused⟩
    simpa using come

theorem step (delivers : archiver.Delivers related due progress) (sound : s.Sound)
    (delivered : s.Delivered related due progress)
    (steps : Service.Step archiver s next)
    : next.Delivered related due progress := by
  cases steps with
  | testSize buf _ =>
      rw [Service.testSize]
      split
      · exact delivered.quiet (by simp) (by simp) rfl rfl
      · exact delivered
  | push _ =>
      exact delivered.quiet (by simp [Service.push]) (by simp [Service.push]) rfl rfl
  | loop steps =>
      cases steps with
      | loopTop answer _ =>
          rw [Service.loopTop]
          split_ifs
          · exact delivered.processStep delivers answer
          · exact delivered
          · exact delivered
      | takeFront answer taking _ =>
          exact delivered.takeFront delivers (sound.frontThere taking).1 answer _ _
      | stop => exact delivered

end Service.Delivered

/-- In every order of the steps of both threads. -/
theorem Service.Reachable.delivered (delivers : archiver.Delivers related due progress)
    (reachable : s.Reachable archiver)
    : s.Delivered related due progress := by
  obtain ⟨bpr, run⟩ := reachable
  have holds : s.Sound ∧ s.Delivered related due progress := by
    induction run with
    | refl => exact ⟨.initial bpr, [], delivers.additive.refl [], rfl⟩
    | tail _ steps ih => exact ⟨ih.1.step steps, ih.2.step delivers ih.1 steps⟩
  exact holds.2

/-- At any time, what has come out is part of what is due for the buffers taken, in this order. -/
theorem Service.Reachable.delivered_taken (delivers : archiver.Delivers related due progress)
    (reachable : s.Reachable archiver)
    : ∃ front, front <+: (taken s.history).flatMap due ∧ related (outputs s.history) front := by
  obtain ⟨before, come, work⟩ := reachable.delivered delivers
  refine ⟨_, ?_, come⟩
  rw [reachable.sound.atWork, List.flatMap_append, List.prefix_append_right_inj]
  cases working : s.dataBuf with
  | none =>
      rw [working] at work
      exact work ▸ List.nil_prefix
  | some buf =>
      rw [working] at work
      simpa using delivers.inside buf s.bpr before work

/-- When everything accepted has been worked off, everything that is due for it has come out. -/
theorem Service.Reachable.delivered_all (delivers : archiver.Delivers related due progress)
    (reachable : s.Reachable archiver) (idle : s.dataBuf = none)
    (empty : s.dataQueue = [])
    : related (outputs s.history) ((accepted s.history).flatMap due) := by
  obtain ⟨before, come, nothingLeft⟩ := reachable.delivered delivers
  rw [idle] at nothingLeft
  obtain rfl : before = [] := nothingLeft
  have inOrder := reachable.sound.inOrder
  have atWork := reachable.sound.atWork
  rw [empty, List.append_nil] at inOrder
  rw [idle, Option.toList_none, List.append_nil] at atWork
  rwa [List.append_nil, ← atWork, ← inOrder] at come

/-- What has come out at any time, if only some answers lose anything. -/
structure Service.PutOut (due : β → List ο) (lossless : Prop) (s : Service β ρ ο) : Prop where
  part : (outputs s.history).Sublist ((taken s.history).flatMap due)
  front : lossless → outputs s.history <+: (taken s.history).flatMap due
  all
    : lossless → s.dataBuf = none → s.dataQueue = [] →
        outputs s.history = (accepted s.history).flatMap due

theorem Service.Reachable.putOut {lossless : Prop}
    (part : archiver.Delivers (fun out due => out.Sublist due) due progress)
    (whole : lossless → archiver.Delivers (fun out due => out = due) due progress)
    (reachable : s.Reachable archiver)
    : s.PutOut due lossless where
  part := by
    obtain ⟨front, isPrefix, sub⟩ := reachable.delivered_taken part
    exact sub.trans isPrefix.sublist
  front lossless := by
    obtain ⟨front, isPrefix, rfl⟩ := reachable.delivered_taken (whole lossless)
    exact isPrefix
  all lossless idle empty := reachable.delivered_all (whole lossless) idle empty

end Sparcs.Archiver
