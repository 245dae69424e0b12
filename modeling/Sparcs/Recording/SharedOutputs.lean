import Sparcs.Discovery.BufferSharing
import Sparcs.Recording.Archiving

/-! What the services put out that share the buffers of the discovery service: each of them runs as
it would by itself, on the buffers that are created.
-/

namespace Sparcs.Discovery.Sharing

open Archiver (ArchiverFunctions BufferProcessingRecord Service ServiceDataBuffer additive_eq
  additive_sublist outputs taken)
open Ftp.ServiceDataArchiver (Insert Setting functions idle insertOf inserts)
open Recording (ftpDue ftp_delivers ftp_loops)

variable {n : Nat} {α β ρ ο : Type} {archiver : Fin n → ArchiverFunctions α β ρ ο}
  {s next : Sharing n β ρ ο} {i : Fin n}

/-- The buffers taken are the first ones created. -/
theorem Sound.taken_prefix (sound : s.Sound) (i : Fin n)
    : taken (s.services i).history <+: s.created := by
  have inOrder := (sound.services i).sound.inOrder
  rw [(sound.services i).received] at inOrder
  have isPrefix := List.prefix_append (taken (s.services i).history) (s.services i).dataQueue
  rw [← inOrder] at isPrefix
  split_ifs at isPrefix with waits
  · exact isPrefix.trans (List.dropLast_prefix _)
  · exact isPrefix

/-- What a service has put out of what is due for the buffers created, if only some answers lose
anything.
-/
structure PutsOut (s : Sharing n β ρ ο) (i : Fin n) (due : β → List ο) (lossless : Prop)
    : Prop where
  part : (outputs (s.services i).history).Sublist (s.created.flatMap due)
  front : lossless → outputs (s.services i).history <+: s.created.flatMap due
  all
    : lossless → i ∉ s.discovery.todo → (s.services i).dataBuf = none →
        (s.services i).dataQueue = [] → outputs (s.services i).history = s.created.flatMap due

variable [DecidableEq β]

/-- A step of the whole is a step of the service or leaves it alone. -/
theorem Step.service (sound : s.Sound) (steps : Step archiver s next) (i : Fin n)
    : next.services i = s.services i
      ∨ Service.Step (archiver i) (s.services i) (next.services i) := by
  have updated {j : Fin n} {service : Service β ρ ο}
      (changes : Service.Step (archiver j) (s.services j) service)
      : Function.update s.services j service i = s.services i
        ∨ Service.Step (archiver i) (s.services i) (Function.update s.services j service i) := by
    by_cases same : i = j
    · subst same
      rw [Function.update_self]
      exact .inr changes
    · exact .inl (Function.update_of_ne same _ _)
  cases steps with
  | testCount => exact .inl rfl
  | giveUp => exact .inl rfl
  | create => exact .inl rfl
  | @testSize buf j remaining offering =>
      -- The discovery thread is between two offers.
      have outside := (sound.services j).outside fun buf remaining inside => by
        rw [offering] at inside
        cases inside
      exact updated (.testSize buf outside)
  | refused => exact .inl rfl
  | push _ pushing => exact updated (.push pushing)
  | dropReference => exact .inl rfl
  | loop steps => exact updated (.loop steps)
  | destruct => exact .inl rfl

/-- The loop of a service can run while the others wait. -/
theorem Step.loops {service : Service β ρ ο}
    (run : Relation.ReflTransGen (Service.LoopStep (archiver i)) (s.services i) service)
    : Relation.ReflTransGen (Step archiver) s
        { s with services := Function.update s.services i service } := by
  induction run with
  | refl => rw [Function.update_eq_self]
  | @tail between service _ steps ih =>
      let middle : Sharing n β ρ ο :=
        { s with services := Function.update s.services i between }
      have there : middle.services i = between := Function.update_self i between s.services
      have loop : Step archiver middle
          { middle with services := Function.update middle.services i service } :=
        .loop (there ▸ steps)
      have twice : Function.update middle.services i service
          = Function.update s.services i service :=
        Function.update_idem ..
      rw [twice] at loop
      exact ih.tail loop

/-- By itself, a service can reach what it reaches among the others. -/
theorem Reachable.service (reachable : s.Reachable archiver) (i : Fin n)
    : (s.services i).Reachable (archiver i) := by
  obtain ⟨bpr, run⟩ := reachable
  refine ⟨bpr i, ?_⟩
  induction run with
  | refl => exact .refl
  | @tail s next run steps ih =>
      have sound := Reachable.sound ⟨bpr, run⟩
      rcases steps.service sound i with same | changes
      · rw [same]
        exact ih
      · exact ih.tail changes

/-- For any number of services, in every order of the steps of all threads: nothing is put out twice
or out of order, nothing is missing while no answer loses anything, and at rest everything is out.
-/
theorem Reachable.putsOut {due : β → List ο} {progress : β → ρ → List ο → Prop} {lossless : Prop}
    (reachable : s.Reachable archiver)
    (part : (archiver i).Delivers (fun out due => out.Sublist due) due progress)
    (whole : lossless → (archiver i).Delivers (fun out due => out = due) due progress)
    : s.PutsOut i due lossless where
  part := by
    obtain ⟨front, isPrefix, sub⟩ := (reachable.service i).delivered_taken part
    exact (sub.trans isPrefix.sublist).trans
      ((reachable.sound.taken_prefix i).flatMap due).sublist
  front lossless := by
    obtain ⟨front, isPrefix, rfl⟩ := (reachable.service i).delivered_taken (whole lossless)
    exact isPrefix.trans ((reachable.sound.taken_prefix i).flatMap due)
  all lossless given idle empty := by
    have all := (reachable.service i).delivered_all (whole lossless) idle empty
    rwa [(reachable.sound.services i).received, if_neg given] at all

/-- A buffer of one second is created and offered to the first of two services, which archives it
while the second one waits.
-/
theorem shared_pass [DecidableEq ServiceDataBuffer] {buf : ServiceDataBuffer}
    (whole : 6312 ∣ buf.byteLen.toNat) (one : Ftp.records buf = 1)
    : ∃ s : Sharing 2 ServiceDataBuffer BufferProcessingRecord Insert,
        s.Reachable (fun _ => functions.under Setting.Good)
        ∧ s.discovery = .offering buf [1] ∧ s.created = [buf]
        ∧ (s.services 0).dataBuf = none ∧ (s.services 0).dataQueue = [] := by
  let archiver (_ : Fin 2) := functions.under Setting.Good
  let start : Sharing 2 ServiceDataBuffer BufferProcessingRecord Insert :=
    { services := fun _ => { bpr := ⟨0, 0, 0⟩ } }
  have test : (start.services 0).testSize buf
      = { start.services 0 with offering := .pushing buf 0 } :=
    Service.testSize_of_room (by simp [start]) buf
  have tested : Relation.ReflTransGen (Step archiver) start { start with discovery := .tested } :=
    .single (.testCount rfl (by decide))
  have created := tested.tail (.create buf rfl (by simp [start]))
  have first : Point.offering buf (List.finRange 2) = .offering buf (0 :: [1]) := rfl
  have inOffer := created.tail (.testSize first)
  have pushing : ((start.services 0).testSize buf).offering = .pushing buf 0 := by rw [test]
  have given := inOffer.tail (.push rfl (by simpa using pushing))
  obtain ⟨queued, run, discovery, isCreated, service⟩
      : ∃ queued : Sharing 2 ServiceDataBuffer BufferProcessingRecord Insert,
          Relation.ReflTransGen (Step archiver) start queued
          ∧ queued.discovery = .offering buf [1] ∧ queued.created = [buf]
          ∧ queued.services 0 = idle [buf] ⟨0, 0, 0⟩ [.offered buf 0 .accepted] := by
    refine ⟨_, given, rfl, rfl, ?_⟩
    simp only [Function.update_self, test]
    rfl
  obtain ⟨last, loops, atRest, empty⟩
      : ∃ last, Relation.ReflTransGen (Service.LoopStep (archiver 0)) (queued.services 0) last
          ∧ last.dataBuf = none ∧ last.dataQueue = [] := by
    rw [service]
    exact ⟨_, ftp_loops whole one ⟨0, 0, 0⟩ [.offered buf 0 .accepted], rfl, rfl⟩
  refine ⟨_, ⟨_, run.trans (Step.loops loops)⟩, discovery, isCreated, ?_, ?_⟩
  · simpa only [Function.update_self] using atRest
  · simpa only [Function.update_self] using empty

/-- A buffer of zeros. -/
theorem putsOut_second
    : ∃ s : Sharing 2 ServiceDataBuffer BufferProcessingRecord Insert,
        s.created = [⟨6312, Blocks.alloc 6312 fun _ => 0⟩]
        ∧ outputs (s.services 0).history
          = [insertOf ⟨6312, Blocks.alloc 6312 fun _ => 0⟩ 0] := by
  classical
  let buf : ServiceDataBuffer := ⟨6312, Blocks.alloc 6312 fun _ => 0⟩
  have whole : 6312 ∣ buf.byteLen.toNat := ⟨1, rfl⟩
  have one : Ftp.records buf = 1 := by decide
  obtain ⟨s, reachable, discovery, created, atRest, empty⟩ := shared_pass whole one
  have puts : s.PutsOut 0 ftpDue True :=
    reachable.putsOut (ftp_delivers additive_sublist fun _ _ _ => List.nil_sublist) fun _ =>
      ftp_delivers additive_eq fun setting good bad => absurd good bad
  have given : 0 ∉ s.discovery.todo := by simp [discovery, Point.todo]
  have all := puts.all trivial given atRest empty
  rw [created, List.flatMap_singleton, ftpDue, if_pos whole, inserts, one] at all
  exact ⟨s, created, all⟩

end Sparcs.Discovery.Sharing
