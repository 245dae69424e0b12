import Sparcs.Library.Unwrap
import Sparcs.Annotations.Samples

/-! The unwrapping of the six channels' angles and its annotation. The unwrapped values of a
channel are a track of its angles' remainders over all seconds.
-/

namespace Sparcs.Annotations

/-- What the members `unwr_base`, `unwr_tmp_old`, `unwr_tmp_very_old` and
`unwr_tmp_very_very_old` hold for one channel.
-/
structure Unwr where
  base : ℚ := 0
  tmpOld : ℚ := 180
  tmpVeryOld : ℚ := 180
  tmpVeryVeryOld : ℚ := 180
  deriving DecidableEq

/-- What the local arrays of a second hold for one channel; `unwrapRabbit` is unset at first. -/
structure UnwrapArrays where
  unwrapRabbit : Option ℚ
  derivativeMin : WithTop ℚ
  derivativeMax : WithBot ℚ
  derivativeAvg : ℚ
  deriving DecidableEq

/-- The initialisers give three elements; the others are zero. -/
def initialArrays (channel : Channel) : UnwrapArrays where
  unwrapRabbit := none
  derivativeMin := if channel.index < 3 then ⊤ else (0 : ℚ)
  derivativeMax := if channel.index < 3 then ⊥ else (0 : ℚ)
  derivativeAvg := 0

/-- `fmod(angle,360)+unwr_base` with its correction: the new base and `unwr_tmp_new`. -/
def Unwr.correct (u : Unwr) (angle : ℚ) : ℚ × ℚ :=
  let tmpNew := fmod angle 360 + u.base
  if tmpNew - u.tmpOld > 180 then (u.base - 360, tmpNew - 360)
  else if tmpNew - u.tmpOld < -180 then (u.base + 360, tmpNew + 360)
  else (u.base, tmpNew)

/-- `derivative_temp`, which takes `unwr_tmp_very_old` twice. -/
def Unwr.derivativeTemp (u : Unwr) (tmpNew : ℚ) : ℚ :=
  (6 * tmpNew - 3 * u.tmpOld - 2 * u.tmpVeryOld - u.tmpVeryOld) / 190.98593171

/-- The update of the storage, where `unwr_tmp_very_very_old` is never assigned. -/
def Unwr.store (u : Unwr) (base tmpNew : ℚ) : Unwr :=
  { u with
    base
    tmpVeryOld := u.tmpOld
    tmpOld := tmpNew }

def UnwrapArrays.add (a : UnwrapArrays) (indx : Nat) (tmpNew derivativeTemp : ℚ)
    : UnwrapArrays where
  unwrapRabbit := if indx = 0 then some tmpNew else a.unwrapRabbit
  derivativeMin :=
    if (derivativeTemp : WithTop ℚ) < a.derivativeMin then derivativeTemp else a.derivativeMin
  derivativeMax :=
    if a.derivativeMax < (derivativeTemp : WithBot ℚ) then derivativeTemp else a.derivativeMax
  derivativeAvg := a.derivativeAvg + derivativeTemp / upmuSamplesPerSec

/-- One turn of the loop over the channels, for the angle of sample `indx`. -/
def unwrapStep (indx : Nat) (angle : ℚ) (state : Unwr × UnwrapArrays) : Unwr × UnwrapArrays :=
  let (base, tmpNew) := state.1.correct angle
  (state.1.store base tmpNew, state.2.add indx tmpNew (state.1.derivativeTemp tmpNew))

/-- The sample loop for one channel, whose turns do not look at other channels. -/
def unwrapLoop : (indx : Nat) → List ℚ → Unwr × UnwrapArrays → Unwr × UnwrapArrays
  | _, [], state => state
  | indx, angle :: rest, state => unwrapLoop (indx + 1) rest (unwrapStep indx angle state)

def Second.angles (second : Second) (channel : Channel) : List ℚ :=
  second.samples.map fun x => x.ang channel

/-- An entry such as `ANN_UNWRAP_L1`; `none` is a value that is read out of range or unset. -/
structure UnwrapEntry where
  unwrap : Option ℚ
  derivativeMin : Option (WithTop ℚ)
  derivativeMax : Option (WithBot ℚ)
  derivativeAvg : Option ℚ
  deriving DecidableEq

/-- The entry of a channel is read at the index behind the channel's. -/
def unwrapEntry (arrays : Channel → UnwrapArrays) (channel : Channel) : UnwrapEntry :=
  let array := readArray arrays (channel.index + 1)
  { unwrap := array.bind UnwrapArrays.unwrapRabbit
    derivativeMin := array.map UnwrapArrays.derivativeMin
    derivativeMax := array.map UnwrapArrays.derivativeMax
    derivativeAvg := array.map UnwrapArrays.derivativeAvg }

/-- The unwrapping of one second, with the annotation that is published for it. -/
def unwrapSecond (members : Channel → Unwr) (second : Second)
    : (Channel → Unwr) × (Channel → UnwrapEntry) :=
  let loop := fun channel =>
    unwrapLoop 0 (second.angles channel) (members channel, initialArrays channel)
  (fun channel => (loop channel).1, unwrapEntry fun channel => (loop channel).2)

/-- Seconds one after the other, with their annotations. -/
def unwrapSeconds : (Channel → Unwr) → List Second
    → (Channel → Unwr) × List (Channel → UnwrapEntry)
  | members, [] => (members, [])
  | members, second :: rest =>
      let (next, entries) := unwrapSecond members second
      let (final, later) := unwrapSeconds next rest
      (final, entries :: later)

/-- The member initialisers. -/
def initialMembers : Channel → Unwr := fun _ => {}

/-! The unwrapped values, which the source has in `unwr_tmp_new` one after the other. -/

/-- The values of `unwr_tmp_new` over the angles. -/
def Unwr.values : Unwr → List ℚ → List ℚ
  | _, [] => []
  | u, angle :: rest =>
      let (base, tmpNew) := u.correct angle
      tmpNew :: (u.store base tmpNew).values rest

/-- The unwrapped values of a channel over seconds, from the second's own state on. -/
def unwrappedValues (channel : Channel) : (Channel → Unwr) → List Second → List ℚ
  | _, [] => []
  | members, second :: rest =>
      (members channel).values (second.angles channel)
        ++ unwrappedValues channel (unwrapSecond members second).1 rest

open Unwrap (Track)

def Unwr.track (u : Unwr) : Track ℚ :=
  { base := u.base, old := u.tmpOld }

/-- The storage after one angle is one step of the track with the angle's remainder. -/
theorem Unwr.track_step (u : Unwr) (angle : ℚ)
    : (u.store (u.correct angle).1 (u.correct angle).2).track
        = u.track.step 180 (fmod angle 360) := by
  have period : (2 : ℚ) * 180 = 360 := by norm_num
  simp only [Unwr.store, Unwr.track, Unwr.correct, Track.step, period]
  split_ifs <;> rfl

theorem Unwr.values_eq (u : Unwr) (angles : List ℚ)
    : u.values angles = u.track.values 180 (angles.map fun angle => fmod angle 360) := by
  induction angles generalizing u with
  | nil => rfl
  | cons angle rest ih =>
      rw [List.map_cons, Track.values, ← u.track_step angle, ← ih]
      rfl

/-- The sample loop leaves the track run over the angles. -/
theorem unwrapLoop_track (indx : Nat) (angles : List ℚ) (state : Unwr × UnwrapArrays)
    : (unwrapLoop indx angles state).1.track
      = state.1.track.run 180 (angles.map fun angle => fmod angle 360) := by
  induction angles generalizing indx state with
  | nil => rfl
  | cons angle rest ih =>
      rw [unwrapLoop, ih, List.map_cons, Track.run, Track.run, List.foldl_cons]
      congr 1
      exact state.1.track_step angle

/-- All seconds together are one track of the channel's remainders, by induction over them. -/
theorem unwrappedValues_eq (channel : Channel) (members : Channel → Unwr)
    (seconds : List Second)
    : unwrappedValues channel members seconds
      = (members channel).track.values 180
        ((seconds.flatMap fun second => second.angles channel).map fun angle =>
          fmod angle 360) := by
  induction seconds generalizing members with
  | nil => rfl
  | cons second rest ih =>
      have next : ((unwrapSecond members second).1 channel).track
          = (members channel).track.run 180
            ((second.angles channel).map fun angle => fmod angle 360) :=
        unwrapLoop_track 0 _ _
      rw [unwrappedValues, ih, next, Unwr.values_eq, List.flatMap_cons, List.map_append,
        Track.values_append]

/-- Each value is congruent to its angle, and consecutive values are at most 180 apart. -/
structure IsUnwrapping (values angles : List ℚ) : Prop where
  congruent : List.Forall₂ (fun value angle => value ≡ angle [PMOD 360]) values angles
  close : List.IsChain (fun value next => |next - value| ≤ 180) values

/-- The unwrapped values of a channel over any seconds are an unwrapping just when the
remainders of consecutive angles are at most 540 apart: then one correction is enough.
-/
theorem unwrappedValues_isUnwrapping_iff (channel : Channel) (seconds : List Second)
    : IsUnwrapping (unwrappedValues channel initialMembers seconds)
        (seconds.flatMap fun second => second.angles channel)
      ↔ List.IsChain (fun angle next => |fmod next 360 - fmod angle 360| ≤ 540)
        (seconds.flatMap fun second => second.angles channel) := by
  generalize angles : (seconds.flatMap fun second => second.angles channel) = all
  have multiple : (initialMembers channel).track.base ≡ 0 [PMOD (2 * 180 : ℚ)] :=
    AddCommGroup.modEq_rfl
  have close := Track.values_close_iff (initialMembers channel).track
    (by norm_num : (0 : ℚ) < 180) (all.map fun angle => fmod angle 360)
  have congruent := Track.values_modEq (initialMembers channel).track
    (all.map fun angle => fmod angle 360) multiple
  have bound : (3 : ℚ) * 180 = 540 := by norm_num
  have period : (2 : ℚ) * 180 = 360 := by norm_num
  rw [bound, List.isChain_map] at close
  rw [period, List.forall₂_map_right_iff] at congruent
  rw [unwrappedValues_eq, angles]
  constructor
  · intro unwrapping
    exact close.mp unwrapping.close
  · intro near
    refine ⟨congruent.imp ?_, close.mpr near⟩
    intro value angle same
    exact same.trans (fmod_modEq angle 360)

/-- A second whose L2 goes from -350 to 350, that is on by -20 modulo 360. -/
def jumpSecond : Second where
  samples :=
    { mag := fun _ => 1, ang := fun channel => if channel = .l2 then -350 else 0 }
      :: List.replicate 119
        { mag := fun _ => 1, ang := fun channel => if channel = .l2 then 350 else 0 }
  full := by rw [List.length_cons, List.length_replicate]; rfl

/-- It is unwrapped as 10 and 350. -/
theorem unwrappedValues_jumpSecond
    : (unwrappedValues .l2 initialMembers [jumpSecond]).take 2 = [10, 350]
      ∧ ¬IsUnwrapping (unwrappedValues .l2 initialMembers [jumpSecond])
        ([jumpSecond].flatMap fun second => second.angles .l2) := by
  have values : (unwrappedValues .l2 initialMembers [jumpSecond]).take 2 = [10, 350] := by
    decide +kernel
  refine ⟨values, ?_⟩
  intro unwrapping
  have close := unwrapping.close.take 2
  rw [values, List.isChain_cons_cons] at close
  exact absurd close.1 (by norm_num)

end Sparcs.Annotations
