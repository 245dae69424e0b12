import Sparcs.Annotations.Unwrapping

/-! The annotation of the unwrapped phase: which channel's values its entries hold. -/

namespace Sparcs.Annotations

/-- `(6*(new-old) + 3*(old-veryold) + (veryold-veryveryold))` as the source scales it. -/
def stencil (new old veryOld veryVeryOld : ℚ) : ℚ :=
  (6 * (new - old) + 3 * (old - veryOld) + (veryOld - veryVeryOld)) / 190.98593171

/-- The derivatives at the values that follow three known ones. -/
def derivatives (old veryOld veryVeryOld : ℚ) : List ℚ → List ℚ
  | [] => []
  | new :: rest => stencil new old veryOld veryVeryOld :: derivatives new old veryOld rest

/-- The derivatives at the values of a second, with all unwrapped values before it; before the
first one the initial storage counts as unwrapped values.
-/
def derivativesAfter (before values : List ℚ) : List ℚ :=
  let last := before.reverse ++ [180, 180, 180]
  derivatives (last.getD 0 0) (last.getD 1 0) (last.getD 2 0) values

/-- An entry has a channel's first unwrapped value of the second, and least, greatest and mean
of its derivatives in the second.
-/
structure UnwrapEntry.Describes (entry : UnwrapEntry) (before values : List ℚ) : Prop where
  unwrap : ∃ first, entry.unwrap = some first ∧ values.head? = some first
  derivativeMin :
    ∃ least : ℚ,
      entry.derivativeMin = some (least : WithTop ℚ)
      ∧ IsLeast {x | x ∈ derivativesAfter before values} least
  derivativeMax :
    ∃ greatest : ℚ,
      entry.derivativeMax = some (greatest : WithBot ℚ)
      ∧ IsGreatest {x | x ∈ derivativesAfter before values} greatest
  derivativeAvg :
    entry.derivativeAvg = some ((derivativesAfter before values).sum / upmuSamplesPerSec)

/-- Every entry of a second's annotation describes its own channel. -/
def DescribesChannels (entries : Channel → UnwrapEntry) (before : List Second)
    (second : Second) : Prop :=
  ∀ channel,
    (entries channel).Describes (unwrappedValues channel initialMembers before)
      (unwrappedValues channel (unwrapSeconds initialMembers before).1 [second])

/-- The channel behind a channel in the arrays. -/
def Channel.next (channel : Channel) : Option Channel :=
  Channel.all[channel.index + 1]?

/-- Samples behind the first one leave `unwrap_rabbit` as it is. -/
theorem unwrapLoop_unwrapRabbit (indx : Nat) (angles : List ℚ) (state : Unwr × UnwrapArrays)
    : (unwrapLoop (indx + 1) angles state).2.unwrapRabbit = state.2.unwrapRabbit := by
  induction angles generalizing indx state with
  | nil => rfl
  | cons angle rest ih =>
      rw [unwrapLoop, ih]
      simp [unwrapStep, UnwrapArrays.add]

/-- After the loop `unwrap_rabbit` is the first unwrapped value. -/
theorem unwrapLoop_first (angles : List ℚ) (u : Unwr) (a : UnwrapArrays) (nonempty : angles ≠ [])
    : (unwrapLoop 0 angles (u, a)).2.unwrapRabbit = (u.values angles).head? := by
  cases angles with
  | nil => exact absurd rfl nonempty
  | cons angle rest =>
      rw [unwrapLoop, unwrapLoop_unwrapRabbit]
      rfl

section Second

variable (members : Channel → Unwr) (second : Second)

/-- An entry holds the first unwrapped value of the next channel, and nothing for C3. -/
theorem unwrapSecond_unwrap (channel : Channel)
    : ((unwrapSecond members second).2 channel).unwrap
      = channel.next.bind fun next => (unwrappedValues next members [second]).head? := by
  have nonempty (next : Channel) : second.angles next ≠ [] := by
    simp [Second.angles, second.nonempty]
  have first (next : Channel)
      : (unwrapLoop 0 (second.angles next) (members next, initialArrays next)).2.unwrapRabbit
        = (unwrappedValues next members [second]).head? := by
    rw [unwrapLoop_first _ _ _ (nonempty next), unwrappedValues, unwrappedValues,
      List.append_nil]
  change (readArray _ (channel.index + 1)).bind UnwrapArrays.unwrapRabbit = _
  rw [Channel.next, readArray]
  cases Channel.all[channel.index + 1]? with
  | none => rfl
  | some next => exact first next

end Second

/-- The annotations of a run are those of its seconds, each from where those before lead. -/
theorem unwrapSeconds_getElem (members : Channel → Unwr) (before after : List Second)
    (second : Second)
    : (unwrapSeconds members (before ++ second :: after)).2[before.length]?
      = some (unwrapSecond (unwrapSeconds members before).1 second).2 := by
  induction before generalizing members with
  | nil => rfl
  | cons head rest ih => exact ih (unwrapSecond members head).1

/-- In every run each annotation has the next channel's first value in place of the channel's,
and its entry for C3 is read behind the arrays, so it never describes its channels.
-/
theorem unwrapSeconds_not_describesChannels (before after : List Second) (second : Second)
    : ∃ entries,
        (unwrapSeconds initialMembers (before ++ second :: after)).2[before.length]?
          = some entries
        ∧ (∀ channel, (entries channel).unwrap
          = channel.next.bind fun next =>
            (unwrappedValues next (unwrapSeconds initialMembers before).1 [second]).head?)
        ∧ entries .c3 = ⟨none, none, none, none⟩
        ∧ ¬DescribesChannels entries before second := by
  refine ⟨_, unwrapSeconds_getElem initialMembers before after second,
    unwrapSecond_unwrap _ second, rfl, ?_⟩
  intro describes
  obtain ⟨first, value, -⟩ := (describes .c3).unwrap
  cases value

/-- A second whose L2 stays at 10, with 0 for all other angles. -/
def shiftedSecond : Second where
  samples :=
    List.replicate 120
      { mag := fun _ => 1, ang := fun channel => if channel = .l2 then 10 else 0 }
  full := List.length_replicate

/-- The entry of L1 holds 10, which is the value of L2, and that of C3 holds nothing. -/
theorem unwrapSecond_shiftedSecond
    : ((unwrapSecond initialMembers shiftedSecond).2 .l1).unwrap = some 10
      ∧ ((unwrapSecond initialMembers shiftedSecond).2 .c3).unwrap = none
      ∧ ¬DescribesChannels (unwrapSecond initialMembers shiftedSecond).2 [] shiftedSecond := by
  refine ⟨by decide +kernel, rfl, ?_⟩
  intro describes
  obtain ⟨first, value, -⟩ := (describes .c3).unwrap
  cases value

end Sparcs.Annotations
