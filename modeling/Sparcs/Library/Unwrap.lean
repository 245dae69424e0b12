import Mathlib

/-! Unwrapping of a quantity that is known modulo a period: to each raw value a multiple of the
period is added, which moves by one period where the result would jump by more than half of
one.
-/

namespace Unwrap

variable {κ : Type} [Field κ] [LinearOrder κ]

/-- The multiple of the period in use and the latest unwrapped value. -/
structure Track (κ : Type) where
  base : κ
  old : κ

variable (half : κ)

/-- One raw value, with `half` of the period; at most one correction is made. -/
def Track.step (t : Track κ) (raw : κ) : Track κ :=
  let new := raw + t.base
  if new - t.old > half then
    { base := t.base - 2 * half, old := new - 2 * half }
  else if new - t.old < -half then
    { base := t.base + 2 * half, old := new + 2 * half }
  else
    { base := t.base, old := new }

/-- The unwrapped values of a sequence of raw ones. -/
def Track.values : Track κ → List κ → List κ
  | _, [] => []
  | t, raw :: rest => (t.step half raw).old :: (t.step half raw).values rest

/-- The track after a sequence of raw values. -/
def Track.run (t : Track κ) (raws : List κ) : Track κ :=
  raws.foldl (Track.step half) t

variable {half}

theorem Track.values_append (t : Track κ) (front back : List κ)
    : t.values half (front ++ back)
      = t.values half front ++ (t.run half front).values half back := by
  induction front generalizing t with
  | nil => rfl
  | cons raw rest ih =>
      rw [List.cons_append, Track.values, ih]
      rfl

/-- The unwrapped value is the raw one with the multiple in use. -/
theorem Track.step_old (t : Track κ) (raw : κ)
    : (t.step half raw).old = raw + (t.step half raw).base := by
  unfold Track.step
  dsimp only
  split_ifs <;> ring

/-- The base stays a multiple of the period. -/
theorem Track.step_base (t : Track κ) (raw : κ) (multiple : t.base ≡ 0 [PMOD (2 * half)])
    : (t.step half raw).base ≡ 0 [PMOD (2 * half)] := by
  unfold Track.step
  dsimp only
  split_ifs
  · simpa using multiple.sub (AddCommGroup.self_modEq_zero (p := 2 * half))
  · simpa using multiple.add (AddCommGroup.self_modEq_zero (p := 2 * half))
  · exact multiple

/-- Every unwrapped value is congruent to its raw one. -/
theorem Track.values_modEq (t : Track κ) (raws : List κ)
    (multiple : t.base ≡ 0 [PMOD (2 * half)])
    : List.Forall₂ (fun value raw => value ≡ raw [PMOD (2 * half)]) (t.values half raws) raws := by
  induction raws generalizing t with
  | nil => exact .nil
  | cons raw rest ih =>
      have next := t.step_base raw multiple
      refine .cons ?_ (ih _ next)
      rw [t.step_old raw]
      simpa using next.add_left raw

variable [IsStrictOrderedRing κ]

/-- From a value that is the raw one before with the base in use, the unwrapped value moves by
at most half a period just when the raw one moves by at most one and a half.
-/
theorem Track.step_close_iff (t : Track κ) {previous raw : κ} (positive : 0 < half)
    (previousOld : t.old = previous + t.base)
    : |(t.step half raw).old - t.old| ≤ half ↔ |raw - previous| ≤ 3 * half := by
  have difference : raw + t.base - t.old = raw - previous := by
    rw [previousOld]
    ring
  unfold Track.step
  dsimp only
  rw [difference, abs_le, abs_le]
  split_ifs with up down
  · have moved : raw + t.base - 2 * half - t.old = raw - previous - 2 * half := by
      rw [← difference]
      ring
    rw [moved]
    constructor
    · intro close
      constructor <;> linarith [close.1, close.2]
    · intro near
      constructor <;> linarith [near.1, near.2]
  · have moved : raw + t.base + 2 * half - t.old = raw - previous + 2 * half := by
      rw [← difference]
      ring
    rw [moved]
    constructor
    · intro close
      constructor <;> linarith [close.1, close.2]
    · intro near
      constructor <;> linarith [near.1, near.2]
  · rw [difference]
    constructor
    · intro close
      constructor <;> linarith [close.1, close.2]
    · intro near
      constructor <;> linarith

/-- By induction over the raw values, with the one before them. -/
theorem Track.values_close_iff_from (t : Track κ) {previous : κ} (positive : 0 < half)
    (previousOld : t.old = previous + t.base) (raws : List κ)
    : List.IsChain (fun value next => |next - value| ≤ half) (t.old :: t.values half raws)
      ↔ List.IsChain (fun raw next => |next - raw| ≤ 3 * half) (previous :: raws) := by
  induction raws generalizing t previous with
  | nil => simp [Track.values]
  | cons raw rest ih =>
      rw [Track.values, List.isChain_cons_cons, List.isChain_cons_cons,
        t.step_close_iff positive previousOld, ih _ (t.step_old raw)]

/-- From any track, consecutive unwrapped values are at most half a period apart just when
consecutive raw values are at most one and a half periods apart.
-/
theorem Track.values_close_iff (t : Track κ) (positive : 0 < half) (raws : List κ)
    : List.IsChain (fun value next => |next - value| ≤ half) (t.values half raws)
      ↔ List.IsChain (fun raw next => |next - raw| ≤ 3 * half) raws := by
  cases raws with
  | nil => simp [Track.values]
  | cons raw rest => exact (t.step half raw).values_close_iff_from positive (t.step_old raw) rest

end Unwrap
