import Mathlib.Tactic.Common

/-! Fuelled execution of a loop whose body either goes round again or leaves with a result.
A loop is its body alone: conditions, `break` and `return` are all decisions of one turn.
-/

namespace FuelLoop

/-- What one turn of a loop decides. -/
inductive Turn (σ ρ : Type) where
  | again (next : σ)
  | leave (result : ρ)

variable {σ ρ : Type}

/-- What holds of the next state, or of the result. -/
def Turn.Spec (next : σ → Prop) (result : ρ → Prop) : Turn σ ρ → Prop
  | .again s => next s
  | .leave r => result r

theorem Turn.Spec.mono {next next' : σ → Prop} {result result' : ρ → Prop} {turn : Turn σ ρ}
    (spec : turn.Spec next result) (again : ∀ s, next s → next' s)
    (leave : ∀ r, result r → result' r)
    : turn.Spec next' result' := by
  cases turn with
  | again s => exact again s spec
  | leave r => exact leave r spec

/-- Execute at most `fuel` turns; `none` means that the fuel ran out first. -/
def run (turn : σ → Turn σ ρ) : Nat → σ → Option ρ
  | 0, _ => none
  | fuel + 1, state =>
      match turn state with
      | .again next => run turn fuel next
      | .leave result => some result

/-- Some finite number of turns leaves the loop. -/
def Halts (turn : σ → Turn σ ρ) (state : σ) : Prop :=
  ∃ fuel, (run turn fuel state).isSome

variable {turn : σ → Turn σ ρ}

theorem run_again {state next : σ} (fuel : Nat) (goes : turn state = .again next)
    : run turn (fuel + 1) state = run turn fuel next := by
  simp only [run, goes]

theorem run_leave {state : σ} {result : ρ} (fuel : Nat)
    (goes : turn state = .leave result)
    : run turn (fuel + 1) state = some result := by
  simp only [run, goes]

theorem halts_again {state next : σ} (goes : turn state = .again next)
    : Halts turn state ↔ Halts turn next := by
  constructor
  · rintro ⟨fuel, finished⟩
    cases fuel with
    | zero => simp [run] at finished
    | succ fuel => exact ⟨fuel, by rwa [run_again fuel goes] at finished⟩
  · rintro ⟨fuel, finished⟩
    exact ⟨fuel + 1, by rwa [run_again fuel goes]⟩

/-- Total correctness: an invariant whose turns decrease a measure, and whose leaving turns
establish the postcondition, gives a result within `measure + 1` turns.
-/
theorem run_total {inv : σ → Prop} {post : ρ → Prop} (measure : σ → Nat)
    (again
      : ∀ state next, inv state → turn state = .again next
          → inv next ∧ measure next < measure state)
    (leave : ∀ state result, inv state → turn state = .leave result → post result)
    : ∀ (fuel : Nat) (state : σ), inv state → measure state < fuel
        → ∃ result, run turn fuel state = some result ∧ post result := by
  intro fuel
  induction fuel with
  | zero => intro state _ enough; omega
  | succ fuel ih =>
      intro state holds enough
      cases goes : turn state with
      | again next =>
          obtain ⟨kept, smaller⟩ := again state next holds goes
          rw [run_again fuel goes]
          exact ih next kept (by omega)
      | leave result =>
          exact ⟨result, run_leave fuel goes, leave state result holds goes⟩

/-- Partial correctness: what every turn preserves gives the postcondition of a result, by
induction on the fuel.
-/
theorem run_spec {inv : σ → Prop} {post : ρ → Prop}
    (turns : ∀ state, inv state → (turn state).Spec inv post)
    {fuel : Nat} {state : σ} {result : ρ} (holds : inv state)
    (finished : run turn fuel state = some result)
    : post result := by
  induction fuel generalizing state with
  | zero => cases finished
  | succ fuel ih =>
      have spec := turns state holds
      cases goes : turn state with
      | again next =>
          rw [goes] at spec
          rw [run_again fuel goes] at finished
          exact ih spec finished
      | leave last =>
          rw [goes] at spec
          rw [run_leave fuel goes] at finished
          exact Option.some.inj finished ▸ spec

/-- An invariant under which every turn goes round again excludes halting. -/
theorem not_halts_of_invariant {inv : σ → Prop}
    (again : ∀ state, inv state → ∃ next, turn state = .again next ∧ inv next)
    {state : σ} (holds : inv state)
    : ¬Halts turn state := by
  rintro ⟨fuel, finished⟩
  induction fuel generalizing state with
  | zero => simp [run] at finished
  | succ fuel ih =>
      obtain ⟨next, goes, kept⟩ := again state holds
      rw [run_again fuel goes] at finished
      exact ih kept finished

-----------------------------------------------------------------------------------------
-- The states at the head of the loop
-----------------------------------------------------------------------------------------

/-- A state with which a turn of the loop begins, if the loop begins with `start`. -/
inductive Reaches (turn : σ → Turn σ ρ) (start : σ) : σ → Prop where
  | first : Reaches turn start start
  | later {state next : σ} (earlier : Reaches turn start state)
    (goes : turn state = .again next)
    : Reaches turn start next

/-- What the turns keep holds of every state at the head of the loop. -/
theorem Reaches.invariant {inv : σ → Prop} {start state : σ}
    (reached : Reaches turn start state) (holds : inv start)
    (again : ∀ state next, inv state → turn state = .again next → inv next)
    : inv state := by
  induction reached with
  | first => exact holds
  | later _ goes ih => exact again _ _ ih goes

end FuelLoop
