import Mathlib.Data.List.Basic

/-! Runs of a state machine over a list of inputs. A step may be undefined, and it may put
out several results; a run puts out those of its steps in order.
-/

namespace OutputRun

variable {σ ι ο : Type}

def run (step : σ → ι → Option (σ × List ο)) : σ → List ι → Option (σ × List ο)
  | state, [] => some (state, [])
  | state, input :: rest => do
      let (next, out) ← step state input
      let (final, later) ← run step next rest
      pure (final, out ++ later)

variable {step : σ → ι → Option (σ × List ο)}

@[simp] theorem run_nil (state : σ) : run step state [] = some (state, []) := rfl

/-- A defined step followed by a defined run. -/
theorem run_cons {state next final : σ} {input : ι} {rest : List ι} {out later : List ο}
    (steps : step state input = some (next, out))
    (runs : run step next rest = some (final, later))
    : run step state (input :: rest) = some (final, out ++ later) := by
  simp [run, steps, runs]

/-- A run of at least one input starts with a step. -/
theorem run_cons_inv {state final : σ} {input : ι} {rest : List ι} {out : List ο}
    (runs : run step state (input :: rest) = some (final, out))
    : ∃ next first later,
        step state input = some (next, first)
        ∧ run step next rest = some (final, later)
        ∧ out = first ++ later := by
  cases stepped : step state input with
  | none => simp [run, stepped] at runs
  | some pair =>
      obtain ⟨next, first⟩ := pair
      cases ran : run step next rest with
      | none => simp [run, stepped, ran] at runs
      | some pair' =>
          obtain ⟨final', later⟩ := pair'
          rw [run_cons stepped ran] at runs
          obtain ⟨rfl, rfl⟩ := Prod.mk.inj (Option.some.inj runs)
          exact ⟨next, first, later, rfl, ran, rfl⟩

/-- Runs compose, by induction over the first one's inputs. -/
theorem run_append {state middle final : σ} {left right : List ι} {first later : List ο}
    (leftRun : run step state left = some (middle, first))
    (rightRun : run step middle right = some (final, later))
    : run step state (left ++ right) = some (final, first ++ later) := by
  induction left generalizing state first with
  | nil =>
      obtain ⟨rfl, rfl⟩ := Prod.mk.inj (Option.some.inj leftRun)
      exact rightRun
  | cons input rest ih =>
      obtain ⟨next, now, then_, steps, runs, rfl⟩ := run_cons_inv leftRun
      rw [List.append_assoc]
      exact run_cons steps (ih runs)

/-- A run can be cut anywhere. -/
theorem run_append_inv {state final : σ} {left right : List ι} {out : List ο}
    (runs : run step state (left ++ right) = some (final, out))
    : ∃ middle first later,
        run step state left = some (middle, first)
        ∧ run step middle right = some (final, later)
        ∧ out = first ++ later := by
  induction left generalizing state out with
  | nil => exact ⟨state, [], out, rfl, runs, rfl⟩
  | cons input rest ih =>
      obtain ⟨next, now, then_, steps, restRuns, rfl⟩ := run_cons_inv runs
      obtain ⟨middle, first, later, leftRun, rightRun, rfl⟩ := ih restRuns
      exact ⟨middle, now ++ first, later, run_cons steps leftRun, rightRun,
        (List.append_assoc now first later).symm⟩

/-- Rule for invariants: what every step keeps, and what it shows of its results under the
invariant, a run keeps and shows of all results.
-/
theorem run_invariant {inv : σ → Prop} {good : ο → Prop}
    (kept
      : ∀ state input next out, inv state → step state input = some (next, out)
          → inv next ∧ ∀ result ∈ out, good result)
    {state final : σ} {inputs : List ι} {out : List ο} (holds : inv state)
    (runs : run step state inputs = some (final, out))
    : inv final ∧ ∀ result ∈ out, good result := by
  induction inputs generalizing state out with
  | nil =>
      obtain ⟨rfl, rfl⟩ := Prod.mk.inj (Option.some.inj runs)
      exact ⟨holds, by simp⟩
  | cons input rest ih =>
      obtain ⟨next, first, later, steps, restRuns, rfl⟩ := run_cons_inv runs
      obtain ⟨holds', goodFirst⟩ := kept state input next first holds steps
      obtain ⟨holds'', goodLater⟩ := ih holds' restRuns
      refine ⟨holds'', ?_⟩
      intro result member
      rcases List.mem_append.mp member with now | later
      · exact goodFirst result now
      · exact goodLater result later

-----------------------------------------------------------------------------------------
-- Properties of every step
-----------------------------------------------------------------------------------------

/-- Every input of a run has this property in the state that it meets. -/
def Every (step : σ → ι → Option (σ × List ο)) (holds : σ → ι → Prop) : σ → List ι → Prop
  | _, [] => True
  | state, input :: rest =>
      holds state input
      ∧ ∀ next out, step state input = some (next, out) → Every step holds next rest

variable {holds : σ → ι → Prop}

theorem every_append {state middle : σ} {left right : List ι} {out : List ο}
    (leftEvery : Every step holds state left) (leftRun : run step state left = some (middle, out))
    (rightEvery : Every step holds middle right)
    : Every step holds state (left ++ right) := by
  induction left generalizing state out with
  | nil =>
      obtain ⟨rfl, _⟩ := Prod.mk.inj (Option.some.inj leftRun)
      exact rightEvery
  | cons input rest ih =>
      obtain ⟨next, first, later, steps, runs, _⟩ := run_cons_inv leftRun
      refine ⟨leftEvery.1, ?_⟩
      intro next' out' steps'
      obtain ⟨rfl, _⟩ := Prod.mk.inj (Option.some.inj (steps.symm.trans steps'))
      exact ih (leftEvery.2 next first steps) runs

theorem every_left {state : σ} {left right : List ι}
    (every : Every step holds state (left ++ right))
    : Every step holds state left := by
  induction left generalizing state with
  | nil => trivial
  | cons input rest ih => exact ⟨every.1, fun next out steps => ih (every.2 next out steps)⟩

/-- The property for each split of the inputs at one of them. -/
theorem every_iff {state : σ} {inputs : List ι}
    : Every step holds state inputs
      ↔ ∀ before input after, inputs = before ++ input :: after →
          ∀ reached out, run step state before = some (reached, out) → holds reached input := by
  induction inputs generalizing state with
  | nil => simp [Every]
  | cons input rest ih =>
      constructor
      · intro every before input' after split reached out runs
        cases before with
        | nil =>
            obtain ⟨rfl, _⟩ := List.cons.inj split
            obtain ⟨rfl, _⟩ := Prod.mk.inj (Option.some.inj runs)
            exact every.1
        | cons first before =>
            obtain ⟨rfl, rest'⟩ := List.cons.inj split
            obtain ⟨next, out', later, steps, runs, _⟩ := run_cons_inv runs
            exact ih.mp (every.2 next out' steps) before input' after rest' reached later runs
      · intro splits
        refine ⟨splits [] input rest rfl state [] rfl, ?_⟩
        intro next out steps
        rw [ih]
        intro before input' after split reached later runs
        exact splits (input :: before) input' after (by rw [split]; rfl) reached (out ++ later)
          (run_cons steps runs)

/-- A run in which not every input has the property has a last one without it, by induction
over the inputs.
-/
theorem every_or_last {state final : σ} {inputs : List ι} {out : List ο}
    (runs : run step state inputs = some (final, out))
    : Every step holds state inputs
      ∨ ∃ before input after reached next first now later,
          inputs = before ++ input :: after
          ∧ run step state before = some (reached, first)
          ∧ ¬holds reached input
          ∧ step reached input = some (next, now)
          ∧ Every step holds next after
          ∧ run step next after = some (final, later) := by
  induction inputs generalizing state out with
  | nil => exact Or.inl trivial
  | cons input rest ih =>
      obtain ⟨next, now, later, steps, restRuns, _⟩ := run_cons_inv runs
      rcases ih restRuns with every | last
      · by_cases own : holds state input
        · refine Or.inl ⟨own, ?_⟩
          intro next' now' steps'
          obtain ⟨rfl, _⟩ := Prod.mk.inj (Option.some.inj (steps.symm.trans steps'))
          exact every
        · exact Or.inr ⟨[], input, rest, state, next, [], now, later, rfl, rfl, own, steps, every,
            restRuns⟩
      · obtain ⟨before, last, after, reached, next', first, now', later', rfl, reaches, fails,
          lastSteps, every, afterRuns⟩ := last
        exact Or.inr ⟨input :: before, last, after, reached, next', now ++ first, now', later', rfl,
          run_cons steps reaches, fails, lastSteps, every, afterRuns⟩

end OutputRun
