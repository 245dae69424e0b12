import Mathlib.Tactic.Common

/-! Functions that may return early, the runs of their calls, and the histories that runs
leave behind: rules of pre- and postconditions, and of invariants.
-/

namespace CallRuns

section EarlyReturn

variable {σ α β : Type}

/-- What holds of the state in which a function returns early, and of the value with which
its body goes on.
-/
def Spec (returned : σ → Prop) (goesOn : α → Prop) : Except σ α → Prop
  | .error s => returned s
  | .ok a => goesOn a

/-- Return with a state unless something succeeded. -/
def orReturn (ok : Bool) (s : σ) : Except σ Unit := if ok then .ok () else .error s

/-- The state that the function leaves, early or at its end. -/
def leaves : Except σ σ → σ
  | .error s => s
  | .ok s => s

variable {returned returned' : σ → Prop} {goesOn goesOn' : α → Prop}

theorem Spec.mono {body : Except σ α} (spec : Spec returned goesOn body)
    (early : ∀ s, returned s → returned' s) (later : ∀ a, goesOn a → goesOn' a)
    : Spec returned' goesOn' body := by
  cases body with
  | error s => exact early s spec
  | ok a => exact later a spec

theorem Spec.bind {goesOnLater : β → Prop} {first : Except σ α} {rest : α → Except σ β}
    (spec : Spec returned goesOn first)
    (later : ∀ a, goesOn a → Spec returned goesOnLater (rest a))
    : Spec returned goesOnLater (first >>= rest) := by
  cases first with
  | error s => exact spec
  | ok a => exact later a spec

/-- The body goes on only if something succeeded. -/
theorem spec_orReturn {ok : Bool} {s : σ} (fails : ok = false → returned s)
    : Spec returned (fun _ => ok = true) (orReturn ok s) := by
  cases ok with
  | false => exact fails rfl
  | true => exact rfl

theorem Spec.leaves {post : σ → Prop} {body : Except σ σ} (spec : Spec post post body)
    : post (leaves body) := by
  cases body with
  | error s => exact spec
  | ok s => exact spec

end EarlyReturn

section Runs

variable {σ α : Type} (call : α → σ → σ)

/-- One call after the other. -/
def run (calls : List α) (s : σ) : σ := calls.foldl (fun s a => call a s) s

/-- Each call of the run meets a condition in the state where it starts. -/
def Meets (condition : α → σ → Prop) : List α → σ → Prop
  | [], _ => True
  | a :: calls, s => condition a s ∧ Meets condition calls (call a s)

variable {call} {condition condition' : α → σ → Prop} {calls : List α} {s : σ}

@[simp]
theorem run_nil : run call [] s = s := rfl

@[simp]
theorem run_cons (a : α) : run call (a :: calls) s = run call calls (call a s) := rfl

/-- What one call preserves under the condition, the run preserves, by induction on the
calls.
-/
theorem Meets.invariant {inv : σ → Prop}
    (preserved : ∀ a s, inv s → condition a s → inv (call a s))
    (meets : Meets call condition calls s) (initially : inv s)
    : inv (run call calls s) := by
  induction calls generalizing s with
  | nil => exact initially
  | cons a calls ih => exact ih meets.2 (preserved a s initially meets.1)

end Runs

section Histories

variable {ε : Type}

/-- Each event of a history, the latest one first, fits the events before it. -/
def Each (fits : ε → List ε → Prop) : List ε → Prop
  | [] => True
  | event :: earlier => fits event earlier ∧ Each fits earlier

/-- The same by cutting the history at the event. -/
theorem each_iff {fits : ε → List ε → Prop} {history : List ε}
    : Each fits history
      ↔ ∀ later event earlier, history = later ++ event :: earlier → fits event earlier := by
  induction history with
  | nil => simp [Each]
  | cons event history ih =>
      rw [Each, ih]
      constructor
      · intro each later event' earlier cut
        obtain ⟨latest, others⟩ := each
        cases later with
        | nil =>
            obtain ⟨rfl, rfl⟩ := List.cons.inj cut
            exact latest
        | cons _ later => exact others later event' earlier (List.cons.inj cut).2
      · intro each
        refine ⟨each [] event history rfl, ?_⟩
        intro later event' earlier cut
        exact each (event :: later) event' earlier (by rw [cut]; rfl)

end Histories

end CallRuns
