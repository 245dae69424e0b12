import Mathlib.Data.Fintype.Pigeonhole
import Mathlib.Tactic.Common
import Sparcs.Library.Loop

/-! Loops whose turns depend on a key of the state alone. If there are finitely many keys, such a
loop ends just when it never begins two turns with the same key.
-/

namespace FuelLoop

variable {σ ρ κ : Type} {turn : σ → Turn σ ρ}

/-- The state after some turns; `none` when the loop has been left before. -/
def after (turn : σ → Turn σ ρ) : Nat → σ → Option σ
  | 0, s => some s
  | n + 1, s =>
      match turn s with
      | .again next => after turn n next
      | .leave _ => none

theorem after_again {s next : σ} (n : Nat) (goes : turn s = .again next)
    : after turn (n + 1) s = after turn n next := by
  rw [after, goes]

theorem after_leave {s : σ} {result : ρ} (n : Nat) (goes : turn s = .leave result)
    : after turn (n + 1) s = none := by
  rw [after, goes]

theorem after_add (m n : Nat) (s : σ)
    : after turn (m + n) s = (after turn m s).bind (after turn n) := by
  induction m generalizing s with
  | zero => rw [Nat.zero_add]; rfl
  | succ m ih =>
      rw [Nat.succ_add]
      cases goes : turn s with
      | again next => rw [after_again _ goes, after_again _ goes, ih]
      | leave result => rw [after_leave _ goes, after_leave _ goes]; rfl

/-- The turn behind a state that goes on. -/
theorem turn_of_after {n : Nat} {s a b : σ} (now : after turn n s = some a)
    (later : after turn (n + 1) s = some b)
    : turn a = .again b := by
  rw [after_add, now, Option.bind_some] at later
  cases goes : turn a with
  | again next => rw [after_again _ goes] at later; rw [Option.some.inj later]
  | leave result => rw [after_leave _ goes] at later; cases later

/-- A loop halts when there is a last turn. -/
theorem halts_iff_after {s : σ} : Halts turn s ↔ ∃ n, after turn n s = none := by
  constructor
  · rintro ⟨fuel, finished⟩
    refine ⟨fuel, ?_⟩
    induction fuel generalizing s with
    | zero => simp [run] at finished
    | succ fuel ih =>
        cases goes : turn s with
        | again next =>
            rw [run_again fuel goes] at finished
            rw [after_again _ goes, ih finished]
        | leave result => exact after_leave _ goes
  · rintro ⟨n, ended⟩
    refine ⟨n, ?_⟩
    induction n generalizing s with
    | zero => cases ended
    | succ n ih =>
        cases goes : turn s with
        | again next =>
            rw [after_again _ goes] at ended
            rw [run_again n goes]
            exact ih ended
        | leave result => rw [run_leave n goes]; rfl

theorem after_isSome {m n : Nat} {s a : σ} (later : after turn n s = some a) (before : m ≤ n)
    : ∃ b, after turn m s = some b := by
  obtain ⟨k, rfl⟩ := Nat.exists_eq_add_of_le before
  rw [after_add] at later
  cases earlier : after turn m s with
  | none => rw [earlier] at later; cases later
  | some b => exact ⟨b, rfl⟩

/-- What a turn does with the key depends on the key alone. -/
def Follows (turn : σ → Turn σ ρ) (key : σ → κ) : Prop :=
  ∀ s s' next, key s = key s' → turn s = .again next →
    ∃ next', turn s' = .again next' ∧ key next = key next'

variable {key : σ → κ}

/-- A loop that comes back to a key never ends: the states between the two repeat. -/
theorem not_halts_of_repeat (follows : Follows turn key) {s a b : σ} {i j : Nat} (before : i < j)
    (first : after turn i s = some a) (second : after turn j s = some b) (same : key a = key b)
    : ¬Halts turn s := by
  rw [halts_iff_after]
  rintro ⟨n, ended⟩
  have repeats : ∀ m, ∃ k x y, i ≤ k ∧ k < j ∧ after turn k s = some x
      ∧ after turn (i + m) s = some y ∧ key x = key y := by
    intro m
    induction m with
    | zero => exact ⟨i, a, a, Nat.le_refl i, before, first, first, rfl⟩
    | succ m ih =>
        obtain ⟨k, x, y, from_, below, at_, now, agree⟩ := ih
        obtain ⟨x', next⟩ := after_isSome (m := k + 1) second below
        obtain ⟨y', goes, agree'⟩ := follows x y x' agree (turn_of_after at_ next)
        have later : after turn (i + (m + 1)) s = some y' := by
          rw [← Nat.add_assoc, after_add, now, Option.bind_some, after_again 0 goes]
          rfl
        rcases Nat.lt_or_ge (k + 1) j with inside | whole
        · exact ⟨k + 1, x', y', by omega, inside, next, later, agree'⟩
        · have ends : k + 1 = j := by omega
          rw [ends, second, Option.some.injEq] at next
          subst next
          exact ⟨i, a, y', Nat.le_refl i, before, first, later, same.trans agree'⟩
  obtain ⟨-, -, y, -, -, -, now, -⟩ := repeats n
  rw [Nat.add_comm, after_add, ended] at now
  cases now

/-- With finitely many keys, a loop ends just when no key comes back. -/
theorem halts_iff_distinct [Finite κ] (follows : Follows turn key) (s : σ)
    : Halts turn s
      ↔ ∀ i j a b, after turn i s = some a → after turn j s = some b → key a = key b →
          i = j := by
  constructor
  · intro halts i j a b first second same
    rcases Nat.lt_trichotomy i j with before | equal | behind
    · exact absurd halts (not_halts_of_repeat follows before first second same)
    · exact equal
    · exact absurd halts (not_halts_of_repeat follows behind second first same.symm)
  · intro distinct
    by_contra runsOn
    rw [halts_iff_after] at runsOn
    push Not at runsOn
    have each (n : Nat) : ∃ a, after turn n s = some a := Option.ne_none_iff_exists'.mp (runsOn n)
    choose state reached using each
    obtain ⟨i, j, different, same⟩ :=
      Finite.exists_ne_map_eq_of_infinite fun n => key (state n)
    exact different (distinct i j _ _ (reached i) (reached j) same)

end FuelLoop
