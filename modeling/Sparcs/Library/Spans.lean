import Mathlib.Tactic.Common
import Mathlib.Algebra.Order.Ring.Nat
import Mathlib.Tactic.Ring

/-! Consecutive numbers: those of them that lie in an interval, and numbers that are counted in
blocks of one size.
-/

namespace Spans

/-- The numbers from `first` on and below `last`. -/
def span (first last : Nat) : List Nat := List.range' first (last - first)

variable {first last lo hi n : Nat}

theorem mem_span : n ∈ span first last ↔ first ≤ n ∧ n < last := by
  rw [span, List.mem_range'_1]
  omega

theorem length_span (first last : Nat) : (span first last).length = last - first :=
  List.length_range'

/-- Two intervals one behind the other. -/
theorem span_append (before : first ≤ lo) (behind : lo ≤ last)
    : span first lo ++ span lo last = span first last := by
  have next : span lo last = List.range' (first + (lo - first)) (last - lo) := by
    rw [span, Nat.add_sub_cancel' before]
  rw [next, span, List.range'_append_1, span]
  congr 1
  omega

/-- Those that lie in an interval inside. -/
theorem filter_span {p : Nat → Bool} (before : first ≤ lo) (between : lo ≤ hi) (behind : hi ≤ last)
    (inside : ∀ n, first ≤ n → n < last → (p n = true ↔ lo ≤ n ∧ n < hi))
    : (span first last).filter p = span lo hi := by
  rw [← span_append before (between.trans behind), ← span_append between behind,
    List.filter_append, List.filter_append]
  have front : (span first lo).filter p = [] := by
    refine List.filter_eq_nil_iff.mpr fun n member => ?_
    rw [mem_span] at member
    rw [inside n member.1 (by omega)]
    omega
  have middle : (span lo hi).filter p = span lo hi := by
    refine List.filter_eq_self.mpr fun n member => ?_
    rw [mem_span] at member
    exact (inside n (by omega) (by omega)).mpr member
  have back : (span hi last).filter p = [] := by
    refine List.filter_eq_nil_iff.mpr fun n member => ?_
    rw [mem_span] at member
    rw [inside n (by omega) member.2]
    omega
  rw [front, middle, back, List.nil_append, List.append_nil]

/-- The first of them are left away. -/
theorem drop_span (k first last : Nat) : (span first last).drop k = span (first + k) last := by
  rw [span, List.drop_range', Nat.mul_one, span, Nat.sub_sub]

/-- Numbers that are counted in blocks of `size`. -/
theorem flatMap_span {α : Type} (size : Nat) (f : Nat → α) (first last : Nat)
    : (span first last).flatMap (fun e => (List.range size).map fun j => f (size * e + j))
      = (span (size * first) (size * last)).map f := by
  have blocks : span (size * first) (size * last)
      = List.range' (size * first) (size * (last - first)) := by
    rw [span, Nat.mul_sub]
  rw [blocks, span]
  clear blocks
  generalize last - first = count
  induction count generalizing first with
  | zero => rfl
  | succ count ih =>
      have block
          : (List.range size).map (fun j => f (size * first + j))
            = (List.range' (size * first) size).map f := by
        rw [List.range'_eq_map_range, List.map_map]
        rfl
      have next : size * (first + 1) = size * first + size := by ring
      rw [List.range'_succ, List.flatMap_cons, ih, block, ← List.map_append, next,
        List.range'_append_1]
      congr 2
      ring

/-- The entries of a list, numbered from `first` on. -/
theorem map_getD_span {α : Type} (entries : List α) (missing : α)
    : (span first (first + entries.length)).map (fun n => entries.getD (n - first) missing)
      = entries := by
  refine List.ext_getElem ?_ fun i inSpan inList => ?_
  · rw [List.length_map, length_span, Nat.add_sub_cancel_left]
  · simp only [span, List.getElem_map, List.getElem_range', Nat.one_mul, Nat.add_sub_cancel_left]
    rw [List.getD_eq_getElem?_getD, List.getElem?_eq_getElem inList, Option.getD_some]

end Spans
