import Mathlib.Tactic.Common

/-! Pieces of the numbers one behind the other. Each begins where the one before it has ended, or
up to some numbers before that.
-/

namespace Tilings

section Tiles

variable {ι α : Type} {lo hi : ι → Nat} {overlap first last : Nat} {pieces : List ι}

/-- The pieces, each from `lo` on and below `hi`, lead from the first number to the last one, and
any two neighbours have at most `overlap` numbers in common.
-/
inductive Tiles (lo hi : ι → Nat) (overlap first : Nat) : List ι → Nat → Prop where
  | one {piece : ι} (begins : lo piece = first) : Tiles lo hi overlap first [piece] (hi piece)
  | snoc {pieces : List ι} {last : Nat} {piece : ι}
    (before : Tiles lo hi overlap first pieces last) (attached : lo piece ≤ last)
    (near : last ≤ lo piece + overlap)
    : Tiles lo hi overlap first (pieces ++ [piece]) (hi piece)

/-- The last number is the end of a piece. -/
theorem Tiles.exists_last (tiles : Tiles lo hi overlap first pieces last)
    : ∃ piece ∈ pieces, hi piece = last := by
  cases tiles with
  | @one piece => exact ⟨piece, List.mem_singleton_self _, rfl⟩
  | @snoc _ _ piece => exact ⟨piece, List.mem_append_right _ (List.mem_singleton_self _), rfl⟩

/-- Each number between the ends lies in a piece. -/
theorem Tiles.exists_piece (tiles : Tiles lo hi overlap first pieces last) {k : Nat}
    (behind : first ≤ k) (before : k < last)
    : ∃ piece ∈ pieces, lo piece ≤ k ∧ k < hi piece := by
  induction tiles with
  | @one piece begins => exact ⟨piece, List.mem_singleton_self _, by omega, before⟩
  | @snoc pieces last piece _ attached _ ih =>
      by_cases earlier : k < last
      · obtain ⟨other, member, inside⟩ := ih earlier
        exact ⟨other, List.mem_append_left _ member, inside⟩
      · exact ⟨piece, List.mem_append_right _ (List.mem_singleton_self _), by omega, before⟩

/-- What is known of each piece, and of two neighbours if it is known of both, is known of the
whole, if no two pieces overlap.
-/
theorem Tiles.whole {known : Nat → Nat → List α → Prop}
    (appends
      : ∀ a b c xs ys, known a b xs → known b c ys → known a c (xs ++ ys))
    (tiles : Tiles lo hi 0 first pieces last) {part : ι → List α}
    (each : ∀ piece ∈ pieces, known (lo piece) (hi piece) (part piece))
    : known first last (pieces.flatMap part) := by
  induction tiles with
  | @one piece begins =>
      rw [List.flatMap_singleton, ← begins]
      exact each piece (List.mem_singleton_self _)
  | @snoc pieces last piece _ attached near ih =>
      rw [List.flatMap_append, List.flatMap_singleton]
      have earlier := ih fun other member => each other (List.mem_append_left _ member)
      refine appends _ last _ _ _ earlier ?_
      rw [Nat.le_antisymm near attached]
      exact each piece (List.mem_append_right _ (List.mem_singleton_self _))

end Tiles

end Tilings
