import Sparcs.CassSpeed.HandlerRuns

/-! What the handler makes of the rows of one device, where nothing goes wrong: the oldest
time, the samples of all rows in their order, and those that are left after the front is cut.
-/

namespace Sparcs.CassSpeed

open SharedCell Handling

/-- The message has as many samples as it says. -/
def CassRow.Readable (row : CassRow) : Prop :=
  row.data.numsamples.toNat ≤ row.data.sample.length

/-- The samples that the loop over them reads. -/
def CassRow.samples (row : CassRow) : List UpmuSample :=
  row.data.sample.take row.data.numsamples.toNat

/-- `firstsample` and `timestampcass` after some rows. -/
def Oldest.seeAll (oldest : Oldest) (rows : List CassRow) : Oldest :=
  rows.foldl (fun oldest row => oldest.see row.timestampMsec) oldest

theorem readRow_eq (s : Oldest × List UpmuSample) (row : CassRow)
    : row.Readable ∧ readRow s row = .ok (s.1.see row.timestampMsec, s.2 ++ row.samples)
      ∨ ¬row.Readable ∧ readRow s row = .error .undefined := by
  rw [readRow, UpmuData.samples]
  by_cases readable : row.data.numsamples.toNat ≤ row.data.sample.length
  · rw [if_pos readable]
    exact .inl ⟨readable, rfl⟩
  · rw [if_neg readable]
    exact .inr ⟨readable, rfl⟩

/-- The loop over the rows, by induction over them. -/
theorem foldlM_readRow (rows : List CassRow) (s : Oldest × List UpmuSample)
    : (∀ row ∈ rows, row.Readable)
        ∧ rows.foldlM readRow s = .ok (s.1.seeAll rows, s.2 ++ rows.flatMap CassRow.samples)
      ∨ (∃ row ∈ rows, ¬row.Readable) ∧ rows.foldlM readRow s = .error .undefined := by
  induction rows generalizing s with
  | nil => exact .inl ⟨by simp, by simp [Oldest.seeAll, pure, Except.pure]⟩
  | cons row rows ih =>
      rw [List.foldlM_cons]
      rcases readRow_eq s row with ⟨readable, read⟩ | ⟨unreadable, fault⟩
      · rw [read]
        rcases ih (s.1.see row.timestampMsec, s.2 ++ row.samples) with
          ⟨others, result⟩ | ⟨⟨other, member, unreadable⟩, result⟩
        · refine .inl ⟨?_, ?_⟩
          · intro other member
            rcases List.mem_cons.mp member with rfl | member
            · exact readable
            · exact others other member
          · rw [List.flatMap_cons, ← List.append_assoc]
            exact result
        · exact .inr ⟨⟨other, List.mem_cons_of_mem _ member, unreadable⟩, result⟩
      · rw [fault]
        exact .inr ⟨⟨row, List.mem_cons_self, unreadable⟩, rfl⟩

theorem readRows_eq_ok_iff {oldest oldest' : Oldest} {rows : List CassRow}
    {samples : List UpmuSample}
    : readRows oldest rows = .ok (oldest', samples)
      ↔ (∀ row ∈ rows, row.Readable) ∧ oldest' = oldest.seeAll rows
        ∧ samples = rows.flatMap CassRow.samples := by
  rw [readRows]
  rcases foldlM_readRow rows (oldest, []) with ⟨readable, result⟩ | ⟨⟨row, member, bad⟩, result⟩
  · rw [result, Except.ok.injEq, Prod.mk.injEq, List.nil_append]
    constructor
    · rintro ⟨rfl, rfl⟩
      exact ⟨readable, rfl, rfl⟩
    · rintro ⟨-, rfl, rfl⟩
      exact ⟨rfl, rfl⟩
  · rw [result]
    simp only [reduceCtorEq, false_iff]
    exact fun all => bad (all.1 row member)

theorem eraseFront_eq_ok_iff {samples left : List UpmuSample} {skip : Int32}
    : eraseFront samples skip = .ok left
      ↔ skip.toInt.toNat ≤ samples.length ∧ left = samples.drop skip.toInt.toNat := by
  rw [eraseFront]
  split_ifs with inside
  · rw [Except.ok.injEq, eq_comm, and_iff_right inside]
  · simp only [inside, false_and]

/-- Neither loop runs on. -/
theorem readRows_ends (oldest : Oldest) (rows : List CassRow)
    : readRows oldest rows ≠ .error .runsOn := by
  rw [readRows]
  rcases foldlM_readRow rows (oldest, []) with ⟨-, result⟩ | ⟨-, result⟩ <;> simp [result]

theorem eraseFront_ends (samples : List UpmuSample) (skip : Int32)
    : eraseFront samples skip ≠ .error .runsOn := by
  rw [eraseFront]
  split_ifs <;> simp

end Sparcs.CassSpeed
