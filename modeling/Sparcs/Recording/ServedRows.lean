import Sparcs.CassSpeed.SecondArchive
import Sparcs.Recording.StoredRows

/-! An archive that serves the inserted rows of a device. When they are those of consecutive
seconds, it records these seconds.
-/

namespace Sparcs.Recording

open CassSpeed (Archive Inside Recording Text foundSeconds secondKey secondRow)
open Query (ServerQuery serverQuery)
open Spans

/-- A query inside of the interval gets the rows of the device that it selects, the oldest first. -/
def Serves (archive : Archive) (rows : List StoredRow) (first last : Nat) (device : Text) : Prop :=
  ∀ tmp tmp2 : UInt64, Inside first last tmp tmp2 →
    ∃ found : List StoredRow,
      found.Perm
        (rows.filter fun row =>
          row.device = device ∧ (serverQuery tmp tmp2).Selects row.key)
      ∧ found.Pairwise (fun row later => row.timestampMsec ≤ later.timestampMsec)
      ∧ archive ((serverQuery tmp tmp2).querystr (toString tmp2) (String.ofList device))
        = found.mapM StoredRow.cassRow?

/-- The row is that of the second `e`. -/
structure StoredRow.Holds (recording : Recording) (device : Text) (e : Nat) (row : StoredRow)
    : Prop where
  ofDevice : row.device = device
  key : row.key = secondKey e
  read : row.cassRow? = some (secondRow recording device e)

/-- The columns of a second are determined. -/
theorem isSecond_unique {row row' : Query.Row} {e : Int} (second : row.IsSecond e)
    (second' : row'.IsSecond e)
    : row = row' := by
  obtain ⟨time, day⟩ := second
  obtain ⟨time', day'⟩ := second'
  rw [Query.Row.mk.injEq]
  exact ⟨Int64.toInt_inj.mp (time.trans time'.symm), Int64.toInt_inj.mp (day.trans day'.symm)⟩

section Holds

variable {recording : Recording} {device : Text} {first last e : Nat} {row : StoredRow}
  {stored : Nat → StoredRow}

theorem StoredRow.Holds.time (holds : row.Holds recording device e) (small : e < 4294967296)
    : row.timestampMsec.toInt = 1000 * e := by
  have key := congrArg Query.Row.timestampMsec holds.key
  change row.timestampMsec = (secondKey e).timestampMsec at key
  rw [key]
  exact (CassSpeed.secondKey_isSecond small).timestampMsec

/-- All rows can be read, by induction over them. -/
theorem mapM_cassRow? {seconds : List Nat}
    (holds : ∀ e ∈ seconds, (stored e).Holds recording device e)
    : (seconds.map stored).mapM StoredRow.cassRow?
      = some (seconds.map (secondRow recording device)) := by
  induction seconds with
  | nil => rfl
  | cons e seconds ih =>
      have first := (holds e List.mem_cons_self).read
      have later := ih fun other member => holds other (List.mem_cons_of_mem _ member)
      simp only [List.map_cons, List.mapM_cons, first, later]
      rfl

/-- The row of one second is served whatever is asked for in this second. -/
theorem serves_second (holds : row.Holds recording device e)
    : Serves (fun _ => [row].mapM StoredRow.cassRow?) [row] e (e + 1) device := by
  intro tmp tmp2 inside
  have selects : (serverQuery tmp tmp2).Selects row.key := by
    obtain ⟨positive, begins, ordered, ends, small⟩ := inside
    rw [holds.key, CassSpeed.selects_secondKey_iff (by omega) (by omega) (by omega) (by omega)]
    omega
  exact ⟨[row], by simp [holds.ofDevice, selects], List.pairwise_singleton _ _, rfl⟩

/-- What is served is the rows in the order of their seconds, since no two have the same time. -/
theorem serves_records {archive : Archive}
    (holds : ∀ e ∈ span first last, (stored e).Holds recording device e)
    (serves : Serves archive ((span first last).map stored) first last device)
    : archive.Records recording first last [device] := by
  intro device' member tmp tmp2 inside
  obtain rfl : device' = device := List.mem_singleton.mp member
  obtain ⟨found, perm, ordered, served⟩ := serves tmp tmp2 inside
  have inSpan {e : Nat} (member : e ∈ foundSeconds first last (serverQuery tmp tmp2))
      : e ∈ span first last :=
    List.mem_of_mem_filter member
  have time {e : Nat} (member : e ∈ foundSeconds first last (serverQuery tmp tmp2))
      : (stored e).timestampMsec.toInt = 1000 * e :=
    (holds e (inSpan member)).time ((mem_span.mp (inSpan member)).2.trans_le inside.small)
  have selected : ((span first last).map stored).filter (fun row =>
        row.device = device' ∧ (serverQuery tmp tmp2).Selects row.key)
      = (foundSeconds first last (serverQuery tmp tmp2)).map stored := by
    rw [List.filter_map, foundSeconds]
    refine congrArg (List.map stored) (List.filter_congr fun e member => ?_)
    simp [(holds e member).ofDevice, (holds e member).key]
  rw [selected] at perm
  have increasing : (foundSeconds first last (serverQuery tmp tmp2)).Pairwise (· < ·) :=
    List.Pairwise.sublist List.filter_sublist List.pairwise_lt_range'
  have inOrder : ((foundSeconds first last (serverQuery tmp tmp2)).map stored).Pairwise
      fun row later => row.timestampMsec ≤ later.timestampMsec := by
    rw [List.pairwise_map]
    refine increasing.imp_of_mem fun member member' before => ?_
    rw [Int64.le_iff_toInt_le, time member, time member']
    omega
  have same : found = (foundSeconds first last (serverQuery tmp tmp2)).map stored := by
    refine List.Perm.eq_of_pairwise ?_ ordered inOrder perm
    intro row row' member member' before behind
    obtain ⟨e, isFound, rfl⟩ := List.mem_map.mp (perm.subset member)
    obtain ⟨e', isFound', rfl⟩ := List.mem_map.mp member'
    have times := congrArg Int64.toInt (Int64.le_antisymm before behind)
    rw [time isFound, time isFound'] at times
    exact congrArg stored (by omega)
  rw [served, same]
  exact mapM_cassRow? fun e member => holds e (inSpan member)

end Holds

end Sparcs.Recording
