import Sparcs.Library.Spans
import Sparcs.CassSpeed.StartTime

/-! Archives without gaps, and what a request finds in them. Every sample has a number, 120 for each
second since 1970.
-/

namespace Sparcs.CassSpeed

open Query (ServerQuery serverQuery)
open SignedArithmetic
open Spans

/-- The samples of each device by their numbers. -/
abbrev Recording := Text → Nat → UpmuSample

/-- The row of a second. -/
def secondRow (recording : Recording) (device : Text) (e : Nat) : CassRow where
  timestampMsec := Int64.ofInt (1000 * e)
  data := {
    numsamples := 120
    sample := (List.range 120).map fun k => recording device (120 * e + k)
  }

/-- The columns that the query compares. -/
def secondKey (e : Nat) : Query.Row where
  timestampMsec := Int64.ofInt (1000 * e)
  day := Int64.ofInt (e / 86400)

instance decidableSelects (q : ServerQuery) (row : Query.Row) : Decidable (q.Selects row) :=
  inferInstanceAs (Decidable (_ ∧ _ ∧ _))

/-- The seconds that a query finds of those from `first` on and below `last`. -/
def foundSeconds (first last : Nat) (q : ServerQuery) : List Nat :=
  (span first last).filter fun e => decide (q.Selects (secondKey e))

/-- The interval of a query lies inside of what is archived. -/
structure Inside (first last : Nat) (tmp tmp2 : UInt64) : Prop where
  positive : 0 < first
  begins : 1000 * first ≤ tmp.toNat
  ordered : tmp.toNat < tmp2.toNat
  ends : tmp2.toNat ≤ 1000 * last
  small : last ≤ 4294967296

/-- In the interval, the archive holds every second of the devices, and returns the oldest first. -/
def Archive.Records (archive : Archive) (recording : Recording) (first last : Nat)
    (devices : List Text)
    : Prop :=
  ∀ device ∈ devices, ∀ tmp tmp2 : UInt64, Inside first last tmp tmp2 →
    archive ((serverQuery tmp tmp2).querystr (toString tmp2) (String.ofList device))
      = some ((foundSeconds first last (serverQuery tmp tmp2)).map (secondRow recording device))

section Seconds

variable {recording : Recording} {device : Text} {e : Nat} {tmp tmp2 : UInt64}

theorem secondRow_toInt (small : e < 4294967296)
    : (secondRow recording device e).timestampMsec.toInt = 1000 * e :=
  Int64.toInt_ofInt_of_le (by simp; omega) (by simp; omega)

theorem secondRow_archived (small : e < 4294967296) : (secondRow recording device e).Archived where
  second := ⟨e, by omega, secondRow_toInt small⟩
  numsamples := rfl
  sample := by rw [secondRow, List.length_map, List.length_range]

theorem secondRow_samples
    : (secondRow recording device e).samples
      = (List.range 120).map fun k => recording device (120 * e + k) := by
  rw [CassRow.samples, List.take_of_length_le]
  · rfl
  · rw [secondRow, List.length_map, List.length_range]
    exact Nat.le_refl 120

theorem secondKey_isSecond (small : e < 4294967296) : (secondKey e).IsSecond e := by
  refine ⟨Int64.toInt_ofInt_of_le (by simp; omega) (by simp; omega), ?_⟩
  rw [Int.tdiv_eq_ediv_of_nonneg (by omega)]
  exact Int64.toInt_ofInt_of_le (by simp; omega) (by simp; omega)

/-- The query finds the seconds that overlap its interval. -/
theorem selects_secondKey_iff (early : 999 ≤ tmp.toNat) (ordered : tmp.toNat ≤ tmp2.toNat)
    (late : tmp2.toNat < 2147483648 * 86400000) (small : e < 4294967296)
    : (serverQuery tmp tmp2).Selects (secondKey e)
      ↔ tmp.toNat / 1000 ≤ e ∧ 1000 * e < tmp2.toNat := by
  have early' : (999 : UInt64) ≤ tmp := UInt64.le_iff_toNat_le.mpr early
  have shifted : (tmp - 999).toNat = tmp.toNat - 999 := UInt64.toNat_sub_of_le _ _ early'
  have second := secondKey_isSecond small
  have days := Query.mem_days early' (UInt64.le_iff_toNat_le.mpr ordered) late
  rw [ServerQuery.Selects, days, second.day, second.timestampMsec]
  change _ ∧ ((tmp - 999).toNat : Int) ≤ _ ∧ _ < (tmp2.toNat : Int) ↔ _
  rw [shifted, Int.tdiv_eq_ediv_of_nonneg (by omega)]
  omega

end Seconds

-----------------------------------------------------------------------------------------
-- What a request finds
-----------------------------------------------------------------------------------------

/-- The number of the sample with which the answer to a request begins. -/
def sampleIndex (msec : Nat) : Nat := msec / 1000 * 120 + msec % 1000 * 120 / 1000

/-- The number of the sample behind the last second that begins before some time. -/
def sampleLimit (msec : Nat) : Nat := 120 * ((msec + 999) / 1000)

section Found

variable {recording : Recording} {first last : Nat} {tmp tmp2 : UInt64}

theorem foundSeconds_eq (inside : Inside first last tmp tmp2)
    : foundSeconds first last (serverQuery tmp tmp2)
      = span (tmp.toNat / 1000) ((tmp2.toNat + 999) / 1000) := by
  obtain ⟨positive, begins, ordered, ends, small⟩ := inside
  refine filter_span (by omega) (by omega) (by omega) fun e _ below => ?_
  rw [decide_eq_true_iff, selects_secondKey_iff (by omega) (by omega) (by omega) (by omega)]
  omega

variable {archive : Archive} {r : Request} {devices : List Text}

/-- What a request that is read asks for. -/
structure Request.AsksFor (r : Request) (tmp tmp2 : UInt64) : Prop where
  start : r.start = tmp
  stop : readUInt64 r.timestampend = tmp2
  written : String.ofList r.timestampend = toString tmp2

theorem Request.AsksFor.querystr (asks : r.AsksFor tmp tmp2) (device : Text)
    : r.querystr device
      = (serverQuery tmp tmp2).querystr (toString tmp2) (String.ofList device) := by
  rw [Request.querystr, asks.written, Request.query, ← asks.start, ← asks.stop]
  rfl

/-- Each device is found with the seconds that overlap the interval. -/
theorem found_eq (records : archive.Records recording first last r.devices)
    (asks : r.AsksFor tmp tmp2) (inside : Inside first last tmp tmp2)
    : r.found archive
      = r.devices.map fun device =>
          (device, (span (tmp.toNat / 1000) ((tmp2.toNat + 999) / 1000)).map
            (secondRow recording device)) := by
  rw [Request.found, findAll, ← List.filterMap_eq_map]
  refine List.filterMap_congr fun device member => ?_
  rw [asks.querystr, records device member tmp tmp2 inside, foundSeconds_eq inside]
  rfl

theorem samples_eq (device : Text) (lo hi : Nat)
    : ((span lo hi).map (secondRow recording device)).flatMap CassRow.samples
      = (span (120 * lo) (120 * hi)).map (recording device) := by
  rw [List.flatMap_map, ← flatMap_span]
  exact List.flatMap_congr fun e _ => secondRow_samples

theorem skip_eq (asks : r.AsksFor tmp tmp2)
    : 120 * (tmp.toNat / 1000) + r.skip.toInt.toNat = sampleIndex tmp.toNat := by
  rw [r.skip_toNat, asks.start, sampleIndex]
  omega

/-- The samples of a device from the start on. -/
theorem trimmed_eq (asks : r.AsksFor tmp tmp2) (device : Text)
    : trimmed r ((span (tmp.toNat / 1000) ((tmp2.toNat + 999) / 1000)).map
        (secondRow recording device))
      = (span (sampleIndex tmp.toNat) (sampleLimit tmp2.toNat)).map (recording device) := by
  rw [trimmed, samples_eq, ← List.map_drop, drop_span, skip_eq asks]
  rfl

end Found

end Sparcs.CassSpeed
