import Sparcs.Library.Tilings
import Sparcs.CassSpeed.DownloadRuns
import Sparcs.CassSpeed.RecordedChunks

/-! Downloads from an archive without gaps. They end, and their chunks cover the interval.
-/

namespace Sparcs.CassSpeed

open FuelLoop
open SignedArithmetic
open Tilings

section Download

variable {archive : Archive} {recording : Recording} {first last : Nat} {plan : Plan}
  {client : Client}

-----------------------------------------------------------------------------------------
-- The end of a turn
-----------------------------------------------------------------------------------------

/-- What is added to the end time before it is compared with the end of the interval. -/
theorem finished_iff {stepsize : Int32} {size : Nat} (value : stepsize.toInt = size)
    (small : size ≤ 2147482) {next stop : Nat} {time : Int64} (now : time.toInt = next)
    (early : next < 2 ^ 62) (ends : client.prepared.timestampendGlobal.toInt = stop)
    : client.finished stepsize time = true ↔ stop < next + (size + 1) * 1000 / 120 := by
  have inRange : (((stepsize : IntExpr) + 1) * 1000 / 120 : IntExpr).InRange := by
    refine ⟨⟨⟨trivial, trivial, ?_⟩, trivial, ?_⟩, trivial, by decide, ?_⟩
    · change Fits32 (stepsize.toInt + 1)
      constructor <;> omega
    · change Fits32 ((stepsize.toInt + 1) * 1000)
      constructor <;> omega
    · change Fits32 (((stepsize.toInt + 1) * 1000).tdiv 120)
      rw [Int.tdiv_eq_ediv_of_nonneg (by omega)]
      constructor <;> omega
  have product : ((stepsize + 1) * 1000 / 120).toInt = ((size + 1) * 1000 / 120 : Nat) := by
    have exact_ := inRange.toInt_eval
    change ((stepsize + 1) * 1000 / 120).toInt = ((stepsize.toInt + 1) * 1000).tdiv 120 at exact_
    rw [exact_, value, Int.tdiv_eq_ediv_of_nonneg (by omega)]
    push_cast
    rfl
  have sum : (time + ((stepsize + 1) * 1000 / 120).toInt64).toInt
      = (next + (size + 1) * 1000 / 120 : Nat) := by
    rw [Int64.toInt_add, now, Int32.toInt_toInt64, product,
      Int.bmod_eq_of_le (by omega) (by omega)]
    push_cast
    rfl
  rw [Client.finished, decide_eq_true_iff, Int64.lt_iff_toInt_lt, ends, sum]
  omega

/-- The interval begins with a second, and each second is divided into steps. -/
def Plan.Aligned (plan : Plan) : Prop := 1000 ∣ plan.start ∧ plan.size ∣ 120

instance Plan.decidableAligned (plan : Plan) : Decidable plan.Aligned :=
  inferInstanceAs (Decidable (_ ∧ _))

/-- How many samples a chunk may have in common with the one before it. -/
def Plan.overlap (plan : Plan) : Nat := if plan.Aligned then 0 else 1

/-- A chunk holds recorded samples, and no rest of a step if it is aligned. -/
structure Chunk.Delivers (recording : Recording) (plan : Plan) (chunk : Chunk) : Prop where
  holds : chunk.Holds recording plan
  ordered : chunk.first ≤ chunk.limit
  inside : chunk.limit ≤ sampleLimit plan.stop
  divides : plan.Aligned → plan.size ∣ chunk.limit - chunk.first

theorem Chunk.Delivers.behind_eq {chunk : Chunk} (delivers : chunk.Delivers recording plan)
    (aligned : plan.Aligned)
    : chunk.behind plan = chunk.limit := by
  have ordered := delivers.ordered
  rw [Chunk.behind, Nat.div_mul_cancel (delivers.divides aligned)]
  omega

/-- The chunks of a download that has come to some time. -/
structure Downloaded (recording : Recording) (plan : Plan) (s : Download) (t : Nat) : Prop where
  now : s.timestampstartLoop.toInt = t
  begun : plan.start ≤ t
  before : t < plan.stop
  whole : sampleIndex t + plan.size ≤ sampleLimit plan.stop
  aligned : plan.Aligned → 1000 ∣ t
  delivers : ∀ chunk ∈ s.chunks, chunk.Delivers recording plan
  tiles
    : s.chunks = [] ∧ t = plan.start
      ∨ ∃ behind, Tiles Chunk.first (Chunk.behind plan) plan.overlap (sampleIndex plan.start)
            s.chunks behind
          ∧ sampleIndex t ≤ behind ∧ behind ≤ sampleIndex t + plan.overlap

/-- The chunks of a download that is done: less than a step and a sample is missing at the end. -/
structure Complete (recording : Recording) (plan : Plan) (chunks : List Chunk) : Prop where
  delivers : ∀ chunk ∈ chunks, chunk.Delivers recording plan
  tiles
    : ∃ behind, Tiles Chunk.first (Chunk.behind plan) plan.overlap (sampleIndex plan.start)
          chunks behind
        ∧ 3 * plan.stop < 25 * (behind + plan.size + 1)

/-- A chunk begins where those before it have ended, or one sample earlier. -/
theorem Downloaded.append {s : Download} {t : Nat} (downloaded : Downloaded recording plan s t)
    {chunk : Chunk} (starts : chunk.timestampstart.toInt = t)
    : Tiles Chunk.first (Chunk.behind plan) plan.overlap (sampleIndex plan.start)
        (s.chunks ++ [chunk]) (chunk.behind plan) := by
  have begins : chunk.first = sampleIndex t := by
    rw [Chunk.first, starts, Int.toNat_natCast]
  rcases downloaded.tiles with ⟨empty, rfl⟩ | ⟨behind, tiles, attached, near⟩
  · rw [empty]
    exact .one begins
  · exact .snoc tiles (by omega) (by omega)

/-- A turn goes on behind its chunk, or the download is complete. -/
theorem turn_downloads (asks : client.Asks archive recording first last plan)
    (sound : plan.Sound first last) {s : Download} {t : Nat}
    (downloaded : Downloaded recording plan s t)
    : (∃ next u, client.turn s = .again next ∧ Downloaded recording plan next u ∧ t < u)
      ∨ ∃ chunks, client.turn s = .leave (.exits (.code 0), chunks)
        ∧ Complete recording plan chunks := by
  obtain ⟨chunk, time, obtains, holds, starts, ends, timed, exact_⟩ :=
    asks.obtains_chunk sound downloaded.now downloaded.begun downloaded.before downloaded.whole
  have appended := downloaded.append starts
  -- the numbers of the chunk
  have begun := downloaded.begun
  have before := downloaded.before
  have firstEq : chunk.first = sampleIndex t := by rw [Chunk.first, starts, Int.toNat_natCast]
  have limitEq : chunk.limit = sampleLimit (Min.min plan.stop (t + 1000 * plan.seconds)) := by
    rw [Chunk.limit, ends, Int.toNat_natCast]
  obtain ⟨step, few⟩ := sound.chunk_bounds begun before downloaded.whole
  rw [← limitEq, ← firstEq] at step few
  have size := sound.size_le
  have most := sound.few
  have positive := sound.positive
  have delivers : chunk.Delivers recording plan := by
    have inside : chunk.limit ≤ sampleLimit plan.stop := by
      rw [limitEq, sampleLimit, sampleLimit]
      omega
    refine ⟨holds, by omega, inside, fun aligned => ?_⟩
    obtain ⟨second, rfl⟩ := downloaded.aligned aligned
    have index : sampleIndex (1000 * second) = 120 * second := by
      rw [sampleIndex]
      omega
    rw [firstEq, limitEq, index, sampleLimit]
    exact Nat.dvd_sub (aligned.2.mul_right _) (aligned.2.mul_right second)
  have all : ∀ other ∈ s.chunks ++ [chunk], other.Delivers recording plan := by
    intro other member
    rcases List.mem_append.mp member with earlier | new
    · exact downloaded.delivers other earlier
    · rw [List.mem_singleton.mp new]
      exact delivers
  have covered : chunk.behind plan
      = chunk.first + (chunk.limit - chunk.first) / plan.size * plan.size := rfl
  have steps := Nat.div_add_mod (chunk.limit - chunk.first) plan.size
  rw [Nat.mul_comm] at steps
  have rest := Nat.mod_lt (chunk.limit - chunk.first) positive
  have once := Nat.le_mul_of_pos_left plan.size (Nat.div_pos step positive)
  -- the time of the next request
  obtain ⟨stepsize, reads, value⟩ := asks.means.stepsize
  have limit : lastTime = 4294967296 * 1000 + 1000 := rfl
  have small := timed.small
  have next : chunk.next.toInt
      = (time + (chunk.behind plan - chunk.first) * 1000 / 120 : Nat) := by
    rw [Chunk.next, timed.timestampend, Option.getD_some, UInt64.toInt64_ofNat',
      Int64.toInt_ofNat_of_lt (by omega)]
  have lower := timed.lower
  have upper := timed.upper
  have done := finished_iff value (by omega) next (by omega)
    asks.means.timestampend
  have index := @sampleIndex_next _ (chunk.behind plan - chunk.first) _ lower upper
  have reached := le_sampleLimit (Min.min plan.stop (t + 1000 * plan.seconds))
  rw [obtains.turn_eq]
  cases finishes : client.finished stepsize chunk.next with
  | true =>
      refine .inr ⟨s.chunks ++ [chunk], Client.goOn_eq_leave reads finishes, all, _, appended, ?_⟩
      have short := done.mp finishes
      omega
  | false =>
      have later : time + (chunk.behind plan - chunk.first) * 1000 / 120
          + (plan.size + 1) * 1000 / 120 ≤ plan.stop := by
        refine not_lt.mp fun short => ?_
        rw [done.mpr short] at finishes
        cases finishes
      have whole := le_sampleLimit plan.stop
      have aligned (is : plan.Aligned)
          : 1000 ∣ time + (chunk.behind plan - chunk.first) * 1000 / 120
            ∧ sampleIndex (time + (chunk.behind plan - chunk.first) * 1000 / 120)
              = chunk.behind plan := by
        have same := delivers.behind_eq is
        have begins := exact_ (downloaded.aligned is)
        obtain ⟨second, rfl⟩ := downloaded.aligned is
        rw [same, limitEq, firstEq, begins, sampleIndex, sampleIndex, sampleLimit]
        omega
      rw [sampleIndex_eq] at firstEq index
      have onward : t < time + (chunk.behind plan - chunk.first) * 1000 / 120 := by
        have moves := sound.step
        omega
      refine .inl ⟨_, _, Client.goOn_eq_again reads finishes, ⟨next, by omega, by omega, ?_,
        fun is => (aligned is).1, all, .inr ⟨_, appended, ?_, ?_⟩⟩, onward⟩
      · rw [sampleIndex_eq]
        omega
      · rw [sampleIndex_eq]
        omega
      · rw [Plan.overlap]
        split_ifs with is
        · rw [(aligned is).2]
          exact le_rfl
        · rw [sampleIndex_eq]
          omega

/-- The loop, by its turns. -/
theorem exists_complete (asks : client.Asks archive recording first last plan)
    (sound : plan.Sound first last)
    : ∃ fuel chunks, run client.turn fuel client.begin = some (.exits (.code 0), chunks)
      ∧ Complete recording plan chunks := by
  have begins : Downloaded recording plan client.begin plan.start :=
    ⟨asks.means.timestampstart, le_rfl, sound.ordered, sound.whole, fun aligned => aligned.1,
      by simp [Client.begin], .inl ⟨rfl, rfl⟩⟩
  have again
      : ∀ s next, (∃ t, Downloaded recording plan s t) → client.turn s = .again next →
          (∃ t, Downloaded recording plan next t)
          ∧ ((plan.stop : Int) - next.timestampstartLoop.toInt).toNat
            < ((plan.stop : Int) - s.timestampstartLoop.toInt).toNat := by
    rintro s next ⟨t, downloaded⟩ goes
    rcases turn_downloads asks sound downloaded with ⟨next', u, goes', later, onward⟩ | ⟨_, left, _⟩
    · obtain rfl := Turn.again.inj (goes.symm.trans goes')
      have now := downloaded.now
      have now' := later.now
      have before := later.before
      exact ⟨⟨u, later⟩, by omega⟩
    · rw [goes] at left
      cases left
  have leave
      : ∀ s (result : Ending × List Chunk), (∃ t, Downloaded recording plan s t) →
          client.turn s = .leave result →
          result.1 = .exits (.code 0) ∧ Complete recording plan result.2 := by
    rintro s result ⟨t, downloaded⟩ goes
    rcases turn_downloads asks sound downloaded with ⟨_, _, goes', _, _⟩ | ⟨chunks, left, complete⟩
    · rw [goes] at goes'
      cases goes'
    · obtain rfl := Turn.leave.inj (goes.symm.trans left)
      exact ⟨rfl, complete⟩
  obtain ⟨⟨ending, chunks⟩, ends, rfl, complete⟩ :=
    run_total _ again leave _ client.begin ⟨plan.start, begins⟩ (Nat.lt_succ_self _)
  exact ⟨_, chunks, ends, complete⟩

/-- From an archive without gaps, a download ends with success. For each device and each sample set
its chunks hold what the compressor makes of the recorded samples with the numbers of the chunk.
They begin with that of the start and go on from the last whole step of the chunk before, or one
sample earlier if they are not aligned. Every sample up to a step and a sample before the end is in
a whole step of a chunk.
-/
theorem download_complete (asks : client.Asks archive recording first last plan)
    (sound : plan.Sound first last)
    : ∃ fuel chunks, run client.turn fuel client.begin = some (.exits (.code 0), chunks)
      ∧ Complete recording plan chunks
      ∧ ∀ k, sampleIndex plan.start ≤ k → 25 * (k + plan.size + 1) ≤ 3 * plan.stop →
          ∃ chunk ∈ chunks, chunk.first ≤ k ∧ k < chunk.behind plan := by
  obtain ⟨fuel, chunks, ends, complete⟩ := exists_complete asks sound
  refine ⟨fuel, chunks, ends, complete, fun k behind before => ?_⟩
  obtain ⟨last, tiles, reaches⟩ := complete.tiles
  exact tiles.exists_piece behind (by omega)

-----------------------------------------------------------------------------------------
-- Chunks put together
-----------------------------------------------------------------------------------------

/-- The samples of a chunk for a device and a sample set, by their positions in the plan. -/
def Chunk.samples (chunk : Chunk) (i j : Nat) : Samples :=
  ((chunk.payload.outputsets[i]?.bind (·.sampleset[j]?)).map SampleSet.sample).getD []

theorem exists_getElem?_of_forall₂ {α β : Type} {R : α → β → Prop} {xs : List α} {ys : List β}
    (related : List.Forall₂ R xs ys) {i : Nat} {x : α} (found : xs[i]? = some x)
    : ∃ y, ys[i]? = some y ∧ R x y := by
  induction related generalizing i with
  | nil => simp at found
  | @cons _ y _ _ holds _ ih =>
      cases i with
      | zero => exact ⟨y, rfl, Option.some.inj found ▸ holds⟩
      | succ i => exact ih found

theorem Chunk.Holds.samples_eq {chunk : Chunk} (holds : chunk.Holds recording plan) {i j : Nat}
    {device : Text} {set : Compression × Channel} (named : plan.devices[i]? = some device)
    (requested : plan.sets[j]? = some set)
    : set.1.compressor
        (((Spans.span chunk.first chunk.limit).map (recording device)).map (· set.2))
        (Int32.ofNat plan.size).toUInt32
      = .ok (chunk.samples i j) := by
  obtain ⟨output, found, sets⟩ := exists_getElem?_of_forall₂ holds named
  obtain ⟨entry, found', answers⟩ := exists_getElem?_of_forall₂ sets.sampleset requested
  rw [Chunk.samples, found, Option.bind_some, found']
  exact answers.sample

/-- Vectors may be compressed one by one, if nothing is skipped. -/
theorem Compression.concatenates {compression : Compression} (other : compression ≠ .skip)
    {stepsize : UInt32} (positive : 0 < stepsize.toNat)
    : Concatenates compression.compressor stepsize := by
  cases compression with
  | min => exact combines_concatenates positive fun _ => rfl
  | max => exact combines_concatenates positive fun _ => rfl
  | avg => exact combines_concatenates positive fun _ => rfl
  | skip => exact absurd rfl other
  | raw =>
      intro xs ys first second _ _ returned returned'
      rw [← Except.ok.inj returned, ← Except.ok.inj returned']
      rfl

/-- Put together, the samples of aligned chunks are what the compressor makes of all of them. -/
theorem Complete.compressor_eq {chunks : List Chunk} (complete : Complete recording plan chunks)
    (sound : plan.Sound first last) (aligned : plan.Aligned) {behind : Nat}
    (tiles
      : Tiles Chunk.first (Chunk.behind plan) plan.overlap (sampleIndex plan.start) chunks behind)
    (short : behind - sampleIndex plan.start + plan.size < 2147483648) {i j : Nat} {device : Text}
    {set : Compression × Channel} (named : plan.devices[i]? = some device)
    (requested : plan.sets[j]? = some set)
    : set.1.compressor
        (((Spans.span (sampleIndex plan.start) behind).map (recording device)).map (· set.2))
        (Int32.ofNat plan.size).toUInt32
      = .ok (chunks.flatMap (·.samples i j)) := by
  have size := sound.size_le
  have few := sound.few
  have value : (Int32.ofNat plan.size).toUInt32.toNat = plan.size := by
    have same : (Int32.ofNat plan.size).toInt = plan.size := Int32.toInt_ofNat_of_lt (by omega)
    have word := @stepsize_toNat (Int32.ofNat plan.size) (by omega)
    omega
  have other : set.1 ≠ .skip := by
    intro skip
    exact sound.skip (skip ▸ (mem_sets_iff.mp (List.mem_of_getElem? requested)).1)
  have concatenates : Concatenates set.1.compressor (Int32.ofNat plan.size).toUInt32 :=
    Compression.concatenates other (by rw [value]; exact sound.positive)
  rw [Plan.overlap, if_pos aligned] at tiles
  have together := @tiles.whole _ _ _ _ _ _ _ (fun lo hi xs => lo ≤ hi ∧ plan.size ∣ hi - lo
      ∧ (hi - lo + plan.size < 2147483648 →
          set.1.compressor (((Spans.span lo hi).map (recording device)).map (· set.2))
            (Int32.ofNat plan.size).toUInt32 = .ok xs))
    ?_ (·.samples i j) ?_
  · exact together.2.2 short
  · rintro a b c xs ys ⟨ordered, divides, before⟩ ⟨ordered', divides', after⟩
    have parts : c - a = (b - a) + (c - b) := by omega
    refine ⟨ordered.trans ordered', parts ▸ Nat.dvd_add divides divides', fun short => ?_⟩
    rw [← Spans.span_append ordered ordered', List.map_append, List.map_append]
    refine concatenates _ _ xs ys ?_ ?_ (before (by omega)) (after (by omega))
    · rw [List.length_map, List.length_map, Spans.length_span, value]
      exact divides
    · rw [← List.map_append, ← List.map_append, List.length_map, List.length_map,
        Spans.span_append ordered ordered', Spans.length_span, value]
      exact short
  · intro chunk member
    have delivers := complete.delivers chunk member
    rw [delivers.behind_eq aligned]
    exact ⟨delivers.ordered, delivers.divides aligned,
      fun _ => delivers.holds.samples_eq named requested⟩

/-- If the interval begins with a second and each second is divided into steps, the chunks put
together are what the compressor would have made of the whole interval at once, up to a step and a
sample before its end: nothing is lost at their borders and nothing is there twice.
-/
theorem download_whole (asks : client.Asks archive recording first last plan)
    (sound : plan.Sound first last) (aligned : plan.Aligned)
    (short : sampleLimit plan.stop + plan.size < sampleIndex plan.start + 2147483648)
    : ∃ fuel chunks behind,
      run client.turn fuel client.begin = some (.exits (.code 0), chunks)
      ∧ behind ≤ sampleLimit plan.stop ∧ 3 * plan.stop < 25 * (behind + plan.size + 1)
      ∧ ∀ (i j : Nat) (device : Text) (set : Compression × Channel),
          plan.devices[i]? = some device → plan.sets[j]? = some set →
          set.1.compressor
              (((Spans.span (sampleIndex plan.start) behind).map (recording device)).map (· set.2))
              (Int32.ofNat plan.size).toUInt32
            = .ok (chunks.flatMap (·.samples i j)) := by
  obtain ⟨fuel, chunks, ends, complete⟩ := exists_complete asks sound
  obtain ⟨behind, tiles, reaches⟩ := complete.tiles
  have inside : behind ≤ sampleLimit plan.stop := by
    obtain ⟨chunk, member, rfl⟩ := tiles.exists_last
    have delivers := complete.delivers chunk member
    rw [delivers.behind_eq aligned]
    exact delivers.inside
  have size := sound.size_le
  have few := sound.few
  refine ⟨fuel, chunks, behind, ends, inside, reaches, fun i j device set named requested => ?_⟩
  exact complete.compressor_eq sound aligned tiles (by omega) named requested

end Download

-----------------------------------------------------------------------------------------
-- One second
-----------------------------------------------------------------------------------------

def zeros : Recording := fun _ _ _ => 0

def rawSecondPlan : Plan where
  devices := ["P3001199".toList]
  requested := true :: List.replicate 11 false
  compressionMethod := 16
  size := 1
  seconds := 69905
  start := 1480355400000
  stop := 1480355401000

theorem rawSecond_records
    : Archive.Records (fun _ => some [zeroSecond]) zeros 1480355400 1480355401
        rawSecondPlan.devices := by
  intro device _ tmp tmp2 inside
  have begins := inside.begins
  have ordered := inside.ordered
  have ends := inside.ends
  have first : tmp.toNat / 1000 = 1480355400 := by omega
  have last : (tmp2.toNat + 999) / 1000 = 1480355401 := by omega
  have row : secondRow zeros device 1480355400 = zeroSecond := by
    have samples
        : (List.range 120).map (fun k => zeros device (120 * 1480355400 + k))
          = List.replicate 120 fun _ => 0 :=
      List.map_const'
    rw [secondRow, samples]
    rfl
  rw [foundSeconds_eq inside, first, last]
  exact congrArg (fun row => some [row]) row.symm

theorem rawSecond_asks
    : rawSecondClient.Asks (fun _ => some [zeroSecond]) zeros 1480355400 1480355401
        rawSecondPlan := by
  have accepted : prepare rawSecondArguments = .ok rawSecond := by decide +kernel
  refine ⟨⟨prepare_checked accepted, by decide +kernel, by decide +kernel, by decide +kernel,
    ⟨1, by decide +kernel, rfl⟩, rfl, rfl, rfl⟩, fun _ _ => ⟨_, rfl, rfl⟩, rawSecond_records, ?_,
    ?_, ⟨by decide, ⟨8, by decide +kernel⟩⟩⟩
  · simp [rawSecondPlan, AreBytes]
  · refine ⟨⟨'9', by decide, by decide⟩, by decide +kernel, fun _ _ _ => by decide +kernel,
      ⟨1, by decide +kernel, by decide +kernel⟩, by decide +kernel⟩

theorem rawSecond_sound : rawSecondPlan.Sound 1480355400 1480355401 := by
  refine ⟨?_, ?_, ?_, ?_, ?_, ?_, ?_, ?_, ?_, ?_⟩ <;> decide +kernel

theorem download_complete_second
    : ∃ fuel chunks, run rawSecondClient.turn fuel rawSecondClient.begin
        = some (.exits (.code 0), chunks)
      ∧ Complete zeros rawSecondPlan chunks := by
  obtain ⟨fuel, chunks, ends, complete, -⟩ := download_complete rawSecond_asks rawSecond_sound
  exact ⟨fuel, chunks, ends, complete⟩

theorem download_whole_second
    : ∃ fuel chunks, run rawSecondClient.turn fuel rawSecondClient.begin
        = some (.exits (.code 0), chunks)
      ∧ ∃ behind, compressorRaw ((Spans.span 177642648000 behind).map fun _ => (0 : Float32)) 1
          = .ok (chunks.flatMap (·.samples 0 0)) := by
  obtain ⟨fuel, chunks, behind, ends, -, -, whole⟩ :=
    download_whole rawSecond_asks rawSecond_sound (by decide +kernel) (by decide +kernel)
  have first := whole 0 0 "P3001199".toList (.raw, .l1mag) (by decide +kernel) (by decide +kernel)
  rw [List.map_map] at first
  exact ⟨fuel, chunks, ends, behind, first⟩

end Sparcs.CassSpeed
