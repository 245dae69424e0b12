import Mathlib.Data.List.Induction
import Mathlib.Tactic.Common

/-! Segmentation of a symbol stream into runs of one kind, one symbol at a time.
A run longer than the cap is cut: the segment so far is emitted and counting restarts at
the symbol that exceeded the cap. The scan carries one open run and its count only.
-/

namespace RunScan

variable {β : Type} [DecidableEq β]

/-- A finished segment: `count` symbols of one kind, ending before index `stop`.
A capped segment ends with the symbol at `stop` instead, which its count includes.
-/
structure Segment (β : Type) where
  kind : β
  count : Nat
  stop : Nat
  capped : Bool
  deriving DecidableEq

/-- The run the stream currently is in, with the number of symbols counted for it. -/
abbrev OpenRun (β : Type) := Option (β × Nat)

/-- One symbol at index `index`; `none` is a symbol of no kind. -/
def step (cap index : Nat) : OpenRun β → Option β → OpenRun β × List (Segment β)
  | none, symbol => (symbol.map (·, 1), [])
  | some (kind, count), symbol =>
      if symbol = some kind then
        if cap < count + 1 then (some (kind, 1), [⟨kind, count + 1, index, true⟩])
        else (some (kind, count + 1), [])
      else (symbol.map (·, 1), [⟨kind, count, index, false⟩])

/-- All symbols from index `index` on, with the segments in order of emission. -/
def scan (cap : Nat) : Nat → OpenRun β → List (Option β) → OpenRun β × List (Segment β)
  | _, run, [] => (run, [])
  | index, run, symbol :: rest =>
      let now := step cap index run symbol
      let later := scan cap (index + 1) now.1 rest
      (later.1, now.2 ++ later.2)

/-- The segment that an open run would become if it ended before `index`. -/
def OpenRun.close (run : OpenRun β) (index : Nat) : List (Segment β) :=
  match run with
  | none => []
  | some (kind, count) => [⟨kind, count, index, false⟩]

/-- The count of the open run if it is of this kind, and zero otherwise. -/
def OpenRun.countOf (run : OpenRun β) (kind : β) : Nat :=
  match run with
  | none => 0
  | some (openKind, count) => if openKind = kind then count else 0

variable {cap : Nat}

-----------------------------------------------------------------------------------------
-- Scanning in pieces
-----------------------------------------------------------------------------------------

@[simp] theorem scan_nil (index : Nat) (run : OpenRun β)
    : scan cap index run [] = (run, []) := rfl

theorem scan_cons (index : Nat) (run : OpenRun β) (symbol : Option β)
    (rest : List (Option β))
    : scan cap index run (symbol :: rest)
      = ((scan cap (index + 1) (step cap index run symbol).1 rest).1,
          (step cap index run symbol).2
            ++ (scan cap (index + 1) (step cap index run symbol).1 rest).2) := rfl

/-- A scan may be cut anywhere: the open run is all that crosses the cut. -/
theorem scan_append (index : Nat) (run : OpenRun β) (left right : List (Option β))
    : scan cap index run (left ++ right)
      = ((scan cap (index + left.length) (scan cap index run left).1 right).1,
          (scan cap index run left).2
            ++ (scan cap (index + left.length) (scan cap index run left).1 right).2) := by
  induction left generalizing index run with
  | nil => simp
  | cons symbol rest ih =>
      simp only [List.cons_append, scan_cons, ih, List.length_cons, List.append_assoc,
        Nat.add_assoc, Nat.add_comm 1]

/-- A symbol that does not continue the open run closes it. -/
theorem step_close {run : OpenRun β} {symbol : Option β} (index : Nat)
    (other : ∀ kind count, run = some (kind, count) → symbol ≠ some kind)
    : step cap index run symbol = (symbol.map (·, 1), run.close index) := by
  cases run with
  | none => rfl
  | some pair => simp [step, OpenRun.close, other pair.1 pair.2 rfl]

/-- Symbols of the open run's kind only raise its count while the cap is not exceeded. -/
theorem scan_replicate (index : Nat) (kind : β) (count more : Nat)
    (below : count + more ≤ cap)
    : scan cap index (some (kind, count)) (List.replicate more (some kind))
      = (some (kind, count + more), []) := by
  induction more generalizing index count with
  | zero => rfl
  | succ more ih =>
      have fits : ¬cap < count + 1 := by omega
      have next := ih (index + 1) (count + 1) (by omega)
      simp only [List.replicate_succ, scan_cons, step, if_true, fits, if_false, next,
        List.nil_append]
      congr 3
      omega

/-- A run that does not continue the open one closes it and is counted from its start. -/
theorem scan_fresh {run : OpenRun β} (index : Nat) (kind : β) (more : Nat)
    (other : ∀ count, run ≠ some (kind, count)) (below : more + 1 ≤ cap)
    : scan cap index run (List.replicate (more + 1) (some kind))
      = (some (kind, more + 1), run.close index) := by
  have closes : step cap index run (some kind) = (some (kind, 1), run.close index) :=
    step_close index
      (fun kind' count opened same => other count (Option.some.inj same ▸ opened))
  rw [List.replicate_succ, scan_cons, closes,
    scan_replicate (index + 1) kind 1 more (by omega), List.append_nil, Nat.add_comm 1]

/-- At the cap the open run is cut, and the symbol that exceeded it starts a new one. -/
theorem scan_cross (index : Nat) (kind : β) (count more : Nat) (limit : count + more = cap)
    (rest : List (Option β))
    : scan cap index (some (kind, count)) (List.replicate (more + 1) (some kind) ++ rest)
      = ((scan cap (index + more) none (some kind :: rest)).1,
          ⟨kind, cap + 1, index + more, true⟩
            :: (scan cap (index + more) none (some kind :: rest)).2) := by
  rw [List.replicate_succ', List.append_assoc, List.singleton_append, scan_append,
    scan_replicate index kind count more (by omega), List.length_replicate, scan_cons,
    scan_cons, limit]
  simp [step]

/-- The same cut for a run that first closes another one. -/
theorem scan_fresh_cross {run : OpenRun β} (index : Nat) (kind : β)
    (other : ∀ count, run ≠ some (kind, count)) (positive : 0 < cap)
    (rest : List (Option β))
    : scan cap index run (List.replicate (cap + 1) (some kind) ++ rest)
      = ((scan cap (index + cap) none (some kind :: rest)).1,
          run.close index
            ++ ⟨kind, cap + 1, index + cap, true⟩
              :: (scan cap (index + cap) none (some kind :: rest)).2) := by
  have closes : step cap index run (some kind) = (some (kind, 1), run.close index) :=
    step_close index
      (fun kind' count opened same => other count (Option.some.inj same ▸ opened))
  obtain ⟨more, rfl⟩ : ∃ more, cap = more + 1 := ⟨cap - 1, by omega⟩
  rw [List.replicate_succ, List.cons_append, scan_cons, closes,
    scan_cross (index + 1) kind 1 more (by omega)]
  simp only [Nat.add_right_comm index 1 more, Nat.add_assoc]

/-- After a symbol the open run has the symbol's kind. -/
theorem step_kind (index : Nat) (run : OpenRun β) (symbol : Option β)
    : (step cap index run symbol).1.map Prod.fst = symbol := by
  cases run with
  | none => cases symbol <;> rfl
  | some pair =>
      simp only [step]
      split
      · next same => split <;> simp [same]
      · cases symbol <;> rfl

-----------------------------------------------------------------------------------------
-- Maximal runs
-----------------------------------------------------------------------------------------

/-- The symbols from `start` up to but not including `stop` form a maximal run. -/
structure IsRun (stream : List (Option β)) (kind : β) (start stop : Nat) : Prop where
  nonempty : start < stop
  bound : stop ≤ stream.length
  inside : ∀ index, start ≤ index → index < stop → stream[index]? = some (some kind)
  left : ∀ index, index + 1 = start → stream[index]? ≠ some (some kind)
  right : stream[stop]? ≠ some (some kind)

omit [DecidableEq β] in
theorem IsRun.shorter {stream : List (Option β)} {symbol : Option β} {kind : β}
    {start stop : Nat} (inner : stop < stream.length)
    : IsRun (stream ++ [symbol]) kind start stop ↔ IsRun stream kind start stop := by
  constructor
  · rintro ⟨nonempty, -, inside, left, right⟩
    refine ⟨nonempty, Nat.le_of_lt inner, ?_, ?_, by rwa [List.getElem?_append_left inner] at right⟩
    · intro index from_ upto
      rw [← List.getElem?_append_left (by omega)]
      exact inside index from_ upto
    · intro index next
      rw [← List.getElem?_append_left (by omega)]
      exact left index next
  · rintro ⟨nonempty, -, inside, left, right⟩
    refine ⟨nonempty, by simp; omega, ?_, ?_, by rwa [List.getElem?_append_left inner]⟩
    · intro index from_ upto
      rw [List.getElem?_append_left (by omega)]
      exact inside index from_ upto
    · intro index next
      rw [List.getElem?_append_left (by omega)]
      exact left index next

omit [DecidableEq β] in
/-- A run up to the old end is finished by the new symbol unless that continues it. -/
theorem IsRun.at_end {stream : List (Option β)} {symbol : Option β} {kind : β}
    {start : Nat}
    : IsRun (stream ++ [symbol]) kind start stream.length
      ↔ IsRun stream kind start stream.length ∧ symbol ≠ some kind := by
  have new : (stream ++ [symbol])[stream.length]? = some symbol := by simp
  constructor
  · rintro ⟨nonempty, -, inside, left, right⟩
    refine ⟨⟨nonempty, Nat.le_refl _, ?_, ?_, by simp⟩,
      fun continued => right (by rw [new, continued])⟩
    · intro index from_ upto
      rw [← List.getElem?_append_left upto]
      exact inside index from_ upto
    · intro index next
      rw [← List.getElem?_append_left (by omega)]
      exact left index next
  · rintro ⟨⟨nonempty, -, inside, left, -⟩, other⟩
    refine ⟨nonempty, by simp, ?_, ?_, fun continued => other ?_⟩
    · intro index from_ upto
      rw [List.getElem?_append_left upto]
      exact inside index from_ upto
    · intro index next
      rw [List.getElem?_append_left (by omega)]
      exact left index next
    · rw [new] at continued
      exact Option.some.inj continued

omit [DecidableEq β] in
/-- A run up to the new end continues one up to the old end or starts with the symbol. -/
theorem IsRun.at_new_end {stream : List (Option β)} {symbol : Option β} {kind : β}
    {start : Nat}
    : IsRun (stream ++ [symbol]) kind start (stream.length + 1)
      ↔ symbol = some kind
        ∧ (IsRun stream kind start stream.length
          ∨ start = stream.length
            ∧ ∀ index, index + 1 = stream.length → stream[index]? ≠ some (some kind)) := by
  have new : (stream ++ [symbol])[stream.length]? = some symbol := by simp
  constructor
  · rintro ⟨nonempty, -, inside, left, right⟩
    have last := inside stream.length (by omega) (by omega)
    rw [new] at last
    refine ⟨Option.some.inj last, ?_⟩
    by_cases fresh : start = stream.length
    · subst fresh
      refine Or.inr ⟨rfl, ?_⟩
      intro index next
      rw [← List.getElem?_append_left (by omega)]
      exact left index next
    · refine Or.inl ⟨by omega, Nat.le_refl _, ?_, ?_, by simp⟩
      · intro index from_ upto
        rw [← List.getElem?_append_left upto]
        exact inside index from_ (by omega)
      · intro index next
        rw [← List.getElem?_append_left (by omega)]
        exact left index next
  · rintro ⟨rfl, ⟨nonempty, -, inside, left, -⟩ | ⟨rfl, boundary⟩⟩
    · refine ⟨by omega, by simp, ?_, ?_, by simp⟩
      · intro index from_ upto
        rcases Nat.lt_succ_iff_lt_or_eq.mp upto with old | rfl
        · rw [List.getElem?_append_left old]
          exact inside index from_ old
        · exact new
      · intro index next
        rw [List.getElem?_append_left (by omega)]
        exact left index next
    · refine ⟨by omega, by simp, ?_, ?_, by simp⟩
      · intro index from_ upto
        obtain rfl : index = stream.length := by omega
        exact new
      · intro index next
        rw [List.getElem?_append_left (by omega)]
        exact boundary index next

omit [DecidableEq β] in
/-- Two runs that reach one index are equal: both start after the last foreign symbol. -/
theorem IsRun.start_unique {stream : List (Option β)} {kind kind' : β}
    {start start' stop : Nat} (run : IsRun stream kind start stop)
    (run' : IsRun stream kind' start' stop)
    : kind = kind' ∧ start = start' := by
  have last := run.inside (stop - 1) (by have := run.nonempty; omega)
    (by have := run.nonempty; omega)
  have last' := run'.inside (stop - 1) (by have := run'.nonempty; omega)
    (by have := run'.nonempty; omega)
  obtain rfl : kind = kind' := Option.some.inj (Option.some.inj (last.symm.trans last'))
  refine ⟨rfl, ?_⟩
  rcases Nat.lt_trichotomy start start' with earlier | same | later
  · exact absurd (run.inside (start' - 1) (by omega) (by have := run'.nonempty; omega))
      (run'.left (start' - 1) (by omega))
  · exact same
  · exact absurd (run'.inside (start - 1) (by omega) (by have := run.nonempty; omega))
      (run.left (start - 1) (by omega))

omit [DecidableEq β] in
/-- The last symbol of a stream belongs to a run, by induction from the right. -/
theorem exists_run_at_end {stream : List (Option β)} {kind : β} {index : Nat}
    (next : index + 1 = stream.length) (last : stream[index]? = some (some kind))
    : ∃ start, IsRun stream kind start stream.length := by
  induction stream using List.reverseRecOn generalizing index with
  | nil => simp at next
  | append_singleton init symbol ih =>
      obtain rfl : index = init.length := by simpa using next
      obtain rfl : symbol = some kind := by simpa using last
      rw [List.length_append, List.length_singleton]
      by_cases continued
        : ∃ before, before + 1 = init.length ∧ init[before]? = some (some kind)
      · obtain ⟨before, next', last'⟩ := continued
        obtain ⟨start, run⟩ := ih next' last'
        exact ⟨start, IsRun.at_new_end.mpr ⟨rfl, Or.inl run⟩⟩
      · refine ⟨init.length, IsRun.at_new_end.mpr ⟨rfl, Or.inr ⟨rfl, ?_⟩⟩⟩
        exact fun before next' last' => continued ⟨before, next', last'⟩

omit [DecidableEq β] in
/-- One more symbol leaves a run as it is or makes it longer. -/
theorem IsRun.extend {stream : List (Option β)} {kind : β} {start stop : Nat}
    (run : IsRun stream kind start stop) (symbol : Option β)
    : ∃ stop', stop ≤ stop' ∧ IsRun (stream ++ [symbol]) kind start stop' := by
  rcases Nat.lt_or_eq_of_le run.bound with inner | rfl
  · exact ⟨stop, Nat.le_refl _, (IsRun.shorter inner).mpr run⟩
  · by_cases continued : symbol = some kind
    · exact ⟨stream.length + 1, Nat.le_succ _, IsRun.at_new_end.mpr ⟨continued, Or.inl run⟩⟩
    · exact ⟨stream.length, Nat.le_refl _, IsRun.at_end.mpr ⟨run, continued⟩⟩

-----------------------------------------------------------------------------------------
-- Segments of a stream and its maximal runs
-----------------------------------------------------------------------------------------

/-- How the segments of a scanned stream lie in its maximal runs. A run within the cap is
one segment; the last segment of a longer one counts a part of it.
-/
structure Tracks (cap : Nat) (stream : List (Option β)) (run : OpenRun β)
    (segments : List (Segment β)) : Prop where
  sorted : segments.Pairwise (fun earlier later => earlier.stop < later.stop)
  inside : ∀ segment ∈ segments, segment.stop < stream.length
  capped
    : ∀ segment ∈ segments, segment.capped = true
        → ∃ start stop, IsRun stream segment.kind start stop ∧ cap < stop - start
  finished
    : ∀ segment ∈ segments, segment.capped = false
        → ∃ start,
            IsRun stream segment.kind start segment.stop
            ∧ segment.count ≤ segment.stop - start
            ∧ (segment.stop - start ≤ cap → segment.count = segment.stop - start)
  complete
    : ∀ kind start stop,
        IsRun stream kind start stop → stop < stream.length → stop - start ≤ cap
        → ⟨kind, stop - start, stop, false⟩ ∈ segments
  openRun
    : ∀ kind count, run = some (kind, count)
        → ∃ start,
            IsRun stream kind start stream.length
            ∧ count ≤ stream.length - start
            ∧ (stream.length - start ≤ cap → count = stream.length - start)
  closed : run = none → ∀ kind start, ¬IsRun stream kind start stream.length

section Tracks

variable {stream : List (Option β)} {run : OpenRun β} {segments : List (Segment β)}

omit [DecidableEq β] in
theorem Tracks.initial : Tracks cap ([] : List (Option β)) none [] where
  sorted := .nil
  inside := by simp
  capped := by simp
  finished := by simp
  complete := fun _ _ _ _ before => absurd before (Nat.not_lt_zero _)
  openRun := by simp
  closed := fun _ _ _ run => absurd run.nonempty (Nat.not_lt_zero _)

omit [DecidableEq β] in
/-- The open run is the only one that reaches the end of the stream. -/
theorem Tracks.open_unique (tracks : Tracks cap stream run segments) {kind : β}
    {start : Nat} (last : IsRun stream kind start stream.length)
    : ∃ count,
        run = some (kind, count)
        ∧ (stream.length - start ≤ cap → count = stream.length - start) := by
  cases run with
  | none => exact absurd last (tracks.closed rfl kind start)
  | some pair =>
      obtain ⟨start', open_, _, counted⟩ := tracks.openRun pair.1 pair.2 rfl
      obtain ⟨rfl, rfl⟩ := open_.start_unique last
      exact ⟨pair.2, rfl, counted⟩

omit [DecidableEq β] in
/-- What a symbol adds to the segments ends at the symbol. -/
theorem Tracks.append (tracks : Tracks cap stream run segments) {symbol : Option β}
    {run' : OpenRun β} {more : List (Segment β)} (single : more.length ≤ 1)
    (stops : ∀ segment ∈ more, segment.stop = stream.length)
    (capped
      : ∀ segment ∈ more, segment.capped = true
          → ∃ start stop,
              IsRun (stream ++ [symbol]) segment.kind start stop ∧ cap < stop - start)
    (finished
      : ∀ segment ∈ more, segment.capped = false
          → ∃ start,
              IsRun (stream ++ [symbol]) segment.kind start segment.stop
              ∧ segment.count ≤ segment.stop - start
              ∧ (segment.stop - start ≤ cap → segment.count = segment.stop - start))
    (complete
      : ∀ kind start,
          IsRun (stream ++ [symbol]) kind start stream.length
          → stream.length - start ≤ cap
          → ⟨kind, stream.length - start, stream.length, false⟩ ∈ more)
    (openRun
      : ∀ kind count, run' = some (kind, count)
          → ∃ start,
              IsRun (stream ++ [symbol]) kind start (stream.length + 1)
              ∧ count ≤ stream.length + 1 - start
              ∧ (stream.length + 1 - start ≤ cap → count = stream.length + 1 - start))
    (closed
      : run' = none → ∀ kind start, ¬IsRun (stream ++ [symbol]) kind start (stream.length + 1))
    : Tracks cap (stream ++ [symbol]) run' (segments ++ more) := by
  have length : (stream ++ [symbol]).length = stream.length + 1 := by simp
  refine ⟨?_, ?_, ?_, ?_, ?_, by rwa [length], by rwa [length]⟩
  · refine List.pairwise_append.mpr ⟨tracks.sorted, ?_, ?_⟩
    · match more, single with
      | [], _ => exact .nil
      | [segment], _ => exact List.pairwise_singleton ..
    · intro earlier old later new
      rw [stops later new]
      exact tracks.inside earlier old
  · intro segment member
    rw [length]
    rcases List.mem_append.mp member with old | new
    · exact Nat.lt_trans (tracks.inside segment old) (Nat.lt_succ_self _)
    · rw [stops segment new]
      exact Nat.lt_succ_self _
  · intro segment member cut
    rcases List.mem_append.mp member with old | new
    · obtain ⟨start, stop, run, long⟩ := tracks.capped segment old cut
      obtain ⟨stop', later, longer⟩ := run.extend symbol
      exact ⟨start, stop', longer, by omega⟩
    · exact capped segment new cut
  · intro segment member whole
    rcases List.mem_append.mp member with old | new
    · obtain ⟨start, run, counted⟩ := tracks.finished segment old whole
      exact ⟨start, (IsRun.shorter (tracks.inside segment old)).mpr run, counted⟩
    · exact finished segment new whole
  · intro kind start stop run before within
    rw [length] at before
    rw [List.mem_append]
    rcases Nat.lt_or_eq_of_le (Nat.lt_succ_iff.mp before) with inner | rfl
    · exact Or.inl (tracks.complete kind start stop ((IsRun.shorter inner).mp run) inner within)
    · exact Or.inr (complete kind start run within)

/-- One symbol keeps the segments in step with the runs: it counts for the open run, cuts it
at the cap, or closes it.
-/
theorem Tracks.step (tracks : Tracks cap stream run segments) (symbol : Option β)
    : Tracks cap (stream ++ [symbol]) (RunScan.step cap stream.length run symbol).1
        (segments ++ (RunScan.step cap stream.length run symbol).2) := by
  by_cases continued : ∃ kind count, run = some (kind, count) ∧ symbol = some kind
  · obtain ⟨kind, count, rfl, rfl⟩ := continued
    obtain ⟨start, open_, counted, exact_⟩ := tracks.openRun kind count rfl
    have grown := IsRun.at_new_end.mpr ⟨rfl, Or.inl open_⟩
    have nonempty := open_.nonempty
    have none_ends (kind' : β) (start' : Nat)
        : ¬IsRun (stream ++ [some kind]) kind' start' stream.length := by
      intro run
      obtain ⟨old, other⟩ := IsRun.at_end.mp run
      exact other (congrArg some (open_.start_unique old).1)
    by_cases below : cap < count + 1
    · simp only [RunScan.step, if_true, below]
      apply tracks.append (by simp) (by simp)
      · intro segment new _
        obtain rfl := List.mem_singleton.mp new
        exact ⟨start, stream.length + 1, grown, by omega⟩
      · intro segment new whole
        obtain rfl := List.mem_singleton.mp new
        cases whole
      · exact fun kind' start' run => absurd run (none_ends kind' start')
      · intro kind' count' same
        obtain ⟨rfl, rfl⟩ := Prod.mk.inj (Option.some.inj same)
        exact ⟨start, grown, by omega, by omega⟩
      · exact fun same => absurd same (by simp)
    · simp only [RunScan.step, if_true, below, if_false]
      apply tracks.append (by simp) (by simp) (by simp) (by simp)
      · exact fun kind' start' run => absurd run (none_ends kind' start')
      · intro kind' count' same
        obtain ⟨rfl, rfl⟩ := Prod.mk.inj (Option.some.inj same)
        exact ⟨start, grown, by omega, by omega⟩
      · exact fun same => absurd same (by simp)
  · have other : ∀ kind count, run = some (kind, count) → symbol ≠ some kind :=
      fun kind count opened same => continued ⟨kind, count, opened, same⟩
    rw [step_close stream.length other]
    have closes (segment : Segment β) (new : segment ∈ run.close stream.length)
        : run = some (segment.kind, segment.count)
          ∧ segment.stop = stream.length
          ∧ segment.capped = false := by
      cases run with
      | none => cases new
      | some pair =>
          obtain rfl := List.mem_singleton.mp new
          exact ⟨rfl, rfl, rfl⟩
    apply tracks.append
    · cases run <;> simp [OpenRun.close]
    · exact fun segment new => (closes segment new).2.1
    · intro segment new cut
      rw [(closes segment new).2.2] at cut
      cases cut
    · intro segment new _
      obtain ⟨opened, stop, _⟩ := closes segment new
      obtain ⟨start, open_, counted⟩ := tracks.openRun _ _ opened
      rw [stop]
      exact ⟨start, IsRun.at_end.mpr ⟨open_, other _ _ opened⟩, counted⟩
    · intro kind start run' within
      obtain ⟨count, rfl, counted⟩ := tracks.open_unique (IsRun.at_end.mp run').1
      rw [counted within, OpenRun.close]
      exact List.mem_singleton_self _
    · intro kind count opened
      obtain ⟨kind', rfl, same⟩ := Option.map_eq_some_iff.mp opened
      obtain ⟨rfl, rfl⟩ := Prod.mk.inj same
      refine ⟨stream.length, IsRun.at_new_end.mpr ⟨rfl, Or.inr ⟨rfl, ?_⟩⟩, by omega, by omega⟩
      intro index next last
      obtain ⟨start, run'⟩ := exists_run_at_end next last
      obtain ⟨count, opened, _⟩ := tracks.open_unique run'
      exact other kind' count opened rfl
    · intro isOpen kind start run'
      obtain ⟨same, _⟩ := IsRun.at_new_end.mp run'
      rw [same] at isOpen
      cases isOpen

/-- The scan of a stream keeps in step with its runs, by induction from the right. -/
theorem scan_tracks (stream : List (Option β))
    : Tracks cap stream (scan cap 0 none stream).1 (scan cap 0 none stream).2 := by
  induction stream using List.reverseRecOn with
  | nil => exact Tracks.initial
  | append_singleton init symbol ih =>
      rw [scan_append, Nat.zero_add]
      simpa only [scan_cons, scan_nil, List.append_nil] using ih.step symbol

end Tracks

-----------------------------------------------------------------------------------------
-- Streams without long runs
-----------------------------------------------------------------------------------------

/-- No maximal run is longer than the cap. -/
def Short (cap : Nat) (stream : List (Option β)) : Prop :=
  ∀ kind start stop, IsRun stream kind start stop → stop - start ≤ cap

/-- The scan of a whole stream has emitted exactly its finished runs, in order, and its
open run is the run that reaches the end of the stream.
-/
structure Complete (stream : List (Option β)) (run : OpenRun β)
    (segments : List (Segment β)) : Prop where
  sorted : segments.Pairwise (fun earlier later => earlier.stop < later.stop)
  exact
    : ∀ segment,
        segment ∈ segments
        ↔ segment.capped = false
          ∧ segment.stop < stream.length
          ∧ segment.count ≤ segment.stop
          ∧ IsRun stream segment.kind (segment.stop - segment.count) segment.stop
  openRun
    : ∀ kind count,
        run = some (kind, count)
        ↔ count ≤ stream.length
          ∧ IsRun stream kind (stream.length - count) stream.length

/-- A stream without long runs is segmented exactly into its maximal runs: a capped segment
would be in a run above the cap.
-/
theorem scan_complete {stream : List (Option β)} (short : Short cap stream)
    : Complete stream (scan cap 0 none stream).1 (scan cap 0 none stream).2 := by
  have tracks := @scan_tracks _ _ cap stream
  refine ⟨tracks.sorted, ?_, ?_⟩
  · intro segment
    constructor
    · intro emitted
      have whole : segment.capped = false := by
        rw [← Bool.not_eq_true]
        intro cut
        obtain ⟨start, stop, run, long⟩ := tracks.capped segment emitted cut
        have := short _ _ _ run
        omega
      obtain ⟨start, run, _, counted⟩ := tracks.finished segment emitted whole
      have nonempty := run.nonempty
      have count := counted (short _ _ _ run)
      have begins : segment.stop - segment.count = start := by omega
      exact ⟨whole, tracks.inside segment emitted, by omega, by rwa [begins]⟩
    · intro finished
      obtain ⟨whole, inner, counted, run⟩ := finished
      have listed := tracks.complete _ _ _ run inner (short _ _ _ run)
      rwa [Nat.sub_sub_self counted, ← whole] at listed
  · intro kind count
    constructor
    · intro opened
      obtain ⟨start, run, _, counted⟩ := tracks.openRun kind count opened
      have nonempty := run.nonempty
      have count_eq := counted (short _ _ _ run)
      have begins : stream.length - count = start := by omega
      exact ⟨by omega, by rwa [begins]⟩
    · intro last
      obtain ⟨fits, run⟩ := last
      obtain ⟨count', opened, counted⟩ := tracks.open_unique run
      rw [opened, counted (short _ _ _ run), Nat.sub_sub_self fits]

end RunScan
