import Mathlib.Tactic.Common

/-! Length-prefixed framing of a byte stream. A header function reads the kind and the size
of the frame at the front, once enough bytes are there; a one-pass parser cuts off frames
while they are complete. Parsing a stream piece by piece, with the rest carried over, cuts
the same frames.
-/

namespace Framing

variable {α κ : Type}

/-- A header that has been read stays the same when more bytes arrive. -/
def Stable (header : List α → Option (κ × Nat)) : Prop :=
  ∀ bytes more field, header bytes = some field → header (bytes ++ more) = some field

/-- A complete frame at the front of the bytes. It is not empty and lies inside them. -/
structure Cut (κ : Type) (bytes : List α) where
  kind : κ
  size : Nat
  positive : 0 < size
  fits : size ≤ bytes.length

/-- The frame is still there when more bytes arrive. -/
def Cut.extend {bytes : List α} (cut : Cut κ bytes) (more : List α)
    : Cut κ (bytes ++ more) :=
  { kind := cut.kind
    size := cut.size
    positive := cut.positive
    fits := by
      rw [List.length_append]
      exact Nat.le_add_right_of_le cut.fits }

variable (header : List α → Option (κ × Nat))

/-- The frame at the front, if it is complete. A size of zero cuts nothing. -/
def front (bytes : List α) : Option (Cut κ bytes) :=
  match header bytes with
  | none => none
  | some (kind, size) =>
      if bounds : 0 < size ∧ size ≤ bytes.length then
        some ⟨kind, size, bounds.1, bounds.2⟩
      else none

/-- The frames cut from the bytes, with the bytes that are left. -/
def parse (bytes : List α) : List (κ × List α) × List α :=
  match front header bytes with
  | none => ([], bytes)
  | some cut =>
      let later := parse (bytes.drop cut.size)
      ((cut.kind, bytes.take cut.size) :: later.1, later.2)
termination_by bytes.length
decreasing_by
  have positive := cut.positive
  have fits := cut.fits
  rw [List.length_drop]
  omega

/-- The sizes that the parser reads, the one it stops at included. -/
def sizes (bytes : List α) : List Nat :=
  match front header bytes with
  | none => ((header bytes).map Prod.snd).toList
  | some cut => cut.size :: sizes (bytes.drop cut.size)
termination_by bytes.length
decreasing_by
  have positive := cut.positive
  have fits := cut.fits
  rw [List.length_drop]
  omega

variable {header}

theorem front_header {bytes : List α} {cut : Cut κ bytes}
    (complete : front header bytes = some cut)
    : header bytes = some (cut.kind, cut.size) := by
  rw [front] at complete
  split at complete
  · contradiction
  · next read =>
      split_ifs at complete
      rw [read, ← Option.some.inj complete]

theorem front_eq_some {bytes : List α} {kind : κ} {size : Nat}
    (read : header bytes = some (kind, size)) (positive : 0 < size)
    (fits : size ≤ bytes.length)
    : front header bytes = some ⟨kind, size, positive, fits⟩ := by
  simp [front, read, positive, fits]

/-- Bytes without a complete frame: too short for a header or for the frame, or a frame of
size zero.
-/
theorem front_eq_none {bytes : List α} {kind : κ} {size : Nat}
    (read : header bytes = some (kind, size)) (stops : front header bytes = none)
    : size = 0 ∨ bytes.length < size := by
  by_contra complete
  have cut := front_eq_some read (by omega) (by omega)
  rw [stops] at cut
  contradiction

/-- A complete frame stays at the front when more bytes arrive. -/
theorem front_append (stable : Stable header) {bytes : List α} {cut : Cut κ bytes}
    (complete : front header bytes = some cut) (more : List α)
    : front header (bytes ++ more) = some (cut.extend more) :=
  front_eq_some (stable bytes more _ (front_header complete)) _ _

theorem parse_stop {bytes : List α} (stops : front header bytes = none)
    : parse header bytes = ([], bytes) := by
  rw [parse, stops]

theorem parse_cut {bytes : List α} {cut : Cut κ bytes}
    (complete : front header bytes = some cut)
    : parse header bytes
      = ((cut.kind, bytes.take cut.size) :: (parse header (bytes.drop cut.size)).1,
          (parse header (bytes.drop cut.size)).2) := by
  rw [parse, complete]

theorem sizes_stop {bytes : List α} (stops : front header bytes = none)
    : sizes header bytes = ((header bytes).map Prod.snd).toList := by
  rw [sizes, stops]

theorem sizes_cut {bytes : List α} {cut : Cut κ bytes}
    (complete : front header bytes = some cut)
    : sizes header bytes = cut.size :: sizes header (bytes.drop cut.size) := by
  rw [sizes, complete]

/-- The parser reads the header at the front first. -/
theorem header_mem_sizes {bytes : List α} {kind : κ} {size : Nat}
    (read : header bytes = some (kind, size))
    : size ∈ sizes header bytes := by
  cases complete : front header bytes with
  | none =>
      rw [sizes_stop complete, read]
      exact List.mem_singleton_self size
  | some cut =>
      have same := (front_header complete).symm.trans read
      rw [sizes_cut complete, ← (Prod.mk.inj (Option.some.inj same)).2]
      exact List.mem_cons_self

/-- Induction along the cuts of the parser. -/
theorem cut_induction {motive : List α → Prop}
    (stop : ∀ bytes, front header bytes = none → motive bytes)
    (step
      : ∀ bytes cut, front header bytes = some cut
          → motive (bytes.drop cut.size) → motive bytes)
    (bytes : List α)
    : motive bytes := by
  cases complete : front header bytes with
  | none => exact stop bytes complete
  | some cut =>
      exact step bytes cut complete (cut_induction stop step (bytes.drop cut.size))
termination_by bytes.length
decreasing_by
  have positive := cut.positive
  have fits := cut.fits
  rw [List.length_drop]
  omega

/-- The bytes left over hold no complete frame. -/
theorem parse_rest_stops (bytes : List α)
    : front header (parse header bytes).2 = none := by
  induction bytes using @cut_induction α κ header with
  | stop bytes stops =>
      rw [parse_stop stops]
      exact stops
  | step bytes cut complete ih =>
      rw [parse_cut complete]
      exact ih

/-- No byte is lost or moved: the frames and the rest are the stream. -/
theorem parse_flatten (bytes : List α)
    : ((parse header bytes).1.map Prod.snd).flatten ++ (parse header bytes).2 = bytes := by
  induction bytes using @cut_induction α κ header with
  | stop bytes stops =>
      rw [parse_stop stops]
      rfl
  | step bytes cut complete ih =>
      rw [parse_cut complete, List.map_cons, List.flatten_cons, List.append_assoc, ih]
      exact List.take_append_drop cut.size bytes

/-- What has been cut stays cut, and the rest is parsed with the new bytes. -/
theorem parse_append (stable : Stable header) (bytes more : List α)
    : parse header (bytes ++ more)
      = ((parse header bytes).1 ++ (parse header ((parse header bytes).2 ++ more)).1,
          (parse header ((parse header bytes).2 ++ more)).2) := by
  induction bytes using @cut_induction α κ header with
  | stop bytes stops => rw [parse_stop stops, List.nil_append]
  | step bytes cut complete ih =>
      rw [parse_cut complete, parse_cut (front_append stable complete more), Cut.extend,
        List.drop_append_of_le_length cut.fits, List.take_append_of_le_length cut.fits, ih,
        List.cons_append]

/-- The sizes that are read after the cut are among those of the whole stream. -/
theorem sizes_rest_subset (stable : Stable header) (bytes more : List α)
    : sizes header ((parse header bytes).2 ++ more) ⊆ sizes header (bytes ++ more) := by
  induction bytes using @cut_induction α κ header with
  | stop bytes stops =>
      rw [parse_stop stops]
      exact List.Subset.refl _
  | step bytes cut complete ih =>
      rw [parse_cut complete, sizes_cut (front_append stable complete more), Cut.extend,
        List.drop_append_of_le_length cut.fits]
      exact List.Subset.trans ih (List.subset_cons_self _ _)

/-- A prefix of a stream shows no size that the stream does not. -/
theorem sizes_prefix_subset (stable : Stable header) (bytes more : List α)
    : sizes header bytes ⊆ sizes header (bytes ++ more) := by
  induction bytes using @cut_induction α κ header with
  | stop bytes stops =>
      rw [sizes_stop stops]
      intro size member
      obtain ⟨⟨kind, _⟩, read, rfl⟩ :=
        Option.map_eq_some_iff.mp (Option.mem_toList.mp member)
      exact header_mem_sizes (stable bytes more _ read)
  | step bytes cut complete ih =>
      rw [sizes_cut complete, sizes_cut (front_append stable complete more), Cut.extend,
        List.drop_append_of_le_length cut.fits]
      exact List.cons_subset_cons cut.size ih

-----------------------------------------------------------------------------------------
-- Frames that are sent
-----------------------------------------------------------------------------------------

/-- The bytes are one frame of their kind: the size that they begin with is their number. -/
structure IsFrame (header : List α → Option (κ × Nat)) (frame : κ × List α) : Prop where
  positive : 0 < frame.2.length
  size : header frame.2 = some (frame.1, frame.2.length)

theorem IsFrame.front_eq (stable : Stable header) {frame : κ × List α}
    (whole : IsFrame header frame)
    (more : List α)
    : ∃ fits, front header (frame.2 ++ more)
        = some ⟨frame.1, frame.2.length, whole.positive, fits⟩ := by
  have fits : frame.2.length ≤ (frame.2 ++ more).length := by
    rw [List.length_append]
    exact Nat.le_add_right _ _
  exact ⟨fits, front_eq_some (stable _ more _ whole.size) whole.positive fits⟩

/-- Frames that are sent one after the other are cut just so, by induction over them. -/
theorem parse_frames (stable : Stable header) {frames : List (κ × List α)}
    (whole : ∀ frame ∈ frames, IsFrame header frame) (more : List α)
    : parse header ((frames.map Prod.snd).flatten ++ more)
      = (frames ++ (parse header more).1, (parse header more).2) := by
  induction frames with
  | nil => rfl
  | cons frame frames ih =>
      have later := ih fun other member => whole other (List.mem_cons_of_mem _ member)
      obtain ⟨fits, complete⟩ := (whole frame List.mem_cons_self).front_eq stable
        ((frames.map Prod.snd).flatten ++ more)
      rw [List.map_cons, List.flatten_cons, List.append_assoc, parse_cut complete]
      simp only [List.take_left, List.drop_left, later, List.cons_append]

theorem sizes_frames (stable : Stable header) {frames : List (κ × List α)}
    (whole : ∀ frame ∈ frames, IsFrame header frame) (more : List α)
    : sizes header ((frames.map Prod.snd).flatten ++ more)
      = frames.map (fun frame => frame.2.length) ++ sizes header more := by
  induction frames with
  | nil => rfl
  | cons frame frames ih =>
      have later := ih fun other member => whole other (List.mem_cons_of_mem _ member)
      obtain ⟨fits, complete⟩ := (whole frame List.mem_cons_self).front_eq stable
        ((frames.map Prod.snd).flatten ++ more)
      rw [List.map_cons, List.flatten_cons, List.append_assoc, sizes_cut complete]
      simp only [List.drop_left, later, List.map_cons, List.cons_append]

end Framing
