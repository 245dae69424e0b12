import Mathlib
import Sparcs.Library.TextSearch

/-! `getUPMUSerialNumber`: the serial number in the device's status page. -/

namespace Sparcs.Gateway

open TextSearch

-----------------------------------------------------------------------------------------
-- Strings
-----------------------------------------------------------------------------------------

/-- A `std::string`; half of the positions of `size_t` lie behind any string. -/
structure Page where
  text : List Char
  fits : text.length < 2 ^ 63

/-- `std::string::npos` -/
def npos : UInt64 := 18446744073709551615

theorem npos_toNat : npos.toNat = 18446744073709551615 := rfl

/-- `find` of a text that is not empty. -/
def Page.find (page : Page) (tag : List Char) (pos : UInt64) : UInt64 :=
  match firstFrom tag page.text pos.toNat with
  | some i => UInt64.ofNat i
  | none => npos

/-- `substr`, which throws for a position behind the end. -/
def Page.substr (page : Page) (pos n : UInt64) : Option (List Char) :=
  if page.text.length < pos.toNat then none
  else some ((page.text.drop pos.toNat).take n.toNat)

-----------------------------------------------------------------------------------------
-- The serial number
-----------------------------------------------------------------------------------------

def tag0 : List Char := "PQube 3 Serial Number:".toList

def tag1 : List Char := "<TD>".toList

def tag2 : List Char := "</TD>".toList

/-- The number that is cut out of the page; `none` is an exception. -/
def serialNumber (page : Page) : Option (List Char) :=
  let startPos := page.find tag0 0
  let startPos := page.find tag1 (startPos + 1)
  let endPos := page.find tag2 (startPos + 1)
  page.substr (startPos + 4) (endPos - startPos - 4)

/-- How the request for the status page ends. -/
inductive Transfer where
  /-- `curl_easy_init` gives no handle. -/
  | noHandle
  /-- `curl_easy_perform` does not return `CURLE_OK`. -/
  | failed
  /-- `chunk.memory` holds this page. -/
  | received (page : Page)

/-- `getUPMUSerialNumber` -/
def getUPMUSerialNumber : Transfer → Option (List Char)
  | .noHandle => some []
  | .failed => some []
  | .received page => serialNumber page

-----------------------------------------------------------------------------------------
-- What it is for
-----------------------------------------------------------------------------------------

/-- The three markers occur in order, and this text stands between the second and the third. -/
structure HasSerial (page serial : List Char) : Prop where
  between
    : ∃ marker cell close,
        First tag0 page 0 marker
        ∧ First tag1 page (marker + tag0.length) cell
        ∧ First tag2 page (cell + tag1.length) close
        ∧ serial = (page.drop (cell + tag1.length)).take (close - (cell + tag1.length))

/-- The page's serial number is returned, and no text if the page has none. -/
def ReturnsSerial (page : Page) : Prop :=
  (∀ serial, HasSerial page.text serial → getUPMUSerialNumber (.received page) = some serial)
  ∧ ((∀ serial, ¬HasSerial page.text serial) → getUPMUSerialNumber (.received page) = some [])

/-- Where the cell is searched: behind the marker, or from the start of a page without it. -/
inductive CellFrom (page : List Char) : Nat → Prop where
  | marker {marker : Nat} (isFirst : First tag0 page 0 marker)
    : CellFrom page (marker + tag0.length)
  | start (absent : ∀ i, ¬OccursAt tag0 page i) : CellFrom page 0

/-- The pages without the markers in order from which nothing is cut out by chance. -/
inductive CutsNothing (page : List Char) : Prop where
  /-- The marker is missing, and the first cell is empty. -/
  | emptyCell {cell : Nat} (absent : ∀ i, ¬OccursAt tag0 page i) (isCell : First tag1 page 0 cell)
    (closed : OccursAt tag2 page (cell + tag1.length))
  /-- The page ends with the tag that opens the cell. -/
  | atEnd {start cell : Nat} (from_ : CellFrom page start) (isCell : First tag1 page start cell)
    (last : cell + tag1.length = page.length)
  /-- There is no cell, and the page has three characters, or three before the first tag that
  closes one.
  -/
  | noCell {start : Nat} (from_ : CellFrom page start)
    (absent : ∀ i, start ≤ i → ¬OccursAt tag1 page i)
    (three : page.length = 3 ∨ First tag2 page 0 3)

-----------------------------------------------------------------------------------------
-- The three searches
-----------------------------------------------------------------------------------------

theorem tag0_ne_nil : tag0 ≠ [] := by decide

theorem tag1_ne_nil : tag1 ≠ [] := by decide

theorem tag2_ne_nil : tag2 ≠ [] := by decide

theorem tag1_length : tag1.length = 4 := rfl

theorem tag2_length : tag2.length = 5 := rfl

section Find

variable {page : Page} {tag : List Char} {pos : UInt64} {i : Nat}

theorem First.lt_npos (isFirst : First tag page.text pos.toNat i) (nonempty : tag ≠ [])
    : i + tag.length < 2 ^ 63 := by
  have inside := isFirst.occurs.le nonempty
  have fits := page.fits
  omega

theorem Page.find_first (isFirst : First tag page.text pos.toNat i) (nonempty : tag ≠ [])
    : (page.find tag pos).toNat = i := by
  have small := First.lt_npos isFirst nonempty
  rw [Page.find, (firstFrom_eq_some_iff nonempty).mpr isFirst]
  exact UInt64.toNat_ofNat_of_lt (by change i < 2 ^ 64; omega)

theorem Page.find_absent (absent : ∀ j, pos.toNat ≤ j → ¬OccursAt tag page.text j)
    (nonempty : tag ≠ [])
    : page.find tag pos = npos := by
  rw [Page.find, (firstFrom_eq_none_iff nonempty).mpr absent]

theorem toNat_add_small {a : UInt64} {n : Nat} {k : UInt64} (value : a.toNat = n)
    (small : n < 2 ^ 63) (few : k.toNat < 2 ^ 63)
    : (a + k).toNat = n + k.toNat := by
  rw [UInt64.toNat_add, value]
  omega

end Find

section Cut

variable {page : Page} {start cell close : Nat}

/-- The position behind the first one of the marker, and 0 if there is none. -/
theorem markerPos (page : Page)
    : (∃ marker, First tag0 page.text 0 marker
        ∧ (page.find tag0 0 + 1).toNat = marker + 1)
      ∨ (∀ i, ¬OccursAt tag0 page.text i) ∧ (page.find tag0 0 + 1).toNat = 0 := by
  cases found : firstFrom tag0 page.text 0 with
  | some marker =>
      have isFirst := (firstFrom_eq_some_iff tag0_ne_nil).mp found
      have atMarker : (page.find tag0 0).toNat = marker :=
        Page.find_first isFirst tag0_ne_nil
      have inside := isFirst.occurs.le tag0_ne_nil
      have fits := page.fits
      refine Or.inl ⟨marker, isFirst, ?_⟩
      exact toNat_add_small atMarker (by omega) (by decide)
  | none =>
      have absent := (firstFrom_eq_none_iff tag0_ne_nil).mp found
      refine Or.inr ⟨fun i => absent i (Nat.zero_le i), ?_⟩
      have lost : page.find tag0 0 = npos := Page.find_absent absent tag0_ne_nil
      rw [lost]
      rfl

/-- A cell that is looked for behind the marker's first character is one behind the marker. -/
theorem CellFrom.first_iff (from_ : CellFrom page.text start)
    : First tag1 page.text (page.find tag0 0 + 1).toNat cell ↔ First tag1 page.text start cell := by
  have foreign : '<' ∉ tag0 := by decide
  rcases markerPos page with ⟨marker, isFirst, pos⟩ | ⟨absent, pos⟩
  · cases from_ with
    | marker isFirst' =>
        obtain rfl := isFirst.unique isFirst'
        rw [pos]
        exact First.skip isFirst.occurs foreign (by omega) (by change _ ≤ _ + 22; omega)
    | start absent => exact absurd isFirst.occurs (absent marker)
  · cases from_ with
    | marker isFirst' => exact absurd isFirst'.occurs (absent _)
    | start _ => rw [pos]

theorem CellFrom.exists (page : List Char) : ∃ start, CellFrom page start := by
  cases found : firstFrom tag0 page 0 with
  | some marker => exact ⟨_, .marker ((firstFrom_eq_some_iff tag0_ne_nil).mp found)⟩
  | none =>
      exact ⟨0, .start fun i => (firstFrom_eq_none_iff tag0_ne_nil).mp found i (Nat.zero_le i)⟩

/-- The tag that closes the cell does not begin inside the one that opens it. -/
theorem close_iff (opens : OccursAt tag1 page.text cell)
    : First tag2 page.text (cell + 1) close ↔ First tag2 page.text (cell + tag1.length) close := by
  obtain ⟨behind, split⟩ := opens
  have inner : OccursAt "TD>".toList page.text (cell + 1) := by
    refine ⟨behind, ?_⟩
    rw [← List.drop_drop, ← split]
    rfl
  have foreign : '<' ∉ "TD>".toList := by decide
  have same : cell + tag1.length = cell + 1 + "TD>".toList.length := rfl
  rw [same]
  exact First.skip inner foreign le_rfl (Nat.le_add_right _ _)

/-- The tag that opens the cell, if there is one. -/
theorem cellPos (from_ : CellFrom page.text start) (isCell : First tag1 page.text start cell)
    : (page.find tag1 (page.find tag0 0 + 1)).toNat = cell ∧ cell + tag1.length < 2 ^ 63 := by
  have isFirst := from_.first_iff.mpr isCell
  exact ⟨Page.find_first isFirst tag1_ne_nil, First.lt_npos isFirst tag1_ne_nil⟩

theorem cellPos_absent (from_ : CellFrom page.text start)
    (absent : ∀ i, start ≤ i → ¬OccursAt tag1 page.text i)
    : page.find tag1 (page.find tag0 0 + 1) = npos := by
  cases found : firstFrom tag1 page.text (page.find tag0 0 + 1).toNat with
  | some cell =>
      have isCell := from_.first_iff.mp ((firstFrom_eq_some_iff tag1_ne_nil).mp found)
      exact absurd isCell.occurs (absent cell isCell.after)
  | none => exact Page.find_absent ((firstFrom_eq_none_iff tag1_ne_nil).mp found) tag1_ne_nil

/-- What is cut out from position `pos` on, if `n` characters are asked for. -/
theorem Page.substr_eq {pos n : UInt64} {from_ count : Nat} (isPos : pos.toNat = from_)
    (isCount : n.toNat = count) (inside : from_ ≤ page.text.length)
    : page.substr pos n = some ((page.text.drop from_).take count) := by
  rw [Page.substr, isPos, isCount, if_neg (not_lt.mpr inside)]

/-- With a cell that is closed, its content is cut out. -/
theorem serialNumber_closed (from_ : CellFrom page.text start)
    (isCell : First tag1 page.text start cell)
    (isClose : First tag2 page.text (cell + tag1.length) close)
    : serialNumber page
      = some ((page.text.drop (cell + tag1.length)).take (close - (cell + tag1.length))) := by
  obtain ⟨opens, small⟩ := cellPos from_ isCell
  have next : (page.find tag1 (page.find tag0 0 + 1) + 1).toNat = cell + 1 :=
    toNat_add_small opens (by omega) (by decide)
  have isFirst := (close_iff isCell.occurs).mpr isClose
  rw [← next] at isFirst
  have closes := Page.find_first isFirst tag2_ne_nil
  have behind := isClose.after
  have inside := isClose.occurs.le tag2_ne_nil
  rw [tag1_length] at small behind ⊢
  refine Page.substr_eq (toNat_add_small opens (by omega) (by decide)) ?_ (by omega)
  rw [UInt64.toNat_sub, UInt64.toNat_sub, closes, opens]
  change ((2 ^ 64 - 4) + (2 ^ 64 - cell + close) % 2 ^ 64) % 2 ^ 64 = _
  have fits := page.fits
  omega

/-- With a cell that is not closed, the rest of the page is cut out. -/
theorem serialNumber_open (from_ : CellFrom page.text start)
    (isCell : First tag1 page.text start cell)
    (absent : ∀ i, cell + tag1.length ≤ i → ¬OccursAt tag2 page.text i)
    : serialNumber page = some (page.text.drop (cell + tag1.length)) := by
  obtain ⟨opens, small⟩ := cellPos from_ isCell
  have next : (page.find tag1 (page.find tag0 0 + 1) + 1).toNat = cell + 1 :=
    toNat_add_small opens (by omega) (by decide)
  have closes : page.find tag2 (page.find tag1 (page.find tag0 0 + 1) + 1) = npos := by
    refine Page.find_absent ?_ tag2_ne_nil
    rw [next]
    intro i behind occurs
    cases found : firstFrom tag2 page.text (cell + 1) with
    | some close =>
        have isClose := (close_iff isCell.occurs).mp ((firstFrom_eq_some_iff tag2_ne_nil).mp found)
        exact absent close isClose.after isClose.occurs
    | none => exact (firstFrom_eq_none_iff tag2_ne_nil).mp found i behind occurs
  have inside := isCell.occurs.le tag1_ne_nil
  have fits := page.fits
  rw [tag1_length] at small inside ⊢
  have all : (page.text.drop (cell + 4)).take (2 ^ 64 - 1 - cell - 4)
      = page.text.drop (cell + 4) := by
    apply List.take_of_length_le
    rw [List.length_drop]
    omega
  rw [← all]
  refine Page.substr_eq (toNat_add_small opens (by omega) (by decide)) ?_ inside
  rw [closes, UInt64.toNat_sub, UInt64.toNat_sub, opens, npos_toNat]
  change ((2 ^ 64 - 4) + (2 ^ 64 - cell + 18446744073709551615) % 2 ^ 64) % 2 ^ 64 = _
  omega

/-- Without a cell the position behind `npos` is 3, and the tag that closes a cell is looked
for in the whole page.
-/
theorem serialNumber_noCell (from_ : CellFrom page.text start)
    (absent : ∀ i, start ≤ i → ¬OccursAt tag1 page.text i)
    : serialNumber page = some []
      ↔ page.text.length = 3 ∨ First tag2 page.text 0 3 := by
  have wraps : npos + 1 = 0 := rfl
  have three : (npos + 4).toNat = 3 := rfl
  have fits := page.fits
  rw [serialNumber]
  simp only [cellPos_absent from_ absent, wraps]
  cases found : firstFrom tag2 page.text 0 with
  | some close =>
      have isFirst := (firstFrom_eq_some_iff tag2_ne_nil).mp found
      have closes : (page.find tag2 0).toNat = close := Page.find_first isFirst tag2_ne_nil
      have inside := isFirst.occurs.le tag2_ne_nil
      rw [tag2_length] at inside
      have count : (page.find tag2 0 - npos - 4).toNat
          = if close < 3 then 2 ^ 64 + close - 3 else close - 3 := by
        rw [UInt64.toNat_sub, UInt64.toNat_sub, closes, npos_toNat]
        change ((2 ^ 64 - 4) + (2 ^ 64 - 18446744073709551615 + close) % 2 ^ 64) % 2 ^ 64 = _
        split_ifs <;> omega
      rw [Page.substr_eq three count (by omega), Option.some.injEq, List.take_eq_nil_iff,
        List.drop_eq_nil_iff]
      constructor
      · intro nothing
        right
        have third : close = 3 := by
          split_ifs at nothing <;> omega
        exact third ▸ isFirst
      · intro chance
        left
        rcases chance with short | isThird
        · omega
        · obtain rfl := isFirst.unique isThird
          rfl
  | none =>
      have absent := (firstFrom_eq_none_iff tag2_ne_nil).mp found
      have lost : page.find tag2 0 = npos := Page.find_absent absent tag2_ne_nil
      rw [lost]
      have count : (npos - npos - 4).toNat = 18446744073709551612 := rfl
      have noThird : ¬First tag2 page.text 0 3 := fun isThird =>
        absent 3 (Nat.zero_le 3) isThird.occurs
      simp only [noThird, or_false]
      by_cases short : page.text.length < 3
      · rw [Page.substr, three, if_pos short]
        constructor
        · intro impossible
          cases impossible
        · intro exact_
          omega
      · rw [Page.substr_eq three count (by omega), Option.some.injEq, List.take_eq_nil_iff,
          List.drop_eq_nil_iff]
        omega

end Cut

-----------------------------------------------------------------------------------------
-- When the result is right
-----------------------------------------------------------------------------------------

theorem CellFrom.unique {page : List Char} {start start' : Nat} (from_ : CellFrom page start)
    (from_' : CellFrom page start')
    : start = start' := by
  cases from_ with
  | marker isFirst =>
      cases from_' with
      | marker isFirst' => rw [isFirst.unique isFirst']
      | start absent => exact absurd isFirst.occurs (absent _)
  | start absent =>
      cases from_' with
      | marker isFirst' => exact absurd isFirst'.occurs (absent _)
      | start _ => rfl

/-- A serial number between its tags is returned. -/
theorem HasSerial.serialNumber {page : Page} {serial : List Char}
    (has : HasSerial page.text serial)
    : Gateway.serialNumber page = some serial := by
  obtain ⟨marker, cell, close, isMarker, isCell, isClose, rfl⟩ := has.between
  exact serialNumber_closed (.marker isMarker) isCell isClose

/-- From a page without a serial number no text is returned exactly by chance. -/
theorem serialNumber_nil_iff {page : Page} (serialless : ∀ serial, ¬HasSerial page.text serial)
    : serialNumber page = some [] ↔ CutsNothing page.text := by
  obtain ⟨start, from_⟩ := CellFrom.exists page.text
  cases foundCell : firstFrom tag1 page.text start with
  | some cell =>
      have isCell := (firstFrom_eq_some_iff tag1_ne_nil).mp foundCell
      have opened := isCell.occurs.le tag1_ne_nil
      cases foundClose : firstFrom tag2 page.text (cell + tag1.length) with
      | some close =>
          have isClose := (firstFrom_eq_some_iff tag2_ne_nil).mp foundClose
          have behind := isClose.after
          have closed := isClose.occurs.le tag2_ne_nil
          rw [tag2_length] at closed
          rw [serialNumber_closed from_ isCell isClose, Option.some.injEq, List.take_eq_nil_iff,
            List.drop_eq_nil_iff]
          constructor
          · intro nothing
            have atOnce : close = cell + tag1.length := by omega
            cases from_ with
            | marker isMarker =>
                exact absurd ⟨_, cell, close, isMarker, isCell, isClose, rfl⟩ (serialless _)
            | start absent => exact .emptyCell absent isCell (atOnce ▸ isClose.occurs)
          · intro chance
            left
            cases chance with
            | emptyCell absent isCell' closed' =>
                obtain rfl := from_.unique (.start absent)
                obtain rfl := isCell.unique isCell'
                by_contra further
                exact isClose.first _ le_rfl (by omega) closed'
            | atEnd from_' isCell' last =>
                obtain rfl := from_.unique from_'
                obtain rfl := isCell.unique isCell'
                omega
            | noCell from_' absent _ =>
                obtain rfl := from_.unique from_'
                exact absurd isCell.occurs (absent cell isCell.after)
      | none =>
          have notClosed := (firstFrom_eq_none_iff tag2_ne_nil).mp foundClose
          rw [serialNumber_open from_ isCell notClosed, Option.some.injEq, List.drop_eq_nil_iff]
          constructor
          · intro nothing
            exact .atEnd from_ isCell (by omega)
          · intro chance
            cases chance with
            | emptyCell absent isCell' closed' =>
                obtain rfl := from_.unique (.start absent)
                obtain rfl := isCell.unique isCell'
                exact absurd closed' (notClosed _ le_rfl)
            | atEnd from_' isCell' last =>
                obtain rfl := from_.unique from_'
                obtain rfl := isCell.unique isCell'
                omega
            | noCell from_' absent _ =>
                obtain rfl := from_.unique from_'
                exact absurd isCell.occurs (absent cell isCell.after)
  | none =>
      have noCell := (firstFrom_eq_none_iff tag1_ne_nil).mp foundCell
      rw [serialNumber_noCell from_ noCell]
      constructor
      · exact .noCell from_ noCell
      · intro chance
        cases chance with
        | emptyCell absent isCell' _ =>
            obtain rfl := from_.unique (.start absent)
            exact absurd isCell'.occurs (noCell _ isCell'.after)
        | atEnd from_' isCell' _ =>
            obtain rfl := from_.unique from_'
            exact absurd isCell'.occurs (noCell _ isCell'.after)
        | noCell _ _ three => exact three

/-- The result is right for the pages that have the three markers in order, and for those from
which nothing is cut out by chance.
-/
theorem returnsSerial_iff (page : Page)
    : ReturnsSerial page
      ↔ (∃ serial, HasSerial page.text serial) ∨ CutsNothing page.text := by
  constructor
  · intro returns
    by_cases has : ∃ serial, HasSerial page.text serial
    · exact Or.inl has
    · have serialless := not_exists.mp has
      exact Or.inr ((serialNumber_nil_iff serialless).mp (returns.2 serialless))
  · intro either
    refine ⟨fun serial has => has.serialNumber, ?_⟩
    intro serialless
    exact (serialNumber_nil_iff serialless).mpr (either.resolve_left (not_exists.mpr serialless))

/-- From a page without the marker the content of its first cell is returned. -/
theorem serialNumber_unmarked
    : ¬∀ page : Page, ReturnsSerial page := by
  intro returns
  have serialless : ∀ serial, ¬HasSerial "<TD>x</TD>".toList serial := by
    intro serial has
    obtain ⟨marker, _, _, isMarker, _⟩ := has.between
    have inside := isMarker.occurs.le tag0_ne_nil
    rw [show tag0.length = 22 from rfl, show "<TD>x</TD>".toList.length = 10 from rfl] at inside
    omega
  have wrong := (returns ⟨"<TD>x</TD>".toList, by decide⟩).2 serialless
  exact absurd wrong (by decide +kernel)

end Sparcs.Gateway
