import Mathlib

/-! Texts that are split at a separator, and the decimal number at the beginning of a text. -/

namespace NumberText

section Fields

variable {α : Type} [DecidableEq α] {sep : α}

/-- The fields that are read one after the other up to the end of the text: what follows the
last separator is a field only when it is not empty.
-/
def split (s : List α) (sep : α) : List (List α) :=
  if (s.splitOn sep).getLast? = some [] then (s.splitOn sep).dropLast else s.splitOn sep

/-- Splitting leaves at most one empty field away. -/
theorem splitOn_eq_split (sep : α) (s : List α)
    : s.splitOn sep = split s sep ∨ s.splitOn sep = split s sep ++ [[]] := by
  rw [split]
  split_ifs with last
  · right
    rw [List.dropLast_append_getLast? _ last]
  · exact .inl rfl

/-- The fields that are read stand at the same places of the whole list of fields. -/
theorem splitOn_of_split {s field : List α} {before after : List (List α)}
    (fields : split s sep = before ++ field :: after)
    : ∃ rest, s.splitOn sep = before ++ field :: rest := by
  rcases splitOn_eq_split sep s with same | dropped
  · exact ⟨after, same.trans fields⟩
  · exact ⟨after ++ [[]], by rw [dropped, fields]; simp⟩

/-- A field that is not empty is read, with all fields before it. -/
theorem split_of_splitOn {s field : List α} {before after : List (List α)}
    (fields : s.splitOn sep = before ++ field :: after) (filled : field ≠ [])
    : ∃ rest, split s sep = before ++ field :: rest := by
  rcases splitOn_eq_split sep s with same | dropped
  · exact ⟨after, by rw [← same, fields]⟩
  · rcases List.eq_nil_or_concat' after with rfl | ⟨rest, last, rfl⟩
    · rw [dropped] at fields
      have ends := congrArg List.getLast? fields
      simp only [List.getLast?_append, List.getLast?_singleton, Option.some_or] at ends
      exact absurd (Option.some.inj ends).symm filled
    · refine ⟨rest, ?_⟩
      have same : split s sep ++ [[]] = (before ++ field :: rest) ++ [last] := by
        rw [← dropped, fields]
        simp
      exact (List.append_inj' same rfl).1

/-- The last field of a text grows with what is appended, and the fields before it stay. -/
theorem splitOn_append {before : List (List α)} {last : List α} (s t : List α)
    (fields : s.splitOn sep = before ++ [last])
    : ∃ first rest, t.splitOn sep = first :: rest
        ∧ (s ++ t).splitOn sep = before ++ (last ++ first) :: rest := by
  obtain ⟨first, rest, split⟩ := List.exists_cons_of_ne_nil (List.splitOn_ne_nil sep t)
  refine ⟨first, rest, split, ?_⟩
  induction s generalizing before last with
  | nil =>
      rw [List.splitOn_nil] at fields
      cases before with
      | nil => simpa [← List.singleton_inj.mp fields] using split
      | cons head tail => simp at fields
  | cons c s ih =>
      rw [List.splitOn_cons_eq_if_modifyHead] at fields
      rw [List.cons_append, List.splitOn_cons_eq_if_modifyHead]
      split_ifs at fields ⊢ with separates
      · cases before with
        | nil => simp at fields
        | cons head tail =>
            rw [List.cons_append, List.cons.injEq] at fields
            rw [ih fields.2, ← fields.1, List.cons_append]
      · obtain ⟨head, tail, inner⟩ := List.exists_cons_of_ne_nil (List.splitOn_ne_nil sep s)
        rw [inner, List.modifyHead_cons] at fields
        cases before with
        | nil =>
            rw [List.nil_append, List.cons.injEq] at fields
            obtain ⟨rfl, rfl⟩ := fields
            rw [@ih [] head inner]
            simp
        | cons first' tail' =>
            rw [List.cons_append, List.cons.injEq] at fields
            obtain ⟨rfl, rfl⟩ := fields
            rw [@ih (head :: tail') last inner]
            simp

/-- Nothing is left away unless the text is empty or ends with a separator. -/
theorem splitOn_eq_split_iff (s : List α)
    : s.splitOn sep = split s sep ↔ ∃ last ∈ s.getLast?, last ≠ sep := by
  have unsplit : s.splitOn sep = split s sep ↔ (s.splitOn sep).getLast? ≠ some [] := by
    rw [split]
    split_ifs with last
    · simp only [last, ne_eq, not_true_eq_false, iff_false]
      intro same
      have lengths := congrArg List.length same
      have filled := List.length_pos_iff.mpr (List.splitOn_ne_nil sep s)
      rw [List.length_dropLast] at lengths
      omega
    · simp [last]
  rw [unsplit]
  rcases List.eq_nil_or_concat' s with rfl | ⟨before, c, rfl⟩
  · simp
  · obtain ⟨fields, last, ends⟩ :=
      (List.eq_nil_or_concat' (before.splitOn sep)).resolve_left (List.splitOn_ne_nil sep before)
    obtain ⟨first, rest, single, whole⟩ := splitOn_append before [c] ends
    rw [List.splitOn_cons_eq_if_modifyHead] at single
    by_cases separates : c = sep
    · simp only [separates, beq_self_eq_true, if_true, List.splitOn_nil, List.cons.injEq] at single
      rw [whole, ← single.2]
      simp [separates]
    · simp only [beq_iff_eq, separates, if_false, List.splitOn_nil, List.modifyHead_cons,
        List.cons.injEq] at single
      rw [whole, ← single.1, ← single.2]
      simp [separates]

/-- The fields and their separators make up the text. -/
theorem length_splitOn (sep : α) (s : List α)
    : ((s.splitOn sep).map (·.length + 1)).sum = s.length + 1 := by
  induction s with
  | nil => simp
  | cons c s ih =>
      rw [List.splitOn_cons_eq_if_modifyHead]
      split_ifs
      · simp [ih]
        omega
      · obtain ⟨head, tail, inner⟩ := List.exists_cons_of_ne_nil (List.splitOn_ne_nil sep s)
        rw [inner] at ih ⊢
        simp at ih ⊢
        omega

theorem splitOn_length_le (sep : α) (s : List α) : (s.splitOn sep).length ≤ s.length + 1 := by
  have parts := List.length_le_sum_of_one_le ((s.splitOn sep).map (·.length + 1)) (by simp)
  rwa [List.length_map, length_splitOn] at parts

end Fields

/-- `isspace` -/
def isSpace (c : Char) : Bool := c == ' ' || 9 ≤ c.toNat && c.toNat ≤ 13

/-- The sign at the beginning of a text, if there is one. -/
def sign : List Char → List Char
  | '-' :: _ => ['-']
  | '+' :: _ => ['+']
  | _ => []

/-- The characters of a text that `strtol` reads: white space, a sign and digits. -/
def parts (s : List Char) : List Char × List Char × List Char :=
  let spaces := s.takeWhile isSpace
  let signed := s.dropWhile isSpace
  let digits := (signed.drop (sign signed).length).takeWhile Char.isDigit
  (spaces, sign signed, digits)

/-- What digits after a sign stand for. -/
def value (sign digits : List Char) : Int :=
  if sign = ['-'] then -Nat.ofDigitChars 10 digits 0 else Nat.ofDigitChars 10 digits 0

/-- The number at the beginning of a text. -/
def readNumber (s : List Char) : Option Int :=
  let (_, sign, digits) := parts s
  if digits = [] then none else some (value sign digits)

/-- What `std::stoi` throws. -/
inductive StoiException where
  | invalidArgument
  | outOfRange
  deriving DecidableEq, Repr

/-- `std::stoi` -/
def stoi (s : List Char) : Except StoiException Int32 :=
  match readNumber s with
  | none => .error .invalidArgument
  | some v =>
      if -2147483648 ≤ v ∧ v < 2147483648 then .ok (Int32.ofInt v) else .error .outOfRange

theorem stoi_eq_ok_iff {s : List Char} {v : Int32}
    : stoi s = .ok v ↔ readNumber s = some v.toInt := by
  have lower := v.le_toInt
  have upper := v.toInt_lt
  rw [stoi]
  cases readNumber s with
  | none => simp
  | some w =>
      by_cases small : -2147483648 ≤ w ∧ w < 2147483648
      · have same := Int32.toInt_ofInt_of_le (n := w) (by omega) (by omega)
        simp only [small, and_self, if_true, Except.ok.injEq, Option.some.injEq]
        constructor
        · intro equal
          rw [← equal, same]
        · intro equal
          rw [equal, Int32.ofInt_toInt]
      · simp only [small, if_false, reduceCtorEq, Option.some.injEq, false_iff]
        omega

/-- The number of characters that it takes. -/
def numberLength (s : List Char) : Nat :=
  let (spaces, sign, digits) := parts s
  (spaces ++ sign ++ digits).length

/-- White space, a sign and digits, which stand for a number. -/
def IsNumber (number : List Char) (v : Int) : Prop :=
  ∃ spaces sign digits, number = spaces ++ sign ++ digits
    ∧ (∀ c ∈ spaces, isSpace c) ∧ (sign = [] ∨ sign = ['-'] ∨ sign = ['+'])
    ∧ digits ≠ [] ∧ (∀ c ∈ digits, c.isDigit) ∧ v = value sign digits

/-- No digit stands at the beginning. -/
def Stops (rest : List Char) : Prop := ∀ c ∈ rest.head?, ¬c.isDigit

theorem stops_nil : Stops [] := by
  intro c
  simp

theorem isDigit_bounds {c : Char} (digit : c.isDigit) : 48 ≤ c.toNat ∧ c.toNat ≤ 57 := by
  simpa [Char.isDigit, UInt32.le_iff_toNat_le] using digit

theorem not_isSpace_of_isDigit {c : Char} (digit : c.isDigit) : ¬isSpace c := by
  have bounds := isDigit_bounds digit
  have other : c ≠ ' ' := by
    intro space
    rw [space] at bounds
    revert bounds
    decide
  simp [isSpace, other]
  omega

theorem span_append {p : Char → Bool} {xs ys : List Char} (all : ∀ c ∈ xs, p c)
    (stops : ∀ c ∈ ys.head?, ¬p c)
    : (xs ++ ys).takeWhile p = xs ∧ (xs ++ ys).dropWhile p = ys := by
  rw [List.takeWhile_append_of_pos all, List.dropWhile_append_of_pos all]
  cases ys with
  | nil => simp
  | cons c ys =>
      have stop : ¬p c := stops c rfl
      simp [List.takeWhile_cons_of_neg stop, List.dropWhile_cons_of_neg stop]

/-- What was read as a number is found again whatever follows it. -/
theorem parts_append {spaces sgn digits rest : List Char} (white : ∀ c ∈ spaces, isSpace c)
    (signed : sgn = [] ∨ sgn = ['-'] ∨ sgn = ['+']) (filled : digits ≠ [])
    (decimal : ∀ c ∈ digits, c.isDigit) (stops : Stops rest)
    : parts (spaces ++ sgn ++ digits ++ rest) = (spaces, sgn, digits) := by
  obtain ⟨d, ds, rfl⟩ := List.exists_cons_of_ne_nil filled
  have first : d.isDigit := decimal d (by simp)
  have bounds := isDigit_bounds first
  have unsigned : sign (d :: ds ++ rest) = [] := by
    rw [List.cons_append, sign]
    · intro _ same
      rw [(List.cons.inj same).1] at bounds
      revert bounds
      decide
    · intro _ same
      rw [(List.cons.inj same).1] at bounds
      revert bounds
      decide
  have ends : ∀ c ∈ (sgn ++ (d :: ds ++ rest)).head?, ¬isSpace c := by
    rcases signed with rfl | rfl | rfl
    · intro c head
      rw [List.nil_append, List.cons_append, List.head?_cons, Option.mem_some_iff] at head
      exact head ▸ not_isSpace_of_isDigit first
    · simp [isSpace]
    · simp [isSpace]
  have signs : sign (sgn ++ (d :: ds ++ rest)) = sgn := by
    rcases signed with rfl | rfl | rfl
    · exact unsigned
    · rfl
    · rfl
  obtain ⟨before, after⟩ := span_append white ends
  rw [parts, List.append_assoc, List.append_assoc, before, after, signs, List.drop_left,
    (span_append decimal stops).1]

theorem IsNumber.readNumber_append {number rest : List Char} {v : Int}
    (reads : IsNumber number v) (stops : Stops rest)
    : readNumber (number ++ rest) = some v
      ∧ numberLength (number ++ rest) = number.length := by
  obtain ⟨spaces, sgn, digits, rfl, white, signed, filled, decimal, rfl⟩ := reads
  rw [readNumber, numberLength, parts_append white signed filled decimal stops]
  exact ⟨if_neg filled, rfl⟩

/-- A number that is read stands at the beginning of the text. -/
theorem exists_isNumber {s : List Char} {v : Int} (reads : readNumber s = some v)
    : ∃ number rest, s = number ++ rest ∧ IsNumber number v ∧ Stops rest := by
  rw [readNumber, parts] at reads
  generalize signed : s.dropWhile isSpace = text at reads
  have signs : sign text = [] ∨ sign text = ['-'] ∨ sign text = ['+'] := by
    unfold sign
    split <;> simp
  have begins : sign text ++ text.drop (sign text).length = text := by
    unfold sign
    split <;> rfl
  generalize unsigned : text.drop (sign text).length = digits at reads begins
  refine ⟨s.takeWhile isSpace ++ sign text ++ digits.takeWhile Char.isDigit,
    digits.dropWhile Char.isDigit, ?_, ?_, ?_⟩
  · rw [List.append_assoc, List.takeWhile_append_dropWhile, List.append_assoc, begins, ← signed,
      List.takeWhile_append_dropWhile]
  · simp only [ite_eq_iff, reduceCtorEq, and_false, Option.some.injEq, false_or] at reads
    exact ⟨_, _, _, rfl, fun c member => List.mem_takeWhile_imp member, signs, reads.1,
      fun c member => List.mem_takeWhile_imp member, reads.2.symm⟩
  · intro c head
    cases rest : digits.dropWhile Char.isDigit with
    | nil => rw [rest] at head; cases head
    | cons d ds =>
        rw [rest, List.head?_cons, Option.mem_some_iff] at head
        have first := List.dropWhile_get_zero_not Char.isDigit digits (by rw [rest]; simp)
        simpa [rest, head] using first

/-- One more digit changes every number but zero. -/
theorem IsNumber.append_zero {number : List Char} {v : Int} (reads : IsNumber number v)
    : IsNumber (number ++ ['0']) (10 * v) := by
  obtain ⟨spaces, sgn, digits, rfl, white, signed, -, decimal, rfl⟩ := reads
  refine ⟨spaces, sgn, digits ++ ['0'], by simp, white, signed, by simp, ?_, ?_⟩
  · intro c member
    rcases List.mem_append.mp member with member | member
    · exact decimal c member
    · rw [List.mem_singleton.mp member]
      decide
  · have longer : Nat.ofDigitChars 10 (digits ++ ['0']) 0 = 10 * Nat.ofDigitChars 10 digits 0 := by
      rw [Nat.ofDigitChars_append, Nat.ofDigitChars_cons, Nat.ofDigitChars_nil]
      simp
    rw [value, value, longer]
    split_ifs <;> push_cast <;> ring

/-- Any character that belongs to no number may follow. -/
theorem IsNumber.not_mem {number : List Char} {v : Int} (reads : IsNumber number v)
    {c : Char} (space : ¬isSpace c) (minus : c ≠ '-') (plus : c ≠ '+') (digit : ¬c.isDigit)
    : c ∉ number := by
  obtain ⟨spaces, sgn, digits, rfl, white, signed, -, decimal, -⟩ := reads
  intro member
  rcases List.mem_append.mp member with member | member
  · rcases List.mem_append.mp member with member | member
    · exact space (white c member)
    · rcases signed with rfl | rfl | rfl
      · cases member
      · exact minus (List.mem_singleton.mp member)
      · exact plus (List.mem_singleton.mp member)
  · exact digit (decimal c member)

/-- A character that ends any number. -/
structure EndsNumber (c : Char) : Prop where
  space : ¬isSpace c
  minus : c ≠ '-'
  plus : c ≠ '+'
  digit : ¬c.isDigit

/-- Text behind such a character is not read. -/
theorem readNumber_append_sep {sep : Char} (ends : EndsNumber sep) (s t : List Char)
    : readNumber (s ++ sep :: t) = readNumber s := by
  have longer {v : Int} (reads : readNumber s = some v) : readNumber (s ++ sep :: t) = some v := by
    obtain ⟨number, rest, rfl, isNumber, stops⟩ := exists_isNumber reads
    rw [List.append_assoc]
    refine (isNumber.readNumber_append ?_).1
    intro c head
    cases rest with
    | nil => simpa [← Option.some.inj head] using ends.digit
    | cons d rest => exact stops c head
  have shorter {v : Int} (reads : readNumber (s ++ sep :: t) = some v) : readNumber s = some v := by
    obtain ⟨number, rest, text, isNumber, stops⟩ := exists_isNumber reads
    have outside := isNumber.not_mem ends.space ends.minus ends.plus ends.digit
    rcases List.append_eq_append_iff.mp text with ⟨more, rfl, after⟩ | ⟨more, rfl, after⟩
    · cases more with
      | nil =>
          rw [List.append_nil] at isNumber
          have reads := (isNumber.readNumber_append stops_nil).1
          rwa [List.append_nil] at reads
      | cons c more =>
          rw [List.cons_append, List.cons.injEq] at after
          exact absurd (by simp [after.1]) outside
    · refine (isNumber.readNumber_append ?_).1
      intro c head
      refine stops c ?_
      rw [after]
      cases more with
      | nil => cases head
      | cons d more => exact head
  cases short : readNumber s with
  | some v => exact longer short
  | none =>
      cases long : readNumber (s ++ sep :: t) with
      | some v => rw [shorter long] at short; cases short
      | none => rfl

/-- The first field of a text begins with the same number as the text. -/
theorem readNumber_first {sep : Char} (ends : EndsNumber sep) {s first : List Char}
    {rest : List (List Char)} (fields : s.splitOn sep = first :: rest)
    : readNumber first = readNumber s := by
  have text : [sep].intercalate (s.splitOn sep) = s := List.intercalate_splitOn sep
  rw [fields] at text
  cases rest with
  | nil => rw [← text]; simp
  | cons second rest =>
      rw [List.intercalate_cons_cons, List.append_assoc, List.singleton_append] at text
      rw [← text, readNumber_append_sep ends]

/-- `std::to_string` -/
def toText (v : Int) : List Char :=
  (if v < 0 then ['-'] else []) ++ Nat.toDigits 10 v.natAbs

theorem isNumber_toText (v : Int) : IsNumber (toText v) v := by
  refine ⟨[], if v < 0 then ['-'] else [], Nat.toDigits 10 v.natAbs, rfl, by simp, ?_,
    Nat.toDigits_ne_nil, fun c => Nat.isDigit_of_mem_toDigits (by decide) (by decide), ?_⟩
  · split_ifs <;> simp
  · rw [value, Nat.ofDigitChars_ten_toDigits]
    by_cases negative : v < 0
    · rw [if_pos negative, if_pos rfl]
      omega
    · rw [if_neg negative, if_neg (by simp)]
      omega

theorem readNumber_toText (v : Int) : readNumber (toText v) = some v := by
  have reads := ((isNumber_toText v).readNumber_append stops_nil).1
  rwa [List.append_nil] at reads

end NumberText
