import Sparcs.Discovery.UpmuFtpAccess
import Sparcs.Library.PaddedDecimal

/-! The names of data files and their times: which names have a time, the time of a name that
the calendar time was written into, and the order of such names.
-/

namespace Sparcs.Discovery

open Calendar NumberText PaddedDecimal SignedArithmetic TextSearch
open Ftp (Tm mkgmtime)

/-- Every element has a value, and these are the results, by induction over the list. -/
theorem mapM_eq_some_iff {α β : Type} {f : α → Option β} {l : List α} {results : List β}
    : l.mapM f = some results ↔ List.Forall₂ (fun x y => f x = some y) l results := by
  induction l generalizing results with
  | nil =>
      rw [List.mapM_nil, List.forall₂_nil_left_iff]
      exact ⟨fun same => (Option.some.inj same).symm, fun same => same ▸ rfl⟩
  | cons x l ih =>
      rw [List.mapM_cons, List.forall₂_cons_left_iff]
      simp only [Option.bind_eq_bind, Option.pure_def, Option.bind_eq_some_iff,
        Option.some.injEq, ih]
      grind

-----------------------------------------------------------------------------------------
-- Names that have a time
-----------------------------------------------------------------------------------------

/-- The part of a name behind its first underscore; all of a name without one. -/
def behindUnderscore (name : List Char) : List Char :=
  if '_' ∈ name then (name.dropWhile (· ≠ '_')).tail else name

/-- What the tokenizer finds between the dashes; it leaves empty tokens out. -/
def tokens (text : List Char) : List (List Char) :=
  (text.splitOn '-').filter fun token => !token.isEmpty

/-- The number at the beginning of the token is an `int`. -/
def IsInt (token : List Char) : Prop := ∃ v, readNumber token = some v ∧ Fits32 v

/-- What a name needs to have a time: ".dat" behind the underscore, and before the first one
at least six tokens, the first six of them an `int` each.
-/
def HasTime (dataFileName : String) : Prop :=
  ∃ text rest, behindUnderscore dataFileName.toList = text ++ ".dat".toList ++ rest
    ∧ (∀ k < text.length, ¬".dat".toList <+: (behindUnderscore dataFileName.toList).drop k)
    ∧ 6 ≤ (tokens text).length ∧ ∀ token ∈ (tokens text).take 6, IsInt token

theorem behindUnderscore_append {pre : List Char} (rest : List Char) (absent : '_' ∉ pre)
    : behindUnderscore (pre ++ '_' :: rest) = rest := by
  have others : ∀ c ∈ pre, decide (c ≠ '_') = true := fun c member =>
    decide_eq_true (ne_of_mem_of_not_mem member absent)
  rw [behindUnderscore, if_pos (by simp), List.dropWhile_append_of_pos others]
  rfl

/-- The code erases what is before. -/
theorem behindUnderscore_eq (name : List Char)
    : behindUnderscore name
      = (firstFrom ['_'] name 0).elim name fun n => Discovery.erase name 0 (n + 1) := by
  by_cases underscore : '_' ∈ name
  · obtain ⟨pre, rest, rfl, absent⟩ := List.eq_append_cons_of_mem underscore
    have first : firstFrom ['_'] (pre ++ '_' :: rest) 0 = some pre.length :=
      firstFrom_append [] rest absent
    rw [behindUnderscore_append rest absent, first, Option.elim_some]
    simp [Discovery.erase]
  · have nowhere : firstFrom ['_'] name 0 = none := by
      refine (firstFrom_eq_none_iff (List.cons_ne_nil _ _)).mpr ?_
      intro k _ occurs
      exact underscore (List.mem_of_mem_drop (occurs.subset List.mem_cons_self))
    rw [behindUnderscore, if_neg underscore, nowhere, Option.elim_none]

/-- The time of six numbers. -/
def timeOfNumbers : List Int32 → Option UInt32
  | [year, mon, mday, hour, min, sec] =>
      some (mkgmtime
        { sec
          min
          hour
          mday
          mon := mon - 1
          year := year - 1900 }).toUInt64.toUInt32
  | _ => none

theorem timeOfNumbers_isSome_iff (numbers : List Int32)
    : (timeOfNumbers numbers).isSome = true
      ↔ ∃ year mon mday hour min sec, numbers = [year, mon, mday, hour, min, sec] := by
  constructor
  · intro timed
    unfold timeOfNumbers at timed
    split at timed
    · exact ⟨_, _, _, _, _, _, rfl⟩
    · cases timed
  · intro six
    obtain ⟨year, mon, mday, hour, min, sec, rfl⟩ := six
    rfl

theorem timeOfNumbers_isSome_of_length {numbers : List Int32} (six : numbers.length = 6)
    : (timeOfNumbers numbers).isSome = true := by
  rw [timeOfNumbers_isSome_iff]
  rcases numbers with _ | ⟨year, _ | ⟨mon, _ | ⟨mday, _ | ⟨hour, _ | ⟨min, _ | ⟨sec, rest⟩⟩⟩⟩⟩⟩
  case cons.cons.cons.cons.cons.cons =>
    obtain rfl : rest = [] := List.length_eq_zero_iff.mp (by simpa using six)
    exact ⟨year, mon, mday, hour, min, sec, rfl⟩
  all_goals simp at six

/-- A text of one character has one token at most. -/
theorem tokens_length_le (text : List Char) : (tokens text).length ≤ text.length + 1 :=
  (List.length_filter_le _ _).trans (splitOn_length_le '-' text)

/-- The time of what is behind the underscore. -/
def timeOfText (text : List Char) : Option UInt32 :=
  (firstFrom ".dat".toList text 0).bind fun n =>
    (((tokens (Discovery.erase text n (text.length - 1))).take 6).mapM fun token =>
      (stoi token).toOption).bind timeOfNumbers

theorem createTimeFromDataFileName_eq (dataFileName : String)
    : createTimeFromDataFileName dataFileName
      = timeOfText (behindUnderscore dataFileName.toList) := by
  rw [createTimeFromDataFileName, behindUnderscore_eq]
  cases firstFrom ['_'] dataFileName.toList 0
  all_goals
    rw [timeOfText]
    dsimp only [Option.elim]
    split
    · rename_i nowhere
      rw [nowhere, Option.bind_none]
    · rename_i n found
      rw [found, Option.bind_some]
      split
      · rename_i numbers
        rw [tokens, numbers]
        rfl
      · rename_i others
        rw [eq_comm, Option.bind_eq_none_iff]
        intro numbers results
        rw [← Option.not_isSome_iff_eq_none, timeOfNumbers_isSome_iff]
        intro six
        obtain ⟨year, mon, mday, hour, min, sec, rfl⟩ := six
        exact others _ _ _ _ _ _ results

/-- `std::stoi` reads the number at the beginning, if it is an `int`. -/
theorem stoi_isSome_iff (token : List Char)
    : (stoi token).toOption.isSome = true ↔ IsInt token := by
  rw [stoi, IsInt]
  cases readNumber token with
  | none => simp [Except.toOption]
  | some v =>
      dsimp only
      split_ifs with fits <;> simp [Except.toOption, Fits32, fits]

theorem numbers_isSome_iff (text : List Char)
    : ((((tokens text).take 6).mapM fun token => (stoi token).toOption).bind
          timeOfNumbers).isSome = true
      ↔ 6 ≤ (tokens text).length ∧ ∀ token ∈ (tokens text).take 6, IsInt token := by
  generalize tokens text = found
  constructor
  · intro timed
    obtain ⟨time, isTime⟩ := Option.isSome_iff_exists.mp timed
    obtain ⟨numbers, read, timed⟩ := Option.bind_eq_some_iff.mp isTime
    have each := mapM_eq_some_iff.mp read
    obtain ⟨year, mon, mday, hour, min, sec, rfl⟩ := (timeOfNumbers_isSome_iff numbers).mp (by
      rw [timed]
      rfl)
    have six := each.length_eq
    rw [List.length_take, List.length_cons] at six
    refine ⟨min_eq_left_iff.mp six, ?_⟩
    intro token member
    have ints
        : List.Forall₂ (fun token number => IsInt token ∧ (stoi token).toOption = some number)
            (found.take 6) [year, mon, mday, hour, min, sec] := by
      refine each.imp ?_
      intro token number reads
      exact ⟨(stoi_isSome_iff token).mp (Option.isSome_iff_exists.mpr ⟨number, reads⟩), reads⟩
    exact ((List.forall₂_and_left _ _).mp ints).1 token member
  · intro timed
    obtain ⟨enough, numbers⟩ := timed
    have read : ((found.take 6).mapM fun token => (stoi token).toOption)
        = some ((found.take 6).map fun token => (stoi token).toOption.getD 0) := by
      rw [mapM_eq_some_iff, List.forall₂_map_right_iff, List.forall₂_same]
      intro token member
      obtain ⟨number, reads⟩ := Option.isSome_iff_exists.mp
        ((stoi_isSome_iff token).mpr (numbers token member))
      rw [reads, Option.getD_some]
    rw [read, Option.bind_some]
    refine timeOfNumbers_isSome_of_length ?_
    rw [List.length_map, List.length_take_of_le enough]

/-- Before the first suffix, six tokens are needed that are numbers. Of a text that begins with
the suffix, the code leaves its last character.
-/
theorem timeOfText_isSome_iff (text : List Char)
    : (timeOfText text).isSome = true
      ↔ ∃ n, firstFrom ".dat".toList text 0 = some n ∧ 6 ≤ (tokens (text.take n)).length
          ∧ ∀ token ∈ (tokens (text.take n)).take 6, IsInt token := by
  rw [timeOfText]
  cases suffix : firstFrom ".dat".toList text 0 with
  | none => simp
  | some n =>
      simp only [Option.bind_some, numbers_isSome_iff, Option.some.injEq, exists_eq_left']
      cases n with
      | zero =>
          have few := tokens_length_le (Discovery.erase text 0 (text.length - 1))
          have short : (Discovery.erase text 0 (text.length - 1)).length ≤ 1 := by
            simp [Discovery.erase]
            omega
          refine iff_of_false (fun timed => ?_) (fun timed => ?_)
          · exact absurd timed.1 (by omega)
          · rw [List.take_zero] at timed
            exact absurd timed.1 (by decide)
      | succ n =>
          rw [Discovery.erase, List.drop_eq_nil_of_le (by omega), List.append_nil]

/-- The names without an exception. -/
theorem createTimeFromDataFileName_isSome_iff (dataFileName : String)
    : (createTimeFromDataFileName dataFileName).isSome = true ↔ HasTime dataFileName := by
  rw [createTimeFromDataFileName_eq, timeOfText_isSome_iff, HasTime]
  generalize behindUnderscore dataFileName.toList = behind
  constructor
  · intro timed
    obtain ⟨n, found, enough, numbers⟩ := timed
    obtain ⟨-, ⟨rest, occurs⟩, first⟩ := (firstFrom_eq_some_iff (by decide)).mp found
    have long : n ≤ behind.length := by
      by_contra short
      rw [List.drop_eq_nil_of_le (not_le.mp short).le] at occurs
      exact absurd occurs (by simp)
    refine ⟨behind.take n, rest, ?_, ?_, enough, numbers⟩
    · rw [List.append_assoc, occurs, List.take_append_drop]
    · rw [List.length_take_of_le long]
      exact fun k before => first k (Nat.zero_le k) before
  · intro timed
    obtain ⟨text, rest, rfl, first, enough, numbers⟩ := timed
    refine ⟨text.length, (firstFrom_eq_some_iff (by decide)).mpr
      ⟨Nat.zero_le _, ?_, fun k _ before => first k before⟩, ?_, ?_⟩
    · rw [OccursAt, List.append_assoc, List.drop_left]
      exact List.prefix_append _ _
    · rwa [List.append_assoc, List.take_left]
    · rwa [List.append_assoc, List.take_left]

-----------------------------------------------------------------------------------------
-- Names with a calendar time
-----------------------------------------------------------------------------------------

/-- Year, month, day, hour, minute and second of a time, with leading zeros. -/
def timeFields (t : Nat) : List (List Char) :=
  let date := dateOfDay (t / 86400)
  [padded 4 date.year, padded 2 date.month, padded 2 date.day, padded 2 (t % 86400 / 3600),
    padded 2 (t % 3600 / 60), padded 2 (t % 60)]

/-- A prefix, an underscore, the calendar time with dashes, and the suffix. -/
def dataFileNameOf (pre : String) (t : Nat) : String :=
  .ofList (pre.toList ++ '_' :: (['-'].intercalate (timeFields t) ++ ".dat".toList))

/-- The numbers of the fields are small enough for their widths. -/
theorem timeFields_bounds {t : Nat} (small : t < 2147483648)
    : (dateOfDay (t / 86400)).year < 2040 ∧ (dateOfDay (t / 86400)).month ≤ 12
      ∧ (dateOfDay (t / 86400)).day ≤ 31 := by
  have valid := dateOfDay_valid (t / 86400)
  have late := year_le (t / 86400)
  exact ⟨by omega, valid.monthTo, valid.day_le⟩

theorem isDigit_of_mem_timeFields {t : Nat} {field : List Char} {c : Char}
    (member : field ∈ timeFields t) (digit : c ∈ field)
    : c.isDigit = true := by
  simp only [timeFields, List.mem_cons, List.not_mem_nil, or_false] at member
  rcases member with rfl | rfl | rfl | rfl | rfl | rfl <;> exact isDigit_of_mem_padded digit

/-- Fields that are not empty and have no dash are the tokens of their text. -/
theorem tokens_intercalate {fields : List (List Char)} (filled : ∀ field ∈ fields, field ≠ [])
    (dashless : ∀ field ∈ fields, '-' ∉ field) (nonempty : fields ≠ [])
    : tokens (['-'].intercalate fields) = fields := by
  rw [tokens, List.splitOn_intercalate '-' dashless nonempty, List.filter_eq_self]
  intro field member
  simpa using filled field member

theorem intercalate_timeFields (t : Nat)
    : ['-'].intercalate (timeFields t)
      = padded 4 (dateOfDay (t / 86400)).year
        ++ '-' :: (padded 2 (dateOfDay (t / 86400)).month
          ++ '-' :: (padded 2 (dateOfDay (t / 86400)).day
            ++ '-' :: (padded 2 (t % 86400 / 3600)
              ++ '-' :: (padded 2 (t % 3600 / 60) ++ '-' :: padded 2 (t % 60))))) := by
  simp [timeFields, List.intercalate]

theorem tokens_timeFields (t : Nat) : tokens (['-'].intercalate (timeFields t)) = timeFields t := by
  refine tokens_intercalate ?_ ?_ (List.cons_ne_nil _ _)
  · intro field member empty
    subst empty
    simp only [timeFields, List.mem_cons, List.not_mem_nil, or_false] at member
    rcases member with same | same | same | same | same | same <;>
      exact absurd (congrArg List.length same) (by simp)
  · intro field member dash
    exact absurd (isDigit_of_mem_timeFields member dash) (by decide)

theorem dot_notMem_intercalate (t : Nat) : '.' ∉ ['-'].intercalate (timeFields t) := by
  have digits (width n : Nat) : '.' ∉ padded width n := fun member =>
    absurd (isDigit_of_mem_padded member) (by decide)
  simp [intercalate_timeFields, digits]

/-- A number with leading zeros is read. -/
theorem stoi_padded {width n : Nat} (wide : 0 < width) (fits : n < 10 ^ width)
    (small : n < 2147483648)
    : (stoi (padded width n)).toOption = some (Int32.ofNat n) := by
  have filled : padded width n ≠ [] := by
    intro empty
    have length := congrArg List.length empty
    rw [length_padded, List.length_nil] at length
    omega
  have number : IsNumber (padded width n) n :=
    ⟨[], [], padded width n, rfl, by simp, .inl rfl, filled, fun c => isDigit_of_mem_padded, by
      rw [value, if_neg (by simp), ofDigitChars_padded fits]⟩
  have reads := (number.readNumber_append stops_nil).1
  rw [List.append_nil] at reads
  simp only [stoi, reads]
  rw [if_pos (by omega)]
  rfl

/-- The fields are read, and they write the time. -/
theorem mapM_timeFields {t : Nat} (small : t < 2147483648)
    : ((timeFields t).mapM fun token => (stoi token).toOption).bind timeOfNumbers
      = some (UInt32.ofNat t) := by
  have valid := dateOfDay_valid (t / 86400)
  have since := le_year (t / 86400)
  have monthFrom := valid.monthFrom
  obtain ⟨late, monthTo, dayTo⟩ := timeFields_bounds small
  have numbers : ((timeFields t).mapM fun token => (stoi token).toOption)
      = some [Int32.ofNat (dateOfDay (t / 86400)).year, Int32.ofNat (dateOfDay (t / 86400)).month,
          Int32.ofNat (dateOfDay (t / 86400)).day, Int32.ofNat (t % 86400 / 3600),
          Int32.ofNat (t % 3600 / 60), Int32.ofNat (t % 60)] := by
    simp only [timeFields, mapM_eq_some_iff, List.forall₂_cons, List.forall₂_nil_right_iff,
      and_true]
    exact ⟨stoi_padded (by decide) (by omega) (by omega),
      stoi_padded (by decide) (by omega) (by omega), stoi_padded (by decide) (by omega) (by omega),
      stoi_padded (by decide) (by omega) (by omega), stoi_padded (by decide) (by omega) (by omega),
      stoi_padded (by decide) (by omega) (by omega)⟩
  have value {n : Nat} (few : n < 2147483648) : (Int32.ofNat n).toInt = n :=
    Int32.toInt_ofNat_of_lt (by omega)
  have written : Tm.Writes
      ⟨Int32.ofNat (t % 60), Int32.ofNat (t % 3600 / 60), Int32.ofNat (t % 86400 / 3600),
        Int32.ofNat (dateOfDay (t / 86400)).day, Int32.ofNat (dateOfDay (t / 86400)).month - 1,
        Int32.ofNat (dateOfDay (t / 86400)).year - 1900⟩
      (dateOfDay (t / 86400)) (t % 86400 / 3600) (t % 3600 / 60) (t % 60) :=
    { year := toInt_sub32_of (n := 1900) (value (by omega)) rfl (by omega) (by omega)
      mon := toInt_sub32_of (n := 1) (value (by omega)) rfl (by omega) (by omega)
      mday := value (by omega)
      hour := value (by omega)
      min := value (by omega)
      sec := value (by omega) }
  have seconds := Ftp.mkgmtime_toInt valid since written (by
    rw [dayNumber_dateOfDay]
    omega)
  rw [dayNumber_dateOfDay] at seconds
  rw [numbers, Option.bind_some, timeOfNumbers, Option.some.injEq, ← UInt32.toNat_inj,
    toNat_toUInt32_of_toInt seconds (by omega) (by omega), UInt32.toNat_ofNat_of_lt' (by
      change t < 4294967296
      omega)]
  omega

/-- The time of a name is the one that was written into it. -/
theorem createTimeFromDataFileName_dataFileNameOf {pre : String} (absent : '_' ∉ pre.toList)
    {t : Nat} (small : t < 2147483648)
    : createTimeFromDataFileName (dataFileNameOf pre t) = some (UInt32.ofNat t) := by
  have suffix : firstFrom ".dat".toList (['-'].intercalate (timeFields t) ++ ".dat".toList) 0
      = some (['-'].intercalate (timeFields t)).length :=
    firstFrom_append _ [] (dot_notMem_intercalate t)
  have long : 0 < (['-'].intercalate (timeFields t)).length := by
    rw [intercalate_timeFields, List.length_append, length_padded]
    omega
  have calendar : Discovery.erase (['-'].intercalate (timeFields t) ++ ".dat".toList)
      (['-'].intercalate (timeFields t)).length
      ((['-'].intercalate (timeFields t) ++ ".dat".toList).length - 1)
      = ['-'].intercalate (timeFields t) := by
    rw [Discovery.erase, List.take_left, List.drop_eq_nil_of_le (by omega), List.append_nil]
  rw [createTimeFromDataFileName_eq, dataFileNameOf, String.toList_ofList,
    behindUnderscore_append _ absent, timeOfText, suffix, Option.bind_some, calendar,
    tokens_timeFields]
  exact mapM_timeFields small

/-- A later time has the greater text: the first field that differs is the greater one. -/
theorem intercalate_timeFields_lt {t t' : Nat} (small : t' < 2147483648) (earlier : t < t')
    (s : List Char)
    : ['-'].intercalate (timeFields t) ++ s < ['-'].intercalate (timeFields t') ++ s := by
  obtain ⟨late, monthTo, dayTo⟩ := timeFields_bounds (earlier.trans small)
  obtain ⟨late', monthTo', dayTo'⟩ := timeFields_bounds small
  have dates : t / 86400 = t' / 86400
      ∨ (dateOfDay (t / 86400)).Before (dateOfDay (t' / 86400)) := by
    rcases eq_or_lt_of_le (Nat.div_le_div_right (c := 86400) earlier.le) with same | before
    · exact .inl same
    · exact .inr (dateOfDay_before before)
  simp only [intercalate_timeFields, List.append_assoc, List.cons_append]
  rw [padded_append_cons_lt_iff (by omega) (by omega),
    padded_append_cons_lt_iff (by omega) (by omega),
    padded_append_cons_lt_iff (by omega) (by omega),
    padded_append_cons_lt_iff (by omega) (by omega),
    padded_append_cons_lt_iff (by omega) (by omega), padded_append_lt_iff (by omega) (by omega)]
  simp only [List.lt_irrefl, and_false, or_false]
  rcases dates with same | before
  · rw [same]
    omega
  · unfold Date.Before at before
    omega

/-- Names of one prefix are ordered as their times. -/
theorem dataFileNameOf_lt {pre : String} {t t' : Nat} (small : t' < 2147483648)
    (earlier : t < t')
    : dataFileNameOf pre t < dataFileNameOf pre t' := by
  rw [String.lt_iff_toList_lt]
  simp only [dataFileNameOf, String.toList_ofList]
  exact List.append_left_lt (List.cons_lt_cons_iff.mpr
    (.inr ⟨rfl, intercalate_timeFields_lt small earlier _⟩))

/-- File names and times correspond: the time of a name is the one that was written into it,
names of one prefix are ordered as their times, and so the first name of a set of them is the
one of the oldest file. A prefix may contain anything else than an underscore.
-/
theorem dataFileNameOf_isOrderedTime {pre : String} (absent : '_' ∉ pre.toList)
    : (∀ t < 2147483648,
        createTimeFromDataFileName (dataFileNameOf pre t) = some (UInt32.ofNat t))
      ∧ (∀ t < 2147483648, ∀ t' < 2147483648,
          dataFileNameOf pre t < dataFileNameOf pre t' ↔ t < t')
      ∧ ∀ (times : Finset Nat) (files : times.Nonempty), (∀ t ∈ times, t < 2147483648) →
          (times.image (dataFileNameOf pre)).min' (files.image _)
            = dataFileNameOf pre (times.min' files) := by
  refine ⟨fun t small => createTimeFromDataFileName_dataFileNameOf absent small, ?_, ?_⟩
  · intro t small t' small'
    constructor
    · intro less
      by_contra notEarlier
      rcases eq_or_lt_of_le (not_lt.mp notEarlier) with same | later
      · exact absurd (same ▸ less) (lt_irrefl _)
      · exact absurd less (dataFileNameOf_lt small later).not_gt
    · exact dataFileNameOf_lt small'
  · intro times files small
    refine le_antisymm (Finset.min'_le _ _ (Finset.mem_image_of_mem _ (times.min'_mem files))) ?_
    refine Finset.le_min' _ _ _ ?_
    intro name member
    obtain ⟨t, file, rfl⟩ := Finset.mem_image.mp member
    rcases eq_or_lt_of_le (times.min'_le t file) with oldest | later
    · rw [oldest]
    · exact (dataFileNameOf_lt (small t file) later).le

/-- The prefix "upmu". -/
theorem dataFileNameOf_isOrderedTime_upmu
    : (∀ t < 2147483648,
        createTimeFromDataFileName (dataFileNameOf "upmu" t) = some (UInt32.ofNat t))
      ∧ (∀ t < 2147483648, ∀ t' < 2147483648,
          dataFileNameOf "upmu" t < dataFileNameOf "upmu" t' ↔ t < t')
      ∧ ∀ (times : Finset Nat) (files : times.Nonempty), (∀ t ∈ times, t < 2147483648) →
          (times.image (dataFileNameOf "upmu")).min' (files.image _)
            = dataFileNameOf "upmu" (times.min' files) :=
  dataFileNameOf_isOrderedTime (by decide)

example : dataFileNameOf "upmu" 600 = "upmu_1970-01-01-00-10-00.dat" := by decide

end Sparcs.Discovery
