import Sparcs.CassSpeed.Client

/-! Which requests the server reads as the client means them. -/

namespace Sparcs.CassSpeed

open NumberText

theorem endsNumber_sep : EndsNumber sep :=
  ⟨by decide, by decide, by decide, by decide⟩

theorem toText_ended (v : Int) : nul ∉ toText v :=
  (isNumber_toText v).not_mem (by decide) (by decide) (by decide) (by decide)

theorem splitOn_toText (v : Int) : (toText v).splitOn sep = [toText v] :=
  List.splitOn_eq_singleton ((isNumber_toText v).not_mem endsNumber_sep.space
    endsNumber_sep.minus endsNumber_sep.plus endsNumber_sep.digit)

/-- The codes are read as the client reads them exactly when each of them is a number. -/
theorem mapM_stoi {codes : List Text} {numbers : List Int32}
    : codes.mapM stoi = .ok numbers
      ↔ numbers = codes.map atoi ∧ ∀ code ∈ codes, stoi code = .ok (atoi code) := by
  induction codes generalizing numbers with
  | nil =>
      rw [List.mapM_nil]
      simp [pure, Except.pure, eq_comm]
  | cons code codes ih =>
      rw [List.mapM_cons]
      cases number : stoi code with
      | error fault => simp [bind, Except.bind, number]
      | ok v =>
          have same := atoi_of_stoi number
          cases others : codes.mapM stoi with
          | error fault =>
              simp only [bind, Except.bind, reduceCtorEq, List.mem_cons, forall_eq_or_imp,
                false_iff, not_and]
              intro _ _ every
              have read := ih.mpr ⟨rfl, every⟩
              rw [others] at read
              cases read
          | ok tail =>
              obtain ⟨rfl, every⟩ := ih.mp others
              simp only [bind, Except.bind, pure, Except.pure, Except.ok.injEq, List.map_cons, same,
                List.mem_cons, forall_eq_or_imp, number, true_and]
              exact ⟨fun equal => ⟨equal.symm, every⟩, fun equal => equal.1.symm⟩

section Ends

variable (p : Prepared) (start stop : Int64)

/-- The last two arguments as they are sent. -/
def Prepared.compressionAndStep : Text := p.compressionMethod ++ sep :: p.stepsize

/-- The field that the server reads as the compressions. -/
def Prepared.compressionText : Text := p.compressionAndStep.takeWhile (· ≠ sep)

/-- What the server finds behind that field; its beginning is read as the step size. -/
def Prepared.stepText : Text := (p.compressionAndStep.dropWhile (· ≠ sep)).tail

/-- The request up to the field of the step size. -/
def Prepared.beforeStep : Text :=
  [sep].intercalate
    [p.nodeviceids, p.deviceids, p.nosamplesets, toText start.toInt, toText stop.toInt,
      p.requested, p.compressionText, []]

/-- The fields up to the step size. -/
def Prepared.fieldsBefore : List Text :=
  p.nodeviceids :: (p.deviceids.splitOn sep ++
    p.nosamplesets :: toText start.toInt :: toText stop.toInt ::
      (p.requested.splitOn sep ++ [p.compressionText]))

theorem Prepared.sep_notMem_compressionText : sep ∉ p.compressionText := by
  intro member
  simpa using List.mem_takeWhile_imp member

theorem Prepared.compressionText_append
    : p.compressionText ++ sep :: p.stepText = p.compressionAndStep := by
  have text := List.takeWhile_append_dropWhile (p := (· ≠ sep)) (l := p.compressionAndStep)
  have member : sep ∈ p.compressionAndStep := by simp [compressionAndStep]
  cases rest : p.compressionAndStep.dropWhile (· ≠ sep) with
  | nil =>
      rw [List.dropWhile_eq_nil_iff] at rest
      simpa using rest sep member
  | cons c rest' =>
      have first := List.dropWhile_get_zero_not (fun c => decide (c ≠ sep)) p.compressionAndStep
        (by rw [rest]; simp)
      simp only [rest, List.get_eq_getElem, List.getElem_cons_zero, decide_eq_true_eq,
        not_not] at first
      rw [rest, first] at text
      rw [compressionText, stepText, rest, List.tail_cons, text]

theorem Prepared.datatotransmit_eq
    : p.datatotransmit start stop = p.beforeStep start stop ++ p.stepText := by
  have ends : p.compressionMethod ++ ([sep] ++ p.stepsize)
      = p.compressionText ++ ([sep] ++ p.stepText) := p.compressionText_append.symm
  simp only [datatotransmit, beforeStep, List.intercalate_cons_cons, List.intercalate_singleton,
    List.append_assoc, List.append_nil, ends]

theorem stoi_compressionText : stoi p.compressionText = stoi p.compressionMethod := by
  refine stoi_congr ?_
  rw [← readNumber_append_sep endsNumber_sep p.compressionText p.stepText,
    p.compressionText_append, Prepared.compressionAndStep, readNumber_append_sep endsNumber_sep]

variable {p}

theorem Prepared.Checked.splitOn_beforeStep (checked : p.Checked)
    : (p.beforeStep start stop).splitOn sep = p.fieldsBefore start stop ++ [[]] := by
  obtain ⟨loopsum, sum⟩ := checked.nosamplesets
  simp only [beforeStep, fieldsBefore, List.intercalate_cons_cons, List.intercalate_singleton,
    List.append_assoc, List.splitOn_append_cons_self, checked.devices, sum, splitOn_toText,
    List.splitOn_eq_singleton p.sep_notMem_compressionText, List.splitOn_nil,
    List.cons_append, List.nil_append]

theorem Prepared.Checked.ended_datatotransmit (checked : p.Checked)
    : nul ∉ p.datatotransmit start stop := by
  have other : nul ≠ sep := by decide
  have ended := checked.ended
  obtain ⟨loopsum, sum⟩ := checked.nosamplesets
  simp only [List.mem_cons, List.not_mem_nil, or_false, forall_eq_or_imp, forall_eq] at ended
  simp [datatotransmit, List.intercalate_cons_cons, other, checked.devices, sum, toText_ended,
    ended]

end Ends

/-- What the request format promises: whatever stands in memory behind the buffer, the server
reads what the client means; the codes are twelve, each 0 or 1; raw means single steps.
-/
structure Prepared.RoundTrips (p : Prepared) (start stop : Int64) : Prop where
  parsed : ∀ beyond, ∃ r,
    parseRequest (receive (p.datatotransmit start stop ++ [nul]) beyond) = .ok r
    ∧ r.devices = split p.deviceids sep
    ∧ r.timestampstart = toText start.toInt ∧ r.timestampend = toText stop.toInt
    ∧ r.requested = (split p.requested sep).map (atoi · != 0)
    ∧ stoi p.compressionMethod = .ok r.compressionMethod ∧ stoi p.stepsize = .ok r.stepsize
  codes : (split p.requested sep).length = 12
    ∧ ∀ code ∈ split p.requested sep, atoi code = 0 ∨ atoi code = 1
  raw : ∀ v, stoi p.compressionMethod = .ok v → testBit v 4 → stoi p.stepsize = .ok 1

/-- Arguments with which the format keeps its promise. -/
structure Prepared.Readable (p : Prepared) (start stop : Int64) : Prop where
  /-- The device list is not empty and does not end with a separator. -/
  devices : ∃ last ∈ p.deviceids.getLast?, last ≠ sep
  /-- Twelve codes, and no empty one behind them, each beginning with the number 0 or 1. -/
  codes : (p.requested.splitOn sep).length = 12
    ∧ ∀ code ∈ p.requested.splitOn sep, stoi code = .ok 0 ∨ stoi code = .ok 1
  raw : ∀ v, stoi p.compressionMethod = .ok v → testBit v 4 → stoi p.stepsize = .ok 1
  /-- What follows the compressions begins with the step size. -/
  step : ∃ v, stoi p.stepsize = .ok v ∧ stoi p.stepText = .ok v
  /-- The request is shorter than the buffer, up to the last digit of the step size. -/
  short : (p.beforeStep start stop).length + numberLength p.stepText < 1024

section RoundTrip

variable {p : Prepared} {start stop : Int64}

/-- A field that is a number is not the empty one that splitting leaves away. -/
theorem splitOn_of_append {s : Text} {field : Text} {rest rest' : List Text}
    (fields : split s sep ++ field :: rest = s.splitOn sep ++ rest') (filled : field ≠ [])
    : s.splitOn sep = split s sep ∧ field :: rest = rest' := by
  rcases splitOn_eq_split sep s with same | dropped
  · rw [same] at fields
    exact ⟨same, List.append_cancel_left fields⟩
  · rw [dropped, List.append_assoc, List.append_cancel_left_eq, List.singleton_append,
      List.cons.injEq] at fields
    exact absurd fields.1 filled

/-- Where the server finds the devices and the codes, its fields are those of the request. -/
theorem Prepared.fields_eq {n nosamplesets timestampstart timestampend compressions : Text}
    {codes after after' : List Text}
    (fields : n :: (split p.deviceids sep ++ nosamplesets :: timestampstart :: timestampend ::
      (codes ++ compressions :: after)) = p.fieldsBefore start stop ++ after')
    (sets : nosamplesets ≠ []) (method : compressions ≠ [])
    (twelve : codes.length = (split p.requested sep).length)
    : p.deviceids.splitOn sep = split p.deviceids sep
      ∧ p.requested.splitOn sep = codes ∧ codes = split p.requested sep ∧ after = after' := by
  rw [Prepared.fieldsBefore, List.cons_append, List.cons.injEq, List.append_assoc] at fields
  obtain ⟨devices, rest⟩ := splitOn_of_append fields.2 sets
  simp only [List.cons_append, List.cons.injEq, List.append_assoc, List.nil_append] at rest
  have codesEq : codes = split p.requested sep := by
    rcases splitOn_eq_split sep p.requested with same | dropped
    · exact (List.append_inj rest.2.2.2 (by rw [twelve, same])).1.trans same
    · rw [dropped, List.append_assoc] at rest
      exact (List.append_inj rest.2.2.2 twelve).1
  have last := rest.2.2.2
  rw [codesEq] at last
  obtain ⟨same, ends⟩ := splitOn_of_append last method
  exact ⟨devices, same.trans codesEq.symm, codesEq, (List.cons.inj ends).2⟩

/-- A number stands at the beginning of a text as it stands at the beginning of its first
field.
-/
theorem numberLength_first {s first number rest : Text} {fields : List Text} {v : Int}
    (begins : s.splitOn sep = first :: fields) (text : first = number ++ rest)
    (reads : IsNumber number v) (stops : Stops rest)
    : numberLength s = number.length := by
  have whole : [sep].intercalate (s.splitOn sep) = s := List.intercalate_splitOn sep
  rw [begins] at whole
  cases fields with
  | nil =>
      rw [List.intercalate_singleton, text] at whole
      rw [← whole]
      exact (reads.readNumber_append stops).2
  | cons second fields =>
      rw [List.intercalate_cons_cons, text, List.append_assoc, List.append_assoc] at whole
      rw [← whole]
      refine (reads.readNumber_append ?_).2
      intro c head
      cases rest with
      | nil =>
          rw [List.nil_append, List.singleton_append, List.head?_cons] at head
          exact Option.some.inj head ▸ endsNumber_sep.digit
      | cons d rest => exact stops c head

/-- A request that fits up to the last digit of the step size is received up to there, and
no digit follows.
-/
theorem receive_begins {text before number rest : Text} (ended : nul ∉ text)
    (parts : text = before ++ (number ++ rest)) (stops : Stops rest)
    (short : before.length + number.length < 1024) (beyond : Text)
    : ∃ rest', receive (text ++ [nul]) beyond = before ++ (number ++ rest') ∧ Stops rest' := by
  by_cases fits : text.length < 1024
  · exact ⟨rest, by rw [receive_short ended fits, parts], stops⟩
  · have length := congrArg List.length parts
    simp only [List.length_append] at length
    have cut : text.take 1024
        = before ++ (number ++ rest.take (1024 - before.length - number.length)) := by
      rw [parts, List.take_append, List.take_of_length_le (by omega), List.take_append,
        List.take_of_length_le (l := number) (by omega)]
    rw [receive_long ended (by omega), cut]
    refine ⟨rest.take (1024 - before.length - number.length) ++ beyond.takeWhile (· ≠ nul),
      by simp, ?_⟩
    obtain ⟨room, roomEq⟩ : ∃ room, 1024 - before.length - number.length = room + 1 :=
      ⟨1023 - before.length - number.length, by omega⟩
    rw [roomEq]
    cases rest with
    | nil =>
        rw [List.length_nil] at length
        omega
    | cons c rest => exact stops

theorem Prepared.Readable.roundTrips (checked : p.Checked) (readable : p.Readable start stop)
    : p.RoundTrips start stop := by
  have devices := (splitOn_eq_split_iff _).mpr readable.devices
  obtain ⟨twelve, every⟩ := readable.codes
  have codes : p.requested.splitOn sep = split p.requested sep := by
    refine (splitOn_eq_split sep p.requested).resolve_right ?_
    intro dropped
    have bad := every [] (by rw [dropped]; simp)
    rw [stoi_nil] at bad
    simp at bad
  obtain ⟨v, size, step⟩ := readable.step
  refine ⟨?_, ⟨codes ▸ twelve, ?_⟩, readable.raw⟩
  · intro beyond
    obtain ⟨number, rest, text, reads, stops⟩ := exists_isNumber (stoi_eq_ok_iff.mp step)
    have short := readable.short
    rw [text, (reads.readNumber_append stops).2] at short
    obtain ⟨rest', received, stops'⟩ := receive_begins
      (checked.ended_datatotransmit start stop)
      (by rw [p.datatotransmit_eq, text]) stops short beyond
    obtain ⟨first, more, begins, whole⟩ := splitOn_append (p.beforeStep start stop)
      (number ++ rest') (checked.splitOn_beforeStep start stop)
    have firstStep : stoi first = .ok v := by
      rw [stoi_eq_ok_iff, readNumber_first endsNumber_sep begins]
      exact (reads.readNumber_append stops').1
    obtain ⟨more', fields⟩ := split_of_splitOn whole (ne_nil_of_stoi firstStep)
    obtain ⟨loopsum, sum⟩ := checked.nosamplesets
    obtain ⟨method, compression⟩ := checked.compression
    have count : (split p.deviceids sep).length < 1024 := by
      have parts := splitOn_length_le sep p.deviceids
      simp only [Prepared.beforeStep, List.intercalate_cons_cons, List.length_append,
        List.length_singleton] at short
      rw [← devices]
      omega
    refine ⟨⟨split p.deviceids sep, loopsum, toText start.toInt, toText stop.toInt,
      (split p.requested sep).map (atoi · != 0), method, v⟩, ?_, rfl, rfl, rfl, rfl, compression,
      size⟩
    rw [parseRequest_eq_ok, received, fields]
    refine ⟨p.nodeviceids, p.nosamplesets, p.requested.splitOn sep, p.compressionText, first, more',
      Int32.ofNat (split p.deviceids sep).length, (p.requested.splitOn sep).map atoi, ?_, ?_, ?_,
      ?_, ?_, twelve, ?_, ?_, ?_, firstStep⟩
    · simp [Prepared.fieldsBefore, devices]
    · rw [checked.devices, stoi_toText (by omega) (by omega)]
      rfl
    · rw [Int32.toInt_ofNat_of_lt (by omega)]
      omega
    · rw [Int32.toInt_ofNat_of_lt (by omega), Int.toNat_natCast]
    · rw [sum, stoi_eq_ok_iff, readNumber_toText]
    · refine mapM_stoi.mpr ⟨rfl, fun code member => ?_⟩
      rcases every code member with number | number
      · rw [number, atoi_of_stoi number]
      · rw [number, atoi_of_stoi number]
    · rw [codes, List.map_map]
      rfl
    · rw [stoi_compressionText, compression]
  · intro code member
    rcases every code (codes ▸ member) with number | number
    · exact .inl (atoi_of_stoi number)
    · exact .inr (atoi_of_stoi number)

/-- The fields of a request that was read, parted at the step size. -/
theorem Request.IsReadFrom.parted {r : Request} {x : List Text} (start stop : Int64)
    (read : r.IsReadFrom x)
    (devices : r.devices = split p.deviceids sep) (twelve : (split p.requested sep).length = 12)
    : ∃ before step rest, x = before ++ step :: rest
        ∧ before.length = (split p.deviceids sep).length + 17 ∧ stoi step = .ok r.stepsize
        ∧ ∀ after after', before ++ after = p.fieldsBefore start stop ++ after' →
          p.deviceids.splitOn sep = split p.deviceids sep
          ∧ p.requested.splitOn sep = split p.requested sep
          ∧ (∀ code ∈ split p.requested sep, stoi code = .ok (atoi code)) ∧ after = after' := by
  obtain ⟨n, nosamplesets, codes, compressions, step, rest, _, numbers, fields, -, -, -, sets,
    length, numbersOf, -, method, size⟩ := read
  refine ⟨n :: (r.devices ++ nosamplesets :: r.timestampstart :: r.timestampend ::
    (codes ++ [compressions])), step, rest, by rw [fields]; simp, ?_, size, ?_⟩
  · simp [devices, length]
  · intro after after' same
    rw [devices] at same
    obtain ⟨listed, coded, codesEq, rest⟩ := p.fields_eq
      (by simpa using same) (ne_nil_of_stoi sets) (ne_nil_of_stoi method) (length.trans twelve.symm)
    exact ⟨listed, coded.trans codesEq, codesEq ▸ (mapM_stoi.mp numbersOf).2, rest⟩

/-- The number at the beginning of the first field takes no more than this field. -/
theorem numberLength_le_first {s first : Text} {fields : List Text} {v : Int32}
    (begins : s.splitOn sep = first :: fields) (reads : stoi first = .ok v)
    : numberLength s ≤ first.length := by
  obtain ⟨number, rest, text, isNumber, stops⟩ := exists_isNumber (stoi_eq_ok_iff.mp reads)
  rw [numberLength_first begins text isNumber stops, text, List.length_append]
  omega

/-- A number that an additional digit does not change ends before the end of its field. -/
theorem numberLength_lt_cut {s cut added : Text} {fields : List Text} {v : Int32}
    (begins : s.splitOn sep = (cut ++ added) :: fields) (reads : stoi cut = .ok v)
    (grown : stoi (cut ++ ['0']) = .ok v) (positive : v ≠ 0)
    : stoi (cut ++ added) = .ok v ∧ numberLength s < cut.length := by
  obtain ⟨number, rest, rfl, isNumber, stops⟩ := exists_isNumber (stoi_eq_ok_iff.mp reads)
  cases rest with
  | nil =>
      rw [List.append_nil, stoi_eq_ok_iff] at grown
      have longer := (isNumber.append_zero.readNumber_append stops_nil).1
      rw [List.append_nil, grown, Option.some.injEq] at longer
      have zero : v.toInt = (0 : Int32).toInt := by
        rw [Int32.toInt_zero]
        omega
      exact absurd (Int32.toInt_inj.mp zero) positive
  | cons c rest =>
      have stops' : Stops (c :: rest ++ added) := stops
      rw [List.append_assoc] at begins ⊢
      refine ⟨stoi_eq_ok_iff.mpr (isNumber.readNumber_append stops').1, ?_⟩
      rw [numberLength_first begins rfl isNumber stops', List.length_append, List.length_cons]
      omega

/-- Where the buffer ends inside the field of the step size, a zero that stands behind it goes
on with that field, and the step size that is read must be the same one.
-/
theorem Prepared.RoundTrips.stoi_step_zero (trips : p.RoundTrips start stop)
    (ended : nul ∉ p.datatotransmit start stop)
    (long : 1024 ≤ (p.datatotransmit start stop).length) {before : List Text} {step : Text}
    (cutFields : ((p.datatotransmit start stop).take 1024).splitOn sep = before ++ [step])
    (length : before.length = (split p.deviceids sep).length + 17) {v : Int32}
    (size : stoi p.stepsize = .ok v)
    : stoi (step ++ ['0']) = .ok v := by
  obtain ⟨r, parsed, devices, -, -, -, -, size'⟩ := trips.parsed ['0']
  obtain ⟨before', step', rest', fields, length', stepEq, -⟩ :=
    (parseRequest_eq_ok.mp parsed).parted start stop devices trips.codes.1
  have digit : ['0'].takeWhile (· ≠ nul) = ['0'] := rfl
  rw [receive_long ended long, digit] at fields
  obtain ⟨zero, nothing, single, digitFields⟩ :=
    splitOn_append ((p.datatotransmit start stop).take 1024) ['0'] cutFields
  obtain ⟨rfl, rfl⟩ := List.cons.inj (single.symm.trans (by rfl : _ = [['0']]))
  obtain ⟨more, read⟩ := split_of_splitOn digitFields (by simp)
  obtain ⟨-, ends⟩ := List.append_inj (fields.symm.trans read) (length'.trans length.symm)
  obtain ⟨rfl, -⟩ := List.cons.inj ends
  rw [stepEq, ← size', size]

theorem Prepared.RoundTrips.readable (checked : p.Checked)
    (trips : p.RoundTrips start stop)
    : p.Readable start stop := by
  obtain ⟨twelve, binary⟩ := trips.codes
  obtain ⟨field, more, begins⟩ := List.exists_cons_of_ne_nil
    (List.splitOn_ne_nil sep p.stepText)
  have ended := checked.ended_datatotransmit start stop
  have text := p.datatotransmit_eq start stop
  obtain ⟨first, more', begins', whole⟩ := splitOn_append (p.beforeStep start stop) p.stepText
    (checked.splitOn_beforeStep start stop)
  obtain ⟨rfl, rfl⟩ := List.cons.inj (begins.symm.trans begins')
  rw [List.nil_append, ← text] at whole
  suffices found : p.deviceids.splitOn sep = split p.deviceids sep
      ∧ p.requested.splitOn sep = split p.requested sep
      ∧ (∀ code ∈ split p.requested sep, stoi code = .ok (atoi code))
      ∧ (∃ v, stoi p.stepsize = .ok v ∧ stoi field = .ok v)
      ∧ (p.beforeStep start stop).length + numberLength p.stepText < 1024 by
    obtain ⟨devices, codes, numbers, ⟨v, size, step⟩, short⟩ := found
    refine ⟨(splitOn_eq_split_iff _).mp devices, ⟨codes ▸ twelve, ?_⟩, trips.raw, ⟨v, size, ?_⟩,
      short⟩
    · intro code member
      rw [codes] at member
      rcases binary code member with zero | one
      · exact .inl (zero ▸ numbers code member)
      · exact .inr (one ▸ numbers code member)
    · rw [← step]
      exact stoi_congr (readNumber_first endsNumber_sep begins).symm
  obtain ⟨r, parsed, devices, -, -, -, -, size⟩ := trips.parsed []
  have positive : r.stepsize ≠ 0 := by
    rw [← atoi_of_stoi size]
    exact checked.divisor
  obtain ⟨before, step, rest, fields, length, stepEq, same⟩ :=
    (parseRequest_eq_ok.mp parsed).parted start stop devices twelve
  have total := congrArg List.length text
  rw [List.length_append] at total
  by_cases fits : (p.datatotransmit start stop).length < 1024
  · rw [receive_short ended fits] at fields
    obtain ⟨rest', all⟩ := splitOn_of_split fields
    obtain ⟨listed, coded, numbers, after⟩ := same _ _ (all.symm.trans whole)
    obtain ⟨rfl, -⟩ := List.cons.inj after
    have within := numberLength_le_first begins stepEq
    have parts := length_splitOn sep p.stepText
    rw [begins, List.map_cons, List.sum_cons] at parts
    exact ⟨listed, coded, numbers, ⟨_, size, stepEq⟩, by omega⟩
  · have long : 1024 ≤ (p.datatotransmit start stop).length := by omega
    have cutLength : ((p.datatotransmit start stop).take 1024).length = 1024 := by
      rw [List.length_take]
      omega
    have widths := length_splitOn sep (p.beforeStep start stop)
    rw [checked.splitOn_beforeStep, List.map_append, List.sum_append] at widths
    have cutWidths := length_splitOn sep ((p.datatotransmit start stop).take 1024)
    rw [receive_long ended long, List.takeWhile_nil, List.append_nil] at fields
    obtain ⟨fieldsCut, last, cutFields⟩ := (List.eq_nil_or_concat'
      (((p.datatotransmit start stop).take 1024).splitOn sep)).resolve_left
        (List.splitOn_ne_nil sep _)
    obtain ⟨added, more', -, grown⟩ := splitOn_append ((p.datatotransmit start stop).take 1024)
      ((p.datatotransmit start stop).drop 1024) cutFields
    rw [List.take_append_drop, whole] at grown
    obtain ⟨rest', all⟩ := splitOn_of_split fields
    rw [cutFields] at cutWidths all
    rcases List.eq_nil_or_concat' rest' with rfl | ⟨inner, end', rfl⟩
    · -- the buffer ends inside the field of the step size
      obtain ⟨rfl, equal⟩ := List.append_inj' all rfl
      obtain rfl := List.singleton_inj.mp equal
      obtain ⟨listed, coded, numbers, after⟩ := same _ _ grown.symm
      obtain ⟨field_eq, -⟩ := List.cons.inj after
      have stepEq' := trips.stoi_step_zero ended long cutFields length size
      obtain ⟨found, short⟩ :=
        numberLength_lt_cut (begins.trans (by rw [← field_eq])) stepEq stepEq' positive
      rw [after] at grown
      rw [← List.append_cancel_right grown] at cutWidths
      simp only [List.map_append, List.sum_append, List.map_singleton, List.sum_singleton,
        List.length_nil] at cutWidths widths
      exact ⟨listed, coded, numbers, ⟨_, size, field_eq ▸ found⟩, by omega⟩
    · -- the whole field of the step size is received
      obtain ⟨rfl, equal⟩ := List.append_inj' (all.trans (by simp) : _ = (before ++ step :: inner)
        ++ [end']) rfl
      obtain ⟨listed, coded, numbers, after⟩ := same (step :: (inner ++ (last ++ added) :: more'))
        (field :: more) (by rw [grown]; simp)
      have before_eq : before = p.fieldsBefore start stop := by
        refine (List.append_left_inj (field :: more)).mp ?_
        rw [grown, ← after]
        simp
      obtain ⟨rfl, -⟩ := List.cons.inj after
      have within := numberLength_le_first begins stepEq
      rw [before_eq] at cutWidths
      simp only [List.map_append, List.sum_append, List.map_cons, List.sum_cons,
        List.length_nil] at cutWidths widths
      exact ⟨listed, coded, numbers, ⟨_, size, stepEq⟩, by omega⟩

end RoundTrip

/-- For all arguments that pass the checks, the request format keeps its promise exactly
with readable ones.
-/
theorem roundTrips_iff_readable {args : Arguments} {p : Prepared}
    (accepted : prepare args = .ok p) (start stop : Int64)
    : p.RoundTrips start stop ↔ p.Readable start stop :=
  ⟨Prepared.RoundTrips.readable (prepare_checked accepted),
    Prepared.Readable.roundTrips (prepare_checked accepted)⟩

/-- One device and one channel. -/
def singleChannel (compressionMethod stepsize : String)
    (ended : ∀ text ∈ [compressionMethod.toList, stepsize.toList], nul ∉ text) : Arguments where
  timestampstart := "1480355400000".toList
  timestampend := "1480356100000".toList
  deviceids := "P3001199".toList
  requested := "1;0;0;0;0;0;0;0;0;0;0;0".toList
  compressionMethod := compressionMethod.toList
  stepsize := stepsize.toList
  calcDeltaT := "0".toList
  ended := by
    intro text member
    rcases List.mem_cons.mp member with rfl | member
    · decide
    rcases List.mem_cons.mp member with rfl | member
    · decide
    · exact ended text member

/-- What the client makes of them, for 32 MiB in one response. -/
def singlePrepared (compressionMethod stepsize : String) (deltaT : Int64) : Prepared where
  nodeviceids := "1".toList
  deviceids := "P3001199".toList
  nosamplesets := "1".toList
  requested := "1;0;0;0;0;0;0;0;0;0;0;0".toList
  compressionMethod := compressionMethod.toList
  stepsize := stepsize.toList
  deltaT := deltaT
  timestampstartGlobal := 1480355400000
  timestampendGlobal := 1480356100000

theorem roundTrips_iff_readable_single
    : (singlePrepared "8" "2" 139810000).RoundTrips 1480355400000 1480356100000 := by
  have accepted : prepare (singleChannel "8" "2" (by decide))
      = .ok (singlePrepared "8" "2" 139810000) := by decide +kernel
  refine (roundTrips_iff_readable accepted _ _).mpr ⟨?_, by decide +kernel, ?_, ?_, ?_⟩
  · exact ⟨'9', by decide, by decide⟩
  · intro v method raw
    have eight : stoi "8".toList = .ok 8 := by decide +kernel
    obtain rfl := Except.ok.inj (method.symm.trans eight)
    revert raw
    decide
  · exact ⟨2, by decide +kernel, by decide +kernel⟩
  · decide +kernel

/-- The checks let raw samples through with a step size of two. -/
theorem raw_with_step_not_roundTrips
    : prepare (singleChannel "16" "2" (by decide)) = .ok (singlePrepared "16" "2" 139810000)
      ∧ ¬(singlePrepared "16" "2" 139810000).RoundTrips 1480355400000 1480356100000 := by
  refine ⟨by decide +kernel, fun trips => ?_⟩
  have single := trips.raw 16 (by decide +kernel) (by decide)
  revert single
  decide +kernel

end Sparcs.CassSpeed
