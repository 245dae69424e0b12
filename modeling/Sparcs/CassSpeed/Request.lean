import Sparcs.Library.NumberText

/-! How the server reads a request: the bounded receive, the split into fields, and the
fields in their order.
-/

namespace Sparcs.CassSpeed

open NumberText

/-- The `char`s of a string, one for each byte. -/
abbrev Text := List Char

/-- The `char` that ends a C string. -/
def nul : Char := Char.ofNat 0

/-- The separator of the request's fields. -/
def sep : Char := ';'

/-- The ways in which a handler gives up. -/
inductive Fault where
  /-- `std::invalid_argument` -/
  | invalidArgument
  /-- Any other exception. -/
  | exception
  /-- The behaviour is undefined. -/
  | undefined
  /-- A loop does not end. -/
  | runsOn
  deriving DecidableEq, Repr

/-- `strtol`, which stays within the bounds of `long`. -/
def strtol (s : Text) : Int :=
  match readNumber s with
  | none => 0
  | some v => max (-9223372036854775808) (min 9223372036854775807 v)

/-- `atoi` -/
def atoi (s : Text) : Int32 := Int32.ofInt (strtol s)

/-- What the handler and the client tell of an exception. -/
def Fault.ofStoi : StoiException → Fault
  | .invalidArgument => .invalidArgument
  | .outOfRange => .exception

/-- `std::stoi` -/
def stoi (s : Text) : Except Fault Int32 := (NumberText.stoi s).mapError Fault.ofStoi

/-- `std::stol` -/
def stol (s : Text) : Except Fault Int64 :=
  match readNumber s with
  | none => .error .invalidArgument
  | some v =>
      if -9223372036854775808 ≤ v ∧ v < 9223372036854775808 then
        .ok (Int64.ofInt v)
      else
        .error .exception

/-- `stream >> tmp` for an unsigned number: a sign counts modulo its size. -/
def readUInt64 (s : Text) : UInt64 :=
  match readNumber s with
  | none => 0
  | some v => if v.natAbs < 2 ^ 64 then UInt64.ofInt v else 18446744073709551615

theorem stoi_eq_ok_iff {s : Text} {v : Int32}
    : stoi s = .ok v ↔ readNumber s = some v.toInt := by
  rw [stoi, ← NumberText.stoi_eq_ok_iff]
  cases NumberText.stoi s <;> simp [Except.mapError]

theorem stoi_congr {s t : Text} (same : readNumber s = readNumber t) : stoi s = stoi t := by
  rw [stoi, stoi, NumberText.stoi, NumberText.stoi, same]

/-- Where `stoi` succeeds, `atoi` gives the same number. -/
theorem atoi_of_stoi {s : Text} {v : Int32} (reads : stoi s = .ok v) : atoi s = v := by
  have lower := v.le_toInt
  have upper := v.toInt_lt
  rw [atoi, strtol, stoi_eq_ok_iff.mp reads]
  have same : max (-9223372036854775808) (min 9223372036854775807 v.toInt) = v.toInt := by omega
  simp only [same, Int32.ofInt_toInt]

theorem stoi_nil : stoi [] = .error .invalidArgument := rfl

theorem ne_nil_of_stoi {s : Text} {v : Int32} (reads : stoi s = .ok v) : s ≠ [] := by
  intro empty
  rw [empty, stoi_nil] at reads
  cases reads

theorem stoi_toText {v : Int} (lower : -2147483648 ≤ v) (upper : v < 2147483648)
    : stoi (toText v) = .ok (Int32.ofInt v) := by
  rw [stoi_eq_ok_iff, readNumber_toText, Int32.toInt_ofInt_of_le (by omega) (by omega)]

/-- `strbuffer`: `recv` fills at most 1024 zeroed bytes, and the string ends at the first
zero byte, be it in the buffer or in the memory `beyond` it.
-/
def receive (sent beyond : Text) : Text :=
  ((sent ++ List.replicate 1024 nul).take 1024 ++ beyond).takeWhile (· ≠ nul)

/-- A text that leaves room for a zero byte is received as it is. -/
theorem receive_short {text : Text} (ended : nul ∉ text) (short : text.length < 1024)
    (beyond : Text)
    : receive (text ++ [nul]) beyond = text := by
  have all : ∀ c ∈ text, decide (c ≠ nul) := by
    intro c member
    exact decide_eq_true (fun same => ended (same ▸ member))
  have zeroes : ((text ++ [nul]) ++ List.replicate 1024 nul).take 1024
      = text ++ nul :: List.replicate (1023 - text.length) nul := by
    rw [List.append_assoc, List.take_append, List.take_of_length_le (by omega),
      List.singleton_append, ← List.replicate_succ, List.take_replicate, ← List.replicate_succ]
    congr 2
    omega
  rw [receive, zeroes, List.append_assoc, List.cons_append]
  exact (span_append all (by intro c head; simp [← Option.some.inj head])).1

/-- A longer text is cut, and what stands beyond the buffer is read behind it. -/
theorem receive_long {text : Text} (ended : nul ∉ text) (long : 1024 ≤ text.length)
    (beyond : Text)
    : receive (text ++ [nul]) beyond = text.take 1024 ++ beyond.takeWhile (· ≠ nul) := by
  have all : ∀ c ∈ text.take 1024, decide (c ≠ nul) := by
    intro c member
    exact decide_eq_true (fun same => ended (same ▸ List.mem_of_mem_take member))
  rw [receive, List.append_assoc, List.take_append_of_le_length long,
    List.takeWhile_append_of_pos all]

/-- What the handler reads from a request. -/
structure Request where
  devices : List Text
  nosamplesets : Int32
  timestampstart : Text
  timestampend : Text
  requested : List Bool
  compressionMethod : Int32
  stepsize : Int32
  deriving DecidableEq

/-- Functions that read on in the fields, which `x.at(i++)` does one by one. -/
abbrev Reading := StateT (List Text) (Except Fault)

/-- `x.at(i++)` -/
def nextField : Reading Text := fun x =>
  match x with
  | [] => .error .exception
  | field :: x => .ok (field, x)

/-- `std::stoi(x.at(i++))` -/
def nextNumber : Reading Int32 := do
  let field ← nextField
  fun x => (stoi field).map (·, x)

/-- `new std::string[numdevices]`, which throws for a negative size. -/
def newDevices (numdevices : Int32) : Reading Unit :=
  if numdevices < 0 then throw .exception else pure ()

/-- The loop that fills `devices`. -/
def readDevices : Nat → Reading (List Text)
  | 0 => pure []
  | n + 1 => do
      let device ← nextField
      let devices ← readDevices n
      return device :: devices

/-- The loop that fills `requested`. -/
def readRequested : Nat → Reading (List Bool)
  | 0 => pure []
  | n + 1 => do
      let code ← nextNumber
      let requested ← readRequested n
      return (code != 0) :: requested

/-- The fields in the order in which the handler reads them. -/
def readRequest : Reading Request := do
  let numdevices ← nextNumber
  newDevices numdevices
  let devices ← readDevices numdevices.toInt.toNat
  let nosamplesets ← nextNumber
  let timestampstart ← nextField
  let timestampend ← nextField
  let requested ← readRequested 12
  let compressionMethod ← nextNumber
  let stepsize ← nextNumber
  return { devices, nosamplesets, timestampstart, timestampend, requested, compressionMethod,
           stepsize }

def parseRequest (strbuffer : Text) : Except Fault Request :=
  (readRequest.run (split strbuffer sep)).map Prod.fst

variable {x rest : List Text}

theorem Reading.bind_eq_ok {α β : Type} {first : Reading α} {next : α → Reading β} {b : β}
    : (first >>= next).run x = .ok (b, rest)
      ↔ ∃ a y, first.run x = .ok (a, y) ∧ (next a).run y = .ok (b, rest) := by
  rw [StateT.run_bind]
  cases first.run x with
  | error fault => simp [bind, Except.bind]
  | ok result =>
      obtain ⟨a, y⟩ := result
      simp [bind, Except.bind]

theorem Reading.pure_eq_ok {α : Type} {a b : α}
    : (pure a : Reading α).run x = .ok (b, rest) ↔ a = b ∧ x = rest := by
  rw [StateT.run_pure]
  simp [pure, Except.pure]

theorem nextField_eq_ok {field : Text}
    : nextField.run x = .ok (field, rest) ↔ x = field :: rest := by
  cases x with
  | nil => simp [nextField, StateT.run]
  | cons first x => simp [nextField, StateT.run]

theorem nextNumber_eq_ok {v : Int32}
    : nextNumber.run x = .ok (v, rest) ↔ ∃ field, x = field :: rest ∧ stoi field = .ok v := by
  rw [nextNumber, Reading.bind_eq_ok]
  constructor
  · rintro ⟨field, y, reads, converts⟩
    rw [nextField_eq_ok] at reads
    refine ⟨field, ?_⟩
    cases number : stoi field with
    | error fault => simp [StateT.run, number, Except.map] at converts
    | ok w =>
        simp [StateT.run, number, Except.map] at converts
        rw [reads, converts.1, converts.2]
        exact ⟨rfl, rfl⟩
  · rintro ⟨field, rfl, number⟩
    exact ⟨field, rest, nextField_eq_ok.mpr rfl, by simp [StateT.run, number, Except.map]⟩

/-- The loop over the devices takes as many fields as it is told to. -/
theorem readDevices_eq_ok {n : Nat} {devices : List Text}
    : (readDevices n).run x = .ok (devices, rest)
      ↔ x = devices ++ rest ∧ devices.length = n := by
  induction n generalizing x rest devices with
  | zero =>
      rw [readDevices, Reading.pure_eq_ok, List.length_eq_zero_iff]
      constructor
      · rintro ⟨rfl, rfl⟩
        exact ⟨rfl, rfl⟩
      · rintro ⟨rfl, rfl⟩
        exact ⟨rfl, rfl⟩
  | succ n ih =>
      simp only [readDevices, Reading.bind_eq_ok, nextField_eq_ok, ih, Reading.pure_eq_ok]
      constructor
      · rintro ⟨device, _, rfl, others, _, ⟨rfl, length⟩, rfl, rfl⟩
        exact ⟨rfl, by rw [List.length_cons, length]⟩
      · rintro ⟨rfl, length⟩
        cases devices with
        | nil => simp at length
        | cons device others =>
            exact ⟨device, _, rfl, others, _, ⟨rfl, by simpa using length⟩, rfl, rfl⟩

/-- The loop over the flags takes as many numbers as it is told to. -/
theorem readRequested_eq_ok {n : Nat} {requested : List Bool}
    : (readRequested n).run x = .ok (requested, rest)
      ↔ ∃ codes numbers, x = codes ++ rest ∧ codes.length = n
        ∧ codes.mapM stoi = .ok numbers ∧ requested = numbers.map (· != 0) := by
  induction n generalizing x rest requested with
  | zero =>
      rw [readRequested, Reading.pure_eq_ok]
      constructor
      · rintro ⟨rfl, rfl⟩
        exact ⟨[], [], rfl, rfl, rfl, rfl⟩
      · rintro ⟨codes, numbers, rfl, length, numbersOf, rfl⟩
        rw [List.length_eq_zero_iff.mp length, List.mapM_nil] at numbersOf
        rw [List.length_eq_zero_iff.mp length, ← Except.ok.inj numbersOf]
        exact ⟨rfl, rfl⟩
  | succ n ih =>
      simp only [readRequested, Reading.bind_eq_ok, nextNumber_eq_ok, ih, Reading.pure_eq_ok]
      constructor
      · rintro ⟨v, _, ⟨code, rfl, number⟩, _, _, ⟨codes, numbers, rfl, length, numbersOf, rfl⟩,
          rfl, rfl⟩
        refine ⟨code :: codes, v :: numbers, rfl, by rw [List.length_cons, length], ?_, rfl⟩
        rw [List.mapM_cons, number, numbersOf]
        rfl
      · rintro ⟨codes, numbers, rfl, length, numbersOf, rfl⟩
        cases codes with
        | nil => simp at length
        | cons code codes =>
            rw [List.mapM_cons] at numbersOf
            cases number : stoi code with
            | error fault => rw [number] at numbersOf; cases numbersOf
            | ok v =>
                cases others : codes.mapM stoi with
                | error fault => rw [number, others] at numbersOf; cases numbersOf
                | ok tail =>
                    rw [number, others] at numbersOf
                    rw [← Except.ok.inj numbersOf]
                    exact ⟨v, _, ⟨code, rfl, number⟩, _, _,
                      ⟨codes, tail, rfl, by simpa using length, others, rfl⟩, rfl, rfl⟩

/-- The fields make up a request: a number of devices and the devices, a number of sample
sets, the two times, twelve codes, the compressions and the step size.
-/
def Request.IsReadFrom (r : Request) (x : List Text) : Prop :=
  ∃ n nosamplesets codes compressions step rest numdevices numbers,
    x = n :: (r.devices ++ nosamplesets :: r.timestampstart :: r.timestampend ::
      (codes ++ compressions :: step :: rest))
    ∧ stoi n = .ok numdevices ∧ 0 ≤ numdevices.toInt
    ∧ r.devices.length = numdevices.toInt.toNat
    ∧ stoi nosamplesets = .ok r.nosamplesets
    ∧ codes.length = 12 ∧ codes.mapM stoi = .ok numbers ∧ r.requested = numbers.map (· != 0)
    ∧ stoi compressions = .ok r.compressionMethod ∧ stoi step = .ok r.stepsize

theorem newDevices_eq_ok {numdevices : Int32} {done : Unit}
    : (newDevices numdevices).run x = .ok (done, rest) ↔ 0 ≤ numdevices.toInt ∧ x = rest := by
  have sign : numdevices < 0 ↔ ¬0 ≤ numdevices.toInt := by
    rw [Int32.lt_iff_toInt_lt, not_le]
    rfl
  rw [newDevices]
  by_cases negative : numdevices < 0
  · rw [if_pos negative]
    simp only [sign.mp negative, false_and, iff_false]
    intro thrown
    cases thrown
  · rw [if_neg negative, Reading.pure_eq_ok]
    simp [not_not.mp (mt sign.mpr negative)]

theorem parseRequest_eq_ok {strbuffer : Text} {r : Request}
    : parseRequest strbuffer = .ok r ↔ r.IsReadFrom (split strbuffer sep) := by
  have result : parseRequest strbuffer = .ok r
      ↔ ∃ rest, readRequest.run (split strbuffer sep) = .ok (r, rest) := by
    rw [parseRequest]
    cases readRequest.run (split strbuffer sep) with
    | error fault => simp [Except.map]
    | ok read =>
        obtain ⟨r', rest⟩ := read
        simp [Except.map]
  simp only [result, readRequest, Reading.bind_eq_ok, newDevices_eq_ok, nextNumber_eq_ok,
    nextField_eq_ok, readDevices_eq_ok, readRequested_eq_ok, Reading.pure_eq_ok]
  constructor
  · rintro ⟨_, numdevices, _, ⟨n, fields, number⟩, _, _, ⟨positive, rfl⟩,
      devices, _, ⟨rfl, length⟩, _, _, ⟨nosamplesets, rfl, sets⟩, _, _, rfl, _, _, rfl,
      _, _, ⟨codes, numbers, rfl, twelve, numbersOf, rfl⟩, _, _, ⟨compressions, rfl, method⟩,
      _, _, ⟨step, rfl, size⟩, rfl, rfl⟩
    exact ⟨n, nosamplesets, codes, compressions, step, _, numdevices, numbers, fields, number,
      positive, length, sets, twelve, numbersOf, rfl, method, size⟩
  · rintro ⟨n, nosamplesets, codes, compressions, step, rest, numdevices, numbers, fields, number,
      positive, length, sets, twelve, numbersOf, flags, method, size⟩
    exact ⟨rest, numdevices, _, ⟨n, fields, number⟩, (), _, ⟨positive, rfl⟩,
      r.devices, _, ⟨rfl, length⟩, _, _, ⟨nosamplesets, rfl, sets⟩, _, _, rfl, _, _, rfl,
      r.requested, _, ⟨codes, numbers, rfl, twelve, numbersOf, flags⟩, _, _,
      ⟨compressions, rfl, method⟩, _, _, ⟨step, rfl, size⟩, rfl, rfl⟩

end Sparcs.CassSpeed
