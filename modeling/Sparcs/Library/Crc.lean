import Mathlib.Tactic.Ring

/-! Cyclic redundancy checks, bit by bit and most significant bit first: a register of any
width with no reflection and no final exclusive or. Feeding is linear and loses nothing when
the generator's constant term is set, so a burst of errors no wider than the register shows.
-/

namespace Crc

variable {w : Nat}

/-- The register after one more bit of the message. -/
def step (poly register : BitVec w) (bit : Bool) : BitVec w :=
  if register.msb ^^ bit then (register <<< 1) ^^^ poly else register <<< 1

/-- The register after a whole message. -/
def feed (poly register : BitVec w) (message : List Bool) : BitVec w :=
  message.foldl (step poly) register

/-- The first `n` bits of `value`, most significant bit first. -/
def topBits : Nat → BitVec w → List Bool
  | 0, _ => []
  | n + 1, value => value.msb :: topBits n (value <<< 1)

variable {poly : BitVec w}

theorem feed_append (register : BitVec w) (first second : List Bool)
    : feed poly register (first ++ second) = feed poly (feed poly register first) second := by
  exact List.foldl_append

/-- One step is linear over exclusive or, by cases on which of the two divide. -/
theorem step_xor (register register' : BitVec w) (bit bit' : Bool)
    : step poly (register ^^^ register') (bit ^^ bit')
      = step poly register bit ^^^ step poly register' bit' := by
  unfold step
  rw [BitVec.msb_xor, BitVec.shiftLeft_xor_distrib]
  generalize register <<< 1 = shifted
  generalize register' <<< 1 = shifted'
  have regroup
      : (register.msb ^^ register'.msb ^^ (bit ^^ bit'))
        = ((register.msb ^^ bit) ^^ (register'.msb ^^ bit')) := by
    cases register.msb <;> cases bit <;> simp
  rw [regroup]
  have cancel : shifted ^^^ poly ^^^ (shifted' ^^^ poly) = shifted ^^^ shifted' := by
    rw [BitVec.xor_comm shifted' poly, BitVec.xor_assoc, ← BitVec.xor_assoc poly,
      BitVec.xor_self, BitVec.zero_xor]
  cases register.msb ^^ bit <;> cases register'.msb ^^ bit'
  case true.true => exact cancel.symm
  all_goals simp <;> ac_rfl

/-- The bitwise difference of two messages, up to the shorter one's end. -/
def difference (message message' : List Bool) : List Bool :=
  List.zipWith xor message message'

theorem difference_self (message : List Bool)
    : difference message message = List.replicate message.length false := by
  apply List.ext_getElem <;> simp [difference]

theorem feed_difference (poly register register' : BitVec w) (message message' : List Bool)
    (sameLength : message.length = message'.length)
    : feed poly (register ^^^ register') (difference message message')
      = feed poly register message ^^^ feed poly register' message' := by
  induction message generalizing register register' message' with
  | nil =>
      cases message' with
      | nil => rfl
      | cons bit' rest' => simp at sameLength
  | cons bit rest ih =>
      cases message' with
      | nil => simp at sameLength
      | cons bit' rest' =>
          change feed poly (step poly _ (bit ^^ bit')) (difference rest rest') = _
          rw [step_xor]
          exact ih _ _ _ (by simpa using sameLength)

theorem feed_zero_replicate (n : Nat)
    : feed poly 0 (List.replicate n false) = 0 := by
  induction n with
  | zero => rfl
  | succ n ih =>
      have step_zero : step poly 0 false = 0 := by simp [step]
      change feed poly (step poly 0 false) (List.replicate n false) = 0
      rw [step_zero, ih]

/-- A step on a zero bit clears no set register: either its top bit is set and the constant
term of the generator is left behind, or the shift drops nothing.
-/
theorem step_false_eq_zero {register : BitVec w} (constantTerm : poly.getLsbD 0)
    (cleared : step poly register false = 0)
    : register = 0 := by
  have lowBit := congrArg (fun r => r.getLsbD 0) cleared
  cases top : register.msb with
  | true => simp [step, top, constantTerm] at lowBit
  | false =>
      have shifted : register <<< 1 = 0 := by simpa [step, top] using cleared
      apply BitVec.eq_of_getMsbD_eq
      intro i _
      cases i with
      | zero => rw [← BitVec.msb_eq_getMsbD_zero, top]; simp
      | succ i =>
          have bit := congrArg (fun r => r.getMsbD i) shifted
          by_cases inside : i + 1 < w
          · simpa [show i < w by omega, Nat.add_comm] using bit
          · omega

theorem feed_replicate_eq_zero {register : BitVec w} (constantTerm : poly.getLsbD 0) (n : Nat)
    (cleared : feed poly register (List.replicate n false) = 0)
    : register = 0 := by
  induction n generalizing register with
  | zero => exact cleared
  | succ n ih => exact step_false_eq_zero constantTerm (ih cleared)

@[simp] theorem topBits_length (n : Nat) (value : BitVec w)
    : (topBits n value).length = n := by
  induction n generalizing value with
  | zero => rfl
  | succ n ih => simp [topBits, ih]

theorem topBits_getElem (n : Nat) (value : BitVec w) (i : Nat)
    (inside : i < (topBits n value).length)
    : (topBits n value)[i] = value.getMsbD i := by
  induction n generalizing value i with
  | zero => simp [topBits] at inside
  | succ n ih =>
      cases i with
      | zero => simp [topBits, BitVec.msb_eq_getMsbD_zero]
      | succ i =>
          have next := ih (value <<< 1) i (by simpa [topBits] using inside)
          simp only [topBits, List.getElem_cons_succ, next, BitVec.getMsbD_shiftLeft]

/-- Feeding a register its own top bits shifts them out. -/
theorem feed_topBits (n : Nat) (register : BitVec w)
    : feed poly register (topBits n register) = register <<< n := by
  induction n generalizing register with
  | zero => simp [topBits, feed]
  | succ n ih =>
      have step_msb : step poly register register.msb = register <<< 1 := by simp [step]
      change feed poly (step poly register register.msb) (topBits n (register <<< 1)) = _
      rw [step_msb, ih, ← BitVec.shiftLeft_add, Nat.add_comm]

theorem topBits_append {v : Nat} (high : BitVec v) (low : BitVec w)
    : topBits (v + w) (high ++ low) = topBits v high ++ topBits w low := by
  apply List.ext_getElem
  · simp
  · intro i _ _
    rw [List.getElem_append]
    split
    next inHigh =>
      have bound : ¬ v ≤ i := by simpa using inHigh
      simp [topBits_getElem, BitVec.getMsbD_append, bound]
    next inLow =>
      have bound : v ≤ i := by simpa using inLow
      simp [topBits_getElem, BitVec.getMsbD_append, bound]

/-- Every list of bits is the bits of a value. -/
theorem exists_topBits_eq (bits : List Bool)
    : ∃ value : BitVec bits.length, topBits bits.length value = bits := by
  refine ⟨BitVec.ofBoolListBE bits, ?_⟩
  apply List.ext_getElem
  · simp
  · intro i _ inside
    simp [topBits_getElem, List.getD_eq_getElem?_getD, inside]

/-- A message followed by a checksum clears the register just when the checksum is the
message's own, since feeding is linear and zeros lose nothing.
-/
theorem feed_checksum_eq_zero_iff (constantTerm : poly.getLsbD 0) (register : BitVec w)
    (message : List Bool) (checksum : BitVec w)
    : feed poly register (message ++ topBits w checksum) = 0
      ↔ feed poly register message = checksum := by
  rw [feed_append]
  generalize feed poly register message = remainder
  have own : feed poly checksum (topBits w checksum) = 0 := by
    rw [feed_topBits]
    exact BitVec.shiftLeft_eq_zero (Nat.le_refl w)
  constructor
  · intro cleared
    have split := feed_difference poly remainder checksum (topBits w checksum)
      (topBits w checksum) rfl
    rw [cleared, own, difference_self, topBits_length, BitVec.xor_self] at split
    have same := feed_replicate_eq_zero constantTerm w split
    exact BitVec.xor_eq_zero_iff.mp same
  · intro same
    rw [same]
    exact own

/-- The wrong bits all lie within `width` consecutive positions. -/
def Burst (width : Nat) (errors : List Bool) : Prop :=
  ∃ start, ∀ i, errors[i]? = some true → start ≤ i ∧ i < start + width

/-- Exactly `w` bits that leave nothing behind in an empty register are all zero: they are
the bits of a value, and what they leave is that value after `w` zeros.
-/
theorem eq_replicate_of_feed_eq_zero {window : List Bool} (constantTerm : poly.getLsbD 0)
    (full : window.length = w) (cleared : feed poly 0 window = 0)
    : window = List.replicate w false := by
  subst full
  obtain ⟨value, bits⟩ := exists_topBits_eq window
  have own : feed poly value (topBits window.length value) = 0 := by
    rw [feed_topBits]
    exact BitVec.shiftLeft_eq_zero (Nat.le_refl _)
  have split := feed_difference poly 0 value window window rfl
  rw [bits] at own
  have unmasked : (0 : BitVec window.length) ^^^ value = value := BitVec.zero_xor
  rw [cleared, own, difference_self, unmasked, BitVec.xor_self] at split
  have nothing : value = 0 := feed_replicate_eq_zero constantTerm window.length split
  refine List.eq_replicate_iff.mpr ⟨rfl, ?_⟩
  intro bit member
  rw [← bits, nothing] at member
  obtain ⟨i, inside, rfl⟩ := List.getElem_of_mem member
  simp [topBits_getElem]

/-- Errors no wider than the register, wherever they start, leave it set. Zeros are added
behind the message, so that a burst at its end has a full window too.
-/
theorem feed_burst_ne_zero {errors : List Bool} (constantTerm : poly.getLsbD 0)
    (burst : Burst w errors) (wrong : true ∈ errors)
    : feed poly 0 errors ≠ 0 := by
  intro cleared
  obtain ⟨start, within⟩ := burst
  obtain ⟨i, inside, isWrong⟩ := List.getElem_of_mem wrong
  have bounds := within i (by rw [List.getElem?_eq_getElem inside, isWrong])
  have outside (k : Nat) (bound : k < errors.length) (off : k < start ∨ start + w ≤ k)
      : errors[k] = false := by
    by_contra isTrue
    have isWrong : errors[k] = true := by simpa using isTrue
    have := within k (by rw [List.getElem?_eq_getElem bound, isWrong])
    omega
  let padded := errors ++ List.replicate w false
  let window := (padded.drop start).take w
  have full : window.length = w := by
    simp only [window, padded, List.length_take, List.length_drop, List.length_append,
      List.length_replicate]
    omega
  have before : padded.take start = List.replicate start false := by
    rw [List.eq_replicate_iff]
    refine ⟨by simp [padded]; omega, ?_⟩
    intro bit member
    obtain ⟨k, bound, rfl⟩ := List.getElem_of_mem member
    have early : k < start := by simp [List.length_take] at bound; omega
    simp [padded, List.getElem_append_left (show k < errors.length by omega),
      outside k (by omega) (Or.inl early)]
  have behind : ∃ n, (padded.drop start).drop w = List.replicate n false := by
    refine ⟨_, List.eq_replicate_iff.mpr ⟨rfl, ?_⟩⟩
    intro bit member
    obtain ⟨k, bound, rfl⟩ := List.getElem_of_mem member
    simp only [padded, List.drop_drop, List.getElem_drop]
    rw [List.getElem_append]
    split
    next inErrors => exact outside _ inErrors (Or.inr (by omega))
    next => simp
  obtain ⟨n, behind⟩ := behind
  have parts : padded = List.replicate start false ++ (window ++ List.replicate n false) := by
    rw [← before, ← behind, List.take_append_drop, List.take_append_drop]
  have empty : feed poly 0 padded = 0 := by
    rw [feed_append, cleared, feed_zero_replicate]
  rw [parts, feed_append, feed_zero_replicate, feed_append] at empty
  have windowZero := eq_replicate_of_feed_eq_zero constantTerm full
    (feed_replicate_eq_zero constantTerm n empty)
  have wrongBit : window[i - start]? = some true := by
    simp only [window, padded]
    rw [List.getElem?_take_of_lt (by omega), List.getElem?_drop,
      show start + (i - start) = i by omega, List.getElem?_append_left inside,
      List.getElem?_eq_getElem inside, isWrong]
  rw [windowZero] at wrongBit
  simp [List.getElem?_replicate] at wrongBit

/-- Two different messages that leave the same register differ by more than a burst. -/
theorem feed_ne_of_burst {message message' : List Bool} (constantTerm : poly.getLsbD 0)
    (register : BitVec w) (sameLength : message.length = message'.length)
    (burst : Burst w (difference message message')) (wrong : message ≠ message')
    : feed poly register message ≠ feed poly register message' := by
  intro same
  have split := feed_difference poly register register message message' sameLength
  rw [same, BitVec.xor_self, BitVec.xor_self] at split
  refine feed_burst_ne_zero constantTerm burst ?_ split
  by_contra noError
  apply wrong
  apply List.ext_getElem sameLength
  intro i inside inside'
  by_contra differ
  apply noError
  rw [List.mem_iff_getElem]
  refine ⟨i, by simp [difference]; omega, ?_⟩
  simpa [difference] using differ

/-- A zero bit is fed by a linear map. -/
theorem feed_zeros_xor (register register' : BitVec w) (n : Nat)
    : feed poly (register ^^^ register') (List.replicate n false)
      = feed poly register (List.replicate n false)
        ^^^ feed poly register' (List.replicate n false) := by
  have split := feed_difference poly register register' (List.replicate n false)
    (List.replicate n false) rfl
  rwa [difference_self, List.length_replicate] at split

/-- Whether an odd number of the first `n` bits is set. -/
def parity : Nat → BitVec w → Bool
  | 0, _ => false
  | n + 1, value => value.msb ^^ parity n (value <<< 1)

theorem parity_xor (n : Nat) (value value' : BitVec w)
    : parity n (value ^^^ value') = (parity n value ^^ parity n value') := by
  induction n generalizing value value' with
  | zero => rfl
  | succ n ih =>
      simp only [parity, BitVec.msb_xor, BitVec.shiftLeft_xor_distrib, ih, Bool.xor_assoc,
        Bool.xor_left_comm]

/-- The last of `n + 1` bits counted separately. -/
theorem parity_succ (n : Nat) (value : BitVec w)
    : parity (n + 1) value = (parity n value ^^ (value <<< n).msb) := by
  induction n generalizing value with
  | zero => simp [parity]
  | succ n ih =>
      calc parity (n + 1 + 1) value
        _ = (value.msb ^^ parity (n + 1) (value <<< 1)) := rfl
        _ = (value.msb ^^ (parity n (value <<< 1) ^^ (value <<< 1 <<< n).msb)) := by rw [ih]
        _ = (parity (n + 1) value ^^ (value <<< (n + 1)).msb) := by
          rw [← BitVec.shiftLeft_add, Nat.add_comm 1 n, parity, Bool.xor_assoc]

/-- A shift loses the top bit and no other. -/
theorem parity_shiftLeft (value : BitVec w)
    : parity w (value <<< 1) = (parity w value ^^ value.msb) := by
  have counted := parity_succ w value
  have gone : (value <<< w).msb = false := by
    rw [BitVec.shiftLeft_eq_zero (Nat.le_refl w)]
    exact BitVec.msb_zero
  rw [gone, Bool.xor_false, parity] at counted
  rw [← counted]
  cases value.msb <;> simp

/-- Where the generator, less its leading term, has an odd number of terms, a zero bit keeps
the register's parity: the bit that is shifted out is made up for.
-/
theorem parity_step_false (odd : parity w poly = true) (register : BitVec w)
    : parity w (step poly register false) = parity w register := by
  cases top : register.msb with
  | true => simp [step, top, parity_xor, parity_shiftLeft, odd]
  | false => simp [step, top, parity_shiftLeft]

theorem parity_feed_zeros (odd : parity w poly = true) (register : BitVec w) (n : Nat)
    : parity w (feed poly register (List.replicate n false)) = parity w register := by
  induction n generalizing register with
  | zero => rfl
  | succ n ih =>
      calc parity w (feed poly register (List.replicate (n + 1) false))
        _ = parity w (feed poly (step poly register false) (List.replicate n false)) := rfl
        _ = parity w register := by rw [ih, parity_step_false odd]

theorem eq_zero_of_shiftLeft_eq {value : BitVec w} (same : value <<< 1 = value)
    : value = 0 := by
  have shifts (n : Nat) : value <<< n = value := by
    induction n with
    | zero => exact BitVec.shiftLeft_zero value
    | succ n ih => rw [BitVec.shiftLeft_add, ih, same]
  rw [← shifts w]
  exact BitVec.shiftLeft_eq_zero (Nat.le_refl w)

/-- A zero bit leaves at most one register with its top bit set as it is. -/
theorem step_false_eq_self_iff {still : BitVec w} (fixed : step poly still false = still)
    (top : still.msb = true) (register : BitVec w)
    : step poly register false = register ↔ register = 0 ∨ register = still := by
  have shifted {value : BitVec w} (low : value.msb = false)
      (same : step poly value false = value)
      : value = 0 := by
    apply eq_zero_of_shiftLeft_eq
    simpa [step, low] using same
  constructor
  · intro same
    cases isTop : register.msb with
    | false => exact Or.inl (shifted isTop same)
    | true =>
        have both := @step_xor w poly register still false false
        rw [same, fixed] at both
        have apart := shifted (by rw [BitVec.msb_xor, isTop, top]; rfl) both
        exact Or.inr (BitVec.xor_eq_zero_iff.mp apart)
  · intro either
    rcases either with rfl | rfl
    · simp [step]
    · exact fixed

/-- A power of two of zero bits leaves no other registers as they are than one such bit does.
Over exclusive or a power of two of steps differs from none by as many differences of one step,
and an even register that one step keeps is zero.
-/
theorem feed_zeros_eq_self_iff {still : BitVec w} (odd : parity w poly = true)
    (fixed : step poly still false = still) (top : still.msb = true)
    (oddStill : parity w still = true) (k : Nat) (register : BitVec w)
    : feed poly register (List.replicate (2 ^ k) false) = register
      ↔ register = 0 ∨ register = still := by
  induction k generalizing register with
  | zero => exact step_false_eq_self_iff fixed top register
  | succ k ih =>
      rw [← ih]
      let next (r : BitVec w) := feed poly r (List.replicate (2 ^ k) false)
      have twice
          : feed poly register (List.replicate (2 ^ (k + 1)) false) = next (next register) := by
        rw [pow_succ, Nat.mul_two, ← List.replicate_append_replicate, feed_append]
      rw [twice]
      change next (next register) = register ↔ next register = register
      constructor
      · intro back
        have kept : next (next register ^^^ register) = next register ^^^ register := by
          rw [show next (next register ^^^ register) = next (next register) ^^^ next register from
            feed_zeros_xor _ _ _, back, BitVec.xor_comm]
        have even : parity w (next register ^^^ register) = false := by
          rw [parity_xor, show parity w (next register) = parity w register from
            parity_feed_zeros odd _ _]
          exact Bool.xor_self _
        rcases (ih _).mp kept with zero | isStill
        · exact BitVec.xor_eq_zero_iff.mp zero
        · rw [isStill, oddStill] at even
          cases even
      · intro same
        rw [same, same]

end Crc
