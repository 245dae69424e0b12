import Sparcs.CassSpeed.Request

/-! The arguments of the client, its checks of them, and the requests that it sends. -/

namespace Sparcs.CassSpeed

open NumberText

/-- The strings that the option loop leaves; C strings hold no zero byte. -/
structure Arguments where
  timestampstart : Text
  timestampend : Text
  deviceids : Text
  requested : Text
  compressionMethod : Text
  stepsize : Text
  calcDeltaT : Text
  ended : ∀ text ∈ [deviceids, requested, compressionMethod, stepsize], nul ∉ text

/-- How the client ends. -/
inductive Exit where
  | code (n : Int)
  /-- An exception that nothing catches, or an arithmetic trap. -/
  | aborts
  deriving DecidableEq, Repr

/-- The bit of a number that `bitset` and `CHECK_BIT` test. -/
def testBit (v : Int32) (bit : Nat) : Bool := v.toBitVec.getLsbD bit

/-- `std::bitset<8>(v).count()` -/
def bitCount (v : Int32) : Int32 := Int32.ofNat ((List.range 8).countP (testBit v))

/-- The compressions as they are requested: every sample is raw unless something is chosen. -/
def chooseCompression (compressionMethod stepsize : Text) : Text :=
  if stepsize = "1".toList ∧ compressionMethod = [] then "16".toList else compressionMethod

/-- The first check. -/
def checkCompression (compressionMethod stepsize : Text) : Except Exit Unit :=
  match stoi compressionMethod with
  | .error _ => .error (.code 6)
  | .ok v =>
      if testBit v 5 ∧ stepsize ≠ "1".toList then .error (.code 5) else .ok ()

/-- One turn of the check of the data codes. -/
def checkCode (x : List Text) (loopsum : Int32) (loopcounter : Nat) : Except Exit Int32 :=
  match x[loopcounter]? with
  | none => .error (.code 4)
  | some code =>
      let looptmp := atoi code
      if !(looptmp != 0 || looptmp != 1) then .error (.code 3) else .ok (loopsum + looptmp)

/-- The check of the data codes, with their sum. -/
def checkCodes (requested : Text) : Except Exit Int32 :=
  (List.range 12).foldlM (checkCode (split requested sep)) 0

/-- `delta_t_chucksize`: seconds. Both numbers of the quotient are whole and below `2 ^ 53`, so the
truncated `double` is the truncated quotient; a quotient by zero turns negative.
-/
def deltaTChucksize (nodeviceids nosamplesets compressionMethod stepsize : Text)
    (targetMB : Int32)
    : Except Exit Int :=
  match stoi compressionMethod with
  | .error _ => .error .aborts
  | .ok v =>
      let bytes := 120 * 4 * atoi nodeviceids * atoi nosamplesets
      -- the processor traps
      if atoi stepsize = 0 ∨ bytes = Int32.minValue ∧ atoi stepsize = -1 then
        .error .aborts
      else
        let bps := bytes / atoi stepsize * bitCount v
        let deltaT := (targetMB.toInt * 2 ^ 20).tdiv bps.toInt
        .ok (if deltaT ≤ 0 then 2147483647 / 2000 else deltaT)

/-- What the client has at hand when its loop starts. -/
structure Prepared where
  nodeviceids : Text
  deviceids : Text
  nosamplesets : Text
  requested : Text
  compressionMethod : Text
  stepsize : Text
  deltaT : Int64
  timestampstartGlobal : Int64
  timestampendGlobal : Int64
  deriving DecidableEq

/-- What becomes of an exception that nothing catches. -/
def orAbort {α : Type} : Except Fault α → Except Exit α
  | .error _ => .error .aborts
  | .ok a => .ok a

/-- Return unless a condition holds. -/
def exitUnless (condition : Bool) (exit : Exit) : Except Exit Unit :=
  if condition then .ok () else .error exit

/-- `main` from the options to the loop. -/
def prepare (args : Arguments) : Except Exit Prepared := do
  let compressionMethod := chooseCompression args.compressionMethod args.stepsize
  checkCompression compressionMethod args.stepsize
  let nodeviceids := toText (split args.deviceids sep).length
  let loopsum ← checkCodes args.requested
  let nosamplesets := toText loopsum.toInt
  let seconds ← deltaTChucksize nodeviceids nosamplesets compressionMethod args.stepsize 32
  let deltaT := Int64.ofInt (seconds * 1000)
  exitUnless (0 ≤ deltaT) (.code 65)
  let calcDeltaT ← orAbort (stoi args.calcDeltaT)
  exitUnless (calcDeltaT == 0) (.code 0)
  let timestampstartGlobal ← orAbort (stol args.timestampstart)
  let timestampendGlobal ← orAbort (stol args.timestampend)
  return { nodeviceids, deviceids := args.deviceids, nosamplesets, requested := args.requested,
           compressionMethod, stepsize := args.stepsize, deltaT, timestampstartGlobal,
           timestampendGlobal }

/-- The text that one turn of the loop sends, with a zero byte behind it. -/
def Prepared.datatotransmit (p : Prepared) (timestampstartLoop timestampendLoop : Int64)
    : Text :=
  [sep].intercalate
    [p.nodeviceids, p.deviceids, p.nosamplesets, toText timestampstartLoop.toInt,
      toText timestampendLoop.toInt, p.requested, p.compressionMethod, p.stepsize]

/-- What holds of arguments that pass the checks. -/
structure Prepared.Checked (p : Prepared) : Prop where
  devices : p.nodeviceids = toText (split p.deviceids sep).length
  nosamplesets : ∃ loopsum : Int32, p.nosamplesets = toText loopsum.toInt
  compression : ∃ v, stoi p.compressionMethod = .ok v
  codes : 12 ≤ (split p.requested sep).length
  divisor : atoi p.stepsize ≠ 0
  ended : ∀ text ∈ [p.deviceids, p.requested, p.compressionMethod, p.stepsize], nul ∉ text

theorem checkCompression_eq_ok {compressionMethod stepsize : Text}
    (accepted : checkCompression compressionMethod stepsize = .ok ())
    : ∃ v, stoi compressionMethod = .ok v := by
  rw [checkCompression] at accepted
  cases number : stoi compressionMethod with
  | error fault => rw [number] at accepted; cases accepted
  | ok v => exact ⟨v, rfl⟩

/-- The loop over the codes reads each of them, by induction over its turns. -/
theorem foldlM_checkCode {x : List Text} {counters : List Nat} {sum total : Int32}
    (accepted : counters.foldlM (checkCode x) sum = .ok total)
    : ∀ counter ∈ counters, counter < x.length := by
  induction counters generalizing sum with
  | nil => simp
  | cons counter counters ih =>
      rw [List.foldlM_cons] at accepted
      cases turn : checkCode x sum counter with
      | error exit => rw [turn] at accepted; cases accepted
      | ok next =>
          rw [turn] at accepted
          intro other member
          rcases List.mem_cons.mp member with rfl | member
          · rw [checkCode] at turn
            cases code : x[other]? with
            | none => rw [code] at turn; cases turn
            | some text => exact (List.getElem?_eq_some_iff.mp code).1
          · exact ih accepted other member

theorem checkCodes_eq_ok {requested : Text} {loopsum : Int32}
    (accepted : checkCodes requested = .ok loopsum)
    : 12 ≤ (split requested sep).length :=
  foldlM_checkCode accepted 11 (by decide)

theorem deltaTChucksize_eq_ok {nodeviceids nosamplesets compressionMethod stepsize : Text}
    {targetMB : Int32} {seconds : Int}
    (accepted : deltaTChucksize nodeviceids nosamplesets compressionMethod stepsize targetMB
      = .ok seconds)
    : atoi stepsize ≠ 0 := by
  intro zero
  rw [deltaTChucksize] at accepted
  cases number : stoi compressionMethod with
  | error fault => rw [number] at accepted; cases accepted
  | ok v =>
      rw [number] at accepted
      simp [zero] at accepted

theorem chooseCompression_ended {args : Arguments} {text : Text}
    (chosen : text = chooseCompression args.compressionMethod args.stepsize)
    : nul ∉ text := by
  rw [chosen, chooseCompression]
  split_ifs
  · decide
  · exact args.ended _ (by simp)

theorem ok_of_bind {α β : Type} {first : Except Exit α} {rest : α → Except Exit β} {b : β}
    (accepted : (first >>= rest) = .ok b)
    : ∃ a, first = .ok a ∧ rest a = .ok b := by
  cases first with
  | error exit => cases accepted
  | ok a => exact ⟨a, rfl, accepted⟩

theorem prepare_checked {args : Arguments} {p : Prepared} (accepted : prepare args = .ok p)
    : p.Checked := by
  rw [prepare] at accepted
  obtain ⟨_, compressed, accepted⟩ := ok_of_bind accepted
  obtain ⟨loopsum, coded, accepted⟩ := ok_of_bind accepted
  obtain ⟨seconds, sized, accepted⟩ := ok_of_bind accepted
  obtain ⟨_, -, accepted⟩ := ok_of_bind accepted
  obtain ⟨_, -, accepted⟩ := ok_of_bind accepted
  obtain ⟨_, -, accepted⟩ := ok_of_bind accepted
  obtain ⟨_, -, accepted⟩ := ok_of_bind accepted
  obtain ⟨_, -, accepted⟩ := ok_of_bind accepted
  obtain rfl := Except.ok.inj accepted
  refine ⟨rfl, ⟨loopsum, rfl⟩, checkCompression_eq_ok compressed, checkCodes_eq_ok coded,
    deltaTChucksize_eq_ok sized, ?_⟩
  intro text member
  simp only [List.mem_cons, List.not_mem_nil, or_false] at member
  rcases member with rfl | rfl | chosen | rfl
  · exact args.ended _ (by simp)
  · exact args.ended _ (by simp)
  · exact chooseCompression_ended chosen
  · exact args.ended _ (by simp)

end Sparcs.CassSpeed
