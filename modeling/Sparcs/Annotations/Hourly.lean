import Sparcs.Ftp.UnixTime

/-! The hourly annotation and the heartbeat of the RabbitMQ archivers, which one variable for
the hour before is to bring about.
-/

namespace Sparcs.Annotations

/-- The two messages that depend on the hour. -/
inductive HourlyMessage where
  | hourly (hour : Int32)
  | heartbeat
  deriving DecidableEq, Repr

def HourlyMessage.isHourly : HourlyMessage → Bool
  | .hourly _ => true
  | .heartbeat => false

def HourlyMessage.isHeartbeat : HourlyMessage → Bool
  | .hourly _ => false
  | .heartbeat => true

/-- The block of the hourly annotation: the new `old_hour` and what is published. -/
def hourlyBlock (oldHour : UInt32) (tmHour : Int32) : UInt32 × List HourlyMessage :=
  if tmHour.toUInt32 ≠ oldHour then
    (tmHour.toUInt32, if oldHour = 0 then [] else [.hourly tmHour])
  else
    (oldHour, [])

/-- The block of the heartbeat, which leaves `old_hour` as it is. -/
def heartbeatBlock (oldHour : UInt32) (tmHour : Int32) : List HourlyMessage :=
  if tmHour.toUInt32 ≠ oldHour then
    if oldHour = 0 then [] else [.heartbeat]
  else
    []

/-- What `processData` does with `old_hour`, and the messages that it publishes, for a second
with this `t.tm_hour`.
-/
def processHour (oldHour : UInt32) (tmHour : Int32) : UInt32 × List HourlyMessage :=
  let (oldHour, hourly) := hourlyBlock oldHour tmHour
  (oldHour, hourly ++ heartbeatBlock oldHour tmHour)

/-- The first block stores the hour, so the second one finds nothing new. -/
theorem processHour_blocks (oldHour : UInt32) (tmHour : Int32)
    : processHour oldHour tmHour = (tmHour.toUInt32, (hourlyBlock oldHour tmHour).2) := by
  have stored : (hourlyBlock oldHour tmHour).1 = tmHour.toUInt32 := by
    unfold hourlyBlock
    by_cases same : tmHour.toUInt32 = oldHour
    · simp [same]
    · simp [same]
  have quiet : heartbeatBlock tmHour.toUInt32 tmHour = [] := if_neg (not_not.mpr rfl)
  rw [processHour]
  dsimp only
  rw [stored, quiet, List.append_nil]

theorem toUInt32_inj {left right : Int32} : left.toUInt32 = right.toUInt32 ↔ left = right := by
  constructor
  · intro same
    exact congrArg Int32.ofUInt32 same
  · intro same
    rw [same]

section Run

-- The hour of a second: `gmtime`'s or the one that the uPMU's record has.
variable {σ : Type} (tmHour : σ → Int32)

/-- Seconds one after the other, with the messages of each. -/
def processHours : UInt32 → List σ → List (List HourlyMessage)
  | _, [] => []
  | oldHour, second :: rest =>
      let (oldHour, messages) := processHour oldHour (tmHour second)
      messages :: processHours oldHour rest

/-- Whether the hour is another one than that of the second before, for seconds behind a known
one.
-/
def turnsFrom : (previous : σ) → List σ → List Bool
  | _, [] => []
  | previous, second :: rest =>
      decide (tmHour second ≠ tmHour previous) :: turnsFrom second rest

/-- The same for all seconds; there is none before the first. -/
def turns : List σ → List Bool
  | [] => []
  | first :: rest => false :: turnsFrom tmHour first rest

/-- The number of messages of one kind in each second is 1 at the turns and else 0. -/
def OncePerHour (kind : HourlyMessage → Bool) (seconds : List σ)
    (messages : List (List HourlyMessage)) : Prop :=
  messages.map (List.countP kind) = (turns tmHour seconds).map Bool.toNat

variable {tmHour}

/-- After a second of the hour `previous`, a second publishes the annotation of its hour if
that is another one and `previous` is not zero, and nothing else.
-/
theorem processHour_eq (previous next : Int32)
    : processHour previous.toUInt32 next
      = (next.toUInt32, if next ≠ previous ∧ previous ≠ 0 then [.hourly next] else []) := by
  have zeroHour : previous.toUInt32 = 0 ↔ previous = 0 := toUInt32_inj
  have sameHour : next.toUInt32 = previous.toUInt32 ↔ next = previous := toUInt32_inj
  rw [processHour_blocks, hourlyBlock]
  simp only [ne_eq, sameHour, zeroHour]
  split_ifs <;> simp_all

theorem processHours_step (oldHour : UInt32) (second : σ) (rest : List σ)
    : processHours tmHour oldHour (second :: rest)
      = (processHour oldHour (tmHour second)).2
        :: processHours tmHour (processHour oldHour (tmHour second)).1 rest := rfl

theorem processHours_length (oldHour : UInt32) (seconds : List σ)
    : (processHours tmHour oldHour seconds).length = seconds.length := by
  induction seconds generalizing oldHour with
  | nil => rfl
  | cons second rest ih => rw [processHours_step, List.length_cons, ih, List.length_cons]

/-- The first second publishes nothing, and leaves its hour. -/
theorem processHours_cons (first : σ) (rest : List σ)
    : processHours tmHour 0 (first :: rest)
      = [] :: processHours tmHour (tmHour first).toUInt32 rest := by
  have started := processHour_eq 0 (tmHour first)
  rw [if_neg (by simp)] at started
  have zero : Int32.toUInt32 0 = 0 := rfl
  rw [zero] at started
  rw [processHours_step, started]

theorem processHours_next (previous next : σ) (rest : List σ)
    : processHours tmHour (tmHour previous).toUInt32 (next :: rest)
      = (if tmHour next ≠ tmHour previous ∧ tmHour previous ≠ 0 then [.hourly (tmHour next)]
          else [])
        :: processHours tmHour (tmHour next).toUInt32 rest := by
  rw [processHours_step, processHour_eq]

/-- Heartbeats are never published: the block of the annotation has stored the hour already. -/
theorem processHours_heartbeat (oldHour : UInt32) (seconds : List σ)
    : ∀ messages ∈ processHours tmHour oldHour seconds,
        messages.countP HourlyMessage.isHeartbeat = 0 := by
  induction seconds generalizing oldHour with
  | nil => simp [processHours]
  | cons second rest ih =>
      intro messages member
      rw [processHours_step] at member
      rcases List.mem_cons.mp member with now | later
      · rw [now, processHour_blocks, hourlyBlock]
        split_ifs <;> rfl
      · exact ih _ messages later

/-- Annotations are published at the turns just when no turn is away from the hour zero. -/
theorem processHours_hourly_from (previous : σ) (rest : List σ)
    : (processHours tmHour (tmHour previous).toUInt32 rest).map
          (List.countP HourlyMessage.isHourly)
        = (turnsFrom tmHour previous rest).map Bool.toNat
      ↔ List.IsChain (fun second next => tmHour second = 0 → tmHour next = 0)
        (previous :: rest) := by
  induction rest generalizing previous with
  | nil => simp [processHours, turnsFrom]
  | cons next rest ih =>
      rw [processHours_next, turnsFrom, List.map_cons, List.map_cons, List.cons.injEq, ih,
        List.isChain_cons_cons]
      refine and_congr_left fun _ => ?_
      by_cases same : tmHour next = tmHour previous
      · simp [same]
      · by_cases zero : tmHour previous = 0
        · simp [zero, zero ▸ same]
        · simp [zero, same, HourlyMessage.isHourly]

theorem turns_eq_replicate_iff (seconds : List σ)
    : (turns tmHour seconds).map Bool.toNat = List.replicate seconds.length 0
      ↔ List.IsChain (fun second next => tmHour next = tmHour second) seconds := by
  have later (previous : σ) (rest : List σ)
      : (turnsFrom tmHour previous rest).map Bool.toNat = List.replicate rest.length 0
        ↔ List.IsChain (fun second next => tmHour next = tmHour second) (previous :: rest) := by
    induction rest generalizing previous with
    | nil => simp [turnsFrom]
    | cons next rest ih =>
        rw [turnsFrom, List.map_cons, List.length_cons, List.replicate_succ, List.cons.injEq,
          ih, List.isChain_cons_cons]
        simp
  cases seconds with
  | nil => simp [turns]
  | cons first rest => simp [turns, List.replicate_succ, later]

/-- The annotation is published at the turns just when no turn is away from the hour zero. -/
theorem processHours_hourly_iff (seconds : List σ)
    : OncePerHour tmHour HourlyMessage.isHourly seconds (processHours tmHour 0 seconds)
      ↔ List.IsChain (fun second next => tmHour second = 0 → tmHour next = 0) seconds := by
  cases seconds with
  | nil => simp [OncePerHour, processHours, turns]
  | cons first rest =>
      rw [OncePerHour, processHours_cons, turns, List.map_cons, List.map_cons,
        ← processHours_hourly_from first rest]
      simp

/-- The heartbeat is, just when there are no turns. -/
theorem processHours_heartbeat_iff (seconds : List σ)
    : OncePerHour tmHour HourlyMessage.isHeartbeat seconds (processHours tmHour 0 seconds)
      ↔ List.IsChain (fun second next => tmHour next = tmHour second) seconds := by
  have never
      : (processHours tmHour 0 seconds).map (List.countP HourlyMessage.isHeartbeat)
        = List.replicate seconds.length 0 := by
    refine List.eq_replicate_iff.mpr ⟨by rw [List.length_map, processHours_length], ?_⟩
    intro count member
    obtain ⟨messages, isMember, rfl⟩ := List.mem_map.mp member
    exact processHours_heartbeat 0 seconds messages isMember
  rw [OncePerHour, never, ← turns_eq_replicate_iff, eq_comm]

/-- Both messages are published as they should in just those runs where the hour never turns.
There are two reasons: the heartbeat is never published, and the annotation is left out at
every turn away from the hour zero.
-/
theorem processHours_oncePerHour_iff (tmHour : σ → Int32) (seconds : List σ)
    : (OncePerHour tmHour HourlyMessage.isHourly seconds (processHours tmHour 0 seconds)
          ∧ OncePerHour tmHour HourlyMessage.isHeartbeat seconds (processHours tmHour 0 seconds)
        ↔ List.IsChain (fun second next => tmHour next = tmHour second) seconds)
      ∧ (OncePerHour tmHour HourlyMessage.isHourly seconds (processHours tmHour 0 seconds)
        ↔ List.IsChain (fun second next => tmHour second = 0 → tmHour next = 0) seconds)
      ∧ ∀ messages ∈ processHours tmHour 0 seconds,
        messages.countP HourlyMessage.isHeartbeat = 0 := by
  refine ⟨?_, processHours_hourly_iff seconds, processHours_heartbeat 0 seconds⟩
  rw [processHours_hourly_iff, processHours_heartbeat_iff]
  refine and_iff_right_of_imp fun constant => constant.imp ?_
  intro second next same zero
  rw [same, zero]

end Run

/-- The hour of a second that the C37 archiver processes. -/
def gmtimeHour (epochTime : UInt32) : Int32 :=
  (Ftp.gmtime epochTime.toNat).hour

/-- At one o'clock nothing is published, and at two o'clock the annotation without heartbeat. -/
theorem processHours_firstHours
    : processHours gmtimeHour 0 [3599, 3600, 7200] = [[], [], [.hourly 2]]
      ∧ ¬(OncePerHour gmtimeHour HourlyMessage.isHourly [3599, 3600, 7200]
          (processHours gmtimeHour 0 [3599, 3600, 7200])
        ∧ OncePerHour gmtimeHour HourlyMessage.isHeartbeat [3599, 3600, 7200]
          (processHours gmtimeHour 0 [3599, 3600, 7200])) := by
  have messages : processHours gmtimeHour 0 [3599, 3600, 7200] = [[], [], [.hourly 2]] := by
    decide +kernel
  refine ⟨messages, ?_⟩
  intro once
  have heartbeat := once.2
  rw [messages] at heartbeat
  exact absurd heartbeat (by unfold OncePerHour; decide +kernel)

end Sparcs.Annotations
