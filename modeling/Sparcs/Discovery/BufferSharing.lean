import Sparcs.Archiver.OfferQueue
import Mathlib.Data.List.FinRange

/-! The data buffers that the discovery service shares with the accepting services. A
buffer is an object of its own: it is constructed once and destructed once, when nobody
refers to it any more.
-/

namespace Sparcs.Discovery

open Archiver (ArchiverFunctions QueueEvent Service accepted)

/-- `MAX_OUTSTANDING_MEM_BUF` -/
def maxOutstandingMemBuf : UInt32 := 5

/-- Where the discovery thread is between its test of the count and the end of
`postProcessUPMUdata`.
-/
inductive Sharing.Point (n : Nat) (β : Type) where
  | idle
  | tested
  | offering (buf : β) (remaining : List (Fin n))
  | inOffer (buf : β) (service : Fin n) (remaining : List (Fin n))

/-- The accepting services, the discovery thread, and the buffers. -/
structure Sharing (n : Nat) (β ρ ο : Type) where
  services : Fin n → Service β ρ ο
  discovery : Sharing.Point n β := .idle
  sharedInMemDataBufferCnt : UInt32 := 0
  /-- Constructed and not yet destructed. -/
  alive : List β := []
  created : List β := []

namespace Sharing

variable {n : Nat} {α β ρ ο : Type}

/-- The buffer that the discovery thread refers to. -/
def Point.buf? : Point n β → Option β
  | .offering buf _ => some buf
  | .inOffer buf _ _ => some buf
  | _ => none

/-- The services that do not have that buffer yet. -/
def Point.todo : Point n β → List (Fin n)
  | .offering _ remaining => remaining
  | .inOffer _ service remaining => service :: remaining
  | _ => []

/-- Somebody refers to the buffer. What a stopped archiver worked on is released. -/
def Held (s : Sharing n β ρ ο) (buf : β) : Prop :=
  s.discovery.buf? = some buf
  ∨ ∃ i, buf ∈ (s.services i).dataQueue
      ∨ ((s.services i).dataBuf = some buf ∧ (s.services i).looping ≠ .stopped)

/-- The steps of the discovery thread, of each archiver's thread, and of the destructor in
whichever thread released a buffer last.
-/
inductive Step [DecidableEq β] (archiver : Fin n → ArchiverFunctions α β ρ ο)
    : Sharing n β ρ ο → Sharing n β ρ ο → Prop where
  | testCount {s} :
      s.discovery = .idle → s.sharedInMemDataBufferCnt ≤ maxOutstandingMemBuf →
      Step archiver s { s with discovery := .tested }
  /-- The data file is not complete, or the database fails. -/
  | giveUp {s} : s.discovery = .tested → Step archiver s { s with discovery := .idle }
  /-- A file is downloaded into a new buffer. -/
  | create {s} (buf : β) :
      s.discovery = .tested → buf ∉ s.created →
      Step archiver s
        { s with
          discovery := .offering buf (List.finRange n)
          sharedInMemDataBufferCnt := s.sharedInMemDataBufferCnt + 1
          alive := s.alive ++ [buf]
          created := s.created ++ [buf] }
  | testSize {s} {buf : β} {i : Fin n} {remaining : List (Fin n)} :
      s.discovery = .offering buf (i :: remaining) →
      Step archiver s
        { s with
          services := Function.update s.services i ((s.services i).testSize buf)
          discovery := .inOffer buf i remaining }
  | refused {s} {buf : β} {i : Fin n} {remaining : List (Fin n)} :
      s.discovery = .inOffer buf i remaining → (s.services i).offering = .outside →
      Step archiver s { s with discovery := .offering buf remaining }
  | push {s} {buf offeredBuf : β} {i : Fin n} {remaining : List (Fin n)} {sizeAtTest : Nat} :
      s.discovery = .inOffer buf i remaining →
      (s.services i).offering = .pushing offeredBuf sizeAtTest →
      Step archiver s
        { s with
          services := Function.update s.services i ((s.services i).push offeredBuf sizeAtTest)
          discovery := .offering buf remaining }
  | dropReference {s} {buf : β} :
      s.discovery = .offering buf [] → Step archiver s { s with discovery := .idle }
  | loop {s} {i : Fin n} {next : Service β ρ ο} :
      Service.LoopStep (archiver i) (s.services i) next →
      Step archiver s { s with services := Function.update s.services i next }
  | destruct {s} {buf : β} :
      buf ∈ s.alive → ¬s.Held buf →
      Step archiver s
        { s with
          sharedInMemDataBufferCnt := s.sharedInMemDataBufferCnt - 1
          alive := s.alive.erase buf }

/-- States that steps lead to from new services and no buffer. -/
def Reachable [DecidableEq β] (archiver : Fin n → ArchiverFunctions α β ρ ο)
    (s : Sharing n β ρ ο) : Prop :=
  ∃ bpr : Fin n → ρ,
    Relation.ReflTransGen (Step archiver) { services := fun i => { bpr := bpr i } } s

-----------------------------------------------------------------------------------------
-- The count and the queues
-----------------------------------------------------------------------------------------

variable {archiver : Fin n → ArchiverFunctions α β ρ ο} {s next : Sharing n β ρ ο}

/-- What holds of one service: it has been given the created buffers, up to the one that is
being offered, and refers to living ones.
-/
structure Fits (point : Point n β) (alive created : List β) (i : Fin n)
    (service : Service β ρ ο) : Prop where
  sound : service.Sound
  received
    : accepted service.history = if i ∈ point.todo then created.dropLast else created
  pushing
    : ∀ buf size, service.offering = .pushing buf size →
        ∃ remaining, point = .inOffer buf i remaining
  accepts : ∀ buf remaining, point = .inOffer buf i remaining → service.offering ≠ .outside
  noRefusal
    : ∀ buf size result, .offered buf size result ∈ service.history → result = .accepted
  dataQueue : ∀ buf ∈ service.dataQueue, buf ∈ alive
  dataBuf
    : ∀ buf, service.dataBuf = some buf → service.looping ≠ .stopped → buf ∈ alive

/-- The buffers are counted while they live. -/
structure Sound (s : Sharing n β ρ ο) : Prop where
  count : s.sharedInMemDataBufferCnt = UInt32.ofNat s.alive.length
  few : s.alive.length ≤ 6
  tested : s.discovery = .tested → s.alive.length ≤ 5
  aliveNodup : s.alive.Nodup
  createdNodup : s.created.Nodup
  aliveCreated : s.alive ⊆ s.created
  reference
    : ∀ buf, s.discovery.buf? = some buf → buf ∈ s.alive ∧ s.created.getLast? = some buf
  todo : s.discovery.todo.Nodup
  services : ∀ i, Fits s.discovery s.alive s.created i (s.services i)

namespace Fits

variable {point point' : Point n β} {alive created : List β} {i : Fin n}
  {service service' : Service β ρ ο}

/-- The queued buffers are distinct living ones. -/
theorem room (fits : Fits point alive created i service) (createdNodup : created.Nodup)
    : service.dataQueue.length ≤ alive.length := by
  have acceptedNodup : (accepted service.history).Nodup := by
    rw [fits.received]
    split_ifs
    · exact createdNodup.sublist (List.dropLast_sublist _)
    · exact createdNodup
  rw [fits.sound.inOrder] at acceptedNodup
  exact (acceptedNodup.of_append_right.subperm fits.dataQueue).length_le

/-- The discovery thread moves on and does not give this service a buffer. -/
theorem moveTo (fits : Fits point alive created i service)
    (todo : i ∈ point'.todo ↔ i ∈ point.todo)
    (inside
      : ∀ buf, (∃ remaining, point' = .inOffer buf i remaining)
          ↔ ∃ remaining, point = .inOffer buf i remaining)
    : Fits point' alive created i service :=
  { fits with
    received := by simpa only [todo] using fits.received
    pushing := fun buf size pushing => (inside buf).mpr (fits.pushing buf size pushing)
    accepts := by
      intro buf remaining isInside
      obtain ⟨remaining', wasInside⟩ := (inside buf).mp ⟨remaining, isInside⟩
      exact fits.accepts buf remaining' wasInside }

/-- No service is inside an offer while the discovery thread is outside. -/
theorem outside (fits : Fits point alive created i service)
    (away : ∀ buf remaining, point ≠ .inOffer buf i remaining)
    : service.offering = .outside := by
  cases offering : service.offering with
  | outside => rfl
  | pushing buf size =>
      obtain ⟨remaining, inside⟩ := fits.pushing buf size offering
      exact absurd inside (away buf remaining)

/-- The archiver's thread takes from the queue what it works on. -/
theorem loop (fits : Fits point alive created i service) (kept : service'.Sound)
    (frame : service.LoopFrame service')
    : Fits point alive created i service' where
  sound := kept
  received := frame.accepted.trans fits.received
  pushing := by rw [frame.offering]; exact fits.pushing
  accepts := by rw [frame.offering]; exact fits.accepts
  noRefusal := fun buf size result member =>
    fits.noRefusal buf size result (frame.offered buf size result member)
  dataQueue := fun buf member => fits.dataQueue buf (frame.dataQueue buf member)
  dataBuf := by
    intro buf atWork running
    rcases frame.dataBuf buf atWork running with queued | ⟨worked, ran⟩
    · exact fits.dataQueue buf queued
    · exact fits.dataBuf buf worked ran

/-- A queue of at most six buffers accepts one more. -/
theorem testSize {buf : β} {remaining : List (Fin n)}
    (fits : Fits (.offering buf (i :: remaining)) alive created i service)
    (few : service.dataQueue.length ≤ 6)
    : Fits (.inOffer buf i remaining) alive created i (service.testSize buf) := by
  have kept := fits.sound.testSize buf
  rw [Service.testSize_of_room (by omega)] at kept ⊢
  exact { fits with
    sound := kept
    received := by simpa [Point.todo] using fits.received
    pushing := by
      intro buf' size pushing
      cases pushing
      exact ⟨remaining, rfl⟩
    accepts := by simp }

/-- After the push, the service has the buffer too. -/
theorem push {buf offeredBuf : β} {remaining : List (Fin n)} {size : Nat}
    (fits : Fits (.inOffer buf i remaining) alive created i service)
    (pushing : service.offering = .pushing offeredBuf size) (living : buf ∈ alive)
    (last : created.getLast? = some buf) (given : i ∉ remaining)
    : Fits (.offering buf remaining) alive created i (service.push offeredBuf size) := by
  have kept := fits.sound.push pushing
  obtain ⟨_, inside⟩ := fits.pushing _ _ pushing
  cases inside
  have received := fits.received
  rw [Point.todo, if_pos List.mem_cons_self] at received
  have whole : created = created.dropLast ++ [buf] :=
    (List.dropLast_append_getLast? buf last).symm
  exact { fits with
    sound := kept
    received := by
      rw [Point.todo, if_neg given, whole, ← received]
      simp [Service.push]
    pushing := by simp [Service.push]
    accepts := by simp
    noRefusal := by
      intro buf' size' result member
      rcases List.mem_append.mp member with earlier | now
      · exact fits.noRefusal buf' size' result earlier
      · simp at now
        exact now.2.2
    dataQueue := by
      intro buf' member
      rcases List.mem_append.mp member with earlier | now
      · exact fits.dataQueue buf' earlier
      · rw [List.mem_singleton.mp now]
        exact living }

end Fits

namespace Sound

theorem initial (bpr : Fin n → ρ)
    : Sound ({ services := fun i => { bpr := bpr i } } : Sharing n β ρ ο) where
  count := rfl
  few := by simp
  tested := by simp
  aliveNodup := by simp
  createdNodup := by simp
  aliveCreated := by simp
  reference := by simp [Point.buf?]
  todo := by simp [Point.todo]
  services i :=
    { sound := .initial (bpr i)
      received := by simp [Point.todo]
      pushing := by simp
      accepts := by simp
      noRefusal := by simp
      dataQueue := by simp
      dataBuf := by simp }

/-- Whoever refers to a buffer refers to a living one. -/
theorem held (sound : s.Sound) {buf : β} (held : s.Held buf) : buf ∈ s.alive := by
  rcases held with reference | ⟨i, queued | ⟨atWork, running⟩⟩
  · exact (sound.reference buf reference).1
  · exact (sound.services i).dataQueue buf queued
  · exact (sound.services i).dataBuf buf atWork running

/-- Between two offers, the discovery thread moves freely. -/
theorem moveTo (sound : s.Sound) {point : Point n β}
    (tested : point = .tested → s.alive.length ≤ 5)
    (buf : ∀ buf, point.buf? = some buf → s.discovery.buf? = some buf)
    (todo : point.todo = s.discovery.todo)
    (away : ∀ buf i remaining, point ≠ .inOffer buf i remaining)
    (wasAway : ∀ buf i remaining, s.discovery ≠ .inOffer buf i remaining)
    : Sound { s with discovery := point } :=
  { sound with
    tested
    reference := fun buf' reference => sound.reference buf' (buf buf' reference)
    todo := by rw [todo]; exact sound.todo
    services := fun i => (sound.services i).moveTo (by rw [todo]) (by simp [away, wasAway]) }

/-- At most five buffers live at the test, so that the new one is the sixth. -/
theorem create (sound : s.Sound) (tested : s.discovery = .tested) {buf : β}
    (new : buf ∉ s.created)
    : Sound
        { s with
          discovery := .offering buf (List.finRange n)
          sharedInMemDataBufferCnt := s.sharedInMemDataBufferCnt + 1
          alive := s.alive ++ [buf]
          created := s.created ++ [buf] } where
  count := by simp [sound.count]
  few := by
    rw [List.length_append]
    exact Nat.add_le_add_right (sound.tested tested) 1
  tested := by simp
  aliveNodup := by
    simpa using sound.aliveNodup.concat fun living => new (sound.aliveCreated living)
  createdNodup := by simpa using sound.createdNodup.concat new
  aliveCreated := List.append_subset.mpr
    ⟨List.subset_append_of_subset_left _ sound.aliveCreated, List.subset_append_right _ _⟩
  reference := by simp [Point.buf?]
  todo := List.nodup_finRange n
  services i :=
    { sound.services i with
      received := by simpa [Point.todo, tested] using (sound.services i).received
      pushing := by simp [(sound.services i).outside (by simp [tested])]
      accepts := by simp
      dataQueue := fun buf' member =>
        List.mem_append_left _ ((sound.services i).dataQueue buf' member)
      dataBuf := fun buf' atWork running =>
        List.mem_append_left _ ((sound.services i).dataBuf buf' atWork running) }

/-- One service changes and the discovery thread moves from or to the inside of its offer. -/
theorem update (sound : s.Sound) {i : Fin n} {service : Service β ρ ο} {point : Point n β}
    (fits : Fits point s.alive s.created i service)
    (others : ∀ j ≠ i, Fits point s.alive s.created j (s.services j))
    (tested : point = .tested → s.alive.length ≤ 5) (buf : point.buf? = s.discovery.buf?)
    (todo : point.todo.Nodup)
    : Sound
        { s with services := Function.update s.services i service, discovery := point } :=
  { sound with
    tested
    reference := by rw [buf]; exact sound.reference
    todo
    services := (Function.forall_update_iff s.services
      (fun j service => Fits point s.alive s.created j service)).mpr ⟨fits, others⟩ }

variable [DecidableEq β]

/-- Nobody misses a buffer that is destructed. -/
theorem destruct (sound : s.Sound) {buf : β} (living : buf ∈ s.alive)
    (released : ¬s.Held buf)
    : Sound
        { s with
          sharedInMemDataBufferCnt := s.sharedInMemDataBufferCnt - 1
          alive := s.alive.erase buf } := by
  have length : s.alive.length = (s.alive.erase buf).length + 1 :=
    (List.length_erase_add_one living).symm
  have stays (buf' : β) (held : s.Held buf') : buf' ∈ s.alive.erase buf := by
    have other : buf' ≠ buf := fun same => released (same ▸ held)
    exact (List.mem_erase_of_ne other).mpr (sound.held held)
  exact {
    count := by simp [sound.count, length]
    few := List.length_erase_le.trans sound.few
    tested := fun tested => List.length_erase_le.trans (sound.tested tested)
    aliveNodup := sound.aliveNodup.erase _
    createdNodup := sound.createdNodup
    aliveCreated := List.Subset.trans List.erase_subset sound.aliveCreated
    reference := fun buf' reference =>
      ⟨stays buf' (.inl reference), (sound.reference buf' reference).2⟩
    todo := sound.todo
    services := fun i =>
      { sound.services i with
        dataQueue := fun buf' queued => stays buf' (.inr ⟨i, .inl queued⟩)
        dataBuf := fun buf' atWork running =>
          stays buf' (.inr ⟨i, .inr ⟨atWork, running⟩⟩) } }

/-- Every step of any thread keeps the buffers sound. -/
theorem step (sound : s.Sound) (steps : Step archiver s next) : next.Sound := by
  cases steps with
  | testCount idle few =>
      refine sound.moveTo ?_ (by simp [Point.buf?]) (by simp [idle, Point.todo]) (by simp)
        (by simp [idle])
      intro _
      rw [sound.count, UInt32.le_iff_toNat_le, UInt32.toNat_ofNat_of_lt'] at few
      · exact few
      · exact lt_of_le_of_lt sound.few (by decide)
  | giveUp tested =>
      exact sound.moveTo (by simp) (by simp [Point.buf?]) (by simp [tested, Point.todo])
        (by simp) (by simp [tested])
  | create buf tested new => exact sound.create tested new
  | @testSize buf i remaining offering =>
      have fits := sound.services i
      have todo := sound.todo
      have few := (fits.room sound.createdNodup).trans sound.few
      rw [offering] at fits todo
      refine sound.update (fits.testSize few) ?_ (by simp) (by simp [offering, Point.buf?]) todo
      intro j other
      exact (sound.services j).moveTo (by simp [offering, Point.todo])
        (by simp [offering, other.symm])
  | @refused buf i remaining inside outside =>
      exact absurd outside ((sound.services i).accepts buf remaining inside)
  | @push buf offeredBuf i remaining size inside pushing =>
      have fits := sound.services i
      have todo := sound.todo
      have reference := sound.reference buf (by rw [inside, Point.buf?])
      rw [inside] at fits todo
      obtain ⟨given, rest⟩ := List.nodup_cons.mp todo
      refine sound.update (fits.push pushing reference.1 reference.2 given) ?_ (by simp)
        (by simp [inside, Point.buf?]) rest
      intro j other
      exact (sound.services j).moveTo (by simp [inside, Point.todo, other])
        (by simp [inside, other.symm])
  | dropReference last =>
      exact sound.moveTo (by simp) (by simp [Point.buf?]) (by simp [last, Point.todo])
        (by simp) (by simp [last])
  | @loop i service steps =>
      exact sound.update
        ((sound.services i).loop ((sound.services i).sound.loopStep steps) steps.frame)
        (fun j _ => sound.services j) sound.tested rfl sound.todo
  | destruct living released => exact sound.destruct living released

end Sound

theorem Reachable.sound [DecidableEq β] (reachable : s.Reachable archiver) : s.Sound := by
  obtain ⟨bpr, run⟩ := reachable
  induction run with
  | refl => exact .initial bpr
  | tail _ steps ih => exact ih.step steps

/-- What the count of shared buffers is for. -/
structure FlowControlled (s : Sharing n β ρ ο) : Prop where
  few : s.alive.length ≤ 6
  neverRefused
    : ∀ i buf sizeAtTest result,
        .offered buf sizeAtTest result ∈ (s.services i).history → result ≠ .refused
  /-- No buffer is created twice. -/
  createdNodup : s.created.Nodup
  /-- Each service accepts every created buffer, in this order, the last one as soon as it is
  offered to this service.
  -/
  received
    : ∀ i, accepted (s.services i).history
        = if i ∈ s.discovery.todo then s.created.dropLast else s.created

/-- For any number of services and any archivers, in every order of the steps. -/
theorem Reachable.flowControlled [DecidableEq β] (reachable : s.Reachable archiver)
    : s.FlowControlled where
  few := reachable.sound.few
  neverRefused := by
    intro i buf size result member
    rw [(reachable.sound.services i).noRefusal buf size result member]
    simp
  createdNodup := reachable.sound.createdNodup
  received := fun i => (reachable.sound.services i).received

/-- A buffer on its way to two services, of which the first one has it. -/
theorem Reachable.flowControlled_two
    : ∃ (s : Sharing 2 Archiver.ServiceDataBuffer Archiver.BufferProcessingRecord
          Archiver.ServiceDataArchiver.Row) (buf : Archiver.ServiceDataBuffer),
        s.created = [buf]
        ∧ accepted (s.services 0).history = [buf]
        ∧ accepted (s.services 1).history = []
        ∧ s.FlowControlled := by
  classical
  let buf : Archiver.ServiceDataBuffer := ⟨7204, Blocks.alloc 7204 fun _ => 0⟩
  let start : Sharing 2 Archiver.ServiceDataBuffer Archiver.BufferProcessingRecord
    Archiver.ServiceDataArchiver.Row := { services := fun _ => { bpr := ⟨0, 0, 0⟩ } }
  let archiver (_ : Fin 2) := Archiver.ServiceDataArchiver.functions
  have tested : Relation.ReflTransGen (Step archiver) start { start with discovery := .tested } :=
    .single (.testCount rfl (by decide))
  have created := tested.tail (.create buf rfl (by simp [start]))
  have first : Point.offering buf (List.finRange 2) = .offering buf (0 :: [1]) := rfl
  have inOffer := created.tail (.testSize first)
  have pushing : ((start.services 0).testSize buf).offering = .pushing buf 0 := by
    rw [Service.testSize_of_room (by simp [start])]
    rfl
  have given := inOffer.tail (.push rfl (by simpa using pushing))
  have flow := Reachable.flowControlled ⟨_, given⟩
  exact ⟨_, buf, rfl, (flow.received 0).trans (if_neg (by simp [Point.todo])),
    (flow.received 1).trans (if_pos (by simp [Point.todo])), flow⟩

end Sharing

end Sparcs.Discovery
