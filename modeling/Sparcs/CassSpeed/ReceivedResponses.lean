import Sparcs.CassSpeed.DownloadLoop
import Sparcs.CassSpeed.HandlerAnswers

/-! What the client makes of the bytes that a handler sends. It looks at the first of them for a
code, and takes all others for a payload.
-/

namespace Sparcs.CassSpeed

open Blocks (alloc)
open FieldFormat
open NumberText (split splitOn_eq_split)
open SharedCell

/-- The labels that the handler writes into a payload. -/
def Cassspeed.Labelled (payload : Cassspeed) : Prop :=
  ∀ output ∈ payload.outputsets, AreBytes output.deviceid
    ∧ ∀ set ∈ output.sampleset, ∃ (compression : Compression) (channel : Channel),
      set.name = channel.name ∧ set.compression = compression.label

theorem Cassspeed.Labelled.spelled {payload : Cassspeed} (labelled : payload.Labelled)
    : payload.Spelled := by
  have names : ∀ channel : Channel, AreBytes channel.name.toList := by
    intro channel
    cases channel <;> simp [AreBytes, Channel.name]
  have labels : ∀ compression : Compression, AreBytes compression.label.toList := by
    intro compression
    cases compression <;> simp [AreBytes, Compression.label]
  intro output member
  obtain ⟨deviceid, sets⟩ := labelled output member
  refine ⟨deviceid, fun set inside => ?_⟩
  obtain ⟨compression, channel, name, label⟩ := sets set inside
  exact ⟨name ▸ names channel, label ▸ labels compression⟩

-----------------------------------------------------------------------------------------
-- The first bytes
-----------------------------------------------------------------------------------------

section Peek

variable {memory : Memory} {sent : List UInt8}

/-- The first four bytes stand at the front of the buffer. -/
theorem peeked_take (memory : Memory) (enough : 4 ≤ sent.length)
    : (peeked memory sent).take 4 = sent.take 4 := by
  have four : (sent.take 4).length = 4 := List.length_take_of_le enough
  have fits : (sent.take 4).length ≤ (alloc 1024 memory.buffer).size := by
    rw [four]
    change 4 ≤ 1024
    decide
  rw [peeked, content_write fits, List.take_append_of_le_length four.ge, List.take_of_length_le]
  exact four.le

/-- A code is told from its three bytes. -/
theorem isCode_eq {buffer : List UInt8} {wha : String} (short : wha.toList.length = 2)
    (same : buffer.take 4 = sent.take 4)
    : isCode buffer wha = isCode sent wha := by
  have length : (bytesOf wha.toList ++ [0]).length ≤ 4 := by
    rw [List.length_append, length_bytesOf, short]
    decide
  have front (bytes : List UInt8)
      : bytesOf wha.toList ++ [0] <+: bytes ↔ bytesOf wha.toList ++ [0] <+: bytes.take 4 :=
    (List.prefix_take_iff.trans (and_iff_left length)).symm
  rw [isCode, isCode, Bool.eq_iff_iff, List.isPrefixOf_iff_prefix, List.isPrefixOf_iff_prefix,
    front buffer, front sent, same]

theorem exitCode_eq (memory : Memory) (enough : 4 ≤ sent.length)
    : exitCode (peeked memory sent) = exitCode sent := by
  have each (wha : String) (short : wha.toList.length = 2)
      : isCode (peeked memory sent) wha = isCode sent wha :=
    isCode_eq short (peeked_take memory enough)
  simp only [exitCode, codes, List.find?_cons, List.find?_nil, each "-1" rfl, each "-2" rfl,
    each "-3" rfl, each "-4" rfl]

end Peek

-----------------------------------------------------------------------------------------
-- Codes
-----------------------------------------------------------------------------------------

/-- Whatever stands in the memory of both sides, the client finds the code that is sent. -/
theorem receiveResponse_code {wha : String} {n : Int} (known : (wha, n) ∈ codes)
    (behind : Nat → UInt8) (memory : Memory)
    : ∃ sent, (Response.code wha).sent behind = some sent
      ∧ receiveResponse memory sent = .code n := by
  have begins (bytes : List UInt8) : exitCode (bytesOf wha.toList ++ 0 :: bytes) = some n := by
    simp only [codes, List.mem_cons, Prod.mk.injEq, List.not_mem_nil, or_false] at known
    rcases known with ⟨rfl, rfl⟩ | ⟨rfl, rfl⟩ | ⟨rfl, rfl⟩ | ⟨rfl, rfl⟩ <;> rfl
  have length : wha.toList.length = 2 := by
    simp only [codes, List.mem_cons, Prod.mk.injEq, List.not_mem_nil, or_false] at known
    rcases known with ⟨rfl, -⟩ | ⟨rfl, -⟩ | ⟨rfl, -⟩ | ⟨rfl, -⟩ <;> rfl
  refine ⟨_, rfl, ?_⟩
  have enough : 4 ≤ (bytesOf wha.toList ++ 0 :: (List.range 3).map behind).length := by
    rw [List.length_append, length_bytesOf, length]
    simp
  have code := (exitCode_eq memory enough).trans (begins _)
  unfold receiveResponse
  split
  · rename_i m found
    rw [found] at code
    rw [Option.some.inj code]
  · rename_i notFound
    rw [notFound] at code
    cases code

-----------------------------------------------------------------------------------------
-- Payloads
-----------------------------------------------------------------------------------------

/-- A payload with a start time begins with its field. -/
theorem serialize_cons {payload : Cassspeed} {start : UInt64}
    (begins : payload.timestampstart = some start)
    : ∃ rest, CassspeedMessage.format.serialize payload.message = 8 :: rest := by
  have tag : Varint.encode 8 = [8] := Varint.encode_small (by decide)
  refine List.head?_eq_some_iff.mp ?_
  rw [Format.serialize]
  simp only [CassspeedMessage.format, CassspeedMessage.fields, Cassspeed.message, begins,
    Option.map_some, optionalField, Option.toList_some, List.append_assoc, List.flatMap_cons,
    Field.encode, Field.tag, Value.kind, Nat.mul_one, Nat.add_zero, tag,
    List.cons_append, List.nil_append, List.head?_cons]

/-- The size and the first tag are no code. -/
theorem exitCode_payload (n : Nat) (bytes : List UInt8)
    : exitCode (Varint.encode n ++ 8 :: bytes) = none := by
  have different (wha : String) (second : UInt8) (digit : bytesOf wha.toList = [45, second])
      (noTag : second ≠ 8)
      : isCode (Varint.encode n ++ 8 :: bytes) wha = false := by
    rw [isCode, digit]
    by_cases small : n < 128
    · rw [Varint.encode_small small]
      simp [List.isPrefixOf, noTag]
    · have high := Varint.toNat_continued n
      have other : UInt8.ofNat (n % 128 + 128) ≠ 45 := by
        intro same
        rw [same] at high
        have value : (45 : UInt8).toNat = 45 := rfl
        omega
      rw [Varint.encode_large (Nat.not_lt.mp small)]
      simp only [List.cons_append, List.isPrefixOf_cons_cons,
        beq_eq_false_iff_ne.mpr other.symm, Bool.false_and]
  simp only [exitCode, codes, List.find?_cons, List.find?_nil, Option.map_none,
    different "-1" 49 rfl (by decide), different "-2" 50 rfl (by decide),
    different "-3" 51 rfl (by decide), different "-4" 52 rfl (by decide)]

/-- A payload that is labelled, starts somewhere and is not too large is received as it is sent,
whatever stands in the memory of both sides.
-/
theorem receiveResponse_payload {payload : Cassspeed} (labelled : payload.Labelled)
    (begins : payload.timestampstart ≠ none)
    (small : (CassspeedMessage.format.serialize payload.message).length < 2 ^ 28)
    (behind : Nat → UInt8) (memory : Memory)
    : ∃ sent, (Response.payload payload).sent behind = some sent
      ∧ receiveResponse memory sent = .payload payload := by
  obtain ⟨start, begins⟩ := Option.ne_none_iff_exists'.mp begins
  obtain ⟨rest, first⟩ := serialize_cons begins
  obtain ⟨pkt, after, sends, -, bytes, length⟩ := sendPacket_small behind small
  have received : readBody CassspeedMessage.format memory.body (content pkt)
      (readHdr memory.size (content pkt)) = some payload.message := by
    obtain ⟨pkt', sends', -, reads⟩ :=
      roundTrips_of_small CassspeedMessage.format_lawful small behind memory.body memory.size
    rw [Option.some.inj (sends.symm.trans sends')]
    exact reads
  have enough : 4 ≤ (content pkt).length := by omega
  have header : readHdr memory.size (peeked memory (content pkt))
      = readHdr memory.size (content pkt) := by
    rw [readHdr, readHdr, peeked_take memory enough]
  have noCode : exitCode (peeked memory (content pkt)) = none := by
    rw [exitCode_eq memory enough, bytes, first, List.cons_append]
    exact exitCode_payload _ _
  refine ⟨content pkt, by rw [Response.sent, sends]; rfl, ?_⟩
  unfold receiveResponse
  split
  · rename_i n found
    rw [found] at noCode
    cases noCode
  · rw [receiveBody, header, received, Option.getD_some, payload_message labelled.spelled]

-----------------------------------------------------------------------------------------
-- Handlers
-----------------------------------------------------------------------------------------

/-- What a response means to the client, unless nothing is sent. -/
def Response.meant : Response → Option Received
  | .nothing => none
  | .code wha => (codes.find? fun code => code.1 = wha).map fun code => .code code.2
  | .payload sent => some (.payload sent)

/-- A part of a text between separators holds no other characters. -/
theorem mem_of_mem_splitOn {c : Char} {field s : Text} (part : field ∈ s.splitOn sep)
    (member : c ∈ field)
    : c ∈ s := by
  induction s generalizing field with
  | nil =>
      rw [List.splitOn_nil, List.mem_singleton] at part
      rw [part] at member
      cases member
  | cons d s ih =>
      rw [List.splitOn_cons_eq_if_modifyHead] at part
      split_ifs at part
      · rcases List.mem_cons.mp part with rfl | later
        · cases member
        · exact List.mem_cons_of_mem d (ih later member)
      · obtain ⟨head, tail, inner⟩ := List.exists_cons_of_ne_nil (List.splitOn_ne_nil sep s)
        rw [inner, List.modifyHead_cons] at part
        rcases List.mem_cons.mp part with rfl | later
        · rcases List.mem_cons.mp member with rfl | behind
          · exact List.mem_cons_self
          · exact List.mem_cons_of_mem d (ih (by rw [inner]; exact List.mem_cons_self) behind)
        · refine List.mem_cons_of_mem d (ih ?_ member)
          rw [inner]
          exact List.mem_cons_of_mem head later

/-- The devices of a request are parts of what is received. -/
theorem devices_areBytes {sent beyond : Text} {r : Request} (bytes : AreBytes sent)
    (bytes' : AreBytes beyond) (parsed : parseRequest (receive sent beyond) = .ok r)
    : ∀ device ∈ r.devices, AreBytes device := by
  intro device requested c member
  obtain ⟨n, sets, codes, compressions, step, rest, _, _, fields, -⟩ := parseRequest_eq_ok.mp parsed
  have field : device ∈ split (receive sent beyond) sep := by
    rw [fields]
    exact List.mem_cons_of_mem _ (List.mem_append_left _ requested)
  have part : device ∈ (receive sent beyond).splitOn sep := by
    rcases splitOn_eq_split sep (receive sent beyond) with same | dropped
    · rw [same]
      exact field
    · rw [dropped]
      exact List.mem_append_left _ field
  have inside := List.takeWhile_subset _ (mem_of_mem_splitOn part member)
  rcases List.mem_append.mp inside with front | behind
  · rcases List.mem_append.mp (List.mem_of_mem_take front) with sent_ | zero
    · exact bytes c sent_
    · rw [List.eq_of_mem_replicate zero]
      decide
  · exact bytes' c behind

section Handlers

variable {finds : Int32 → Int32 → Prop} {archive : Archive} {c : Connection} {v w : Int32}

/-- What a handler comes to, beside its payloads. -/
theorem socketHandler_response {response : Response}
    (leads : (socketHandler archive c).Leads finds v (.ok response, w))
    : response = .nothing ∧ c.sent = []
      ∨ (∃ wha ∈ ["-1", "-2", "-3", "-4"], response = .code wha)
      ∨ ∃ payload, response = .payload payload := by
  rw [socketHandler] at leads
  split_ifs at leads with closed
  · exact .inl ⟨Except.ok.inj (Prod.mk.inj (Program.leads_pure_iff.mp leads)).1, closed⟩
  · right
    rw [map_eq_pure_bind, Program.leads_bind_iff] at leads
    obtain ⟨outcome, u, leads, result⟩ := leads
    obtain ⟨same, rfl⟩ := Prod.mk.inj (Program.leads_pure_iff.mp result)
    cases outcome with
    | error fault =>
        cases fault with
        | invalidArgument => exact .inl ⟨"-1", by decide, Except.ok.inj same⟩
        | exception => exact .inl ⟨"-2", by decide, Except.ok.inj same⟩
        | undefined => cases same
        | runsOn => cases same
    | ok handled =>
        obtain rfl : response = handled := Except.ok.inj same
        change (handle archive c).Returns finds v _ _ at leads
        rw [handle] at leads
        split_ifs at leads with connected
        · obtain ⟨r, u, -, rest⟩ := Handling.returns_bind_iff.mp leads
          obtain ⟨s, u, -, last⟩ := Handling.returns_bind_iff.mp rest
          obtain ⟨rfl, rfl⟩ := Handling.returns_pure_iff.mp last
          rw [Progress.response]
          split_ifs
          · exact .inl ⟨"-4", by decide, rfl⟩
          · exact .inr ⟨_, rfl⟩
        · exact .inl ⟨"-3", by decide, (Handling.returns_pure_iff.mp leads).1⟩

/-- An element on the right has its partner in the list on the left. -/
theorem exists_partner {α β : Type} {R : α → β → Prop} {xs : List α} {ys : List β} {y : β}
    (related : List.Forall₂ R xs ys) (member : y ∈ ys)
    : ∃ x ∈ xs, R x y := by
  have both : List.Forall₂ (fun x y => x ∈ xs ∧ R x y) xs ys :=
    (List.forall₂_and_left _ _).mpr ⟨fun _ inside => inside, related⟩
  exact exists_of_forall₂ both.flip member

theorem Cassspeed.Answers.labelled {timestampcass : Int64} {r : Request} {payload : Cassspeed}
    (answers : payload.Answers finds archive timestampcass v r)
    (bytes : ∀ device ∈ r.devices, AreBytes device)
    : payload.Labelled := by
  intro output member
  obtain ⟨device, found, answer⟩ := exists_partner answers.outputsets member
  refine ⟨?_, fun set inside => ?_⟩
  · obtain ⟨name, requested, query⟩ := List.mem_filterMap.mp found
    obtain ⟨rows, -, rfl⟩ := Option.map_eq_some_iff.mp query
    rw [answer.deviceid]
    exact bytes name requested
  · obtain ⟨pair, -, entry⟩ := exists_partner answer.sampleset inside
    exact ⟨pair.1, pair.2, entry.name, entry.compression⟩

/-- Whatever a handler comes to beside others, the client receives what is meant: the number of the
code, or the very payload, if it takes less than 2^28 bytes.
-/
theorem response_received {response : Response}
    (leads : (socketHandler archive c).Leads finds v (.ok response, w))
    (bytes : AreBytes c.sent) (bytes' : AreBytes c.beyond)
    (small
      : ∀ payload, response = .payload payload →
          (CassspeedMessage.format.serialize payload.message).length < 2 ^ 28)
    (behind : Nat → UInt8) (memory : Memory)
    : response.meant = none ∧ c.sent = []
      ∨ ∃ sent received, response.sent behind = some sent ∧ response.meant = some received
        ∧ receiveResponse memory sent = received := by
  rcases socketHandler_response leads with ⟨rfl, closed⟩ | ⟨wha, known, rfl⟩ | ⟨payload, rfl⟩
  · exact .inl ⟨rfl, closed⟩
  · have code : ∃ n, (wha, n) ∈ codes ∧ (Response.code wha).meant = some (.code n) := by
      simp only [List.mem_cons, List.not_mem_nil, or_false] at known
      rcases known with rfl | rfl | rfl | rfl
      · exact ⟨101, by decide, rfl⟩
      · exact ⟨102, by decide, rfl⟩
      · exact ⟨103, by decide, rfl⟩
      · exact ⟨104, by decide, rfl⟩
    obtain ⟨n, number, meant⟩ := code
    obtain ⟨sent, sends, received⟩ := receiveResponse_code number behind memory
    exact .inr ⟨sent, _, sends, meant, received⟩
  · obtain ⟨r, parsed, answers⟩ := socketHandler_leads leads
    have labelled := answers.labelled (devices_areBytes bytes bytes' parsed)
    have begins : payload.timestampstart ≠ none := by
      rw [answers.summary.timestampstart]
      exact Option.some_ne_none _
    obtain ⟨sent, sends, received⟩ :=
      receiveResponse_payload labelled begins (small payload rfl) behind memory
    exact .inr ⟨sent, _, sends, rfl, received⟩

end Handlers

def sentLength : Except Fault Response → Option Nat
  | .ok (.payload payload) => some (CassspeedMessage.format.serialize payload.message).length
  | _ => none

theorem exists_payload_of_sentLength {outcome : Except Fault Response} {n : Nat}
    (sent : sentLength outcome = some n)
    : ∃ payload, outcome = .ok (.payload payload)
      ∧ (CassspeedMessage.format.serialize payload.message).length = n := by
  cases outcome with
  | error fault => simp [sentLength] at sent
  | ok response =>
      cases response with
      | nothing => simp [sentLength] at sent
      | code wha => simp [sentLength] at sent
      | payload payload => exact ⟨payload, rfl, Option.some.inj sent⟩

def blankMemory : Memory where
  buffer _ := 0
  size := 0
  body _ := 0
  unparsed := CassspeedMessage.format.blank

/-- A raw second. -/
theorem response_received_raw
    : ∃ payload sent, (Response.payload payload).sent (fun _ => 0) = some sent
      ∧ receiveResponse blankMemory sent = .payload payload := by
  have length
      : sentLength ((socketHandler (fun _ => some [zeroSecond]) (rawAndSkip false)).run 0).1
        = some 529 := by
    decide +kernel
  obtain ⟨payload, outcome, short⟩ := exists_payload_of_sentLength length
  have bytes : (rawAndSkip false).sent.all (·.toNat < 256) = true := by decide +kernel
  have run
      : (socketHandler (fun _ => some [zeroSecond]) (rawAndSkip false)).run 0
        = (.ok (.payload payload),
          ((socketHandler (fun _ => some [zeroSecond]) (rawAndSkip false)).run 0).2) := by
    rw [← outcome]
  have small : (CassspeedMessage.format.serialize payload.message).length < 2 ^ 28 := by
    rw [short]
    decide
  have received := response_received (Program.leads_eq_iff.mpr run)
    (fun c member => of_decide_eq_true (List.all_eq_true.mp bytes c member))
    (fun c member => absurd member List.not_mem_nil)
    (fun payload' same => Response.payload.inj same ▸ small) (fun _ => 0) blankMemory
  rcases received with ⟨nothing, -⟩ | ⟨sent, received, sends, meant, reads⟩
  · cases nothing
  · exact ⟨payload, sent, sends, reads.trans (Option.some.inj meant).symm⟩

end Sparcs.CassSpeed
