import Sparcs.Library.FieldLengths
import Sparcs.CassSpeed.Messages
import Sparcs.CassSpeed.SocketHandler

/-! The message `upmuData`, as which a second is stored in the archive. The archivers write it and
the server for requests reads it, with the same `upmuDataProtobuf.pb.cc`.
-/

namespace Sparcs.Recording

open CassSpeed (CassRow Channel UpmuData UpmuSample uint32Value)
open FieldFormat

/-- The field of a quantity in `syncOutput`. -/
def fieldNumber : Channel → Nat
  | .l1ang => 2
  | .l1mag => 3
  | .l2ang => 4
  | .l2mag => 5
  | .l3ang => 6
  | .l3mag => 7
  | .c1ang => 8
  | .c1mag => 9
  | .c2ang => 10
  | .c2mag => 11
  | .c3ang => 12
  | .c3mag => 13

/-- The quantities in the order of their fields. -/
def written : List Channel :=
  [.l1ang, .l1mag, .l2ang, .l2mag, .l3ang, .l3mag, .c1ang, .c1mag, .c2ang, .c2mag, .c3ang, .c3mag]

/-- `syncOutput`. A `float` is its bits. -/
structure SyncOutputMessage where
  lockstate : Option UInt32
  value : Channel → Option UInt32

/-- `upmuData` -/
structure UpmuDataMessage where
  timestamp : Option UInt32
  sampleintervalmsec : Option UInt32
  numsamples : Option UInt32
  sample : List SyncOutputMessage

-----------------------------------------------------------------------------------------
-- Message types
-----------------------------------------------------------------------------------------

namespace SyncOutputMessage

/-- `SerializeWithCachedSizes` -/
def fields (m : SyncOutputMessage) : List Field :=
  optionalField 1 (m.lockstate.map uint32Value)
    ++ written.flatMap fun channel =>
      optionalField (fieldNumber channel) ((m.value channel).map .fixed32)

/-- One turn of `MergePartialFromCodedStream`. -/
def merge (m : SyncOutputMessage) (f : Field) : Option SyncOutputMessage :=
  match f.value with
  | .varint value => some (if f.number = 1 then { m with lockstate := some value.toUInt32 } else m)
  | .fixed32 word =>
      some { m with
        value := fun channel =>
          if fieldNumber channel = f.number then some word else m.value channel }
  | _ => some m

def format : Format SyncOutputMessage where
  blank := { lockstate := none, value := fun _ => none }
  fields
  merge

/-- What the getters return; a field without a value is zero. -/
def sample (m : SyncOutputMessage) : UpmuSample :=
  fun channel => Float32.ofBits ((m.value channel).getD 0)

end SyncOutputMessage

namespace UpmuDataMessage

def sampleField (sample : SyncOutputMessage) : Field :=
  { number := 4, value := .bytes (SyncOutputMessage.format.serialize sample) }

/-- `SerializeWithCachedSizes` -/
def fields (m : UpmuDataMessage) : List Field :=
  optionalField 1 (m.timestamp.map uint32Value)
    ++ optionalField 2 (m.sampleintervalmsec.map .fixed32)
    ++ optionalField 3 (m.numsamples.map uint32Value)
    ++ m.sample.map sampleField

/-- `add_sample` -/
def addSample (m : UpmuDataMessage) (sample : SyncOutputMessage) : UpmuDataMessage :=
  { m with sample := m.sample ++ [sample] }

/-- One turn of `MergePartialFromCodedStream`. -/
def merge (m : UpmuDataMessage) (f : Field) : Option UpmuDataMessage :=
  match f.number, f.value with
  | 1, .varint value => some { m with timestamp := some value.toUInt32 }
  | 2, .fixed32 word => some { m with sampleintervalmsec := some word }
  | 3, .varint value => some { m with numsamples := some value.toUInt32 }
  | 4, .bytes bytes => (SyncOutputMessage.format.parse bytes).map m.addSample
  | _, _ => some m

def format : Format UpmuDataMessage where
  blank := { timestamp := none, sampleintervalmsec := none, numsamples := none, sample := [] }
  fields
  merge

/-- What the server takes from a message. -/
def data (m : UpmuDataMessage) : UpmuData where
  numsamples := m.numsamples.getD 0
  sample := m.sample.map SyncOutputMessage.sample

end UpmuDataMessage

-----------------------------------------------------------------------------------------
-- Each message is read back
-----------------------------------------------------------------------------------------

theorem fieldNumber_injective : Function.Injective fieldNumber := by
  intro channel other same
  cases channel <;> cases other <;> first | rfl | simp [fieldNumber] at same

theorem mem_written (channel : Channel) : channel ∈ written := by
  cases channel <;> decide

namespace SyncOutputMessage

variable {m : SyncOutputMessage}

/-- The values of some quantities only. -/
def only (m : SyncOutputMessage) (channels : List Channel) : SyncOutputMessage :=
  { m with value := fun channel => if channel ∈ channels then m.value channel else none }

/-- The fields of more quantities, by induction over them. -/
theorem foldlM_values {channels : List Channel} (done : List Channel)
    (distinct : (done ++ channels).Nodup)
    : (channels.flatMap fun channel =>
          optionalField (fieldNumber channel) ((m.value channel).map .fixed32)).foldlM merge
        (m.only done)
      = some (m.only (done ++ channels)) := by
  induction channels generalizing done with
  | nil => simp
  | cons channel channels ih =>
      rw [List.append_cons] at distinct
      have later := ih (done ++ [channel]) distinct
      have fresh : channel ∉ done := by
        have first := (List.nodup_append.mp distinct).1
        exact fun member => List.disjoint_of_nodup_append first member (List.mem_singleton_self _)
      rw [List.flatMap_cons, List.append_cons, ← later]
      refine foldlM_optionalField (fun absent => ?_) (fun word present => ?_) _
      · rw [only, only, mk.injEq]
        refine ⟨rfl, funext fun other => ?_⟩
        by_cases same : other = channel
        · simp [same, fresh, absent]
        · simp [same]
      · rw [merge, only, only]
        refine congrArg some ?_
        rw [mk.injEq]
        refine ⟨rfl, funext fun other => ?_⟩
        by_cases same : other = channel
        · simp [same, present]
        · have apart : fieldNumber other ≠ fieldNumber channel :=
            fun equal => same (fieldNumber_injective equal)
          simp [same, apart]

theorem format_lawful : format.Lawful where
  blank := rfl
  numbered := by
    intro m f member
    simp only [format, fields, List.mem_append, List.mem_flatMap, mem_optionalField] at member
    rcases member with ⟨number, _⟩ | ⟨channel, _, number, _⟩
    · simp [Field.Numbered, number]
    · cases channel <;> simp [Field.Numbered, number, fieldNumber]
  merges := by
    intro m _
    have locked : ∀ rest : List Field,
        (optionalField 1 (m.lockstate.map uint32Value) ++ rest).foldlM merge format.blank
          = rest.foldlM merge (m.only []) :=
      foldlM_optionalField (by intro absent; simp [format, only, absent])
        (by intro value present; simp [format, merge, only, uint32Value, present])
    have values := @foldlM_values m written [] (by decide)
    have all : m.only ([] ++ written) = m := by
      simp [only, mem_written]
    change (fields m).foldlM merge format.blank = some m
    rw [fields, locked, values, all]

end SyncOutputMessage

namespace UpmuDataMessage

theorem foldl_sample (m : UpmuDataMessage) (samples : List SyncOutputMessage)
    : samples.foldl addSample m = { m with sample := m.sample ++ samples } := by
  induction samples generalizing m with
  | nil => simp
  | cons sample samples ih => simp [ih, addSample]

theorem format_lawful : format.Lawful where
  blank := rfl
  numbered := by
    intro m f member
    simp only [format, fields, List.mem_append, mem_optionalField, List.mem_map] at member
    rcases member with ((⟨number, _⟩ | ⟨number, _⟩) | ⟨number, _⟩) | ⟨sample, _, rfl⟩
    all_goals simp [Field.Numbered, sampleField, *]
  merges := by
    intro m short
    have stamped : ∀ rest : List Field,
        (optionalField 1 (m.timestamp.map uint32Value) ++ rest).foldlM merge format.blank
          = rest.foldlM merge { format.blank with timestamp := m.timestamp } :=
      foldlM_optionalField (by intro absent; simp [format, absent])
        (by intro value present; simp [format, merge, uint32Value, present])
    have spaced : ∀ rest : List Field,
        (optionalField 2 (m.sampleintervalmsec.map .fixed32) ++ rest).foldlM merge
            { format.blank with timestamp := m.timestamp }
          = rest.foldlM merge { m with numsamples := none, sample := [] } :=
      foldlM_optionalField (by intro absent; simp [format, absent])
        (by intro word present; simp [format, merge, present])
    have counted : ∀ rest : List Field,
        (optionalField 3 (m.numsamples.map uint32Value) ++ rest).foldlM merge
            { m with numsamples := none, sample := [] }
          = rest.foldlM merge { m with sample := [] } :=
      foldlM_optionalField (by intro absent; simp [absent])
        (by intro value present; simp [merge, uint32Value, present])
    have samples : ∀ rest : List Field,
        (m.sample.map sampleField ++ rest).foldlM merge { m with sample := [] }
          = rest.foldlM merge (m.sample.foldl addSample { m with sample := [] }) :=
      foldlM_map (by
        intro m' sample member
        have inside : (SyncOutputMessage.format.serialize sample).length
            < (format.serialize m).length :=
          Format.length_lt_of_field (List.mem_append_right _ (List.mem_map_of_mem member))
        have reads := SyncOutputMessage.format_lawful.parse_serialize (m := sample) (by omega)
        simp [merge, sampleField, reads]) _
    change (fields m).foldlM merge format.blank = some m
    rw [fields]
    simp only [List.append_assoc]
    rw [stamped, spaced, counted, ← List.append_nil (m.sample.map _), samples, foldl_sample]
    simp

end UpmuDataMessage

end Sparcs.Recording
