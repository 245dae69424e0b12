import Sparcs.Library.FieldLengths
import Sparcs.CassSpeed.ResponsePacket
import Sparcs.CassSpeed.SocketHandler

/-! The payload of a handler as the message that is sent, and the message that the client has
received as the payload that it saves.
-/

namespace Sparcs.CassSpeed

open FieldFormat

-----------------------------------------------------------------------------------------
-- Texts as bytes
-----------------------------------------------------------------------------------------

def bytesOf (text : Text) : List UInt8 := text.map fun c => UInt8.ofNat c.toNat

def textOf (bytes : List UInt8) : Text := bytes.map fun byte => Char.ofNat byte.toNat

/-- The `char`s are bytes. -/
def AreBytes (text : Text) : Prop := ∀ c ∈ text, c.toNat < 256

theorem textOf_bytesOf {text : Text} (bytes : AreBytes text) : textOf (bytesOf text) = text := by
  rw [textOf, bytesOf, List.map_map]
  refine (List.map_congr_left fun c member => ?_).trans (List.map_id text)
  change Char.ofNat (UInt8.ofNat c.toNat).toNat = c
  rw [UInt8.toNat_ofNat', Nat.mod_eq_of_lt (bytes c member), Char.ofNat_toNat]

theorem length_bytesOf (text : Text) : (bytesOf text).length = text.length := List.length_map _

-----------------------------------------------------------------------------------------
-- The message of a payload
-----------------------------------------------------------------------------------------

namespace SampleSet

/-- `set_name`, `set_compression` and `add_sample` -/
def message (set : SampleSet) : SamplesetsMessage where
  name := some (bytesOf set.name.toList)
  compression := some (bytesOf set.compression.toList)
  sample := set.sample.map Float32.toBits

/-- Both texts are bytes. -/
def Spelled (set : SampleSet) : Prop := AreBytes set.name.toList ∧ AreBytes set.compression.toList

end SampleSet

namespace OutputSet

def message (output : OutputSet) : OutputMessage where
  deviceid := some (bytesOf output.deviceid)
  sampleset := output.sampleset.map SampleSet.message

def Spelled (output : OutputSet) : Prop :=
  AreBytes output.deviceid ∧ ∀ set ∈ output.sampleset, set.Spelled

end OutputSet

namespace Cassspeed

/-- `payload`. The handler sets no interval and no status. -/
def message (payload : Cassspeed) : CassspeedMessage where
  timestampstart := payload.timestampstart
  timestampend := payload.timestampend
  sampleintervalmsec := none
  numsamples := payload.numsamples
  numdevices := payload.numdevices
  outputsets := payload.outputsets.map OutputSet.message
  status := none

def Spelled (payload : Cassspeed) : Prop := ∀ output ∈ payload.outputsets, output.Spelled

end Cassspeed

-----------------------------------------------------------------------------------------
-- The payload of a message
-----------------------------------------------------------------------------------------

/-- What the client reads of a sample set. -/
def SamplesetsMessage.sampleSet (m : SamplesetsMessage) : SampleSet where
  name := String.ofList (textOf (m.name.getD []))
  compression := String.ofList (textOf (m.compression.getD []))
  sample := m.sample.map Float32.ofBits

def OutputMessage.outputSet (m : OutputMessage) : OutputSet where
  deviceid := textOf (m.deviceid.getD [])
  sampleset := m.sampleset.map SamplesetsMessage.sampleSet

def CassspeedMessage.payload (m : CassspeedMessage) : Cassspeed where
  timestampstart := m.timestampstart
  timestampend := m.timestampend
  numsamples := m.numsamples
  numdevices := m.numdevices
  outputsets := m.outputsets.map OutputMessage.outputSet

theorem sampleSet_message {set : SampleSet} (spelled : set.Spelled)
    : set.message.sampleSet = set := by
  have samples : (set.sample.map Float32.toBits).map Float32.ofBits = set.sample := by
    rw [List.map_map]
    exact (List.map_congr_left fun v _ => Float32.ofBits_toBits v).trans (List.map_id _)
  simp only [SampleSet.message, SamplesetsMessage.sampleSet, Option.getD_some, samples,
    textOf_bytesOf spelled.1, textOf_bytesOf spelled.2, String.ofList_toList]

theorem outputSet_message {output : OutputSet} (spelled : output.Spelled)
    : output.message.outputSet = output := by
  have sets
      : (output.sampleset.map SampleSet.message).map SamplesetsMessage.sampleSet
        = output.sampleset := by
    rw [List.map_map]
    refine (List.map_congr_left fun set member => ?_).trans (List.map_id _)
    exact sampleSet_message (spelled.2 set member)
  simp only [OutputSet.message, OutputMessage.outputSet, Option.getD_some, sets,
    textOf_bytesOf spelled.1]

/-- The client finds in the message what the handler has put there. -/
theorem payload_message {payload : Cassspeed} (spelled : payload.Spelled)
    : payload.message.payload = payload := by
  have outputs
      : (payload.outputsets.map OutputSet.message).map OutputMessage.outputSet
        = payload.outputsets := by
    rw [List.map_map]
    refine (List.map_congr_left fun output member => ?_).trans (List.map_id _)
    exact outputSet_message (spelled output member)
  simp only [Cassspeed.message, CassspeedMessage.payload, outputs]

-----------------------------------------------------------------------------------------
-- How long a message may be
-----------------------------------------------------------------------------------------

namespace SampleSet

def room (set : SampleSet) : Nat :=
  60 + set.name.toList.length + set.compression.toList.length + 4 * set.sample.length

theorem length_serialize_le {set : SampleSet} (small : set.room < 2 ^ 63)
    : (SamplesetsMessage.format.serialize set.message).length ≤ set.room := by
  have samples : (packWords (set.sample.map Float32.toBits)).length = 4 * set.sample.length := by
    rw [packWords_length, List.length_map]
  have name := length_bytesOf set.name.toList
  have compression := length_bytesOf set.compression.toList
  rw [room] at small ⊢
  have first := length_bytes_le 1 (bytesOf set.name.toList) (by decide) (by omega)
  have second := length_bytes_le 2 (bytesOf set.compression.toList) (by decide) (by omega)
  have third
      := length_bytes_le 3 (packWords (set.sample.map Float32.toBits)) (by decide) (by omega)
  rw [Format.serialize]
  simp only [SamplesetsMessage.format, SamplesetsMessage.fields, message, optionalField,
    Option.map_some, Option.toList_some, List.singleton_append]
  split_ifs <;>
    simp only [List.flatMap_append, List.flatMap_cons, List.flatMap_nil, List.length_append,
      List.length_nil] <;>
    omega

end SampleSet

namespace OutputSet

def room (output : OutputSet) : Nat :=
  20 + output.deviceid.length + (output.sampleset.map fun set => 20 + set.room).sum

theorem length_serialize_le {output : OutputSet} (small : output.room < 2 ^ 63)
    : (OutputMessage.format.serialize output.message).length ≤ output.room := by
  have deviceid := length_bytesOf output.deviceid
  rw [room] at small ⊢
  have first := length_bytes_le 1 (bytesOf output.deviceid) (by decide) (by omega)
  have each : ∀ set ∈ output.sampleset,
      (SamplesetsMessage.format.serialize set.message).length ≤ set.room := by
    intro set member
    have one := List.single_le_sum (fun _ _ => Nat.zero_le _) _
      (List.mem_map_of_mem (f := fun set : SampleSet => 20 + set.room) member)
    exact set.length_serialize_le (by omega)
  have sets := length_flatMap_encode_le 2 (by decide) each (by omega)
  rw [Format.serialize]
  simp only [OutputMessage.format, OutputMessage.fields, message, optionalField, Option.map_some,
    Option.toList_some, List.singleton_append, List.flatMap_cons, List.length_append,
    List.map_map, List.flatMap_map, Function.comp_apply, OutputMessage.samplesetField]
  omega

end OutputSet

namespace Cassspeed

def room (payload : Cassspeed) : Nat :=
  80 + (payload.outputsets.map fun output => 20 + output.room).sum

/-- The size of a response is bounded by the numbers of its sets and samples. -/
theorem length_serialize_le {payload : Cassspeed} (small : payload.room < 2 ^ 63)
    : (CassspeedMessage.format.serialize payload.message).length ≤ payload.room := by
  rw [room] at small ⊢
  have each : ∀ output ∈ payload.outputsets,
      (OutputMessage.format.serialize output.message).length ≤ output.room := by
    intro output member
    have one := List.single_le_sum (fun _ _ => Nat.zero_le _) _
      (List.mem_map_of_mem (f := fun output : OutputSet => 20 + output.room) member)
    exact output.length_serialize_le (by omega)
  have outputs := length_flatMap_encode_le 6 (by decide) each (by omega)
  have starts
      := length_optional_le 1 (by decide) payload.timestampstart fun value => ⟨value, rfl⟩
  have ends := length_optional_le 2 (by decide) payload.timestampend fun value => ⟨value, rfl⟩
  have counted := @length_optional_le _ 4 (by decide) payload.numsamples uint32Value
    fun value => ⟨_, rfl⟩
  have devices := @length_optional_le _ 5 (by decide) payload.numdevices int32Value
    fun value => ⟨_, rfl⟩
  have absent (number : Nat) : optionalField number none = [] := rfl
  rw [Format.serialize]
  simp only [CassspeedMessage.format, CassspeedMessage.fields, message, List.flatMap_append,
    List.length_append, Option.map_none, absent, List.flatMap_nil, List.length_nil, List.map_map,
    List.flatMap_map, Function.comp_apply, CassspeedMessage.outputField]
  omega

end Cassspeed

end Sparcs.CassSpeed
