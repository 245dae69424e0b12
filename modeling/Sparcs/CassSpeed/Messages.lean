import Sparcs.Library.FieldFormat

/-! The messages of `cassspeed.pb.cc` and the bytes that they are written as. Fields that the
message types do not have are skipped.
-/

namespace Sparcs.CassSpeed

open Blocks (littleEndian littleEndian_length)
open FieldFormat

/-- `samplesets`. A string is its bytes and a `float` is its bits. -/
structure SamplesetsMessage where
  name : Option (List UInt8)
  compression : Option (List UInt8)
  sample : List UInt32
  deriving DecidableEq, Repr

/-- `output` -/
structure OutputMessage where
  deviceid : Option (List UInt8)
  sampleset : List SamplesetsMessage
  deriving DecidableEq, Repr

/-- `cassspeed` -/
structure CassspeedMessage where
  timestampstart : Option UInt64
  timestampend : Option UInt64
  sampleintervalmsec : Option UInt32
  numsamples : Option UInt32
  numdevices : Option Int32
  outputsets : List OutputMessage
  status : Option Int32
  deriving DecidableEq, Repr

-----------------------------------------------------------------------------------------
-- Values
-----------------------------------------------------------------------------------------

/-- A packed field of `float`s. -/
def packWords (words : List UInt32) : List UInt8 :=
  words.flatMap fun word => littleEndian 4 word.toNat

/-- The `float`s of a packed field; its bytes must be a whole number of them. -/
def readWords : List UInt8 → Option (List UInt32)
  | [] => some []
  | b0 :: b1 :: b2 :: b3 :: rest =>
      (readWords rest).map (UInt32.ofNat (ofLittleEndian [b0, b1, b2, b3]) :: ·)
  | _ => none

theorem readWords_packWords (words : List UInt32) : readWords (packWords words) = some words := by
  induction words with
  | nil => rfl
  | cons word words ih =>
      have small : word.toNat < 256 ^ 4 := word.toNat_lt
      have value := ofLittleEndian_littleEndian small
      simp only [littleEndian] at value
      rw [packWords, List.flatMap_cons, ← packWords]
      simp only [littleEndian, List.cons_append, List.nil_append, readWords, ih, Option.map_some,
        value, UInt32.ofNat_toNat]

theorem packWords_length (words : List UInt32) : (packWords words).length = 4 * words.length :=
  Blocks.length_flatMap_width (fun word : UInt32 => littleEndian_length 4 word.toNat) words

/-- An `int32` is written with its sign in 64 bits. -/
def int32Value (value : Int32) : Value := .varint value.toInt64.toUInt64

/-- `ReadVarint32` keeps the low bits. -/
def readInt32 (value : UInt64) : Int32 := value.toUInt32.toInt32

theorem readInt32_int32Value (value : Int32) : readInt32 value.toInt64.toUInt64 = value := by
  apply Int32.toBitVec_inj.mp
  ext bit low
  have wide : bit < 64 := by omega
  simp [readInt32, BitVec.getLsbD_eq_getElem, wide, BitVec.getElem_signExtend, low]

def uint32Value (value : UInt32) : Value := .varint value.toUInt64

-----------------------------------------------------------------------------------------
-- Message types
-----------------------------------------------------------------------------------------

namespace SamplesetsMessage

/-- `SerializeWithCachedSizes` -/
def fields (m : SamplesetsMessage) : List Field :=
  optionalField 1 (m.name.map .bytes)
    ++ optionalField 2 (m.compression.map .bytes)
    ++ if m.sample = [] then [] else [{ number := 3, value := .bytes (packWords m.sample) }]

/-- One turn of `MergePartialFromCodedStream`. -/
def merge (m : SamplesetsMessage) (f : Field) : Option SamplesetsMessage :=
  match f.number, f.value with
  | 1, .bytes name => some { m with name := some name }
  | 2, .bytes compression => some { m with compression := some compression }
  | 3, .bytes packed => (readWords packed).map fun words => { m with sample := m.sample ++ words }
  | 3, .fixed32 word => some { m with sample := m.sample ++ [word] }
  | _, _ => some m

def format : Format SamplesetsMessage where
  blank := { name := none, compression := none, sample := [] }
  fields
  merge

end SamplesetsMessage

namespace OutputMessage

def samplesetField (sampleset : SamplesetsMessage) : Field :=
  { number := 2, value := .bytes (SamplesetsMessage.format.serialize sampleset) }

/-- `SerializeWithCachedSizes` -/
def fields (m : OutputMessage) : List Field :=
  optionalField 1 (m.deviceid.map .bytes) ++ m.sampleset.map samplesetField

/-- `add_sampleset` -/
def addSampleset (m : OutputMessage) (sampleset : SamplesetsMessage) : OutputMessage :=
  { m with sampleset := m.sampleset ++ [sampleset] }

/-- One turn of `MergePartialFromCodedStream`. -/
def merge (m : OutputMessage) (f : Field) : Option OutputMessage :=
  match f.number, f.value with
  | 1, .bytes deviceid => some { m with deviceid := some deviceid }
  | 2, .bytes bytes => (SamplesetsMessage.format.parse bytes).map m.addSampleset
  | _, _ => some m

def format : Format OutputMessage where
  blank := { deviceid := none, sampleset := [] }
  fields
  merge

end OutputMessage

namespace CassspeedMessage

def outputField (output : OutputMessage) : Field :=
  { number := 6, value := .bytes (OutputMessage.format.serialize output) }

/-- `SerializeWithCachedSizes` -/
def fields (m : CassspeedMessage) : List Field :=
  optionalField 1 (m.timestampstart.map .varint)
    ++ optionalField 2 (m.timestampend.map .varint)
    ++ optionalField 3 (m.sampleintervalmsec.map .fixed32)
    ++ optionalField 4 (m.numsamples.map uint32Value)
    ++ optionalField 5 (m.numdevices.map int32Value)
    ++ m.outputsets.map outputField
    ++ optionalField 7 (m.status.map int32Value)

/-- `add_outputsets` -/
def addOutputsets (m : CassspeedMessage) (output : OutputMessage) : CassspeedMessage :=
  { m with outputsets := m.outputsets ++ [output] }

/-- One turn of `MergePartialFromCodedStream`. -/
def merge (m : CassspeedMessage) (f : Field) : Option CassspeedMessage :=
  match f.number, f.value with
  | 1, .varint value => some { m with timestampstart := some value }
  | 2, .varint value => some { m with timestampend := some value }
  | 3, .fixed32 word => some { m with sampleintervalmsec := some word }
  | 4, .varint value => some { m with numsamples := some value.toUInt32 }
  | 5, .varint value => some { m with numdevices := some (readInt32 value) }
  | 6, .bytes bytes => (OutputMessage.format.parse bytes).map m.addOutputsets
  | 7, .varint value => some { m with status := some (readInt32 value) }
  | _, _ => some m

def format : Format CassspeedMessage where
  blank :=
    { timestampstart := none, timestampend := none, sampleintervalmsec := none,
      numsamples := none, numdevices := none, outputsets := [], status := none }
  fields
  merge

end CassspeedMessage

-----------------------------------------------------------------------------------------
-- Each message is read back
-----------------------------------------------------------------------------------------

namespace SamplesetsMessage

theorem format_lawful : format.Lawful where
  blank := rfl
  numbered := by
    intro m f member
    simp only [format, fields, List.mem_append, mem_optionalField] at member
    rcases member with (⟨number, _⟩ | ⟨number, _⟩) | packed
    · simp [Field.Numbered, number]
    · simp [Field.Numbered, number]
    · split_ifs at packed
      · simp at packed
      · rw [List.mem_singleton] at packed
        simp [Field.Numbered, packed]
  merges := by
    intro m _
    have named : ∀ rest : List Field,
        (optionalField 1 (m.name.map .bytes) ++ rest).foldlM merge format.blank
          = rest.foldlM merge { format.blank with name := m.name } :=
      foldlM_optionalField (by intro absent; simp [format, absent])
        (by intro name present; simp [merge, present])
    have compressed : ∀ rest : List Field,
        (optionalField 2 (m.compression.map .bytes) ++ rest).foldlM merge
            { format.blank with name := m.name }
          = rest.foldlM merge { m with sample := [] } :=
      foldlM_optionalField (by intro absent; simp [format, absent])
        (by intro compression present; simp [format, merge, present])
    change (fields m).foldlM merge format.blank = some m
    rw [fields, List.append_assoc, named, compressed]
    split_ifs with absent
    · simp [absent.symm]
    · simp [merge, readWords_packWords]

end SamplesetsMessage

namespace OutputMessage

theorem foldl_sampleset (m : OutputMessage) (samplesets : List SamplesetsMessage)
    : samplesets.foldl addSampleset m
      = { m with sampleset := m.sampleset ++ samplesets } := by
  induction samplesets generalizing m with
  | nil => simp
  | cons sampleset samplesets ih => simp [ih, addSampleset]

theorem format_lawful : format.Lawful where
  blank := rfl
  numbered := by
    intro m f member
    simp only [format, fields, List.mem_append, mem_optionalField, List.mem_map] at member
    rcases member with ⟨number, _⟩ | ⟨sampleset, _, rfl⟩
    · simp [Field.Numbered, number]
    · simp [Field.Numbered, samplesetField]
  merges := by
    intro m short
    have identified : ∀ rest : List Field,
        (optionalField 1 (m.deviceid.map .bytes) ++ rest).foldlM merge format.blank
          = rest.foldlM merge { m with sampleset := [] } :=
      foldlM_optionalField (by intro absent; simp [format, absent])
        (by intro deviceid present; simp [format, merge, present])
    have sets : ∀ rest : List Field,
        (m.sampleset.map samplesetField ++ rest).foldlM merge { m with sampleset := [] }
          = rest.foldlM merge (m.sampleset.foldl addSampleset { m with sampleset := [] }) :=
      foldlM_map (by
        intro m' sampleset member
        have inside : (SamplesetsMessage.format.serialize sampleset).length
            < (format.serialize m).length :=
          Format.length_lt_of_field (List.mem_append_right _ (List.mem_map_of_mem member))
        have reads := SamplesetsMessage.format_lawful.parse_serialize (m := sampleset) (by omega)
        simp [merge, samplesetField, reads]) _
    change (fields m).foldlM merge format.blank = some m
    rw [fields, identified, ← List.append_nil (m.sampleset.map _), sets, foldl_sampleset]
    simp

end OutputMessage

namespace CassspeedMessage

theorem foldl_outputsets (m : CassspeedMessage) (outputs : List OutputMessage)
    : outputs.foldl addOutputsets m
      = { m with outputsets := m.outputsets ++ outputs } := by
  induction outputs generalizing m with
  | nil => simp
  | cons output outputs ih => simp [ih, addOutputsets]

/-- The message after its optional fields before the outputs, by one lemma for each. -/
theorem foldlM_optionalFields (m : CassspeedMessage) (rest : List Field)
    : (optionalField 1 (m.timestampstart.map .varint)
          ++ (optionalField 2 (m.timestampend.map .varint)
          ++ (optionalField 3 (m.sampleintervalmsec.map .fixed32)
          ++ (optionalField 4 (m.numsamples.map uint32Value)
          ++ (optionalField 5 (m.numdevices.map int32Value) ++ rest))))).foldlM merge format.blank
      = rest.foldlM merge { m with outputsets := [], status := none } := by
  have started : ∀ rest : List Field,
      (optionalField 1 (m.timestampstart.map .varint) ++ rest).foldlM merge format.blank
        = rest.foldlM merge { format.blank with timestampstart := m.timestampstart } :=
    foldlM_optionalField (by intro absent; simp [format, absent])
      (by intro value present; simp [merge, present])
  have ended : ∀ rest : List Field,
      (optionalField 2 (m.timestampend.map .varint) ++ rest).foldlM merge
          { format.blank with timestampstart := m.timestampstart }
        = rest.foldlM merge { format.blank with
            timestampstart := m.timestampstart, timestampend := m.timestampend } :=
    foldlM_optionalField (by intro absent; simp [format, absent])
      (by intro value present; simp [merge, present])
  have spaced : ∀ rest : List Field,
      (optionalField 3 (m.sampleintervalmsec.map .fixed32) ++ rest).foldlM merge
          { format.blank with
            timestampstart := m.timestampstart, timestampend := m.timestampend }
        = rest.foldlM merge { m with
            numsamples := none, numdevices := none, outputsets := [], status := none } :=
    foldlM_optionalField (by intro absent; simp [format, absent])
      (by intro word present; simp [format, merge, present])
  have counted : ∀ rest : List Field,
      (optionalField 4 (m.numsamples.map uint32Value) ++ rest).foldlM merge
          { m with numsamples := none, numdevices := none, outputsets := [], status := none }
        = rest.foldlM merge { m with numdevices := none, outputsets := [], status := none } :=
    foldlM_optionalField (by intro absent; simp [absent])
      (by intro value present; simp [merge, uint32Value, present])
  have devices : ∀ rest : List Field,
      (optionalField 5 (m.numdevices.map int32Value) ++ rest).foldlM merge
          { m with numdevices := none, outputsets := [], status := none }
        = rest.foldlM merge { m with outputsets := [], status := none } :=
    foldlM_optionalField (by intro absent; simp [absent])
      (by intro value present; simp [merge, int32Value, readInt32_int32Value, present])
  rw [started, ended, spaced, counted, devices]

theorem format_lawful : format.Lawful where
  blank := rfl
  numbered := by
    intro m f member
    simp only [format, fields, List.mem_append, mem_optionalField, List.mem_map] at member
    rcases member with
      (((((⟨number, _⟩ | ⟨number, _⟩) | ⟨number, _⟩) | ⟨number, _⟩) | ⟨number, _⟩)
        | ⟨output, _, rfl⟩) | ⟨number, _⟩
    all_goals simp [Field.Numbered, outputField, *]
  merges := by
    intro m short
    have sets : ∀ rest : List Field,
        (m.outputsets.map outputField ++ rest).foldlM merge
            { m with outputsets := [], status := none }
          = rest.foldlM merge
              (m.outputsets.foldl addOutputsets { m with outputsets := [], status := none }) :=
      foldlM_map (by
        intro m' output member
        have inside : (OutputMessage.format.serialize output).length
            < (format.serialize m).length :=
          Format.length_lt_of_field
            (List.mem_append_left _ (List.mem_append_right _ (List.mem_map_of_mem member)))
        have reads := OutputMessage.format_lawful.parse_serialize (m := output) (by omega)
        simp [merge, outputField, reads]) _
    have judged : ∀ rest : List Field,
        (optionalField 7 (m.status.map int32Value) ++ rest).foldlM merge { m with status := none }
          = rest.foldlM merge m :=
      foldlM_optionalField (by intro absent; simp [← absent])
        (by intro value present; simp [merge, int32Value, readInt32_int32Value, ← present])
    change (fields m).foldlM merge format.blank = some m
    rw [fields]
    simp only [List.append_assoc]
    rw [foldlM_optionalFields, sets, foldl_outputsets,
      ← List.append_nil (optionalField 7 _)]
    exact judged []

end CassspeedMessage

end Sparcs.CassSpeed
