import Sparcs.Library.Blocks
import Sparcs.Library.Varint

/-! Messages as sequences of numbered fields. A field is a tag, of its number and the kind of
its value, and the value. A message type has the fields that a message is written as, and what
each field that is read does to the message read so far; a field that it does not know does
nothing.
-/

namespace FieldFormat

open Blocks (littleEndian littleEndian_length)

/-- The number whose bytes these are, the least significant first. -/
def ofLittleEndian : List UInt8 → Nat
  | [] => 0
  | byte :: rest => byte.toNat + 256 * ofLittleEndian rest

theorem ofLittleEndian_littleEndian {width n : Nat} (small : n < 256 ^ width)
    : ofLittleEndian (littleEndian width n) = n := by
  induction width generalizing n with
  | zero =>
      rw [Nat.pow_zero, Nat.lt_one_iff] at small
      rw [small]
      rfl
  | succ width ih =>
      have higher : n / 256 < 256 ^ width := by
        rwa [Nat.div_lt_iff_lt_mul (by decide), ← Nat.pow_succ]
      rw [littleEndian, ofLittleEndian, ih higher, UInt8.toNat_ofNat']
      exact Nat.mod_add_div n 256

/-- The bytes at the front, if there are so many, and the bytes behind them. -/
def takeExactly (count : Nat) (bytes : List UInt8) : Option (List UInt8 × List UInt8) :=
  if count ≤ bytes.length then some (bytes.splitAt count) else none

theorem takeExactly_append {count : Nat} {bytes : List UInt8} (length : bytes.length = count)
    (rest : List UInt8)
    : takeExactly count (bytes ++ rest) = some (bytes, rest) := by
  have enough : count ≤ (bytes ++ rest).length := by
    rw [List.length_append]
    omega
  rw [takeExactly, if_pos enough, List.splitAt_eq, List.take_left' length, List.drop_left' length]

-----------------------------------------------------------------------------------------
-- Fields
-----------------------------------------------------------------------------------------

inductive Value where
  | varint (value : UInt64)
  | fixed64 (value : UInt64)
  | bytes (content : List UInt8)
  | fixed32 (value : UInt32)
  deriving DecidableEq, Repr

structure Field where
  number : Nat
  value : Value
  deriving DecidableEq, Repr

namespace Value

def kind : Value → Nat
  | .varint _ => 0
  | .fixed64 _ => 1
  | .bytes _ => 2
  | .fixed32 _ => 5

def encode : Value → List UInt8
  | .varint value => Varint.encode value.toNat
  | .fixed64 value => littleEndian 8 value.toNat
  | .bytes content => Varint.encode content.length ++ content
  | .fixed32 value => littleEndian 4 value.toNat

end Value

/-- A value of this kind and the bytes behind it. Groups have no value. -/
def readValue (kind : Nat) (bytes : List UInt8) : Option (Value × List UInt8) :=
  match kind with
  | 0 => do
      let (value, rest) ← Varint.read 10 bytes
      some (.varint (UInt64.ofNat value), rest)
  | 1 => do
      let (word, rest) ← takeExactly 8 bytes
      some (.fixed64 (UInt64.ofNat (ofLittleEndian word)), rest)
  | 2 => do
      let (length, rest) ← Varint.read 10 bytes
      -- the length is a signed number of 32 bits
      if length % 2 ^ 32 < 2 ^ 31 then
        let (bytes, rest) ← takeExactly (length % 2 ^ 32) rest
        some (.bytes bytes, rest)
      else none
  | 5 => do
      let (word, rest) ← takeExactly 4 bytes
      some (.fixed32 (UInt32.ofNat (ofLittleEndian word)), rest)
  | _ => none

namespace Field

def tag (f : Field) : Nat := 8 * f.number + f.value.kind

def encode (f : Field) : List UInt8 :=
  Varint.encode f.tag ++ f.value.encode

/-- The field at the front and the bytes behind it. The tag 0 is none. -/
def read (bytes : List UInt8) : Option (Field × List UInt8) := do
  let (tag, rest) ← Varint.read 10 bytes
  if tag % 2 ^ 32 = 0 then
    none
  else
    let (value, rest) ← readValue (tag % 2 ^ 32 % 8) rest
    some ({ number := tag % 2 ^ 32 / 8, value }, rest)

/-- The numbers of fields. -/
def Numbered (f : Field) : Prop := 0 < f.number ∧ f.number < 2 ^ 29

end Field

/-- The fields of the bytes, all of which are used up; a field takes at least one byte. -/
def readFields : (fuel : Nat) → List UInt8 → Option (List Field)
  | _, [] => some []
  | 0, _ :: _ => none
  | fuel + 1, bytes => do
      let (field, rest) ← Field.read bytes
      let fields ← readFields fuel rest
      some (field :: fields)

/-- A value that is not too long is read back, with the bytes behind it. -/
theorem readValue_encode (value : Value) (short : value.encode.length < 2 ^ 31)
    (rest : List UInt8)
    : readValue value.kind (value.encode ++ rest) = some (value, rest) := by
  cases value with
  | varint value =>
      have small : value.toNat < 128 ^ (9 + 1) := by
        have bound := value.toNat_lt
        omega
      simp [readValue, Value.kind, Value.encode, Varint.read_encode small]
  | fixed64 value =>
      have small : value.toNat < 256 ^ 8 := value.toNat_lt
      simp [readValue, Value.kind, Value.encode, takeExactly_append (littleEndian_length 8 _),
        ofLittleEndian_littleEndian small]
  | bytes content =>
      simp only [Value.encode, List.length_append] at short
      have small : content.length < 128 ^ (9 + 1) := by omega
      have same : content.length % 2 ^ 32 = content.length := Nat.mod_eq_of_lt (by omega)
      have signed : content.length < 2 ^ 31 := by omega
      simp only [readValue, Value.kind, Value.encode, List.append_assoc,
        Varint.read_encode small, Option.bind_eq_bind, Option.bind_some, same, if_pos signed,
        takeExactly_append rfl]
  | fixed32 value =>
      have small : value.toNat < 256 ^ 4 := value.toNat_lt
      simp [readValue, Value.kind, Value.encode, takeExactly_append (littleEndian_length 4 _),
        ofLittleEndian_littleEndian small]

theorem Value.kind_lt (value : Value) : value.kind < 8 := by
  cases value <;> simp [kind]

theorem Field.read_encode {f : Field} (numbered : f.Numbered) (short : f.encode.length < 2 ^ 31)
    (rest : List UInt8)
    : Field.read (f.encode ++ rest) = some (f, rest) := by
  obtain ⟨positive, bound⟩ := numbered
  have kind := f.value.kind_lt
  have tag : f.tag = 8 * f.number + f.value.kind := rfl
  have small : f.tag < 128 ^ (9 + 1) := by omega
  have same : f.tag % 2 ^ 32 = f.tag := Nat.mod_eq_of_lt (by omega)
  have number : f.tag / 8 = f.number := by omega
  have kind_ : f.tag % 8 = f.value.kind := by omega
  rw [Field.encode, List.length_append] at short
  rw [Field.encode, List.append_assoc]
  simp only [Field.read, Varint.read_encode small, Option.bind_eq_bind, Option.bind_some, same,
    if_neg (show ¬f.tag = 0 by omega), kind_, number,
    readValue_encode f.value (by omega) rest]

theorem Field.encode_length_pos (f : Field) : 0 < f.encode.length := by
  rw [Field.encode, List.length_append]
  exact Nat.add_pos_left (Varint.encode_length_pos f.tag) _

/-- Fields are read back, by induction over them. -/
theorem readFields_flatMap {fields : List Field} {fuel : Nat}
    (numbered : ∀ f ∈ fields, f.Numbered) (short : (fields.flatMap Field.encode).length < 2 ^ 31)
    (enough : fields.length ≤ fuel)
    : readFields fuel (fields.flatMap Field.encode) = some fields := by
  induction fields generalizing fuel with
  | nil => cases fuel <;> rfl
  | cons field fields ih =>
      rw [List.flatMap_cons, List.length_append] at short
      rw [List.length_cons] at enough
      obtain ⟨fuel, rfl⟩ := Nat.exists_eq_add_of_lt enough
      have positive := field.encode_length_pos
      have reads := Field.read_encode (numbered field List.mem_cons_self) (by omega)
        (fields.flatMap Field.encode)
      have later : readFields (fields.length + fuel) (fields.flatMap Field.encode) = some fields :=
        ih (fun f member => numbered f (List.mem_cons_of_mem field member)) (by omega) (by omega)
      obtain ⟨byte, bytes, first⟩ := List.exists_cons_of_length_pos positive
      rw [List.flatMap_cons]
      rw [first, List.cons_append] at reads ⊢
      simp only [readFields, reads, later, Option.bind_eq_bind, Option.bind_some]

-----------------------------------------------------------------------------------------
-- Message types
-----------------------------------------------------------------------------------------

structure Format (M : Type) where
  /-- The message without fields. -/
  blank : M
  fields : M → List Field
  merge : M → Field → Option M

namespace Format

variable {M : Type} {format : Format M} {m : M}

def serialize (format : Format M) (m : M) : List UInt8 :=
  (format.fields m).flatMap Field.encode

/-- The message of all bytes; `none` when they are no sequence of fields, or a field has no
value of its type.
-/
def parse (format : Format M) (bytes : List UInt8) : Option M := do
  let fields ← readFields bytes.length bytes
  fields.foldlM format.merge format.blank

/-- A message is put together again from its fields. -/
structure Lawful (format : Format M) : Prop where
  blank : format.fields format.blank = []
  numbered : ∀ m, ∀ f ∈ format.fields m, f.Numbered
  merges
    : ∀ m, (format.serialize m).length < 2 ^ 31
        → (format.fields m).foldlM format.merge format.blank = some m

theorem Lawful.serialize_blank (lawful : format.Lawful) : format.serialize format.blank = [] := by
  rw [serialize, lawful.blank, List.flatMap_nil]

/-- Each field takes at least one byte. -/
theorem fields_length_le (format : Format M) (m : M)
    : (format.fields m).length ≤ (format.serialize m).length := by
  rw [serialize]
  induction format.fields m with
  | nil => exact Nat.le_refl 0
  | cons field fields ih =>
      have positive := field.encode_length_pos
      rw [List.flatMap_cons, List.length_append, List.length_cons]
      omega

theorem Lawful.parse_serialize (lawful : format.Lawful)
    (short : (format.serialize m).length < 2 ^ 31)
    : format.parse (format.serialize m) = some m := by
  have reads := readFields_flatMap (lawful.numbered m) short (format.fields_length_le m)
  rw [← serialize] at reads
  rw [parse, reads]
  exact lawful.merges m short

/-- A field's bytes are among those of its message. -/
theorem length_encode_le {f : Field} (member : f ∈ format.fields m)
    : f.encode.length ≤ (format.serialize m).length := by
  obtain ⟨before, behind, split⟩ := List.append_of_mem member
  rw [serialize, split, List.flatMap_append, List.flatMap_cons, List.length_append,
    List.length_append]
  omega

/-- A field that holds bytes is longer than they are. -/
theorem length_lt_of_field {number : Nat} {bytes : List UInt8}
    (member : ⟨number, .bytes bytes⟩ ∈ format.fields m)
    : bytes.length < (format.serialize m).length := by
  have inside := length_encode_le member
  have positive := Varint.encode_length_pos (Field.tag ⟨number, .bytes bytes⟩)
  simp only [Field.encode, Value.encode, List.length_append] at inside
  omega

end Format

-----------------------------------------------------------------------------------------
-- Putting messages together
-----------------------------------------------------------------------------------------

/-- The field of a value that may be absent. -/
def optionalField (number : Nat) (value : Option Value) : List Field :=
  (value.map fun value => { number, value }).toList

theorem mem_optionalField {f : Field} {number : Nat} {value : Option Value}
    : f ∈ optionalField number value ↔ f.number = number ∧ value = some f.value := by
  obtain ⟨number', value'⟩ := f
  cases value with
  | none => simp [optionalField]
  | some value => simp [optionalField, eq_comm]

section Merging

variable {M α : Type} {merge : M → Field → Option M} {m m' : M}

/-- An absent value leaves the message as it is. -/
theorem foldlM_optionalField {number : Nat} {value : Option α} {toValue : α → Value}
    (absent : value = none → m' = m)
    (present : ∀ v, value = some v → merge m { number, value := toValue v } = some m')
    (rest : List Field)
    : (optionalField number (value.map toValue) ++ rest).foldlM merge m
      = rest.foldlM merge m' := by
  cases value with
  | none => rw [absent rfl]; rfl
  | some v =>
      have merges := present v rfl
      simp [optionalField, merges]

/-- The fields of a list, each of which adds its item. -/
theorem foldlM_map {items : List α} {field : α → Field} {add : M → α → M}
    (merges : ∀ m, ∀ item ∈ items, merge m (field item) = some (add m item))
    (m : M) (rest : List Field)
    : (items.map field ++ rest).foldlM merge m = rest.foldlM merge (items.foldl add m) := by
  induction items generalizing m with
  | nil => rfl
  | cons item items ih =>
      rw [List.map_cons, List.cons_append, List.foldlM_cons, merges m item List.mem_cons_self]
      exact ih (fun m item member => merges m item (List.mem_cons_of_mem _ member)) (add m item)

end Merging

end FieldFormat
