import Sparcs.Library.FieldFormat

/-! How many bytes the fields of a message take: the bytes that they hold, and at most ten each for
the tag and for the length or the number.
-/

namespace FieldFormat

theorem length_encode_le_ten {n : Nat} (small : n < 2 ^ 70)
    : (Varint.encode n).length ≤ 10 :=
  (Varint.encode_length_le_iff n 9).mpr small

/-- A tag and a length or a number take ten bytes each at most. -/
theorem length_bytes_le (number : Nat) (content : List UInt8) (few : number < 2 ^ 29)
    (short : content.length < 2 ^ 63)
    : (Field.encode ⟨number, .bytes content⟩).length ≤ 20 + content.length := by
  have tag : (Varint.encode (8 * number + 2)).length ≤ 10 :=
    length_encode_le_ten (by omega)
  have length : (Varint.encode content.length).length ≤ 10 :=
    length_encode_le_ten (by omega)
  simp only [Field.encode, Field.tag, Value.kind, Value.encode, List.length_append]
  omega

theorem length_varint_le (number : Nat) (value : UInt64) (few : number < 2 ^ 29)
    : (Field.encode ⟨number, .varint value⟩).length ≤ 20 := by
  have small := value.toNat_lt
  have tag : (Varint.encode (8 * number)).length ≤ 10 := length_encode_le_ten (by omega)
  have length : (Varint.encode value.toNat).length ≤ 10 :=
    length_encode_le_ten (by omega)
  simp only [Field.encode, Field.tag, Value.kind, Value.encode, List.length_append, Nat.add_zero]
  omega

/-- Fields that hold messages, each with its own room. -/
theorem length_flatMap_encode_le {α : Type} {items : List α} (number : Nat) (few : number < 2 ^ 29)
    {content : α → List UInt8} {room : α → Nat}
    (each : ∀ item ∈ items, (content item).length ≤ room item)
    (small : (items.map fun item => 20 + room item).sum < 2 ^ 63)
    : (items.flatMap fun item => Field.encode ⟨number, .bytes (content item)⟩).length
      ≤ (items.map fun item => 20 + room item).sum := by
  induction items with
  | nil => exact Nat.le_refl 0
  | cons item items ih =>
      rw [List.map_cons, List.sum_cons] at small
      have first := each item List.mem_cons_self
      have field := length_bytes_le number (content item) few (by omega)
      have others := ih (fun other member => each other (List.mem_cons_of_mem _ member)) (by omega)
      rw [List.flatMap_cons, List.length_append, List.map_cons, List.sum_cons]
      omega

theorem length_optional_le {α : Type} (number : Nat) (few : number < 2 ^ 29) (value : Option α)
    {toValue : α → Value} (isNumber : ∀ a, ∃ word, toValue a = .varint word)
    : ((optionalField number (value.map toValue)).flatMap Field.encode).length ≤ 20 := by
  cases value with
  | none => exact Nat.zero_le _
  | some a =>
      obtain ⟨word, same⟩ := isNumber a
      have field := length_varint_le number word few
      simpa [optionalField, same] using field

end FieldFormat
