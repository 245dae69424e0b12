import Mathlib.Tactic.Common

/-! Computations over a memory that remember which addresses they read. -/

/-- A result and the addresses read for it, in order. -/
structure Traced (ι α : Type) where
  value : α
  reads : List ι

namespace Traced

variable {ι α β : Type}

instance : Monad (Traced ι) where
  pure value := ⟨value, []⟩
  bind first next := ⟨(next first.value).value, first.reads ++ (next first.value).reads⟩

/-- Read one cell of a memory. -/
def readCell (memory : ι → α) (address : ι) : Traced ι α :=
  ⟨memory address, [address]⟩

/-- All that is read lies in a region. -/
def ReadsIn (region : ι → Prop) (computation : Traced ι α) : Prop :=
  ∀ address ∈ computation.reads, region address

@[simp] theorem value_pure (value : α) : (pure value : Traced ι α).value = value := rfl

@[simp] theorem value_bind (first : Traced ι α) (next : α → Traced ι β)
    : (first >>= next).value = (next first.value).value := rfl

@[simp] theorem value_readCell (memory : ι → α) (address : ι)
    : (readCell memory address).value = memory address := rfl

variable {region : ι → Prop}

@[simp] theorem readsIn_pure (value : α) : ReadsIn region (pure value : Traced ι α) := by
  intro address member
  cases member

@[simp] theorem readsIn_readCell (memory : ι → α) (address : ι)
    : ReadsIn region (readCell memory address) ↔ region address := by
  simp [ReadsIn, readCell]

@[simp] theorem readsIn_bind (first : Traced ι α) (next : α → Traced ι β)
    : ReadsIn region (first >>= next)
      ↔ ReadsIn region first ∧ ReadsIn region (next first.value) := by
  exact List.forall_mem_append

end Traced
