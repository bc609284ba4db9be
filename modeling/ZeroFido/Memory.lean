import ZeroFido.Cbor.Primitives

/-!
# Bytes in memory

The bytes in a range of addresses, and what a copy to a range leaves in it and in the ranges beside
it.
-/

set_option autoImplicit false
set_option relaxedAutoImplicit false

namespace ZeroFido

open Cbor

/-- The bytes from an address on. -/
def readMemory (memory : ℕ → UInt8) (start length : ℕ) : Bytes :=
  (List.range length).map fun index ↦ memory (start + index)

/-- `memmove` of a range to an address, which may be in the range. -/
def memmove (memory : ℕ → UInt8) (start source length : ℕ) : ℕ → UInt8 :=
  memcpy memory start (readMemory memory source length)

variable {memory : ℕ → UInt8} {start source length : ℕ} {data : Bytes}

@[simp]
theorem length_readMemory (memory : ℕ → UInt8) (start length : ℕ) :
    (readMemory memory start length).length = length := by
  simp [readMemory]

theorem readMemory_append (memory : ℕ → UInt8) (start first second : ℕ) :
    readMemory memory start (first + second) =
      readMemory memory start first ++ readMemory memory (start + first) second := by
  simp only [readMemory, List.range_add, List.map_append, List.map_map, Nat.add_assoc]
  rfl

/-- A part of what stands in memory. -/
theorem readMemory_part (h : readMemory memory start length = data) {offset count : ℕ}
    (hinside : offset + count ≤ length) :
    readMemory memory (start + offset) count = (data.drop offset).take count := by
  obtain ⟨after, rfl⟩ := Nat.exists_eq_add_of_le hinside
  rw [← h, readMemory_append, readMemory_append, List.append_assoc,
    List.drop_left' (length_readMemory _ _ _), List.take_left' (length_readMemory _ _ _)]

/-- The range that was copied to has the data. -/
theorem readMemory_memcpy (memory : ℕ → UInt8) (start : ℕ) (data : Bytes) :
    readMemory (memcpy memory start data) start data.length = data := by
  refine List.ext_getElem (by simp) fun index hleft hright ↦ ?_
  simp [readMemory, memcpy, hright]

/-- A range beside the one that was copied to is as it was. -/
theorem readMemory_memcpy_of_disjoint
    (h : source + length ≤ start ∨ start + data.length ≤ source) :
    readMemory (memcpy memory start data) source length = readMemory memory source length := by
  refine List.map_congr_left fun index hindex ↦ ?_
  have hindex := List.mem_range.mp hindex
  rcases h with hbelow | habove
  · exact memcpy_of_lt data (by omega)
  · exact memcpy_of_le data (by omega)

/-- Two copies in a row are one copy of the data together. -/
theorem readMemory_memcpy_append (memory : ℕ → UInt8) (start : ℕ) (first second : Bytes) :
    readMemory (memcpy (memcpy memory start first) (start + first.length) second) start
      (first.length + second.length) = first ++ second := by
  rw [readMemory_append, readMemory_memcpy_of_disjoint (Or.inl le_rfl), readMemory_memcpy,
    readMemory_memcpy]

end ZeroFido
