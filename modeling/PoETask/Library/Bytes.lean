import Mathlib.Data.List.TakeWhile
import Mathlib.Tactic.Ring

/-!
# Byte blocks

Little-endian words over byte lists, and reads and writes of blocks inside a
memory of fixed size.

`overwrite` replaces a block and leaves everything around it alone; its rules
ask that the block fits, so a program model guards it by that bound. The read
rules are stated for a memory that is known to continue with a given block,
which is how a reader meets what a writer left.
-/

namespace PoETask.Library

universe u

section Words

/-- The `width` low-order bytes of a value, least significant byte first. -/
def leBytes : ℕ → ℕ → List UInt8
  | 0, _ => []
  | width + 1, value => UInt8.ofNat value :: leBytes width (value / 256)

def leValue : List UInt8 → ℕ
  | [] => 0
  | byte :: rest => byte.toNat + 256 * leValue rest

@[simp]
theorem length_leBytes (width value : ℕ) : (leBytes width value).length = width := by
  induction width generalizing value with
  | zero => rfl
  | succ width ih => simp [leBytes, ih]

theorem leValue_leBytes (width value : ℕ) :
    leValue (leBytes width value) = value % 256 ^ width := by
  induction width generalizing value with
  | zero => simp [leBytes, leValue, Nat.mod_one]
  | succ width ih =>
      simp only [leBytes, leValue, ih]
      simp only [pow_succ', Nat.mod_mul]
      simp

theorem leBytes_leValue (bytes : List UInt8) :
    leBytes bytes.length (leValue bytes) = bytes := by
  induction bytes with
  | nil => rfl
  | cons byte rest ih =>
      have byteLt : byte.toNat < 256 := byte.toNat_lt
      have quotient : (byte.toNat + 256 * leValue rest) / 256 = leValue rest := by omega
      have head : UInt8.ofNat (byte.toNat + 256 * leValue rest) = byte := by
        apply UInt8.toNat_inj.mp
        simp only [UInt8.toNat_ofNat']
        omega
      simp only [leValue, List.length_cons, leBytes, quotient, ih, head]

theorem leValue_lt (bytes : List UInt8) : leValue bytes < 256 ^ bytes.length := by
  induction bytes with
  | nil => exact Nat.one_pos
  | cons byte rest ih =>
      have byteLt : byte.toNat < 256 := byte.toNat_lt
      rw [leValue, List.length_cons, pow_succ']
      omega

end Words

section Memory

variable {α : Type u}

/-- Overwrite a block of the memory from an offset on. -/
def overwrite (memory : List α) (offset : ℕ) (block : List α) : List α :=
  memory.take offset ++ block ++ memory.drop (offset + block.length)

def readAt (memory : List α) (offset size : ℕ) : List α :=
  (memory.drop offset).take size

theorem length_overwrite {memory block : List α} {offset : ℕ}
    (fits : offset + block.length ≤ memory.length) :
    (overwrite memory offset block).length = memory.length := by
  simp only [overwrite, List.length_append, List.length_take, List.length_drop]
  omega

/-- Writing at the end of a prefix extends that prefix by the block. -/
theorem take_add_overwrite {memory block : List α} {offset : ℕ}
    (fits : offset + block.length ≤ memory.length) :
    (overwrite memory offset block).take (offset + block.length) =
      memory.take offset ++ block := by
  have prefixLength : (memory.take offset ++ block).length = offset + block.length := by
    simp only [List.length_append, List.length_take]
    omega
  exact List.take_left' prefixLength

/-- A block inside a prefix may be written before or after cutting the memory. -/
theorem take_overwrite_of_le {memory block : List α} {offset count : ℕ}
    (inside : offset + block.length ≤ count) (fits : count ≤ memory.length) :
    (overwrite memory offset block).take count = overwrite (memory.take count) offset block := by
  have prefixLength : (memory.take offset ++ block).length = offset + block.length := by
    simp only [List.length_append, List.length_take]
    omega
  obtain ⟨extra, rfl⟩ := Nat.exists_eq_add_of_le inside
  simp only [overwrite]
  rw [← prefixLength, List.take_length_add_append, prefixLength, List.take_take,
    Nat.min_eq_left (by omega : offset ≤ offset + block.length + extra),
    List.drop_take, Nat.add_sub_cancel_left]

/-- A block that is written further on does not change what is read. -/
theorem readAt_overwrite_of_le {memory block : List α} {offset start size : ℕ}
    (before : start + size ≤ offset) (fits : offset ≤ memory.length) :
    readAt (overwrite memory offset block) start size = readAt memory start size := by
  simp only [readAt, overwrite, List.append_assoc]
  rw [List.drop_append_of_le_length (by simp only [List.length_take]; omega),
    List.take_append_of_le_length (by simp only [List.length_drop, List.length_take]; omega),
    List.drop_take, List.take_take, Nat.min_eq_left (by omega)]

theorem readAt_of_drop_eq {memory block tail : List α} {offset : ℕ}
    (continues : memory.drop offset = block ++ tail) :
    readAt memory offset block.length = block := by
  simp [readAt, continues]

end Memory

end PoETask.Library
