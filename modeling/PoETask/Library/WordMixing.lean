import PoETask.Library.Bytes
import Mathlib.Data.BitVec

/-!
# Mixing words

Words of a fixed width put together from bytes, and the steps that hash functions mix
them with: a product with an invertible word, and a word combined with its own bits from
further up. Both lose nothing.
-/

namespace PoETask.Library

section Mixing

variable {width : ℕ}

/-- Multiplying by an invertible word loses nothing. -/
theorem mul_injective_of_inverse {factor inverse : BitVec width} (unit : factor * inverse = 1) :
    Function.Injective fun word : BitVec width => word * factor := by
  intro word other same
  have undone := congrArg (· * inverse) same
  simp only [BitVec.mul_assoc, unit] at undone
  rwa [mul_one, mul_one] at undone

/-- The bits above a place determine themselves, so the word can be read off from the top. -/
theorem xorShift_injective {count : ℕ} (positive : 0 < count) :
    Function.Injective fun word : BitVec width => word ^^^ (word >>> count) := by
  intro word other same
  have bits : ∀ below i, width - below ≤ i → word.getLsbD i = other.getLsbD i := by
    intro below
    induction below with
    | zero =>
        intro i atLeast
        rw [BitVec.getLsbD_of_ge word i (by omega), BitVec.getLsbD_of_ge other i (by omega)]
    | succ below ih =>
        intro i atLeast
        have above : word.getLsbD (count + i) = other.getLsbD (count + i) := ih _ (by omega)
        have bit := congrArg (fun mixed : BitVec width => mixed.getLsbD i) same
        simp only [BitVec.getLsbD_xor, BitVec.getLsbD_ushiftRight, above] at bit
        exact Bool.xor_left_inj.mp bit
  apply BitVec.eq_of_getLsbD_eq
  intro i _
  exact bits width i (by omega)

end Mixing

/-- The word with the given bytes, the lowest first. -/
def wordOf (width : ℕ) (bytes : List UInt8) : BitVec width := BitVec.ofNat width (leValue bytes)

section Words

variable {width : ℕ}

theorem leValue_append (low high : List UInt8) :
    leValue (low ++ high) = leValue low + 256 ^ low.length * leValue high := by
  induction low with
  | nil => simp [leValue]
  | cons byte rest ih =>
      simp only [List.cons_append, leValue, ih, List.length_cons, pow_succ']
      ring

theorem leValue_drop (bytes : List UInt8) (count : ℕ) :
    leValue (bytes.drop count) = leValue bytes / 256 ^ count := by
  induction bytes generalizing count with
  | nil => simp [leValue]
  | cons byte rest ih =>
      cases count with
      | zero => simp
      | succ count =>
          have byte_lt : byte.toNat < 256 := byte.toNat_lt
          have rest_eq : (byte.toNat + 256 * leValue rest) / 256 = leValue rest := by omega
          rw [List.drop_succ_cons, ih, leValue, pow_succ', ← Nat.div_div_eq_div_mul, rest_eq]

theorem leValue_lt_two_pow (bytes : List UInt8) : leValue bytes < 2 ^ (8 * bytes.length) := by
  rw [pow_mul]
  exact leValue_lt bytes

theorem toNat_wordOf {bytes : List UInt8} (fits : 8 * bytes.length ≤ width) :
    (wordOf width bytes).toNat = leValue bytes := by
  rw [wordOf, BitVec.toNat_ofNat]
  apply Nat.mod_eq_of_lt
  calc
    leValue bytes < 2 ^ (8 * bytes.length) := leValue_lt_two_pow bytes
    _ ≤ 2 ^ width := Nat.pow_le_pow_right Nat.two_pos fits

theorem wordOf_append (low high : List UInt8) :
    wordOf width (low ++ high) =
      wordOf width low + wordOf width high <<< (8 * low.length) := by
  apply BitVec.eq_of_toNat_eq
  simp only [wordOf, leValue_append, BitVec.toNat_add, BitVec.toNat_ofNat, BitVec.toNat_shiftLeft,
    Nat.shiftLeft_eq, pow_mul, Nat.mod_mul_mod, Nat.add_mod_mod, Nat.mod_add_mod]
  rw [mul_comm]
  rfl

/-- Words that share no bit. -/
theorem wordOf_and_shiftLeft (bytes : List UInt8) (word : BitVec width) :
    wordOf width bytes &&& word <<< (8 * bytes.length) = 0 := by
  apply BitVec.eq_of_getLsbD_eq
  intro i _
  by_cases low : i < 8 * bytes.length
  · simp [low]
  · have bytes_lt : leValue bytes < 2 ^ i :=
      (leValue_lt_two_pow bytes).trans_le (Nat.pow_le_pow_right Nat.two_pos (by omega))
    simp [wordOf, BitVec.getLsbD_ofNat, Nat.testBit_lt_two_pow bytes_lt]

theorem or_shiftLeft_wordOf (low : List UInt8) (word : BitVec width) :
    wordOf width low ||| word <<< (8 * low.length) =
      wordOf width low + word <<< (8 * low.length) :=
  (BitVec.add_eq_or_of_and_eq_zero _ _ (wordOf_and_shiftLeft low word)).symm

theorem or_shiftLeft_wordOf_append (low high : List UInt8) :
    wordOf width low ||| wordOf width high <<< (8 * low.length) = wordOf width (low ++ high) := by
  rw [or_shiftLeft_wordOf, wordOf_append]

theorem wordOf_cons (byte : UInt8) (rest : List UInt8) :
    wordOf width (byte :: rest) = wordOf width [byte] ||| wordOf width rest <<< 8 :=
  (or_shiftLeft_wordOf_append [byte] rest).symm

theorem wordOf_cons_xor (byte : UInt8) (rest : List UInt8) :
    wordOf width (byte :: rest) = wordOf width [byte] ^^^ wordOf width rest <<< 8 := by
  have apart : wordOf width [byte] &&& wordOf width rest <<< 8 = BitVec.ofNat width 0 :=
    wordOf_and_shiftLeft [byte] (wordOf width rest)
  rw [wordOf_cons]
  apply BitVec.eq_of_getLsbD_eq
  intro i i_lt
  have bit := congrArg (fun word : BitVec width => word.getLsbD i) apart
  simp only [BitVec.getLsbD_and, BitVec.getLsbD_zero] at bit
  rw [BitVec.getLsbD_or, BitVec.getLsbD_xor]
  cases low : (wordOf width [byte]).getLsbD i with
  | false => rw [Bool.false_or, Bool.false_xor]
  | true =>
      rw [low, Bool.true_and] at bit
      rw [bit]
      rfl

/-- Bytes beyond the width do not count. -/
theorem wordOf_take (bytes : List UInt8) (count : ℕ) :
    wordOf (8 * count) (bytes.take count) = wordOf (8 * count) bytes := by
  by_cases long : count ≤ bytes.length
  · have split := @wordOf_append (8 * count) (bytes.take count) (bytes.drop count)
    rw [List.take_append_drop, List.length_take, Nat.min_eq_left long,
      BitVec.shiftLeft_eq_zero le_rfl, BitVec.add_zero] at split
    exact split.symm
  · rw [List.take_of_length_le (by omega)]

theorem wordOf_shiftRight {bytes : List UInt8} (fits : 8 * bytes.length ≤ width) (count : ℕ) :
    wordOf width bytes >>> (8 * count) = wordOf width (bytes.drop count) := by
  have dropFits : 8 * (bytes.drop count).length ≤ width := by
    rw [List.length_drop]
    omega
  apply BitVec.eq_of_toNat_eq
  rw [BitVec.toNat_ushiftRight, toNat_wordOf fits, toNat_wordOf dropFits, leValue_drop,
    Nat.shiftRight_eq_div_pow, pow_mul]
  rfl

theorem wordOf_shiftLeft_shiftRight {bytes : List UInt8} {count : ℕ}
    (fits : 8 * bytes.length + count ≤ width) :
    wordOf width bytes <<< count >>> count = wordOf width bytes := by
  have bytesFit : 8 * bytes.length ≤ width := by omega
  have shifted_lt : leValue bytes * 2 ^ count < 2 ^ width := by
    calc
      leValue bytes * 2 ^ count < 2 ^ (8 * bytes.length) * 2 ^ count :=
        Nat.mul_lt_mul_of_pos_right (leValue_lt_two_pow bytes) (Nat.two_pow_pos count)
      _ = 2 ^ (8 * bytes.length + count) := (pow_add 2 _ _).symm
      _ ≤ 2 ^ width := Nat.pow_le_pow_right Nat.two_pos fits
  apply BitVec.eq_of_toNat_eq
  rw [BitVec.toNat_ushiftRight, BitVec.toNat_shiftLeft, toNat_wordOf bytesFit, Nat.shiftLeft_eq,
    Nat.mod_eq_of_lt shifted_lt, Nat.shiftRight_eq_div_pow,
    Nat.mul_div_cancel _ (Nat.two_pow_pos count)]

theorem wordOf_injective {bytes others : List UInt8} (fits : 8 * bytes.length ≤ width)
    (sameLength : bytes.length = others.length)
    (same : wordOf width bytes = wordOf width others) : bytes = others := by
  have value_eq : leValue bytes = leValue others := by
    rw [← toNat_wordOf fits, same, toNat_wordOf (sameLength ▸ fits)]
  rw [← leBytes_leValue bytes, ← leBytes_leValue others, value_eq, sameLength]

end Words

end PoETask.Library
