import PoETask.Library.WordMixing

/-!
# The hash of object names

`MurmurHash2`, by which the resources of objects are found, and its two variants that read
the key byte by byte and at aligned addresses only. A key is the list of its bytes; its
length fits an `int`.
-/

namespace PoETask.Attach

open PoETask.Library

namespace MurmurHash

/-- `m`, a mixing constant. -/
def factor : BitVec 32 := 0x5bd1e995

/-- `r`. -/
def keyShift : ℕ := 24

/-- `MIX`. -/
def mix (h k : BitVec 32) : BitVec 32 :=
  let k := k * factor
  let k := k ^^^ (k >>> keyShift)
  let k := k * factor
  let h := h * factor
  h ^^^ k

/-- The final mixes. -/
def finish (h : BitVec 32) : BitVec 32 :=
  let h := h ^^^ (h >>> 13)
  let h := h * factor
  h ^^^ (h >>> 15)

def promoted (byte : UInt8) : BitVec 32 := byte.toBitVec.setWidth 32

/-- `*(uint32_t *)data`. -/
def load (b0 b1 b2 b3 : UInt8) : BitVec 32 := wordOf 32 [b0, b1, b2, b3]

/-- The same word from its bytes, as `MurmurHashNeutral2` reads it. -/
def assemble (b0 b1 b2 b3 : UInt8) : BitVec 32 :=
  promoted b0 ||| promoted b1 <<< 8 ||| promoted b2 <<< 16 ||| promoted b3 <<< 24

/-- The last few bytes; every case falls through to the next. -/
def tail (h : BitVec 32) : List UInt8 → BitVec 32
  | [b0, b1, b2] => (h ^^^ promoted b2 <<< 16 ^^^ promoted b1 <<< 8 ^^^ promoted b0) * factor
  | [b0, b1] => (h ^^^ promoted b1 <<< 8 ^^^ promoted b0) * factor
  | [b0] => (h ^^^ promoted b0) * factor
  | _ => h

/-- Up to three bytes put into a register; every case falls through to the next. -/
def gather : List UInt8 → BitVec 32
  | [b0, b1, b2] => 0#32 ||| promoted b2 <<< 16 ||| promoted b1 <<< 8 ||| promoted b0
  | [b0, b1] => 0#32 ||| promoted b1 <<< 8 ||| promoted b0
  | [b0] => 0#32 ||| promoted b0
  | _ => 0

/-- Mix four bytes at a time, with the bytes that are left. -/
def bodyLoop (read : UInt8 → UInt8 → UInt8 → UInt8 → BitVec 32) (h : BitVec 32) :
    List UInt8 → BitVec 32 × List UInt8
  | b0 :: b1 :: b2 :: b3 :: data => bodyLoop read (mix h (read b0 b1 b2 b3)) data
  | data => (h, data)

def digest (read : UInt8 → UInt8 → UInt8 → UInt8 → BitVec 32) (h : BitVec 32)
    (data : List UInt8) : BitVec 32 :=
  finish (tail (bodyLoop read h data).1 (bodyLoop read h data).2)

def start (key : List UInt8) (seed : BitVec 32) : BitVec 32 := seed ^^^ BitVec.ofNat 32 key.length

def murmurHash2 (key : List UInt8) (seed : BitVec 32) : BitVec 32 :=
  digest load (start key seed) key

def murmurHashNeutral2 (key : List UInt8) (seed : BitVec 32) : BitVec 32 :=
  digest assemble (start key seed) key

/-- Aligned words, each shifted together with what is left of the one before. -/
def alignedLoop (align : ℕ) (t h : BitVec 32) :
    List UInt8 → BitVec 32 × BitVec 32 × List UInt8
  | b0 :: b1 :: b2 :: b3 :: data =>
      let d := load b0 b1 b2 b3
      let t := t >>> (8 * align) ||| d <<< (8 * (4 - align))
      alignedLoop align d (mix h t) data
  | data => (t, h, data)

/-- What is left in the registers after the loop, and the tail. -/
def alignedTail (align : ℕ) (t h : BitVec 32) (data : List UInt8) : BitVec 32 :=
  if align ≤ data.length then
    let d := gather (data.take align)
    let k := t >>> (8 * align) ||| d <<< (8 * (4 - align))
    finish (tail (mix h k) (data.drop align))
  else
    let d := gather data
    finish ((h ^^^ (t >>> (8 * align) ||| d <<< (8 * (4 - align)))) * factor)

/-- The key lies at the address. -/
def murmurHashAligned2 (address : UInt64) (key : List UInt8) (seed : BitVec 32) : BitVec 32 :=
  let h := start key seed
  let align := (address &&& 3).toNat
  if align ≠ 0 ∧ 4 ≤ key.length then
    let t := gather (key.take (4 - align)) <<< (8 * align)
    let mixed := alignedLoop align t h (key.drop (4 - align))
    alignedTail align mixed.1 mixed.2.1 mixed.2.2
  else
    digest load h key

theorem promoted_eq (byte : UInt8) : promoted byte = wordOf 32 [byte] := by
  apply BitVec.eq_of_toNat_eq
  have byte_lt : byte.toNat < 2 ^ 32 := byte.toNat_lt.trans (by decide)
  rw [toNat_wordOf (by simp), promoted, BitVec.toNat_setWidth]
  simp only [leValue, UInt8.toNat_toBitVec, mul_zero, add_zero]
  exact Nat.mod_eq_of_lt byte_lt

theorem wordOf_three (b0 b1 b2 : UInt8) : wordOf 32 [b0, b1, b2] =
    wordOf 32 [b0] ||| wordOf 32 [b1] <<< 8 ||| wordOf 32 [b2] <<< 16 := by
  rw [wordOf_cons b0 [b1, b2], wordOf_cons b1 [b2], BitVec.shiftLeft_or_distrib,
    ← BitVec.shiftLeft_add, BitVec.or_assoc]

theorem assemble_eq_load : assemble = load := by
  funext b0 b1 b2 b3
  simp only [assemble, load, promoted_eq]
  rw [wordOf_cons b0 [b1, b2, b3], wordOf_three, BitVec.shiftLeft_or_distrib,
    BitVec.shiftLeft_or_distrib, ← BitVec.shiftLeft_add, ← BitVec.shiftLeft_add,
    BitVec.or_assoc, BitVec.or_assoc, BitVec.or_assoc]

theorem gather_eq {bytes : List UInt8} (few : bytes.length < 4) :
    gather bytes = wordOf 32 bytes := by
  match bytes, few with
  | [], _ => rfl
  | [b0], _ => simp only [gather, BitVec.zero_or, promoted_eq]
  | [b0, b1], _ =>
      simp only [gather, BitVec.zero_or, promoted_eq]
      rw [wordOf_cons b0 [b1], BitVec.or_comm]
  | [b0, b1, b2], _ =>
      simp only [gather, BitVec.zero_or, promoted_eq, wordOf_three]
      rw [BitVec.or_comm _ (wordOf 32 [b0]), BitVec.or_comm (wordOf 32 [b2] <<< 16),
        BitVec.or_assoc]

theorem tail_eq {data : List UInt8} (isLeft : data ≠ []) (few : data.length < 4)
    (h : BitVec 32) : tail h data = (h ^^^ wordOf 32 data) * factor := by
  match data, few with
  | [b0], _ => simp only [tail, promoted_eq]
  | [b0, b1], _ =>
      simp only [tail, promoted_eq]
      rw [wordOf_cons_xor b0 [b1], BitVec.xor_assoc, BitVec.xor_comm (wordOf 32 [b0])]
  | [b0, b1, b2], _ =>
      simp only [tail, promoted_eq]
      rw [wordOf_cons_xor b0 [b1, b2], wordOf_cons_xor b1 [b2], BitVec.shiftLeft_xor_distrib,
        ← BitVec.shiftLeft_add, BitVec.xor_assoc, BitVec.xor_assoc,
        BitVec.xor_comm (wordOf 32 [b2] <<< 16), BitVec.xor_comm _ (wordOf 32 [b0]),
        BitVec.xor_assoc]

section Aligned

variable {align : ℕ} {t h : BitVec 32} {pending data : List UInt8}

theorem bodyLoop_block {block : List UInt8} (isBlock : block.length = 4) (h : BitVec 32)
    (data : List UInt8) :
    bodyLoop load h (block ++ data) = bodyLoop load (mix h (wordOf 32 block)) data := by
  match block, isBlock with
  | [b0, b1, b2, b3], _ => rfl

theorem bodyLoop_few (few : data.length < 4) (h : BitVec 32) :
    bodyLoop load h data = (h, data) := by
  match data, few with
  | [], _ => rfl
  | [_], _ => rfl
  | [_, _], _ => rfl
  | [_, _, _], _ => rfl

/-- Where no loop finds four bytes, there are fewer. -/
theorem length_lt_of_short
    (short : ∀ b0 b1 b2 b3 rest, data = b0 :: b1 :: b2 :: b3 :: rest → False) :
    data.length < 4 := by
  match data, short with
  | [], _ => exact Nat.zero_lt_succ 3
  | [_], _ => exact Nat.one_lt_succ_succ 2
  | [_, _], _ => exact (by decide : 2 < 4)
  | [_, _, _], _ => exact (by decide : 3 < 4)
  | b0 :: b1 :: b2 :: b3 :: rest, short => exact (short b0 b1 b2 b3 rest rfl).elim

/-- The bytes of the key that are still in the register `t`. -/
structure Pending (align : ℕ) (t : BitVec 32) (pending : List UInt8) : Prop where
  align_lt : align < 4
  length_eq : pending.length = 4 - align
  shifted : t >>> (8 * align) = wordOf 32 pending

/-- The register and the next bytes make up the word at the unaligned address. -/
theorem Pending.join (isPending : Pending align t pending) (next : List UInt8) :
    t >>> (8 * align) ||| wordOf 32 next <<< (8 * (4 - align)) =
      wordOf 32 (pending ++ next.take align) := by
  rw [isPending.shifted, ← isPending.length_eq, or_shiftLeft_wordOf_append]
  have cut := wordOf_take (pending ++ next) 4
  have take_eq : (pending ++ next).take 4 = pending ++ next.take align := by
    have align_lt := isPending.align_lt
    have length_eq := isPending.length_eq
    rw [List.take_append, List.take_of_length_le (by omega), length_eq]
    congr 2
    omega
  rw [take_eq] at cut
  exact cut.symm

theorem pending_preload {align : ℕ} {key : List UInt8} (positive : 0 < align) (align_lt : align < 4)
    (long : 4 ≤ key.length) :
    Pending align (gather (key.take (4 - align)) <<< (8 * align)) (key.take (4 - align)) where
  align_lt := align_lt
  length_eq := by
    rw [List.length_take]
    omega
  shifted := by
    have length_eq : (key.take (4 - align)).length = 4 - align := by
      rw [List.length_take]
      omega
    rw [gather_eq (by omega), wordOf_shiftLeft_shiftRight (by omega)]

theorem pending_load (align_lt : align < 4) (b0 b1 b2 b3 : UInt8) :
    Pending align (load b0 b1 b2 b3) ([b0, b1, b2, b3].drop align) where
  align_lt := align_lt
  length_eq := by
    rw [List.length_drop]
    rfl
  shifted := wordOf_shiftRight (by simp) align

/-- The loop over aligned words mixes what the plain loop mixes, four bytes at most behind. -/
theorem alignedLoop_spec (isPending : Pending align t pending) :
    ∃ pending', Pending align (alignedLoop align t h data).1 pending' ∧
      (alignedLoop align t h data).2.2.length < 4 ∧
      bodyLoop load h (pending ++ data) =
        bodyLoop load (alignedLoop align t h data).2.1
          (pending' ++ (alignedLoop align t h data).2.2) := by
  induction t, h, data using alignedLoop.induct align generalizing pending with
  | case1 t h b0 b1 b2 b3 data d joined =>
      rename_i ih
      rcases ih (pending_load isPending.align_lt b0 b1 b2 b3) with
        ⟨pending', nextPending, few, same⟩
      refine ⟨pending', nextPending, few, ?_⟩
      have split : pending ++ b0 :: b1 :: b2 :: b3 :: data =
          (pending ++ [b0, b1, b2, b3].take align) ++ ([b0, b1, b2, b3].drop align ++ data) := by
        rw [List.append_assoc, ← List.append_assoc (List.take _ _), List.take_append_drop]
        rfl
      have isBlock : (pending ++ [b0, b1, b2, b3].take align).length = 4 := by
        have align_lt := isPending.align_lt
        have length_eq := isPending.length_eq
        simp only [List.length_append, List.length_take, List.length_cons, List.length_nil]
        omega
      have joined_eq : joined = wordOf 32 (pending ++ [b0, b1, b2, b3].take align) :=
        isPending.join [b0, b1, b2, b3]
      rw [split, bodyLoop_block isBlock, ← joined_eq]
      exact same
  | case2 t h data short =>
      have few := length_lt_of_short short
      have done : alignedLoop align t h data = (t, h, data) := by
        rw [alignedLoop]
        exact short
      rw [done]
      exact ⟨pending, isPending, few, rfl⟩

/-- The registers left after the loop are mixed in as the bytes they hold. -/
theorem alignedTail_eq (isPending : Pending align t pending) (positive : 0 < align)
    (few : data.length < 4) : alignedTail align t h data = digest load h (pending ++ data) := by
  have align_lt := isPending.align_lt
  have length_eq := isPending.length_eq
  simp only [alignedTail, digest]
  split
  · rename_i enough
    have taken : (data.take align).length < 4 := by
      rw [List.length_take]
      omega
    have isBlock : (pending ++ data.take align).length = 4 := by
      rw [List.length_append, List.length_take]
      omega
    have dropped : (data.drop align).length < 4 := by
      rw [List.length_drop]
      omega
    have split : pending ++ data = (pending ++ data.take align) ++ data.drop align := by
      rw [List.append_assoc, List.take_append_drop]
    rw [gather_eq taken, isPending.join, List.take_take, Nat.min_self, split,
      bodyLoop_block isBlock, bodyLoop_few dropped]
  · rename_i short
    have whole : (pending ++ data).length < 4 := by
      rw [List.length_append]
      omega
    have isLeft : pending ++ data ≠ [] := by
      intro isNil
      have := congrArg List.length isNil
      rw [List.length_append, List.length_nil] at this
      omega
    rw [gather_eq few, isPending.join, List.take_of_length_le (by omega), bodyLoop_few whole,
      tail_eq isLeft whole]

end Aligned

/-- Wherever the key lies, the three ways of reading it give one hash. -/
theorem murmurHash2_variants (address : UInt64) (key : List UInt8) (seed : BitVec 32) :
    murmurHashAligned2 address key seed = murmurHash2 key seed ∧
      murmurHashNeutral2 key seed = murmurHash2 key seed := by
  constructor
  · have align_lt : (address &&& 3).toNat < 4 := by
      rw [UInt64.toNat_and]
      exact Nat.and_lt_two_pow _ (by decide : (3 : UInt64).toNat < 2 ^ 2)
    simp only [murmurHashAligned2, murmurHash2]
    split
    · rename_i unaligned
      rcases unaligned with ⟨nonzero, long⟩
      have positive := Nat.pos_of_ne_zero nonzero
      have preloaded := pending_preload positive align_lt long
      rcases @alignedLoop_spec _ _ (start key seed) _ (key.drop (4 - (address &&& 3).toNat))
        preloaded with ⟨pending, isPending, few, same⟩
      rw [alignedTail_eq isPending positive few]
      simp only [digest]
      rw [← same, List.take_append_drop]
    · rfl
  · rw [murmurHashNeutral2, murmurHash2, assemble_eq_load]

section Collisions

variable {h other : BitVec 32} {data block others : List UInt8}

theorem mul_factor_injective : Function.Injective fun word : BitVec 32 => word * factor :=
  mul_injective_of_inverse (by decide : factor * 0xe59b19bd = 1)

theorem mix_injective (h : BitVec 32) : Function.Injective (mix h) := by
  intro k k' same
  simp only [mix, BitVec.xor_right_inj] at same
  have shifted := mul_factor_injective same
  exact mul_factor_injective (xorShift_injective (by decide) shifted)

theorem mix_injective_left (k : BitVec 32) : Function.Injective fun h => mix h k := by
  intro h h' same
  simp only [mix, BitVec.xor_left_inj] at same
  exact mul_factor_injective same

theorem finish_injective : Function.Injective finish := by
  intro h h' same
  simp only [finish] at same
  have product := xorShift_injective (by decide) same
  exact xorShift_injective (by decide) (mul_factor_injective product)

theorem tail_injective (few : data.length < 4) : Function.Injective fun h => tail h data := by
  intro h h' same
  cases data with
  | nil => exact same
  | cons byte rest =>
      simp only [tail_eq (List.cons_ne_nil byte rest) few] at same
      exact (BitVec.xor_left_inj _).mp (mul_factor_injective same)

theorem tail_injective_right (sameLength : block.length = others.length) (few : block.length < 4)
    (same : tail h block = tail h others) : block = others := by
  cases block with
  | nil => exact (List.eq_nil_of_length_eq_zero sameLength.symm).symm
  | cons byte rest =>
      have isLeft : others ≠ [] := by
        intro isNil
        rw [isNil] at sameLength
        cases sameLength
      rw [tail_eq (List.cons_ne_nil byte rest) few, tail_eq isLeft (sameLength ▸ few)] at same
      have word_eq := (BitVec.xor_right_inj h).mp (mul_factor_injective same)
      exact wordOf_injective (by omega) sameLength word_eq

theorem digest_few (few : data.length < 4) (h : BitVec 32) :
    digest load h data = finish (tail h data) := by
  rw [digest, bodyLoop_few few]

theorem digest_block (isBlock : block.length = 4) (h : BitVec 32) (data : List UInt8) :
    digest load h (block ++ data) = digest load (mix h (wordOf 32 block)) data := by
  rw [digest, bodyLoop_block isBlock, digest]

/-- A prefix of whole blocks only changes the state of the hash. -/
theorem digest_blocks (blocks : ℕ) {before : List UInt8} (aligned : before.length = 4 * blocks)
    (h : BitVec 32) : ∃ h', ∀ data, digest load h (before ++ data) = digest load h' data := by
  induction blocks generalizing before h with
  | zero =>
      have isNil := List.eq_nil_of_length_eq_zero aligned
      rw [isNil]
      exact ⟨h, fun data => rfl⟩
  | succ blocks ih =>
      have isBlock : (before.take 4).length = 4 := by
        rw [List.length_take]
        omega
      have rest_aligned : (before.drop 4).length = 4 * blocks := by
        rw [List.length_drop]
        omega
      rcases ih rest_aligned (mix h (wordOf 32 (before.take 4))) with ⟨h', same⟩
      refine ⟨h', fun data => ?_⟩
      rw [← same, ← digest_block isBlock, ← List.append_assoc, List.take_append_drop]

/-- The state of the hash is never lost. -/
theorem digest_injective (data : List UInt8) : Function.Injective fun h => digest load h data := by
  intro h h' same
  induction h, data using bodyLoop.induct load generalizing h' with
  | case1 h b0 b1 b2 b3 data ih =>
      have mixed : mix h (load b0 b1 b2 b3) = mix h' (load b0 b1 b2 b3) := ih same
      exact mix_injective_left _ mixed
  | case2 h data short =>
      have few := length_lt_of_short short
      simp only [digest_few few] at same
      exact tail_injective few (finish_injective same)

/-- Different seeds give a key different hashes. -/
theorem murmurHash2_seed_injective (key : List UInt8) :
    Function.Injective fun seed => murmurHash2 key seed := by
  intro seed seed' same
  exact (BitVec.xor_left_inj _).mp (digest_injective key same)

/-- Keys that differ in one block of four bytes, or in the last few bytes, have different
hashes. -/
theorem murmurHash2_ne {before block others after : List UInt8} {seed : BitVec 32}
    (aligned : 4 ∣ before.length) (sameLength : block.length = others.length)
    (part : block.length = 4 ∨ block.length < 4 ∧ after = []) (different : block ≠ others) :
    murmurHash2 (before ++ block ++ after) seed ≠
      murmurHash2 (before ++ others ++ after) seed := by
  intro same
  apply different
  have start_eq :
      start (before ++ block ++ after) seed = start (before ++ others ++ after) seed := by
    simp only [start, List.length_append, sameLength]
  rcases aligned with ⟨blocks, before_eq⟩
  rw [murmurHash2, murmurHash2, start_eq, List.append_assoc, List.append_assoc] at same
  rcases digest_blocks blocks before_eq (start (before ++ (others ++ after)) seed) with
    ⟨h, reduce⟩
  rw [reduce, reduce] at same
  rcases part with isBlock | ⟨few, noAfter⟩
  · rw [digest_block isBlock, digest_block (sameLength ▸ isBlock)] at same
    have word_eq := mix_injective h (digest_injective after same)
    exact wordOf_injective (by omega) sameLength word_eq
  · rw [noAfter, List.append_nil, List.append_nil, digest_few few,
      digest_few (sameLength ▸ few)] at same
    exact tail_injective_right sameLength few (finish_injective same)

theorem murmurHash2_ne_names :
    murmurHash2 ([77, 111, 110, 115] ++ [116, 101, 114, 49] ++ [64]) 0 ≠
      murmurHash2 ([77, 111, 110, 115] ++ [116, 101, 114, 50] ++ [64]) 0 :=
  murmurHash2_ne (by decide) rfl (.inl rfl) (by decide)

end Collisions

end MurmurHash

end PoETask.Attach
