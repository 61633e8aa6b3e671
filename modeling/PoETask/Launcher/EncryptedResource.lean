import PoETask.Library.Bytes
import PoETask.Library.LocalLoops
import PoETask.Wire.ReaderBounds
import Mathlib.Data.List.GetD

/-!
# Encrypted resources

`EncryptBlock` of the resource tool puts forty random bytes in front of the length and the data, and
chains every byte to the one before. The launcher's `DecryptBlock` undoes the chain from byte 40 on,
but for as many bytes as the whole block has: it goes on for forty bytes behind the block, and what
it decodes from them is not used. It moves as many bytes as the decoded length says.

A memory is a function of the index. The bytes behind a block are arbitrary.
-/

namespace PoETask.Launcher

open Library LocalLoops Wire

section Encrypt

variable (rand : ℕ → ℕ) (buffer : List UInt8) (outputbuffer : ℕ → UInt8)

/-- The loops of `EncryptBlock`; `rand` numbers the results of the calls. -/
def encryptLoops : ℕ → UInt8 :=
  let temp := leBytes 4 buffer.length ++ buffer
  let outputbuffer := (List.range' 0 40).foldl
    (fun outputbuffer i => Function.update outputbuffer i (.ofNat (rand i % 0x80))) outputbuffer
  let outputbuffer := Function.update outputbuffer 40 (temp.getD 0 0)
  (List.range' 41 (buffer.length + 4 + 40 - 41)).foldl
    (fun outputbuffer i =>
      Function.update outputbuffer i (temp.getD (i - 40) 0 ^^^ outputbuffer (i - 1)))
    outputbuffer

/-- The block that `EncryptBlock` returns. There is none when its length is no `int`. -/
def encryptBlock : Option (List UInt8) :=
  let nOutLen := buffer.length + 4 + 40
  if nOutLen < 2 ^ 31 then some ((List.range nOutLen).map (encryptLoops rand buffer outputbuffer))
  else none

end Encrypt

/-- `*(int *)`. -/
def intAt (memory : ℕ → UInt8) (start : ℕ) : ℤ :=
  (leValue ((List.range' start 4).map memory) : ℤ).bmod (2 ^ 32)

/-- An `int` as the `size_t` of a call. -/
def sizeT (size : ℤ) : ℕ := (size % 2 ^ 64).toNat

def memmove (memory : ℕ → UInt8) (dest src size : ℕ) : ℕ → UInt8 :=
  fun i => if dest ≤ i ∧ i < dest + size then memory (src + (i - dest)) else memory i

section Decrypt

variable (pbBlock : ℕ → UInt8) (nLen : ℕ) (pbBuffer : ℕ → UInt8)

/-- The bytes before the move. -/
def unchained : ℕ → UInt8 :=
  (List.range' 1 (nLen - 1)).foldl
    (fun pbBuffer i =>
      Function.update pbBuffer i (pbBlock (40 + i) ^^^ pbBlock (40 + i - 1)))
    (Function.update pbBuffer 0 (pbBlock 40))

structure Decrypted where
  pbBuffer : ℕ → UInt8
  nOutLen : ℤ

def decryptBlock : Decrypted :=
  let pbBuffer := unchained pbBlock nLen pbBuffer
  let nOutLen := intAt pbBuffer 0
  { pbBuffer := memmove pbBuffer 0 4 (sizeT nOutLen)
    nOutLen }

/-- The bytes of the block that `DecryptBlock` reads. -/
def blockAccesses : List ℕ :=
  40 :: (List.range' 1 (nLen - 1)).flatMap fun i => [40 + i, 40 + i - 1]

/-- What `DecryptBlock` reads and writes of the buffer that it allocates. -/
def bufferAccesses : List Access :=
  let size := sizeT (decryptBlock pbBlock nLen pbBuffer).nOutLen
  ⟨0, 1⟩ :: (List.range' 1 (nLen - 1)).map (⟨·, 1⟩) ++ [⟨0, 4⟩, ⟨4, size⟩, ⟨0, size⟩]

end Decrypt

/-- A block in memory, with whatever follows it. -/
def inMemory (block : List UInt8) (following : ℕ → UInt8) : ℕ → UInt8 :=
  fun i => block.getD i (following i)

/-- What `GetEncryptedResource` copies to its caller. -/
def getEncryptedResource (resource : List UInt8) (following pbBuffer : ℕ → UInt8)
    (bPlain : Bool) : List UInt8 :=
  if bPlain then resource
  else
    let plain := decryptBlock (inMemory resource following) resource.length pbBuffer
    (List.range (sizeT plain.nOutLen)).map plain.pbBuffer

section RoundTrip

variable {rand : ℕ → ℕ} {buffer block : List UInt8} {outputbuffer following pbBuffer : ℕ → UInt8}
  {pbBlock : ℕ → UInt8} {nLen i : ℕ}

theorem encryptBlock_eq_some_iff :
    encryptBlock rand buffer outputbuffer = some block ↔
      buffer.length + 44 < 2 ^ 31 ∧
        (List.range (buffer.length + 44)).map (encryptLoops rand buffer outputbuffer) = block := by
  unfold encryptBlock
  simp only [Option.ite_none_right_eq_some, Option.some.injEq, Nat.add_assoc, Nat.reduceAdd]

theorem encryptLoops_forty :
    encryptLoops rand buffer outputbuffer 40 = (leBytes 4 buffer.length ++ buffer).getD 0 0 := by
  unfold encryptLoops
  rw [foldl_written_outside (by omega), Function.update_self]

theorem encryptLoops_chained (isReached : 41 ≤ i ∧ i < buffer.length + 44) :
    encryptLoops rand buffer outputbuffer i
      = (leBytes 4 buffer.length ++ buffer).getD (i - 40) 0
        ^^^ encryptLoops rand buffer outputbuffer (i - 1) := by
  unfold encryptLoops
  apply foldl_written
  · intro memory other j isAfter agree
    rw [agree (j - 1) (by omega)]
  · omega

theorem unchained_zero : unchained pbBlock nLen pbBuffer 0 = pbBlock 40 := by
  unfold unchained
  rw [foldl_written_outside (by omega), Function.update_self]

theorem unchained_apply (isReached : 1 ≤ i ∧ i < nLen) :
    unchained pbBlock nLen pbBuffer i = pbBlock (40 + i) ^^^ pbBlock (40 + i - 1) := by
  unfold unchained
  apply foldl_written
  · exact fun _ _ => rfl
  · omega

theorem intAt_of_leBytes {memory : ℕ → UInt8} {start value : ℕ}
    (isWord : (List.range' start 4).map memory = leBytes 4 value) (isInt : value < 2 ^ 31) :
    intAt memory start = value := by
  unfold intAt
  rw [isWord, leValue_leBytes, Nat.mod_eq_of_lt (by omega)]
  exact Int.bmod_eq_of_le (by omega) (by omega)

theorem sizeT_natCast (small : i < 2 ^ 31) : sizeT i = i := by
  unfold sizeT
  omega

theorem nOutLen_decryptBlock :
    (decryptBlock pbBlock nLen pbBuffer).nOutLen
      = intAt (unchained pbBlock nLen pbBuffer) 0 := by
  simp only [decryptBlock]

theorem pbBuffer_decryptBlock :
    (decryptBlock pbBlock nLen pbBuffer).pbBuffer
      = memmove (unchained pbBlock nLen pbBuffer) 0 4
        (sizeT (decryptBlock pbBlock nLen pbBuffer).nOutLen) := by
  simp only [decryptBlock]

theorem length_encryptBlock (encrypted : encryptBlock rand buffer outputbuffer = some block) :
    block.length = buffer.length + 44 := by
  rcases encryptBlock_eq_some_iff.mp encrypted with ⟨_, rfl⟩
  rw [List.length_map, List.length_range]

theorem inMemory_encryptBlock (encrypted : encryptBlock rand buffer outputbuffer = some block)
    (isByte : i < buffer.length + 44) :
    inMemory block following i = encryptLoops rand buffer outputbuffer i := by
  rcases encryptBlock_eq_some_iff.mp encrypted with ⟨_, rfl⟩
  unfold inMemory
  rw [List.getD_eq_getElem?_getD, List.getElem?_map, List.getElem?_range isByte, Option.map_some,
    Option.getD_some]

/-- Up to the end of the data, what is decoded is what was encrypted. -/
theorem unchained_encryptBlock (encrypted : encryptBlock rand buffer outputbuffer = some block)
    (isByte : i < buffer.length + 4) :
    unchained (inMemory block following) block.length pbBuffer i
      = (leBytes 4 buffer.length ++ buffer).getD i 0 := by
  rw [length_encryptBlock encrypted]
  rcases Nat.eq_zero_or_pos i with rfl | isLater
  · rw [unchained_zero, inMemory_encryptBlock encrypted (by omega), encryptLoops_forty]
  · rw [unchained_apply (by omega), inMemory_encryptBlock encrypted (by omega),
      inMemory_encryptBlock encrypted (by omega), encryptLoops_chained (by omega),
      Nat.add_sub_cancel_left, UInt8.xor_assoc, UInt8.xor_self, UInt8.xor_zero]

theorem nOutLen_encryptBlock (encrypted : encryptBlock rand buffer outputbuffer = some block) :
    (decryptBlock (inMemory block following) block.length pbBuffer).nOutLen = buffer.length := by
  rcases encryptBlock_eq_some_iff.mp encrypted with ⟨isInt, -⟩
  rw [nOutLen_decryptBlock]
  apply intAt_of_leBytes _ (by omega)
  apply List.ext_getElem (by rw [List.length_map, List.length_range', length_leBytes])
  intro i inRange inLength
  rw [List.length_map, List.length_range'] at inRange
  rw [List.getElem_map, List.getElem_range', unchained_encryptBlock encrypted (by omega),
    Nat.zero_add, Nat.one_mul, List.getD_append _ _ _ _ inLength, List.getD_eq_getElem _ _ inLength]

theorem pbBuffer_encryptBlock (encrypted : encryptBlock rand buffer outputbuffer = some block)
    (isByte : i < buffer.length) :
    (decryptBlock (inMemory block following) block.length pbBuffer).pbBuffer i = buffer[i] := by
  rcases encryptBlock_eq_some_iff.mp encrypted with ⟨isInt, -⟩
  rw [pbBuffer_decryptBlock, nOutLen_encryptBlock encrypted, sizeT_natCast (by omega), memmove,
    if_pos (by omega), unchained_encryptBlock encrypted (by omega),
    List.getD_append_right _ _ _ _ (by rw [length_leBytes]; omega), length_leBytes,
    Nat.sub_zero, Nat.add_sub_cancel_left, List.getD_eq_getElem _ _ isByte]

theorem map_pbBuffer_encryptBlock
    (encrypted : encryptBlock rand buffer outputbuffer = some block) :
    (List.range buffer.length).map
        (decryptBlock (inMemory block following) block.length pbBuffer).pbBuffer
      = buffer := by
  apply List.ext_getElem (by rw [List.length_map, List.length_range])
  intro i inRange inBuffer
  rw [List.getElem_map, List.getElem_range, pbBuffer_encryptBlock encrypted inBuffer]

/-- The launcher gets back the length and the bytes of what the tool has encrypted. -/
theorem decryptBlock_encryptBlock (encrypted : encryptBlock rand buffer outputbuffer = some block)
    (following pbBuffer : ℕ → UInt8) :
    let decrypted := decryptBlock (inMemory block following) block.length pbBuffer
    decrypted.nOutLen = buffer.length ∧
      (List.range decrypted.nOutLen.toNat).map decrypted.pbBuffer = buffer := by
  refine ⟨nOutLen_encryptBlock encrypted, ?_⟩
  rw [nOutLen_encryptBlock encrypted]
  exact map_pbBuffer_encryptBlock encrypted

/-- Two bytes with a prefix of zeros. -/
theorem twoBytes_decrypted :
    let decrypted := decryptBlock
      (inMemory (List.replicate 40 0 ++ [2, 2, 2, 2, 9, 14]) fun _ => 255) 46 fun _ => 0
    decrypted.nOutLen = 2 ∧ (List.range decrypted.nOutLen.toNat).map decrypted.pbBuffer = [11, 7] :=
  have encrypted : encryptBlock (fun _ => 0) [11, 7] (fun _ => 0)
      = some (List.replicate 40 0 ++ [2, 2, 2, 2, 9, 14]) := by decide +kernel
  decryptBlock_encryptBlock encrypted (fun _ => 255) fun _ => 0

theorem getEncryptedResource_encryptBlock
    (encrypted : encryptBlock rand buffer outputbuffer = some block) :
    getEncryptedResource block following pbBuffer false = buffer := by
  rcases encryptBlock_eq_some_iff.mp encrypted with ⟨isInt, -⟩
  simp only [getEncryptedResource, if_neg Bool.false_ne_true, nOutLen_encryptBlock encrypted]
  rw [sizeT_natCast (by omega)]
  exact map_pbBuffer_encryptBlock encrypted

end RoundTrip

section Accesses

variable {pbBlock pbBuffer : ℕ → UInt8} {nLen i : ℕ}

/-- `DecryptBlock` stays in the block and in its buffer, and reports no more than it has decoded. -/
structure DecryptsInside (pbBlock : ℕ → UInt8) (nLen : ℕ) (pbBuffer : ℕ → UInt8) : Prop where
  block : ∀ i ∈ blockAccesses nLen, i < nLen
  buffer : ∀ access ∈ bufferAccesses pbBlock nLen pbBuffer, access.Below nLen
  reported : (decryptBlock pbBlock nLen pbBuffer).nOutLen ≤ nLen - 4

theorem mem_blockAccesses : i ∈ blockAccesses nLen ↔ 40 ≤ i ∧ i < 40 + max nLen 1 := by
  simp only [blockAccesses, List.mem_cons, List.mem_flatMap, List.mem_range'_1, List.not_mem_nil,
    or_false]
  constructor
  · rintro (rfl | ⟨turn, isTurn, isRead⟩) <;> omega
  · intro isBetween
    by_cases isFirst : i = 40
    · exact .inl isFirst
    · exact .inr ⟨i - 40, by omega, by omega⟩

/-- The loop reaches forty bytes behind the block, or to byte 40 of an empty one. -/
theorem blockAccesses_behind (nLen : ℕ) : ∃ i ∈ blockAccesses nLen, nLen ≤ i :=
  ⟨39 + max nLen 1, mem_blockAccesses.mpr (by omega), by omega⟩

theorem intAt_bounds (memory : ℕ → UInt8) (start : ℕ) :
    -2 ^ 31 ≤ intAt memory start ∧ intAt memory start < 2 ^ 31 := by
  unfold intAt
  generalize ((leValue _ : ℕ) : ℤ) = value
  have atLeast := Int.le_bmod (x := value) (m := 2 ^ 32) (by norm_num)
  have below := Int.bmod_lt (x := value) (m := 2 ^ 32) (by norm_num)
  norm_num at atLeast below ⊢
  exact ⟨atLeast, below⟩

/-- The buffer is left unless the decoded length is a number of bytes behind the length itself. -/
theorem bufferAccesses_below_iff (isInt : nLen < 2 ^ 31) :
    (∀ access ∈ bufferAccesses pbBlock nLen pbBuffer, access.Below nLen) ↔
      4 ≤ nLen ∧ 0 ≤ (decryptBlock pbBlock nLen pbBuffer).nOutLen ∧
        (decryptBlock pbBlock nLen pbBuffer).nOutLen ≤ nLen - 4 := by
  have bounds := intAt_bounds (unchained pbBlock nLen pbBuffer) 0
  rw [← nOutLen_decryptBlock] at bounds
  unfold bufferAccesses
  generalize (decryptBlock pbBlock nLen pbBuffer).nOutLen = nOutLen at bounds
  have isSize : (sizeT nOutLen : ℤ) = if 0 ≤ nOutLen then nOutLen else nOutLen + 2 ^ 64 := by
    unfold sizeT
    split_ifs <;> omega
  constructor
  · intro below
    have readsLength := (below ⟨0, 4⟩ (by simp)).le (by decide)
    simp only [Nat.zero_add] at readsLength
    refine ⟨readsLength, ?_⟩
    rcases Nat.eq_zero_or_pos (sizeT nOutLen) with isEmpty | nonempty
    · split_ifs at isSize <;> omega
    · have reads := (below ⟨4, sizeT nOutLen⟩ (by simp)).le nonempty
      simp only at reads
      split_ifs at isSize <;> omega
  · rintro ⟨hasLength, isSizeT, fits⟩ access isAccess
    apply Access.Below.of_le
    rw [if_pos isSizeT] at isSize
    simp only [List.mem_append, List.mem_cons, List.mem_map, List.mem_range'_1, List.not_mem_nil,
      or_false] at isAccess
    rcases isAccess with (rfl | ⟨turn, isTurn, rfl⟩) | rfl | rfl | rfl <;> simp only <;> omega

/-- With a block of the tool only the loop goes too far: the buffer and the length are right. -/
theorem encryptBlock_inside {rand : ℕ → ℕ} {buffer block : List UInt8}
    {outputbuffer following : ℕ → UInt8}
    (encrypted : encryptBlock rand buffer outputbuffer = some block) :
    (∀ access ∈ bufferAccesses (inMemory block following) block.length pbBuffer,
        access.Below block.length) ∧
      (decryptBlock (inMemory block following) block.length pbBuffer).nOutLen
        ≤ block.length - 44 := by
  have isInt := (encryptBlock_eq_some_iff.mp encrypted).1
  have isLength := length_encryptBlock encrypted
  rw [bufferAccesses_below_iff (by omega), nOutLen_encryptBlock encrypted]
  omega

/-- `DecryptBlock` leaves every block. -/
theorem not_decryptsInside (pbBlock : ℕ → UInt8) (nLen : ℕ) (pbBuffer : ℕ → UInt8) :
    ¬ DecryptsInside pbBlock nLen pbBuffer := by
  intro inside
  rcases blockAccesses_behind nLen with ⟨i, isRead, isBehind⟩
  exact absurd (inside.block i isRead) (by omega)

/-- Empty data: the bytes behind its forty-four are read. -/
theorem emptyBlock_not_decryptsInside :
    encryptBlock (fun _ => 0) [] (fun _ => 0) = some (List.replicate 44 0) ∧
      ¬ DecryptsInside (inMemory (List.replicate 44 0) fun _ => 255) 44 fun _ => 0 := by
  refine ⟨by decide +kernel, fun inside => ?_⟩
  exact absurd (inside.block 44 (by decide)) (by decide)

end Accesses

end PoETask.Launcher
