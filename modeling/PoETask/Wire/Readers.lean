import PoETask.Wire.Codec

/-!
# Reader calls

The readers of a packet as calls with a result. `Read<X>`, `ReadMultiString` and the two
overloads of `ReadWideString` take what the matching `AddData` wrote; `Read` into a byte
block and `Read` into another buffer take raw bytes and a nested packet. Every size is a
DWORD, and so is every sum with the read position.

A string reader that is given no size takes it from the packet. `ReadWideString` then
reads at most `MAX_PATH` characters, `ReadMultiString` as many as the packet says.
-/

namespace PoETask.Wire

open PoETask.Library

/-- Cut a byte block at its first terminator, as `CStringA::Append` does. -/
def untilNulA (chars : List UInt8) : List UInt8 := chars.takeWhile (· ≠ 0)

theorem untilNulA_eq_self_iff {chars : List UInt8} : untilNulA chars = chars ↔ 0 ∉ chars := by
  simp only [untilNulA, List.takeWhile_eq_self_iff, decide_eq_true_eq]
  exact ⟨fun all nul_mem => all 0 nul_mem rfl, fun noNul char char_mem => by
    rintro rfl
    exact noNul char_mem⟩

theorem untilNul_eq_self_iff {chars : List WChar} : untilNul chars = chars ↔ 0 ∉ chars :=
  ⟨fun same => same ▸ nul_notMem_untilNul chars, untilNul_eq_self⟩

theorem untilNul_length_le (chars : List WChar) : (untilNul chars).length ≤ chars.length :=
  (List.takeWhile_prefix _).length_le

/-- A string with a terminator is cut. -/
theorem untilNulA_length_lt {chars : List UInt8} (terminated : 0 ∈ chars) :
    (untilNulA chars).length < chars.length := by
  have cut : untilNulA chars <+: chars := List.takeWhile_prefix _
  refine lt_of_le_of_ne cut.length_le fun same => ?_
  exact untilNulA_eq_self_iff.mp (cut.eq_of_length same) terminated

theorem untilNul_length_lt {chars : List WChar} (terminated : 0 ∈ chars) :
    (untilNul chars).length < chars.length := by
  have cut : untilNul chars <+: chars := List.takeWhile_prefix _
  refine lt_of_le_of_ne cut.length_le fun same => ?_
  exact untilNul_eq_self_iff.mp (cut.eq_of_length same) terminated

theorem wideChars_length_le (bytes : List UInt8) :
    (wideChars bytes).length * 2 ≤ bytes.length := by
  induction bytes using wideChars.induct with
  | case1 low high rest ih =>
      simp only [wideChars, List.length_cons]
      omega
  | case2 bytes noPair =>
      rw [wideChars.eq_2 _ noPair]
      exact Nat.zero_le _

namespace Buffer

/-- `Read(BYTE *pData, DWORD dwSize)`; past the end the caller's block stays as it is. -/
def readBlock (buffer : Buffer) (dwSize : ℕ) : List UInt8 × Buffer :=
  if buffer.used < dword (buffer.readoffset + dwSize) then
    ([], buffer)
  else
    (readAt buffer.bufferinternal buffer.readoffset dwSize,
      { buffer with readoffset := dword (buffer.readoffset + dwSize) })

/-- `ReadMultiString(CStringA &str, DWORD dwSize)`. -/
def readMultiString (buffer : Buffer) (dwSize : ℕ) : List UInt8 × Buffer :=
  let sized := if dwSize = 0 then buffer.read 4 else (dwSize, buffer)
  if sized.2.used < dword (sized.2.readoffset + sized.1) then
    ([], sized.2)
  else
    (untilNulA (readAt sized.2.bufferinternal sized.2.readoffset sized.1),
      { sized.2 with readoffset := dword (sized.2.readoffset + sized.1) })

/-- `ReadWideString(std::wstring &str, DWORD dwSize)`, which keeps terminators. -/
def readStdWideString (buffer : Buffer) (dwSize : ℕ) : List WChar × Buffer :=
  let sized := if dwSize = 0 then
      let prefixed := buffer.read 4
      (min maxPath prefixed.1, prefixed.2)
    else
      (dwSize, buffer)
  if sized.2.used < dword (sized.2.readoffset + dword (sized.1 * 2)) then
    ([], sized.2)
  else
    (wideChars (readAt sized.2.bufferinternal sized.2.readoffset (sized.1 * 2)),
      { sized.2 with readoffset := dword (sized.2.readoffset + dword (sized.1 * 2)) })

/-- The length that a nested packet states. -/
def nestedLength (buffer : Buffer) : ℕ :=
  leValue (readAt buffer.bufferinternal (buffer.readoffset + 1) 4)

/-- `target->Read(buffer)`: the nested packet goes into `target`. Copying past either block is
undefined. -/
def readBuffer (buffer target : Buffer) : Option (Buffer × Buffer) :=
  if buffer.used < dword (buffer.readoffset + realBufferOffset) then
    some (target, buffer)
  else
    let dwSize := buffer.nestedLength
    let emptied := target.emptyUsed
    if buffer.used < dword (buffer.readoffset + dwSize + realBufferOffset) then
      some (emptied, buffer)
    else if maxBufferSize < buffer.readoffset + realBufferOffset + dwSize then
      none
    else do
      let opened := emptied.createPackage (buffer.bufferinternal.getD buffer.readoffset 0)
      let filled ← opened.addData
        (readAt buffer.bufferinternal (buffer.readoffset + realBufferOffset) dwSize) false
      return (filled,
        { buffer with readoffset := dword (buffer.readoffset + dword (dwSize + realBufferOffset)) })

/-- The overloads of `ReadWideString` differ in the terminator only. -/
theorem readWideString_eq (buffer : Buffer) (dwSize : ℕ) :
    buffer.readWideString dwSize = (untilNul (buffer.readStdWideString dwSize).1,
      (buffer.readStdWideString dwSize).2) := by
  simp only [readWideString, readStdWideString]
  split_ifs <;> rfl

end Buffer

/-- A call of one of the readers, with its `DWORD` argument. -/
inductive ReaderCall where
  | read (width : ℕ)
  | readBlock (dwSize : ℕ)
  | readMultiString (dwSize : ℕ)
  | readWideString (dwSize : ℕ)
  | readStdWideString (dwSize : ℕ)
  | readBuffer (target : Buffer)

/-- What a reader hands out. -/
inductive ReadValue where
  | scalar (value : ℕ)
  | block (pData : List UInt8)
  | narrow (str : List UInt8)
  | wide (str : List WChar)
  | packet (target : Buffer)

namespace ReaderCall

def perform (buffer : Buffer) : ReaderCall → Option (ReadValue × Buffer)
  | .read width => some (.scalar (buffer.read width).1, (buffer.read width).2)
  | .readBlock dwSize => some (.block (buffer.readBlock dwSize).1, (buffer.readBlock dwSize).2)
  | .readMultiString dwSize =>
      some (.narrow (buffer.readMultiString dwSize).1, (buffer.readMultiString dwSize).2)
  | .readWideString dwSize =>
      some (.wide (buffer.readWideString dwSize).1, (buffer.readWideString dwSize).2)
  | .readStdWideString dwSize =>
      some (.wide (buffer.readStdWideString dwSize).1, (buffer.readStdWideString dwSize).2)
  | .readBuffer target => (buffer.readBuffer target).map fun read => (.packet read.1, read.2)

/-- One call after the other on the same packet. -/
def performAll (buffer : Buffer) : List ReaderCall → Option (List ReadValue × Buffer)
  | [] => some ([], buffer)
  | call :: rest => do
      let first ← call.perform buffer
      let later ← performAll first.2 rest
      return (first.1 :: later.1, later.2)

end ReaderCall

section Frame

variable {buffer next : Buffer} {value : ReadValue}

@[simp]
theorem Buffer.read_used (buffer : Buffer) (width : ℕ) : (buffer.read width).2.used = buffer.used := by
  simp only [Buffer.read]
  split_ifs <;> rfl

@[simp]
theorem Buffer.readStdWideString_used (buffer : Buffer) (dwSize : ℕ) :
    (buffer.readStdWideString dwSize).2.used = buffer.used := by
  simp only [Buffer.readStdWideString]
  split_ifs <;> simp

/-- No reader changes the number of bytes in use. -/
theorem ReaderCall.perform_used {call : ReaderCall}
    (performs : call.perform buffer = some (value, next)) : next.used = buffer.used := by
  cases call with
  | read width =>
      cases performs
      exact buffer.read_used width
  | readBlock dwSize =>
      cases performs
      simp only [Buffer.readBlock]
      split_ifs <;> rfl
  | readMultiString dwSize =>
      cases performs
      simp only [Buffer.readMultiString]
      split_ifs <;> simp
  | readWideString dwSize =>
      cases performs
      rw [Buffer.readWideString_eq]
      exact buffer.readStdWideString_used dwSize
  | readStdWideString dwSize =>
      cases performs
      exact buffer.readStdWideString_used dwSize
  | readBuffer target =>
      simp only [perform, Option.map_eq_some_iff, Prod.mk.injEq] at performs
      rcases performs with ⟨⟨filled, rest⟩, performs, -, rfl⟩
      simp only [Buffer.readBuffer] at performs
      split_ifs at performs
      · cases performs
        rfl
      · cases performs
        rfl
      · simp only [Option.bind_eq_bind, Option.bind_eq_some_iff, pure, Option.some.injEq,
          Prod.mk.injEq] at performs
        rcases performs with ⟨_, _, _, rfl⟩
        rfl

end Frame

namespace Buffer.Unread

variable {buffer : Buffer} {block tail : List UInt8}

/-- The position behind the bytes that stand next is a `DWORD`. -/
theorem dword_add (unread : buffer.Unread (block ++ tail)) :
    dword (buffer.readoffset + block.length) = buffer.readoffset + block.length
      ∧ buffer.readoffset + block.length ≤ buffer.used := by
  have used := unread.used_le
  have whole := unread.length_eq
  simp only [List.length_append] at whole
  exact ⟨dword_of_lt (by omega), by omega⟩

/-- A scalar is read as the number its bytes stand for. -/
theorem readScalar (unread : buffer.Unread (block ++ tail)) :
    (buffer.read block.length).1 = leValue block
      ∧ (buffer.read block.length).2.Unread tail := by
  rcases unread.dword_add with ⟨position, inside⟩
  rw [Buffer.read, position, if_neg (by omega), unread.readAt_eq]
  exact ⟨rfl, unread.advance⟩

theorem readBlock (unread : buffer.Unread (block ++ tail)) :
    (buffer.readBlock block.length).1 = block
      ∧ (buffer.readBlock block.length).2.Unread tail := by
  rcases unread.dword_add with ⟨position, inside⟩
  rw [Buffer.readBlock, position, if_neg (by omega), unread.readAt_eq]
  exact ⟨rfl, unread.advance⟩

/-- A narrow string whose size is known comes back up to its first terminator. -/
theorem readMultiString_sized {str : List UInt8} (nonempty : str.length ≠ 0)
    (unread : buffer.Unread (str ++ tail)) :
    (buffer.readMultiString str.length).1 = untilNulA str
      ∧ (buffer.readMultiString str.length).2.Unread tail := by
  rcases unread.dword_add with ⟨position, inside⟩
  simp only [Buffer.readMultiString, if_neg nonempty]
  rw [position, if_neg (by omega), unread.readAt_eq]
  exact ⟨rfl, unread.advance⟩

theorem readMultiString {str : List UInt8}
    (unread : buffer.Unread ((Field.narrow str 0).bytes ++ tail)) :
    (buffer.readMultiString 0).1 = untilNulA str
      ∧ (buffer.readMultiString 0).2.Unread tail := by
  simp only [Field.bytes, Field.sizePrefix, if_pos, List.append_assoc] at unread
  have total := unread.length_eq
  have total_le := unread.used_le
  simp only [List.length_append, length_leBytes] at total
  rcases unread.read with ⟨length_read, behindLength⟩
  rw [Nat.mod_eq_of_lt (by omega)] at length_read
  rcases behindLength.dword_add with ⟨position, inside⟩
  simp only [Buffer.readMultiString, if_true, length_read]
  rw [position, if_neg (by omega), behindLength.readAt_eq]
  exact ⟨rfl, behindLength.advance⟩

/-- A wide string whose size is known comes back whole. -/
theorem readStdWideString_sized {str : List WChar} (nonempty : str.length ≠ 0)
    (unread : buffer.Unread (wideBytes str ++ tail)) :
    (buffer.readStdWideString str.length).1 = str
      ∧ (buffer.readStdWideString str.length).2.Unread tail := by
  rcases unread.dword_add with ⟨position, inside⟩
  have used := unread.used_le
  have block := unread.readAt_eq
  have rest := unread.advance
  simp only [length_wideBytes] at position inside block rest
  have size : dword (str.length * 2) = str.length * 2 := dword_of_lt (by omega)
  simp only [Buffer.readStdWideString, if_neg nonempty, size, position]
  rw [if_neg (by omega), block, wideChars_wideBytes]
  exact ⟨rfl, rest⟩

/-- Of a wide string with its length in front the reader takes `MAX_PATH` characters. -/
theorem readStdWideString {str : List WChar}
    (unread : buffer.Unread ((Field.wide str 0).bytes ++ tail)) :
    (buffer.readStdWideString 0).1 = str.take 260
      ∧ (str.length ≤ 260 → (buffer.readStdWideString 0).2.Unread tail) := by
  rcases unread.readLength with ⟨length_read, behindLength⟩
  have split_eq : wideBytes str ++ tail = wideBytes (str.take 260) ++
      (wideBytes (str.drop 260) ++ tail) := by
    rw [← List.append_assoc, wideBytes, wideBytes, wideBytes, ← List.flatMap_append,
      List.take_append_drop]
  rw [split_eq] at behindLength
  rcases behindLength.dword_add with ⟨position, inside⟩
  have used := behindLength.used_le
  have block := behindLength.readAt_eq
  have rest := behindLength.advance
  simp only [length_wideBytes, List.length_take] at position inside block rest
  have size : dword (min 260 str.length * 2) = min 260 str.length * 2 := dword_of_lt (by omega)
  simp only [Buffer.readStdWideString, if_true, length_read, maxPath, size, position]
  rw [if_neg (by omega), block, wideChars_wideBytes]
  refine ⟨rfl, fun short => ?_⟩
  rw [List.drop_eq_nil_of_le short] at rest
  exact rest

end Buffer.Unread

end PoETask.Wire
