import PoETask.Wire.Framing

/-!
# Reading packets

`Buffer.Unread` says which bytes a buffer still has to read. A field that was
written is read back, and what follows it stays unread; reading a whole packet
is then a chain of such steps.

A `CText` is the content of a `CString`. Strings enter the program through
`Append` and through terminated arrays, so they contain no terminator, and the
type says so.
-/

namespace PoETask.Wire

open PoETask.Library

/-- The content of a `CString`. -/
abbrev CText := { chars : List WChar // 0 ∉ chars }

namespace CText

def empty : CText := ⟨[], List.not_mem_nil⟩

def isEmpty (text : CText) : Bool := text.val.isEmpty

def letterA : CText := ⟨[97], by decide⟩

def letterB : CText := ⟨[98], by decide⟩

instance : LawfulBEq CText := inferInstance

end CText

namespace Buffer

theorem nul_notMem_readWideString (buffer : Buffer) (dwSize : ℕ) :
    0 ∉ (buffer.readWideString dwSize).1 := by
  simp only [readWideString]
  split_ifs
  · exact List.not_mem_nil
  · exact nul_notMem_untilNul _
  · exact List.not_mem_nil
  · exact nul_notMem_untilNul _

def readText (buffer : Buffer) : CText × Buffer :=
  (⟨(buffer.readWideString 0).1, buffer.nul_notMem_readWideString 0⟩,
    (buffer.readWideString 0).2)

/-- The buffer stands in front of these bytes. -/
structure Unread (buffer : Buffer) (bytes : List UInt8) : Prop where
  used_le : buffer.used ≤ 4000
  offset_le : buffer.readoffset ≤ buffer.used
  bytes_eq : buffer.contents.drop buffer.readoffset = bytes

theorem Framed.unread {buffer : Buffer} {bOpcode key : UInt8} {body : List UInt8}
    (framed : buffer.Framed bOpcode key body) : buffer.readStart.Unread body where
  used_le := framed.used_le
  offset_le := by
    have used := framed.used_eq
    simp only [readStart, realBufferOffset]
    omega
  bytes_eq := framed.payload_eq

namespace Unread

variable {buffer : Buffer} {block tail : List UInt8}

theorem length_eq (unread : buffer.Unread block) :
    buffer.readoffset + block.length = buffer.used := by
  have used := unread.used_le
  have offset := unread.offset_le
  have lengths := congrArg List.length unread.bytes_eq
  simp only [List.length_drop, length_contents] at lengths
  omega

theorem readAt_eq (unread : buffer.Unread (block ++ tail)) :
    readAt buffer.bufferinternal buffer.readoffset block.length = block := by
  have used := unread.used_le
  have offset := unread.offset_le
  have memory : buffer.bufferinternal.drop buffer.readoffset =
      block ++ (tail ++ buffer.bufferinternal.drop buffer.used) := by
    conv_lhs => rw [buffer.bufferinternal_eq]
    rw [List.drop_append_of_le_length (by rw [length_contents]; omega), unread.bytes_eq,
      List.append_assoc]
  exact readAt_of_drop_eq memory

theorem advance (unread : buffer.Unread (block ++ tail)) :
    ({ buffer with readoffset := buffer.readoffset + block.length } : Buffer).Unread tail where
  used_le := unread.used_le
  offset_le := by
    have whole := unread.length_eq
    simp only [List.length_append] at whole
    change buffer.readoffset + block.length ≤ buffer.used
    omega
  bytes_eq := by
    change buffer.contents.drop (buffer.readoffset + block.length) = tail
    rw [← List.drop_drop, unread.bytes_eq, List.drop_left]

theorem read {width value : ℕ} (unread : buffer.Unread (leBytes width value ++ tail)) :
    (buffer.read width).1 = value % 256 ^ width ∧ (buffer.read width).2.Unread tail := by
  have used := unread.used_le
  have whole := unread.length_eq
  have block := unread.readAt_eq
  have rest := unread.advance
  simp only [List.length_append, length_leBytes] at whole
  simp only [length_leBytes] at block rest
  have position : dword (buffer.readoffset + width) = buffer.readoffset + width :=
    dword_of_lt (by omega)
  rw [Buffer.read, position, if_neg (by omega), block, leValue_leBytes]
  exact ⟨rfl, rest⟩

/-- The length in front of a wide string comes back, and the characters stay unread. -/
theorem readLength {str : List WChar} (unread : buffer.Unread ((Field.wide str 0).bytes ++ tail)) :
    (buffer.read 4).1 = str.length ∧ (buffer.read 4).2.Unread (wideBytes str ++ tail) := by
  simp only [Field.bytes, Field.sizePrefix, if_pos, List.append_assoc] at unread
  have total := unread.length_eq
  have total_le := unread.used_le
  simp only [List.length_append, length_leBytes, length_wideBytes] at total
  rcases unread.read with ⟨length_read, behindLength⟩
  rw [Nat.mod_eq_of_lt (by omega)] at length_read
  exact ⟨length_read, behindLength⟩

theorem readText {text : CText} (short : text.val.length ≤ 260)
    (unread : buffer.Unread ((Field.wide text.val 0).bytes ++ tail)) :
    buffer.readText.1 = text ∧ buffer.readText.2.Unread tail := by
  rcases unread.readLength with ⟨length_read, behindLength⟩
  have used := behindLength.used_le
  have whole := behindLength.length_eq
  have block := behindLength.readAt_eq
  have rest := behindLength.advance
  simp only [List.length_append, length_wideBytes] at whole
  rw [length_wideBytes] at block rest
  have size : dword (text.val.length * 2) = text.val.length * 2 := dword_of_lt (by omega)
  have position : dword ((buffer.read 4).2.readoffset + text.val.length * 2) =
      (buffer.read 4).2.readoffset + text.val.length * 2 := dword_of_lt (by omega)
  have read_eq : buffer.readWideString 0 = (text.val,
      { (buffer.read 4).2 with
        readoffset := (buffer.read 4).2.readoffset + text.val.length * 2 }) := by
    simp only [readWideString, if_pos, length_read, maxPath, Nat.min_eq_right short, size,
      position]
    rw [if_neg (by omega), block, wideChars_wideBytes, untilNul_eq_self text.property]
  refine ⟨Subtype.ext ?_, ?_⟩
  · simp only [Buffer.readText, read_eq]
  · simp only [Buffer.readText, read_eq]
    exact rest

/-- Of a longer string the reader takes the first 260 characters. -/
theorem readText_of_long {text : CText} (long : 260 < text.val.length)
    (unread : buffer.Unread ((Field.wide text.val 0).bytes ++ tail)) :
    buffer.readText.1.val = text.val.take 260 := by
  rcases unread.readLength with ⟨length_read, behindLength⟩
  have split_eq : wideBytes text.val = wideBytes (text.val.take 260) ++
      wideBytes (text.val.drop 260) := by
    rw [wideBytes, wideBytes, wideBytes, ← List.flatMap_append, List.take_append_drop]
  have size_eq : (wideBytes (text.val.take 260)).length = 520 := by
    simp only [length_wideBytes, List.length_take]
    omega
  simp only [split_eq, List.append_assoc] at behindLength
  have used := behindLength.used_le
  have whole := behindLength.length_eq
  have block := behindLength.readAt_eq
  simp only [List.length_append, size_eq] at whole block
  have noNul : 0 ∉ text.val.take 260 := fun mem => text.property (List.mem_of_mem_take mem)
  have position : dword ((buffer.read 4).2.readoffset + 520) =
      (buffer.read 4).2.readoffset + 520 := dword_of_lt (by omega)
  have size : dword (260 * 2) = 520 := rfl
  simp only [Buffer.readText, readWideString, if_true, length_read, maxPath,
    Nat.min_eq_left (le_of_lt long), size, position]
  rw [if_neg (by omega), show 260 * 2 = 520 from rfl, block, wideChars_wideBytes,
    untilNul_eq_self noNul]

end Unread

end Buffer

/-- A packet as the program composes it: the opcode and the arguments of the `AddData` calls. -/
structure Message where
  bOpcode : UInt8
  fields : List Field

namespace Message

def body (message : Message) : List UInt8 := message.fields.flatMap Field.bytes

/-- Send a message and hand the receiver the decrypted copy. The two pool buffers are the packets
that sender and receiver allocate, `rand` is the key byte. -/
def transfer (message : Message) (pool : Buffer) (rand : UInt8) (receiverPool : Buffer) :
    Option Buffer := do
  let built ← buildPacket pool message.bOpcode message.fields
  let copied ← receiverPool.copy (built.encrypt rand)
  return copied.decrypt

/-- A received message has the opcode and the payload that were sent. -/
theorem framed_of_transfer {message : Message} {pool receiverPool received : Buffer} {rand : UInt8}
    (transferred : message.transfer pool rand receiverPool = some received) :
    received.Framed message.bOpcode rand message.body := by
  simp only [transfer, Option.bind_eq_bind, Option.bind_eq_some_iff, pure,
    Option.some.injEq] at transferred
  rcases transferred with ⟨built, built_eq, copied, copied_eq, rfl⟩
  rcases framed_of_buildPacket built_eq with ⟨key, framed, -⟩
  rcases (framed.encrypt rand).copy receiverPool with ⟨same, same_eq, copiedFramed, -⟩
  simp only [copied_eq] at same_eq
  cases same_eq
  have decrypted := copiedFramed.decrypt
  rwa [Buffer.map_cipher_map_cipher] at decrypted

/-- A message reaches the receiver exactly when it fits a packet. -/
theorem transfer_isSome_iff (message : Message) (pool receiverPool : Buffer) (rand : UInt8) :
    (message.transfer pool rand receiverPool).isSome ↔ 6 + message.body.length ≤ 4000 := by
  have builds := buildPacket_isSome_iff pool message.bOpcode message.fields
  cases built_eq : buildPacket pool message.bOpcode message.fields with
  | none =>
      simp only [built_eq] at builds
      rw [body, ← builds]
      simp [transfer, built_eq]
  | some built =>
      simp only [built_eq] at builds
      rcases framed_of_buildPacket built_eq with ⟨key, framed, -⟩
      rcases (framed.encrypt rand).copy receiverPool with ⟨copied, copied_eq, -⟩
      rw [body, ← builds]
      simp [transfer, built_eq, copied_eq]

end Message

end PoETask.Wire
