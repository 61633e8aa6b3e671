import PoETask.Library.Bytes

/-!
# Packet buffers

The `Buffer` class shared by the launcher and the authorisation server: a
fixed block of 4000 bytes, the number of bytes in use and a read position.
Every packet starts with a six-byte header, one opcode byte, the payload length
as a little-endian DWORD and one key byte.

`memcpy` into `bufferinternal` is not checked by the program. Writing past the
block is undefined behaviour there, and the model answers `none`. The external
buffer pointer of a patch transfer is not used by any modelled path.
-/

namespace PoETask.Wire

open PoETask.Library

/-- `MAX_BUFFER_SIZE`. -/
abbrev maxBufferSize : ℕ := 4000

/-- `REAL_BUFFER_OFFSET`, the size of the packet header. -/
abbrev realBufferOffset : ℕ := 6

/-- `MAX_PATH`. -/
abbrev maxPath : ℕ := 260

def dword (value : ℕ) : ℕ := value % 2 ^ 32

theorem dword_of_lt {value : ℕ} (small : value < 2 ^ 32) : dword value = value :=
  Nat.mod_eq_of_lt small

abbrev WChar := UInt16

def wideBytes (chars : List WChar) : List UInt8 :=
  chars.flatMap fun char => leBytes 2 char.toNat

/-- Read a byte block as wide characters; an odd last byte is not a character. -/
def wideChars : List UInt8 → List WChar
  | low :: high :: rest => UInt16.ofNat (leValue [low, high]) :: wideChars rest
  | _ => []

@[simp]
theorem length_wideBytes (chars : List WChar) : (wideBytes chars).length = chars.length * 2 := by
  induction chars with
  | nil => rfl
  | cons char rest ih =>
      simp only [wideBytes, List.flatMap_cons, List.length_append, length_leBytes,
        List.length_cons] at ih ⊢
      omega

theorem wideChars_wideBytes (chars : List WChar) : wideChars (wideBytes chars) = chars := by
  induction chars with
  | nil => rfl
  | cons char rest ih =>
      have charLt : char.toNat < 65536 := char.toNat_lt
      have head : UInt16.ofNat (leValue (leBytes 2 char.toNat)) = char := by
        rw [leValue_leBytes, show 256 ^ 2 = 65536 from rfl, Nat.mod_eq_of_lt charLt]
        exact UInt16.ofNat_toNat
      change wideChars (leBytes 2 char.toNat ++ wideBytes rest) = char :: rest
      simp only [leBytes, List.cons_append, List.nil_append, wideChars, ih] at head ⊢
      simp only [head]

/-- Cut a character block at its first terminator, as `CString::Append` does. -/
def untilNul (chars : List WChar) : List WChar := chars.takeWhile (· ≠ 0)

theorem untilNul_eq_self {chars : List WChar} (noNul : 0 ∉ chars) : untilNul chars = chars := by
  simp only [untilNul, List.takeWhile_eq_self_iff]
  intro char char_mem
  simp only [ne_eq, decide_not, Bool.not_eq_eq_eq_not, Bool.not_true, decide_eq_false_iff_not]
  rintro rfl
  exact noNul char_mem

theorem nul_notMem_untilNul (chars : List WChar) : 0 ∉ untilNul chars := by
  intro nul_mem
  simpa using List.mem_takeWhile_imp nul_mem

/-- A packet buffer. The block always has its full size. -/
structure Buffer where
  used : ℕ
  bufferinternal : List UInt8
  readoffset : ℕ
  size_eq : bufferinternal.length = maxBufferSize

namespace Buffer

def blank : Buffer :=
  { used := 0, bufferinternal := List.replicate maxBufferSize 0, readoffset := realBufferOffset
    size_eq := List.length_replicate }

@[simp]
theorem length_bufferinternal (buffer : Buffer) : buffer.bufferinternal.length = 4000 :=
  buffer.size_eq

def contents (buffer : Buffer) : List UInt8 := buffer.bufferinternal.take buffer.used

def opcode (buffer : Buffer) : UInt8 := buffer.bufferinternal.getD 0 0

/-- `*(DWORD *)(bufferinternal + 1)`. -/
def lengthField (buffer : Buffer) : ℕ := leValue (readAt buffer.bufferinternal 1 4)

/-- `bufferinternal[REAL_BUFFER_OFFSET - 1]`. -/
def keyByte (buffer : Buffer) : UInt8 := buffer.bufferinternal.getD 5 0

def payload (buffer : Buffer) : List UInt8 := buffer.contents.drop realBufferOffset

/-- `memcpy(bufferinternal + offset, …)`, undefined when the block does not fit. -/
def store (buffer : Buffer) (offset : ℕ) (block : List UInt8) : Option Buffer :=
  if fits : offset + block.length ≤ maxBufferSize then
    some { buffer with
      bufferinternal := overwrite buffer.bufferinternal offset block
      size_eq := by
        rw [length_overwrite (by simpa using fits)]
        exact buffer.size_eq }
  else
    none

/-- `*(DWORD *)(bufferinternal + 1) = value`. -/
def setLength (buffer : Buffer) (value : ℕ) : Buffer :=
  { buffer with
    bufferinternal := overwrite buffer.bufferinternal 1 (leBytes 4 value)
    size_eq := by
      rw [length_overwrite (by simp)]
      exact buffer.size_eq }

def setHeaderByte (buffer : Buffer) (index : Fin realBufferOffset) (byte : UInt8) : Buffer :=
  { buffer with
    bufferinternal := overwrite buffer.bufferinternal index.val [byte]
    size_eq := by
      have indexLt : index.val < 6 := index.isLt
      rw [length_overwrite (by simp; omega)]
      exact buffer.size_eq }

def emptyUsed (buffer : Buffer) : Buffer :=
  { buffer with readoffset := realBufferOffset, used := 0 }

def createPackage (buffer : Buffer) (bOpcode : UInt8) : Buffer :=
  (({ buffer.emptyUsed with used := realBufferOffset }).setHeaderByte 0 bOpcode).setLength 0

/-- Append raw bytes; the length field follows unless the caller asks it not to. -/
def addData (buffer : Buffer) (pData : List UInt8) (bDontChangeLength : Bool) : Option Buffer := do
  let stored ← buffer.store buffer.used pData
  let grown := { stored with used := dword (stored.used + pData.length) }
  if bDontChangeLength then
    return grown
  else
    return grown.setLength (dword (grown.lengthField + pData.length))

/-- The size that both string overloads write in front when the caller gives none. -/
def addSize (buffer : Buffer) (strLength dwSize : ℕ) : Option Buffer :=
  if dwSize = 0 then buffer.addData (leBytes 4 strLength) false else some buffer

/-- `AddData(CStringA &str, DWORD dwSize)`. -/
def addDataA (buffer : Buffer) (str : List UInt8) (dwSize : ℕ) : Option Buffer := do
  let sized ← buffer.addSize str.length dwSize
  sized.addData str false

/-- `AddData(CStringW &str, DWORD dwSize)`. -/
def addDataW (buffer : Buffer) (str : List WChar) (dwSize : ℕ) : Option Buffer := do
  let sized ← buffer.addSize str.length dwSize
  sized.addData (wideBytes str) false

/-- Copy the bytes in use and the positions of another buffer, undefined when these are more bytes
than a block has. -/
def copy (buffer source : Buffer) : Option Buffer :=
  if source.used ≤ maxBufferSize then
    ({ buffer with used := source.used, readoffset := source.readoffset }).store 0
      (readAt source.bufferinternal 0 source.used)
  else
    none

/-- The byte substitution of `Encrypt` and `Decrypt`. -/
def cipher (key byte : UInt8) : UInt8 := 255 - byte + key

/-- The common loop of `Encrypt` and `Decrypt` over the bytes in use behind the header. -/
def applyCipher (buffer : Buffer) : Buffer :=
  { buffer with
    bufferinternal := overwrite buffer.bufferinternal realBufferOffset
      (buffer.payload.map (cipher buffer.keyByte))
    size_eq := by
      rw [length_overwrite (by simp [payload, contents, realBufferOffset]; omega)]
      exact buffer.size_eq }

/-- `Encrypt`, with the byte that `rand()` produced. -/
def encrypt (buffer : Buffer) (rand : UInt8) : Buffer :=
  (buffer.setHeaderByte 5 rand).applyCipher

def decrypt (buffer : Buffer) : Buffer := buffer.applyCipher

def readStart (buffer : Buffer) : Buffer := { buffer with readoffset := realBufferOffset }

/-- `Read<X>` for a scalar of the given width; past the end it returns zero. -/
def read (buffer : Buffer) (width : ℕ) : ℕ × Buffer :=
  if buffer.used < dword (buffer.readoffset + width) then
    (0, buffer)
  else
    (leValue (readAt buffer.bufferinternal buffer.readoffset width),
      { buffer with readoffset := dword (buffer.readoffset + width) })

/-- `ReadWideString(CStringW &str, DWORD dwSize)`. -/
def readWideString (buffer : Buffer) (dwSize : ℕ) : List WChar × Buffer :=
  let sized := if dwSize = 0 then
      let prefixed := buffer.read 4
      (min maxPath prefixed.1, prefixed.2)
    else
      (dwSize, buffer)
  if sized.2.used < dword (sized.2.readoffset + dword (sized.1 * 2)) then
    ([], sized.2)
  else
    (untilNul (wideChars (readAt sized.2.bufferinternal sized.2.readoffset (sized.1 * 2))),
      { sized.2 with readoffset := dword (sized.2.readoffset + dword (sized.1 * 2)) })

end Buffer

end PoETask.Wire
