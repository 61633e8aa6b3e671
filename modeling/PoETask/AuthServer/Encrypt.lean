import PoETask.Library.LocalLoops
import Mathlib.Data.UInt
import Mathlib.Tactic.Common

/-!
# The encryption of a buffer

`mEncryptBuffer` pads the data, shuffles it, puts the key behind it and chains the columns of the
buffer. `mDecryptBuffer` undoes this in place. A buffer is a function of the index, its bytes are
its chars; it has room for the bytes behind the data, so that every length is an `int`.
-/

namespace PoETask.AuthServer

open LocalLoops

/-- A key of 4 to 7 upper-case letters. -/
structure CipherKey where
  letters : List UInt8
  atLeast : 4 ≤ letters.length
  atMost : letters.length ≤ 7
  upper : ∀ letter ∈ letters, 65 ≤ letter ∧ letter ≤ 90

/-- `rand` numbers the results of the calls. -/
def getRandomKey (rand : ℕ → ℕ) : CipherKey where
  letters := (List.range (rand 0 % 4 + 4)).map fun i => .ofNat (rand (i + 1) % 26 + 65)
  atLeast := by simp
  atMost := by
    rw [List.length_map, List.length_range]
    omega
  upper := by
    intro letter isLetter
    rcases List.mem_map.mp isLetter with ⟨i, _, rfl⟩
    have inAlphabet := Nat.mod_lt (rand (i + 1)) (by decide : 0 < 26)
    have isNumber : (UInt8.ofNat (rand (i + 1) % 26 + 65)).toNat = rand (i + 1) % 26 + 65 := by
      rw [UInt8.toNat_ofNat', Nat.mod_eq_of_lt (by omega)]
    simp only [UInt8.le_iff_toNat_le, isNumber, UInt8.reduceToNat]
    omega

def isAlpha (char : UInt8) : Bool := 65 ≤ char && char ≤ 90 || 97 ≤ char && char ≤ 122

def isDigit (char : UInt8) : Bool := 48 ≤ char && char ≤ 57

/-- The characters for the padding. -/
def szTemp : List UInt8 := [43, 45, 91, 93, 94, 37, 38, 35, 36, 33, 47, 42, 40, 41, 123, 125]

/-- `szTemp[rand() % choices]`. -/
def choose (choices number : ℕ) : UInt8 := szTemp.getD (number % choices) 0

section Encrypt

variable (rand : ℕ → ℕ) (pBuffer : ℕ → UInt8) (szKey : List UInt8)

/-- An '@' and padding up to the next multiple of the key length and one more. -/
def padData (nLength bufferLen : ℕ) : ℕ → UInt8 :=
  (List.range (nLength - bufferLen % nLength + nLength)).foldl
    (fun pBuffer i =>
      Function.update pBuffer (bufferLen + i) (if i = 0 then 64 else choose 16 (rand (i - 1))))
    pBuffer

/-- The padded data, of an even length, and the number of calls of `rand`. -/
def padBuffer (nLength bufferLen : ℕ) : (ℕ → UInt8) × ℕ × ℕ :=
  let nLen := bufferLen % nLength
  let pBuffer := padData rand pBuffer nLength bufferLen
  let calls := nLength - nLen + nLength - 1
  let nTotalLen := bufferLen + nLength * 2 - nLen
  if nTotalLen % 2 = 1 then
    (Function.update pBuffer nTotalLen (choose 10 (rand calls)), nTotalLen + 1, calls + 1)
  else (pBuffer, nTotalLen, calls)

/-- The loop that reverses the buffer. -/
def mirror (nTotalLen : ℕ) : ℕ → UInt8 :=
  (List.range (nTotalLen / 2)).foldl (fun pBuffer j => swap pBuffer j (nTotalLen - 1 - j)) pBuffer

def shuffleTurn (nTotalLen : ℕ) (pBuffer : ℕ → UInt8) (i : ℕ) : ℕ → UInt8 :=
  let nLen := nTotalLen / 2
  swap (swap (mirror pBuffer nTotalLen) nLen i) (nLen - 1) (nTotalLen - 1 - i)

def shuffle (nTotalLen : ℕ) : ℕ → UInt8 :=
  (List.range (nTotalLen / 2)).foldl (shuffleTurn nTotalLen) pBuffer

/-- `memcpy` of the key. -/
def copyKey (nTotalLen : ℕ) : ℕ → UInt8 :=
  fun k => if nTotalLen ≤ k then szKey.getD (k - nTotalLen) (pBuffer k) else pBuffer k

/-- The key, and padding up to the end of its last row; `calls` is the number of calls of `rand`
before. -/
def putKey (calls nTotalLen : ℕ) : (ℕ → UInt8) × ℕ :=
  let pBuffer := copyKey pBuffer szKey nTotalLen
  let nTotalLen := nTotalLen + szKey.length
  let nLen := nTotalLen % szKey.length
  if nLen > 0 then
    ((List.range (szKey.length - nLen)).foldl
      (fun pBuffer i => Function.update pBuffer (nTotalLen + i) (choose 10 (rand (calls + i))))
      pBuffer, nTotalLen + szKey.length - nLen)
  else (pBuffer, nTotalLen + szKey.length - szKey.length)

/-- A byte is combined with the byte one row above. -/
def chainByte (nLength i : ℕ) (pBuffer : ℕ → UInt8) (j : ℕ) : ℕ → UInt8 :=
  Function.update pBuffer (i + j * nLength)
    (pBuffer (i + j * nLength) ^^^ pBuffer (i + j * nLength - nLength))

/-- The bytes of the first row are combined with the key. -/
def keyByte (nLength : ℕ) (pBuffer : ℕ → UInt8) (i : ℕ) : ℕ → UInt8 :=
  Function.update pBuffer (i + 0 * nLength) (pBuffer (i + 0 * nLength) ^^^ szKey.getD i 0)

def chainColumn (nLen : ℕ) (pBuffer : ℕ → UInt8) (i : ℕ) : ℕ → UInt8 :=
  (List.range nLen).foldl
    (fun pBuffer j =>
      if j = 0 then keyByte szKey szKey.length pBuffer i else chainByte szKey.length i pBuffer j)
    pBuffer

def chain (nLen : ℕ) : ℕ → UInt8 :=
  (List.range szKey.length).foldl (chainColumn szKey nLen) pBuffer

/-- The buffer and the number of bytes in it. -/
def mEncryptBuffer (bufferLen : ℕ) : (ℕ → UInt8) × ℕ :=
  let (pBuffer, nTotalLen, calls) := padBuffer rand pBuffer szKey.length bufferLen
  let pBuffer := shuffle pBuffer nTotalLen
  let (pBuffer, nTotalLen) := putKey rand pBuffer szKey calls nTotalLen
  let pBuffer := Function.update pBuffer nTotalLen 0
  let pBuffer := chain pBuffer szKey (nTotalLen / szKey.length)
  (Function.update pBuffer nTotalLen 0, nTotalLen)

end Encrypt

section Decrypt

variable (pBuffer : ℕ → UInt8)

def unchainColumn (nKeyLen nLen : ℕ) (pBuffer : ℕ → UInt8) (i : ℕ) : ℕ → UInt8 :=
  (List.range (nLen - 1)).reverse.foldl
    (fun pBuffer j => chainByte nKeyLen i pBuffer (j + 1)) pBuffer

def unchain (nKeyLen nLen : ℕ) : ℕ → UInt8 :=
  (List.range nKeyLen).foldl (unchainColumn nKeyLen nLen) pBuffer

/-- The last index from `i` down whose char stops the scan; none before the start of the buffer. -/
def scanDown (stops : UInt8 → Bool) : ℕ → Option ℕ
  | 0 => if stops (pBuffer 0) then some 0 else none
  | i + 1 => if stops (pBuffer (i + 1)) then some (i + 1) else scanDown stops i

def readKey (start nKeyLen : ℕ) : List UInt8 :=
  (List.range nKeyLen).map fun j => pBuffer (start + j)

def applyKey (szKey : List UInt8) (nKeyLen : ℕ) : ℕ → UInt8 :=
  (List.range nKeyLen).foldl (keyByte szKey nKeyLen) pBuffer

def unshuffleTurn (nBufferLen : ℕ) (pBuffer : ℕ → UInt8) (idx : ℕ) : ℕ → UInt8 :=
  let nLen := nBufferLen / 2
  mirror (swap (swap pBuffer (nLen - 1) (nBufferLen - 1 - idx)) nLen idx) nBufferLen

def unshuffle (nBufferLen : ℕ) : ℕ → UInt8 :=
  (List.range (nBufferLen / 2)).reverse.foldl (unshuffleTurn nBufferLen) pBuffer

/-- The end of the key; a `char` is less than 0x80. -/
def endsKey (char : UInt8) : Bool := isAlpha char || isDigit char

def endsData (char : UInt8) : Bool :=
  char = 0x40 || ¬ char.toInt8.toInt < 0x80 || isAlpha char || isDigit char

/-- None when bytes before the buffer are read. -/
def mDecryptBuffer (nKeyLen nDataLen : ℕ) : Option ((ℕ → UInt8) × ℕ) :=
  let pBuffer := unchain pBuffer nKeyLen (nDataLen / nKeyLen)
  (scanDown pBuffer endsKey nDataLen).bind fun i =>
    let nDataLen := i + 1
    let pBuffer := Function.update pBuffer nDataLen 0
    if nDataLen < nKeyLen then none
    else
      let szKey := readKey pBuffer (nDataLen - nKeyLen) nKeyLen
      let pBuffer := applyKey pBuffer szKey nKeyLen
      let pBuffer := Function.update pBuffer (nDataLen - nKeyLen) 0
      let nBufferLen := nDataLen - nKeyLen
      let pBuffer := unshuffle pBuffer nBufferLen
      (scanDown pBuffer endsData nBufferLen).map fun i =>
        let pBuffer := Function.update pBuffer i 0
        let nBufferLen := i
        (Function.update pBuffer nBufferLen 0, nBufferLen)

end Decrypt

end PoETask.AuthServer
