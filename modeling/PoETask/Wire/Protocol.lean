import PoETask.Wire.Codec

/-!
# The login protocol

The opcodes and login results of `Global_Comm.h` and the fields that requests and
answers are made of.
-/

namespace PoETask.Wire

open PoETask.Library

/-- `LOGINRESULT`. -/
inductive LoginResult where
  | none
  | success
  | invalidAccount
  | expired
  | invalidDevice
  | invalidToken
  | duplicate
  deriving DecidableEq

namespace LoginResult

def code : LoginResult → ℕ
  | none => 0
  | success => 1
  | invalidAccount => 2
  | expired => 3
  | invalidDevice => 4
  | invalidToken => 5
  | duplicate => 6

theorem code_lt (result : LoginResult) : result.code < 7 := by
  cases result <;> decide

theorem duplicate_ne_success : duplicate ≠ success := nofun

end LoginResult

section Opcodes

def opKeepalive : UInt8 := 0
def opLoginReq : UInt8 := 1
def opLoginAck : UInt8 := 2
def opForceLogout : UInt8 := 3
def opLogout : UInt8 := 4
def opDisconnectAccount : UInt8 := 5

end Opcodes

def maxAccountNum : ℕ := 30

/-- `AddData` of a `DWORD`, `UINT` or `int`. -/
def uintField (value : ℕ) : Field := .block (leBytes 4 value)

/-- `AddData` of a `CString`. -/
def textField (text : CText) : Field := .wide text.val 0

theorem length_textField (text : CText) :
    (textField text).bytes.length = 4 + 2 * text.val.length := by
  simp [textField, Field.bytes, Field.sizePrefix, Nat.mul_comm]

def accountFields (account : CText × CText) : List Field :=
  [textField account.1, textField account.2]

end PoETask.Wire
