import PoETask.AuthServer.Login

/-!
# The launcher

The launcher keeps a table of accounts, the authorisation it was given for each of
them and the state of the game process it runs for each of them. This file models
the request it sends, its packet handler, the window messages the handler raises and
the loop that starts games.

The tables are arrays of fixed size in the program and functions of the index here;
the loops over them skip the accounts that are not in use. `SendMessage` runs the
window procedure before it returns, so a packet and the window message it raises are
one step. Strings live in arrays of `WCHAR`, and copying one that does not fit is
undefined behaviour, for which the model answers `none`.
-/

namespace PoETask.Launcher

open PoETask.Library PoETask.Wire PoETask.AuthServer

/-- The content of a terminated `WCHAR[size]`. -/
abbrev Name (size : ℕ) := { text : CText // text.val.length < size }

/-- `MAX_NAME`. -/
abbrev maxName : ℕ := 100

def wcscpy (size : ℕ) (text : CText) : Option (Name size) :=
  if fits : text.val.length < size then some ⟨text, fits⟩ else none

theorem wcscpy_eq_some {size : ℕ} {text : CText} (fits : text.val.length < size) :
    wcscpy size text = some ⟨text, fits⟩ := dif_pos fits

theorem length_lt_of_wcscpy {size : ℕ} {text : CText} {name : Name size}
    (copied : wcscpy size text = some name) : text.val.length < size := by
  by_contra tooLong
  rw [wcscpy, dif_neg tooLong] at copied
  cases copied

structure AccountInfo where
  dwUse : UInt32
  szAutoId : Name maxName
  szAutoPw : Name maxName

structure AuthInfo where
  dwLoginResult : UInt32
  dwID : UInt32
  szExpiredTime : Name maxName
  szToken : Name maxName

/-- Account `a` with password `b`. -/
def AccountInfo.sample (dwUse : UInt32) : AccountInfo where
  dwUse := dwUse
  szAutoId := ⟨CText.letterA, by decide⟩
  szAutoPw := ⟨CText.letterB, by decide⟩

/-- A login result without expiry date and token. -/
def AuthInfo.bare (dwLoginResult dwID : UInt32) : AuthInfo where
  dwLoginResult := dwLoginResult
  dwID := dwID
  szExpiredTime := ⟨CText.empty, by decide⟩
  szToken := ⟨CText.empty, by decide⟩

/-- A game process slot; a handle is the number of a process. -/
structure RunInfo where
  isRunGame : Bool
  hProcess : Option ℕ
  deriving DecidableEq

/-- `g_pAppSetting`, `g_dwAppCount` and `g_szDeviceKey`. -/
structure AccountTable where
  dwAppCount : ℕ
  appSetting : ℕ → AccountInfo
  szDeviceKey : Name maxPath

namespace AccountTable

/-- Entries of account `a` on the device `c`. -/
def sample (dwAppCount : ℕ) (dwUse : ℕ → UInt32) : AccountTable where
  dwAppCount := dwAppCount
  appSetting i := .sample (dwUse i)
  szDeviceKey := ⟨⟨[99], by decide⟩, by decide⟩

def used (table : AccountTable) : List ℕ :=
  (List.range table.dwAppCount).filter fun i => (table.appSetting i).dwUse ≠ 0

def credentials (table : AccountTable) (i : ℕ) : CText × CText :=
  ((table.appSetting i).szAutoId.val, (table.appSetting i).szAutoPw.val)

end AccountTable

/-- The launcher with its session to the server; `terminated` lists the processes it has killed. -/
structure Client where
  table : AccountTable
  auth : ℕ → AuthInfo
  runInfo : ℕ → RunInfo
  login : Bool
  lastConnTime : ℕ
  logUI : List (ℕ × String)
  terminated : List ℕ
  running : Bool

namespace Client

def loginRequest (client : Client) : Message where
  bOpcode := opLoginReq
  fields := uintField client.table.used.length ::
    client.table.used.flatMap (fun i => accountFields (client.table.credentials i)) ++
      [textField client.table.szDeviceKey.val]

/-- What the loop of `OP_Login_Ack` reads for one account. -/
def readAuth (packet : Buffer) (info : AuthInfo) : Option (AuthInfo × Buffer) :=
  let retCode := packet.read 4
  let info := { info with dwLoginResult := UInt32.ofNat retCode.1 }
  if UInt32.ofNat retCode.1 = UInt32.ofNat LoginResult.success.code then do
    let id := retCode.2.read 4
    let expired := id.2.readText
    let szExpiredTime ← wcscpy maxName expired.1
    let token := expired.2.readText
    let szToken ← wcscpy maxName token.1
    return ({ info with dwID := UInt32.ofNat id.1, szExpiredTime, szToken }, token.2)
  else
    some (info, retCode.2)

def readLoginAck : List ℕ → Buffer → (ℕ → AuthInfo) → Option (ℕ → AuthInfo)
  | [], _, auth => some auth
  | i :: rest, packet, auth => do
      let (info, packet) ← readAuth packet (auth i)
      readLoginAck rest packet (Function.update auth i info)

/-- The text that `MSG_LOGINACK` shows for a login result. -/
def loginAckText (dwLoginResult : UInt32) : String :=
  match dwLoginResult.toNat with
  | 1 => "LogIn Success"
  | 2 => "Incorrect Account."
  | 3 => "Account Not Expire."
  | 4 => "Incorrect Device."
  | 6 => "Duplicate Connect."
  | _ => "LogIn Fail"

/-- The text that `MSG_DISCONNECT` shows for a login result. -/
def disconnectText (dwLoginResult : UInt32) : String :=
  match dwLoginResult.toNat with
  | 1 => "LogIn Success"
  | 2 => "Incorrect Account."
  | 3 => "Account Not Expire."
  | 4 => "Incorrect Device."
  | 6 => "Duplicate Connect"
  | _ => "LogIn Fail"

def exitApp (client : Client) (dwIndex : ℕ) : Client :=
  if (client.runInfo dwIndex).isRunGame then
    { client with
      terminated := client.terminated ++ (client.runInfo dwIndex).hProcess.toList
      runInfo := Function.update client.runInfo dwIndex { isRunGame := false, hProcess := none } }
  else
    client

/-- `ExitProgram`, which ends the launcher itself. -/
def exitProgram (client : Client) : Client := { client with running := false }

/-- The window messages that the packet handler raises. -/
inductive WindowMessage where
  | msgLoginAck
  | msgForceClose
  | msgDisconnect (dwDisconnectedID : UInt32)

def windowProc (client : Client) : WindowMessage → Client
  | .msgLoginAck =>
      { client with
        logUI := client.logUI ++
          client.table.used.map fun i => (i, loginAckText (client.auth i).dwLoginResult) }
  | .msgForceClose => client.exitProgram
  | .msgDisconnect dwDisconnectedID =>
      match client.table.used.find? fun i => (client.auth i).dwID = dwDisconnectedID with
      | none => client
      | some i =>
          let dwLoginResult := (client.auth i).dwLoginResult
          let logged := { client with logUI := client.logUI ++ [(i, disconnectText dwLoginResult)] }
          if dwLoginResult ≠ UInt32.ofNat LoginResult.success.code then
            logged.exitApp i
          else
            logged

/-- `DoDisconnect` on the session to the server; a new session starts logged out. -/
def doDisconnect (client : Client) : Client := { client with login := false, lastConnTime := 0 }

def onRecvPacket (client : Client) (now : ℕ) (received : Buffer) : Option Client :=
  let packet := received.readStart
  if packet.opcode = opKeepalive then
    some { client with lastConnTime := now }
  else if packet.opcode = opLoginAck then do
    let auth ← readLoginAck client.table.used packet client.auth
    return ({ client with auth, login := true, lastConnTime := now }).windowProc .msgLoginAck
  else if packet.opcode = opForceLogout then
    some (client.doDisconnect.windowProc .msgForceClose)
  else if packet.opcode = opDisconnectAccount then
    some (client.windowProc (.msgDisconnect (UInt32.ofNat (packet.read 4).1)))
  else
    some client

end Client

end PoETask.Launcher
