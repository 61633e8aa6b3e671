import PoETask.AuthServer.Consistency
import PoETask.AuthServer.LoginQueries

/-!
# The users table

`CheckLogin` decides from a line of the `users` table and `UpdateUserInfo` writes the
line back; every handler that takes an account from a session also clears its
`user_con_state`. This file puts the table beside the server and runs both together.

The SQL calls of the program are stubbed, and the database is not a part of it. A
`Database` is one whose table reads as the statements in `Engine.cpp` expect: `find` is
the condition `user_id = '...'`, the update statements change the line of a `NO`, and
what a text column gives back of a text is up to the column. A call may fail at any time.
A statement has this meaning only while the client strings stay in their literals, which
a step asks for. `grants` is a history: what `HandleLogin` has granted, oldest first.
-/

namespace PoETask.AuthServer

open PoETask.Library PoETask.Wire
open SqlTokens (quote isIntact)

/-- One line of the `users` table, apart from its keys. -/
structure UserLine where
  userPassword : CText
  userDeviceNum : CText
  userStartDatetime : CText
  userEndDatetime : CText
  userToken : CText
  userConState : Bool
  userAccType : ℤ

/-- The `users` table: the condition on `user_id`, and the lines by `NO`. -/
structure Users where
  find : CText → Option AccountId
  line : AccountId → Option UserLine

/-- The text columns that `UpdateUserInfo` writes. -/
inductive Column where
  | userDeviceNum
  | userStartDatetime
  | userEndDatetime
  | userToken

/-- The update statements of `Engine.cpp`. -/
inductive Statement where
  | setUserConnState (nId : AccountId) (bOnline : Bool)
  | updateUserInfo (nId : AccountId)
      (strDeviceNum strStartTime strFinishTime strToken : CText) (nConnState : Bool)
  | initAllConnections

/-- What the handlers of one event meet outside the program. -/
structure Calls where
  answers : CText → Bool
  commits : Statement → Bool
  clock : CText → Clock
  getSha1 : List UInt8 → CText

namespace UserLine

/-- The line as `CheckLogin` reads it. -/
def row (line : UserLine) (nId : AccountId) : UserRow where
  no := nId
  userPassword := line.userPassword
  userDeviceNum := line.userDeviceNum
  userStartDatetime := line.userStartDatetime
  userEndDatetime := line.userEndDatetime
  userAccType := line.userAccType

def setConnState (bOnline : Bool) (line : UserLine) : UserLine :=
  { line with userConState := bOnline, userToken := CText.empty }

def setInfo (strDeviceNum strStartTime strFinishTime strToken : CText) (nConnState : Bool)
    (line : UserLine) : UserLine :=
  { line with
    userDeviceNum := strDeviceNum
    userStartDatetime := strStartTime
    userEndDatetime := strFinishTime
    userToken := strToken
    userConState := nConnState }

end UserLine

namespace Users

/-- `UPDATE users SET ... WHERE NO = nId`. -/
def update (users : Users) (nId : AccountId) (change : UserLine → UserLine) : Users :=
  { users with line := Function.update users.line nId ((users.line nId).map change) }

/-- What a statement says, when the columns give back their texts in some way. -/
def execute (users : Users) (stored : Column → CText → CText) : Statement → Users
  | .setUserConnState nId bOnline => users.update nId (UserLine.setConnState bOnline)
  | .updateUserInfo nId strDeviceNum strStartTime strFinishTime strToken nConnState =>
      users.update nId
        (UserLine.setInfo (stored .userDeviceNum strDeviceNum)
          (stored .userStartDatetime strStartTime) (stored .userEndDatetime strFinishTime)
          (stored .userToken strToken) nConnState)
  | .initAllConnections =>
      { users with line := fun nId => (users.line nId).map (UserLine.setConnState false) }

/-- A statement takes effect unless the call fails. -/
def run (users : Users) (stored : Column → CText → CText) (calls : Calls)
    (statement : Statement) : Users :=
  if calls.commits statement then users.execute stored statement else users

/-- What a login finds outside the program. -/
def environment (users : Users) (calls : Calls) : Environment where
  users name :=
    if calls.answers name then
      match users.find name with
      | none => .noRow
      | some nId => (users.line nId).elim .noRow fun line => .row (line.row nId)
    else
      .canNotQuery
  clock := calls.clock
  getSha1 := calls.getSha1

/-- Distinct account names find distinct lines. -/
def DistinctIds (users : Users) : Prop :=
  ∀ name other nId, users.find name = some nId → users.find other = some nId → name = other

end Users

namespace Users

variable {users : Users} {nId other : AccountId}

theorem line_update_of_ne (change : UserLine → UserLine) (different : other ≠ nId) :
    (users.update nId change).line other = users.line other := by
  simp [update, different]

theorem line_update_self (change : UserLine → UserLine) :
    (users.update nId change).line nId = (users.line nId).map change := by
  simp [update]

end Users

/-- A database: its states, the `users` table in a state, what the columns give back of a text, and
what the statements do. The statements do what they say, and a text that a line has given back is
stored as it is. -/
structure Database where
  State : Type
  table : State → Users
  stored : Column → CText → CText
  execute : State → Statement → State
  table_execute : ∀ state statement,
    table (execute state statement) = (table state).execute stored statement
  stored_line : ∀ state nId line, (table state).line nId = some line →
    stored .userDeviceNum line.userDeviceNum = line.userDeviceNum ∧
      stored .userStartDatetime line.userStartDatetime = line.userStartDatetime ∧
      stored .userEndDatetime line.userEndDatetime = line.userEndDatetime

/-- An account that `HandleLogin` has granted. -/
structure Grant where
  nId : AccountId
  session : SessionPtr
  strDeviceNum : CText
  strExpiredTime : CText
  strToken : CText

/-- The server with its database. -/
structure Service (database : Database) where
  server : Server
  db : database.State
  grants : List Grant

namespace Service

variable {database : Database}

def users (service : Service database) : Users := database.table service.db

/-- A statement takes effect unless the call fails. -/
def run (service : Service database) (calls : Calls) (statement : Statement) :
    Service database :=
  { service with
    db := if calls.commits statement then database.execute service.db statement else service.db }

/-- `SetUserConnState` with the number of an account. -/
def setUserConnState (service : Service database) (calls : Calls) (nId : AccountId)
    (bOnline : Bool) : Service database :=
  service.run calls (.setUserConnState nId bOnline)

def evict (service : Service database) (calls : Calls) (nId : AccountId) (session : SessionPtr)
    (reason : LoginResult) : Service database :=
  { service with server := service.server.evict nId session reason }.setUserConnState calls nId
    false

def checkAnotherLogin (service : Service database) (calls : Calls) (nId : AccountId)
    (session : SessionPtr) : Service database :=
  match service.server.sessionmap nId with
  | none => service
  | some other => if session = other then service else service.evict calls nId other .duplicate

def checkLogin (service : Service database) (calls : Calls) (session : SessionPtr)
    (strId strPwd strDeviceNum : CText) : Verdict × Service database :=
  let environment := service.users.environment calls
  match environment.users strId, checkLoginVerdict environment strId strPwd strDeviceNum with
  | .row row, .granted nID strExpiredTime strToken =>
      (.granted nID strExpiredTime strToken,
        (service.checkAnotherLogin calls nID session).run calls
          (.updateUserInfo nID strDeviceNum (startTime environment strId row) strExpiredTime
            strToken true))
  | _, verdict => (verdict, service)

/-- The verdict on one account of a request is entered in session, map and history. -/
def enter (service : Service database) (session : SessionPtr) (strDeviceNum : CText)
    (verdict : Verdict) : Service database where
  server := service.server.enter session verdict
  db := service.db
  grants := service.grants ++
    match verdict with
    | .refused _ _ => []
    | .granted nID strExpiredTime strToken =>
        [{ nId := nID, session, strDeviceNum, strExpiredTime, strToken }]

/-- One turn of the loop of `HandleLogin`. -/
def loginAccount (service : Service database) (calls : Calls) (session : SessionPtr)
    (strDeviceNum strId strPwd : CText) : Verdict × Service database :=
  let checked := service.checkLogin calls session strId strPwd strDeviceNum
  (checked.1, checked.2.enter session strDeviceNum checked.1)

/-- The loop of `HandleLogin` over the accounts of a request. -/
def loginAccounts (service : Service database) (calls : Calls) (session : SessionPtr)
    (strDeviceNum : CText) : List (CText × CText) → List Verdict × Service database
  | [] => ([], service)
  | (strId, strPwd) :: later =>
      let turn :=
        if strId ∈ later.map Prod.fst then
          (.refused .duplicate LoginResult.duplicate_ne_success, service)
        else
          service.loginAccount calls session strDeviceNum strId strPwd
      let rest := turn.2.loginAccounts calls session strDeviceNum later
      (turn.1 :: rest.1, rest.2)

def handleLogin (service : Service database) (calls : Calls) (session : SessionPtr)
    (packet : Buffer) : Service database :=
  match Server.readRequest packet with
  | none => service
  | some (accounts, strDeviceNum) =>
      let checked := service.loginAccounts calls session strDeviceNum accounts
      { checked.2 with
        server := checked.2.server.sendPacket session (Server.loginAck checked.1) }

/-- `sessionmap.Remove` and `SetUserConnState` for each of some accounts. -/
def giveUp (service : Service database) (calls : Calls) (nIds : List AccountId) :
    Service database :=
  nIds.foldl
    (fun service nId =>
      { service with server := service.server.remove nId }.setUserConnState calls nId false)
    service

/-- Give up all accounts of a session, as logout and `OnRemoveSession` do. -/
def dropAccounts (service : Service database) (calls : Calls) (session : SessionPtr) :
    Service database :=
  let dropped := service.giveUp calls (service.server.sessions session).ids
  { dropped with
    server := dropped.server.modify session fun object => { object with ids := [] } }

def onRecvPacket (service : Service database) (calls : Calls) (now : ℕ) (session : SessionPtr)
    (received : Buffer) : Service database :=
  let service := { service with
    server := service.server.modify session fun object => { object with lastcommtick := now } }
  let packet := received.readStart
  if packet.used = 0 then
    service
  else if packet.opcode = opKeepalive then
    { service with
      server := service.server.sendPacket session { bOpcode := opKeepalive, fields := [] } }
  else if (service.server.sessions session).ids = [] then
    if packet.opcode = opLoginReq then
      service.handleLogin calls session packet
    else
      { service with server := service.server.sendPacket session Server.forceLogout }
  else if packet.opcode = opLogout then
    service.dropAccounts calls session
  else
    service

/-- `Session::DoDisconnect` as far as it touches sessions, accounts and the table. -/
def doDisconnect (service : Service database) (calls : Calls) (session : SessionPtr) :
    Service database :=
  let cleared := { service with
    server := service.server.modify session fun object => { object with writepacketlist := [] } }
  let removed := cleared.dropAccounts calls session
  { removed with server := removed.server.release session }

/-- What `CheckClients` does with one line of the answer to its query. -/
def expire (service : Service database) (calls : Calls) (nExpiredID : AccountId) :
    Service database :=
  match service.server.sessionmap nExpiredID with
  | none => service
  | some session => service.evict calls nExpiredID session .expired

/-- The first loop of `CheckClients`, over the answer to its query. -/
def checkClients (service : Service database) (calls : Calls) (answer : List AccountId) :
    Service database :=
  answer.foldl (fun service nExpiredID => service.expire calls nExpiredID) service

def initAllConnections (service : Service database) (calls : Calls) : Service database :=
  (service.server.storage.list.foldl
    (fun service session =>
      let dropped := service.giveUp calls (service.server.sessions session).ids
      { dropped with
        server := (dropped.server.sendPacket session Server.forceLogout).modify session
          fun object => { object with ids := [] } })
    service).run calls .initAllConnections

inductive Event where
  | onAddSession (now : ℕ)
  | onRecvPacket (calls : Calls) (now : ℕ) (session : SessionPtr) (packet : Buffer)
  | onRemoveSession (calls : Calls) (session : SessionPtr)
  | expire (calls : Calls) (nExpiredID : AccountId)
  | initAllConnections (calls : Calls)

def handle (service : Service database) : Event → Service database
  | .onAddSession now => { service with server := (service.server.accept now).2 }
  | .onRecvPacket calls now session packet => service.onRecvPacket calls now session packet
  | .onRemoveSession calls session => service.doDisconnect calls session
  | .expire calls nExpiredID => service.expire calls nExpiredID
  | .initAllConnections calls => service.initAllConnections calls

/-- The strings of a request stay in the literals of the statements. -/
def Harmless (codePage : CodePage) (packet : Buffer) : Prop :=
  ∀ accounts strDeviceNum, Server.readRequest packet = some (accounts, strDeviceNum) →
    isIntact quote (codePage.narrowed strDeviceNum) ∧
      ∀ account ∈ accounts, isIntact quote (codePage.narrowed account.1)

/-- Packets are received on sessions in use, and their strings are harmless. -/
def Event.Admissible (codePage : CodePage) (service : Service database) : Event → Prop
  | .onRecvPacket _ _ session packet =>
      session ∈ service.server.storage.list ∧ Harmless codePage packet.readStart
  | _ => True

/-- Server and database under any order of the handlers, from a table of some kind. -/
def system (database : Database) (codePage : CodePage) (starts : Users → Prop) :
    StepSystem (Service database) Event where
  initial service := service.server = Server.start ∧ service.grants = [] ∧ starts service.users
  step service event next := event.Admissible codePage service ∧ next = service.handle event

/-- What a statement does to the table. -/
theorem users_run (service : Service database) (calls : Calls) (statement : Statement) :
    (service.run calls statement).users = service.users.run database.stored calls statement := by
  simp only [users, run, Users.run]
  split
  · exact database.table_execute service.db statement
  · rfl

end Service

end PoETask.AuthServer
