import Mathlib.Data.List.Destutter
import Mathlib.Logic.Function.Basic
import PoETask.Wire.Protocol

/-!
# The authorisation server

Sessions live in a `Storage` and are addressed by pointer; `sessionmap` leads from
an account id to the session that logged it in, and every session lists the ids it
holds. This file models the storage and the handlers of `Engine.cpp` that touch the
two: login, logout, connection setup and teardown, expiry of one account and the
reset of all connections.

Ids are `int` in the sessions and `UINT` in the map; the model keeps their common
bits. The database is stubbed in the program. What it answers, the clock readings
and the SHA-1 digest are an `Environment` that every login may find changed. Writes
to the database are not modelled, since no handler reads them back. A packet in a
write queue is the message it was composed from. The lines that a login logs, and
the buffers it fills, can end the program; `LoginLog` runs `HandleLogin` with them.
-/

namespace PoETask.AuthServer

open PoETask.Library PoETask.Wire

abbrev SessionPtr := ℕ

abbrev AccountId := UInt32

/-- `Storage<Session>`: the objects in use, the released ones and the next address. -/
structure Storage where
  list : List SessionPtr
  freelist : List SessionPtr
  heap : SessionPtr

namespace Storage

/-- `List::Unique`. -/
def unique (pointers : List SessionPtr) : List SessionPtr := pointers.destutter (· ≠ ·)

/-- `Storage::Allocate`; the flag tells a new object from a recycled one. -/
def allocate (storage : Storage) : SessionPtr × Bool × Storage :=
  match storage.freelist with
  | p :: rest =>
      if 10 ≤ storage.freelist.length then
        (p, false, { storage with list := unique (storage.list ++ [p]), freelist := rest })
      else
        (storage.heap, true,
          { storage with list := unique (storage.list ++ [storage.heap]), heap := storage.heap + 1 })
  | [] =>
      (storage.heap, true,
        { storage with list := unique (storage.list ++ [storage.heap]), heap := storage.heap + 1 })

/-- `Storage::Release` of an object that is in use. -/
def release (storage : Storage) (p : SessionPtr) : Storage :=
  { storage with
    list := storage.list.filter (· ≠ p)
    freelist := unique (storage.freelist ++ [p]) }

end Storage

structure Session where
  ids : List AccountId
  lastcommtick : ℕ
  writepacketlist : List Message

namespace Session

/-- `new Session`. -/
def new (now : ℕ) : Session := { ids := [], lastcommtick := now, writepacketlist := [] }

/-- `Session::Init`, which leaves the ids alone. -/
def init (session : Session) (now : ℕ) : Session := { session with lastcommtick := now }

/-- `Session::Deinit`. -/
def deinit (session : Session) : Session := { session with ids := [], writepacketlist := [] }

end Session

structure Server where
  sessions : SessionPtr → Session
  storage : Storage
  sessionmap : AccountId → Option SessionPtr

/-- One line of the `users` table as `CheckLogin` reads it. -/
structure UserRow where
  no : AccountId
  userPassword : CText
  userDeviceNum : CText
  userStartDatetime : CText
  userEndDatetime : CText
  userAccType : ℤ

inductive SQLResult where
  | canNotConnect
  | canNotQuery
  | noRow
  | row (row : UserRow)

/-- The clock and the date conversions during one check, in seconds. -/
structure Clock where
  currentTime : ℤ
  localTime : ℤ
  parseDateTime : CText → Option ℤ
  format : ℤ → CText

/-- What a login finds outside the program, for each account name it asks about. -/
structure Environment where
  users : CText → SQLResult
  clock : CText → Clock
  getSha1 : List UInt8 → CText

namespace Environment

/-- Distinct account names never resolve to one id. -/
def DistinctIds (environment : Environment) : Prop :=
  ∀ name other row otherRow, environment.users name = .row row →
    environment.users other = .row otherRow → row.no = otherRow.no → name = other

end Environment

/-- The outcome of `CheckLogin` with the values it returns by reference on success. -/
inductive Verdict where
  | refused (nRet : LoginResult) (refusal : nRet ≠ .success)
  | granted (nID : AccountId) (strExpiredTime strToken : CText)

namespace Verdict

def nRet : Verdict → LoginResult
  | refused nRet _ => nRet
  | granted _ _ _ => .success

/-- The part of the answer packet that reports a verdict. -/
def fields : Verdict → List Field
  | refused nRet _ => [uintField nRet.code]
  | granted nID strExpiredTime strToken =>
      [uintField LoginResult.success.code, uintField nID.toNat, textField strExpiredTime,
        textField strToken]

end Verdict

/-- `L"(null)"`. -/
def nullText : CText := ⟨[40, 110, 117, 108, 108, 41], by decide⟩

/-- `L"0000-00-00 00:00:00"`. -/
def zeroDateText : CText :=
  ⟨[48, 48, 48, 48, 45, 48, 48, 45, 48, 48, 32, 48, 48, 58, 48, 48, 58, 48, 48], by decide⟩

/-- `GenerateToken`. -/
def generateToken (environment : Environment) (strDeviceNum strAccount : CText)
    (nId : AccountId) : CText :=
  let clock := environment.clock strAccount
  environment.getSha1 (wideBytes strDeviceNum.val ++ wideBytes strAccount.val ++
    wideBytes (clock.format clock.currentTime).val ++ leBytes 4 nId.toNat)

/-- The decision of `CheckLogin`; its one effect on the server is `checkAnotherLogin`. -/
def checkLoginVerdict (environment : Environment) (strId strPwd strDeviceNum : CText) : Verdict :=
  if strId.isEmpty || strPwd.isEmpty || strDeviceNum.isEmpty then
    .refused .invalidAccount (by decide)
  else
    match environment.users strId with
    | .canNotConnect => .refused .invalidAccount (by decide)
    | .canNotQuery => .refused .invalidAccount (by decide)
    | .noRow => .refused .invalidAccount (by decide)
    | .row row =>
        if strPwd = row.userPassword then
          if strDeviceNum = row.userDeviceNum ∨ row.userDeviceNum.isEmpty ∨
              row.userDeviceNum = nullText then
            let clock := environment.clock strId
            let expTime := (clock.parseDateTime row.userEndDatetime).getD clock.currentTime
            let sysTime := clock.localTime
            if expTime > sysTime then
              let strExpiredTime :=
                if row.userStartDatetime.isEmpty ∨ row.userStartDatetime = nullText ∨
                    row.userStartDatetime = zeroDateText then
                  clock.format (sysTime + row.userAccType * 24 * 3600)
                else
                  row.userEndDatetime
              .granted row.no strExpiredTime (generateToken environment strDeviceNum strId row.no)
            else
              .refused .expired (by decide)
          else
            .refused .invalidAccount (by decide)
        else
          .refused .invalidAccount (by decide)

namespace Server

/-- Change the session object at an address. -/
def modify (server : Server) (session : SessionPtr) (change : Session → Session) : Server :=
  { server with
    sessions := Function.update server.sessions session (change (server.sessions session)) }

/-- `SendPacket` and `SendFormatedPacket`. -/
def sendPacket (server : Server) (session : SessionPtr) (message : Message) : Server :=
  server.modify session fun object =>
    { object with writepacketlist := object.writepacketlist ++ [message] }

/-- `sessionmap.Remove`. -/
def remove (server : Server) (nId : AccountId) : Server :=
  { server with sessionmap := Function.update server.sessionmap nId none }

/-- `sessionmap.SetAt`. -/
def setAt (server : Server) (nId : AccountId) (session : SessionPtr) : Server :=
  { server with sessionmap := Function.update server.sessionmap nId (some session) }

/-- The message that tells a client why it lost an account. -/
def disconnectAccount (nId : AccountId) (reason : LoginResult) : Message :=
  { bOpcode := opDisconnectAccount, fields := [uintField nId.toNat, uintField reason.code] }

def forceLogout : Message := { bOpcode := opForceLogout, fields := [] }

/-- Take an account from the session that holds it, as `CheckAnotherLogin` and `CheckClients` do. -/
def evict (server : Server) (nId : AccountId) (session : SessionPtr) (reason : LoginResult) :
    Server :=
  ((server.sendPacket session (disconnectAccount nId reason)).modify session fun object =>
    { object with ids := object.ids.erase nId }).remove nId

def checkAnotherLogin (server : Server) (nId : AccountId) (session : SessionPtr) : Server :=
  match server.sessionmap nId with
  | none => server
  | some other => if session = other then server else server.evict nId other .duplicate

def checkLogin (server : Server) (environment : Environment) (session : SessionPtr)
    (strId strPwd strDeviceNum : CText) : Verdict × Server :=
  match checkLoginVerdict environment strId strPwd strDeviceNum with
  | .refused nRet refusal => (.refused nRet refusal, server)
  | .granted nID strExpiredTime strToken =>
      (.granted nID strExpiredTime strToken, server.checkAnotherLogin nID session)

/-- The verdict on one account of a request is entered in session and map. -/
def enter (server : Server) (session : SessionPtr) : Verdict → Server
  | .refused _ _ => server
  | .granted nID _ _ =>
      (server.modify session fun object => { object with ids := object.ids ++ [nID] }).setAt
        nID session

/-- The loop of `HandleLogin` over the accounts of a request. -/
def loginAccounts (server : Server) (environment : Environment) (session : SessionPtr)
    (strDeviceNum : CText) : List (CText × CText) → List Verdict × Server
  | [] => ([], server)
  | (strId, strPwd) :: later =>
      let checked :=
        if strId ∈ later.map Prod.fst then
          (.refused .duplicate LoginResult.duplicate_ne_success, server)
        else
          server.checkLogin environment session strId strPwd strDeviceNum
      let rest := (checked.2.enter session checked.1).loginAccounts environment session
        strDeviceNum later
      (checked.1 :: rest.1, rest.2)

/-- The reading loop of `HandleLogin`. -/
def readAccounts : ℕ → Buffer → List (CText × CText) × Buffer
  | 0, packet => ([], packet)
  | count + 1, packet =>
      let strId := packet.readText
      let strPwd := strId.2.readText
      let rest := readAccounts count strPwd.2
      ((strId.1, strPwd.1) :: rest.1, rest.2)

/-- The request that `HandleLogin` reads from a packet, unless it announces too many accounts. -/
def readRequest (packet : Buffer) : Option (List (CText × CText) × CText) :=
  let dwAccountNum := packet.read 4
  if dwAccountNum.1 ≥ maxAccountNum then
    none
  else
    let accounts := readAccounts dwAccountNum.1 dwAccountNum.2
    some (accounts.1, accounts.2.readText.1)

theorem readAccounts_of_unread (accounts : List (CText × CText)) {packet : Buffer}
    {tail : List UInt8}
    (short : ∀ account ∈ accounts, account.1.val.length ≤ 260 ∧ account.2.val.length ≤ 260)
    (unread : packet.Unread ((accounts.flatMap accountFields).flatMap Field.bytes ++ tail)) :
    (readAccounts accounts.length packet).1 = accounts ∧
      (readAccounts accounts.length packet).2.Unread tail := by
  induction accounts generalizing packet with
  | nil => exact ⟨rfl, unread⟩
  | cons account rest ih =>
      rcases short account List.mem_cons_self with ⟨shortId, shortPwd⟩
      simp only [accountFields, textField, List.flatMap_cons, List.cons_append, List.nil_append,
        List.append_assoc] at unread
      rcases unread.readText shortId with ⟨id_read, behindId⟩
      rcases behindId.readText shortPwd with ⟨pwd_read, behindPwd⟩
      rcases ih (fun other other_mem => short other (List.mem_cons_of_mem _ other_mem)) behindPwd
        with ⟨rest_read, behind⟩
      simp only [List.length_cons, readAccounts, id_read, pwd_read, rest_read]
      exact ⟨trivial, behind⟩

/-- A request of fewer than thirty accounts is read back. -/
theorem readRequest_of_unread {accounts : List (CText × CText)} {strDeviceNum : CText}
    {packet : Buffer} (few : accounts.length < 30)
    (short : ∀ account ∈ accounts, account.1.val.length ≤ 260 ∧ account.2.val.length ≤ 260)
    (shortDevice : strDeviceNum.val.length ≤ 260)
    (unread : packet.Unread ((uintField accounts.length :: accounts.flatMap accountFields ++
      [textField strDeviceNum]).flatMap Field.bytes)) :
    readRequest packet = some (accounts, strDeviceNum) := by
  simp only [uintField, textField, List.flatMap_cons, List.flatMap_append, List.cons_append,
    List.flatMap_nil] at unread
  rcases unread.read with ⟨count_read, behindCount⟩
  rw [Nat.mod_eq_of_lt (by omega)] at count_read
  rcases readAccounts_of_unread accounts short behindCount with ⟨accounts_read, behindAccounts⟩
  rcases behindAccounts.readText shortDevice with ⟨device_read, -⟩
  simp only [readRequest, count_read, accounts_read, device_read]
  rw [if_neg (by simp only [maxAccountNum]; omega)]

/-- Every such request that fits a packet arrives in one. -/
theorem exists_readRequest {accounts : List (CText × CText)} {strDeviceNum : CText}
    (few : accounts.length < 30)
    (short : ∀ account ∈ accounts, account.1.val.length ≤ 260 ∧ account.2.val.length ≤ 260)
    (shortDevice : strDeviceNum.val.length ≤ 260)
    (fits : 6 + ((uintField accounts.length :: accounts.flatMap accountFields ++
      [textField strDeviceNum]).flatMap Field.bytes).length ≤ 4000) :
    ∃ packet, readRequest packet = some (accounts, strDeviceNum) := by
  rcases Option.isSome_iff_exists.mp ((buildPacket_isSome_iff .blank opLoginReq _).mpr fits) with
    ⟨packet, built⟩
  rcases framed_of_buildPacket built with ⟨key, framed, -⟩
  exact ⟨packet.readStart, readRequest_of_unread few short shortDevice framed.unread⟩

/-- The answer to a login request. -/
def loginAck (verdicts : List Verdict) : Message :=
  { bOpcode := opLoginAck, fields := verdicts.flatMap Verdict.fields }

def handleLogin (server : Server) (environment : Environment) (session : SessionPtr)
    (packet : Buffer) : Server :=
  match readRequest packet with
  | none => server
  | some (accounts, strDeviceNum) =>
      let checked := server.loginAccounts environment session strDeviceNum accounts
      checked.2.sendPacket session (loginAck checked.1)

/-- Give up all accounts of a session, as logout and `OnRemoveSession` do. -/
def dropAccounts (server : Server) (session : SessionPtr) : Server :=
  ((server.sessions session).ids.foldl remove server).modify session fun object =>
    { object with ids := [] }

def onRecvPacket (server : Server) (environment : Environment) (now : ℕ) (session : SessionPtr)
    (received : Buffer) : Server :=
  let server := server.modify session fun object => { object with lastcommtick := now }
  let packet := received.readStart
  if packet.used = 0 then
    server
  else if packet.opcode = opKeepalive then
    server.sendPacket session { bOpcode := opKeepalive, fields := [] }
  else if (server.sessions session).ids = [] then
    if packet.opcode = opLoginReq then
      server.handleLogin environment session packet
    else
      server.sendPacket session forceLogout
  else if packet.opcode = opLogout then
    server.dropAccounts session
  else
    server

/-- A login request that reaches a session without accounts is handled. -/
theorem onRecvPacket_loginReq {server : Server} {environment : Environment} {now : ℕ}
    {session : SessionPtr} {packet : Buffer} {key : UInt8} {body : List UInt8}
    (framed : packet.Framed opLoginReq key body) (noIds : (server.sessions session).ids = []) :
    server.onRecvPacket environment now session packet =
      (server.modify session fun object => { object with lastcommtick := now }).handleLogin
        environment session packet.readStart := by
  have used := framed.used_eq
  have opcode_eq : packet.readStart.opcode = opLoginReq := framed.opcode_eq
  have notEmpty : packet.readStart.used ≠ 0 := by
    change packet.used ≠ 0
    omega
  have noIdsNow : ((server.modify session fun object =>
      { object with lastcommtick := now }).sessions session).ids = [] := by
    simpa [modify] using noIds
  simp only [onRecvPacket]
  simp only [if_neg notEmpty, opcode_eq, noIdsNow, if_true]
  rw [if_neg (by decide)]

def onAddSession (server : Server) (session : SessionPtr) : Server :=
  server.modify session fun object => { object with ids := [] }

def onRemoveSession (server : Server) (session : SessionPtr) : Server :=
  server.dropAccounts session

/-- `Allocate<Session>`. -/
def allocate (server : Server) (now : ℕ) : SessionPtr × Server :=
  match server.storage.allocate with
  | (session, created, storage) =>
      (session, ({ server with storage }).modify session fun object =>
        (if created then Session.new now else object).init now)

/-- `Release<Session>`. -/
def release (server : Server) (session : SessionPtr) : Server :=
  if session ∈ server.storage.list then
    { server.modify session Session.deinit with storage := server.storage.release session }
  else
    server

/-- The session part of `accept_procfunc`. -/
def accept (server : Server) (now : ℕ) : SessionPtr × Server :=
  let allocated := server.allocate now
  (allocated.1, allocated.2.onAddSession allocated.1)

/-- `Session::DoDisconnect` as far as it touches sessions and accounts. -/
def doDisconnect (server : Server) (session : SessionPtr) : Server :=
  ((server.modify session fun object => { object with writepacketlist := [] }).onRemoveSession
    session).release session

/-- What `CheckClients` does with one expired account. -/
def expire (server : Server) (nExpiredID : AccountId) : Server :=
  match server.sessionmap nExpiredID with
  | none => server
  | some session => server.evict nExpiredID session .expired

def initAllConnections (server : Server) : Server :=
  server.storage.list.foldl
    (fun server session =>
      let dropped := (server.sessions session).ids.foldl remove server
      (dropped.sendPacket session forceLogout).modify session fun object =>
        { object with ids := [] })
    server

end Server

end PoETask.AuthServer
