import Mathlib.Logic.Relation
import PoETask.AuthServer.UsersTable

/-!
# Steps of server and table

Two facts about the handlers carry every result about the table. The server part of a
handler is the handler of the server alone, run with the answers that the table gives, so
what holds in every run of the server holds here. And what a handler does to map, table
and history is a sequence of four acts: nothing, taking an account off the map, granting
one, and clearing all lines when the map is empty. A property that every act keeps is an
invariant.
-/

namespace PoETask.AuthServer

open PoETask.Library PoETask.Wire

/-- The subscription of an account has begun. -/
def Started (strStartTime : CText) : Prop :=
  ¬ (strStartTime.isEmpty ∨ strStartTime = nullText ∨ strStartTime = zeroDateText)

/-- What `CheckLogin` has found in a line when it grants the account. -/
structure Granting (environment : Environment) (strId strDeviceNum : CText) (row : UserRow)
    (nID : AccountId) (strExpiredTime : CText) : Prop where
  answer : environment.users strId = .row row
  no_eq : row.no = nID
  device_nonempty : ¬ strDeviceNum.isEmpty
  device : strDeviceNum = row.userDeviceNum ∨ row.userDeviceNum.isEmpty ∨
    row.userDeviceNum = nullText
  expired_eq : Started row.userStartDatetime → strExpiredTime = row.userEndDatetime
  dated : ¬ Started row.userStartDatetime →
    ∃ time, strExpiredTime = (environment.clock strId).format time

/-- Two environments answer the same about some account names. -/
structure SameAnswers (environment seen : Environment) (names : List CText) : Prop where
  users_eq : ∀ name ∈ names, environment.users name = seen.users name
  clock_eq : environment.clock = seen.clock
  getSha1_eq : environment.getSha1 = seen.getSha1

theorem SameAnswers.verdict_eq {environment seen : Environment} {names : List CText}
    {strId strPwd strDeviceNum : CText} (same : SameAnswers environment seen names)
    (named : strId ∈ names) :
    checkLoginVerdict environment strId strPwd strDeviceNum =
      checkLoginVerdict seen strId strPwd strDeviceNum := by
  simp only [checkLoginVerdict, generateToken, same.users_eq strId named, same.clock_eq,
    same.getSha1_eq]

theorem SameAnswers.mono {environment seen : Environment} {names fewer : List CText}
    (same : SameAnswers environment seen names) (subset : fewer ⊆ names) :
    SameAnswers environment seen fewer :=
  ⟨fun name named => same.users_eq name (subset named), same.clock_eq, same.getSha1_eq⟩

theorem SameAnswers.trans {environment seen other : Environment} {names : List CText}
    (same : SameAnswers environment seen names) (sameToo : SameAnswers seen other names) :
    SameAnswers environment other names where
  users_eq name named := (same.users_eq name named).trans (sameToo.users_eq name named)
  clock_eq := same.clock_eq.trans sameToo.clock_eq
  getSha1_eq := same.getSha1_eq.trans sameToo.getSha1_eq

/-- A statement that is not about an account. -/
def Statement.Spares (other : AccountId) : Statement → Prop
  | .setUserConnState nId _ => other ≠ nId
  | .updateUserInfo nId _ _ _ _ _ => other ≠ nId
  | .initAllConnections => False

namespace Users

variable {users : Users} {stored : Column → CText → CText} {calls : Calls} {nId : AccountId}

/-- A line is the answer to a name that finds it. -/
theorem environment_eq_row {name : CText} {row : UserRow}
    (answer : (users.environment calls).users name = .row row) :
    users.find name = some row.no ∧ ∃ line, users.line row.no = some line ∧
      row = line.row row.no := by
  simp only [environment] at answer
  split at answer
  · split at answer
    · cases answer
    · rename_i nId found
      cases line_eq : users.line nId with
      | none => simp [line_eq] at answer
      | some line =>
          simp only [line_eq, Option.elim_some, SQLResult.row.injEq] at answer
          subst answer
          exact ⟨found, line, line_eq, rfl⟩
  · cases answer

theorem DistinctIds.environment (distinct : users.DistinctIds) (calls : Calls) :
    (users.environment calls).DistinctIds := by
  intro name other row otherRow answer otherAnswer same
  rcases environment_eq_row answer with ⟨found, -⟩
  rcases environment_eq_row otherAnswer with ⟨otherFound, -⟩
  exact distinct name other row.no found (same ▸ otherFound)

theorem line_run_of_spares (statement : Statement) {other : AccountId}
    (spares : statement.Spares other) :
    (users.run stored calls statement).line other = users.line other := by
  simp only [run]
  split
  · cases statement with
    | setUserConnState nId bOnline => exact line_update_of_ne _ spares
    | updateUserInfo nId device start finish token state => exact line_update_of_ne _ spares
    | initAllConnections => exact absurd spares id
  · rfl

end Users

namespace Service

variable {database : Database} {service : Service database} {calls : Calls}
  {session : SessionPtr}

end Service

namespace Users

end Users

namespace Calls

/-- Every statement takes effect. -/
def Commit (calls : Calls) : Prop := ∀ statement, calls.commits statement = true

/-- Every update of a login takes effect, and the clock formats times as dates that the columns
give back as they were written. -/
structure Record (database : Database) (calls : Calls) : Prop where
  commits : ∀ nId strDeviceNum strStartTime strFinishTime strToken nConnState, calls.commits
    (.updateUserInfo nId strDeviceNum strStartTime strFinishTime strToken nConnState) = true
  dates : ∀ name time, Started ((calls.clock name).format time)
  stored_start : ∀ name time, database.stored .userStartDatetime ((calls.clock name).format time) =
    (calls.clock name).format time
  stored_end : ∀ name time, database.stored .userEndDatetime ((calls.clock name).format time) =
    (calls.clock name).format time

end Calls

namespace Server

end Server

namespace Service

/-- What the handlers do, one access to map and table at a time. -/
inductive Act (allowed : Calls → Prop) : Service database → Service database → Prop where
  | quiet (service : Service database) (server : Server)
      (map_eq : server.sessionmap = service.server.sessionmap) :
      Act allowed service { service with server }
  | clear (service : Service database) (calls : Calls) (isAllowed : allowed calls) (server : Server)
      (nId : AccountId)
      (map_eq : server.sessionmap = Function.update service.server.sessionmap nId none) :
      Act allowed service
        (({ service with server } : Service database).run calls (.setUserConnState nId false))
  | grant (service : Service database) (calls : Calls) (isAllowed : allowed calls)
      (session : SessionPtr) (strDeviceNum strId : CText) (row : UserRow) (nID : AccountId)
      (strExpiredTime strToken : CText)
      (granting : Granting (service.users.environment calls) strId strDeviceNum row nID
        strExpiredTime) (server : Server)
      (map_eq : server.sessionmap = Function.update service.server.sessionmap nID (some session)) :
      Act allowed service
        { server
          db := (service.run calls (.updateUserInfo nID strDeviceNum
            (startTime (service.users.environment calls) strId row) strExpiredTime strToken
            true)).db
          grants := service.grants ++
            [{ nId := nID, session, strDeviceNum, strExpiredTime, strToken }] }
  | reset (service : Service database) (calls : Calls) (isAllowed : allowed calls)
      (empty : ∀ nId, service.server.sessionmap nId = none) :
      Act allowed service (service.run calls .initAllConnections)

/-- Some acts in a row. -/
abbrev Acts (allowed : Calls → Prop) : Service database → Service database → Prop :=
  Relation.ReflTransGen (Act allowed)

variable {allowed : Calls → Prop} {service : Service database} {calls : Calls}
  {session : SessionPtr}

theorem Acts.quiet (server : Server) (map_eq : server.sessionmap = service.server.sessionmap) :
    Acts allowed service { service with server } :=
  .single (.quiet service server map_eq)

theorem Acts.keeps {next : Service database} {property : Service database → Prop}
    (acts : Acts allowed service next)
    (act : ∀ service next, Act allowed service next → property service → property next)
    (holds : property service) : property next := by
  induction acts with
  | refl => exact holds
  | tail _ last kept => exact act _ _ last kept

end Service

namespace Service

/-- A table with one account, `a` with password `b`, that nobody has used yet. -/
def oneUser : Users where
  find name := if name = CText.letterA then some 7 else none
  line nId :=
    if nId = 7 then
      some { userPassword := CText.letterB, userDeviceNum := CText.empty
             userStartDatetime := CText.empty, userEndDatetime := ⟨[53], by decide⟩
             userToken := CText.empty, userConState := false, userAccType := 30 }
    else
      none

/-- A database whose columns give back every text as it was written. -/
def plainDatabase : Database where
  State := Users
  table users := users
  stored _ text := text
  execute users statement := users.execute (fun _ text => text) statement
  table_execute _ _ := rfl
  stored_line _ _ _ _ := ⟨rfl, rfl, rfl⟩

/-- Calls that never fail. -/
def steadyCalls : Calls where
  answers _ := true
  commits _ := true
  clock _ := { currentTime := 0, localTime := 0, parseDateTime := fun _ => some 1
               format := fun _ => ⟨[52], by decide⟩ }
  getSha1 _ := ⟨[54], by decide⟩

def unused : Service plainDatabase where
  server := Server.start
  db := oneUser
  grants := []

/-- A login request that reaches a session without accounts is handled. -/
theorem onRecvPacket_loginReq {database : Database} {service : Service database}
    {calls : Calls} {now : ℕ} {session : SessionPtr} {packet : Buffer} {key : UInt8} {body : List UInt8}
    (framed : packet.Framed opLoginReq key body)
    (noIds : (service.server.sessions session).ids = []) :
    service.onRecvPacket calls now session packet =
      ({ service with server := service.server.modify session fun object =>
        { object with lastcommtick := now } } : Service database).handleLogin calls session
          packet.readStart := by
  have used := framed.used_eq
  have opcode_eq : packet.readStart.opcode = opLoginReq := framed.opcode_eq
  have notEmpty : packet.readStart.used ≠ 0 := by
    change packet.used ≠ 0
    omega
  have noIdsNow : ((service.server.modify session fun object =>
      { object with lastcommtick := now }).sessions session).ids = [] := by
    simpa [Server.modify] using noIds
  simp only [onRecvPacket]
  simp only [if_neg notEmpty, opcode_eq, noIdsNow, if_true]
  rw [if_neg (by decide)]

/-- The account of the table as a request names it, with its device string. -/
def oneRequest : List (CText × CText) × CText :=
  ([(CText.letterA, CText.letterB)], ⟨[100], by decide⟩)

def turn (service : Service plainDatabase) (session : SessionPtr) : Service plainDatabase :=
  let checked := ({ service with server := service.server.modify session fun object =>
    { object with lastcommtick := 0 } } : Service plainDatabase).loginAccounts steadyCalls session
    oneRequest.2 oneRequest.1
  { checked.2 with server := checked.2.server.sendPacket session (Server.loginAck checked.1) }

def accepted : Service plainDatabase :=
  { unused with server := ((Server.start.accept 0).2.accept 0).2 }

end Service

end PoETask.AuthServer
