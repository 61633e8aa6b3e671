import PoETask.AuthServer.TableSteps

/-!
# The terms of an account

The first login of an account fixes its terms: `UpdateUserInfo` writes the device string
and, when the subscription had not begun, its start and end. A later `CheckLogin` reads
back what the columns have made of them. As long as the updates of logins take effect, all
grants of an account report one expiry and go to one device, as far as the column tells
devices apart and the first device leaves a mark there, whatever happens between them.
-/

namespace PoETask.AuthServer

open PoETask.Library PoETask.Wire

namespace Users

/-- The terms of the accounts, who may use them and how long, are the same. -/
def KeepsTerms (users next : Users) : Prop :=
  ∀ nId line, users.line nId = some line → ∃ later, next.line nId = some later ∧
    later.userDeviceNum = line.userDeviceNum ∧ later.userStartDatetime = line.userStartDatetime ∧
    later.userEndDatetime = line.userEndDatetime

/-- Setting connection states keeps the terms. -/
theorem keepsTerms_of_connState {users next : Users} (line_eq : ∀ nId,
    next.line nId = users.line nId ∨
      next.line nId = (users.line nId).map (UserLine.setConnState false)) :
    users.KeepsTerms next := by
  intro nId line found
  rcases line_eq nId with same | cleared
  · exact ⟨line, same.trans found, rfl, rfl, rfl⟩
  · exact ⟨line.setConnState false, by rw [cleared, found]; rfl, rfl, rfl, rfl⟩

variable (stored : Column → CText → CText)

theorem line_clear (users : Users) (calls : Calls) (nId other : AccountId) :
    (users.run stored calls (.setUserConnState nId false)).line other = users.line other ∨
      (users.run stored calls (.setUserConnState nId false)).line other =
        (users.line other).map (UserLine.setConnState false) := by
  by_cases same : other = nId
  · subst same
    simp only [run]
    split
    · exact .inr (line_update_self _)
    · exact .inl rfl
  · exact .inl (line_run_of_spares (.setUserConnState nId false) same)

theorem line_updateUserInfo {users : Users} {calls : Calls} {nId : AccountId} {line : UserLine}
    {strDeviceNum strStartTime strFinishTime strToken : CText} {nConnState : Bool}
    (found : users.line nId = some line)
    (commits : calls.commits (.updateUserInfo nId strDeviceNum strStartTime strFinishTime strToken
      nConnState) = true) :
    (users.run stored calls (.updateUserInfo nId strDeviceNum strStartTime strFinishTime strToken
      nConnState)).line nId =
      some (line.setInfo (stored .userDeviceNum strDeviceNum)
        (stored .userStartDatetime strStartTime) (stored .userEndDatetime strFinishTime)
        (stored .userToken strToken) nConnState) := by
  rw [run, if_pos commits, execute, line_update_self, found, Option.map_some]

theorem line_reset (users : Users) (calls : Calls) (nId : AccountId) :
    (users.run stored calls .initAllConnections).line nId = users.line nId ∨
      (users.run stored calls .initAllConnections).line nId =
        (users.line nId).map (UserLine.setConnState false) := by
  simp only [run]
  split
  · exact .inr rfl
  · exact .inl rfl

end Users

/-- The column marks an account with a device: what it gives back is not taken for no device. -/
def Database.Marks (database : Database) (strDeviceNum : CText) : Prop :=
  ¬ ((database.stored .userDeviceNum strDeviceNum).isEmpty ∨
    database.stored .userDeviceNum strDeviceNum = nullText)

/-- The line is one that a login of the account leaves behind. -/
structure Grant.Binds (database : Database) (grant : Grant) (line : UserLine) : Prop where
  device_eq : database.Marks grant.strDeviceNum →
    line.userDeviceNum = database.stored .userDeviceNum grant.strDeviceNum
  started : Started line.userStartDatetime
  expired_eq : line.userEndDatetime = grant.strExpiredTime

/-- A start time that stands in the line is kept. -/
theorem startTime_of_started {environment : Environment} {strId : CText} {row : UserRow}
    (started : Started row.userStartDatetime) :
    startTime environment strId row = row.userStartDatetime := by
  rw [startTime, if_neg started]

theorem startTime_of_not_started {environment : Environment} {strId : CText} {row : UserRow}
    (notStarted : ¬ Started row.userStartDatetime) :
    ∃ time, startTime environment strId row = (environment.clock strId).format time := by
  rw [startTime, if_pos (not_not.mp notStarted)]
  exact ⟨_, rfl⟩

namespace Service

variable {database : Database} {codePage : CodePage} {service : Service database}

/-- Every grant of the history still binds the line of its account. -/
def Bound (service : Service database) : Prop :=
  ∀ grant ∈ service.grants, ∃ line, service.users.line grant.nId = some line ∧
    grant.Binds database line

theorem Bound.of_keepsTerms {next : Service database} (bound : service.Bound)
    (keeps : service.users.KeepsTerms next.users) (grants_eq : next.grants = service.grants) :
    next.Bound := by
  intro grant granted
  rw [grants_eq] at granted
  rcases bound grant granted with ⟨line, found, binds⟩
  rcases keeps grant.nId line found with ⟨later, found, device_eq, start_eq, end_eq⟩
  exact ⟨later, found, fun marks => device_eq.trans (binds.device_eq marks),
    start_eq ▸ binds.started, end_eq.trans binds.expired_eq⟩

/-- The line that a granted login writes over the one it has read. -/
def granted (database : Database) (line : UserLine) (strDeviceNum strStartTime strExpiredTime
    strToken : CText) : UserLine :=
  line.setInfo (database.stored .userDeviceNum strDeviceNum)
    (database.stored .userStartDatetime strStartTime)
    (database.stored .userEndDatetime strExpiredTime) (database.stored .userToken strToken) true

section Granted

variable {calls : Calls} {strId strDeviceNum strExpiredTime strToken : CText} {line : UserLine}
  {nID : AccountId}

/-- The line written by a login binds the login. -/
theorem binds_granted {session : SessionPtr} (record : calls.Record database)
    (found : service.users.line nID = some line)
    (granting : Granting (service.users.environment calls) strId strDeviceNum (line.row nID) nID
      strExpiredTime) :
    Grant.Binds database { nId := nID, session, strDeviceNum, strExpiredTime, strToken }
      (granted database line strDeviceNum
        (startTime (service.users.environment calls) strId (line.row nID)) strExpiredTime
        strToken) := by
  rcases database.stored_line service.db nID line found with ⟨-, start_kept, end_kept⟩
  by_cases started : Started (line.row nID).userStartDatetime
  · have expired_eq := granting.expired_eq started
    refine ⟨fun _ => rfl, ?_, ?_⟩
    · rw [startTime_of_started started]
      change Started (database.stored .userStartDatetime line.userStartDatetime)
      rw [start_kept]
      exact started
    · exact (congrArg _ expired_eq).trans (end_kept.trans expired_eq.symm)
  · rcases granting.dated started with ⟨time, expired_eq⟩
    have ⟨startsAt, start_eq⟩ : ∃ startsAt,
        startTime (service.users.environment calls) strId (line.row nID) =
          (calls.clock strId).format startsAt := startTime_of_not_started started
    refine ⟨fun _ => rfl, ?_, ?_⟩
    · rw [start_eq]
      have start_stored := record.stored_start strId startsAt
      change Started (database.stored .userStartDatetime ((calls.clock strId).format startsAt))
      rw [start_stored]
      exact record.dates strId startsAt
    · rw [expired_eq]
      exact record.stored_end strId time

/-- A login that is granted writes a line that binds the earlier grants of the account too. -/
theorem binds_relogin {grant : Grant} (binds : grant.Binds database line)
    (found : service.users.line nID = some line)
    (granting : Granting (service.users.environment calls) strId strDeviceNum (line.row nID) nID
      strExpiredTime) :
    grant.Binds database (granted database line strDeviceNum
      (startTime (service.users.environment calls) strId (line.row nID)) strExpiredTime
      strToken) := by
  rcases database.stored_line service.db nID line found with ⟨device_kept, start_kept, end_kept⟩
  have started : Started (line.row nID).userStartDatetime := binds.started
  refine ⟨?_, ?_, ?_⟩
  · intro marks
    have device_eq : (line.row nID).userDeviceNum =
        database.stored .userDeviceNum grant.strDeviceNum := binds.device_eq marks
    have same : strDeviceNum = line.userDeviceNum := by
      rcases granting.device with same | unset
      · exact same
      · rw [device_eq] at unset
        exact absurd unset marks
    exact (congrArg _ same).trans (device_kept.trans device_eq)
  · rw [startTime_of_started started]
    change Started (database.stored .userStartDatetime line.userStartDatetime)
    rw [start_kept]
    exact started
  · rw [granting.expired_eq started]
    exact end_kept.trans binds.expired_eq

end Granted

theorem Bound.act {service next : Service database}
    (act : Act (Calls.Record database) service next) (bound : service.Bound) : next.Bound := by
  cases act with
  | quiet server map_eq => exact bound
  | clear calls isAllowed server nId map_eq =>
      refine bound.of_keepsTerms ?_ rfl
      rw [users_run]
      exact Users.keepsTerms_of_connState (Users.line_clear _ _ calls nId)
  | reset calls isAllowed empty =>
      refine bound.of_keepsTerms ?_ rfl
      rw [users_run]
      exact Users.keepsTerms_of_connState (Users.line_reset _ _ calls)
  | grant calls isAllowed session strDeviceNum strId row nID strExpiredTime strToken granting
      server map_eq =>
      rcases Users.environment_eq_row granting.answer with ⟨-, line, found, row_eq⟩
      rw [granting.no_eq] at found row_eq
      subst row_eq
      let statement : Statement := .updateUserInfo nID strDeviceNum
        (startTime (service.users.environment calls) strId (line.row nID)) strExpiredTime
        strToken true
      have users_eq : (service.run calls statement).users =
          service.users.run database.stored calls statement := users_run _ _ _
      have written : (service.run calls statement).users.line nID =
          some (Service.granted database line strDeviceNum _ strExpiredTime strToken) :=
        users_eq ▸ Users.line_updateUserInfo _ found (isAllowed.commits _ _ _ _ _ _)
      intro grant granted
      rcases List.mem_append.mp granted with before | isNew
      · rcases bound grant before with ⟨old, oldFound, binds⟩
        by_cases same : grant.nId = nID
        · rw [same, found] at oldFound
          cases oldFound
          exact ⟨_, (congrArg _ same).trans written, binds_relogin binds found granting⟩
        · refine ⟨old, ?_, binds⟩
          have spares : statement.Spares grant.nId := same
          change (service.run calls statement).users.line grant.nId = some old
          rw [users_eq, Users.line_run_of_spares statement spares]
          exact oldFound
      · obtain rfl := List.mem_singleton.mp isNew
        exact ⟨_, written, binds_granted isAllowed found granting⟩

end Service

end PoETask.AuthServer
