import PoETask.AuthServer.AccountTerms

/-!
# Presence in the table

`user_con_state` repeats in the database what `sessionmap` says in memory, and `CheckClients`
relies on it: its query looks only at lines that say they are connected. When every
statement takes effect the two agree in every reachable state, so that a sweep misses no
expired account.
-/

namespace PoETask.AuthServer

open PoETask.Library PoETask.Wire

namespace Service

variable {database : Database} {codePage : CodePage} {service : Service database}

/-- The latest grant of an account. -/
def lastGrant (service : Service database) (nId : AccountId) : Option Grant :=
  service.grants.reverse.find? fun grant => grant.nId = nId

/-- The line of an account says whether a session holds it and shows the token of that login. -/
def Tells (service : Service database) (nId : AccountId) : Prop :=
  match service.server.sessionmap nId with
  | none => ∀ line, service.users.line nId = some line →
      line.userConState = false ∧ line.userToken = CText.empty
  | some session => ∃ line grant, service.users.line nId = some line ∧
      service.lastGrant nId = some grant ∧ grant.session = session ∧
      line.userConState = true ∧ line.userToken = database.stored .userToken grant.strToken

theorem Tells.congr {next : Service database} {nId : AccountId} (tells : service.Tells nId)
    (map_eq : next.server.sessionmap nId = service.server.sessionmap nId)
    (line_eq : next.users.line nId = service.users.line nId)
    (last_eq : next.lastGrant nId = service.lastGrant nId) : next.Tells nId := by
  simp only [Tells, map_eq, line_eq, last_eq]
  exact tells

/-- A free account whose connection state has just been cleared. -/
theorem tells_of_cleared (service : Service database) {nId : AccountId} (line : Option UserLine)
    (free : service.server.sessionmap nId = none)
    (line_eq : service.users.line nId = line.map (UserLine.setConnState false)) :
    service.Tells nId := by
  simp only [Tells, free]
  intro found isLine
  rw [line_eq, Option.map_eq_some_iff] at isLine
  rcases isLine with ⟨before, -, rfl⟩
  exact ⟨rfl, rfl⟩

theorem lastGrant_append (grant : Grant) (nId : AccountId) (server : Server)
    (db : database.State) :
    ({ server, db, grants := service.grants ++ [grant] } : Service database).lastGrant nId =
      if grant.nId = nId then some grant else service.lastGrant nId := by
  simp only [lastGrant, List.reverse_append, List.reverse_singleton, List.singleton_append,
    List.find?_cons]
  by_cases same : grant.nId = nId
  · simp [same]
  · simp [same]

theorem Tells.act {service next : Service database} (act : Act Calls.Commit service next)
    (tells : ∀ nId, service.Tells nId) (nId : AccountId) : next.Tells nId := by
  cases act with
  | quiet server map_eq => exact (tells nId).congr (congrFun map_eq nId) rfl rfl
  | clear calls isAllowed server cleared map_eq =>
      by_cases same : nId = cleared
      · subst same
        apply tells_of_cleared _ (service.users.line nId)
        · exact (congrFun map_eq nId).trans (Function.update_self _ _ _)
        · rw [users_run, Users.run, if_pos (isAllowed _)]
          exact Users.line_update_self _
      · apply (tells nId).congr
        · exact (congrFun map_eq nId).trans (Function.update_of_ne same _ _)
        · rw [users_run]
          exact Users.line_run_of_spares (.setUserConnState cleared false) same
        · rfl
  | reset calls isAllowed empty =>
      apply tells_of_cleared (service.run calls .initAllConnections) (service.users.line nId)
        (empty nId)
      rw [users_run, Users.run, if_pos (isAllowed _)]
      rfl
  | grant calls isAllowed session strDeviceNum strId row nID strExpiredTime strToken granting
      server map_eq =>
      by_cases same : nId = nID
      · subst same
        rcases Users.environment_eq_row granting.answer with ⟨-, line, found, -⟩
        rw [granting.no_eq] at found
        have mapped : server.sessionmap nId = some session := by
          rw [map_eq, Function.update_self]
        simp only [Tells, mapped]
        exact ⟨_, _, (congrArg (Users.line · nId) (users_run _ _ _)).trans
          (Users.line_updateUserInfo _ found (isAllowed _)),
          (lastGrant_append _ nId server _).trans (if_pos rfl), rfl, rfl, rfl⟩
      · apply (tells nId).congr
        · rw [map_eq, Function.update_of_ne same]
        · exact (congrArg (Users.line · nId) (users_run _ _ _)).trans
            (Users.line_run_of_spares (.updateUserInfo _ _ _ _ _ _) same)
        · rw [lastGrant_append, if_neg (Ne.symm same)]

end Service

namespace Server

end Server

namespace Users

theorem KeepsTerms.refl (users : Users) : users.KeepsTerms users :=
  fun _ line found => ⟨line, found, rfl, rfl, rfl⟩

theorem KeepsTerms.trans {users next last : Users} (keeps : users.KeepsTerms next)
    (keepsToo : next.KeepsTerms last) : users.KeepsTerms last := by
  intro nId line found
  rcases keeps nId line found with ⟨middle, middleFound, device_eq, start_eq, end_eq⟩
  rcases keepsToo nId middle middleFound with ⟨later, laterFound, device, start, finish⟩
  exact ⟨later, laterFound, device.trans device_eq, start.trans start_eq, finish.trans end_eq⟩

end Users

namespace Service

variable {database : Database} {codePage : CodePage} {service : Service database}
  {calls : Calls}

end Service

end PoETask.AuthServer
