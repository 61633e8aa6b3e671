import PoETask.Library.StepSystem
import PoETask.AuthServer.Login

/-!
# Sessions and map agree

`sessionmap` and the id lists of the sessions are two records of the same fact. They
are updated by logins, logouts, teardowns, expiries and resets, and a login may take
an account away from another session on the way.

`Consistent` is the invariant: the map leads to a session exactly for the ids the
session lists, only sessions in the storage list hold ids, and no list repeats an id.
During a login request one fact more is needed. The ids a session has collected come
from names that the rest of the request does not mention, and since names resolve to
distinct ids, the next granted id is a new one.
-/

namespace PoETask.AuthServer

open PoETask.Library PoETask.Wire

namespace Storage

/-- An object is in use or released but never both, and new addresses are unused. -/
structure WellFormed (storage : Storage) : Prop where
  list_nodup : storage.list.Nodup
  freelist_nodup : storage.freelist.Nodup
  disjoint : ∀ p ∈ storage.list, p ∉ storage.freelist
  list_lt : ∀ p ∈ storage.list, p < storage.heap
  freelist_lt : ∀ p ∈ storage.freelist, p < storage.heap

theorem unique_eq_self {pointers : List SessionPtr} (nodup : pointers.Nodup) :
    unique pointers = pointers := by
  have chain : pointers.IsChain (· ≠ ·) := List.Pairwise.isChain nodup
  exact List.destutter_of_isChain _ _ chain

theorem nodup_append_singleton {pointers : List SessionPtr} {p : SessionPtr}
    (nodup : pointers.Nodup) (isNew : p ∉ pointers) : (pointers ++ [p]).Nodup := by
  simp only [List.nodup_append]
  refine ⟨nodup, List.nodup_singleton p, ?_⟩
  intro q q_mem other other_mem same
  simp only [List.mem_singleton] at other_mem
  subst other_mem
  exact isNew (same ▸ q_mem)

theorem unique_append_singleton {pointers : List SessionPtr} {p : SessionPtr}
    (nodup : pointers.Nodup) (isNew : p ∉ pointers) : unique (pointers ++ [p]) = pointers ++ [p] :=
  unique_eq_self (nodup_append_singleton nodup isNew)

namespace WellFormed

variable {storage : Storage}

theorem grow {p heap : SessionPtr} {rest : List SessionPtr} (wellFormed : storage.WellFormed)
    (unused : p ∉ storage.list) (rest_nodup : (p :: rest).Nodup)
    (rest_released : ∀ q ∈ rest, q ∈ storage.freelist)
    (heap_le : storage.heap ≤ heap) (p_lt : p < heap) :
    ({ list := unique (storage.list ++ [p]), freelist := rest, heap } : Storage).WellFormed := by
  simp only [List.nodup_cons] at rest_nodup
  simp only [unique_append_singleton wellFormed.list_nodup unused]
  refine ⟨nodup_append_singleton wellFormed.list_nodup unused, rest_nodup.2, ?_, ?_, ?_⟩
  · intro q q_mem q_rest
    simp only [List.mem_append, List.mem_singleton] at q_mem
    rcases q_mem with q_mem | rfl
    · exact wellFormed.disjoint q q_mem (rest_released q q_rest)
    · exact rest_nodup.1 q_rest
  · intro q q_mem
    simp only [List.mem_append, List.mem_singleton] at q_mem
    rcases q_mem with q_mem | rfl
    · exact lt_of_lt_of_le (wellFormed.list_lt q q_mem) heap_le
    · exact p_lt
  · intro q q_rest
    exact lt_of_lt_of_le (wellFormed.freelist_lt q (rest_released q q_rest)) heap_le

/-- `Allocate` hands out an object that was not in use and puts it at the end of the list. -/
theorem allocate (wellFormed : storage.WellFormed) :
    storage.allocate.1 ∉ storage.list ∧ storage.allocate.2.2.WellFormed ∧
      storage.allocate.2.2.list = storage.list ++ [storage.allocate.1] := by
  have heap_unused : storage.heap ∉ storage.list := fun mem =>
    absurd (wellFormed.list_lt _ mem) (lt_irrefl _)
  have heap_unreleased : storage.heap ∉ storage.freelist := fun mem =>
    absurd (wellFormed.freelist_lt _ mem) (lt_irrefl _)
  have fromHeap := wellFormed.grow heap_unused
    (List.nodup_cons.mpr ⟨heap_unreleased, wellFormed.freelist_nodup⟩) (fun q released => released)
    (Nat.le_succ _) (Nat.lt_succ_self _)
  have heap_list := unique_append_singleton wellFormed.list_nodup heap_unused
  simp only [Storage.allocate]
  split
  · rename_i p rest freelist_eq
    have released : ∀ q ∈ p :: rest, q ∈ storage.freelist := fun q q_mem => freelist_eq ▸ q_mem
    have p_released := released p List.mem_cons_self
    have p_unused : p ∉ storage.list := fun mem => wellFormed.disjoint p mem p_released
    split
    · refine ⟨p_unused, ?_, unique_append_singleton wellFormed.list_nodup p_unused⟩
      exact wellFormed.grow p_unused (freelist_eq ▸ wellFormed.freelist_nodup)
        (fun q q_rest => released q (List.mem_cons_of_mem _ q_rest)) le_rfl
        (wellFormed.freelist_lt p p_released)
    · exact ⟨heap_unused, fromHeap, heap_list⟩
  · exact ⟨heap_unused, fromHeap, heap_list⟩

/-- `Release` of an object in use takes it out of the list. -/
theorem release {p : SessionPtr} (wellFormed : storage.WellFormed) (inUse : p ∈ storage.list) :
    (storage.release p).WellFormed := by
  have unreleased := wellFormed.disjoint p inUse
  have freelist_eq := unique_append_singleton wellFormed.freelist_nodup unreleased
  refine ⟨wellFormed.list_nodup.filter _, ?_, ?_, ?_, ?_⟩
  · change (unique _).Nodup
    simp only [freelist_eq]
    exact nodup_append_singleton wellFormed.freelist_nodup unreleased
  · intro q q_mem q_released
    simp only [Storage.release, List.mem_filter, decide_eq_true_eq] at q_mem
    change q ∈ unique _ at q_released
    simp only [freelist_eq, List.mem_append, List.mem_singleton] at q_released
    rcases q_released with q_released | same
    · exact wellFormed.disjoint q q_mem.1 q_released
    · exact q_mem.2 same
  · intro q q_mem
    exact wellFormed.list_lt q (List.mem_of_mem_filter q_mem)
  · intro q q_released
    change q ∈ unique _ at q_released
    simp only [freelist_eq, List.mem_append, List.mem_singleton] at q_released
    rcases q_released with q_released | rfl
    · exact wellFormed.freelist_lt q q_released
    · exact wellFormed.list_lt q inUse

end WellFormed

theorem mem_release_iff {storage : Storage} {p q : SessionPtr} :
    q ∈ (storage.release p).list ↔ q ∈ storage.list ∧ q ≠ p := by
  simp [release]

end Storage

namespace Server

def idsOf (server : Server) (session : SessionPtr) : List AccountId := (server.sessions session).ids

section Frames

variable (server : Server) (session other : SessionPtr) (nId : AccountId)

@[simp]
theorem sessionmap_modify (change : Session → Session) :
    (server.modify session change).sessionmap = server.sessionmap := rfl

theorem idsOf_modify_self (change : Session → Session) :
    (server.modify session change).idsOf session = (change (server.sessions session)).ids := by
  simp [idsOf, modify]

theorem idsOf_modify_of_ne {session other : SessionPtr} (change : Session → Session)
    (different : other ≠ session) :
    (server.modify session change).idsOf other = server.idsOf other := by
  simp [idsOf, modify, different]

theorem idsOf_modify (change : Session → Session)
    (keeps : (change (server.sessions session)).ids = server.idsOf session) :
    (server.modify session change).idsOf = server.idsOf := by
  funext other
  by_cases same : other = session
  · subst same
    simp only [idsOf_modify_self, keeps]
  · exact server.idsOf_modify_of_ne change same

@[simp]
theorem idsOf_sendPacket (message : Message) :
    (server.sendPacket session message).idsOf = server.idsOf :=
  server.idsOf_modify session _ rfl

@[simp]
theorem sessionmap_sendPacket (message : Message) :
    (server.sendPacket session message).sessionmap = server.sessionmap := rfl

@[simp]
theorem idsOf_remove : (server.remove nId).idsOf = server.idsOf := rfl

@[simp]
theorem idsOf_setAt : (server.setAt nId session).idsOf = server.idsOf := rfl

theorem foldl_remove (nIds : List AccountId) :
    (∀ id, (nIds.foldl remove server).sessionmap id =
        if id ∈ nIds then none else server.sessionmap id) ∧
      (nIds.foldl remove server).sessions = server.sessions ∧
      (nIds.foldl remove server).storage = server.storage := by
  induction nIds generalizing server with
  | nil => simp
  | cons nId rest ih =>
      rcases ih (server.remove nId) with ⟨map_eq, sessions_eq, storage_eq⟩
      refine ⟨?_, sessions_eq, storage_eq⟩
      intro id
      simp only [List.foldl_cons, map_eq id]
      by_cases inRest : id ∈ rest
      · simp [inRest]
      · by_cases same : id = nId
        · simp [same, remove]
        · simp [inRest, same, remove]

end Frames

structure SameAccounts (server next : Server) : Prop where
  map_eq : next.sessionmap = server.sessionmap
  ids_eq : next.idsOf = server.idsOf
  storage_eq : next.storage = server.storage

/-- Map, id lists and storage list agree. -/
structure Consistent (server : Server) : Prop where
  map_iff : ∀ nId session, server.sessionmap nId = some session ↔ nId ∈ server.idsOf session
  ids_nodup : ∀ session, (server.idsOf session).Nodup
  listed : ∀ nId session, nId ∈ server.idsOf session → session ∈ server.storage.list
  storage_wellFormed : server.storage.WellFormed

namespace Consistent

variable {server next : Server} {session : SessionPtr} {nId : AccountId}

theorem of_sameAccounts (consistent : server.Consistent) (same : server.SameAccounts next) :
    next.Consistent where
  map_iff nId session := by
    simp only [same.map_eq, same.ids_eq]
    exact consistent.map_iff nId session
  ids_nodup session := by
    simp only [same.ids_eq]
    exact consistent.ids_nodup session
  listed nId session := by
    simp only [same.ids_eq, same.storage_eq]
    exact consistent.listed nId session
  storage_wellFormed := by
    simp only [same.storage_eq]
    exact consistent.storage_wellFormed

theorem modify (consistent : server.Consistent) (session : SessionPtr)
    (change : Session → Session)
    (keeps : (change (server.sessions session)).ids = server.idsOf session) :
    (server.modify session change).Consistent :=
  consistent.of_sameAccounts ⟨rfl, server.idsOf_modify session change keeps, rfl⟩

theorem sendPacket (consistent : server.Consistent) (session : SessionPtr) (message : Message) :
    (server.sendPacket session message).Consistent :=
  consistent.modify session _ rfl

theorem ids_unique (consistent : server.Consistent) {other : SessionPtr}
    (holds : nId ∈ server.idsOf session) (otherHolds : nId ∈ server.idsOf other) :
    session = other := by
  have found := (consistent.map_iff nId session).mpr holds
  have otherFound := (consistent.map_iff nId other).mpr otherHolds
  exact Option.some.inj (found.symm.trans otherFound)

theorem unlisted (consistent : server.Consistent) (notListed : session ∉ server.storage.list) :
    server.idsOf session = [] := by
  simp only [List.eq_nil_iff_forall_not_mem]
  intro nId holds
  exact notListed (consistent.listed nId session holds)

theorem evict (consistent : server.Consistent) (found : server.sessionmap nId = some session)
    (reason : LoginResult) : (server.evict nId session reason).Consistent := by
  have idsSelf : (server.evict nId session reason).idsOf session =
      (server.idsOf session).erase nId := by
    simp only [Server.evict, idsOf_remove, idsOf_modify_self]
    change ((server.sendPacket session _).idsOf session).erase nId = _
    simp only [idsOf_sendPacket]
  have idsOther : ∀ other, other ≠ session →
      (server.evict nId session reason).idsOf other = server.idsOf other := by
    intro other different
    simp only [Server.evict, idsOf_remove, idsOf_modify_of_ne _ _ different, idsOf_sendPacket]
  have mapEq : ∀ id, (server.evict nId session reason).sessionmap id =
      if id = nId then none else server.sessionmap id := by
    intro id
    simp [Server.evict, remove, Function.update_apply]
  have nodup := consistent.ids_nodup session
  refine ⟨?_, ?_, ?_, consistent.storage_wellFormed⟩
  · intro id holder
    simp only [mapEq]
    by_cases sameHolder : holder = session
    · subst sameHolder
      simp only [idsSelf, nodup.mem_erase_iff]
      by_cases sameId : id = nId
      · simp [sameId]
      · simp [sameId, consistent.map_iff id holder]
    · simp only [idsOther holder sameHolder]
      by_cases sameId : id = nId
      · subst sameId
        have notHeld : id ∉ server.idsOf holder := fun holds =>
          sameHolder (consistent.ids_unique holds ((consistent.map_iff id session).mp found))
        simp [notHeld]
      · simp [sameId, consistent.map_iff id holder]
  · intro holder
    by_cases sameHolder : holder = session
    · subst sameHolder
      simp only [idsSelf]
      exact nodup.erase nId
    · simp only [idsOther holder sameHolder]
      exact consistent.ids_nodup holder
  · intro id holder holds
    by_cases sameHolder : holder = session
    · subst sameHolder
      simp only [idsSelf] at holds
      exact consistent.listed id holder (List.mem_of_mem_erase holds)
    · simp only [idsOther holder sameHolder] at holds
      exact consistent.listed id holder holds

theorem dropAccounts (consistent : server.Consistent) (session : SessionPtr) :
    (server.dropAccounts session).Consistent ∧ (server.dropAccounts session).idsOf session = [] ∧
      (server.dropAccounts session).storage = server.storage := by
  rcases server.foldl_remove (server.sessions session).ids with ⟨mapEq, sessionsEq, storageEq⟩
  have idsSelf : (server.dropAccounts session).idsOf session = [] := by
    rw [Server.dropAccounts, idsOf_modify_self]
  have idsOther : ∀ other, other ≠ session →
      (server.dropAccounts session).idsOf other = server.idsOf other := by
    intro other different
    rw [Server.dropAccounts, idsOf_modify_of_ne _ _ different, idsOf, sessionsEq, idsOf]
  refine ⟨⟨?_, ?_, ?_, ?_⟩, idsSelf, storageEq⟩
  · intro id holder
    change ((server.sessions session).ids.foldl remove server).sessionmap id = _ ↔ _
    simp only [mapEq]
    by_cases sameHolder : holder = session
    · subst sameHolder
      simp only [idsSelf]
      have found := consistent.map_iff id holder
      by_cases holds : id ∈ (server.sessions holder).ids
      · simp [holds]
      · simpa [holds] using fun isSome => holds (found.mp isSome)
    · rw [idsOther holder sameHolder, ← consistent.map_iff id holder]
      by_cases holds : id ∈ (server.sessions session).ids
      · have elsewhere := (consistent.map_iff id session).mpr holds
        simp only [holds, if_true, elsewhere, Option.some.injEq, reduceCtorEq, false_iff]
        exact fun same => sameHolder same.symm
      · simp [holds]
  · intro holder
    by_cases sameHolder : holder = session
    · simp only [sameHolder, idsSelf]
      exact List.nodup_nil
    · simp only [idsOther holder sameHolder]
      exact consistent.ids_nodup holder
  · intro id holder holds
    change holder ∈ ((server.sessions session).ids.foldl remove server).storage.list
    simp only [storageEq]
    by_cases sameHolder : holder = session
    · simp only [sameHolder, idsSelf] at holds
      exact absurd holds List.not_mem_nil
    · simp only [idsOther holder sameHolder] at holds
      exact consistent.listed id holder holds
  · change ((server.sessions session).ids.foldl remove server).storage.WellFormed
    simp only [storageEq]
    exact consistent.storage_wellFormed

/-- After the check for another login a new id is free, and the session kept its ids. -/
theorem checkAnotherLogin (consistent : server.Consistent) (isNew : nId ∉ server.idsOf session) :
    (server.checkAnotherLogin nId session).Consistent ∧
      (server.checkAnotherLogin nId session).idsOf session = server.idsOf session ∧
      (server.checkAnotherLogin nId session).storage = server.storage ∧
      (server.checkAnotherLogin nId session).sessionmap nId = none := by
  simp only [Server.checkAnotherLogin]
  cases found : server.sessionmap nId with
  | none => exact ⟨consistent, rfl, rfl, found⟩
  | some other =>
      have different : session ≠ other := by
        rintro rfl
        exact isNew ((consistent.map_iff nId session).mp found)
      simp only [if_neg different]
      refine ⟨consistent.evict found .duplicate, ?_, rfl, ?_⟩
      · simp only [Server.evict, idsOf_remove, idsOf_modify_of_ne _ _ different, idsOf_sendPacket]
      · simp [Server.evict, remove]

theorem enter (consistent : server.Consistent) (isListed : session ∈ server.storage.list)
    (free : server.sessionmap nId = none) (strExpiredTime strToken : CText) :
    (server.enter session (.granted nId strExpiredTime strToken)).Consistent ∧
      (server.enter session (.granted nId strExpiredTime strToken)).idsOf session =
        server.idsOf session ++ [nId] := by
  have notHeld : ∀ holder, nId ∉ server.idsOf holder := by
    intro holder holds
    rw [← consistent.map_iff, free] at holds
    exact absurd holds (by simp)
  set entered := server.enter session (.granted nId strExpiredTime strToken) with entered_eq
  have idsSelf : entered.idsOf session = server.idsOf session ++ [nId] := by
    simp only [entered_eq, Server.enter, idsOf_setAt, idsOf_modify_self]
    rfl
  have idsOther : ∀ other, other ≠ session → entered.idsOf other = server.idsOf other := by
    intro other different
    simp only [entered_eq, Server.enter, idsOf_setAt, idsOf_modify_of_ne _ _ different]
  have mapEq : ∀ id, entered.sessionmap id =
      if id = nId then some session else server.sessionmap id := by
    intro id
    simp [entered_eq, Server.enter, setAt, Function.update_apply]
  refine ⟨⟨?_, ?_, ?_, consistent.storage_wellFormed⟩, idsSelf⟩
  · intro id holder
    simp only [mapEq]
    by_cases sameHolder : holder = session
    · subst sameHolder
      rw [idsSelf, List.mem_append, List.mem_singleton, ← consistent.map_iff]
      by_cases sameId : id = nId
      · simp [sameId]
      · simp [sameId]
    · rw [idsOther holder sameHolder, ← consistent.map_iff]
      by_cases sameId : id = nId
      · subst sameId
        simp [free, Ne.symm sameHolder]
      · simp [sameId]
  · intro holder
    by_cases sameHolder : holder = session
    · subst sameHolder
      simp only [idsSelf, List.nodup_append]
      refine ⟨consistent.ids_nodup holder, List.nodup_singleton _, ?_⟩
      intro id holds other other_mem same
      simp only [List.mem_singleton] at other_mem
      exact notHeld holder (other_mem ▸ same ▸ holds)
    · simp only [idsOther holder sameHolder]
      exact consistent.ids_nodup holder
  · intro id holder holds
    by_cases sameHolder : holder = session
    · subst sameHolder
      exact isListed
    · simp only [idsOther holder sameHolder] at holds
      exact consistent.listed id holder holds

end Consistent

/-- The ids a session holds come from names that a list of accounts does not mention. -/
def HeldByOthers (server : Server) (environment : Environment) (session : SessionPtr)
    (accounts : List (CText × CText)) : Prop :=
  ∀ nId ∈ server.idsOf session, ∃ name row, environment.users name = .row row ∧ row.no = nId ∧
    name ∉ accounts.map Prod.fst

theorem checkLoginVerdict_granted {environment : Environment}
    {strId strPwd strDeviceNum strExpiredTime strToken : CText} {nID : AccountId}
    (granted : checkLoginVerdict environment strId strPwd strDeviceNum =
      .granted nID strExpiredTime strToken) :
    ∃ row, environment.users strId = .row row ∧ row.no = nID := by
  simp only [checkLoginVerdict] at granted
  split_ifs at granted
  cases answer : environment.users strId with
  | canNotConnect => simp [answer] at granted
  | canNotQuery => simp [answer] at granted
  | noRow => simp [answer] at granted
  | row row =>
      simp only [answer] at granted
      split_ifs at granted
      all_goals
        cases granted
        exact ⟨row, rfl, rfl⟩

theorem HeldByOthers.later {server : Server} {environment : Environment} {session : SessionPtr}
    {account : CText × CText} {later : List (CText × CText)}
    (held : server.HeldByOthers environment session (account :: later)) :
    server.HeldByOthers environment session later := by
  intro nId holds
  rcases held nId holds with ⟨name, row, answer, row_id, notMentioned⟩
  refine ⟨name, row, answer, row_id, ?_⟩
  intro mentioned
  exact notMentioned (List.mem_cons_of_mem _ mentioned)

namespace Consistent

variable {server : Server} {environment : Environment} {session : SessionPtr}

theorem loginAccount {strId strPwd : CText} {later : List (CText × CText)}
    (consistent : server.Consistent) (distinct : environment.DistinctIds)
    (isListed : session ∈ server.storage.list)
    (held : server.HeldByOthers environment session ((strId, strPwd) :: later))
    (strDeviceNum : CText) (once : strId ∉ later.map Prod.fst) :
    let checked := server.checkLogin environment session strId strPwd strDeviceNum
    let next := checked.2.enter session checked.1
    next.Consistent ∧ next.storage = server.storage ∧
      next.HeldByOthers environment session later := by
  simp only [checkLogin]
  cases verdict : checkLoginVerdict environment strId strPwd strDeviceNum with
  | refused nRet refusal => exact ⟨consistent, rfl, held.later⟩
  | granted nID strExpiredTime strToken =>
      rcases checkLoginVerdict_granted verdict with ⟨row, answer, row_id⟩
      have isNew : nID ∉ server.idsOf session := by
        intro holds
        rcases held nID holds with ⟨name, other, otherAnswer, other_id, notMentioned⟩
        have same := distinct name strId other row otherAnswer answer (other_id.trans row_id.symm)
        exact notMentioned (same ▸ List.mem_cons_self)
      rcases consistent.checkAnotherLogin isNew with ⟨checked, idsKept, storageKept, free⟩
      rcases checked.enter (storageKept ▸ isListed) free strExpiredTime strToken with
        ⟨entered, idsEntered⟩
      refine ⟨entered, storageKept, ?_⟩
      intro nId holds
      simp only [idsEntered, idsKept, List.mem_append, List.mem_singleton] at holds
      rcases holds with holds | rfl
      · exact held.later nId holds
      · exact ⟨strId, row, answer, row_id, once⟩

theorem loginAccounts (accounts : List (CText × CText)) (consistent : server.Consistent)
    (distinct : environment.DistinctIds) (isListed : session ∈ server.storage.list)
    (held : server.HeldByOthers environment session accounts) (strDeviceNum : CText) :
    (server.loginAccounts environment session strDeviceNum accounts).2.Consistent ∧
      (server.loginAccounts environment session strDeviceNum accounts).2.storage =
        server.storage := by
  induction accounts generalizing server with
  | nil => exact ⟨consistent, rfl⟩
  | cons account later ih =>
      rcases account with ⟨strId, strPwd⟩
      simp only [Server.loginAccounts]
      by_cases repeated : strId ∈ later.map Prod.fst
      · simp only [if_pos repeated]
        exact ih consistent isListed held.later
      · simp only [if_neg repeated]
        rcases consistent.loginAccount distinct isListed held strDeviceNum repeated with
          ⟨nextConsistent, storageKept, nextHeld⟩
        rcases ih nextConsistent (storageKept ▸ isListed) nextHeld with ⟨final, finalStorage⟩
        exact ⟨final, finalStorage.trans storageKept⟩

theorem handleLogin (consistent : server.Consistent) (distinct : environment.DistinctIds)
    (isListed : session ∈ server.storage.list) (noIds : server.idsOf session = [])
    (packet : Buffer) : (server.handleLogin environment session packet).Consistent := by
  simp only [Server.handleLogin]
  split
  · exact consistent
  · rename_i accounts strDeviceNum _
    have held : server.HeldByOthers environment session accounts := by
      intro nId holds
      simp only [noIds] at holds
      exact absurd holds List.not_mem_nil
    exact (consistent.loginAccounts accounts distinct isListed held strDeviceNum).1.sendPacket _ _

theorem onRecvPacket (consistent : server.Consistent) (distinct : environment.DistinctIds)
    (isListed : session ∈ server.storage.list) (now : ℕ) (packet : Buffer) :
    (server.onRecvPacket environment now session packet).Consistent := by
  have ticked := consistent.modify session (fun object => { object with lastcommtick := now }) rfl
  unfold Server.onRecvPacket
  simp only
  split_ifs with empty keepalive noIds loginReq logout
  · exact ticked
  · exact ticked.sendPacket _ _
  · exact ticked.handleLogin distinct isListed noIds _
  · exact ticked.sendPacket _ _
  · exact (ticked.dropAccounts session).1
  · exact ticked

theorem accept (consistent : server.Consistent) (now : ℕ) : (server.accept now).2.Consistent := by
  rcases consistent.storage_wellFormed.allocate with ⟨unused, wellFormed, list_eq⟩
  have noIds := consistent.unlisted unused
  have idsKept : (server.accept now).2.idsOf = server.idsOf := by
    funext other
    by_cases same : other = server.storage.allocate.1
    · subst same
      simp only [noIds]
      simp [Server.accept, Server.allocate, onAddSession, idsOf, Server.modify]
    · simp [Server.accept, Server.allocate, onAddSession, idsOf, Server.modify, same]
  refine ⟨?_, ?_, ?_, wellFormed⟩
  · intro nId holder
    simp only [idsKept]
    exact consistent.map_iff nId holder
  · intro holder
    simp only [idsKept]
    exact consistent.ids_nodup holder
  · intro nId holder holds
    simp only [idsKept] at holds
    change holder ∈ server.storage.allocate.2.2.list
    simp only [list_eq]
    exact List.mem_append_left _ (consistent.listed nId holder holds)

/-- Releasing a session that holds no ids. -/
theorem release (consistent : server.Consistent) (noIds : server.idsOf session = []) :
    (server.release session).Consistent := by
  simp only [Server.release]
  split
  · rename_i isListed
    have idsKept : (server.modify session Session.deinit).idsOf = server.idsOf :=
      server.idsOf_modify session _ noIds.symm
    refine ⟨?_, ?_, ?_, consistent.storage_wellFormed.release isListed⟩
    · intro nId holder
      change _ ↔ nId ∈ (server.modify session Session.deinit).idsOf holder
      simp only [idsKept]
      exact consistent.map_iff nId holder
    · intro holder
      change ((server.modify session Session.deinit).idsOf holder).Nodup
      simp only [idsKept]
      exact consistent.ids_nodup holder
    · intro nId holder holds
      change nId ∈ (server.modify session Session.deinit).idsOf holder at holds
      simp only [idsKept] at holds
      refine Storage.mem_release_iff.mpr ⟨consistent.listed nId holder holds, ?_⟩
      rintro rfl
      simp only [noIds] at holds
      exact absurd holds List.not_mem_nil
  · exact consistent

theorem doDisconnect (consistent : server.Consistent) (session : SessionPtr) :
    (server.doDisconnect session).Consistent := by
  have cleared := consistent.modify session (fun object => { object with writepacketlist := [] })
    rfl
  rcases cleared.dropAccounts session with ⟨dropped, noIds, -⟩
  exact dropped.release noIds

theorem expire (consistent : server.Consistent) (nExpiredID : AccountId) :
    (server.expire nExpiredID).Consistent := by
  simp only [Server.expire]
  cases found : server.sessionmap nExpiredID with
  | none => exact consistent
  | some session => exact consistent.evict found .expired

theorem initAllConnections (consistent : server.Consistent) :
    server.initAllConnections.Consistent := by
  simp only [Server.initAllConnections]
  generalize server.storage.list = sessionlist
  induction sessionlist generalizing server with
  | nil => exact consistent
  | cons session rest ih =>
      apply ih
      rcases consistent.dropAccounts session with ⟨dropped, -, -⟩
      apply dropped.of_sameAccounts
      refine ⟨rfl, ?_, rfl⟩
      funext other
      by_cases same : other = session
      · subst same
        simp [Server.dropAccounts, Server.sendPacket, idsOf, Server.modify]
      · simp [Server.dropAccounts, Server.sendPacket, idsOf, Server.modify, same]

end Consistent

inductive Event where
  | onAddSession (now : ℕ)
  | onRecvPacket (environment : Environment) (now : ℕ) (session : SessionPtr) (packet : Buffer)
  | onRemoveSession (session : SessionPtr)
  | expire (nExpiredID : AccountId)
  | initAllConnections

/-- Packets are received on sessions in use, and the database keeps names apart. -/
def Event.Admissible (server : Server) : Event → Prop
  | .onRecvPacket environment _ session _ =>
      session ∈ server.storage.list ∧ environment.DistinctIds
  | _ => True

def handle (server : Server) : Event → Server
  | .onAddSession now => (server.accept now).2
  | .onRecvPacket environment now session packet =>
      server.onRecvPacket environment now session packet
  | .onRemoveSession session => server.doDisconnect session
  | .expire nExpiredID => server.expire nExpiredID
  | .initAllConnections => server.initAllConnections

def start : Server where
  sessions _ := Session.new 0
  storage := { list := [], freelist := [], heap := 0 }
  sessionmap _ := none

/-- The server under any order of its steps. -/
def system : StepSystem Server Event where
  initial server := server = start
  step server event next := event.Admissible server ∧ next = server.handle event

theorem consistent_start : start.Consistent where
  map_iff nId session := by simp [start, idsOf, Session.new]
  ids_nodup session := List.nodup_nil
  listed nId session holds := absurd holds List.not_mem_nil
  storage_wellFormed :=
    ⟨List.nodup_nil, List.nodup_nil, fun _ mem => absurd mem List.not_mem_nil,
      fun _ mem => absurd mem List.not_mem_nil, fun _ mem => absurd mem List.not_mem_nil⟩

theorem invariant_consistent : system.Invariant Consistent where
  initial server isStart := isStart ▸ consistent_start
  step server event next consistent moves := by
    rcases moves with ⟨admissible, rfl⟩
    cases event with
    | onAddSession now => exact consistent.accept now
    | onRecvPacket environment now session packet =>
        exact consistent.onRecvPacket admissible.2 admissible.1 now packet
    | onRemoveSession session => exact consistent.doDisconnect session
    | expire nExpiredID => exact consistent.expire nExpiredID
    | initAllConnections => exact consistent.initAllConnections

/-- In every reachable state the map leads from an id to a session exactly when the session is in
the storage list and lists the id; no session lists an id twice and no two sessions list one id. -/
theorem sessionmap_agrees {server : Server} (reached : system.Reachable server) :
    (∀ nId session, server.sessionmap nId = some session ↔
        session ∈ server.storage.list ∧ nId ∈ (server.sessions session).ids) ∧
      (∀ session, (server.sessions session).ids.Nodup) ∧
      (∀ nId session other, nId ∈ (server.sessions session).ids →
        nId ∈ (server.sessions other).ids → session = other) := by
  have consistent := invariant_consistent.of_reachable reached
  refine ⟨?_, consistent.ids_nodup, ?_⟩
  · intro nId session
    simp only [consistent.map_iff nId session]
    exact ⟨fun holds => ⟨consistent.listed nId session holds, holds⟩, fun listed => listed.2⟩
  · intro nId session other holds otherHolds
    exact consistent.ids_unique holds otherHolds

/-- A database with one account, `a` with password `b`. -/
def singleAccount : Environment where
  users name :=
    if name = CText.letterA then
      .row { no := 7, userPassword := CText.letterB, userDeviceNum := CText.empty
             userStartDatetime := ⟨[49], by decide⟩, userEndDatetime := ⟨[50], by decide⟩
             userAccType := 30 }
    else
      .noRow
  clock _ := { currentTime := 0, localTime := 0, parseDateTime := fun _ => some 1
               format := fun _ => CText.empty }
  getSha1 _ := CText.empty

theorem singleAccount_distinctIds : singleAccount.DistinctIds := by
  intro name other row otherRow answer otherAnswer _
  simp only [singleAccount] at answer otherAnswer
  split_ifs at answer otherAnswer with isName isOther
  simp only [isName, isOther]

/-- After a login on the first connection the map leads from the id to that session. -/
theorem sessionmap_agrees_login : ∃ server, system.Reachable server ∧
    server.sessionmap 7 = some 0 ∧ 0 ∈ server.storage.list ∧ 7 ∈ (server.sessions 0).ids := by
  let account : CText × CText := (CText.letterA, CText.letterB)
  let request : Message :=
    { bOpcode := opLoginReq
      fields := uintField 1 :: [account].flatMap accountFields ++ [textField ⟨[99], by decide⟩] }
  rcases Option.isSome_iff_exists.mp
    ((request.transfer_isSome_iff Buffer.blank Buffer.blank 5).mpr (by decide)) with
    ⟨packet, transferred⟩
  have framed := Message.framed_of_transfer transferred
  have request_read : readRequest packet.readStart = some ([account], ⟨[99], by decide⟩) :=
    readRequest_of_unread (by decide) (by decide) (by decide) framed.unread
  let accepted := (start.accept 0).2
  have acceptedReached : system.Reachable accepted :=
    .step (.initial rfl) (⟨trivial, rfl⟩ : system.step start (.onAddSession 0) accepted)
  have isListed : 0 ∈ accepted.storage.list := by decide
  have reached : system.Reachable (accepted.onRecvPacket singleAccount 0 0 packet) :=
    .step acceptedReached
      (⟨⟨isListed, singleAccount_distinctIds⟩, rfl⟩ :
        system.step accepted (.onRecvPacket singleAccount 0 0 packet) _)
  have found : (accepted.onRecvPacket singleAccount 0 0 packet).sessionmap 7 = some 0 := by
    rw [onRecvPacket_loginReq framed (by decide), Server.handleLogin, request_read]
    decide
  exact ⟨_, reached, found, ((sessionmap_agrees reached).1 7 0).mp found⟩

end Server

end PoETask.AuthServer
