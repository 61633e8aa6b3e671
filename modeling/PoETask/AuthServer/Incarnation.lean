import PoETask.AuthServer.Consistency

/-!
# Recycled sessions

A released `Session` is handed out again once ten of them wait in the free list, and
everything else refers to it by pointer: outstanding reads and writes, posted handlers,
packets waiting for a `ProcThread` and the idle sweep of `CheckClients`. This file puts
the server into those surroundings, one completion, handler or sweep step at a time, and
numbers the connections in the order of acceptance. A session belongs to the connection
it was last handed out for.

What the bytes of a read amount to is left open, since the framing does not bear on whom
a packet belongs to, and so is how much of a packet a write takes. `asio` completes a
read or write with an error when its socket was closed before or meanwhile; it may still
succeed when the socket is closed only after the data went through.
-/

namespace PoETask.AuthServer

open PoETask.Library PoETask.Wire

abbrev Connection := ℕ

/-- An outstanding read or write and the connection whose socket it was started on. -/
structure Operation where
  session : SessionPtr
  connection : Connection
  onOpenSocket : Bool

/-- A posted handler. A `DoDisconnect` also has the connection it is meant for. -/
inductive Posted where
  | doRead (session : SessionPtr)
  | doWrite (session : SessionPtr) (bStart : Bool)
  | doDisconnect (session : SessionPtr) (connection : Connection)

/-- A queued packet and the connection that its bytes were read from. -/
structure ReceivedPacket where
  session : SessionPtr
  connection : Connection
  packet : Buffer

/-- The session and connection that something under way is about. -/
def Operation.target (operation : Operation) : SessionPtr × Connection :=
  (operation.session, operation.connection)

def ReceivedPacket.target (received : ReceivedPacket) : SessionPtr × Connection :=
  (received.session, received.connection)

/-- Reads and writes may be started for whichever connection the session belongs to. -/
def Posted.target : Posted → Option (SessionPtr × Connection)
  | doRead _ => none
  | doWrite _ _ => none
  | doDisconnect session connection => some (session, connection)

def Posted.session : Posted → SessionPtr
  | doRead session => session
  | doWrite session _ => session
  | doDisconnect session _ => session

/-- What a read makes of the bytes: more to read, a finished packet, or a length too big. -/
inductive ReadResult where
  | more
  | finished (packet : Buffer)
  | tooLong

inductive WriteResult where
  | more
  | finished (islast : Bool)

/-- The second part of `CheckClients`; `idle` is a session found idle, with its connection. -/
structure Sweep where
  curTime : ℕ
  sessionlist : List SessionPtr
  idle : Option (SessionPtr × Connection)

/-- A packet given to `OnRecvPacket`, and the connection its session belonged to then. -/
structure Processed where
  receivedOn : Connection
  against : Connection
  deriving DecidableEq

/-- A `DoDisconnect`, the connection its session belonged to, and whether that was released. -/
structure Disconnected where
  issuedFor : Connection
  torn : Connection
  released : Bool
  deriving DecidableEq

/-- The server with everything that refers to its sessions, and the record of what was done. -/
structure TCPComm where
  server : Server
  socketOpen : SessionPtr → Bool
  writepacket : SessionPtr → Option Message
  reads : List Operation
  writes : List Operation
  posted : List Posted
  readpacketlist : List ReceivedPacket
  handling : List ReceivedPacket
  sweep : Sweep
  incarnation : SessionPtr → Connection
  accepted : ℕ
  processed : List Processed
  disconnected : List Disconnected
  logins : List (AccountId × Connection)

/-- `ASIO_THREAD_NUM`. -/
def asioThreadNum : ℕ := 4

/-- A session is idle after 120 seconds without a packet. -/
def idleTime : ℕ := 120

namespace Verdict

/-- The id that a verdict lets in. -/
def loggedIn : Verdict → Option AccountId
  | refused _ _ => none
  | granted nID _ _ => some nID

end Verdict

namespace Server

/-- The ids that `onRecvPacket` logs in. -/
def loggedIn (server : Server) (environment : Environment) (now : ℕ) (session : SessionPtr)
    (received : Buffer) : List AccountId :=
  let server := server.modify session fun object => { object with lastcommtick := now }
  let packet := received.readStart
  if packet.used ≠ 0 ∧ packet.opcode = opLoginReq ∧ (server.sessions session).ids = [] then
    match readRequest packet with
    | none => []
    | some (accounts, strDeviceNum) =>
        (server.loginAccounts environment session strDeviceNum accounts).1.filterMap
          Verdict.loggedIn
  else
    []

/-- `SendPacket` posts a `DoWrite` for each packet that it appends to a write queue. -/
def posts (server next : Server) : List Posted :=
  (List.range server.storage.heap).flatMap fun session =>
    List.replicate
      ((next.sessions session).writepacketlist.length
        - (server.sessions session).writepacketlist.length)
      (.doWrite session true)

end Server

namespace TCPComm

def post (comm : TCPComm) (handler : Posted) : TCPComm :=
  { comm with posted := comm.posted ++ [handler] }

def serve (comm : TCPComm) (server : Server) : TCPComm :=
  { comm with server, posted := comm.posted ++ comm.server.posts server }

def operation (comm : TCPComm) (session : SessionPtr) : Operation :=
  { session, connection := comm.incarnation session, onOpenSocket := comm.socketOpen session }

/-- `DoReadHeader` and `DoReadBody`. -/
def doRead (comm : TCPComm) (session : SessionPtr) : TCPComm :=
  { comm with reads := comm.reads ++ [comm.operation session] }

def startWrite (comm : TCPComm) (session : SessionPtr) : TCPComm :=
  { comm with writes := comm.writes ++ [comm.operation session] }

def doWrite (comm : TCPComm) (session : SessionPtr) (bStart : Bool) : TCPComm :=
  match comm.writepacket session, (comm.server.sessions session).writepacketlist with
  | some _, _ => if bStart then comm else comm.startWrite session
  | none, [] => comm
  | none, packet :: rest =>
      let popped : TCPComm := { comm with
        server := comm.server.modify session fun object => { object with writepacketlist := rest }
        writepacket := Function.update comm.writepacket session (some packet) }
      popped.startWrite session

/-- `Session::DoDisconnect`, issued for a connection. -/
def doDisconnect (comm : TCPComm) (session : SessionPtr) (connection : Connection) : TCPComm :=
  { comm with
    server := comm.server.doDisconnect session
    socketOpen := Function.update comm.socketOpen session false
    writepacket := Function.update comm.writepacket session none
    disconnected := comm.disconnected ++
      [{ issuedFor := connection, torn := comm.incarnation session
         released := decide (session ∈ comm.server.storage.list) }] }

/-- The completion handler of a read. -/
def completeRead (comm : TCPComm) (operation : Operation) : ReadResult → TCPComm
  | .more => comm.post (.doRead operation.session)
  | .finished packet =>
      let queued : TCPComm := { comm with
        readpacketlist := comm.readpacketlist ++
          [{ session := operation.session, connection := operation.connection, packet }] }
      queued.post (.doRead operation.session)
  | .tooLong => comm.post (.doDisconnect operation.session operation.connection)

/-- The completion handler of a write. -/
def completeWrite (comm : TCPComm) (operation : Operation) (result : WriteResult) : TCPComm :=
  match comm.writepacket operation.session, result with
  | none, _ => comm
  | some _, .more => comm.post (.doWrite operation.session false)
  | some _, .finished islast =>
      let written : TCPComm := { comm with
        writepacket := Function.update comm.writepacket operation.session none }
      written.post
        (if islast then .doDisconnect operation.session operation.connection
        else .doWrite operation.session true)

def fail (comm : TCPComm) (operation : Operation) : TCPComm :=
  comm.post (.doDisconnect operation.session operation.connection)

def run (comm : TCPComm) : Posted → TCPComm
  | .doRead session => comm.doRead session
  | .doWrite session bStart => comm.doWrite session bStart
  | .doDisconnect session connection => comm.doDisconnect session connection

/-- `accept_procfunc`. -/
def accept (comm : TCPComm) (now : ℕ) : TCPComm :=
  let session := (comm.server.accept now).1
  let opened : TCPComm := { comm with
    server := (comm.server.accept now).2
    socketOpen := Function.update comm.socketOpen session true
    writepacket := Function.update comm.writepacket session none
    incarnation := Function.update comm.incarnation session comm.accepted
    accepted := comm.accepted + 1 }
  opened.doRead session

def onRecvPacket (comm : TCPComm) (environment : Environment) (now : ℕ)
    (received : ReceivedPacket) : TCPComm :=
  let loggedIn := comm.server.loggedIn environment now received.session received.packet
  let recorded : TCPComm := { comm with
    processed := comm.processed ++
      [{ receivedOn := received.connection, against := comm.incarnation received.session }]
    logins := comm.logins ++ loggedIn.map fun nId => (nId, received.connection) }
  recorded.serve (comm.server.onRecvPacket environment now received.session received.packet)

/-- The idle test on the next session of the copied list. -/
def checkIdle (comm : TCPComm) (session : SessionPtr) (sessionlist : List SessionPtr) : TCPComm :=
  let isIdle := comm.sweep.curTime > (comm.server.sessions session).lastcommtick + idleTime
  { comm with
    sweep := { comm.sweep with
      sessionlist
      idle := if isIdle then some (session, comm.incarnation session) else none } }

/-- What may happen next. Lists are entered at any place, since the strands of different sessions
and the threads run in any order. -/
inductive Event where
  | accept (now : ℕ)
  | readCompleted (i : ℕ) (result : ReadResult)
  | readFailed (i : ℕ)
  | writeCompleted (i : ℕ) (result : WriteResult)
  | writeFailed (i : ℕ)
  | runPosted (i : ℕ)
  | popPacket
  | onRecvPacket (i : ℕ) (environment : Environment) (now : ℕ)
  | expire (nExpiredID : AccountId)
  | initAllConnections
  | checkClients (curTime : ℕ)
  | checkIdle
  | disconnectIdle

/-- One step, unless there is nothing it could be about. -/
def advance (comm : TCPComm) : Event → Option TCPComm
  | .accept now => some (comm.accept now)
  | .readCompleted i result => do
      let operation ← comm.reads[i]?
      guard operation.onOpenSocket
      let completed : TCPComm := { comm with reads := comm.reads.eraseIdx i }
      return completed.completeRead operation result
  | .readFailed i => do
      let operation ← comm.reads[i]?
      let completed : TCPComm := { comm with reads := comm.reads.eraseIdx i }
      return completed.fail operation
  | .writeCompleted i result => do
      let operation ← comm.writes[i]?
      guard operation.onOpenSocket
      let completed : TCPComm := { comm with writes := comm.writes.eraseIdx i }
      return completed.completeWrite operation result
  | .writeFailed i => do
      let operation ← comm.writes[i]?
      let completed : TCPComm := { comm with writes := comm.writes.eraseIdx i }
      return completed.fail operation
  | .runPosted i => do
      let handler ← comm.posted[i]?
      let taken : TCPComm := { comm with posted := comm.posted.eraseIdx i }
      return taken.run handler
  | .popPacket => do
      let received ← comm.readpacketlist.head?
      guard (comm.handling.length < asioThreadNum)
      return { comm with
        readpacketlist := comm.readpacketlist.tail
        handling := comm.handling ++ [{ received with packet := received.packet.decrypt }] }
  | .onRecvPacket i environment now => do
      let received ← comm.handling[i]?
      let taken : TCPComm := { comm with handling := comm.handling.eraseIdx i }
      return taken.onRecvPacket environment now received
  | .expire nExpiredID => some (comm.serve (comm.server.expire nExpiredID))
  | .initAllConnections => some (comm.serve comm.server.initAllConnections)
  | .checkClients curTime => do
      guard (comm.sweep.sessionlist = [] ∧ comm.sweep.idle = none)
      return { comm with
        sweep := { curTime, sessionlist := comm.server.storage.list, idle := none } }
  | .checkIdle => do
      guard (comm.sweep.idle = none)
      let session ← comm.sweep.sessionlist.head?
      return comm.checkIdle session comm.sweep.sessionlist.tail
  | .disconnectIdle => do
      let idle ← comm.sweep.idle
      let swept : TCPComm := { comm with sweep := { comm.sweep with idle := none } }
      return swept.doDisconnect idle.1 idle.2

/-- The listening server. -/
def start : TCPComm where
  server := Server.start
  socketOpen _ := false
  writepacket _ := none
  reads := []
  writes := []
  posted := []
  readpacketlist := []
  handling := []
  sweep := { curTime := 0, sessionlist := [], idle := none }
  incarnation _ := 0
  accepted := 0
  processed := []
  disconnected := []
  logins := []

def system : StepSystem TCPComm Event where
  initial comm := comm = start
  step comm event next := comm.advance event = some next

def Live (comm : TCPComm) (connection : Connection) : Prop :=
  ∃ session ∈ comm.server.storage.list, comm.incarnation session = connection

/-- How often a connection has been released. -/
def releases (comm : TCPComm) (connection : Connection) : ℕ :=
  comm.disconnected.countP fun entry => entry.released && entry.torn == connection

/-- Packets, disconnects and accounts stay with their connection. -/
structure KeepsIdentity (comm : TCPComm) : Prop where
  processed : ∀ entry ∈ comm.processed, entry.against = entry.receivedOn
  disconnected : ∀ entry ∈ comm.disconnected, entry.torn = entry.issuedFor
  live : ∀ connection, comm.Live connection → comm.releases connection = 0
  dead : ∀ connection < comm.accepted, ¬ comm.Live connection → comm.releases connection = 1
  mapped : ∀ nId session, comm.server.sessionmap nId = some session →
    (nId, comm.incarnation session) ∈ comm.logins

/-- Everything under way that names a session, with the connection it is about. -/
def references (comm : TCPComm) : List (SessionPtr × Connection) :=
  comm.reads.map Operation.target ++ comm.writes.map Operation.target ++
    comm.posted.filterMap Posted.target ++ comm.readpacketlist.map ReceivedPacket.target ++
    comm.handling.map ReceivedPacket.target ++ comm.sweep.idle.toList

/-- A session is handed out again only when nothing under way names it and no account leads to
it. -/
def Fresh (comm : TCPComm) : Event → Prop
  | .accept _ =>
      let allocated := comm.server.storage.allocate
      allocated.2.1 = false →
        (∀ reference ∈ comm.references, reference.1 ≠ allocated.1) ∧
          ∀ nId, comm.server.sessionmap nId ≠ some allocated.1
  | _ => True

end TCPComm

namespace Server

/-- A handler leaves the storage alone and leads only the given ids to a session anew. -/
structure Grants (server next : Server) (session : SessionPtr) (nIds : List AccountId) : Prop where
  storage_eq : next.storage = server.storage
  mapped : ∀ nId holder, next.sessionmap nId = some holder →
    server.sessionmap nId = some holder ∨ holder = session ∧ nId ∈ nIds

namespace Grants

variable {server next final : Server} {session : SessionPtr} {nIds later : List AccountId}

theorem of_map_eq (storage_eq : next.storage = server.storage)
    (map_eq : next.sessionmap = server.sessionmap) : server.Grants next session nIds :=
  ⟨storage_eq, fun _ _ found => .inl (map_eq ▸ found)⟩

theorem trans (grants : server.Grants next session nIds)
    (others : next.Grants final session later) : server.Grants final session (nIds ++ later) where
  storage_eq := others.storage_eq.trans grants.storage_eq
  mapped nId holder found := by
    rcases others.mapped nId holder found with old | ⟨isSession, isGranted⟩
    · rcases grants.mapped nId holder old with old | ⟨isSession, isGranted⟩
      · exact .inl old
      · exact .inr ⟨isSession, List.mem_append_left _ isGranted⟩
    · exact .inr ⟨isSession, List.mem_append_right _ isGranted⟩

/-- A handler that removes ids and sends packets. -/
theorem andThen (grants : server.Grants next session nIds) (others : next.Grants final session []) :
    server.Grants final session nIds := by
  simpa using grants.trans others

theorem refl : server.Grants server session nIds := of_map_eq rfl rfl

theorem modify (other : SessionPtr) (change : Session → Session) :
    server.Grants (server.modify other change) session nIds := of_map_eq rfl rfl

theorem remove (nId : AccountId) : server.Grants (server.remove nId) session nIds where
  storage_eq := rfl
  mapped id holder found := by
    simp only [Server.remove, Function.update_apply] at found
    split_ifs at found
    exact .inl found

theorem setAt (nId : AccountId) : server.Grants (server.setAt nId session) session [nId] where
  storage_eq := rfl
  mapped id holder found := by
    simp only [Server.setAt, Function.update_apply] at found
    split_ifs at found with isNew
    · exact .inr ⟨(Option.some.inj found).symm, List.mem_singleton.mpr isNew⟩
    · exact .inl found

theorem evict (nId : AccountId) (other : SessionPtr) (reason : LoginResult) :
    server.Grants (server.evict nId other reason) session [] :=
  ((modify other _).andThen (modify other _)).andThen (remove nId)

theorem checkAnotherLogin (nId : AccountId) (other : SessionPtr) :
    server.Grants (server.checkAnotherLogin nId other) session [] := by
  simp only [Server.checkAnotherLogin]
  split
  · exact refl
  · split_ifs
    · exact refl
    · exact evict nId _ _

theorem foldl_remove (others : List AccountId) :
    server.Grants (others.foldl Server.remove server) session [] := by
  induction others generalizing server with
  | nil => exact refl
  | cons nId rest ih => exact (remove nId).andThen ih

theorem dropAccounts (other : SessionPtr) :
    server.Grants (server.dropAccounts other) session [] :=
  (foldl_remove _).andThen (modify other _)

theorem checkLogin (environment : Environment) (strId strPwd strDeviceNum : CText) :
    server.Grants (server.checkLogin environment session strId strPwd strDeviceNum).2 session
      [] := by
  simp only [Server.checkLogin]
  split
  · exact refl
  · exact checkAnotherLogin _ session

theorem enter (verdict : Verdict) :
    server.Grants (server.enter session verdict) session verdict.loggedIn.toList := by
  cases verdict with
  | refused nRet refusal => exact refl
  | granted nID strExpiredTime strToken =>
      have entered : server.Grants
          (server.modify session fun object => { object with ids := object.ids ++ [nID] })
          session [] := modify session _
      exact entered.trans (setAt nID)

theorem loginAccounts (environment : Environment) (strDeviceNum : CText)
    (accounts : List (CText × CText)) :
    server.Grants (server.loginAccounts environment session strDeviceNum accounts).2 session
      ((server.loginAccounts environment session strDeviceNum accounts).1.filterMap
        Verdict.loggedIn) := by
  induction accounts generalizing server with
  | nil => exact refl
  | cons account rest ih =>
      rcases account with ⟨strId, strPwd⟩
      simp only [Server.loginAccounts, List.filterMap_cons]
      set checked : Verdict × Server := if strId ∈ rest.map Prod.fst then
        (.refused .duplicate LoginResult.duplicate_ne_success, server)
        else server.checkLogin environment session strId strPwd strDeviceNum with checked_eq
      have isChecked : server.Grants checked.2 session [] := by
        simp only [checked_eq]
        split_ifs
        · exact refl
        · exact checkLogin environment strId strPwd strDeviceNum
      have grants := (isChecked.trans (enter checked.1)).trans ih
      cases isLoggedIn : checked.1.loggedIn with
      | none => simpa [isLoggedIn] using grants
      | some nID => simpa [isLoggedIn] using grants

theorem onRecvPacket (environment : Environment) (now : ℕ) (received : Buffer) :
    server.Grants (server.onRecvPacket environment now session received) session
      (server.loggedIn environment now session received) := by
  simp only [Server.onRecvPacket]
  have ticked : server.Grants
      (server.modify session fun object => { object with lastcommtick := now }) session [] :=
    modify session _
  split_ifs with empty keepalive noIds loginReq logout
  · exact of_map_eq rfl rfl
  · exact of_map_eq rfl rfl
  · simp only [Server.loggedIn, Server.handleLogin]
    rw [if_pos ⟨empty, loginReq, noIds⟩]
    cases readRequest received.readStart with
    | none => exact ticked
    | some request =>
        exact (ticked.trans (loginAccounts environment _ _)).andThen (modify session _)
  · exact of_map_eq rfl rfl
  · exact (ticked.andThen (dropAccounts session)).trans refl
  · exact of_map_eq rfl rfl

theorem expire (nExpiredID : AccountId) :
    server.Grants (server.expire nExpiredID) session [] := by
  simp only [Server.expire]
  split
  · exact refl
  · exact evict nExpiredID _ _

theorem initAllConnections : server.Grants server.initAllConnections session [] := by
  simp only [Server.initAllConnections]
  generalize server.storage.list = sessionlist
  induction sessionlist generalizing server with
  | nil => exact refl
  | cons other rest ih =>
      exact (((foldl_remove _).andThen (modify other _)).andThen (modify other _)).andThen ih

end Grants

theorem doDisconnect_spec (server : Server) (session : SessionPtr) :
    (server.doDisconnect session).storage =
        (if session ∈ server.storage.list then server.storage.release session
        else server.storage) ∧
      ∀ nId holder, (server.doDisconnect session).sessionmap nId = some holder →
        server.sessionmap nId = some holder := by
  let dropped := (server.modify session fun object =>
    { object with writepacketlist := [] }).onRemoveSession session
  have grants : server.Grants dropped session [] :=
    (Grants.modify session _).andThen (Grants.dropAccounts session)
  have mapped : ∀ nId holder, dropped.sessionmap nId = some holder →
      server.sessionmap nId = some holder := by
    intro nId holder found
    rcases grants.mapped nId holder found with old | ⟨_, impossible⟩
    · exact old
    · exact absurd impossible List.not_mem_nil
  have released : server.doDisconnect session = dropped.release session := rfl
  simp only [released, Server.release, grants.storage_eq]
  split_ifs
  · exact ⟨rfl, mapped⟩
  · exact ⟨grants.storage_eq, mapped⟩

theorem mem_doDisconnect_iff (server : Server) (session holder : SessionPtr) :
    holder ∈ (server.doDisconnect session).storage.list ↔
      holder ∈ server.storage.list ∧ holder ≠ session := by
  simp only [(server.doDisconnect_spec session).1]
  split_ifs with isListed
  · exact Storage.mem_release_iff
  · refine (and_iff_left_of_imp ?_).symm
    rintro mem rfl
    exact isListed mem

theorem sessions_doDisconnect (server : Server) {session other : SessionPtr}
    (different : other ≠ session) :
    (server.doDisconnect session).sessions other = server.sessions other := by
  let cleared := server.modify session fun object => { object with writepacketlist := [] }
  have dropped : (cleared.onRemoveSession session).sessions other = server.sessions other := by
    change Function.update (((cleared.sessions session).ids.foldl remove cleared).sessions)
      session _ other = _
    simp only [Function.update_of_ne different, (cleared.foldl_remove _).2.1]
    exact Function.update_of_ne different _ _
  change ((cleared.onRemoveSession session).release session).sessions other = _
  simp only [Server.release]
  split_ifs
  · exact (Function.update_of_ne different _ _).trans dropped
  · exact dropped

end Server

theorem Storage.heap_le_allocate (storage : Storage) :
    storage.heap ≤ storage.allocate.2.2.heap := by
  simp only [Storage.allocate]
  split
  · split_ifs
    · exact le_rfl
    · exact Nat.le_succ _
  · exact Nat.le_succ _

/-- `Allocate` makes at most one object, the one that it hands out. -/
theorem Storage.lt_heap_allocate {storage : Storage} {p : SessionPtr}
    (inHeap : p < storage.allocate.2.2.heap) : p = storage.allocate.1 ∨ p < storage.heap := by
  simp only [Storage.allocate] at inHeap ⊢
  split at inHeap
  · split_ifs at inHeap ⊢
    · exact .inr inHeap
    · exact (Nat.lt_succ_iff_lt_or_eq.mp inHeap).symm
  · exact (Nat.lt_succ_iff_lt_or_eq.mp inHeap).symm

theorem Storage.allocate_created {storage : Storage} (created : storage.allocate.2.1 = true) :
    storage.allocate.1 = storage.heap := by
  simp only [Storage.allocate] at created ⊢
  split at created
  · split_ifs at created ⊢
    · rfl
  · rfl

namespace Server

/-- A session that was not in use is put in use, and nothing else happens to the storage. -/
structure HandsOut (server next : Server) (session : SessionPtr) : Prop where
  unlisted : session ∉ server.storage.list
  wellFormed : next.storage.WellFormed
  list_eq : next.storage.list = server.storage.list ++ [session]
  heap_le : server.storage.heap ≤ next.storage.heap
  inHeap : ∀ other < next.storage.heap, other = session ∨ other < server.storage.heap
  sessionmap_eq : next.sessionmap = server.sessionmap

theorem HandsOut.session_lt {server next : Server} {session : SessionPtr}
    (hands : server.HandsOut next session) : session < next.storage.heap := by
  apply hands.wellFormed.list_lt
  simp only [hands.list_eq]
  exact List.mem_append_right _ (List.mem_singleton_self session)

theorem handsOut_accept {server : Server} (wellFormed : server.storage.WellFormed) (now : ℕ) :
    server.HandsOut (server.accept now).2 (server.accept now).1 := by
  rcases wellFormed.allocate with ⟨unlisted, allocated, list_eq⟩
  exact ⟨unlisted, allocated, list_eq, server.storage.heap_le_allocate,
    fun _ => Storage.lt_heap_allocate, rfl⟩

end Server

namespace TCPComm

variable {comm : TCPComm}

/-- What is under way for a connection names the session that still belongs to it. -/
def Current (comm : TCPComm) (reference : SessionPtr × Connection) : Prop :=
  reference.1 < comm.server.storage.heap ∧ reference.2 = comm.incarnation reference.1

structure AllCurrent (comm : TCPComm) : Prop where
  reads : ∀ operation ∈ comm.reads, comm.Current operation.target
  writes : ∀ operation ∈ comm.writes, comm.Current operation.target
  posted : ∀ handler ∈ comm.posted, ∀ reference, handler.target = some reference →
    comm.Current reference
  readpacketlist : ∀ received ∈ comm.readpacketlist, comm.Current received.target
  handling : ∀ received ∈ comm.handling, comm.Current received.target
  idle : ∀ reference, comm.sweep.idle = some reference → comm.Current reference

theorem allCurrent_iff :
    comm.AllCurrent ↔ ∀ reference ∈ comm.references, comm.Current reference := by
  constructor
  · intro current reference mem
    simp only [references, List.mem_append, List.mem_map, List.mem_filterMap,
      Option.mem_toList] at mem
    rcases mem with (((((⟨operation, isRead, rfl⟩ | ⟨operation, isWrite, rfl⟩) |
      ⟨handler, isPosted, isTarget⟩) | ⟨received, isQueued, rfl⟩) | ⟨received, isTaken, rfl⟩) |
      isIdle)
    · exact current.reads operation isRead
    · exact current.writes operation isWrite
    · exact current.posted handler isPosted reference isTarget
    · exact current.readpacketlist received isQueued
    · exact current.handling received isTaken
    · exact current.idle reference isIdle
  · intro all
    simp only [references, List.forall_mem_append, List.forall_mem_map, List.mem_filterMap,
      Option.mem_toList] at all
    rcases all with ⟨⟨⟨⟨⟨reads, writes⟩, posted⟩, readpacketlist⟩, handling⟩, idle⟩
    exact
      { reads, writes, readpacketlist, handling, idle
        posted := fun handler isPosted reference isTarget =>
          posted reference ⟨handler, isPosted, isTarget⟩ }

/-- The invariant of the runs in which every session is handed out fresh. -/
structure Sound (comm : TCPComm) : Prop where
  wellFormed : comm.server.storage.WellFormed
  current : comm.AllCurrent
  posted : ∀ handler ∈ comm.posted, handler.session < comm.server.storage.heap
  sessionlist : ∀ session ∈ comm.sweep.sessionlist, session < comm.server.storage.heap
  older : ∀ session < comm.server.storage.heap, comm.incarnation session < comm.accepted
  injective : ∀ session < comm.server.storage.heap, ∀ other < comm.server.storage.heap,
    comm.incarnation session = comm.incarnation other → session = other
  mapped : ∀ nId session, comm.server.sessionmap nId = some session →
    session < comm.server.storage.heap ∧ (nId, comm.incarnation session) ∈ comm.logins
  processed : ∀ entry ∈ comm.processed, entry.against = entry.receivedOn
  disconnected : ∀ entry ∈ comm.disconnected, entry.torn = entry.issuedFor
  live : ∀ connection, comm.Live connection → comm.releases connection = 0
  dead : ∀ connection < comm.accepted, ¬ comm.Live connection → comm.releases connection = 1
  unused : ∀ connection, comm.accepted ≤ connection → comm.releases connection = 0

namespace Sound

theorem start : TCPComm.start.Sound where
  wellFormed := Server.consistent_start.storage_wellFormed
  current :=
    { reads := fun _ mem => absurd mem List.not_mem_nil
      writes := fun _ mem => absurd mem List.not_mem_nil
      posted := fun _ mem => absurd mem List.not_mem_nil
      readpacketlist := fun _ mem => absurd mem List.not_mem_nil
      handling := fun _ mem => absurd mem List.not_mem_nil
      idle := fun _ isIdle => absurd isIdle.symm (Option.some_ne_none _) }
  posted _ mem := absurd mem List.not_mem_nil
  sessionlist _ mem := absurd mem List.not_mem_nil
  older _ inHeap := absurd inHeap (Nat.not_lt_zero _)
  injective _ inHeap := absurd inHeap (Nat.not_lt_zero _)
  mapped _ _ found := absurd found.symm (Option.some_ne_none _)
  processed _ mem := absurd mem List.not_mem_nil
  disconnected _ mem := absurd mem List.not_mem_nil
  live _ _ := rfl
  dead _ isOld := absurd isOld (Nat.not_lt_zero _)
  unused _ _ := rfl

/-- A session in use is known by its connection. -/
theorem eq_of_incarnation (sound : comm.Sound) {session holder : SessionPtr}
    (inHeap : session < comm.server.storage.heap) (isListed : holder ∈ comm.server.storage.list)
    (same : comm.incarnation holder = comm.incarnation session) : holder = session :=
  sound.injective holder (sound.wellFormed.list_lt holder isListed) session inHeap same

theorem of_lists (sound : comm.Sound) {reads writes : List Operation} {posted : List Posted}
    {readpacketlist handling : List ReceivedPacket} (fewerReads : reads ⊆ comm.reads)
    (fewerWrites : writes ⊆ comm.writes) (fewerPosted : posted ⊆ comm.posted)
    (fewerQueued : readpacketlist ⊆ comm.readpacketlist)
    (fewerHandling : handling ⊆ comm.handling) :
    ({ comm with reads, writes, posted, readpacketlist, handling } : TCPComm).Sound :=
  { sound with
    current :=
      { reads := fun operation mem => sound.current.reads operation (fewerReads mem)
        writes := fun operation mem => sound.current.writes operation (fewerWrites mem)
        posted := fun handler mem => sound.current.posted handler (fewerPosted mem)
        readpacketlist := fun received mem =>
          sound.current.readpacketlist received (fewerQueued mem)
        handling := fun received mem => sound.current.handling received (fewerHandling mem)
        idle := sound.current.idle }
    posted := fun handler mem => sound.posted handler (fewerPosted mem) }

theorem post (sound : comm.Sound) {handler : Posted}
    (inHeap : handler.session < comm.server.storage.heap)
    (isCurrent : ∀ reference, handler.target = some reference → comm.Current reference) :
    (comm.post handler).Sound :=
  { sound with
    current := { sound.current with
      posted := by
        intro other mem
        rcases List.mem_append.mp mem with old | isNew
        · exact sound.current.posted other old
        · simp only [List.mem_singleton.mp isNew]
          exact isCurrent }
    posted := by
      intro other mem
      rcases List.mem_append.mp mem with old | isNew
      · exact sound.posted other old
      · simp only [List.mem_singleton.mp isNew]
        exact inHeap }

theorem postStart (sound : comm.Sound) {handler : Posted}
    (inHeap : handler.session < comm.server.storage.heap) (noTarget : handler.target = none) :
    (comm.post handler).Sound := by
  apply sound.post inHeap
  intro reference isTarget
  simp only [noTarget] at isTarget
  exact absurd isTarget.symm (Option.some_ne_none reference)

theorem startOperation (sound : comm.Sound) {session : SessionPtr}
    (inHeap : session < comm.server.storage.heap) :
    (comm.doRead session).Sound ∧ (comm.startWrite session).Sound := by
  have isCurrent : comm.Current (comm.operation session).target := ⟨inHeap, rfl⟩
  constructor
  · exact { sound with
      current := { sound.current with
        reads := by
          intro operation mem
          rcases List.mem_append.mp mem with old | isNew
          · exact sound.current.reads operation old
          · simp only [List.mem_singleton.mp isNew]
            exact isCurrent } }
  · exact { sound with
      current := { sound.current with
        writes := by
          intro operation mem
          rcases List.mem_append.mp mem with old | isNew
          · exact sound.current.writes operation old
          · simp only [List.mem_singleton.mp isNew]
            exact isCurrent } }

theorem doWrite (sound : comm.Sound) {session : SessionPtr} (bStart : Bool)
    (inHeap : session < comm.server.storage.heap) : (comm.doWrite session bStart).Sound := by
  simp only [TCPComm.doWrite]
  split
  · split_ifs
    · exact sound
    · exact (sound.startOperation inHeap).2
  · exact sound
  · rename_i packet rest _ _
    have popped : ({ comm with
        server := comm.server.modify session fun object => { object with writepacketlist := rest }
        writepacket := Function.update comm.writepacket session (some packet) } : TCPComm).Sound :=
      { sound with current := { sound.current with } }
    exact (popped.startOperation inHeap).2

theorem completeRead (sound : comm.Sound) {operation : Operation}
    (isCurrent : comm.Current operation.target) (result : ReadResult) :
    (comm.completeRead operation result).Sound := by
  cases result with
  | more => exact sound.postStart isCurrent.1 rfl
  | finished packet =>
      have queued : ({ comm with
          readpacketlist := comm.readpacketlist ++
            [{ session := operation.session, connection := operation.connection, packet }] } :
          TCPComm).Sound :=
        { sound with
          current := { sound.current with
            readpacketlist := by
              intro received mem
              rcases List.mem_append.mp mem with old | isNew
              · exact sound.current.readpacketlist received old
              · simp only [List.mem_singleton.mp isNew]
                exact isCurrent } }
      exact queued.postStart isCurrent.1 rfl
  | tooLong => exact sound.post isCurrent.1 (fun _ isTarget => Option.some.inj isTarget ▸ isCurrent)

theorem completeWrite (sound : comm.Sound) {operation : Operation}
    (isCurrent : comm.Current operation.target) (result : WriteResult) :
    (comm.completeWrite operation result).Sound := by
  simp only [TCPComm.completeWrite]
  split
  · exact sound
  · exact sound.postStart isCurrent.1 rfl
  · have written : ({ comm with
        writepacket := Function.update comm.writepacket operation.session none } : TCPComm).Sound :=
      { sound with current := { sound.current with } }
    split_ifs
    · exact written.post isCurrent.1 (fun _ isTarget => Option.some.inj isTarget ▸ isCurrent)
    · exact written.postStart isCurrent.1 rfl

theorem fail (sound : comm.Sound) {operation : Operation}
    (isCurrent : comm.Current operation.target) : (comm.fail operation).Sound :=
  sound.post isCurrent.1 (fun _ isTarget => Option.some.inj isTarget ▸ isCurrent)

theorem serve (sound : comm.Sound) {server : Server} {session : SessionPtr}
    {nIds : List AccountId} (grants : comm.server.Grants server session nIds)
    (isLogged : ∀ nId ∈ nIds, session < comm.server.storage.heap ∧
      (nId, comm.incarnation session) ∈ comm.logins) : (comm.serve server).Sound := by
  have posts : ∀ handler ∈ (comm.serve server).posted, handler ∈ comm.posted ∨
      ∃ other < comm.server.storage.heap, handler = .doWrite other true := by
    intro handler mem
    rcases List.mem_append.mp mem with old | isNew
    · exact .inl old
    · simp only [Server.posts, List.mem_flatMap, List.mem_range, List.mem_replicate] at isNew
      rcases isNew with ⟨other, otherInHeap, -, isWrite⟩
      exact .inr ⟨other, otherInHeap, isWrite⟩
  have heap_eq : (comm.serve server).server.storage = comm.server.storage := grants.storage_eq
  have sameCurrent : ∀ reference, comm.Current reference →
      (comm.serve server).Current reference := by
    intro reference isCurrent
    refine ⟨?_, isCurrent.2⟩
    simp only [heap_eq]
    exact isCurrent.1
  have sameLive : ∀ connection, (comm.serve server).Live connection ↔ comm.Live connection := by
    intro connection
    simp only [Live, heap_eq]
    exact Iff.rfl
  constructor
  case wellFormed =>
    simp only [heap_eq]
    exact sound.wellFormed
  case current =>
    exact
      { reads := fun operation mem => sameCurrent _ (sound.current.reads operation mem)
        writes := fun operation mem => sameCurrent _ (sound.current.writes operation mem)
        posted := by
          intro handler mem reference isTarget
          rcases posts handler mem with old | ⟨other, _, rfl⟩
          · exact sameCurrent _ (sound.current.posted handler old reference isTarget)
          · exact absurd isTarget.symm (Option.some_ne_none reference)
        readpacketlist := fun received mem =>
          sameCurrent _ (sound.current.readpacketlist received mem)
        handling := fun received mem => sameCurrent _ (sound.current.handling received mem)
        idle := fun reference isIdle => sameCurrent _ (sound.current.idle reference isIdle) }
  case posted =>
    intro handler mem
    simp only [heap_eq]
    rcases posts handler mem with old | ⟨other, otherInHeap, rfl⟩
    · exact sound.posted handler old
    · exact otherInHeap
  case sessionlist =>
    simp only [heap_eq]
    exact sound.sessionlist
  case older =>
    simp only [heap_eq]
    exact sound.older
  case injective =>
    simp only [heap_eq]
    exact sound.injective
  case mapped =>
    intro nId holder found
    simp only [heap_eq]
    rcases grants.mapped nId holder found with old | ⟨isSession, isGranted⟩
    · exact sound.mapped nId holder old
    · simp only [isSession]
      exact isLogged nId isGranted
  case processed => exact sound.processed
  case disconnected => exact sound.disconnected
  case live =>
    intro connection isLive
    exact sound.live connection ((sameLive connection).mp isLive)
  case dead =>
    intro connection isOld notLive
    exact sound.dead connection isOld (fun isLive => notLive ((sameLive connection).mpr isLive))
  case unused => exact sound.unused

theorem onRecvPacket (sound : comm.Sound) {received : ReceivedPacket}
    (isCurrent : comm.Current received.target) (environment : Environment) (now : ℕ) :
    (comm.onRecvPacket environment now received).Sound := by
  set loggedIn := comm.server.loggedIn environment now received.session received.packet
  have recorded : ({ comm with
      processed := comm.processed ++
        [{ receivedOn := received.connection, against := comm.incarnation received.session }]
      logins := comm.logins ++ loggedIn.map fun nId => (nId, received.connection) } :
      TCPComm).Sound :=
    { sound with
      current := { sound.current with }
      processed := by
        intro entry mem
        rcases List.mem_append.mp mem with old | isNew
        · exact sound.processed entry old
        · simp only [List.mem_singleton.mp isNew]
          exact isCurrent.2.symm
      mapped := fun nId session found =>
        (sound.mapped nId session found).imp_right (List.mem_append_left _) }
  apply recorded.serve (.onRecvPacket environment now received.packet)
  intro nId isLogged
  refine ⟨isCurrent.1, List.mem_append_right _ ?_⟩
  exact List.mem_map.mpr ⟨nId, isLogged, congrArg (nId, ·) isCurrent.2⟩

/-- The connection that a disconnect hits is no longer live, the others are as before. -/
theorem live_doDisconnect_iff (sound : comm.Sound) {session : SessionPtr}
    (inHeap : session < comm.server.storage.heap) (connection other : Connection) :
    (comm.doDisconnect session connection).Live other ↔
      comm.Live other ∧ other ≠ comm.incarnation session := by
  constructor
  · rintro ⟨holder, mem, rfl⟩
    rcases (comm.server.mem_doDisconnect_iff session holder).mp mem with ⟨wasListed, different⟩
    exact ⟨⟨holder, wasListed, rfl⟩, fun same =>
      different (sound.eq_of_incarnation inHeap wasListed same)⟩
  · rintro ⟨⟨holder, mem, rfl⟩, different⟩
    refine ⟨holder, (comm.server.mem_doDisconnect_iff session holder).mpr ⟨mem, ?_⟩, rfl⟩
    rintro rfl
    exact different rfl

theorem releases_doDisconnect (comm : TCPComm) (session : SessionPtr)
    (connection other : Connection) :
    (comm.doDisconnect session connection).releases other = comm.releases other +
      if session ∈ comm.server.storage.list ∧ comm.incarnation session = other then 1 else 0 := by
  simp [releases, TCPComm.doDisconnect, List.countP_append, List.countP_singleton]

/-- A disconnect that runs while its session still belongs to the connection. -/
theorem doDisconnect (sound : comm.Sound) {session : SessionPtr} {connection : Connection}
    (isCurrent : comm.Current (session, connection)) :
    (comm.doDisconnect session connection).Sound := by
  rcases comm.server.doDisconnect_spec session with ⟨storage_eq, mapped⟩
  have heap_eq : (comm.doDisconnect session connection).server.storage.heap =
      comm.server.storage.heap := by
    change (comm.server.doDisconnect session).storage.heap = _
    simp only [storage_eq]
    split_ifs <;> rfl
  have sameCurrent : ∀ reference, comm.Current reference →
      (comm.doDisconnect session connection).Current reference := by
    intro reference old
    refine ⟨?_, old.2⟩
    simp only [heap_eq]
    exact old.1
  have live_iff := sound.live_doDisconnect_iff isCurrent.1 connection
  constructor
  case wellFormed =>
    change (comm.server.doDisconnect session).storage.WellFormed
    simp only [storage_eq]
    split_ifs with isListed
    · exact sound.wellFormed.release isListed
    · exact sound.wellFormed
  case current =>
    simp only [allCurrent_iff]
    intro reference mem
    exact sameCurrent reference (allCurrent_iff.mp sound.current reference mem)
  case posted =>
    simp only [heap_eq]
    exact sound.posted
  case sessionlist =>
    simp only [heap_eq]
    exact sound.sessionlist
  case older =>
    simp only [heap_eq]
    exact sound.older
  case injective =>
    simp only [heap_eq]
    exact sound.injective
  case mapped =>
    intro nId holder found
    simp only [heap_eq]
    exact sound.mapped nId holder (mapped nId holder found)
  case processed => exact sound.processed
  case disconnected =>
    intro entry mem
    rcases List.mem_append.mp mem with old | isNew
    · exact sound.disconnected entry old
    · simp only [List.mem_singleton.mp isNew]
      exact isCurrent.2.symm
  case live =>
    intro other isLive
    rcases (live_iff other).mp isLive with ⟨wasLive, different⟩
    rw [releases_doDisconnect, sound.live other wasLive,
      if_neg (fun torn => different torn.2.symm)]
  case dead =>
    intro other isOld notLive
    simp only [releases_doDisconnect]
    by_cases torn : session ∈ comm.server.storage.list ∧ comm.incarnation session = other
    · simp only [if_pos torn, sound.live other ⟨session, torn.1, torn.2⟩]
    · simp only [if_neg torn]
      apply sound.dead other isOld
      rintro ⟨holder, mem, rfl⟩
      refine notLive ((live_iff _).mpr ⟨⟨holder, mem, rfl⟩, ?_⟩)
      intro same
      simp only [sound.eq_of_incarnation isCurrent.1 mem same] at mem
      exact torn ⟨mem, same.symm⟩
  case unused =>
    intro other isNew
    rw [releases_doDisconnect, sound.unused other isNew, if_neg]
    rintro ⟨_, rfl⟩
    exact absurd (sound.older session isCurrent.1) (not_lt.mpr isNew)

/-- A session that nothing refers to is handed out for the next connection. -/
theorem handOut (sound : comm.Sound) {server : Server} {session : SessionPtr}
    (hands : comm.server.HandsOut server session) (socketOpen : SessionPtr → Bool)
    (writepacket : SessionPtr → Option Message)
    (unreferenced : ∀ reference ∈ comm.references, reference.1 ≠ session)
    (unmapped : ∀ nId, comm.server.sessionmap nId ≠ some session) :
    ({ comm with
        server, socketOpen, writepacket
        incarnation := Function.update comm.incarnation session comm.accepted
        accepted := comm.accepted + 1 } : TCPComm).Sound := by
  set opened : TCPComm := { comm with
    server, socketOpen, writepacket
    incarnation := Function.update comm.incarnation session comm.accepted
    accepted := comm.accepted + 1 }
  have incarnation_self : opened.incarnation session = comm.accepted := Function.update_self _ _ _
  have incarnation_other : ∀ other, other ≠ session →
      opened.incarnation other = comm.incarnation other :=
    fun other different => Function.update_of_ne different _ _
  have stillCurrent : ∀ reference ∈ comm.references, opened.Current reference := by
    intro reference mem
    have isCurrent := allCurrent_iff.mp sound.current reference mem
    refine ⟨lt_of_lt_of_le isCurrent.1 hands.heap_le, ?_⟩
    simp only [incarnation_other _ (unreferenced reference mem)]
    exact isCurrent.2
  have isOlder : ∀ other, other ≠ session → other < opened.server.storage.heap →
      opened.incarnation other < comm.accepted := by
    intro other different inHeap
    simp only [incarnation_other other different]
    exact sound.older other ((hands.inHeap other inHeap).resolve_left different)
  have live_iff : ∀ other, opened.Live other ↔ comm.Live other ∨ other = comm.accepted := by
    intro other
    simp only [Live, opened, hands.list_eq, List.mem_append, List.mem_singleton, or_and_right,
      exists_or, exists_eq_left]
    apply or_congr
    · apply exists_congr
      intro holder
      apply and_congr_right
      intro mem
      rw [Function.update_of_ne]
      rintro rfl
      exact hands.unlisted mem
    · simp only [Function.update_self]
      exact eq_comm
  constructor
  case wellFormed => exact hands.wellFormed
  case current => exact allCurrent_iff.mpr stillCurrent
  case posted =>
    intro handler mem
    exact lt_of_lt_of_le (sound.posted handler mem) hands.heap_le
  case sessionlist =>
    intro swept mem
    exact lt_of_lt_of_le (sound.sessionlist swept mem) hands.heap_le
  case older =>
    intro other inHeap
    by_cases same : other = session
    · simp only [same, incarnation_self]
      exact Nat.lt_succ_self _
    · exact Nat.lt_succ_of_lt (isOlder other same inHeap)
  case injective =>
    intro first firstInHeap second secondInHeap same
    by_cases isFirst : first = session
    · by_cases isSecond : second = session
      · simp only [isFirst, isSecond]
      · simp only [isFirst, incarnation_self] at same
        exact absurd same (isOlder second isSecond secondInHeap).ne'
    · by_cases isSecond : second = session
      · simp only [isSecond, incarnation_self] at same
        exact absurd same (isOlder first isFirst firstInHeap).ne
      · simp only [incarnation_other first isFirst, incarnation_other second isSecond] at same
        exact sound.injective first ((hands.inHeap first firstInHeap).resolve_left isFirst)
          second ((hands.inHeap second secondInHeap).resolve_left isSecond) same
  case mapped =>
    intro nId holder found
    change server.sessionmap nId = some holder at found
    simp only [hands.sessionmap_eq] at found
    rcases sound.mapped nId holder found with ⟨inHeap, isLogged⟩
    refine ⟨lt_of_lt_of_le inHeap hands.heap_le, ?_⟩
    rw [incarnation_other]
    · exact isLogged
    · rintro rfl
      exact unmapped nId found
  case processed => exact sound.processed
  case disconnected => exact sound.disconnected
  case live =>
    intro other isLive
    change comm.releases other = 0
    rcases (live_iff other).mp isLive with wasLive | rfl
    · exact sound.live other wasLive
    · exact sound.unused comm.accepted le_rfl
  case dead =>
    intro other isOld notLive
    change comm.releases other = 1
    simp only [live_iff, not_or] at notLive
    exact sound.dead other (lt_of_le_of_ne (Nat.lt_succ_iff.mp isOld) notLive.2) notLive.1
  case unused =>
    intro other isNew
    exact sound.unused other ((Nat.le_succ _).trans isNew)

theorem accept (sound : comm.Sound) {now : ℕ} (fresh : comm.Fresh (.accept now)) :
    (comm.accept now).Sound := by
  have hands := Server.handsOut_accept sound.wellFormed now
  have unreferenced : (∀ reference ∈ comm.references,
        reference.1 ≠ (comm.server.accept now).1) ∧
      ∀ nId, comm.server.sessionmap nId ≠ some (comm.server.accept now).1 := by
    cases created : comm.server.storage.allocate.2.1 with
    | false => exact fresh created
    | true =>
        have isNew : (comm.server.accept now).1 = comm.server.storage.heap :=
          Storage.allocate_created created
        simp only [isNew]
        refine ⟨fun reference mem => (allCurrent_iff.mp sound.current reference mem).1.ne, ?_⟩
        intro nId found
        exact absurd (sound.mapped nId _ found).1 (lt_irrefl _)
  have opened := sound.handOut hands
    (Function.update comm.socketOpen (comm.server.accept now).1 true)
    (Function.update comm.writepacket (comm.server.accept now).1 none)
    unreferenced.1 unreferenced.2
  exact (opened.startOperation hands.session_lt).1

theorem run (sound : comm.Sound) {handler : Posted}
    (inHeap : handler.session < comm.server.storage.heap)
    (isCurrent : ∀ reference, handler.target = some reference → comm.Current reference) :
    (comm.run handler).Sound := by
  cases handler with
  | doRead session => exact (sound.startOperation inHeap).1
  | doWrite session bStart => exact sound.doWrite bStart inHeap
  | doDisconnect session connection => exact sound.doDisconnect (isCurrent _ rfl)

theorem sweepOn (sound : comm.Sound) {sweep : Sweep}
    (inHeap : ∀ session ∈ sweep.sessionlist, session < comm.server.storage.heap)
    (idle : ∀ reference, sweep.idle = some reference → comm.Current reference) :
    ({ comm with sweep } : TCPComm).Sound :=
  { sound with current := { sound.current with idle }, sessionlist := inHeap }

theorem popPacket (sound : comm.Sound) {received : ReceivedPacket}
    (isFirst : comm.readpacketlist.head? = some received) :
    ({ comm with
        readpacketlist := comm.readpacketlist.tail
        handling := comm.handling ++ [{ received with packet := received.packet.decrypt }] } :
      TCPComm).Sound :=
  { sound with
    current := { sound.current with
      readpacketlist := fun other mem =>
        sound.current.readpacketlist other (List.mem_of_mem_tail mem)
      handling := by
        intro other mem
        rcases List.mem_append.mp mem with old | isNew
        · exact sound.current.handling other old
        · simp only [List.mem_singleton.mp isNew]
          exact sound.current.readpacketlist received (List.mem_of_mem_head? isFirst) } }

/-- The idle test notes the connection that the session belongs to now. -/
theorem checkIdle (sound : comm.Sound) {session : SessionPtr}
    (isFirst : comm.sweep.sessionlist.head? = some session) :
    (comm.checkIdle session comm.sweep.sessionlist.tail).Sound := by
  apply sound.sweepOn
  · intro other mem
    exact sound.sessionlist other (List.mem_of_mem_tail mem)
  · intro reference isIdle
    simp only [Option.ite_none_right_eq_some] at isIdle
    rcases isIdle with ⟨_, isSession⟩
    cases isSession
    exact ⟨sound.sessionlist session (List.mem_of_mem_head? isFirst), rfl⟩

/-- Every step keeps the invariant, as long as sessions are handed out fresh. -/
theorem advance (sound : comm.Sound) {event : Event} {next : TCPComm} (fresh : comm.Fresh event)
    (moves : comm.advance event = some next) : next.Sound := by
  have taken : ∀ i, ({ comm with reads := comm.reads.eraseIdx i } : TCPComm).Sound ∧
      ({ comm with writes := comm.writes.eraseIdx i } : TCPComm).Sound ∧
      ({ comm with posted := comm.posted.eraseIdx i } : TCPComm).Sound ∧
      ({ comm with handling := comm.handling.eraseIdx i } : TCPComm).Sound := by
    intro i
    refine ⟨?_, ?_, ?_, ?_⟩ <;> apply sound.of_lists <;>
      first | exact List.Subset.refl _ | exact List.eraseIdx_subset
  cases event with
  | accept now =>
      cases moves
      exact sound.accept fresh
  | readCompleted i result =>
      simp only [TCPComm.advance, Option.bind_eq_bind, Option.bind_eq_some_iff] at moves
      rcases moves with ⟨operation, isOutstanding, _, _, moves⟩
      cases moves
      exact (taken i).1.completeRead
        (sound.current.reads operation (List.mem_of_getElem? isOutstanding)) result
  | readFailed i =>
      simp only [TCPComm.advance, Option.bind_eq_bind, Option.bind_eq_some_iff] at moves
      rcases moves with ⟨operation, isOutstanding, moves⟩
      cases moves
      exact (taken i).1.fail (sound.current.reads operation (List.mem_of_getElem? isOutstanding))
  | writeCompleted i result =>
      simp only [TCPComm.advance, Option.bind_eq_bind, Option.bind_eq_some_iff] at moves
      rcases moves with ⟨operation, isOutstanding, _, _, moves⟩
      cases moves
      exact (taken i).2.1.completeWrite
        (sound.current.writes operation (List.mem_of_getElem? isOutstanding)) result
  | writeFailed i =>
      simp only [TCPComm.advance, Option.bind_eq_bind, Option.bind_eq_some_iff] at moves
      rcases moves with ⟨operation, isOutstanding, moves⟩
      cases moves
      exact (taken i).2.1.fail
        (sound.current.writes operation (List.mem_of_getElem? isOutstanding))
  | runPosted i =>
      simp only [TCPComm.advance, Option.bind_eq_bind, Option.bind_eq_some_iff] at moves
      rcases moves with ⟨handler, isPosted, moves⟩
      cases moves
      have mem := List.mem_of_getElem? isPosted
      exact (taken i).2.2.1.run (sound.posted handler mem) (sound.current.posted handler mem)
  | popPacket =>
      simp only [TCPComm.advance, Option.bind_eq_bind, Option.bind_eq_some_iff] at moves
      rcases moves with ⟨received, isFirst, _, _, moves⟩
      cases moves
      exact sound.popPacket isFirst
  | onRecvPacket i environment now =>
      simp only [TCPComm.advance, Option.bind_eq_bind, Option.bind_eq_some_iff] at moves
      rcases moves with ⟨received, isTaken, moves⟩
      cases moves
      exact (taken i).2.2.2.onRecvPacket
        (sound.current.handling received (List.mem_of_getElem? isTaken)) environment now
  | expire nExpiredID =>
      cases moves
      have grants : comm.server.Grants (comm.server.expire nExpiredID) 0 [] := .expire nExpiredID
      exact sound.serve grants (fun _ isGranted => absurd isGranted List.not_mem_nil)
  | initAllConnections =>
      cases moves
      have grants : comm.server.Grants comm.server.initAllConnections 0 [] := .initAllConnections
      exact sound.serve grants (fun _ isGranted => absurd isGranted List.not_mem_nil)
  | checkClients curTime =>
      simp only [TCPComm.advance, Option.bind_eq_bind, Option.bind_eq_some_iff] at moves
      rcases moves with ⟨_, _, moves⟩
      cases moves
      exact sound.sweepOn sound.wellFormed.list_lt
        (fun reference isIdle => absurd isIdle.symm (Option.some_ne_none reference))
  | checkIdle =>
      simp only [TCPComm.advance, Option.bind_eq_bind, Option.bind_eq_some_iff] at moves
      rcases moves with ⟨_, _, session, isFirst, moves⟩
      cases moves
      exact sound.checkIdle isFirst
  | disconnectIdle =>
      simp only [TCPComm.advance, Option.bind_eq_bind, Option.bind_eq_some_iff] at moves
      rcases moves with ⟨reference, isIdle, moves⟩
      cases moves
      have swept : ({ comm with sweep := { comm.sweep with idle := none } } : TCPComm).Sound :=
        sound.sweepOn sound.sessionlist
          (fun other noIdle => absurd noIdle.symm (Option.some_ne_none other))
      exact swept.doDisconnect (sound.current.idle reference isIdle)

end Sound

/-- A disconnect leaves all other sessions alone. -/
theorem doDisconnect_other (comm : TCPComm) {session other : SessionPtr}
    (connection : Connection) (different : other ≠ session) :
    (comm.doDisconnect session connection).server.sessions other = comm.server.sessions other ∧
      (comm.doDisconnect session connection).socketOpen other = comm.socketOpen other ∧
      (comm.doDisconnect session connection).writepacket other = comm.writepacket other ∧
      (other ∈ (comm.doDisconnect session connection).server.storage.list ↔
        other ∈ comm.server.storage.list) := by
  refine ⟨comm.server.sessions_doDisconnect different, Function.update_of_ne different _ _,
    Function.update_of_ne different _ _, ?_⟩
  exact (comm.server.mem_doDisconnect_iff session other).trans (and_iff_left different)

/-- As long as `Storage` hands out no session that something under way names or an account leads
to, every packet is handled for the connection it was read from, every disconnect hits the
connection it was issued for, every connection that is over was released once, and the map leads
only to connections that logged the id in. -/
theorem keepsIdentity {comm : TCPComm}
    (reached : (system.restrict Fresh).Reachable comm) :
    comm.KeepsIdentity := by
  have invariant : (system.restrict Fresh).Invariant Sound :=
    { initial := fun comm isStart => isStart ▸ Sound.start
      step := fun comm event next sound moves => sound.advance moves.1 moves.2 }
  have sound := invariant.of_reachable reached
  exact ⟨sound.processed, sound.disconnected, sound.live, sound.dead,
    fun nId session found => (sound.mapped nId session found).2⟩

/-- The state after a list of steps. -/
def play (comm : TCPComm) : List Event → Option TCPComm
  | [] => some comm
  | event :: later => (comm.advance event).bind (play · later)

theorem reachable_play {steps : StepSystem TCPComm Event} {last : TCPComm} {events : List Event}
    (reached : steps.Reachable comm)
    (takes : ∀ event ∈ events, ∀ state next, state.advance event = some next →
      steps.step state event next)
    (plays : comm.play events = some last) : steps.Reachable last := by
  induction events generalizing comm with
  | nil =>
      cases plays
      exact reached
  | cons event later ih =>
      simp only [play, Option.bind_eq_some_iff] at plays
      rcases plays with ⟨next, moves, plays⟩
      exact ih (.step reached (takes event List.mem_cons_self comm next moves))
        (fun other mem => takes other (List.mem_cons_of_mem _ mem)) plays

/-- The keepalive packet under the key zero. -/
def keepalive : Buffer := { Buffer.blank with used := realBufferOffset }

/-- A connection that sends a keepalive and is then closed by its client. -/
theorem keepsIdentity_keepalive : ∃ comm,
    (system.restrict Fresh).Reachable comm ∧ comm.KeepsIdentity ∧
      comm.processed = [{ receivedOn := 0, against := 0 }] ∧
      comm.disconnected = [{ issuedFor := 0, torn := 0, released := true }] := by
  let later : List Event := [.readCompleted 0 (.finished keepalive), .popPacket,
    .onRecvPacket 0 Server.singleAccount 0, .runPosted 0, .readFailed 0, .runPosted 1]
  have fresh : start.Fresh (.accept 0) := fun recycled => absurd recycled (by decide)
  have accepted : (system.restrict Fresh).Reachable (start.accept 0) :=
    .step (.initial rfl) (⟨fresh, rfl⟩ : (system.restrict Fresh).step start (.accept 0) _)
  have takes : ∀ event ∈ later, ∀ state next, state.advance event = some next →
      (system.restrict Fresh).step state event next := by
    intro event mem state next moves
    simp only [later, List.mem_cons, List.not_mem_nil, or_false] at mem
    rcases mem with rfl | rfl | rfl | rfl | rfl | rfl <;> exact ⟨trivial, moves⟩
  have ends : ((start.accept 0).play later).map (fun comm =>
      (comm.processed, comm.disconnected)) =
        some ([{ receivedOn := 0, against := 0 }],
          [{ issuedFor := 0, torn := 0, released := true }]) := by
    decide +kernel
  rcases Option.map_eq_some_iff.mp ends with ⟨comm, plays, records⟩
  have reached := reachable_play accepted takes plays
  exact ⟨comm, reached, keepsIdentity reached, Prod.mk.inj records⟩

/-- The first of ten connections sends a packet and is waiting for the next when the sweep finds
all ten idle. The next connection gets its session; then the old read fails and the old packet is
handled. -/
def lateCompletion : List Event :=
  List.replicate 10 (.accept 0) ++
    [.readCompleted 0 (.finished keepalive), .runPosted 0, .checkClients 200] ++
    (List.replicate 10 [.checkIdle, .disconnectIdle]).flatten ++
    [.accept 200, .readFailed 9, .runPosted 0, .popPacket,
      .onRecvPacket 0 Server.singleAccount 200]

/-- The packet is handled for the eleventh connection, and the read error tears that one down. -/
theorem identity_lost : ∃ comm, system.Reachable comm ∧ start.play lateCompletion = some comm ∧
    { receivedOn := 0, against := 10 } ∈ comm.processed ∧
    { issuedFor := 0, torn := 10, released := true } ∈ comm.disconnected ∧
    ¬ comm.KeepsIdentity := by
  have ends : (start.play lateCompletion).map (fun comm =>
      (comm.processed, comm.disconnected.getLast?)) =
        some ([{ receivedOn := 0, against := 10 }],
          some { issuedFor := 0, torn := 10, released := true }) := by
    decide +kernel
  rcases Option.map_eq_some_iff.mp ends with ⟨comm, plays, records⟩
  rcases Prod.mk.inj records with ⟨processed_eq, last_eq⟩
  have processed : { receivedOn := 0, against := 10 } ∈ comm.processed := by
    simp only [processed_eq]
    exact List.mem_singleton_self _
  refine ⟨comm, reachable_play (.initial rfl) (fun _ _ _ _ moves => moves) plays, plays,
    processed, List.mem_of_getLast? last_eq, ?_⟩
  intro keeps
  exact absurd (keeps.processed _ processed) (by decide)

end TCPComm

end PoETask.AuthServer
