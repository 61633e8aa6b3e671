import PoETask.AuthServer.Consistency
import PoETask.Launcher.Client

/-!
# Revocation

The server takes an account away when it is logged in elsewhere or has expired, and
tells the launcher so. For this to have an effect the launcher would have to record
the reason, stop the game and keep the launch loop from starting it again; `Revoked`
says all of this.

The handlers leave the login result alone. The packet handler reads the id and not
the reason behind it, the window procedure stops the game only if the result is
already another one, and the launch loop looks at nothing but the result.
-/

namespace PoETask.Launcher

open PoETask.Library PoETask.Wire PoETask.AuthServer

section Emission

/-- The messages with which the server takes an account from the session that holds it. -/
def EmittedFor (nId : AccountId) (message : Message) : Prop :=
  ∃ (server next : Server) (holder : SessionPtr), server.sessionmap nId = some holder ∧
    (next = server.expire nId ∨ ∃ session, next = server.checkAnotherLogin nId session) ∧
    (next.sessions holder).writepacketlist =
      (server.sessions holder).writepacketlist ++ [message]

theorem writepacketlist_evict (server : Server) (nId : AccountId) (holder : SessionPtr)
    (reason : LoginResult) :
    ((server.evict nId holder reason).sessions holder).writepacketlist =
      (server.sessions holder).writepacketlist ++ [Server.disconnectAccount nId reason] := by
  simp [Server.evict, Server.remove, Server.sendPacket, Server.modify]

/-- An emitted message carries the id and one of the two reasons. -/
theorem EmittedFor.eq_disconnectAccount {nId : AccountId} {message : Message}
    (emitted : EmittedFor nId message) :
    message = Server.disconnectAccount nId .duplicate ∨
      message = Server.disconnectAccount nId .expired := by
  rcases emitted with ⟨server, next, holder, found, rfl | ⟨session, rfl⟩, queued⟩
  · simp only [Server.expire, found, writepacketlist_evict] at queued
    exact Or.inr (List.singleton_inj.mp (List.append_cancel_left queued)).symm
  · simp only [Server.checkAnotherLogin, found] at queued
    split at queued
    · simp at queued
    · simp only [writepacketlist_evict] at queued
      exact Or.inl (List.singleton_inj.mp (List.append_cancel_left queued)).symm

end Emission

namespace Client

def runThread (client : Client) (dwNo process : ℕ) : Client :=
  { client with
    runInfo := Function.update client.runInfo dwNo
      { isRunGame := true, hProcess := some process } }

def gameEnded (client : Client) (dwNo : ℕ) : Client :=
  { client with
    runInfo := Function.update client.runInfo dwNo { isRunGame := false, hProcess := none } }

def loggedIn (client : Client) (i : ℕ) : Prop :=
  (client.auth i).dwLoginResult = UInt32.ofNat LoginResult.success.code

instance (client : Client) (i : ℕ) : Decidable (client.loggedIn i) :=
  inferInstanceAs (Decidable (_ = _))

end Client

/-- `RunMainThread` with its local variable; `started` lists the games it has started. -/
structure LaunchLoop where
  client : Client
  dwCount : ℕ
  i : ℕ
  started : List ℕ

namespace LaunchLoop

def iterate (loop : LaunchLoop) (process : ℕ) : LaunchLoop :=
  let i := if loop.i ≥ loop.dwCount then 0 else loop.i
  if (loop.client.table.appSetting i).dwUse ≠ 0 ∧ loop.client.loggedIn i then
    if (loop.client.runInfo i).isRunGame then
      { loop with i := i + 1 }
    else
      { loop with client := loop.client.runThread i process, i := i + 1
                  started := loop.started ++ [i] }
  else
    { loop with i := i + 1 }

inductive Event where
  | iterate (process : ℕ)
  | gameEnded (dwNo : ℕ)
  | onRecvPacket (now : ℕ) (packet : Buffer)

/-- The loop from a given state of the launcher on, as long as no new login is acknowledged. -/
def system (client : Client) : StepSystem LaunchLoop Event where
  initial loop := loop.client = client ∧ loop.started = []
  step loop event next :=
    match event with
    | .iterate process => next = loop.iterate process
    | .gameEnded dwNo => next = { loop with client := loop.client.gameEnded dwNo }
    | .onRecvPacket now packet => packet.readStart.opcode ≠ opLoginAck ∧
        ∃ client, loop.client.onRecvPacket now packet = some client ∧ next = { loop with client }

end LaunchLoop

/-- Account `k` has lost its login: the result says so, its game is stopped and not started
again, and the other accounts are as before. -/
structure Revoked (before after : Client) (k : ℕ) : Prop where
  unmarked : ¬ after.loggedIn k
  stopped : (after.runInfo k).isRunGame = false ∧ ((before.runInfo k).isRunGame →
    ∀ process ∈ (before.runInfo k).hProcess, process ∈ after.terminated)
  notRestarted : ∀ loop, (LaunchLoop.system after).Reachable loop → k ∉ loop.started
  others : ∀ i, i ≠ k → after.auth i = before.auth i ∧ after.runInfo i = before.runInfo i

/-- The launcher has exactly one account in use that is logged in with this id. -/
structure SoleHolder (client : Client) (k : ℕ) (nId : AccountId) : Prop where
  used : k ∈ client.table.used
  id_eq : (client.auth k).dwID = nId
  loggedIn : client.loggedIn k
  sole : ∀ i ∈ client.table.used, (client.auth i).dwID = nId → client.loggedIn i → i = k

/-- The message revokes the account, however it is transferred and whenever it is handled. -/
def TakesEffect (client : Client) (k : ℕ) (message : Message) : Prop :=
  ∀ pool rand clientPool received now, message.transfer pool rand clientPool = some received →
    ∃ after, client.onRecvPacket now received = some after ∧ Revoked client after k

namespace Client

theorem auth_exitApp (client : Client) (dwIndex : ℕ) :
    (client.exitApp dwIndex).auth = client.auth := by
  simp only [exitApp]
  split <;> rfl

theorem auth_windowProc (client : Client) (message : WindowMessage) :
    (client.windowProc message).auth = client.auth := by
  cases message with
  | msgLoginAck => rfl
  | msgForceClose => rfl
  | msgDisconnect dwDisconnectedID =>
      simp only [windowProc]
      split
      · rfl
      · split
        · exact auth_exitApp _ _
        · rfl

/-- The handler of a revocation only posts a message to the window. -/
theorem onRecvPacket_disconnectAccount {client after : Client} {received : Buffer} {now : ℕ}
    (opcode_eq : received.readStart.opcode = opDisconnectAccount)
    (handled : client.onRecvPacket now received = some after) :
    after = client.windowProc (.msgDisconnect (UInt32.ofNat (received.readStart.read 4).1)) := by
  simp only [onRecvPacket] at handled
  simp only [opcode_eq] at handled
  rw [if_neg (by decide), if_neg (by decide), if_neg (by decide), if_pos trivial] at handled
  exact (Option.some_inj.mp handled).symm

/-- The handler of a revocation keeps every login result. -/
theorem auth_of_disconnectAccount {client after : Client} {received : Buffer} {now : ℕ}
    (opcode_eq : received.readStart.opcode = opDisconnectAccount)
    (handled : client.onRecvPacket now received = some after) : after.auth = client.auth := by
  rw [onRecvPacket_disconnectAccount opcode_eq handled]
  exact auth_windowProc _ _

end Client

theorem Client.runInfo_of_disconnectAccount {client after : Client} {k : ℕ} {nId : AccountId}
    {received : Buffer} {now : ℕ} (holder : SoleHolder client k nId)
    (opcode_eq : received.readStart.opcode = opDisconnectAccount)
    (handled : client.onRecvPacket now received = some after) :
    after.runInfo k = client.runInfo k := by
  rw [onRecvPacket_disconnectAccount opcode_eq handled]
  simp only [windowProc]
  split
  · rfl
  · rename_i i _
    split
    · rename_i notLoggedIn
      have different : k ≠ i := fun same => notLoggedIn (same ▸ holder.loggedIn)
      simp only [exitApp]
      split
      · simp [Function.update_of_ne different]
      · rfl
    · rfl

theorem EmittedFor.opcode_eq {nId : AccountId} {message : Message}
    (emitted : EmittedFor nId message) : message.bOpcode = opDisconnectAccount := by
  rcases emitted.eq_disconnectAccount with rfl | rfl <;> rfl

theorem EmittedFor.transfer_isSome {nId : AccountId} {message : Message}
    (emitted : EmittedFor nId message) (pool clientPool : Buffer) (rand : UInt8) :
    (message.transfer pool rand clientPool).isSome := by
  simp only [Message.transfer_isSome_iff]
  rcases emitted.eq_disconnectAccount with rfl | rfl <;>
    simp [Message.body, Server.disconnectAccount, uintField, Field.bytes]

/-- No message by which the server revokes an account takes effect in any launcher. -/
theorem not_takesEffect {client : Client} {k : ℕ} {nId : AccountId} {message : Message}
    (holder : SoleHolder client k nId) (emitted : EmittedFor nId message) :
    ¬ TakesEffect client k message := by
  intro takesEffect
  rcases Option.isSome_iff_exists.mp (emitted.transfer_isSome Buffer.blank Buffer.blank 0) with
    ⟨received, transferred⟩
  rcases takesEffect Buffer.blank 0 Buffer.blank received 0 transferred with
    ⟨after, handled, revoked⟩
  have opcode_eq : received.readStart.opcode = opDisconnectAccount :=
    (Message.framed_of_transfer transferred).opcode_eq.trans emitted.opcode_eq
  apply revoked.unmarked
  simp only [Client.loggedIn, Client.auth_of_disconnectAccount opcode_eq handled]
  exact holder.loggedIn

/-- A launcher with one account, logged in as id 7 with its game running. -/
def oneGame : Client where
  table := .sample 1 fun _ => 1
  auth _ := .bare 1 7
  runInfo _ := { isRunGame := true, hProcess := some 42 }
  login := true
  lastConnTime := 0
  logUI := []
  terminated := []
  running := true

theorem oneGame_soleHolder : SoleHolder oneGame 0 7 where
  used := by decide
  id_eq := rfl
  loggedIn := rfl
  sole i i_used _ _ := by
    rw [show oneGame.table.used = [0] from by decide] at i_used
    exact List.mem_singleton.mp i_used

theorem emittedFor_seven : EmittedFor 7 (Server.disconnectAccount 7 .duplicate) :=
  let server := Server.start.setAt 7 0
  ⟨server, server.checkAnotherLogin 7 1, 0, by decide, Or.inr ⟨1, rfl⟩, rfl⟩

theorem not_takesEffect_oneGame :
    ¬ TakesEffect oneGame 0 (Server.disconnectAccount 7 .duplicate) :=
  not_takesEffect oneGame_soleHolder emittedFor_seven

/-- Id 7 logs in elsewhere; the launcher handles the message and still counts the account as logged
in with its game running. -/
theorem revocation_ignored :
    ¬ ∀ (client : Client) (k : ℕ) (nId : AccountId) (message : Message),
      SoleHolder client k nId → EmittedFor nId message → TakesEffect client k message := by
  intro claimed
  have takesEffect := claimed oneGame 0 7 _ oneGame_soleHolder emittedFor_seven
  rcases Option.isSome_iff_exists.mp (emittedFor_seven.transfer_isSome Buffer.blank Buffer.blank 0)
    with ⟨received, transferred⟩
  rcases takesEffect Buffer.blank 0 Buffer.blank received 0 transferred with
    ⟨after, handled, revoked⟩
  have running : after.runInfo 0 = oneGame.runInfo 0 :=
    Client.runInfo_of_disconnectAccount oneGame_soleHolder
      (Message.framed_of_transfer transferred).opcode_eq handled
  have stopped := revoked.stopped.1
  simp only [running] at stopped
  exact absurd stopped (by decide)

end PoETask.Launcher
