import PoETask.AuthServer.LoginLog
import PoETask.Launcher.LoginAgreement

/-!
# Which login requests are delivered

The account page admits thirty accounts with names and passwords of 99 characters.
`Login` puts all of them into one packet without asking for the size, and the server
leaves a request for thirty accounts without an answer. `requestSize` is the size of the
packet. On the way to its answer the server takes device key, names and passwords for
formats, logs what the database says about them and fills the token buffer; `Answers`
says when it survives this.
-/

namespace PoETask.Launcher

open PoETask.Library PoETask.Wire PoETask.AuthServer

namespace AccountTable

/-- The bytes an account takes in a request: two length prefixes and two wide strings. -/
def accountSize (table : AccountTable) (i : ℕ) : ℕ :=
  8 + 2 * ((table.appSetting i).szAutoId.val.val.length +
    (table.appSetting i).szAutoPw.val.val.length)

/-- The bytes of a request: header, count, accounts and device key. -/
def requestSize (table : AccountTable) : ℕ :=
  realBufferOffset + 4 + (table.used.map table.accountSize).sum +
    (4 + 2 * table.szDeviceKey.val.val.length)

end AccountTable

theorem length_accountFields (accounts : List (CText × CText)) :
    ((accounts.flatMap accountFields).flatMap Field.bytes).length =
      (accounts.map fun account =>
        8 + 2 * (account.1.val.length + account.2.val.length)).sum := by
  induction accounts with
  | nil => rfl
  | cons account rest ih =>
      simp only [List.flatMap_cons, List.flatMap_append, List.length_append, ih, accountFields,
        List.flatMap_nil, List.map_cons, List.sum_cons, length_textField, List.length_nil]
      omega

theorem Client.length_loginRequest (client : Client) :
    6 + client.loginRequest.body.length = client.table.requestSize := by
  have accounts := length_accountFields (client.table.used.map client.table.credentials)
  simp only [List.flatMap_map, List.map_map] at accounts
  have sizes : (client.table.used.map client.table.accountSize).sum =
      ((client.table.used.flatMap fun i => accountFields (client.table.credentials i)).flatMap
        Field.bytes).length := accounts.symm
  have count : (uintField client.table.used.length).bytes.length = 4 := length_leBytes 4 _
  simp only [AccountTable.requestSize, sizes, Message.body, Client.loginRequest, List.cons_append,
    List.flatMap_cons, List.flatMap_append, List.flatMap_nil, List.length_append, List.length_nil,
    length_textField, count, realBufferOffset]
  omega

section Answers

/-- A request that announces thirty accounts or more is left alone. -/
theorem readRequest_eq_none {packet : Buffer} {count : ℕ} {tail : List UInt8}
    (many : maxAccountNum ≤ count) (representable : count < 2 ^ 32)
    (unread : packet.Unread (leBytes 4 count ++ tail)) : Server.readRequest packet = none := by
  rcases unread.read with ⟨count_read, -⟩
  rw [Nat.mod_eq_of_lt (by norm_num; omega)] at count_read
  simp only [Server.readRequest, count_read, ge_iff_le, if_pos many]

end Answers

namespace Client

/-- What `HandleLogin` reads from the request of a client. -/
def requestAccounts (client : Client) : List (CText × CText) :=
  client.table.used.map client.table.credentials

theorem requestAccounts_short (client : Client) :
    ∀ account ∈ client.requestAccounts,
      account.1.val.length ≤ 99 ∧ account.2.val.length ≤ 99 := by
  intro account isAccount
  rcases List.mem_map.mp isAccount with ⟨i, -, rfl⟩
  have idLength := (client.table.appSetting i).szAutoId.property
  have pwdLength := (client.table.appSetting i).szAutoPw.property
  simp only [maxName] at idLength pwdLength
  exact ⟨Nat.le_of_lt_succ idLength, Nat.le_of_lt_succ pwdLength⟩

/-- The request is built inside its buffer and arrives, and in whatever state the server is, it
queues one answer with one result for each of the accounts. -/
def Deliverable (client : Client) (host : Host) : Prop :=
  ∀ pool rand serverPool, ∃ request,
    client.loginRequest.transfer pool rand serverPool = some request ∧
      ∀ (server : Server) (session : SessionPtr), ∃ answered : Server, ∃ verdicts : List Verdict,
        server.runHandleLogin host session request.readStart = some answered ∧
          verdicts.length = client.table.used.length ∧
          (answered.sessions session).writepacketlist =
            (server.sessions session).writepacketlist ++ [Server.loginAck verdicts]

variable {client : Client} {host : Host}

theorem Deliverable.fits (deliverable : client.Deliverable host) :
    client.table.requestSize ≤ maxBufferSize := by
  rcases deliverable Buffer.blank 0 Buffer.blank with ⟨request, requested, -⟩
  have built := (client.loginRequest.transfer_isSome_iff Buffer.blank Buffer.blank 0).mp
    (by simp [requested])
  rwa [client.length_loginRequest] at built

theorem Deliverable.few (deliverable : client.Deliverable host)
    (representable : client.table.used.length < 2 ^ 32) :
    client.table.used.length < maxAccountNum := by
  rcases deliverable Buffer.blank 0 Buffer.blank with ⟨request, requested, answers⟩
  by_contra many
  have unread := (Message.framed_of_transfer requested).unread
  simp only [Message.body, loginRequest, uintField, List.cons_append, List.flatMap_cons,
    Field.bytes] at unread
  have unanswered := readRequest_eq_none (not_lt.mp many) representable unread
  rcases answers Server.start 0 with ⟨answered, verdicts, run_eq, -, queued⟩
  simp only [Server.runHandleLogin, unanswered, Option.some.injEq] at run_eq
  simp [← run_eq] at queued

theorem Deliverable.answers (deliverable : client.Deliverable host) (ordinary : host.Ordinary)
    (few : client.table.used.length < maxAccountNum) :
    host.log.Prints client.table.szDeviceKey.val.val ∧
      host.Answers client.table.szDeviceKey.val client.requestAccounts := by
  rcases deliverable Buffer.blank 0 Buffer.blank with ⟨request, requested, answers⟩
  have read := readRequest_of_loginRequest few (Message.framed_of_transfer requested)
  rcases answers Server.start 0 with ⟨answered, verdicts, run_eq, -⟩
  apply (runHandleLogin_iff Server.start 0 ordinary read client.requestAccounts_short).2
  rw [run_eq, Option.isSome_some]

end Client

end PoETask.Launcher
