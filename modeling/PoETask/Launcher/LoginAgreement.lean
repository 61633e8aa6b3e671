import PoETask.AuthServer.Consistency
import PoETask.Launcher.Client

/-!
# Login agreement

A login request lists the accounts in use, the server answers with one verdict for
each of them in the same order, and the launcher walks its table against the answer.
Nothing in the answer names an account, so the two sides agree only if they consume
the answer at the same pace.

`AccountTable.decision` is what the server decides for an entry of the table: an
entry whose name comes up again later is a duplicate, every other one is checked.
The server's verdicts are these decisions in table order, and reading them back
records each decision in its own entry.
-/

namespace PoETask.Launcher

open PoETask.Library PoETask.Wire PoETask.AuthServer

section ServerSide

/-- The verdicts on the accounts of a request; they do not depend on the server's state. -/
def requestVerdicts (environment : Environment) (strDeviceNum : CText) :
    List (CText × CText) → List Verdict
  | [] => []
  | (strId, strPwd) :: later =>
      (if strId ∈ later.map Prod.fst then
        .refused .duplicate LoginResult.duplicate_ne_success
      else
        checkLoginVerdict environment strId strPwd strDeviceNum) ::
      requestVerdicts environment strDeviceNum later

variable (server : Server) (environment : Environment) (session : SessionPtr)

theorem writepacketlist_modify (change : Session → Session)
    (keeps : ∀ object, (change object).writepacketlist = object.writepacketlist)
    (other : SessionPtr) :
    ((server.modify session change).sessions other).writepacketlist =
      (server.sessions other).writepacketlist := by
  by_cases same : other = session
  · subst same
    simp [Server.modify, keeps]
  · simp [Server.modify, same]

theorem writepacketlist_checkAnotherLogin (nId : AccountId) :
    ((server.checkAnotherLogin nId session).sessions session).writepacketlist =
      (server.sessions session).writepacketlist := by
  simp only [Server.checkAnotherLogin]
  split
  · rfl
  · rename_i other _
    split
    · rfl
    · rename_i different
      simp [Server.evict, Server.remove, Server.sendPacket, Server.modify, different]

theorem checkLogin_spec (strId strPwd strDeviceNum : CText) :
    (server.checkLogin environment session strId strPwd strDeviceNum).1 =
        checkLoginVerdict environment strId strPwd strDeviceNum ∧
      ((server.checkLogin environment session strId strPwd strDeviceNum).2.sessions
        session).writepacketlist = (server.sessions session).writepacketlist := by
  simp only [Server.checkLogin]
  split
  · rename_i verdict
    exact ⟨verdict.symm, rfl⟩
  · rename_i verdict
    exact ⟨verdict.symm, writepacketlist_checkAnotherLogin _ _ _⟩

theorem writepacketlist_enter (verdict : Verdict) :
    ((server.enter session verdict).sessions session).writepacketlist =
      (server.sessions session).writepacketlist := by
  cases verdict with
  | refused nRet refusal => rfl
  | granted nID strExpiredTime strToken =>
      exact writepacketlist_modify server session (fun object => { object with ids := object.ids ++ [nID] })
        (fun _ => rfl) session

/-- The login loop produces the verdicts and sends nothing to the session itself. -/
theorem loginAccounts_spec (accounts : List (CText × CText)) (strDeviceNum : CText) :
    (server.loginAccounts environment session strDeviceNum accounts).1 =
        requestVerdicts environment strDeviceNum accounts ∧
      ((server.loginAccounts environment session strDeviceNum accounts).2.sessions
        session).writepacketlist = (server.sessions session).writepacketlist := by
  induction accounts generalizing server with
  | nil => exact ⟨rfl, rfl⟩
  | cons account later ih =>
      rcases account with ⟨strId, strPwd⟩
      simp only [Server.loginAccounts, requestVerdicts]
      by_cases repeated : strId ∈ later.map Prod.fst
      · simp only [if_pos repeated]
        rcases ih server with ⟨verdicts, quiet⟩
        exact ⟨congrArg _ verdicts, quiet⟩
      · simp only [if_neg repeated]
        rcases checkLogin_spec server environment session strId strPwd strDeviceNum with
          ⟨verdict, checkQuiet⟩
        simp only [verdict]
        rcases ih ((server.checkLogin environment session strId strPwd strDeviceNum).2.enter
          session (checkLoginVerdict environment strId strPwd strDeviceNum)) with
          ⟨verdicts, quiet⟩
        refine ⟨congrArg _ verdicts, ?_⟩
        simp only [quiet, writepacketlist_enter, checkQuiet]

theorem handleLogin_answers {packet : Buffer} {accounts : List (CText × CText)}
    {strDeviceNum : CText} (request : Server.readRequest packet = some (accounts, strDeviceNum)) :
    ((server.handleLogin environment session packet).sessions session).writepacketlist =
      (server.sessions session).writepacketlist ++
        [Server.loginAck (requestVerdicts environment strDeviceNum accounts)] := by
  rcases loginAccounts_spec server environment session accounts strDeviceNum with
    ⟨verdicts, quiet⟩
  simp only [Server.handleLogin, request, verdicts]
  simp [Server.sendPacket, Server.modify, quiet]

end ServerSide

namespace AccountTable

theorem used_sorted (table : AccountTable) : table.used.Pairwise (· < ·) :=
  List.pairwise_lt_range.filter _

def decision (table : AccountTable) (environment : Environment) (i : ℕ) : Verdict :=
  if ∃ j ∈ table.used, i < j ∧ (table.appSetting j).szAutoId = (table.appSetting i).szAutoId then
    .refused .duplicate LoginResult.duplicate_ne_success
  else
    checkLoginVerdict environment (table.appSetting i).szAutoId.val
      (table.appSetting i).szAutoPw.val table.szDeviceKey.val

theorem requestVerdicts_eq (table : AccountTable) (environment : Environment) :
    requestVerdicts environment table.szDeviceKey.val (table.used.map table.credentials) =
      table.used.map (table.decision environment) := by
  have along : ∀ done todo : List ℕ, table.used = done ++ todo →
      requestVerdicts environment table.szDeviceKey.val (todo.map table.credentials) =
        todo.map (table.decision environment) := by
    intro done todo
    induction todo generalizing done with
    | nil => intro _; rfl
    | cons i later ih =>
        intro used_eq
        have sorted := table.used_sorted
        simp only [used_eq, List.pairwise_append] at sorted
        have repeats : (table.credentials i).1 ∈ (later.map table.credentials).map Prod.fst ↔
            ∃ j ∈ table.used, i < j ∧
              (table.appSetting j).szAutoId = (table.appSetting i).szAutoId := by
          simp only [List.map_map, List.mem_map]
          constructor
          · rintro ⟨j, j_later, same⟩
            refine ⟨j, ?_, ?_, Subtype.ext same⟩
            · simp only [used_eq]
              exact List.mem_append_right _ (List.mem_cons_of_mem _ j_later)
            · exact (List.pairwise_cons.mp sorted.2.1).1 j j_later
          · rintro ⟨j, j_used, i_lt_j, same⟩
            refine ⟨j, ?_, congrArg Subtype.val same⟩
            simp only [used_eq, List.mem_append, List.mem_cons] at j_used
            rcases j_used with j_done | rfl | j_later
            · exact absurd (sorted.2.2 j j_done i List.mem_cons_self) (Nat.lt_asymm i_lt_j)
            · exact absurd i_lt_j (lt_irrefl _)
            · exact j_later
        have rest := ih (done ++ [i]) (by rw [used_eq, List.append_assoc]; rfl)
        have head : (if (table.credentials i).1 ∈ (later.map table.credentials).map Prod.fst then
              Verdict.refused .duplicate LoginResult.duplicate_ne_success
            else
              checkLoginVerdict environment (table.credentials i).1 (table.credentials i).2
                table.szDeviceKey.val) = table.decision environment i := by
          simp only [repeats]
          rfl
        exact congrArg₂ List.cons head rest
  exact along [] table.used rfl

end AccountTable

structure Recorded (verdict : Verdict) (before after : AuthInfo) : Prop where
  result : after.dwLoginResult = UInt32.ofNat verdict.nRet.code
  granted : ∀ nID strExpiredTime strToken, verdict = .granted nID strExpiredTime strToken →
    after.dwID = nID ∧ after.szExpiredTime.val = strExpiredTime ∧ after.szToken.val = strToken
  refused : verdict.nRet ≠ .success →
    after = { before with dwLoginResult := UInt32.ofNat verdict.nRet.code }

/-- The strings of a verdict fit the launcher's arrays. -/
def Fits : Verdict → Prop
  | .refused _ _ => True
  | .granted _ strExpiredTime strToken =>
      strExpiredTime.val.length ≤ 99 ∧ strToken.val.length ≤ 99

namespace Client

/-- The code and the account id in front of the strings of a granted verdict. -/
theorem read_granted {nID : AccountId} {strExpiredTime strToken : CText} {packet : Buffer}
    {tail : List UInt8}
    (unread : packet.Unread
      ((Verdict.granted nID strExpiredTime strToken).fields.flatMap Field.bytes ++ tail)) :
    (packet.read 4).1 = LoginResult.success.code
    ∧ ((packet.read 4).2.read 4).1 = nID.toNat
    ∧ ((packet.read 4).2.read 4).2.Unread ((Field.wide strExpiredTime.val 0).bytes
      ++ ((Field.wide strToken.val 0).bytes ++ tail)) := by
  simp only [Verdict.fields, uintField, textField, List.flatMap_cons, List.flatMap_nil,
    List.append_nil, List.append_assoc] at unread
  rcases unread.read with ⟨code_read, behindCode⟩
  rcases behindCode.read with ⟨id_read, behindId⟩
  rw [Nat.mod_eq_of_lt (show nID.toNat < 256 ^ 4 from nID.toNat_lt)] at id_read
  exact ⟨code_read, id_read, behindId⟩

theorem readAuth_of_unread {verdict : Verdict} (fits : Fits verdict) {packet : Buffer}
    {tail : List UInt8} (info : AuthInfo)
    (unread : packet.Unread (verdict.fields.flatMap Field.bytes ++ tail)) :
    ∃ after rest, readAuth packet info = some (after, rest) ∧ Recorded verdict info after ∧
      rest.Unread tail := by
  cases verdict with
  | refused nRet refusal =>
      simp only [Verdict.fields, uintField, List.flatMap_cons, List.flatMap_nil,
        List.append_nil] at unread
      rcases unread.read with ⟨code_read, behindCode⟩
      have code_lt := nRet.code_lt
      rw [Nat.mod_eq_of_lt (by omega)] at code_read
      have notSuccess : UInt32.ofNat nRet.code ≠ UInt32.ofNat LoginResult.success.code := by
        cases nRet with
        | success => exact absurd rfl refusal
        | _ => decide
      refine ⟨{ info with dwLoginResult := UInt32.ofNat nRet.code }, (packet.read 4).2, ?_, ?_,
        behindCode⟩
      · simp only [readAuth, code_read]
        simp only [if_neg notSuccess]
      · exact ⟨rfl, fun _ _ _ impossible => Verdict.noConfusion impossible, fun _ => rfl⟩
  | granted nID strExpiredTime strToken =>
      rcases fits with ⟨shortExpired, shortToken⟩
      rcases read_granted unread with ⟨code_read, id_read, behindId⟩
      rcases behindId.readText (by omega) with ⟨expired_read, behindExpired⟩
      rcases behindExpired.readText (by omega) with ⟨token_read, behindToken⟩
      have expired_fits : strExpiredTime.val.length < maxName := by
        simp only [maxName]
        omega
      have token_fits : strToken.val.length < maxName := by
        simp only [maxName]
        omega
      refine ⟨{ info with
        dwLoginResult := UInt32.ofNat LoginResult.success.code
        dwID := nID
        szExpiredTime := ⟨strExpiredTime, expired_fits⟩
        szToken := ⟨strToken, token_fits⟩ }, _, ?_, ?_, behindToken⟩
      · simp only [readAuth, code_read, if_true, id_read, expired_read, token_read,
          wcscpy_eq_some expired_fits, wcscpy_eq_some token_fits, UInt32.ofNat_toNat]
        rfl
      · refine ⟨rfl, ?_, fun notGranted => absurd rfl notGranted⟩
        intro _ _ _ same
        cases same
        exact ⟨rfl, rfl, rfl⟩

/-- The answer loop records each verdict in its own entry and leaves the others alone. -/
theorem readLoginAck_of_unread {decision : ℕ → Verdict} (indices : List ℕ)
    (nodup : indices.Nodup) (fits : ∀ i ∈ indices, Fits (decision i)) {packet : Buffer}
    (auth : ℕ → AuthInfo)
    (unread : packet.Unread
      (((indices.map decision).flatMap Verdict.fields).flatMap Field.bytes)) :
    ∃ after, readLoginAck indices packet auth = some after ∧
      (∀ i ∈ indices, Recorded (decision i) (auth i) (after i)) ∧
      ∀ i, i ∉ indices → after i = auth i := by
  induction indices generalizing packet auth with
  | nil => exact ⟨auth, rfl, fun i mem => absurd mem List.not_mem_nil, fun _ _ => rfl⟩
  | cons i rest ih =>
      simp only [List.nodup_cons] at nodup
      simp only [List.map_cons, List.flatMap_cons, List.flatMap_append] at unread
      rcases readAuth_of_unread (fits i List.mem_cons_self) (auth i) unread with
        ⟨info, behind, info_read, recorded, restUnread⟩
      rcases ih nodup.2 (fun j j_mem => fits j (List.mem_cons_of_mem _ j_mem))
        (Function.update auth i info) restUnread with ⟨after, rest_read, restRecorded, others⟩
      refine ⟨after, ?_, ?_, ?_⟩
      · simp only [readLoginAck, info_read, Option.bind_eq_bind, Option.bind_some, rest_read]
      · intro j j_mem
        simp only [List.mem_cons] at j_mem
        rcases j_mem with rfl | j_mem
        · have kept := others j nodup.1
          simp only [Function.update_self] at kept
          simp only [kept]
          exact recorded
        · have different : j ≠ i := fun same => nodup.1 (same ▸ j_mem)
          have stepped := restRecorded j j_mem
          rwa [Function.update_of_ne different] at stepped
      · intro j notMem
        simp only [List.mem_cons, not_or] at notMem
        simp only [others j notMem.2, Function.update_of_ne notMem.1]

/-- The request of a launcher with fewer than thirty accounts in use is read as it was sent. -/
theorem readRequest_of_loginRequest {client : Client} {packet : Buffer} {key : UInt8}
    (few : client.table.used.length < 30)
    (framed : packet.Framed opLoginReq key client.loginRequest.body) :
    Server.readRequest packet.readStart =
      some (client.table.used.map client.table.credentials, client.table.szDeviceKey.val) := by
  have unread := framed.unread
  apply Server.readRequest_of_unread
  · rwa [List.length_map]
  · intro account account_mem
    rcases List.mem_map.mp account_mem with ⟨i, -, rfl⟩
    have idLength := (client.table.appSetting i).szAutoId.property
    have pwLength := (client.table.appSetting i).szAutoPw.property
    simp only [maxName] at idLength pwLength
    simp only [AccountTable.credentials]
    omega
  · have deviceLength := client.table.szDeviceKey.property
    simp only [maxPath] at deviceLength
    omega
  · simp only [List.length_map, List.flatMap_map]
    exact unread

/-- Client and server agree on a login. The launcher sends its request; the server handles it and
queues one answer to that session; when a launcher with the same table handles the answer, every
account in use holds the server's decision for that account and no other entry changes. -/
theorem login_agreement {client answered : Client} (server : Server) (environment : Environment)
    (session : SessionPtr) {pool serverPool request : Buffer} {rand : UInt8}
    (few : client.table.used.length < 30)
    (fits : ∀ i ∈ client.table.used, Fits (client.table.decision environment i))
    (requested : client.loginRequest.transfer pool rand serverPool = some request)
    (sameTable : answered.table = client.table) :
    ∃ answer, ((server.handleLogin environment session request.readStart).sessions
        session).writepacketlist = (server.sessions session).writepacketlist ++ [answer] ∧
      ∀ answerPool clientPool received answerRand now,
        answer.transfer answerPool answerRand clientPool = some received →
        ∃ after, answered.onRecvPacket now received = some after ∧ after.table = client.table ∧
          (∀ i ∈ client.table.used,
            Recorded (client.table.decision environment i) (answered.auth i) (after.auth i)) ∧
          ∀ i, i ∉ client.table.used → after.auth i = answered.auth i := by
  have requestFramed := Message.framed_of_transfer requested
  have request_read := readRequest_of_loginRequest few requestFramed
  refine ⟨_, handleLogin_answers server environment session request_read, ?_⟩
  intro answerPool clientPool received answerRand now transferred
  have framed := Message.framed_of_transfer transferred
  simp only [client.table.requestVerdicts_eq environment] at framed
  have unread := framed.unread
  have nodup : client.table.used.Nodup := client.table.used_sorted.imp Nat.ne_of_lt
  rcases readLoginAck_of_unread client.table.used nodup fits answered.auth unread with
    ⟨auth, read_eq, recorded, others⟩
  have opcode_eq : received.readStart.opcode = opLoginAck := framed.opcode_eq
  refine ⟨({ answered with auth, login := true, lastConnTime := now } : Client).windowProc
    .msgLoginAck, ?_, sameTable, recorded, others⟩
  simp only [onRecvPacket, opcode_eq, sameTable, read_eq]
  rw [if_neg (by decide), if_pos trivial]
  rfl

/-- A launcher that lists account `a` twice, with an unused entry in between. -/
def twiceListed : Client where
  table := .sample 3 fun i => if i = 1 then 0 else 1
  auth _ := .bare 0 0
  runInfo _ := { isRunGame := false, hProcess := none }
  login := false
  lastConnTime := 0
  logUI := []
  terminated := []
  running := true

/-- The later entry of the account listed twice is logged in, the earlier one is a duplicate. -/
theorem login_agreement_twiceListed : ∃ after : Client,
    (after.auth 0).dwLoginResult = 6 ∧ (after.auth 2).dwLoginResult = 1 ∧
      (after.auth 2).dwID = 7 ∧ after.auth 1 = twiceListed.auth 1 := by
  have used_eq : twiceListed.table.used = [0, 2] := by decide
  have earlier : twiceListed.table.decision Server.singleAccount 0 =
      .refused .duplicate LoginResult.duplicate_ne_success := rfl
  have last : twiceListed.table.decision Server.singleAccount 2 =
      .granted 7 ⟨[50], by decide⟩ CText.empty := rfl
  have fits : ∀ i ∈ twiceListed.table.used,
      Fits (twiceListed.table.decision Server.singleAccount i) := by
    simp only [used_eq]
    intro i i_mem
    rw [List.mem_cons, List.mem_singleton] at i_mem
    rcases i_mem with rfl | rfl
    · simp only [earlier]
      trivial
    · simp only [last]
      exact ⟨by decide, by decide⟩
  rcases Option.isSome_iff_exists.mp
    ((twiceListed.loginRequest.transfer_isSome_iff Buffer.blank Buffer.blank 5).mpr (by decide))
    with ⟨request, requested⟩
  rcases login_agreement Server.start Server.singleAccount 0 (by decide) fits requested
    (rfl : twiceListed.table = twiceListed.table) with ⟨answer, queued, agreement⟩
  have answer_eq : answer = Server.loginAck (requestVerdicts Server.singleAccount
      twiceListed.table.szDeviceKey.val (twiceListed.table.used.map twiceListed.table.credentials)) := by
    have request_read := readRequest_of_loginRequest (by decide)
      (Message.framed_of_transfer requested)
    simp only [handleLogin_answers Server.start Server.singleAccount 0 request_read] at queued
    exact (List.singleton_inj.mp (List.append_cancel_left queued)).symm
  rcases Option.isSome_iff_exists.mp
    ((answer.transfer_isSome_iff Buffer.blank Buffer.blank 5).mpr (by rw [answer_eq]; decide))
    with ⟨received, transferred⟩
  rcases agreement Buffer.blank Buffer.blank received 5 0 transferred with
    ⟨after, -, -, recorded, others⟩
  have recordedEarlier := recorded 0 (by decide)
  have recordedLast := recorded 2 (by decide)
  simp only [earlier] at recordedEarlier
  simp only [last] at recordedLast
  exact ⟨after, recordedEarlier.result, recordedLast.result,
    (recordedLast.granted _ _ _ rfl).1, others 1 (by decide)⟩

end Client

end PoETask.Launcher
