import PoETask.Launcher.LoginAgreement
import PoETask.Library.StepSystem
import PoETask.Library.LocalLoops

/-!
# Editing the account table

The account page and the packet handler share two arrays: `g_pAppSetting` has the
accounts and `g_pAuth`, at the same indices, what the server said about them. Adding and
removing accounts moves only the first, and an answer is read against the accounts that
are in use when it arrives.

The state remembers for each account what the server last said about it, and for each
request under way which accounts it asks for. Accounts are the same when name and
password are. Where the two arrays are edited in step, every entry of `g_pAuth` below the
account count belongs to the account stored at its index.
-/

namespace PoETask.Launcher

open PoETask.Library PoETask.Wire PoETask.AuthServer

abbrev Account := CText × CText

namespace AccountTable

/-- `OnBnClickedButtonAccountAdd` with the contents of its edit fields. The loop compares the new
name with the entry behind the last account, once for every account. -/
def accountAdd (table : AccountTable) (strAutoId strAutoPw strGameId strGamePw : Name maxName) :
    AccountTable :=
  if maxAccountNum ≤ table.dwAppCount then
    table
  else if strAutoId.val.isEmpty || strAutoPw.val.isEmpty || strGameId.val.isEmpty ||
      strGamePw.val.isEmpty then
    table
  else if (List.range table.dwAppCount).any fun _ =>
      strAutoId = (table.appSetting table.dwAppCount).szAutoId then
    table
  else
    { table with
      appSetting := Function.update table.appSetting table.dwAppCount
        { dwUse := 1, szAutoId := strAutoId, szAutoPw := strAutoPw }
      dwAppCount := table.dwAppCount + 1 }

/-- `OnBnClickedButtonAccountRemove` with the selected position. -/
def accountRemove (table : AccountTable) (nPos : ℕ) : AccountTable :=
  { table with
    appSetting := (List.range' nPos (table.dwAppCount - 1 - nPos)).foldl
      (fun appSetting i => Function.update appSetting i (appSetting (i + 1))) table.appSetting
    dwAppCount := table.dwAppCount - 1 }

/-- `SaveSetting` takes over the check boxes of the list. -/
def saveSetting (table : AccountTable) (checks : ℕ → UInt32) : AccountTable :=
  { table with
    appSetting := fun i =>
      if i < table.dwAppCount then { table.appSetting i with dwUse := checks i }
      else table.appSetting i }

end AccountTable

/-- The launcher, the accounts of its unanswered requests, oldest first, and what the last answer
about an account said, once for each time the request listed it. -/
structure Editor where
  client : Client
  requests : List (List Account)
  last : Account → List Verdict

namespace Editor

inductive Event where
  | login
  | loginAck (verdicts : List Verdict) (pool clientPool : Buffer) (rand : UInt8) (now : ℕ)
  | reconnect
  | accountAdd (strAutoId strAutoPw strGameId strGamePw : Name maxName)
  | accountRemove (nPos : ℕ)
  | saveSetting (checks : ℕ → UInt32)

def setTable (editor : Editor) (table : AccountTable) : Editor :=
  { editor with client := { editor.client with table } }

/-- What an answer says about the accounts it was asked for. -/
def answer (editor : Editor) (request : List Account) (verdicts : List Verdict) :
    Account → List Verdict := fun account =>
  if account ∈ request then
    ((request.zip verdicts).filter (·.1 = account)).map Prod.snd
  else
    editor.last account

def advance (editor : Editor) : Event → Option Editor
  | .login =>
      let table := editor.client.table
      some { editor with requests := editor.requests ++ [table.used.map table.credentials] }
  | .loginAck verdicts pool clientPool rand now => do
      let request ← editor.requests.head?
      guard (verdicts.length = request.length)
      let received ← (Server.loginAck verdicts).transfer pool rand clientPool
      let client ← editor.client.onRecvPacket now received
      return { client, requests := editor.requests.tail, last := editor.answer request verdicts }
  | .reconnect => some { editor with client := editor.client.doDisconnect, requests := [] }
  | .accountAdd strAutoId strAutoPw strGameId strGamePw =>
      some (editor.setTable
        (editor.client.table.accountAdd strAutoId strAutoPw strGameId strGamePw))
  | .accountRemove nPos => do
      guard (nPos < editor.client.table.dwAppCount)
      return editor.setTable (editor.client.table.accountRemove nPos)
  | .saveSetting checks => some (editor.setTable (editor.client.table.saveSetting checks))

/-- The launcher has read its settings and nothing has been sent. -/
structure Start (editor : Editor) : Prop where
  count_le : editor.client.table.dwAppCount ≤ maxAccountNum
  unauthorised : ∀ i, (editor.client.auth i).dwLoginResult = 0
  requests : editor.requests = []
  last : ∀ account, editor.last account = []

def system : StepSystem Editor Event where
  initial := Start
  step editor event next := editor.advance event = some next

end Editor

/-- An entry of `g_pAuth` reports a verdict. -/
structure Shows (info : AuthInfo) (verdict : Verdict) : Prop where
  result : info.dwLoginResult = UInt32.ofNat verdict.nRet.code
  granted : ∀ nID strExpiredTime strToken, verdict = .granted nID strExpiredTime strToken →
    info.dwID = nID ∧ info.szExpiredTime.val = strExpiredTime ∧ info.szToken.val = strToken

/-- Two entries report the same result and, for a login, the same authorisation. -/
def SameAuthorisation (info other : AuthInfo) : Prop :=
  info.dwLoginResult = other.dwLoginResult ∧
    (info.dwLoginResult = UInt32.ofNat LoginResult.success.code →
      info.dwID = other.dwID ∧ info.szExpiredTime = other.szExpiredTime ∧
        info.szToken = other.szToken)

/-- The accounts in use are those of a request, and none of them is listed unused as well. -/
def AccountTable.Requests (table : AccountTable) (request : List Account) : Prop :=
  table.used.map table.credentials = request ∧
    ∀ i < table.dwAppCount, (table.appSetting i).dwUse = 0 → table.credentials i ∉ request

namespace Editor

/-- The entry of `g_pAuth` has no login result, or one that the last answer gave to the account. -/
def Belongs (editor : Editor) (info : AuthInfo) (account : Account) : Prop :=
  info.dwLoginResult = 0 ∨ ∃ verdict ∈ editor.last account, Shows info verdict

/-- The test that makes `RunMainThread` start a game for an entry. -/
def StartsGame (editor : Editor) (i : ℕ) : Prop :=
  (editor.client.table.appSetting i).dwUse ≠ 0 ∧
    (editor.client.auth i).dwLoginResult = UInt32.ofNat LoginResult.success.code

/-- Both arrays are about the same accounts, so a game is started only for an account that the
server let in. -/
structure Aligned (editor : Editor) : Prop where
  belongs : ∀ i < editor.client.table.dwAppCount,
    editor.Belongs (editor.client.auth i) (editor.client.table.credentials i)
  loggedIn : ∀ i < editor.client.table.dwAppCount, editor.StartsGame i →
    ∃ nID strExpiredTime strToken,
      .granted nID strExpiredTime strToken ∈ editor.last (editor.client.table.credentials i)

/-- The two arrays are edited in step. An answer arrives while the accounts are those it was
requested for; an account is added where `g_pAuth` has no login
result; and the entries that a removal leaves where they are have none either or agree with the
entry of the account that moves there. -/
def InStep (editor : Editor) : Event → Prop
  | .loginAck _ _ _ _ _ =>
      ∀ request ∈ editor.requests.head?, editor.client.table.Requests request
  | .accountAdd _ _ _ _ =>
      (editor.client.auth editor.client.table.dwAppCount).dwLoginResult = 0
  | .accountRemove nPos =>
      ∀ i, nPos ≤ i → i + 1 < editor.client.table.dwAppCount →
        (editor.client.auth i).dwLoginResult = 0 ∨
          SameAuthorisation (editor.client.auth i) (editor.client.auth (i + 1))
  | _ => True

end Editor

namespace AccountTable

variable (table : AccountTable)

/-- The loop moves every account behind the position up by one. -/
theorem appSetting_accountRemove (nPos i : ℕ) :
    (table.accountRemove nPos).appSetting i =
      if nPos ≤ i ∧ i + 1 < table.dwAppCount then table.appSetting (i + 1)
      else table.appSetting i := by
  simp only [accountRemove, LocalLoops.foldl_shift]
  have bounds : nPos ≤ i ∧ i < nPos + (table.dwAppCount - 1 - nPos) ↔
      nPos ≤ i ∧ i + 1 < table.dwAppCount := by omega
  simp only [bounds]

theorem credentials_accountRemove (nPos i : ℕ) :
    (table.accountRemove nPos).credentials i =
      if nPos ≤ i ∧ i + 1 < table.dwAppCount then table.credentials (i + 1)
      else table.credentials i := by
  simp only [credentials, appSetting_accountRemove]
  split <;> rfl

/-- Adding an account leaves the table alone or writes one entry behind the last one. -/
theorem accountAdd_cases (strAutoId strAutoPw strGameId strGamePw : Name maxName) :
    table.accountAdd strAutoId strAutoPw strGameId strGamePw = table ∨
      ((table.accountAdd strAutoId strAutoPw strGameId strGamePw).dwAppCount =
          table.dwAppCount + 1 ∧
        ∀ i < table.dwAppCount,
          (table.accountAdd strAutoId strAutoPw strGameId strGamePw).credentials i =
            table.credentials i) := by
  simp only [accountAdd]
  split_ifs
  · exact .inl rfl
  · exact .inl rfl
  · exact .inl rfl
  · refine .inr ⟨rfl, fun i inTable => ?_⟩
    simp only [credentials, Function.update_of_ne (Nat.ne_of_lt inTable)]

theorem credentials_saveSetting (checks : ℕ → UInt32) (i : ℕ) :
    (table.saveSetting checks).credentials i = table.credentials i := by
  simp only [credentials, saveSetting]
  split <;> rfl

theorem mem_used_iff (i : ℕ) :
    i ∈ table.used ↔ i < table.dwAppCount ∧ (table.appSetting i).dwUse ≠ 0 := by
  simp [used]

end AccountTable

section Answers

/-- The launcher gets through a verdict only if its strings fit. -/
theorem fits_of_readAuth {verdict : Verdict} {packet : Buffer} {tail : List UInt8}
    (info : AuthInfo) (unread : packet.Unread (verdict.fields.flatMap Field.bytes ++ tail))
    (isDefined : (Client.readAuth packet info).isSome) : Fits verdict := by
  cases verdict with
  | refused nRet refusal => trivial
  | granted nID strExpiredTime strToken =>
      rcases Client.read_granted unread with ⟨code_read, -, behindId⟩
      have copies : ∀ {buffer : Buffer} {text : CText} {tail : List UInt8},
          buffer.Unread ((Field.wide text.val 0).bytes ++ tail) →
            (wcscpy maxName buffer.readText.1).isSome → text.val.length ≤ 99 ∧
              buffer.readText.2.Unread tail := by
        intro buffer text tail unread copied
        have short : buffer.readText.1.val.length < maxName := by
          by_contra tooLong
          simp [wcscpy, tooLong] at copied
        simp only [maxName] at short
        rcases Nat.lt_or_ge 260 text.val.length with long | fits
        · simp only [unread.readText_of_long long, List.length_take] at short
          omega
        · rcases unread.readText fits with ⟨text_eq, behind⟩
          simp only [text_eq] at short
          exact ⟨by omega, behind⟩
      simp only [Client.readAuth, code_read, if_true] at isDefined
      cases expired_eq : wcscpy maxName ((packet.read 4).2.read 4).2.readText.1 with
      | none => simp [expired_eq] at isDefined
      | some expired =>
          rcases copies behindId (by simp [expired_eq]) with ⟨shortExpired, behindExpired⟩
          cases token_eq : wcscpy maxName ((packet.read 4).2.read 4).2.readText.2.readText.1 with
          | none => simp [expired_eq, token_eq] at isDefined
          | some token =>
              exact ⟨shortExpired, (copies behindExpired (by simp [token_eq])).1⟩

theorem fits_of_readLoginAck {decision : ℕ → Verdict} (indices : List ℕ) {packet : Buffer}
    (auth : ℕ → AuthInfo)
    (unread : packet.Unread
      (((indices.map decision).flatMap Verdict.fields).flatMap Field.bytes))
    (isDefined : (Client.readLoginAck indices packet auth).isSome) :
    ∀ i ∈ indices, Fits (decision i) := by
  induction indices generalizing packet auth with
  | nil => exact fun i mem => absurd mem List.not_mem_nil
  | cons i rest ih =>
      simp only [List.map_cons, List.flatMap_cons, List.flatMap_append] at unread
      have first : Fits (decision i) := by
        refine fits_of_readAuth (auth i) unread ?_
        cases read_eq : Client.readAuth packet (auth i) with
        | none => simp [Client.readLoginAck, read_eq] at isDefined
        | some pair => rfl
      rcases Client.readAuth_of_unread first (auth i) unread with
        ⟨info, behind, info_read, -, restUnread⟩
      simp only [Client.readLoginAck, info_read, Option.bind_eq_bind, Option.bind_some] at isDefined
      intro j mem
      rcases List.mem_cons.mp mem with rfl | later
      · exact first
      · exact ih _ restUnread isDefined j later

/-- An answer to the accounts in use is recorded with each of them. -/
theorem onRecvPacket_loginAck {client next : Client} {decision : ℕ → Verdict} {now : ℕ}
    {received : Buffer} {key : UInt8}
    (framed : received.Framed opLoginAck key
      (Server.loginAck (client.table.used.map decision)).body)
    (handled : client.onRecvPacket now received = some next) :
    next.table = client.table ∧
      (∀ i ∈ client.table.used, Recorded (decision i) (client.auth i) (next.auth i)) ∧
      ∀ i, i ∉ client.table.used → next.auth i = client.auth i := by
  have unread := framed.unread
  have opcode_eq : received.readStart.opcode = opLoginAck := framed.opcode_eq
  have nodup : client.table.used.Nodup := client.table.used_sorted.imp Nat.ne_of_lt
  simp only [Client.onRecvPacket, opcode_eq] at handled
  rw [if_neg (by decide), if_pos trivial] at handled
  rcases Option.bind_eq_some_iff.mp handled with ⟨auth, read_eq, handled⟩
  cases handled
  have fits := fits_of_readLoginAck client.table.used client.auth unread (by simp [read_eq])
  rcases Client.readLoginAck_of_unread client.table.used nodup fits client.auth unread with
    ⟨same, same_eq, recorded, others⟩
  cases same_eq.symm.trans read_eq
  exact ⟨rfl, recorded, others⟩

end Answers

theorem Recorded.shows {verdict : Verdict} {before after : AuthInfo}
    (recorded : Recorded verdict before after) : Shows after verdict :=
  ⟨recorded.result, recorded.granted⟩

theorem Shows.congr {info other : AuthInfo} {verdict : Verdict} (shown : Shows other verdict)
    (same : SameAuthorisation info other) : Shows info verdict where
  result := same.1.trans shown.result
  granted nID strExpiredTime strToken isGranted := by
    have result : info.dwLoginResult = UInt32.ofNat LoginResult.success.code := by
      simp only [same.1, shown.result, isGranted, Verdict.nRet]
    rcases same.2 result with ⟨id_eq, expired_eq, token_eq⟩
    rcases shown.granted nID strExpiredTime strToken isGranted with ⟨id, expired, token⟩
    exact ⟨id_eq.trans id, by rw [expired_eq, expired], by rw [token_eq, token]⟩

/-- A result of success is shown only for a verdict that lets the account in. -/
theorem Shows.granted_of_success {info : AuthInfo} {verdict : Verdict} (shown : Shows info verdict)
    (success : info.dwLoginResult = UInt32.ofNat LoginResult.success.code) :
    ∃ nID strExpiredTime strToken, verdict = .granted nID strExpiredTime strToken := by
  cases verdict with
  | granted nID strExpiredTime strToken => exact ⟨nID, strExpiredTime, strToken, rfl⟩
  | refused nRet refusal =>
      have code_eq : UInt32.ofNat nRet.code = UInt32.ofNat LoginResult.success.code :=
        shown.result.symm.trans success
      cases nRet with
      | success => exact absurd rfl refusal
      | _ => exact absurd code_eq (by decide)

namespace Editor

variable {editor next : Editor} {event : Event}

/-- The arrays agree at every index of the table. -/
def AllBelong (editor : Editor) : Prop :=
  ∀ i < editor.client.table.dwAppCount,
    editor.Belongs (editor.client.auth i) (editor.client.table.credentials i)

theorem AllBelong.aligned (allBelong : editor.AllBelong) : editor.Aligned where
  belongs := allBelong
  loggedIn i inTable starts := by
    rcases allBelong i inTable with noResult | ⟨verdict, isLast, shown⟩
    · exact absurd (noResult.symm.trans starts.2) (by decide)
    · rcases shown.granted_of_success starts.2 with ⟨nID, strExpiredTime, strToken, rfl⟩
      exact ⟨nID, strExpiredTime, strToken, isLast⟩

/-- The verdicts of an answer, by the index that each of them is read for. -/
theorem exists_decision {indices : List ℕ} (nodup : indices.Nodup) {verdicts : List Verdict}
    (length_eq : verdicts.length = indices.length) :
    ∃ decision : ℕ → Verdict, indices.map decision = verdicts := by
  have refusal : Verdict := .refused .duplicate LoginResult.duplicate_ne_success
  refine ⟨fun i => verdicts.getD (indices.idxOf i) refusal, ?_⟩
  refine List.ext_getElem (by simp [length_eq]) fun k inside inVerdicts => ?_
  have inIndices : k < indices.length := by simpa using inside
  simp only [List.getElem_map, List.Nodup.idxOf_getElem nodup k inIndices]
  rw [List.getD_eq_getElem?_getD, List.getElem?_eq_getElem inVerdicts, Option.getD_some]

theorem AllBelong.loginAck {verdicts : List Verdict} {request : List Account} {received : Buffer}
    {client : Client} {now : ℕ} {key : UInt8} (allBelong : editor.AllBelong)
    (requested : editor.client.table.Requests request)
    (length_eq : verdicts.length = request.length)
    (framed : received.Framed opLoginAck key (Server.loginAck verdicts).body)
    (handled : editor.client.onRecvPacket now received = some client) :
    AllBelong { client, requests := editor.requests.tail, last := editor.answer request verdicts } := by
  rcases requested with ⟨isRequest, noSpare⟩
  have nodup : editor.client.table.used.Nodup := editor.client.table.used_sorted.imp Nat.ne_of_lt
  have indices_length : verdicts.length = editor.client.table.used.length := by
    simp [length_eq, ← isRequest]
  rcases exists_decision nodup indices_length with ⟨decision, rfl⟩
  rcases onRecvPacket_loginAck framed handled with ⟨table_eq, recorded, others⟩
  subst isRequest
  intro i inTable
  simp only [table_eq] at inTable ⊢
  by_cases inUse : i ∈ editor.client.table.used
  · refine .inr ⟨decision i, ?_, (recorded i inUse).shows⟩
    have asked : editor.client.table.credentials i ∈
        editor.client.table.used.map editor.client.table.credentials := List.mem_map_of_mem inUse
    simp only [answer, if_pos asked, List.zip_map']
    refine List.mem_map.mpr ⟨(editor.client.table.credentials i, decision i), ?_, rfl⟩
    refine List.mem_filter.mpr ⟨List.mem_map.mpr ⟨i, inUse, rfl⟩, by simp⟩
  · have unused : (editor.client.table.appSetting i).dwUse = 0 := by
      simpa [AccountTable.mem_used_iff, inTable] using inUse
    simp only [Belongs, others i inUse, answer, if_neg (noSpare i inTable unused)]
    exact allBelong i inTable

theorem AllBelong.accountRemove {nPos : ℕ} (allBelong : editor.AllBelong)
    (inStep : editor.InStep (.accountRemove nPos)) :
    (editor.setTable (editor.client.table.accountRemove nPos)).AllBelong := by
  intro i inTable
  replace inTable : i < editor.client.table.dwAppCount - 1 := inTable
  simp only [setTable, AccountTable.credentials_accountRemove]
  split
  · rename_i moved
    rcases inStep i moved.1 moved.2 with noResult | same
    · exact .inl noResult
    · rcases allBelong (i + 1) moved.2 with noResult | ⟨verdict, isLast, shown⟩
      · exact .inl (same.1.trans noResult)
      · exact .inr ⟨verdict, isLast, shown.congr same⟩
  · exact allBelong i (by omega)

theorem AllBelong.accountAdd {strAutoId strAutoPw strGameId strGamePw : Name maxName}
    (allBelong : editor.AllBelong)
    (inStep : editor.InStep (.accountAdd strAutoId strAutoPw strGameId strGamePw)) :
    (editor.setTable (editor.client.table.accountAdd strAutoId strAutoPw strGameId
      strGamePw)).AllBelong := by
  rcases editor.client.table.accountAdd_cases strAutoId strAutoPw strGameId strGamePw with
    same | ⟨count_eq, others⟩
  · simp only [same]
    exact allBelong
  · intro i inTable
    simp only [setTable, count_eq] at inTable ⊢
    rcases Nat.lt_succ_iff_lt_or_eq.mp inTable with old | rfl
    · simp only [others i old]
      exact allBelong i old
    · exact .inl inStep

theorem AllBelong.advance (allBelong : editor.AllBelong) (inStep : editor.InStep event)
    (moves : editor.advance event = some next) : next.AllBelong := by
  cases event with
  | login =>
      cases moves
      exact allBelong
  | loginAck verdicts pool clientPool rand now =>
      simp only [Editor.advance, Option.bind_eq_bind, Option.bind_eq_some_iff,
        Option.guard_eq_some'] at moves
      rcases moves with ⟨request, isHead, _, length_eq, received, transferred, client, handled,
        moves⟩
      cases moves
      exact allBelong.loginAck (inStep request isHead) length_eq
        (Message.framed_of_transfer transferred) handled
  | reconnect =>
      cases moves
      exact allBelong
  | accountAdd strAutoId strAutoPw strGameId strGamePw =>
      cases moves
      exact allBelong.accountAdd inStep
  | accountRemove nPos =>
      simp only [Editor.advance, Option.bind_eq_bind, Option.bind_eq_some_iff] at moves
      rcases moves with ⟨_, _, moves⟩
      cases moves
      exact allBelong.accountRemove inStep
  | saveSetting checks =>
      cases moves
      intro i inTable
      simp only [setTable, AccountTable.credentials_saveSetting]
      exact allBelong i inTable

/-- As long as the two arrays are edited in step, they are about the same accounts. -/
theorem tables_aligned (reached : (system.restrict InStep).Reachable editor) : editor.Aligned := by
  have invariant : (system.restrict InStep).Invariant AllBelong :=
    { initial := fun editor starts i _ => .inl (starts.unauthorised i)
      step := fun editor event next allBelong moves => allBelong.advance moves.1 moves.2 }
  exact (invariant.of_reachable reached).aligned

instance (table : AccountTable) (request : List Account) : Decidable (table.Requests request) :=
  @instDecidableAnd _ _ inferInstance inferInstance

instance (info other : AuthInfo) : Decidable (SameAuthorisation info other) :=
  inferInstanceAs (Decidable (_ ∧ (_ → _ ∧ _ ∧ _)))

instance (editor : Editor) (i : ℕ) : Decidable (editor.StartsGame i) :=
  inferInstanceAs (Decidable (_ ∧ _))

instance (editor : Editor) (event : Event) : Decidable (editor.InStep event) :=
  match event with
  | .login | .reconnect | .saveSetting _ => .isTrue trivial
  | .loginAck _ _ _ _ _ =>
      decidable_of_iff (∀ request ∈ editor.requests.head?.toList,
        editor.client.table.Requests request) (by simp only [InStep, Option.mem_toList, Option.mem_def])
  | .accountAdd _ _ _ _ => inferInstanceAs (Decidable (_ = _))
  | .accountRemove nPos =>
      decidable_of_iff (∀ i < editor.client.table.dwAppCount, nPos ≤ i →
          i + 1 < editor.client.table.dwAppCount → (editor.client.auth i).dwLoginResult = 0 ∨
            SameAuthorisation (editor.client.auth i) (editor.client.auth (i + 1)))
        ⟨fun held i behind inTable => held i (Nat.lt_of_succ_lt inTable) behind inTable,
          fun held i _ behind inTable => held i behind inTable⟩

/-- Account `a` with password `b` and account `b` with password `a`, both in use. -/
def twoAccounts : Editor where
  client :=
    { table :=
        { dwAppCount := 2
          appSetting := fun i =>
            if i = 0 then .sample 1
            else
              { dwUse := 1
                szAutoId := (AccountInfo.sample 1).szAutoPw
                szAutoPw := (AccountInfo.sample 1).szAutoId }
          szDeviceKey := (AccountTable.sample 0 fun _ => 0).szDeviceKey }
      auth := fun _ => .bare 0 0
      runInfo := fun _ => { isRunGame := false, hProcess := none }
      login := false
      lastConnTime := 0
      logUI := []
      terminated := []
      running := true }
  requests := []
  last _ := []

theorem twoAccounts_start : Start twoAccounts where
  count_le := by decide
  unauthorised _ := rfl
  requests := rfl
  last _ := rfl

/-- The server lets the first account in and refuses the second. -/
def firstLetIn : Event :=
  .loginAck [.granted 7 CText.empty CText.empty,
    .refused .invalidAccount nofun] Buffer.blank Buffer.blank 0 0

/-- A login, then an account `a` with password `a` is added and removed. -/
def addedAndRemoved : List Event :=
  let letterA := (AccountInfo.sample 1).szAutoId
  [.login, firstLetIn, .accountAdd letterA letterA letterA letterA, .accountRemove 2, .reconnect]

theorem tables_aligned_addedAndRemoved : ∃ editor : Editor, editor.Aligned ∧
    editor.client.table.dwAppCount = 2 ∧ editor.StartsGame 0 := by
  have ends : (StepSystem.play advance InStep twoAccounts addedAndRemoved).map (fun editor =>
      (editor.client.table.dwAppCount, decide (editor.StartsGame 0))) = some (2, true) := by
    decide +kernel
  rcases Option.map_eq_some_iff.mp ends with ⟨editor, plays, measured⟩
  simp only [Prod.mk.injEq, decide_eq_true_eq] at measured
  have reached : (system.restrict InStep).Reachable editor :=
    StepSystem.reachable_play (.initial twoAccounts_start)
      (fun _ _ _ isAllowed moves => ⟨isAllowed, moves⟩) plays
  exact ⟨editor, tables_aligned reached, measured⟩

/-- After the first account is removed the second one, which was refused, is at index 0, where
`g_pAuth` has the login of the first. -/
theorem tables_misaligned : ¬ ∀ editor, system.Reachable editor → editor.Aligned := by
  intro claimed
  have ends : (StepSystem.play advance (fun _ _ => True) twoAccounts
      [.login, firstLetIn, .accountRemove 0]).map (fun editor =>
        (editor.client.table.dwAppCount, decide (editor.StartsGame 0),
          (editor.last (editor.client.table.credentials 0)).map Verdict.nRet)) =
      some (1, true, [LoginResult.invalidAccount]) := by
    decide +kernel
  rcases Option.map_eq_some_iff.mp ends with ⟨editor, plays, measured⟩
  simp only [Prod.mk.injEq, decide_eq_true_eq] at measured
  rcases measured with ⟨count_eq, starts, last_eq⟩
  have reached : system.Reachable editor :=
    StepSystem.reachable_play (.initial twoAccounts_start) (fun _ _ _ _ moves => moves) plays
  rcases (claimed editor reached).loggedIn 0 (by omega) starts with
    ⟨nID, strExpiredTime, strToken, isLast⟩
  have success := List.mem_map_of_mem (f := Verdict.nRet) isLast
  simp only [last_eq, List.mem_singleton] at success
  exact absurd success nofun

end Editor

end PoETask.Launcher
