import PoETask.AuthServer.Consistency

/-!
# The buffers of a login

`GenerateToken` copies four blocks behind each other into a local buffer of 200 bytes without
asking whether they fit. `HandleLogin` appends the verdicts to its answer in the same way. The
reader admits names and device strings of 260 characters, which is more than the token buffer can
take; the answer to at most twenty-nine accounts always fits its packet.
-/

namespace PoETask.AuthServer

open PoETask.Library PoETask.Wire

section Token

/-- `memcpy(buffer + nBufSize, …)` for `char buffer[200]`, undefined when the block does not fit. -/
def appendToken (copied block : List UInt8) : Option (List UInt8) :=
  if copied.length + block.length ≤ 200 then some (copied ++ block) else none

/-- The bytes that `GenerateToken` collects. -/
def tokenBuffer (strDeviceNum strAccount strTime : CText) (nId : AccountId) :
    Option (List UInt8) :=
  [wideBytes strDeviceNum.val, wideBytes strAccount.val, wideBytes strTime.val,
    leBytes 4 nId.toNat].foldlM appendToken []

theorem foldlM_appendToken {blocks : List (List UInt8)} {copied : List UInt8}
    (isBuffer : copied.length ≤ 200) :
    blocks.foldlM appendToken copied
      = if copied.length + blocks.flatten.length ≤ 200 then some (copied ++ blocks.flatten)
        else none := by
  induction blocks generalizing copied with
  | nil => simp [isBuffer]
  | cons block rest ih =>
      rw [List.foldlM_cons, appendToken]
      by_cases fits : copied.length + block.length ≤ 200
      · have joined : (copied ++ block).length ≤ 200 := by rwa [List.length_append]
        rw [if_pos fits, Option.bind_eq_bind, Option.bind_some, ih joined]
        simp only [List.length_append, List.flatten_cons, List.append_assoc, Nat.add_assoc]
      · rw [if_neg fits, if_neg]
        · rfl
        · simp only [List.flatten_cons, List.length_append]
          omega

variable {strDeviceNum strAccount strTime : CText} {nId : AccountId}

theorem tokenBuffer_isSome_iff :
    (tokenBuffer strDeviceNum strAccount strTime nId).isSome ↔
      2 * (strDeviceNum.val.length + strAccount.val.length + strTime.val.length) + 4 ≤ 200 := by
  rw [tokenBuffer, foldlM_appendToken (Nat.zero_le _), Option.isSome_ite]
  simp only [List.flatten_cons, List.flatten_nil, List.length_append, length_wideBytes,
    length_leBytes, List.length_nil]
  omega

/-- When all four blocks fit, the token is the digest of what was copied. -/
theorem generateToken_eq {environment : Environment} {copied : List UInt8}
    (fits : tokenBuffer strDeviceNum strAccount
      ((environment.clock strAccount).format (environment.clock strAccount).currentTime) nId
        = some copied) :
    generateToken environment strDeviceNum strAccount nId = environment.getSha1 copied := by
  rw [tokenBuffer, foldlM_appendToken (Nat.zero_le _), Option.ite_none_right_eq_some] at fits
  obtain rfl := Option.some.inj fits.2
  simp only [generateToken, List.flatten_cons, List.flatten_nil, List.nil_append, List.append_nil,
    List.append_assoc]

end Token

section Requests

variable {packet : Buffer} {accounts : List (CText × CText)} {strDeviceNum : CText}

theorem length_wideChars_le : ∀ bytes : List UInt8, 2 * (wideChars bytes).length ≤ bytes.length
  | low :: high :: rest => by
      have short := length_wideChars_le rest
      simp only [wideChars, List.length_cons]
      omega
  | [_] => Nat.zero_le _
  | [] => Nat.zero_le _

/-- The cap of `ReadWideString`. -/
theorem length_readText_le (buffer : Buffer) : buffer.readText.1.val.length ≤ maxPath := by
  have capped : ∀ memory start size,
      (untilNul (wideChars (readAt memory start (size * 2)))).length ≤ size := by
    intro memory start size
    have taken : (readAt memory start (size * 2)).length ≤ size * 2 := List.length_take_le _ _
    have chars := length_wideChars_le (readAt memory start (size * 2))
    have cut : (untilNul (wideChars (readAt memory start (size * 2)))).length
        ≤ (wideChars (readAt memory start (size * 2))).length := (List.takeWhile_sublist _).length_le
    omega
  simp only [Buffer.readText, Buffer.readWideString, if_true]
  split
  · exact Nat.zero_le _
  · exact (capped _ _ _).trans (Nat.min_le_left _ _)

theorem readAccounts_capped (count : ℕ) (packet : Buffer) :
    (Server.readAccounts count packet).1.length = count ∧
      ∀ account ∈ (Server.readAccounts count packet).1,
        account.1.val.length ≤ maxPath ∧ account.2.val.length ≤ maxPath := by
  induction count generalizing packet with
  | zero => exact ⟨rfl, fun account isAccount => absurd isAccount List.not_mem_nil⟩
  | succ count ih =>
      rcases ih packet.readText.2.readText.2 with ⟨length_eq, capped⟩
      refine ⟨congrArg Nat.succ length_eq, fun account isAccount => ?_⟩
      rcases List.mem_cons.mp isAccount with rfl | later
      · exact ⟨length_readText_le packet, length_readText_le packet.readText.2⟩
      · exact capped account later

/-- What `HandleLogin` accepts is a short list of capped strings. -/
theorem readRequest_capped (read : Server.readRequest packet = some (accounts, strDeviceNum)) :
    accounts.length < maxAccountNum ∧ strDeviceNum.val.length ≤ maxPath ∧
      ∀ account ∈ accounts, account.1.val.length ≤ maxPath ∧ account.2.val.length ≤ maxPath := by
  rw [Server.readRequest] at read
  split_ifs at read with tooMany
  simp only [Option.some.injEq, Prod.mk.injEq] at read
  rcases read with ⟨rfl, rfl⟩
  rcases readAccounts_capped (packet.read 4).1 (packet.read 4).2 with ⟨length_eq, capped⟩
  exact ⟨by omega, length_readText_le _, capped⟩

/-- The account is in the database, with this password, on this device, and has not expired. -/
structure Grants (environment : Environment) (strId strPwd strDeviceNum : CText)
    (row : UserRow) : Prop where
  filled : ¬ (strId.isEmpty || strPwd.isEmpty || strDeviceNum.isEmpty)
  answer : environment.users strId = .row row
  password : strPwd = row.userPassword
  device : strDeviceNum = row.userDeviceNum ∨ row.userDeviceNum.isEmpty ∨
    row.userDeviceNum = nullText
  running : (environment.clock strId).localTime <
    ((environment.clock strId).parseDateTime row.userEndDatetime).getD
      (environment.clock strId).currentTime

theorem Grants.verdict {environment : Environment} {strId strPwd : CText} {row : UserRow}
    (grants : Grants environment strId strPwd strDeviceNum row) :
    ∃ strExpiredTime strToken, checkLoginVerdict environment strId strPwd strDeviceNum =
      .granted row.no strExpiredTime strToken := by
  rw [checkLoginVerdict, if_neg grants.filled, grants.answer]
  simp only [if_pos grants.password, if_pos grants.device, gt_iff_lt, if_pos grants.running]
  exact ⟨_, _, rfl⟩

end Requests

namespace Verdict

/-- The texts of a verdict have the sizes that database and digest give them. -/
def ShortTexts : Verdict → Prop
  | refused _ _ => True
  | granted _ strExpiredTime strToken =>
      strExpiredTime.val.length ≤ 19 ∧ strToken.val.length = 40

/-- The bytes that a verdict adds to the answer. -/
theorem length_fields_le {verdict : Verdict} (short : verdict.ShortTexts) :
    (verdict.fields.flatMap Field.bytes).length ≤ 134 := by
  cases verdict with
  | refused nRet refusal =>
      have code : (uintField nRet.code).bytes.length = 4 := length_leBytes 4 _
      simp only [fields, List.flatMap_cons, List.flatMap_nil, List.append_nil, code]
      omega
  | granted nID strExpiredTime strToken =>
      have number : ∀ value, (uintField value).bytes.length = 4 := length_leBytes 4
      rcases short with ⟨shortTime, isToken⟩
      simp only [fields, List.flatMap_cons, List.flatMap_nil, List.append_nil, List.length_append,
        number, length_textField]
      omega

theorem length_flatMap_fields_le {verdicts : List Verdict}
    (short : ∀ verdict ∈ verdicts, verdict.ShortTexts) :
    ((verdicts.flatMap fields).flatMap Field.bytes).length ≤ verdicts.length * 134 := by
  induction verdicts with
  | nil => exact Nat.zero_le _
  | cons verdict later ih =>
      rw [List.forall_mem_cons] at short
      have first := length_fields_le short.1
      have rest := ih short.2
      simp only [List.flatMap_cons, List.flatMap_append, List.length_append, List.length_cons]
      omega

end Verdict

section Answer

variable {server : Server} {environment : Environment} {session : SessionPtr} {packet : Buffer}
  {accounts : List (CText × CText)} {strDeviceNum : CText}

/-- Every account of a request gets a verdict. -/
theorem length_loginAccounts (server : Server) :
    (server.loginAccounts environment session strDeviceNum accounts).1.length
      = accounts.length := by
  induction accounts generalizing server with
  | nil => rfl
  | cons account later ih => exact congrArg Nat.succ (ih _)

/-- Verdicts are short when the dates in the database and the digests are. -/
theorem checkLoginVerdict_shortTexts {strId strPwd : CText}
    (rows : ∀ name row, environment.users name = .row row → row.userEndDatetime.val.length ≤ 19)
    (dates : ∀ name time, ((environment.clock name).format time).val.length ≤ 19)
    (digests : ∀ bytes, (environment.getSha1 bytes).val.length = 40) :
    (checkLoginVerdict environment strId strPwd strDeviceNum).ShortTexts := by
  unfold checkLoginVerdict
  split
  · exact trivial
  · cases found : environment.users strId with
    | canNotConnect => exact trivial
    | canNotQuery => exact trivial
    | noRow => exact trivial
    | row row =>
        simp only
        split_ifs
        · exact ⟨dates _ _, digests _⟩
        · exact ⟨rows strId row found, digests _⟩
        · exact trivial
        · exact trivial
        · exact trivial

theorem loginAccounts_shortTexts (server : Server)
    (rows : ∀ name row, environment.users name = .row row → row.userEndDatetime.val.length ≤ 19)
    (dates : ∀ name time, ((environment.clock name).format time).val.length ≤ 19)
    (digests : ∀ bytes, (environment.getSha1 bytes).val.length = 40) :
    ∀ verdict ∈ (server.loginAccounts environment session strDeviceNum accounts).1,
      verdict.ShortTexts := by
  induction accounts generalizing server with
  | nil => exact fun verdict isVerdict => absurd isVerdict List.not_mem_nil
  | cons account later ih =>
      rw [Server.loginAccounts, List.forall_mem_cons]
      refine ⟨?_, ih _⟩
      split_ifs
      · exact trivial
      · rw [Server.checkLogin]
        have short : (checkLoginVerdict environment account.1 account.2 strDeviceNum).ShortTexts :=
          checkLoginVerdict_shortTexts rows dates digests
        split
        · exact trivial
        · rename_i nID strExpiredTime strToken decided
          rwa [decided] at short

/-- The answer to an accepted request has room in its packet. -/
theorem loginAck_built (read : Server.readRequest packet = some (accounts, strDeviceNum))
    (short : ∀ verdict ∈ (server.loginAccounts environment session strDeviceNum accounts).1,
      verdict.ShortTexts) (ackPacket : Buffer) :
    (buildPacket ackPacket opLoginAck ((server.loginAccounts environment session strDeviceNum
      accounts).1.flatMap Verdict.fields)).isSome := by
  have few := (readRequest_capped read).1
  have size := Verdict.length_flatMap_fields_le short
  rw [length_loginAccounts] at size
  rw [maxAccountNum] at few
  exact (buildPacket_isSome_iff ackPacket opLoginAck _).mpr (by omega)

/-- For any database the answer to an accepted request is built inside its packet, whatever the
packet was used for before, and its length field counts what is behind the header. -/
theorem loginAck_fits (read : Server.readRequest packet = some (accounts, strDeviceNum))
    (short : ∀ verdict ∈ (server.loginAccounts environment session strDeviceNum accounts).1,
      verdict.ShortTexts) (ackPacket : Buffer) :
    let answer :=
      Server.loginAck (server.loginAccounts environment session strDeviceNum accounts).1
    ∃ built, buildPacket ackPacket answer.bOpcode answer.fields = some built ∧
      built.used ≤ maxBufferSize ∧ built.lengthField = built.used - realBufferOffset := by
  rcases Option.isSome_iff_exists.mp (loginAck_built read short ackPacket) with ⟨built, build⟩
  rcases framed_of_buildPacket build with ⟨key, framed, -⟩
  refine ⟨built, build, framed.used_le, ?_⟩
  rw [framed.lengthField_eq, framed.used_eq, Nat.add_sub_cancel_left]

/-- A database that knows every account, with dates and digests of the usual sizes. -/
def datedUsers : Environment where
  users := fun _ => .row
    { no := 1, userPassword := .letterA, userDeviceNum := .letterB
      userStartDatetime := .letterA, userEndDatetime := zeroDateText, userAccType := 0 }
  clock := fun _ => { currentTime := 1, localTime := 0, parseDateTime := fun _ => none
                      format := fun _ => zeroDateText }
  getSha1 := fun _ => ⟨List.replicate 40 97, by decide +kernel⟩

theorem oneAccount_loginAck_fits :
    ∃ packet, Server.readRequest packet = some ([(CText.letterA, CText.letterA)], .letterB) ∧
      ∃ built, buildPacket .blank opLoginAck (Server.loginAck (Server.start.loginAccounts datedUsers
          0 .letterB [(.letterA, .letterA)]).1).fields = some built ∧
        built.used ≤ maxBufferSize ∧ built.lengthField = built.used - realBufferOffset := by
  have isRequest : ∃ packet,
      Server.readRequest packet = some ([(CText.letterA, CText.letterA)], .letterB) :=
    Server.exists_readRequest (by decide) (by decide) (by decide) (by decide +kernel)
  rcases isRequest with ⟨packet, read⟩
  have rows : ∀ name row, datedUsers.users name = .row row →
      row.userEndDatetime.val.length ≤ 19 := by
    rintro name row ⟨⟩
    decide
  have dates : ∀ name time, ((datedUsers.clock name).format time).val.length ≤ 19 :=
    fun _ _ => (by decide : zeroDateText.val.length ≤ 19)
  have digests : ∀ bytes, (datedUsers.getSha1 bytes).val.length = 40 :=
    fun _ => List.length_replicate
  exact ⟨packet, read, loginAck_fits read (loginAccounts_shortTexts Server.start rows dates digests)
    .blank⟩

end Answer

end PoETask.AuthServer
