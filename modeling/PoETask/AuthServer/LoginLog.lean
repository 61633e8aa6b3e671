import Mathlib.Algebra.Order.BigOperators.Group.List
import Mathlib.Algebra.Group.Nat.Defs
import PoETask.AuthServer.LoginBounds
import PoETask.AuthServer.LoginQueries
import PoETask.Library.BareFormat

/-!
# The log of a login

`Log` formats a line and sends it to the dialog, whose `LogFile` takes the line for a
format, twice: of wide characters, and of bytes after the conversion to the system code
page. A percent sign that a client has put into its name is read as a conversion then,
without an argument.

This file runs `HandleLogin` with the lines it logs and the buffers it fills; `none` says
that the program does something undefined or ends on the way. What it does otherwise is
what `Server.handleLogin` says.
-/

namespace PoETask.AuthServer

open PoETask.Library PoETask.Wire

/-- The characters of a text in the source, in a wide string. -/
def wideText (text : String) : List WChar := text.toList.map fun char => UInt16.ofNat char.toNat

/-- A `%d`. -/
def decimal (value : ℤ) : List WChar := wideText (toString value)

/-- A `%08X`. -/
def hexadecimal (value : UInt32) : List WChar :=
  (List.range 8).reverse.map fun place =>
    let digit := value.toNat / 16 ^ place % 16
    UInt16.ofNat (if digit < 10 then 48 + digit else 55 + digit)

/-- An ASCII character that no format asks about. -/
def IsPlain (char : WChar) : Prop := char.toNat < 128 ∧ char ≠ 37

instance : DecidablePred IsPlain := fun _ => inferInstanceAs (Decidable (_ ∧ _))

instance (text : List WChar) : Decidable (∀ char ∈ text, IsPlain char) :=
  decidable_of_iff (text.all fun char => decide (IsPlain char)) (by simp)

/-- The log file: whether it is open, the time in front of an entry, and how the system code page
writes a text. An ASCII character is one byte and separates what is before and behind it. -/
structure LogSink where
  isOpen : Bool
  time : List UInt8
  toAnsi : List WChar → List UInt8
  time_plain : 37 ∉ time
  toAnsi_nil : toAnsi [] = []
  toAnsi_ascii : ∀ front char back, char.toNat < 128 →
    toAnsi (front ++ char :: back) = toAnsi front ++ UInt8.ofNat char.toNat :: toAnsi back

namespace LogSink

/-- `LogFile` with a line for its format. -/
def logFile (sink : LogSink) (szFormat : List WChar) : Option Unit := do
  let g_szBuffer ← bareFormat 37 szFormat
  if g_szBuffer = [] ∨ g_szBuffer = wideText "Init" ∨ sink.isOpen = false then
    return
  let _ ← bareFormat 37 (sink.time ++ sink.toAnsi g_szBuffer)
  return

/-- `Log`, up to the return of `LogFile`. -/
def log (sink : LogSink) (szTemp : List WChar) : Option Unit :=
  if szTemp.length < 0x1000 then sink.logFile szTemp else none

/-- A text prints when it is taken for a format. -/
def Prints (sink : LogSink) (text : List WChar) : Prop :=
  ∃ wide, bareFormat 37 text = some wide ∧
    (sink.isOpen = true → (bareFormat 37 (sink.toAnsi wide)).isSome)

variable (sink : LogSink)

theorem prints_nil : sink.Prints [] := by
  refine ⟨[], rfl, fun _ => ?_⟩
  rw [sink.toAnsi_nil]
  rfl

/-- A plain character separates what has to print. -/
theorem prints_append_cons_iff {char : WChar} (plain : IsPlain char) (front back : List WChar) :
    sink.Prints (front ++ char :: back) ↔ sink.Prints front ∧ sink.Prints back := by
  have different : UInt8.ofNat char.toNat ≠ 37 := by
    intro same
    apply plain.2
    have value := congrArg UInt8.toNat same
    simp only [UInt8.toNat_ofNat', UInt8.reduceToNat] at value
    apply UInt16.toNat_inj.mp
    simp only [UInt16.reduceToNat]
    have small := plain.1
    omega
  simp only [Prints, bareFormat_append_cons plain.2]
  cases frontPrints : bareFormat 37 front with
  | none => simp
  | some wide =>
      cases backPrints : bareFormat 37 back with
      | none => simp
      | some rest =>
          simp only [Option.bind_some, Option.map_some, Option.some.injEq, exists_eq_left',
            sink.toAnsi_ascii wide char rest plain.1, bareFormat_append_cons different]
          cases bareFormat 37 (sink.toAnsi wide) with
          | none => cases sink.isOpen <;> simp
          | some narrow => cases bareFormat 37 (sink.toAnsi rest) <;> simp

/-- A plain text in front prints. -/
theorem prints_plain_append_iff {front : List WChar} (plain : ∀ char ∈ front, IsPlain char)
    (back : List WChar) : sink.Prints (front ++ back) ↔ sink.Prints back := by
  induction front with
  | nil => rfl
  | cons char rest ih =>
      rw [List.forall_mem_cons] at plain
      have separated := prints_append_cons_iff sink plain.1 [] (rest ++ back)
      rw [List.nil_append] at separated
      rw [List.cons_append, separated, ih plain.2]
      exact and_iff_right sink.prints_nil

theorem prints_of_plain {text : List WChar} (plain : ∀ char ∈ text, IsPlain char) :
    sink.Prints text := by
  have prints := prints_plain_append_iff sink plain []
  rw [List.append_nil] at prints
  exact prints.mpr sink.prints_nil

/-- A string between plain texts has to print. -/
theorem prints_append_plain_iff {middle : List WChar} (plain : ∀ char ∈ middle, IsPlain char)
    (nonempty : middle ≠ []) (front back : List WChar) :
    sink.Prints (front ++ (middle ++ back)) ↔ sink.Prints front ∧ sink.Prints back := by
  cases middle with
  | nil => exact absurd rfl nonempty
  | cons char rest =>
      rw [List.forall_mem_cons] at plain
      rw [List.cons_append, prints_append_cons_iff sink plain.1,
        prints_plain_append_iff sink plain.2]

/-- A line with a plain text of five characters in front is logged when it is short and prints. -/
theorem log_isSome_iff {front : List WChar} (plain : ∀ char ∈ front, IsPlain char)
    (long : 5 ≤ front.length) (back : List WChar) :
    (sink.log (front ++ back)).isSome ↔
      (front ++ back).length < 0x1000 ∧ sink.Prints back := by
  have separate : 37 ∉ front := fun isPercent => (plain 37 isPercent).2 rfl
  have printed_long : ∀ wide, bareFormat 37 (front ++ back) = some wide →
      ¬ (wide = [] ∨ wide = wideText "Init") := by
    intro wide printed
    rw [bareFormat_plain_append separate, Option.map_eq_some_iff] at printed
    rcases printed with ⟨rest, -, rfl⟩
    rintro (none | init)
    · have lengths := congrArg List.length none
      simp only [List.length_append, List.length_nil] at lengths
      omega
    · have lengths := congrArg List.length init
      have four : (wideText "Init").length = 4 := by decide
      simp only [List.length_append, four] at lengths
      omega
  rw [← prints_plain_append_iff sink plain back, log]
  by_cases short : (front ++ back).length < 0x1000
  · rw [if_pos short, and_iff_right short, logFile, Prints]
    cases printed : bareFormat 37 (front ++ back) with
    | none => simp
    | some wide =>
        have notShort := printed_long wide printed
        rw [not_or] at notShort
        simp only [Option.bind_eq_bind, Option.bind_some, notShort.1, notShort.2, false_or,
          Option.some.injEq, exists_eq_left']
        cases isOpen : sink.isOpen with
        | false => simp
        | true =>
            rw [if_neg (by simp), bareFormat_plain_append sink.time_plain]
            cases bareFormat 37 (sink.toAnsi wide) <;> simp
  · simp only [short, if_false, Option.isSome_none, Bool.false_eq_true, false_and]

end LogSink

section Texts

/-- Plain texts of a bounded length, the parts of a line that the server makes itself. -/
def PlainText (room : ℕ) (text : List WChar) : Prop :=
  text.length ≤ room ∧ ∀ char ∈ text, IsPlain char

instance (room : ℕ) (text : List WChar) : Decidable (PlainText room text) :=
  inferInstanceAs (Decidable (_ ∧ _))

theorem PlainText.append {room more : ℕ} {front back : List WChar}
    (plain : PlainText room front) (plainToo : PlainText more back) :
    PlainText (room + more) (front ++ back) := by
  refine ⟨?_, List.forall_mem_append.mpr ⟨plain.2, plainToo.2⟩⟩
  rw [List.length_append]
  exact Nat.add_le_add plain.1 plainToo.1

theorem plainText_repr (value room : ℕ) (small : value < 10 ^ room) (pos : 0 < room) :
    PlainText room (wideText value.repr) := by
  simp only [PlainText, wideText, Nat.toList_repr, List.length_map]
  refine ⟨(Nat.length_toDigits_le_iff (by decide) pos).mpr small, ?_⟩
  intro char char_mem
  rcases List.mem_map.mp char_mem with ⟨digit, digit_mem, rfl⟩
  have isDigit := Nat.isDigit_of_mem_toDigits (by decide) (by decide) digit_mem
  simp only [Char.isDigit, Bool.and_eq_true, decide_eq_true_eq] at isDigit
  have lower : 48 ≤ digit.toNat := isDigit.1
  have upper : digit.toNat ≤ 57 := isDigit.2
  refine ⟨?_, ?_⟩
  · rw [UInt16.toNat_ofNat']
    omega
  · intro same
    have value := congrArg UInt16.toNat same
    simp only [UInt16.toNat_ofNat', UInt16.reduceToNat] at value
    omega

theorem plainText_decimal {value : ℤ} (small : value.natAbs < 10 ^ 10) :
    PlainText 11 (decimal value) := by
  cases value with
  | ofNat value =>
      have digits := plainText_repr value 10 small (by decide)
      exact ⟨digits.1.trans (by decide), digits.2⟩
  | negSucc value =>
      have digits := plainText_repr (value + 1) 10 small (by decide)
      have minus : PlainText 1 (wideText "-") := by decide
      have same : decimal (Int.negSucc value) = wideText "-" ++ wideText (value + 1).repr := by
        have text : toString (Int.negSucc value) = "-" ++ (value + 1).repr := rfl
        simp only [decimal, text, wideText, String.toList_append, List.map_append]
      rw [same]
      exact minus.append digits

theorem plainText_hexadecimal (value : UInt32) : PlainText 8 (hexadecimal value) := by
  refine ⟨by simp [hexadecimal], ?_⟩
  intro char char_mem
  rcases List.mem_map.mp char_mem with ⟨place, -, rfl⟩
  have digit : value.toNat / 16 ^ place % 16 < 16 := Nat.mod_lt _ (by decide)
  simp only [IsPlain, UInt16.toNat_ofNat']
  refine ⟨?_, ?_⟩
  · split <;> omega
  · intro same
    have value_eq := congrArg UInt16.toNat same
    simp only [UInt16.toNat_ofNat', UInt16.reduceToNat] at value_eq
    split at value_eq <;> omega

/-- A line of the server alone is logged. -/
theorem LogSink.log_plain (sink : LogSink) {text : List WChar} (plain : PlainText 4000 text)
    (long : 5 ≤ text.length) : sink.log text = some () := by
  have logs := (sink.log_isSome_iff plain.2 long []).mpr
  rw [List.append_nil] at logs
  have short := plain.1
  exact Option.eq_some_of_isSome (logs ⟨by omega, sink.prints_nil⟩)

end Texts

/-- What `HandleLogin` meets outside its code: the log, the code page, the database and the clock,
the error of the update statements, the handles and the address of the sockets, and the number in
the variable that a request finds uninitialised. -/
structure Host where
  log : LogSink
  codePage : CodePage
  environment : Environment
  error : ℤ
  socket : SessionPtr → UInt32
  ip : List UInt8
  nID : AccountId

/-- The bytes that `vsprintf_s` writes, up to a character without a conversion. -/
def emitted (codePage : CodePage) : List Piece → List UInt8
  | [] => []
  | .S str :: rest =>
      if codePage.Converts str then
        codePage.narrowed str ++ emitted codePage rest
      else
        (str.val.takeWhile fun char => (codePage.wctomb char).isSome).flatMap fun char =>
          (codePage.wctomb char).getD []
  | piece :: rest => piece.chars codePage ++ emitted codePage rest

/-- `SQLFirst`, as far as it can end the program: a text that is too long for its buffer is not
accepted by `vsprintf_s`. -/
def sqlFirst (codePage : CodePage) (pieces : List Piece) : Option Unit :=
  if (emitted codePage pieces).length < 1000 then some () else none

namespace Host

/-- The line about a statement that has failed. -/
def logError (host : Host) (place : String) : Option Unit :=
  if host.error = -1 then
    host.log.log (wideText ("SQL: Can not connect (users)" ++ place))
  else if host.error = -2 then
    host.log.log (wideText ("SQL: Can not query (users)" ++ place))
  else
    some ()

def setUserConnState (host : Host) (nId : AccountId) (bOnline : ℤ) : Option Unit := do
  sqlFirst host.codePage
    [.text "UPDATE users SET user_con_state = ", .d bOnline,
      .text ", user_token = '' WHERE NO = ", .d nId.toBitVec.toInt]
  host.logError " for update in SetUserOnline"

def updateUserInfo (host : Host) (nId : AccountId)
    (strDeviceNum strStartTime strFinishTime : CText) (nConnState : ℤ) (strToken : CText) :
    Option Unit := do
  sqlFirst host.codePage
    ((updateUserInfoQuery nId strDeviceNum strStartTime strFinishTime nConnState strToken
      host.ip).pieces strDeviceNum)
  host.logError " for update in UpdateUserInfo"

end Host

/-- The expiry that `CheckLogin` hands on: the subscription of an account without a start begins
now. -/
def finishTime (environment : Environment) (strId : CText) (row : UserRow) : CText :=
  if row.userStartDatetime.isEmpty ∨ row.userStartDatetime = nullText ∨
      row.userStartDatetime = zeroDateText then
    (environment.clock strId).format
      ((environment.clock strId).localTime + row.userAccType * 24 * 3600)
  else
    row.userEndDatetime

theorem invalidAccount_ne_success : LoginResult.invalidAccount ≠ .success := by decide

theorem expired_ne_success : LoginResult.expired ≠ .success := by decide

/-- The values that `CheckLogin` returns by reference. -/
structure LoginValues where
  nID : AccountId
  strExpiredTime : CText
  strToken : CText

namespace Server

/-- `CheckAnotherLogin` with its lines. -/
def runCheckAnotherLogin (server : Server) (host : Host) (nId : AccountId)
    (session : SessionPtr) : Option Server :=
  match server.sessionmap nId with
  | none => some server
  | some other =>
      let place := decimal nId.toBitVec.toInt ++ wideText ", Socket = " ++
        hexadecimal (host.socket other)
      if session = other then do
        host.log.log (wideText "Relogin ID = " ++ place)
        return server
      else do
        host.log.log (wideText "Duplicate login ID = " ++ place)
        host.setUserConnState nId 0
        return server.evict nId other .duplicate

/-- `CheckLogin` with its lines and buffers, and what it leaves in the references. -/
def runCheckLogin (server : Server) (host : Host) (session : SessionPtr)
    (strId strPwd strDeviceNum : CText) : Option (Verdict × LoginValues × Server) :=
  let environment := host.environment
  let refused : Verdict × LoginValues × Server :=
    (.refused .invalidAccount invalidAccount_ne_success, ⟨0, .empty, .empty⟩, server)
  if strId.isEmpty || strPwd.isEmpty || strDeviceNum.isEmpty then do
    host.log.log (wideText "Invalid packet")
    return refused
  else do
    sqlFirst host.codePage ((checkLoginQuery strId).pieces strId)
    match environment.users strId with
    | .canNotConnect =>
        host.log.log (wideText "SQL: Can not connect (users) in CheckLogin")
        return refused
    | .canNotQuery =>
        host.log.log (wideText "SQL: Can not query (users) in CheckLogin")
        return refused
    | .noRow =>
        host.log.log (wideText "SQL: Can not fetch (users) in CheckLogin: " ++ strId.val)
        return refused
    | .row row =>
        if strPwd = row.userPassword then
          if strDeviceNum = row.userDeviceNum ∨ row.userDeviceNum.isEmpty ∨
              row.userDeviceNum = nullText then
            let clock := environment.clock strId
            let expTime := (clock.parseDateTime row.userEndDatetime).getD clock.currentTime
            let sysTime := clock.localTime
            if expTime > sysTime then
              let strExpiredTime := finishTime environment strId row
              let server ← server.runCheckAnotherLogin host row.no session
              let copied ← tokenBuffer strDeviceNum strId (clock.format clock.currentTime) row.no
              let strToken := environment.getSha1 copied
              host.updateUserInfo row.no strDeviceNum (startTime environment strId row)
                strExpiredTime 1 strToken
              return (.granted row.no strExpiredTime strToken,
                ⟨row.no, strExpiredTime, strToken⟩, server)
            else
              host.log.log (wideText "Expired Account [" ++ (row.userEndDatetime.val ++
                wideText "]"))
              return (.refused .expired expired_ne_success, ⟨0, row.userEndDatetime, .empty⟩,
                server)
          else
            host.log.log (wideText "Invalid Device [" ++ (row.userDeviceNum.val ++ wideText "]"))
            return refused
        else
          host.log.log (wideText "Invalid Password [" ++ (row.userPassword.val ++ wideText "]"))
          return refused

/-- The line about a finished check. -/
def retCodeLine (nRetCode : LoginResult) (values : LoginValues) : List WChar :=
  wideText "---- RetCode = " ++ decimal nRetCode.code ++ wideText ", ID = " ++
    decimal values.nID.toBitVec.toInt ++ wideText ", Expired = " ++ values.strExpiredTime.val ++
    wideText ", Token = " ++ values.strToken.val

/-- A turn of the loop of `HandleLogin` with its lines. -/
def runLoginAccount (server : Server) (host : Host) (session : SessionPtr)
    (strDeviceNum : CText) (values : LoginValues) (strId strPwd : CText)
    (later : List (CText × CText)) : Option (Verdict × LoginValues × Server) := do
  host.log.log (wideText "Account = " ++ (strId.val ++ (wideText ", Pwd = " ++ strPwd.val)))
  let checked ←
    if strId ∈ later.map Prod.fst then
      some (.refused .duplicate LoginResult.duplicate_ne_success, values, server)
    else
      server.runCheckLogin host session strId strPwd strDeviceNum
  host.log.log (retCodeLine checked.1.nRet checked.2.1)
  return (checked.1, checked.2.1, checked.2.2.enter session checked.1)

/-- The loop of `HandleLogin` with its lines. -/
def runLoginAccounts (server : Server) (host : Host) (session : SessionPtr)
    (strDeviceNum : CText) (values : LoginValues) :
    List (CText × CText) → Option (List Verdict × Server)
  | [] => some ([], server)
  | (strId, strPwd) :: later => do
      let turn ← server.runLoginAccount host session strDeviceNum values strId strPwd later
      let rest ← turn.2.2.runLoginAccounts host session strDeviceNum turn.2.1 later
      return (turn.1 :: rest.1, rest.2)

/-- `HandleLogin` with its lines and the packet it answers in. -/
def runHandleLogin (server : Server) (host : Host) (session : SessionPtr) (packet : Buffer) :
    Option Server :=
  match readRequest packet with
  | none => some server
  | some (accounts, strDeviceNum) => do
      host.log.log (wideText "OP = " ++ decimal packet.opcode.toNat ++ wideText ", Count = " ++
        decimal accounts.length ++ wideText ", Device = " ++ (strDeviceNum.val ++
          (wideText ", Socket = " ++ hexadecimal (host.socket session))))
      let checked ← server.runLoginAccounts host session strDeviceNum ⟨host.nID, .empty, .empty⟩
        accounts
      let ack := loginAck checked.1
      let _ ← buildPacket .blank ack.bOpcode ack.fields
      return checked.2.sendPacket session ack

end Server

section Buffers

theorem length_narrowed_le (codePage : CodePage) (str : CText) :
    (codePage.narrowed str).length ≤ 5 * str.val.length := by
  have bytes : ∀ size ∈ str.val.map fun char => ((codePage.wctomb char).getD []).length,
      size ≤ 5 := by
    intro size size_mem
    rcases List.mem_map.mp size_mem with ⟨char, char_mem, rfl⟩
    cases converted : codePage.wctomb char with
    | none => exact Nat.zero_le _
    | some bytes => exact codePage.short char bytes converted
  have sum_le := List.sum_le_card_nsmul _ 5 bytes
  rw [List.length_map, Nat.nsmul_eq_mul, Nat.mul_comm] at sum_le
  rwa [CodePage.narrowed, List.length_flatMap]

/-- No more is written than the pieces hold. -/
theorem length_emitted_le (codePage : CodePage) (pieces : List Piece) :
    (emitted codePage pieces).length ≤
      (pieces.map fun piece => (piece.chars codePage).length).sum := by
  induction pieces with
  | nil => exact Nat.zero_le _
  | cons piece rest ih =>
      have goesOn : (piece.chars codePage ++ emitted codePage rest).length ≤
          ((piece :: rest).map fun piece => (piece.chars codePage).length).sum := by
        rw [List.length_append, List.map_cons, List.sum_cons]
        exact Nat.add_le_add_left ih _
      cases piece with
      | text chars => exact goesOn
      | s str => exact goesOn
      | d value => exact goesOn
      | S str =>
          rw [emitted]
          split
          · exact goesOn
          · have whole : codePage.narrowed str =
                (str.val.takeWhile fun char => (codePage.wctomb char).isSome).flatMap
                    (fun char => (codePage.wctomb char).getD []) ++
                  (str.val.dropWhile fun char => (codePage.wctomb char).isSome).flatMap
                    fun char => (codePage.wctomb char).getD [] := by
              rw [← List.flatMap_append, List.takeWhile_append_dropWhile, CodePage.narrowed]
            have lengths := congrArg List.length whole
            rw [List.length_append] at lengths
            rw [List.map_cons, List.sum_cons, Piece.chars]
            omega

theorem sqlFirst_eq {codePage : CodePage} {pieces : List Piece}
    (fits : (pieces.map fun piece => (piece.chars codePage).length).sum < 1000) :
    sqlFirst codePage pieces = some () :=
  if_pos ((length_emitted_le codePage pieces).trans_lt fits)

theorem length_narrowed_of_plain (codePage : CodePage) {str : CText} {room : ℕ}
    (plain : PlainText room str.val) : (codePage.narrowed str).length ≤ room := by
  rw [CodePage.narrowed_of_ascii fun char char_mem => (plain.2 char char_mem).1, List.length_map]
  exact plain.1

theorem length_toString_le (value : ℤ) (small : value.natAbs < 10 ^ 10) :
    (ascii (toString value)).length ≤ 11 := by
  have digits := (plainText_decimal small).1
  rw [decimal, wideText, List.length_map] at digits
  rwa [ascii, List.length_map]

theorem natAbs_toInt_lt (nId : AccountId) : nId.toBitVec.toInt.natAbs < 10 ^ 10 := by
  have below := nId.toBitVec.toInt_lt
  have above := nId.toBitVec.le_toInt
  omega

theorem wideText_append (front back : String) :
    wideText (front ++ back) = wideText front ++ wideText back := by
  simp only [wideText, String.toList_append, List.map_append]

namespace Host

variable (host : Host)

theorem logError_eq {place : String} (plain : PlainText 100 (wideText place)) :
    host.logError place = some () := by
  have connect : PlainText 33 (wideText "SQL: Can not connect (users)") := by decide
  have query : PlainText 33 (wideText "SQL: Can not query (users)") := by decide
  have isLong : ∀ text : List WChar, 5 ≤ text.length → 5 ≤ (text ++ wideText place).length := by
    intro text long
    rw [List.length_append]
    omega
  simp only [logError, wideText_append]
  split_ifs
  · have line := connect.append plain
    exact host.log.log_plain ⟨line.1.trans (by decide), line.2⟩ (isLong _ (by decide))
  · have line := query.append plain
    exact host.log.log_plain ⟨line.1.trans (by decide), line.2⟩ (isLong _ (by decide))
  · rfl

theorem setUserConnState_eq (nId : AccountId) {bOnline : ℤ} (small : bOnline.natAbs < 10 ^ 10) :
    host.setUserConnState nId bOnline = some () := by
  have state := length_toString_le bOnline small
  have number := length_toString_le _ (natAbs_toInt_lt nId)
  have front : (ascii "UPDATE users SET user_con_state = ").length = 34 := by decide +kernel
  have back : (ascii ", user_token = '' WHERE NO = ").length = 29 := by decide +kernel
  rw [setUserConnState, sqlFirst_eq, host.logError_eq (by decide)]
  · rfl
  · simp only [List.map_cons, List.map_nil, List.sum_cons, List.sum_nil, Piece.chars, front, back]
    omega

end Host

/-- Taking an account from another session always goes on. -/
theorem Server.runCheckAnotherLogin_eq (server : Server) (host : Host) (nId : AccountId)
    (session : SessionPtr) :
    server.runCheckAnotherLogin host nId session =
      some (server.checkAnotherLogin nId session) := by
  simp only [runCheckAnotherLogin, checkAnotherLogin]
  cases server.sessionmap nId with
  | none => rfl
  | some other =>
      have socket : PlainText 11 (wideText ", Socket = ") := by decide
      have relogin : PlainText 13 (wideText "Relogin ID = ") := by decide
      have duplicate : PlainText 21 (wideText "Duplicate login ID = ") := by decide
      have place := ((plainText_decimal (natAbs_toInt_lt nId)).append socket).append
        (plainText_hexadecimal (host.socket other))
      have isLong : ∀ front back : List WChar, 5 ≤ front.length → 5 ≤ (front ++ back).length := by
        intro front back long
        rw [List.length_append]
        omega
      have first := relogin.append place
      have second := duplicate.append place
      simp only
      rw [host.log.log_plain ⟨first.1.trans (by decide), first.2⟩ (isLong _ _ (by decide)),
        host.log.log_plain ⟨second.1.trans (by decide), second.2⟩ (isLong _ _ (by decide)),
        host.setUserConnState_eq nId (by decide)]
      split_ifs
      · rfl
      · rfl

end Buffers

/-- Dates, digests and addresses look as usual. -/
structure Host.Ordinary (host : Host) : Prop where
  rows : ∀ name row, host.environment.users name = .row row →
    PlainText 19 row.userStartDatetime.val ∧ PlainText 19 row.userEndDatetime.val
  times : ∀ name time, PlainText 19 ((host.environment.clock name).format time).val ∧
    ((host.environment.clock name).format time).val.length = 19
  digests : ∀ bytes, PlainText 40 (host.environment.getSha1 bytes).val ∧
    (host.environment.getSha1 bytes).val.length = 40
  ip : host.ip.length ≤ 64

/-- A looked-up line does the check of an account no harm: its texts are logged where they differ
from the request, and the token of a granted account fits. -/
structure Host.Handles (host : Host) (strDeviceNum strId strPwd : CText) (row : UserRow) :
    Prop where
  password : strPwd ≠ row.userPassword →
    row.userPassword.val.length ≤ 4076 ∧ host.log.Prints row.userPassword.val
  device : strPwd = row.userPassword →
    ¬ (strDeviceNum = row.userDeviceNum ∨ row.userDeviceNum.isEmpty ∨
      row.userDeviceNum = nullText) →
    row.userDeviceNum.val.length ≤ 4078 ∧ host.log.Prints row.userDeviceNum.val
  token : Grants host.environment strId strPwd strDeviceNum row →
    strDeviceNum.val.length + strId.val.length ≤ 79

/-- Nothing that is found out about an account does harm. -/
def Host.Handled (host : Host) (strDeviceNum strId strPwd : CText) : Prop :=
  ¬ (strId.isEmpty || strPwd.isEmpty || strDeviceNum.isEmpty) →
    ∀ row, host.environment.users strId = .row row → host.Handles strDeviceNum strId strPwd row

section Checks

variable {host : Host} {server : Server} {session : SessionPtr}
  {strId strPwd strDeviceNum : CText}

/-- A logged line about a text, in brackets. -/
theorem LogSink.log_brackets_isSome_iff (sink : LogSink) (front : List WChar) (room : ℕ)
    (plain : ∀ char ∈ front, IsPlain char) (long : 5 ≤ front.length)
    (whole : front.length + room = 4094) (text : List WChar) :
    (sink.log (front ++ (text ++ wideText "]"))).isSome ↔
      text.length ≤ room ∧ sink.Prints text := by
  have bracket : ∀ char ∈ wideText "]", IsPlain char := by decide
  have prints := sink.prints_append_plain_iff bracket (by decide) text []
  rw [List.append_nil] at prints
  rw [sink.log_isSome_iff plain long, prints]
  have one : (wideText "]").length = 1 := by decide
  simp only [List.length_append, one, sink.prints_nil, and_true]
  refine and_congr_left fun _ => ?_
  omega

theorem updateUserInfo_eq (ordinary : host.Ordinary) (nId : AccountId)
    {strStartTime strFinishTime strToken : CText} (short : strDeviceNum.val.length ≤ 79)
    (start : PlainText 19 strStartTime.val) (finish : PlainText 19 strFinishTime.val)
    (token : PlainText 40 strToken.val) :
    host.updateUserInfo nId strDeviceNum strStartTime strFinishTime 1 strToken = some () := by
  have number := length_toString_le _ (natAbs_toInt_lt nId)
  have state := length_toString_le 1 (by decide)
  have device := length_narrowed_le host.codePage strDeviceNum
  have startBytes := length_narrowed_of_plain host.codePage start
  have finishBytes := length_narrowed_of_plain host.codePage finish
  have tokenBytes := length_narrowed_of_plain host.codePage token
  have ip := ordinary.ip
  rw [Host.updateUserInfo, sqlFirst_eq, host.logError_eq (by decide)]
  · rfl
  · have texts : (ascii "UPDATE users SET user_device_num = '").length = 36 ∧
        (ascii "', user_start_datetime = '").length = 26 ∧
        (ascii "', user_end_datetime = '").length = 24 ∧
        (ascii "', user_token = '").length = 17 ∧
        (ascii "', user_con_state = ").length = 20 ∧
        (ascii ", user_connect_time = NOW(), user_ip = '").length = 40 ∧
        (ascii "' WHERE NO = ").length = 13 := by decide +kernel
    rcases texts with ⟨first, second, third, fourth, fifth, sixth, last⟩
    simp only [Query.pieces, updateUserInfoQuery, List.map_cons, List.map_nil, List.sum_cons,
      List.sum_nil, Piece.chars, first, second, third, fourth, fifth, sixth, last]
    omega

theorem checkLoginQuery_eq (short : strId.val.length ≤ 99) :
    sqlFirst host.codePage ((checkLoginQuery strId).pieces strId) = some () := by
  have name := length_narrowed_le host.codePage strId
  have front : (ascii selectUser).length = 141 := by decide +kernel
  have back : (ascii "'").length = 1 := by decide +kernel
  apply sqlFirst_eq
  simp only [Query.pieces, checkLoginQuery, List.map_cons, List.map_nil, List.sum_cons,
    List.sum_nil, Piece.chars, front, back]
  omega

/-- The texts that a check leaves in the references can be logged. -/
def LoginValues.Plain (values : LoginValues) : Prop :=
  PlainText 40 values.strExpiredTime.val ∧ PlainText 40 values.strToken.val

/-- The check of an account comes to the end that `checkLogin` says. -/
def Server.ChecksAs (server : Server) (host : Host) (session : SessionPtr)
    (strId strPwd strDeviceNum : CText) : Prop :=
  ∃ values : LoginValues, values.Plain ∧
    server.runCheckLogin host session strId strPwd strDeviceNum =
      some ((server.checkLogin host.environment session strId strPwd strDeviceNum).1, values,
        (server.checkLogin host.environment session strId strPwd strDeviceNum).2)

theorem Grants.verdict_eq {environment : Environment} {row : UserRow}
    (grants : Grants environment strId strPwd strDeviceNum row) :
    checkLoginVerdict environment strId strPwd strDeviceNum =
      .granted row.no (finishTime environment strId row)
        (generateToken environment strDeviceNum strId row.no) := by
  rw [checkLoginVerdict, if_neg grants.filled, grants.answer]
  simp only [if_pos grants.password, if_pos grants.device, gt_iff_lt, if_pos grants.running]
  rfl

/-- The granted end of a check: everything but the token has room. -/
theorem runCheckLogin_granted (server : Server) (session : SessionPtr)
    (ordinary : host.Ordinary) (shortId : strId.val.length ≤ 99)
    {row : UserRow} (grants : Grants host.environment strId strPwd strDeviceNum row) :
    (strDeviceNum.val.length + strId.val.length ≤ 79 →
        server.ChecksAs host session strId strPwd strDeviceNum) ∧
      ((server.runCheckLogin host session strId strPwd strDeviceNum).isSome →
        strDeviceNum.val.length + strId.val.length ≤ 79) := by
  have time := (ordinary.times strId (host.environment.clock strId).currentTime).2
  have start : PlainText 19 (startTime host.environment strId row).val := by
    rw [startTime]
    split
    · exact (ordinary.times strId _).1
    · exact (ordinary.rows strId row grants.answer).1
  have finish : PlainText 19 (finishTime host.environment strId row).val := by
    rw [finishTime]
    split
    · exact (ordinary.times strId _).1
    · exact (ordinary.rows strId row grants.answer).2
  have run_eq : server.runCheckLogin host session strId strPwd strDeviceNum =
      (tokenBuffer strDeviceNum strId ((host.environment.clock strId).format
        (host.environment.clock strId).currentTime) row.no).bind fun copied =>
        (host.updateUserInfo row.no strDeviceNum (startTime host.environment strId row)
          (finishTime host.environment strId row) 1 (host.environment.getSha1 copied)).bind fun _ =>
          some (.granted row.no (finishTime host.environment strId row)
              (host.environment.getSha1 copied),
            ⟨row.no, finishTime host.environment strId row, host.environment.getSha1 copied⟩,
            server.checkAnotherLogin row.no session) := by
    simp only [Server.runCheckLogin, if_neg grants.filled, checkLoginQuery_eq shortId,
      grants.answer, if_pos grants.password, if_pos grants.device, gt_iff_lt,
      if_pos grants.running, Server.runCheckAnotherLogin_eq, Option.bind_eq_bind,
      Option.bind_some, Option.pure_def]
  rw [Server.ChecksAs, Server.checkLogin, grants.verdict_eq, run_eq]
  have room : (tokenBuffer strDeviceNum strId ((host.environment.clock strId).format
      (host.environment.clock strId).currentTime) row.no).isSome ↔ _ := tokenBuffer_isSome_iff
  rw [time] at room
  constructor
  · intro short
    rcases Option.isSome_iff_exists.mp (room.mpr (by omega)) with ⟨copied, copies⟩
    have token := (ordinary.digests copied).1
    refine ⟨⟨row.no, finishTime host.environment strId row, host.environment.getSha1 copied⟩,
      ⟨⟨finish.1.trans (by decide), finish.2⟩, token⟩, ?_⟩
    rw [generateToken_eq copies, copies, Option.bind_some,
      updateUserInfo_eq ordinary row.no (by omega) start finish token, Option.bind_some]
  · intro isSome
    by_contra tooLong
    have overflows : tokenBuffer strDeviceNum strId ((host.environment.clock strId).format
        (host.environment.clock strId).currentTime) row.no = none := by
      rw [← Option.not_isSome_iff_eq_none, room]
      omega
    rw [overflows] at isSome
    cases isSome

/-- A refused end of a check: the line about it has to be logged. -/
theorem checksAs_of_log (server : Server) (session : SessionPtr) {nRet : LoginResult}
    (refusal : nRet ≠ .success) (line : List WChar) {values : LoginValues} (plain : values.Plain)
    (verdict : checkLoginVerdict host.environment strId strPwd strDeviceNum =
      .refused nRet refusal)
    (run_eq : server.runCheckLogin host session strId strPwd strDeviceNum =
      (host.log.log line).bind fun _ => some (.refused nRet refusal, values, server)) :
    ((host.log.log line).isSome → server.ChecksAs host session strId strPwd strDeviceNum) ∧
      ((server.runCheckLogin host session strId strPwd strDeviceNum).isSome →
        (host.log.log line).isSome) := by
  rw [Server.ChecksAs, Server.checkLogin, verdict, run_eq]
  cases host.log.log line with
  | none => simp
  | some logged => exact ⟨fun _ => ⟨values, plain, rfl⟩, fun _ => rfl⟩

theorem LoginValues.plain_expired (nID : AccountId) {strExpiredTime : CText}
    (plain : PlainText 19 strExpiredTime.val) :
    LoginValues.Plain ⟨nID, strExpiredTime, .empty⟩ := by
  have empty : PlainText 40 CText.empty.val := by decide
  exact ⟨⟨plain.1.trans (by decide), plain.2⟩, empty⟩

theorem LoginValues.plain_empty : LoginValues.Plain ⟨0, .empty, .empty⟩ :=
  LoginValues.plain_expired 0 (by decide)

/-- An account without a line is refused. -/
theorem checksAs_of_unknown (server : Server) (session : SessionPtr)
    (prints : host.log.Prints strId.val) (shortId : strId.val.length ≤ 99)
    (unknown : (strId.isEmpty || strPwd.isEmpty || strDeviceNum.isEmpty) ∨
      ∀ row, host.environment.users strId ≠ .row row) :
    server.ChecksAs host session strId strPwd strDeviceNum := by
  by_cases empty : strId.isEmpty || strPwd.isEmpty || strDeviceNum.isEmpty
  · apply (checksAs_of_log server session invalidAccount_ne_success (wideText "Invalid packet")
      LoginValues.plain_empty ?_ ?_).1
    · rw [host.log.log_plain (by decide) (by decide), Option.isSome_some]
    · rw [checkLoginVerdict, if_pos empty]
    · rw [Server.runCheckLogin, if_pos empty]
      rfl
  · cases answer : host.environment.users strId with
    | canNotConnect =>
        apply (checksAs_of_log server session invalidAccount_ne_success
          (wideText "SQL: Can not connect (users) in CheckLogin") LoginValues.plain_empty ?_ ?_).1
        · rw [host.log.log_plain (by decide) (by decide), Option.isSome_some]
        · rw [checkLoginVerdict, if_neg empty, answer]
        · rw [Server.runCheckLogin, if_neg empty, checkLoginQuery_eq shortId, answer]
          rfl
    | canNotQuery =>
        apply (checksAs_of_log server session invalidAccount_ne_success
          (wideText "SQL: Can not query (users) in CheckLogin") LoginValues.plain_empty ?_ ?_).1
        · rw [host.log.log_plain (by decide) (by decide), Option.isSome_some]
        · rw [checkLoginVerdict, if_neg empty, answer]
        · rw [Server.runCheckLogin, if_neg empty, checkLoginQuery_eq shortId, answer]
          rfl
    | noRow =>
        apply (checksAs_of_log server session invalidAccount_ne_success
          (wideText "SQL: Can not fetch (users) in CheckLogin: " ++ strId.val)
          LoginValues.plain_empty ?_ ?_).1
        · rw [LogSink.log_isSome_iff _ (by decide) (by decide)]
          have front : (wideText "SQL: Can not fetch (users) in CheckLogin: ").length = 42 := by
            decide
          refine ⟨?_, prints⟩
          rw [List.length_append, front]
          omega
        · rw [checkLoginVerdict, if_neg empty, answer]
        · rw [Server.runCheckLogin, if_neg empty, checkLoginQuery_eq shortId, answer]
          rfl
    | row row =>
        rcases unknown with isEmpty | noRow
        · exact absurd isEmpty empty
        · exact absurd answer (noRow row)

/-- An account that is not granted is refused, when the texts about it are logged. -/
theorem runCheckLogin_refused (server : Server) (session : SessionPtr) (ordinary : host.Ordinary)
    (shortId : strId.val.length ≤ 99)
    (filled : ¬ (strId.isEmpty || strPwd.isEmpty || strDeviceNum.isEmpty)) {row : UserRow}
    (answer : host.environment.users strId = .row row)
    (refused : ¬ Grants host.environment strId strPwd strDeviceNum row) :
    (host.Handles strDeviceNum strId strPwd row →
        server.ChecksAs host session strId strPwd strDeviceNum) ∧
      ((server.runCheckLogin host session strId strPwd strDeviceNum).isSome →
        host.Handles strDeviceNum strId strPwd row) := by
  by_cases password : strPwd = row.userPassword
  · by_cases device : strDeviceNum = row.userDeviceNum ∨ row.userDeviceNum.isEmpty ∨
        row.userDeviceNum = nullText
    · have expired := (ordinary.rows strId row answer).2
      have ended : ¬ (host.environment.clock strId).localTime <
          ((host.environment.clock strId).parseDateTime row.userEndDatetime).getD
            (host.environment.clock strId).currentTime :=
        fun running => refused ⟨filled, answer, password, device, running⟩
      refine ⟨fun _ => ?_, fun _ => ⟨fun differs => absurd password differs,
        fun _ other => absurd device other, fun grants => absurd grants refused⟩⟩
      apply (checksAs_of_log server session expired_ne_success
        (wideText "Expired Account [" ++ (row.userEndDatetime.val ++ wideText "]"))
        (LoginValues.plain_expired 0 expired) ?_ ?_).1
      · rw [host.log.log_brackets_isSome_iff _ 4077 (by decide) (by decide) (by decide)]
        exact ⟨expired.1.trans (by decide), LogSink.prints_of_plain _ expired.2⟩
      · rw [checkLoginVerdict, if_neg filled, answer]
        simp only [if_pos password, if_pos device, gt_iff_lt, if_neg ended]
      · rw [Server.runCheckLogin, if_neg filled, checkLoginQuery_eq shortId, answer]
        simp only [if_pos password, if_pos device, gt_iff_lt, if_neg ended]
        rfl
    · have logged := host.log.log_brackets_isSome_iff (wideText "Invalid Device [") 4078
        (by decide) (by decide) (by decide) row.userDeviceNum.val
      have verdict : checkLoginVerdict host.environment strId strPwd strDeviceNum =
          .refused .invalidAccount invalidAccount_ne_success := by
        rw [checkLoginVerdict, if_neg filled, answer]
        simp only [if_pos password, if_neg device]
      have ends := checksAs_of_log server session invalidAccount_ne_success
        (wideText "Invalid Device [" ++ (row.userDeviceNum.val ++ wideText "]"))
        LoginValues.plain_empty verdict (by
          rw [Server.runCheckLogin, if_neg filled, checkLoginQuery_eq shortId, answer]
          simp only [if_pos password, if_neg device]
          rfl)
      exact ⟨fun handles => ends.1 (logged.mpr (handles.device password device)),
        fun isSome => ⟨fun differs => absurd password differs,
          fun _ _ => logged.mp (ends.2 isSome), fun grants => absurd grants refused⟩⟩
  · have logged := host.log.log_brackets_isSome_iff (wideText "Invalid Password [") 4076
      (by decide) (by decide) (by decide) row.userPassword.val
    have verdict : checkLoginVerdict host.environment strId strPwd strDeviceNum =
        .refused .invalidAccount invalidAccount_ne_success := by
      rw [checkLoginVerdict, if_neg filled, answer]
      simp only [if_neg password]
    have ends := checksAs_of_log server session invalidAccount_ne_success
      (wideText "Invalid Password [" ++ (row.userPassword.val ++ wideText "]"))
      LoginValues.plain_empty verdict (by
        rw [Server.runCheckLogin, if_neg filled, checkLoginQuery_eq shortId, answer]
        simp only [if_neg password]
        rfl)
    exact ⟨fun handles => ends.1 (logged.mpr (handles.password password)),
      fun isSome => ⟨fun _ => logged.mp (ends.2 isSome), fun same => absurd same password,
        fun grants => absurd grants.password password⟩⟩

/-- The check of an account comes to its end exactly when nothing about the account does harm. -/
theorem runCheckLogin_iff (server : Server) (session : SessionPtr) (ordinary : host.Ordinary)
    (prints : host.log.Prints strId.val) (shortId : strId.val.length ≤ 99) :
    (host.Handled strDeviceNum strId strPwd →
        server.ChecksAs host session strId strPwd strDeviceNum) ∧
      ((server.runCheckLogin host session strId strPwd strDeviceNum).isSome →
        host.Handled strDeviceNum strId strPwd) := by
  by_cases known : ¬ (strId.isEmpty || strPwd.isEmpty || strDeviceNum.isEmpty) ∧
      ∃ row, host.environment.users strId = .row row
  · rcases known with ⟨filled, row, answer⟩
    have handled_iff : host.Handled strDeviceNum strId strPwd ↔
        host.Handles strDeviceNum strId strPwd row := by
      refine ⟨fun handled => handled filled row answer, fun handles _ other found => ?_⟩
      rw [answer] at found
      cases found
      exact handles
    rw [handled_iff]
    by_cases grants : Grants host.environment strId strPwd strDeviceNum row
    · rcases runCheckLogin_granted server session ordinary shortId grants with ⟨ends, short⟩
      refine ⟨fun handles => ends (handles.token grants), fun isSome => ?_⟩
      exact ⟨fun differs => absurd grants.password differs,
        fun _ other => absurd grants.device other, fun _ => short isSome⟩
    · exact runCheckLogin_refused server session ordinary shortId filled answer grants
  · have unknown : (strId.isEmpty || strPwd.isEmpty || strDeviceNum.isEmpty) ∨
        ∀ row, host.environment.users strId ≠ .row row := by
      by_contra both
      rw [not_or, not_forall] at both
      rcases both with ⟨filled, row, answer⟩
      exact known ⟨filled, row, not_not.mp answer⟩
    refine ⟨fun _ => checksAs_of_unknown server session prints shortId unknown, ?_⟩
    exact fun _ filled row answer => absurd ⟨filled, row, answer⟩ known

end Checks

/-- No account of a request does harm: names and passwords print, and so does what the database
says about those that are not named again. -/
structure Host.Answers (host : Host) (strDeviceNum : CText) (accounts : List (CText × CText)) :
    Prop where
  prints : ∀ account ∈ accounts, host.log.Prints account.1.val ∧ host.log.Prints account.2.val
  handled : ∀ before strId strPwd later, accounts = before ++ (strId, strPwd) :: later →
    strId ∉ later.map Prod.fst → host.Handled strDeviceNum strId strPwd

section Requests

variable {host : Host} {strDeviceNum : CText} {accounts : List (CText × CText)}

theorem answers_nil : host.Answers strDeviceNum [] where
  prints account isAccount := absurd isAccount List.not_mem_nil
  handled before strId strPwd later split_eq := absurd split_eq (by simp)

theorem answers_cons_iff {strId strPwd : CText} :
    host.Answers strDeviceNum ((strId, strPwd) :: accounts) ↔
      (host.log.Prints strId.val ∧ host.log.Prints strPwd.val) ∧
        (strId ∉ accounts.map Prod.fst → host.Handled strDeviceNum strId strPwd) ∧
        host.Answers strDeviceNum accounts := by
  constructor
  · rintro ⟨prints, handled⟩
    rw [List.forall_mem_cons] at prints
    refine ⟨prints.1, fun once => handled [] strId strPwd accounts rfl once, prints.2, ?_⟩
    intro before other otherPwd later split_eq once
    exact handled ((strId, strPwd) :: before) other otherPwd later
      (by rw [split_eq, List.cons_append]) once
  · rintro ⟨prints, first, rest⟩
    refine ⟨List.forall_mem_cons.mpr ⟨prints, rest.prints⟩, ?_⟩
    intro before other otherPwd later split_eq once
    cases before with
    | nil =>
        simp only [List.nil_append, List.cons.injEq, Prod.mk.injEq] at split_eq
        rcases split_eq with ⟨⟨rfl, rfl⟩, rfl⟩
        exact first once
    | cons account before =>
        rw [List.cons_append, List.cons.injEq] at split_eq
        exact rest.handled before other otherPwd later split_eq.2 once

/-- The line about a finished check is always logged. -/
theorem log_retCodeLine (sink : LogSink) (nRetCode : LoginResult) {values : LoginValues}
    (plain : values.Plain) : sink.log (Server.retCodeLine nRetCode values) = some () := by
  have code : PlainText 11 (decimal nRetCode.code) := by
    apply plainText_decimal
    have small := nRetCode.code_lt
    omega
  have first : PlainText 15 (wideText "---- RetCode = ") := by decide
  have second : PlainText 7 (wideText ", ID = ") := by decide
  have third : PlainText 12 (wideText ", Expired = ") := by decide
  have fourth : PlainText 10 (wideText ", Token = ") := by decide
  have line := ((((((first.append code).append second).append
    (plainText_decimal (natAbs_toInt_lt values.nID))).append third).append plain.1).append
      fourth).append plain.2
  refine sink.log_plain ⟨line.1.trans (by decide), line.2⟩ ?_
  have long : (wideText "---- RetCode = ").length = 15 := by decide
  simp only [Server.retCodeLine, List.length_append, long]
  omega

theorem log_account_isSome_iff (sink : LogSink) {strId strPwd : CText}
    (shortId : strId.val.length ≤ 99) (shortPwd : strPwd.val.length ≤ 99) :
    (sink.log (wideText "Account = " ++ (strId.val ++
        (wideText ", Pwd = " ++ strPwd.val)))).isSome ↔
      sink.Prints strId.val ∧ sink.Prints strPwd.val := by
  rw [sink.log_isSome_iff (by decide) (by decide),
    sink.prints_append_plain_iff (by decide) (by decide)]
  have front : (wideText "Account = ").length = 10 := by decide
  have middle : (wideText ", Pwd = ").length = 8 := by decide
  refine and_iff_right ?_
  simp only [List.length_append, front, middle]
  omega

/-- The verdict on an account of a request and the server behind it. -/
def Server.turn (server : Server) (environment : Environment) (session : SessionPtr)
    (strDeviceNum strId strPwd : CText) (later : List (CText × CText)) : Verdict × Server :=
  let checked :=
    if strId ∈ later.map Prod.fst then
      (.refused .duplicate LoginResult.duplicate_ne_success, server)
    else
      server.checkLogin environment session strId strPwd strDeviceNum
  (checked.1, checked.2.enter session checked.1)

/-- A turn comes to its end exactly when its account does no harm. -/
theorem runLoginAccount_iff (server : Server) (session : SessionPtr) (ordinary : host.Ordinary)
    {strId strPwd : CText} (shortId : strId.val.length ≤ 99) (shortPwd : strPwd.val.length ≤ 99)
    {values : LoginValues} (plain : values.Plain) (later : List (CText × CText)) :
    ((host.log.Prints strId.val ∧ host.log.Prints strPwd.val) ∧
          (strId ∉ later.map Prod.fst → host.Handled strDeviceNum strId strPwd) →
        ∃ left : LoginValues, left.Plain ∧
          server.runLoginAccount host session strDeviceNum values strId strPwd later =
            some ((server.turn host.environment session strDeviceNum strId strPwd later).1, left,
              (server.turn host.environment session strDeviceNum strId strPwd later).2)) ∧
      ((server.runLoginAccount host session strDeviceNum values strId strPwd later).isSome →
        (host.log.Prints strId.val ∧ host.log.Prints strPwd.val) ∧
          (strId ∉ later.map Prod.fst → host.Handled strDeviceNum strId strPwd)) := by
  have line := log_account_isSome_iff host.log shortId shortPwd
  rw [Server.runLoginAccount, Server.turn]
  cases logged : host.log.log (wideText "Account = " ++ (strId.val ++
      (wideText ", Pwd = " ++ strPwd.val))) with
  | none =>
      rw [logged] at line
      refine ⟨fun handled => ?_, by simp⟩
      exact absurd (line.mpr handled.1) (by simp)
  | some _ =>
      rw [logged] at line
      have prints := line.mp rfl
      by_cases again : strId ∈ later.map Prod.fst
      · rw [if_pos again, if_pos again]
        refine ⟨fun _ => ⟨values, plain, ?_⟩, fun _ => ⟨prints, fun once => absurd again once⟩⟩
        simp only [Option.bind_eq_bind, Option.bind_some, log_retCodeLine host.log _ plain]
        rfl
      · rw [if_neg again, if_neg again]
        rcases runCheckLogin_iff server session ordinary prints.1 shortId with ⟨checks, handled⟩
        constructor
        · intro handles
          rcases checks (handles.2 again) with ⟨left, leftPlain, run_eq⟩
          refine ⟨left, leftPlain, ?_⟩
          rw [run_eq]
          simp only [Option.bind_eq_bind, Option.bind_some, log_retCodeLine host.log _ leftPlain]
          rfl
        · intro isSome
          exact ⟨prints, fun _ => handled (Option.isSome_of_isSome_bind isSome)⟩

/-- The loop over the accounts comes to its end exactly when none of them does harm. -/
theorem runLoginAccounts_iff (session : SessionPtr) (ordinary : host.Ordinary)
    (short : ∀ account ∈ accounts, account.1.val.length ≤ 99 ∧ account.2.val.length ≤ 99)
    (server : Server) {values : LoginValues} (plain : values.Plain) :
    (host.Answers strDeviceNum accounts →
        server.runLoginAccounts host session strDeviceNum values accounts =
          some (server.loginAccounts host.environment session strDeviceNum accounts)) ∧
      ((server.runLoginAccounts host session strDeviceNum values accounts).isSome →
        host.Answers strDeviceNum accounts) := by
  induction accounts generalizing server values with
  | nil => exact ⟨fun _ => rfl, fun _ => answers_nil⟩
  | cons account later ih =>
      rcases account with ⟨strId, strPwd⟩
      rw [List.forall_mem_cons] at short
      rcases runLoginAccount_iff server session ordinary short.1.1 short.1.2 plain later with
        ⟨ends, handled⟩
      rw [Server.runLoginAccounts, answers_cons_iff, ← and_assoc]
      constructor
      · rintro ⟨first, rest⟩
        rcases ends first with ⟨left, leftPlain, turn_eq⟩
        rw [turn_eq, Option.bind_eq_bind, Option.bind_some, (ih short.2 _ leftPlain).1 rest]
        rfl
      · intro isSome
        have first := handled (Option.isSome_of_isSome_bind isSome)
        rcases ends first with ⟨left, leftPlain, turn_eq⟩
        rw [turn_eq, Option.bind_eq_bind, Option.bind_some] at isSome
        exact ⟨first, (ih short.2 _ leftPlain).2 (Option.isSome_of_isSome_bind isSome)⟩

/-- The line about a request is logged exactly when its device string prints. -/
theorem log_request_isSome_iff (sink : LogSink) (bOpcode : UInt8) {count : ℕ} (few : count < 30)
    (shortDevice : strDeviceNum.val.length ≤ maxPath) (socket : UInt32) :
    (sink.log (wideText "OP = " ++ decimal bOpcode.toNat ++ wideText ", Count = " ++
        decimal count ++ wideText ", Device = " ++ (strDeviceNum.val ++
          (wideText ", Socket = " ++ hexadecimal socket)))).isSome ↔
      sink.Prints strDeviceNum.val := by
  have opcode : PlainText 11 (decimal bOpcode.toNat) := by
    apply plainText_decimal
    have small := bOpcode.toNat_lt
    omega
  have counted : PlainText 11 (decimal count) := plainText_decimal (by omega)
  have first : PlainText 5 (wideText "OP = ") := by decide
  have second : PlainText 10 (wideText ", Count = ") := by decide
  have third : PlainText 11 (wideText ", Device = ") := by decide
  have socketText := plainText_hexadecimal socket
  have front := (((first.append opcode).append second).append counted).append third
  have five : (wideText "OP = ").length = 5 := by decide
  have eleven : (wideText ", Socket = ").length = 11 := by decide
  rw [sink.log_isSome_iff front.2, sink.prints_append_plain_iff (by decide) (by decide),
    and_iff_left (sink.prints_of_plain socketText.2)]
  · refine and_iff_right ?_
    have frontLength := front.1
    have socketLength := socketText.1
    rw [maxPath] at shortDevice
    have back : (strDeviceNum.val ++ (wideText ", Socket = " ++ hexadecimal socket)).length =
        strDeviceNum.val.length + (11 + (hexadecimal socket).length) := by
      rw [List.length_append, List.length_append, eleven]
    rw [List.length_append, back]
    omega
  · simp only [List.length_append, five]
    omega

/-- `HandleLogin` comes to its end, and then as `handleLogin` says, exactly when device string and
accounts do no harm. -/
theorem runHandleLogin_iff (server : Server) (session : SessionPtr) (ordinary : host.Ordinary)
    {packet : Buffer} (read : Server.readRequest packet = some (accounts, strDeviceNum))
    (short : ∀ account ∈ accounts, account.1.val.length ≤ 99 ∧ account.2.val.length ≤ 99) :
    (host.log.Prints strDeviceNum.val ∧ host.Answers strDeviceNum accounts →
        server.runHandleLogin host session packet =
          some (server.handleLogin host.environment session packet)) ∧
      ((server.runHandleLogin host session packet).isSome →
        host.log.Prints strDeviceNum.val ∧ host.Answers strDeviceNum accounts) := by
  rcases readRequest_capped read with ⟨few, shortDevice, -⟩
  have line := log_request_isSome_iff host.log packet.opcode few shortDevice (host.socket session)
  have noTexts : LoginValues.Plain ⟨host.nID, .empty, .empty⟩ :=
    LoginValues.plain_expired host.nID (by decide)
  rcases runLoginAccounts_iff session ordinary short server noTexts with ⟨ends, answers⟩
  simp only [Server.runHandleLogin, Server.handleLogin, read]
  constructor
  · rintro ⟨prints, handled⟩
    have texts : ∀ verdict ∈ (server.loginAccounts host.environment session strDeviceNum
        accounts).1, verdict.ShortTexts :=
      loginAccounts_shortTexts server (fun name row found => (ordinary.rows name row found).2.1)
        (fun name time => (ordinary.times name time).1.1) fun bytes => (ordinary.digests bytes).2
    rcases Option.isSome_iff_exists.mp (loginAck_built read texts .blank) with ⟨built, build⟩
    rw [Option.eq_some_of_isSome (line.mpr prints), Option.bind_eq_bind, Option.bind_some,
      ends handled, Option.bind_eq_bind, Option.bind_some]
    exact congrArg (Option.bind · _) build
  · intro isSome
    have prints := line.mp (Option.isSome_of_isSome_bind isSome)
    rw [Option.eq_some_of_isSome (line.mpr prints), Option.bind_eq_bind, Option.bind_some]
      at isSome
    exact ⟨prints, answers (Option.isSome_of_isSome_bind isSome)⟩

end Requests

end PoETask.AuthServer
