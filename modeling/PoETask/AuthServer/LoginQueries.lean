import Mathlib.Algebra.BigOperators.Group.List.Basic
import PoETask.AuthServer.Login
import PoETask.Library.SqlTokens

/-!
# The queries of a login

A login formats two texts from what the client sent: `CheckLogin` looks up the account
name, and `UpdateUserInfo` writes the device string of an account that is granted. Both
put the string between apostrophes as it came; nothing is escaped on the way.

`SQLFirst` formats into an array of 1000 characters. A `%S` is converted in the code page
of the user, since the dialog sets the locale to that of the system before it starts the
server. When the text does not fit or a character has no conversion there is no query.
Tokens are read byte by byte, as for a connection with a single-byte character set.
-/

namespace PoETask.AuthServer

open PoETask.Library PoETask.Wire
open SqlTokens (Token tokens walk scan quote backslash isIntact)

/-- The characters of a text in the source. -/
def ascii (text : String) : List UInt8 := text.toList.map fun char => UInt8.ofNat char.toNat

/-- A code page: the bytes of a character, where it has any. ASCII characters stand for
themselves, and no character takes more than `MB_LEN_MAX` bytes. -/
structure CodePage where
  wctomb : WChar → Option (List UInt8)
  ascii : ∀ char, char.toNat < 128 → wctomb char = some [UInt8.ofNat char.toNat]
  nonempty : ∀ char, wctomb char ≠ some []
  short : ∀ char bytes, wctomb char = some bytes → bytes.length ≤ 5

namespace CodePage

/-- The bytes of a wide string, up to characters that have none. -/
def narrowed (codePage : CodePage) (str : CText) : List UInt8 :=
  str.val.flatMap fun char => (codePage.wctomb char).getD []

def Converts (codePage : CodePage) (str : CText) : Prop :=
  ∀ char ∈ str.val, (codePage.wctomb char).isSome

instance (codePage : CodePage) (str : CText) : Decidable (codePage.Converts str) :=
  List.decidableBAll (fun char : WChar => (codePage.wctomb char).isSome) str.val

variable {codePage : CodePage} {str : CText}

theorem narrowed_of_ascii (isAscii : ∀ char ∈ str.val, char.toNat < 128) :
    codePage.narrowed str = str.val.map fun char => UInt8.ofNat char.toNat := by
  have bytes : ∀ char ∈ str.val,
      (codePage.wctomb char).getD [] = [UInt8.ofNat char.toNat] := by
    intro char char_mem
    rw [codePage.ascii char (isAscii char char_mem), Option.getD_some]
  rw [narrowed, List.flatMap_congr bytes, ← List.map_eq_flatMap]

end CodePage

/-- A format, split at its conversions, with their arguments. -/
inductive Piece where
  | text (chars : String)
  | s (str : List UInt8)
  | S (str : CText)
  | d (value : ℤ)

namespace Piece

def chars (codePage : CodePage) : Piece → List UInt8
  | .text chars => ascii chars
  | .s str => str
  | .S str => codePage.narrowed str
  | .d value => ascii (toString value)

/-- Every wide character has a conversion. -/
def Converts (codePage : CodePage) : Piece → Prop
  | .S str => codePage.Converts str
  | _ => True

instance (codePage : CodePage) : DecidablePred (Converts codePage)
  | .text _ => inferInstanceAs (Decidable True)
  | .s _ => inferInstanceAs (Decidable True)
  | .S str => inferInstanceAs (Decidable (codePage.Converts str))
  | .d _ => inferInstanceAs (Decidable True)

end Piece

/-- `vsprintf_s` converts its arguments, and the text fits its buffer with the terminator. -/
def Formats (codePage : CodePage) (size : ℕ) (pieces : List Piece) : Prop :=
  (∀ piece ∈ pieces, piece.Converts codePage) ∧
    (pieces.flatMap (Piece.chars codePage)).length < size

instance (codePage : CodePage) (size : ℕ) (pieces : List Piece) :
    Decidable (Formats codePage size pieces) :=
  inferInstanceAs (Decidable (_ ∧ _))

def vsprintf (codePage : CodePage) (size : ℕ) (pieces : List Piece) : Option (List UInt8) :=
  if Formats codePage size pieces then some (pieces.flatMap (Piece.chars codePage)) else none

/-- A call of `SQLFirst`, cut at the conversion of a client string: the text in front of it ends
with the apostrophe that opens a literal, and what follows begins with the one that closes it. -/
structure Query where
  front : String
  client : CText
  back : List Piece
  opens : (walk .start (ascii front)).2 = .quoted quote []
  closes : ∀ codePage, ∃ tail, back.flatMap (Piece.chars codePage) = quote :: tail ∧
    tail.head? ≠ some quote

namespace Query

def pieces (query : Query) (client : CText) : List Piece :=
  .text query.front :: .S client :: query.back

/-- The text that `SQLFirst` formats with some string in the place of the client string. -/
def text (query : Query) (codePage : CodePage) (client : CText) : Option (List UInt8) :=
  vsprintf codePage 1000 (query.pieces client)

end Query

/-- The rest of a format that goes on behind the closing apostrophe. -/
theorem closes_of_text {chars : String} {pieces : List Piece}
    (head : (ascii chars).head? = some quote) (second : (ascii chars).tail.head?.isSome)
    (single : (ascii chars).tail.head? ≠ some quote) (codePage : CodePage) :
    ∃ tail, (Piece.text chars :: pieces).flatMap (Piece.chars codePage) = quote :: tail
      ∧ tail.head? ≠ some quote := by
  rw [List.flatMap_cons]
  simp only [Piece.chars]
  cases chars_eq : ascii chars with
  | nil => simp [chars_eq] at head
  | cons first rest =>
      rw [chars_eq] at head second single
      cases rest with
      | nil => simp at second
      | cons next rest =>
          obtain rfl : first = quote := by simpa using head
          exact ⟨_, rfl, by simpa using single⟩

/-- The text of the lookup in front of the account name. -/
def selectUser : String :=
  "SELECT no, user_password, user_device_num, user_start_datetime, user_end_datetime, "
    ++ "user_con_state, user_acc_type FROM users WHERE user_id = '"

/-- The lookup of `CheckLogin`. -/
def checkLoginQuery (strId : CText) : Query where
  front := selectUser
  client := strId
  back := [.text "'"]
  opens := by decide +kernel
  closes _ := ⟨[], rfl, by decide⟩

/-- The update of `UpdateUserInfo`. -/
def updateUserInfoQuery (nId : AccountId) (strDeviceNum strStartTime strFinishTime : CText)
    (nConnState : ℤ) (strToken : CText) (ip : List UInt8) : Query where
  front := "UPDATE users SET user_device_num = '"
  client := strDeviceNum
  back := [.text "', user_start_datetime = '", .S strStartTime, .text "', user_end_datetime = '",
    .S strFinishTime, .text "', user_token = '", .S strToken, .text "', user_con_state = ",
    .d nConnState, .text ", user_connect_time = NOW(), user_ip = '", .s ip, .text "' WHERE NO = ",
    .d nId.toBitVec.toInt]
  opens := by decide +kernel
  closes := closes_of_text (by decide +kernel) (by decide +kernel) (by decide +kernel)

/-- The start time that `CheckLogin` hands on: an account without one starts now. -/
def startTime (environment : Environment) (strId : CText) (row : UserRow) : CText :=
  if row.userStartDatetime.isEmpty ∨ row.userStartDatetime = nullText ∨
      row.userStartDatetime = zeroDateText then
    (environment.clock strId).format (environment.clock strId).localTime
  else
    row.userStartDatetime

/-- A plain alphanumeric string. -/
def Plain (str : CText) : Prop :=
  ∀ char ∈ str.val, 48 ≤ char.toNat ∧ char.toNat ≤ 57 ∨ 65 ≤ char.toNat ∧ char.toNat ≤ 90 ∨
    97 ≤ char.toNat ∧ char.toNat ≤ 122

theorem Plain.isAscii {plain : CText} (isPlain : Plain plain) :
    ∀ char ∈ plain.val, char.toNat < 128 := by
  intro char char_mem
  have range := isPlain char char_mem
  omega

section Literals

variable (codePage : CodePage)

/-- A text with a string in it has the tokens around it, and the string is one literal. -/
def InLiteral (before after : List Token) (str : CText) (text : List UInt8) : Prop :=
  tokens text = before ++ .quoted quote (codePage.narrowed str) :: after

/-- The client string of a formatted query is one literal of it, among the same tokens as any plain
string would be. -/
def Query.Keeps (query : Query) : Prop :=
  ∀ text, query.text codePage query.client = some text → ∃ before after,
    InLiteral codePage before after query.client text ∧
      ∀ plain plainText, Plain plain → query.text codePage plain = some plainText →
        InLiteral codePage before after plain plainText

/-- When the query is formatted at all, every apostrophe in the client string is doubled and every
backslash escapes a character of it. -/
def Query.Harmless (query : Query) : Prop :=
  Formats codePage 1000 (query.pieces query.client) →
    isIntact quote (codePage.narrowed query.client)

variable {codePage} {client : CText} {text : List UInt8}

/-- A plain string is intact. -/
theorem Plain.isIntact {plain : CText} (isPlain : Plain plain) :
    isIntact quote (codePage.narrowed plain) := by
  have different : ∀ other : UInt8, other = quote ∨ other = backslash →
      other ∉ codePage.narrowed plain := by
    intro other isOther other_mem
    rw [CodePage.narrowed_of_ascii isPlain.isAscii] at other_mem
    rcases List.mem_map.mp other_mem with ⟨char, char_mem, same⟩
    have range := isPlain char char_mem
    have value := congrArg UInt8.toNat same
    simp only [UInt8.toNat_ofNat'] at value
    rcases isOther with rfl | rfl
    · simp only [quote, UInt8.reduceToNat] at value
      omega
    · simp only [backslash, UInt8.reduceToNat] at value
      omega
  exact SqlTokens.isIntact_of_plain (different quote (.inl rfl)) (different backslash (.inr rfl))

end Literals

section Requests

variable {environment : Environment} {ip : List UInt8} {query : Query}

end Requests

end PoETask.AuthServer
