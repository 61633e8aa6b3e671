import PoETask.Launcher.AccountEditing

/-!
# The list of accounts

`g_pAppSetting` keeps the accounts in its first `g_dwAppCount` entries; what a removal leaves behind
them stays there. The account page refuses a name that is listed already, but its loop compares the
new name with the entry behind the last account instead of the listed ones. So a name is taken
twice, or one that has been removed is refused, unless that entry happens to say the same as the
list.
-/

namespace PoETask.Launcher

open PoETask.Library PoETask.Wire

/-- `AppSettingInfo`, an account with all its fields. -/
structure AppSettingInfo where
  dwUse : UInt32
  szAutoId : Name maxName
  szAutoPw : Name maxName
  szGameId : Name maxName
  szGamePw : Name maxName
  dwServerNo : UInt32
  dwCharacterNo : UInt32
  pReserved : List UInt8

/-- `g_dwAppCount` and `g_pAppSetting`. -/
structure AccountList where
  dwAppCount : ℕ
  appSetting : ℕ → AppSettingInfo

/-- The edit fields of the account page. -/
structure EditFields where
  strAutoId : CText
  strAutoPw : CText
  strGameId : CText
  strGamePw : CText

namespace EditFields

def Filled (fields : EditFields) : Prop :=
  (fields.strAutoId.isEmpty || fields.strAutoPw.isEmpty || fields.strGameId.isEmpty ||
    fields.strGamePw.isEmpty) = false

instance (fields : EditFields) : Decidable fields.Filled :=
  inferInstanceAs (Decidable (_ = _))

/-- Every text has room in its array of `WCHAR`. -/
structure Fit (fields : EditFields) : Prop where
  szAutoId : fields.strAutoId.val.length < maxName
  szAutoPw : fields.strAutoPw.val.length < maxName
  szGameId : fields.strGameId.val.length < maxName
  szGamePw : fields.strGamePw.val.length < maxName

instance (fields : EditFields) : Decidable fields.Fit :=
  decidable_of_iff
    (fields.strAutoId.val.length < maxName ∧ fields.strAutoPw.val.length < maxName ∧
      fields.strGameId.val.length < maxName ∧ fields.strGamePw.val.length < maxName)
    ⟨fun ⟨id, pw, gameId, gamePw⟩ => ⟨id, pw, gameId, gamePw⟩,
      fun fit => ⟨fit.szAutoId, fit.szAutoPw, fit.szGameId, fit.szGamePw⟩⟩

end EditFields

/-- What comes of an addition. -/
inductive Answer where
  | maxLimit
  | unfilled
  | duplicate
  | added
  deriving DecidableEq

namespace AccountList

/-- The entry behind the last account becomes one of the list. -/
def push (list : AccountList) (account : AppSettingInfo) : AccountList where
  dwAppCount := list.dwAppCount + 1
  appSetting := Function.update list.appSetting list.dwAppCount account

/-- `OnBnClickedButtonAccountAdd`, undefined when a text is copied that has no room. -/
def accountAdd (list : AccountList) (fields : EditFields) : Option (Answer × AccountList) :=
  if maxAccountNum ≤ list.dwAppCount then some (.maxLimit, list)
  else if ¬ fields.Filled then some (.unfilled, list)
  else if (List.range list.dwAppCount).any fun _ =>
      fields.strAutoId = (list.appSetting list.dwAppCount).szAutoId.val then
    some (.duplicate, list)
  else do
    let szAutoId ← wcscpy maxName fields.strAutoId
    let szAutoPw ← wcscpy maxName fields.strAutoPw
    let szGameId ← wcscpy maxName fields.strGameId
    let szGamePw ← wcscpy maxName fields.strGamePw
    return (.added, list.push { list.appSetting list.dwAppCount with
      dwUse := 1, szAutoId, szAutoPw, szGameId, szGamePw })

/-- `OnBnClickedButtonAccountRemove` with the selected row. -/
def accountRemove (list : AccountList) (nPos : ℕ) : AccountList where
  dwAppCount := list.dwAppCount - 1
  appSetting := (List.range' nPos (list.dwAppCount - 1 - nPos)).foldl
    (fun appSetting i => Function.update appSetting i (appSetting (i + 1))) list.appSetting

/-- The accounts in the list. -/
def accounts (list : AccountList) : List AppSettingInfo :=
  (List.range list.dwAppCount).map list.appSetting

def names (list : AccountList) : List CText := list.accounts.map (·.szAutoId.val)

inductive Event where
  | accountAdd (fields : EditFields)
  | accountRemove (nPos : ℕ)

def advance (list : AccountList) : Event → Option AccountList
  | .accountAdd fields => (list.accountAdd fields).map Prod.snd
  | .accountRemove nPos =>
      if nPos < list.dwAppCount then some (list.accountRemove nPos) else none

/-- Editing starts with an empty list; its entries may be stale. -/
def system : StepSystem AccountList Event where
  initial list := list.dwAppCount = 0
  step list event next := list.advance event = some next

/-- An addition is refused when the list is full or has the name, and only then. -/
def Answers (list : AccountList) (fields : EditFields) : Prop :=
  ∃ answer next, list.accountAdd fields = some (answer, next) ∧
    (answer ≠ .added ↔ maxAccountNum ≤ list.dwAppCount ∨ fields.strAutoId ∈ list.names)

/-- The entry behind the last account has the new name exactly when a listed one has, and the texts
of a name that is not listed fit. -/
def ScanAgrees (list : AccountList) (fields : EditFields) : Prop :=
  list.dwAppCount < maxAccountNum →
    (fields.strAutoId ∈ list.names ↔
      0 < list.dwAppCount ∧
        fields.strAutoId = (list.appSetting list.dwAppCount).szAutoId.val) ∧
      (fields.strAutoId ∉ list.names → fields.Fit)

instance (list : AccountList) (fields : EditFields) : Decidable (list.ScanAgrees fields) :=
  inferInstanceAs (Decidable (_ → _ ∧ _))

variable {list next : AccountList} {fields : EditFields} {answer : Answer} {nPos : ℕ}

section Add

/-- The loop makes the same comparison for every account. -/
theorem scan_iff {count : ℕ} {isSame : Prop} [Decidable isSame] :
    ((List.range count).any fun _ => isSame) = true ↔ 0 < count ∧ isSame := by
  simp only [List.any_eq_true, List.mem_range, decide_eq_true_eq]
  constructor
  · rintro ⟨i, inList, isSame⟩
    exact ⟨by omega, isSame⟩
  · rintro ⟨nonempty, isSame⟩
    exact ⟨0, nonempty, isSame⟩

theorem accountAdd_full (isFull : maxAccountNum ≤ list.dwAppCount) :
    list.accountAdd fields = some (.maxLimit, list) := if_pos isFull

theorem accountAdd_unfilled (hasRoom : list.dwAppCount < maxAccountNum)
    (unfilled : ¬ fields.Filled) : list.accountAdd fields = some (.unfilled, list) := by
  rw [accountAdd, if_neg (Nat.not_le.mpr hasRoom), if_pos unfilled]

theorem accountAdd_duplicate (hasRoom : list.dwAppCount < maxAccountNum) (filled : fields.Filled)
    (isSame : 0 < list.dwAppCount ∧
      fields.strAutoId = (list.appSetting list.dwAppCount).szAutoId.val) :
    list.accountAdd fields = some (.duplicate, list) := by
  rw [accountAdd, if_neg (Nat.not_le.mpr hasRoom), if_neg (not_not.mpr filled),
    if_pos (scan_iff.mpr isSame)]

/-- The account that an addition lists. -/
def written (list : AccountList) (fields : EditFields) (fit : fields.Fit) : AppSettingInfo :=
  { list.appSetting list.dwAppCount with
    dwUse := 1
    szAutoId := ⟨fields.strAutoId, fit.szAutoId⟩
    szAutoPw := ⟨fields.strAutoPw, fit.szAutoPw⟩
    szGameId := ⟨fields.strGameId, fit.szGameId⟩
    szGamePw := ⟨fields.strGamePw, fit.szGamePw⟩ }

theorem accountAdd_added (hasRoom : list.dwAppCount < maxAccountNum) (filled : fields.Filled)
    (isNew : ¬ (0 < list.dwAppCount ∧
      fields.strAutoId = (list.appSetting list.dwAppCount).szAutoId.val)) (fit : fields.Fit) :
    list.accountAdd fields = some (.added, list.push (list.written fields fit)) := by
  rw [accountAdd, if_neg (Nat.not_le.mpr hasRoom), if_neg (not_not.mpr filled),
    if_neg (mt scan_iff.mp isNew), wcscpy_eq_some fit.szAutoId, wcscpy_eq_some fit.szAutoPw,
    wcscpy_eq_some fit.szGameId, wcscpy_eq_some fit.szGamePw]
  rfl

theorem accountAdd_undefined (hasRoom : list.dwAppCount < maxAccountNum) (filled : fields.Filled)
    (isNew : ¬ (0 < list.dwAppCount ∧
      fields.strAutoId = (list.appSetting list.dwAppCount).szAutoId.val)) (unfit : ¬ fields.Fit) :
    list.accountAdd fields = none := by
  rw [accountAdd, if_neg (Nat.not_le.mpr hasRoom), if_neg (not_not.mpr filled),
    if_neg (mt scan_iff.mp isNew)]
  by_contra isDefined
  rcases Option.ne_none_iff_exists'.mp isDefined with ⟨added, copied⟩
  simp only [Option.bind_eq_bind, Option.bind_eq_some_iff] at copied
  rcases copied with ⟨szAutoId, copiesAutoId, szAutoPw, copiesAutoPw, szGameId, copiesGameId,
    szGamePw, copiesGamePw, -⟩
  exact unfit ⟨length_lt_of_wcscpy copiesAutoId, length_lt_of_wcscpy copiesAutoPw,
    length_lt_of_wcscpy copiesGameId, length_lt_of_wcscpy copiesGamePw⟩

/-- What an addition can do. -/
theorem accountAdd_cases (adds : list.accountAdd fields = some (answer, next)) :
    answer ≠ .added ∧ next = list ∨
      answer = .added ∧ fields.Filled ∧ list.dwAppCount < maxAccountNum ∧
        ∃ fit, next = list.push (list.written fields fit) := by
  by_cases hasRoom : list.dwAppCount < maxAccountNum
  · by_cases filled : fields.Filled
    · by_cases isSame : 0 < list.dwAppCount ∧
          fields.strAutoId = (list.appSetting list.dwAppCount).szAutoId.val
      · cases (accountAdd_duplicate hasRoom filled isSame).symm.trans adds
        exact .inl ⟨by decide, rfl⟩
      · by_cases fit : fields.Fit
        · cases (accountAdd_added hasRoom filled isSame fit).symm.trans adds
          exact .inr ⟨rfl, filled, hasRoom, fit, rfl⟩
        · cases (accountAdd_undefined hasRoom filled isSame fit).symm.trans adds
    · cases (accountAdd_unfilled hasRoom filled).symm.trans adds
      exact .inl ⟨by decide, rfl⟩
  · cases (accountAdd_full (Nat.not_lt.mp hasRoom)).symm.trans adds
    exact .inl ⟨by decide, rfl⟩

/-- The answer is right exactly when the entry behind the last account agrees with the list. -/
theorem answers_iff_scanAgrees (filled : fields.Filled) :
    list.Answers fields ↔ list.ScanAgrees fields := by
  by_cases hasRoom : list.dwAppCount < maxAccountNum
  · have notFull : ¬ maxAccountNum ≤ list.dwAppCount := Nat.not_le.mpr hasRoom
    simp only [ScanAgrees, hasRoom, forall_const]
    by_cases isSame : 0 < list.dwAppCount ∧
        fields.strAutoId = (list.appSetting list.dwAppCount).szAutoId.val
    · simp only [Answers, accountAdd_duplicate hasRoom filled isSame, Option.some.injEq,
        Prod.mk.injEq, notFull, false_or]
      constructor
      · rintro ⟨_, _, ⟨rfl, rfl⟩, isRefused⟩
        have isListed := isRefused.mp (by decide)
        exact ⟨iff_of_true isListed isSame, fun isNew => absurd isListed isNew⟩
      · rintro ⟨agrees, -⟩
        exact ⟨_, _, ⟨rfl, rfl⟩, iff_of_true (by decide) (agrees.mpr isSame)⟩
    · by_cases fit : fields.Fit
      · simp only [Answers, accountAdd_added hasRoom filled isSame fit, Option.some.injEq,
          Prod.mk.injEq, notFull, false_or]
        constructor
        · rintro ⟨_, _, ⟨rfl, rfl⟩, isRefused⟩
          have isNew := mt isRefused.mpr (by decide)
          exact ⟨iff_of_false isNew isSame, fun _ => fit⟩
        · rintro ⟨agrees, -⟩
          exact ⟨_, _, ⟨rfl, rfl⟩, iff_of_false (by decide) (mt agrees.mp isSame)⟩
      · simp only [Answers, accountAdd_undefined hasRoom filled isSame fit]
        constructor
        · rintro ⟨_, _, isDefined, -⟩
          cases isDefined
        · rintro ⟨agrees, fits⟩
          exact absurd (fits (mt agrees.mp isSame)) fit
  · have isFull : maxAccountNum ≤ list.dwAppCount := Nat.not_lt.mp hasRoom
    simp only [ScanAgrees, hasRoom, false_implies, iff_true]
    exact ⟨.maxLimit, list, accountAdd_full isFull, iff_of_true (by decide) (.inl isFull)⟩

theorem accounts_push (list : AccountList) (account : AppSettingInfo) :
    (list.push account).accounts = list.accounts ++ [account] := by
  simp only [accounts, push, List.range_succ, List.map_append, List.map_cons, List.map_nil,
    Function.update_self, List.append_cancel_right_eq]
  apply List.map_congr_left
  intro i inList
  exact Function.update_of_ne (Nat.ne_of_lt (List.mem_range.mp inList)) _ _

end Add

section Remove

theorem appSetting_accountRemove (nPos i : ℕ) :
    (list.accountRemove nPos).appSetting i =
      if nPos ≤ i ∧ i + 1 < list.dwAppCount then list.appSetting (i + 1)
      else list.appSetting i := by
  simp only [accountRemove, LocalLoops.foldl_shift]
  apply if_congr _ rfl rfl
  omega

theorem length_accounts (list : AccountList) : list.accounts.length = list.dwAppCount := by
  rw [accounts, List.length_map, List.length_range]

/-- A removal takes the selected account out of the list and keeps the others in order. -/
theorem accounts_accountRemove (isRow : nPos < list.dwAppCount) :
    (list.accountRemove nPos).accounts = list.accounts.eraseIdx nPos := by
  have isLength : (list.accountRemove nPos).dwAppCount = list.dwAppCount - 1 := rfl
  apply List.ext_getElem
  · rw [List.length_eraseIdx_of_lt (by rwa [length_accounts]), length_accounts, length_accounts,
      isLength]
  · intro i inRemoved _
    rw [length_accounts, isLength] at inRemoved
    simp only [List.getElem_eraseIdx, accounts, List.getElem_map, List.getElem_range,
      appSetting_accountRemove]
    by_cases isBefore : i < nPos
    · rw [if_neg (by omega), dif_pos isBefore]
    · rw [if_pos (by omega), dif_neg isBefore]

end Remove

section Table

/-- What login and answers need of the accounts. -/
def table (list : AccountList) (szDeviceKey : Name maxPath) : AccountTable where
  dwAppCount := list.dwAppCount
  appSetting i :=
    { dwUse := (list.appSetting i).dwUse
      szAutoId := (list.appSetting i).szAutoId
      szAutoPw := (list.appSetting i).szAutoPw }
  szDeviceKey := szDeviceKey

theorem table_push (list : AccountList) (account : AppSettingInfo) (szDeviceKey : Name maxPath) :
    (list.push account).table szDeviceKey =
      { list.table szDeviceKey with
        appSetting := Function.update (list.table szDeviceKey).appSetting list.dwAppCount
          ⟨account.dwUse, account.szAutoId, account.szAutoPw⟩
        dwAppCount := list.dwAppCount + 1 } := by
  simp only [table, push, AccountTable.mk.injEq, and_true, true_and]
  funext i
  by_cases isNew : i = list.dwAppCount
  · rw [isNew, Function.update_self, Function.update_self]
  · rw [Function.update_of_ne isNew, Function.update_of_ne isNew]

/-- With texts that fit, the table is edited as the editor of both arrays has it. -/
theorem table_accountAdd (fit : fields.Fit) (szDeviceKey : Name maxPath) :
    (list.accountAdd fields).map (fun added => added.2.table szDeviceKey)
      = some ((list.table szDeviceKey).accountAdd ⟨fields.strAutoId, fit.szAutoId⟩
          ⟨fields.strAutoPw, fit.szAutoPw⟩ ⟨fields.strGameId, fit.szGameId⟩
          ⟨fields.strGamePw, fit.szGamePw⟩) := by
  have isTable : (list.table szDeviceKey).dwAppCount = list.dwAppCount := rfl
  by_cases hasRoom : list.dwAppCount < maxAccountNum
  · by_cases filled : fields.Filled
    · have sameScan : (0 < list.dwAppCount ∧ (⟨fields.strAutoId, fit.szAutoId⟩ : Name maxName)
            = ((list.table szDeviceKey).appSetting list.dwAppCount).szAutoId) ↔
          0 < list.dwAppCount ∧
            fields.strAutoId = (list.appSetting list.dwAppCount).szAutoId.val :=
        and_congr_right fun _ => Subtype.ext_iff
      rw [AccountTable.accountAdd, isTable, if_neg (Nat.not_le.mpr hasRoom),
        if_neg (Bool.eq_false_iff.mp filled)]
      by_cases isSame : 0 < list.dwAppCount ∧
          fields.strAutoId = (list.appSetting list.dwAppCount).szAutoId.val
      · rw [accountAdd_duplicate hasRoom filled isSame, if_pos (scan_iff.mpr (sameScan.mpr isSame))]
        rfl
      · rw [accountAdd_added hasRoom filled isSame fit,
          if_neg (mt (sameScan.mp ∘ scan_iff.mp) isSame), Option.map_some, table_push]
        rfl
    · rw [accountAdd_unfilled hasRoom filled, AccountTable.accountAdd, isTable,
        if_neg (Nat.not_le.mpr hasRoom),
        if_pos ((Bool.not_eq_false _).mp filled)]
      rfl
  · rw [accountAdd_full (Nat.not_lt.mp hasRoom), AccountTable.accountAdd, isTable,
      if_pos (Nat.not_lt.mp hasRoom)]
    rfl

theorem table_accountRemove (szDeviceKey : Name maxPath) :
    (list.accountRemove nPos).table szDeviceKey
      = (list.table szDeviceKey).accountRemove nPos := by
  have isTable : ((list.table szDeviceKey).accountRemove nPos).appSetting
      = ((list.accountRemove nPos).table szDeviceKey).appSetting := by
    funext i
    rw [AccountTable.appSetting_accountRemove]
    by_cases isMoved : nPos ≤ i ∧ i + 1 < list.dwAppCount
    · rw [if_pos (show nPos ≤ i ∧ i + 1 < (list.table szDeviceKey).dwAppCount from isMoved)]
      simp only [table, appSetting_accountRemove, if_pos isMoved]
    · rw [if_neg (show ¬ (nPos ≤ i ∧ i + 1 < (list.table szDeviceKey).dwAppCount) from isMoved)]
      simp only [table, appSetting_accountRemove, if_neg isMoved]
  simp only [AccountTable.accountRemove] at isTable
  rw [AccountTable.accountRemove, isTable]
  rfl

end Table

section Runs

/-- Every addition of the run finds the entry behind the last account in agreement with the list. -/
def EntryAgrees (list : AccountList) : Event → Prop
  | .accountAdd fields => fields.Filled → list.ScanAgrees fields
  | .accountRemove _ => True

instance : ∀ (list : AccountList) (event : Event), Decidable (list.EntryAgrees event)
  | list, .accountAdd fields =>
      inferInstanceAs (Decidable (fields.Filled → list.ScanAgrees fields))
  | _, .accountRemove _ => inferInstanceAs (Decidable True)

theorem names_push (list : AccountList) (account : AppSettingInfo) :
    (list.push account).names = list.names ++ [account.szAutoId.val] := by
  rw [names, accounts_push, List.map_append]
  rfl

theorem names_nodup : (system.restrict EntryAgrees).Invariant fun list => list.names.Nodup where
  initial list isEmpty := by
    have isNil : list.accounts = [] := List.length_eq_zero_iff.mp (by rw [length_accounts, isEmpty])
    rw [names, isNil]
    exact List.nodup_nil
  step list event next unique moves := by
    rcases moves with ⟨agrees, advances⟩
    cases event with
    | accountAdd fields =>
        rcases Option.map_eq_some_iff.mp advances with ⟨⟨answer, _⟩, adds, rfl⟩
        rcases accountAdd_cases adds with ⟨_, isSame⟩ | ⟨isAdded, filled, hasRoom, fit, isPushed⟩
        · exact isSame ▸ unique
        · have answered := (answers_iff_scanAgrees filled).mpr (agrees filled)
          rcases answered with ⟨_, _, same, isRefused⟩
          cases same.symm.trans adds
          have isNew : fields.strAutoId ∉ list.names := fun isListed =>
            isRefused.mpr (.inr isListed) isAdded
          simp only [isPushed, names_push]
          refine List.nodup_append.mpr ⟨unique, List.nodup_singleton _, ?_⟩
          rintro name isListed _ isWritten rfl
          have isName : name = fields.strAutoId := List.mem_singleton.mp isWritten
          exact isNew (isName ▸ isListed)
    | accountRemove nPos =>
        simp only [system, advance] at advances
        split_ifs at advances with isRow
        cases advances
        rw [names, accounts_accountRemove isRow]
        exact unique.sublist ((List.eraseIdx_sublist _ _).map _)

/-- Names are listed once, the additions that are asked for are refused for the right reasons and
only for those, and removals take out the selected account. -/
structure Orderly (list : AccountList) (asked : EditFields → Prop) : Prop where
  unique : list.names.Nodup
  answers : ∀ fields, fields.Filled → asked fields → list.Answers fields
  removes : ∀ nPos < list.dwAppCount,
    (list.accountRemove nPos).accounts = list.accounts.eraseIdx nPos

/-- From an empty list, as long as the entry behind the last account agrees with the list. -/
theorem orderly_of_entryAgrees (reached : (system.restrict EntryAgrees).Reachable list) :
    list.Orderly list.ScanAgrees where
  unique := names_nodup.of_reachable reached
  answers _ filled agrees := (answers_iff_scanAgrees filled).mpr agrees
  removes _ isRow := accounts_accountRemove isRow

theorem empty_fits : CText.empty.val.length < maxName := by decide

/-- The empty list, its entries zero. -/
def blank : AccountList where
  dwAppCount := 0
  appSetting _ :=
    { dwUse := 0, szAutoId := ⟨.empty, empty_fits⟩, szAutoPw := ⟨.empty, empty_fits⟩
      szGameId := ⟨.empty, empty_fits⟩, szGamePw := ⟨.empty, empty_fits⟩
      dwServerNo := 0, dwCharacterNo := 0, pReserved := List.replicate 400 0 }

theorem blank_start : system.initial blank := rfl

def named (strAutoId : CText) : EditFields := ⟨strAutoId, .letterA, .letterA, .letterA⟩

/-- The first of two accounts is removed; the other name is refused, the first one listed again. -/
theorem replaced_orderly :
    ∃ list : AccountList, list.names = [.letterB, .letterA] ∧ list.Orderly list.ScanAgrees := by
  have ends : (StepSystem.play advance EntryAgrees blank
      [.accountAdd (named .letterA), .accountAdd (named .letterB), .accountRemove 0,
        .accountAdd (named .letterB), .accountAdd (named .letterA)]).map names =
          some [.letterB, .letterA] := by decide +kernel
  rcases Option.map_eq_some_iff.mp ends with ⟨list, plays, isListed⟩
  have reached : (system.restrict EntryAgrees).Reachable list :=
    StepSystem.reachable_play (.initial blank_start)
      (fun _ _ _ isAllowed moves => ⟨isAllowed, moves⟩) plays
  exact ⟨list, isListed, orderly_of_entryAgrees reached⟩

/-- A name is listed twice, and one that has been removed is refused. -/
theorem not_orderly :
    ¬ (∀ list, system.Reachable list → list.names.Nodup) ∧
      ¬ ∀ list, system.Reachable list → ∀ fields, fields.Filled → list.Answers fields := by
  constructor
  · intro claimed
    have ends : (StepSystem.play advance (fun _ _ => True) blank
        [.accountAdd (named .letterA), .accountAdd (named .letterA)]).map names =
          some [.letterA, .letterA] := by decide +kernel
    rcases Option.map_eq_some_iff.mp ends with ⟨list, plays, isTwice⟩
    have reached : system.Reachable list :=
      StepSystem.reachable_play (.initial blank_start) (fun _ _ _ _ moves => moves) plays
    exact absurd (isTwice ▸ claimed list reached) (by decide)
  · intro claimed
    have ends : (StepSystem.play advance (fun _ _ => True) blank
        [.accountAdd (named .letterA), .accountAdd (named .letterB), .accountRemove 1]).map
          (fun list => (list.names, (list.accountAdd (named .letterB)).map Prod.fst,
            list.dwAppCount)) =
            some ([.letterA], some .duplicate, 1) := by decide +kernel
    rcases Option.map_eq_some_iff.mp ends with ⟨list, plays, measured⟩
    have reached : system.Reachable list :=
      StepSystem.reachable_play (.initial blank_start) (fun _ _ _ _ moves => moves) plays
    simp only [Prod.mk.injEq, Option.map_eq_some_iff] at measured
    rcases measured with ⟨isListed, ⟨⟨_, next⟩, refused, rfl⟩, isOne⟩
    rcases claimed list reached (named .letterB) (by decide) with ⟨answer, _, answered, isRefused⟩
    cases refused.symm.trans answered
    rw [isListed, isOne] at isRefused
    exact absurd (isRefused.mp (by decide)) (by decide)

end Runs

end AccountList

end PoETask.Launcher
