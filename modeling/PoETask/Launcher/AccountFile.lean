import PoETask.Library.Bytes
import PoETask.Library.LocalLoops
import PoETask.Wire.Protocol
import PoETask.Wire.ReaderBounds

/-!
# The account file

`SaveSetting` writes the number of accounts and their structures as they are in memory, `LoadSetting`
reads them back. The number is used as it stands in the file: it may be more than there are entries
in `g_pAppSetting`, and then the count is wrong and what the file has for the further accounts is
written behind the array.

The memory from `g_pAppSetting` on is a function of the offset.
-/

namespace PoETask.Launcher

open Library LocalLoops Wire

/-- `sizeof(AccountInfo)`: a flag, four arrays of 100 `WCHAR`, two numbers and 400 bytes. -/
abbrev accountSize : ℕ := 4 + 4 * 200 + 4 + 4 + 400

structure Settings where
  dwAppCount : UInt32
  appSetting : ℕ → UInt8

namespace Settings

variable (settings : Settings)

/-- The bytes of an account. -/
def account (i : ℕ) : List UInt8 :=
  (List.range accountSize).map fun k => settings.appSetting (accountSize * i + k)

/-- `memset` of all entries. -/
def clearAccounts : Settings :=
  { settings with
    appSetting := (List.range maxAccountNum).foldl
      (fun appSetting i => writeBlock appSetting (accountSize * i) (List.replicate accountSize 0))
      settings.appSetting }

/-- `fread` of the count. The bytes that a shorter file does not have are left alone. -/
def readCount (fp : List UInt8) : UInt32 :=
  .ofNat (leValue (fp.take 4 ++ (leBytes 4 settings.dwAppCount.toNat).drop fp.length))

/-- `LoadSetting` on the bytes of the file, if it can be opened. -/
def loadSetting : Option (List UInt8) → Settings
  | none => settings.clearAccounts
  | some fp =>
      { dwAppCount := settings.readCount fp
        appSetting := ((List.range (settings.readCount fp).toNat).foldl
          (fun read i => readBlock read (accountSize * i) accountSize)
          (settings.clearAccounts.appSetting, fp.drop 4)).1 }

/-- The blocks that `LoadSetting` writes, from `g_pAppSetting` on. -/
def loadWrites (fp : List UInt8) : List Access :=
  (List.range maxAccountNum).map (fun i => ⟨accountSize * i, accountSize⟩)
    ++ (List.range (settings.readCount fp).toNat).map fun i =>
      ⟨accountSize * i, (((fp.drop 4).drop (accountSize * i)).take accountSize).length⟩

/-- The check boxes become the flags of the accounts. -/
def saveChecks (checks : ℕ → UInt32) : Settings :=
  { settings with
    appSetting := (List.range settings.dwAppCount.toNat).foldl
      (fun appSetting i => writeBlock appSetting (accountSize * i) (leBytes 4 (checks i).toNat))
      settings.appSetting }

def savedFile : List UInt8 :=
  leBytes 4 settings.dwAppCount.toNat
    ++ (List.range settings.dwAppCount.toNat).flatMap settings.account

/-- `SaveSetting`: the settings it leaves and the file it writes. -/
def saveSetting (checks : ℕ → UInt32) : Settings × List UInt8 :=
  (settings.saveChecks checks, (settings.saveChecks checks).savedFile)

variable {settings} {fp : List UInt8}

/-- The count stays below the number of entries, and nothing is written behind them. -/
structure LoadsInside (settings : Settings) (fp : List UInt8) : Prop where
  count : (settings.loadSetting (some fp)).dwAppCount.toNat ≤ maxAccountNum
  writes : ∀ access ∈ settings.loadWrites fp, access.Below (maxAccountNum * accountSize)

/-- The saved count and entries are loaded, and the other entries are empty. -/
structure Restores (settings saved : Settings) (fp : List UInt8) : Prop where
  count : (settings.loadSetting (some fp)).dwAppCount = saved.dwAppCount
  accounts : ∀ i < saved.dwAppCount.toNat,
    (settings.loadSetting (some fp)).account i = saved.account i
  others : ∀ i, saved.dwAppCount.toNat ≤ i → i < maxAccountNum →
    (settings.loadSetting (some fp)).account i = List.replicate accountSize 0

theorem toNat_readCount :
    (settings.readCount fp).toNat
      = leValue (fp.take 4 ++ (leBytes 4 settings.dwAppCount.toNat).drop fp.length) := by
  have below := leValue_lt (fp.take 4 ++ (leBytes 4 settings.dwAppCount.toNat).drop fp.length)
  have isLength :
      (fp.take 4 ++ (leBytes 4 settings.dwAppCount.toNat).drop fp.length).length = 4 := by
    rw [List.length_append, List.length_take, List.length_drop, length_leBytes]
    omega
  rw [isLength] at below
  rw [readCount, UInt32.toNat_ofNat', Nat.mod_eq_of_lt (by omega)]

theorem loadWrites_below (few : (settings.readCount fp).toNat ≤ maxAccountNum) :
    ∀ access ∈ settings.loadWrites fp, access.Below (maxAccountNum * accountSize) := by
  simp only [maxAccountNum] at few ⊢
  intro access isWrite
  apply Access.Below.of_le
  rcases List.mem_append.mp isWrite with isCleared | isRead
  · rcases List.mem_map.mp isCleared with ⟨i, isEntry, rfl⟩
    rw [maxAccountNum, List.mem_range] at isEntry
    simp only [accountSize]
    omega
  · rcases List.mem_map.mp isRead with ⟨i, isEntry, rfl⟩
    rw [List.mem_range] at isEntry
    simp only [accountSize, List.length_take]
    omega

/-- Behind the array there is what a file with too large a count has left for it. -/
theorem loadWrites_behind (many : maxAccountNum < (settings.readCount fp).toNat)
    (isLong : 4 + maxAccountNum * accountSize < fp.length) :
    ∃ access ∈ settings.loadWrites fp, ¬ access.Below (maxAccountNum * accountSize) := by
  refine ⟨_, List.mem_append_right _ (List.mem_map_of_mem (List.mem_range.mpr many)),
    fun below => ?_⟩
  have inside := below.le (by
    simp only [List.length_take, List.length_drop, accountSize, maxAccountNum] at isLong ⊢
    omega)
  simp only [List.length_take, List.length_drop, accountSize, maxAccountNum] at inside isLong
  omega

theorem loadsInside_iff :
    LoadsInside settings fp ↔
      leValue (fp.take 4 ++ (leBytes 4 settings.dwAppCount.toNat).drop fp.length)
        ≤ maxAccountNum := by
  rw [← toNat_readCount]
  exact ⟨fun inside => inside.count, fun few => ⟨few, loadWrites_below few⟩⟩

section Load

theorem appSetting_loadSetting (settings : Settings) (fp : List UInt8) (offset : ℕ) :
    (settings.loadSetting (some fp)).appSetting offset
      = ((fp.drop 4).take (accountSize * (settings.readCount fp).toNat)).getD offset
          (settings.clearAccounts.appSetting offset) := by
  rw [loadSetting, foldl_readBlock]
  simp only [readBlock, writeBlock, Nat.zero_le, if_true, Nat.sub_zero]

theorem appSetting_clearAccounts {i k : ℕ} (isEntry : i < maxAccountNum)
    (isPlace : k < accountSize) :
    settings.clearAccounts.appSetting (accountSize * i + k) = 0 := by
  have short : ∀ _ : ℕ, (List.replicate accountSize (0 : UInt8)).length ≤ accountSize :=
    fun _ => List.length_replicate.le
  exact (foldl_writeBlock short settings.appSetting isEntry isPlace).trans
    (List.getD_replicate _ isPlace)

/-- What `LoadSetting` does not write stays as it is. -/
theorem appSetting_loadSetting_outside {offset : ℕ}
    (isOutside : ∀ access ∈ settings.loadWrites fp,
      ¬ (access.start ≤ offset ∧ offset < access.start + access.size)) :
    (settings.loadSetting (some fp)).appSetting offset = settings.appSetting offset := by
  have digits := Nat.div_add_mod offset accountSize
  have isPlace := Nat.mod_lt offset (by decide : 0 < accountSize)
  have isBehind : accountSize * maxAccountNum ≤ offset := by
    by_contra isCleared
    have isEntry := Nat.div_lt_of_lt_mul (Nat.not_le.mp isCleared)
    apply isOutside _ (List.mem_append_left _ (List.mem_map_of_mem (List.mem_range.mpr isEntry)))
    dsimp only
    omega
  have notRead : ((fp.drop 4).take (accountSize * (settings.readCount fp).toNat)).length
      ≤ offset := by
    by_contra isRead
    rw [List.length_take, not_le, Nat.lt_min] at isRead
    have isEntry := Nat.div_lt_of_lt_mul isRead.1
    apply isOutside _ (List.mem_append_right _ (List.mem_map_of_mem (List.mem_range.mpr isEntry)))
    rw [List.length_take, List.length_drop (i := accountSize * _)]
    dsimp only
    omega
  have short : ∀ _ : ℕ, (List.replicate accountSize (0 : UInt8)).length ≤ accountSize :=
    fun _ => List.length_replicate.le
  rw [appSetting_loadSetting, List.getD_eq_default _ _ notRead]
  exact foldl_writeBlock_behind short settings.appSetting isBehind

/-- The flag of a saved account is the check box, the rest is as it was. -/
theorem account_saveChecks (checks : ℕ → UInt32) {i : ℕ}
    (isEntry : i < settings.dwAppCount.toNat) :
    (settings.saveChecks checks).account i
      = leBytes 4 (checks i).toNat ++ (settings.account i).drop 4 := by
  have short : ∀ i, (leBytes 4 (checks i).toNat).length ≤ accountSize := by
    intro i
    rw [length_leBytes]
    decide
  apply List.ext_getElem
  · simp only [account, List.length_map, List.length_range, List.length_append, List.length_drop,
      length_leBytes, accountSize]
  · intro k inAccount inSaved
    simp only [account, List.length_map, List.length_range] at inAccount
    have isWritten : (settings.saveChecks checks).appSetting (accountSize * i + k)
        = (leBytes 4 (checks i).toNat).getD k (settings.appSetting (accountSize * i + k)) :=
      foldl_writeBlock short settings.appSetting isEntry inAccount
    simp only [account, List.getElem_map, List.getElem_range, isWritten, List.getElem_append,
      List.getElem_drop, length_leBytes]
    split
    · exact List.getD_eq_getElem _ _ (by rwa [length_leBytes])
    · rw [List.getD_eq_default _ _ (by rw [length_leBytes]; omega)]
      congr 2
      omega

theorem readCount_savedFile (settings saved : Settings) :
    settings.readCount saved.savedFile = saved.dwAppCount := by
  have count : saved.dwAppCount.toNat < 2 ^ 32 := saved.dwAppCount.toNat_lt
  have isCount : saved.savedFile.take 4 = leBytes 4 saved.dwAppCount.toNat :=
    List.take_left' (length_leBytes 4 _)
  have isLong : 4 ≤ saved.savedFile.length := by
    rw [savedFile, List.length_append, length_leBytes]
    omega
  rw [← UInt32.toNat_inj, toNat_readCount, isCount,
    List.drop_eq_nil_of_le (by rwa [length_leBytes]), List.append_nil, leValue_leBytes]
  omega

theorem drop_savedFile (saved : Settings) :
    saved.savedFile.drop 4
      = (List.range (accountSize * saved.dwAppCount.toNat)).map saved.appSetting := by
  rw [savedFile, List.drop_left' (length_leBytes 4 _)]
  exact flatMap_blocks saved.appSetting accountSize saved.dwAppCount.toNat

/-- Loading what was saved fills the entries in front of the count. -/
theorem appSetting_savedFile (settings saved : Settings) (offset : ℕ) :
    (settings.loadSetting (some saved.savedFile)).appSetting offset
      = if offset < accountSize * saved.dwAppCount.toNat then saved.appSetting offset
        else settings.clearAccounts.appSetting offset := by
  have isWhole : ((List.range (accountSize * saved.dwAppCount.toNat)).map saved.appSetting).length
      ≤ accountSize * saved.dwAppCount.toNat := by
    rw [List.length_map, List.length_range]
  rw [appSetting_loadSetting, readCount_savedFile, drop_savedFile,
    List.take_of_length_le isWhole, List.getD_eq_getElem?_getD, List.getElem?_map]
  split
  · rename_i isSaved
    rw [List.getElem?_range isSaved, Option.map_some, Option.getD_some]
  · rename_i isBehind
    rw [List.getElem?_eq_none (by rw [List.length_range]; omega), Option.map_none,
      Option.getD_none]

theorem restores_savedFile (settings saved : Settings) :
    Restores settings saved saved.savedFile where
  count := readCount_savedFile settings saved
  accounts i isEntry := by
    unfold account
    apply List.map_congr_left
    intro k isPlace
    rw [appSetting_savedFile, if_pos (place_lt isEntry (List.mem_range.mp isPlace))]
  others i isFree isEntry := by
    rw [List.eq_replicate_iff]
    refine ⟨by rw [account, List.length_map, List.length_range], ?_⟩
    intro byte isByte
    rcases List.mem_map.mp isByte with ⟨k, isPlace, rfl⟩
    have isBehind : accountSize * saved.dwAppCount.toNat ≤ accountSize * i + k :=
      (Nat.mul_le_mul_left accountSize isFree).trans (Nat.le_add_right _ k)
    rw [appSetting_savedFile, if_neg (Nat.not_lt.mpr isBehind),
      appSetting_clearAccounts isEntry (List.mem_range.mp isPlace)]

/-- The file is loaded inside the array, and saved tables are restored, exactly for the files whose
first four bytes are a count of at most thirty. -/
theorem loadSetting_safe_iff (settings : Settings) (fp : List UInt8) :
    (LoadsInside settings fp ∧
        ∀ (table : Settings) (checks : ℕ → UInt32), table.dwAppCount.toNat ≤ maxAccountNum →
          Restores settings (table.saveSetting checks).1 (table.saveSetting checks).2) ↔
      leValue (fp.take 4 ++ (leBytes 4 settings.dwAppCount.toNat).drop fp.length)
        ≤ maxAccountNum := by
  rw [← loadsInside_iff]
  exact ⟨And.left, fun inside => ⟨inside, fun _ _ _ => restores_savedFile settings _⟩⟩

/-- A file of thirty-one accounts. -/
def longFile : List UInt8 := leBytes 4 31 ++ List.replicate (31 * accountSize) 65

/-- Its count is too large, and its last account is written behind the array. -/
theorem longFile_not_loadsInside :
    ¬ LoadsInside ⟨0, fun _ => 0⟩ longFile ∧
      ∃ access ∈ loadWrites ⟨0, fun _ => 0⟩ longFile,
        ¬ access.Below (maxAccountNum * accountSize) := by
  have isLength : longFile.length = 4 + 31 * accountSize := by
    rw [longFile, List.length_append, length_leBytes, List.length_replicate]
  have isCount : (readCount ⟨0, fun _ => 0⟩ longFile).toNat = 31 := by
    rw [toNat_readCount, longFile, List.take_left' (length_leBytes 4 31), ← longFile,
      List.drop_eq_nil_of_le (by rw [length_leBytes, isLength]; omega), List.append_nil,
      leValue_leBytes]
    rfl
  refine ⟨fun inside => ?_, loadWrites_behind ?_ ?_⟩
  · have tooMany := inside.count
    rw [loadSetting, isCount] at tooMany
    exact absurd tooMany (by decide)
  · rw [isCount]
    decide
  · rw [isLength]
    decide

end Load

end Settings

end PoETask.Launcher
