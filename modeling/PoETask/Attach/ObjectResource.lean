import PoETask.Library.SortedSearch
import Mathlib.Data.List.DropRight
import Mathlib.Data.UInt
import Mathlib.Tactic.Common

/-!
# The names of the objects

`GetNpcResource`, `GetChestResource` and `GetMonsterResource` convert a path to bytes in a buffer of
`MAX_PATH` bytes and search the hash of the bytes in a sorted table. A path that does not fit leaves
the buffer without a terminator.
-/

namespace PoETask.Attach

open SortedSearch

/-- An entry of `g_pResNpc`, `g_pResChest` or `g_pResMonster`. -/
structure ObjectResource where
  dwNameHash : UInt32
  szName : List UInt16

def ObjectResource.hash (entry : ObjectResource) : ℕ := entry.dwNameHash.toNat

def maxPath : ℕ := 260

/-- `wcstombs` in the "C" locale: it stops behind the terminator, before a character that has no
byte, and at the end of the buffer. -/
def wcstombs : List UInt8 → List UInt16 → List UInt8
  | [], _ => []
  | _ :: rest, [] => 0 :: rest
  | byte :: rest, char :: chars =>
      if char > 255 then byte :: rest
      else if char = 0 then 0 :: rest
      else char.toUInt8 :: wcstombs rest chars

/-- None when the terminator is missing: bytes outside the buffer are read. -/
def strlen (buffer : List UInt8) : Option ℕ :=
  if 0 ∈ buffer then some (buffer.takeWhile (· ≠ 0)).length else none

/-- The loop of `GetMonsterResource` that ends the string at the last '@'. -/
def cutAt : ℕ → List UInt8 → List UInt8
  | 0, aszTemp => aszTemp
  | nLen + 1, aszTemp => if aszTemp[nLen]? = some 64 then aszTemp.set nLen 0 else cutAt nLen aszTemp

/-- The bytes that `GetNpcResource` and `GetChestResource` hash. -/
def pathKey (aszTemp : List UInt8) (szPath : List UInt16) : Option (List UInt8) :=
  let aszTemp := wcstombs aszTemp szPath
  (strlen aszTemp).map aszTemp.take

/-- The bytes that `GetMonsterResource` hashes. -/
def monsterKey (aszTemp : List UInt8) (szPath : List UInt16) : Option (List UInt8) :=
  let aszTemp := wcstombs aszTemp szPath
  (strlen aszTemp).bind fun nLen =>
    let aszTemp := cutAt nLen aszTemp
    (strlen aszTemp).map aszTemp.take

/-- The search with its number of turns; none when they do not suffice or an index lies outside the
table. An array takes less than 2 GiB, so the sum of two indexes is an `int`. -/
def searchResource (table : List ObjectResource) (dwNameHash : UInt32) :
    ℕ → ℤ → ℤ → Option (List UInt16)
  | 0, _, _ => none
  | turns + 1, nStart, nEnd =>
      if nStart ≤ nEnd then
        let nMid := (nStart + nEnd).tdiv 2
        if nMid ≥ table.length then some []
        else if nMid < 0 then some []
        else
          match table[nMid.toNat]? with
          | none => none
          | some entry =>
              if entry.dwNameHash = dwNameHash then some entry.szName
              else if entry.dwNameHash > dwNameHash then
                searchResource table dwNameHash turns nStart (nMid - 1)
              else searchResource table dwNameHash turns (nMid + 1) nEnd
      else some []

section Getters

variable (murmurHash2 : List UInt8 → UInt32) (table : List ObjectResource)

/-- The name of the entry with the hash of the bytes. -/
def getResource (key : Option (List UInt8)) (turns : ℕ) : Option (List UInt16) :=
  key.bind fun bytes => searchResource table (murmurHash2 bytes) turns 0 table.length

/-- `aszTemp` is what the buffer on the stack held before. -/
def getNpcResource (aszTemp : List UInt8) (szPath : List UInt16) (turns : ℕ) :
    Option (List UInt16) :=
  getResource murmurHash2 table (pathKey aszTemp szPath) turns

def getChestResource (aszTemp : List UInt8) (szPath : List UInt16) (turns : ℕ) :
    Option (List UInt16) :=
  getResource murmurHash2 table (pathKey aszTemp szPath) turns

def getMonsterResource (aszTemp : List UInt8) (szPath : List UInt16) (turns : ℕ) :
    Option (List UInt16) :=
  getResource murmurHash2 table (monsterKey aszTemp szPath) turns

end Getters

/-- The name of the entry with the hash, the empty string if there is none. -/
def NameOf (table : List ObjectResource) (dwNameHash : UInt32) (szName : List UInt16) : Prop :=
  (∃ entry ∈ table, entry.dwNameHash = dwNameHash ∧ szName = entry.szName)
    ∨ (∀ entry ∈ table, entry.dwNameHash ≠ dwNameHash) ∧ szName = []

/-- The characters of `szPath.c_str()`. -/
def cStr (szPath : List UInt16) : List UInt16 := szPath.takeWhile (· ≠ 0)

def narrow (chars : List UInt16) : List UInt8 := chars.map UInt16.toUInt8

/-- The path up to its last '@', or the whole path. -/
def beforeLast (szPath : List UInt16) : List UInt16 :=
  if 64 ∈ szPath then (szPath.rdropWhile (· ≠ 64)).dropLast else szPath

/-- A getter, with all that it reads: the hash, its table, its buffer, the path and the turns. -/
abbrev ResourceGetter : Type :=
  (List UInt8 → UInt32) → List ObjectResource → List UInt8 → List UInt16 → ℕ →
    Option (List UInt16)

/-- With every hash and every sorted table the name for the hash of a part of the path is found,
whatever the buffer held before. -/
def Names (getter : ResourceGetter) (part : List UInt16 → List UInt16) (szPath : List UInt16) :
    Prop :=
  ∀ murmurHash2 table aszTemp turns, Ascends ObjectResource.hash table →
    aszTemp.length = maxPath → table.length + 2 ≤ turns →
    ∃ szName, getter murmurHash2 table aszTemp szPath turns = some szName
      ∧ NameOf table (murmurHash2 (narrow (part szPath))) szName

/-- Every character before the terminator has a byte, and all of them fit the buffer. -/
def Readable (szPath : List UInt16) : Prop :=
  (cStr szPath).length < maxPath ∧ ∀ char ∈ cStr szPath, char ≤ 255

section Search

variable {table : List ObjectResource} {dwNameHash : UInt32}

/-- The target is not in the table. -/
theorem nameOf_absent {low high : ℕ}
    (window : Window ObjectResource.hash table dwNameHash.toNat low high)
    (isEmpty : high ≤ low ∨ table.length ≤ low) : NameOf table dwNameHash [] := by
  refine .inr ⟨?_, rfl⟩
  intro entry isMember isSame
  exact window.absent isEmpty entry isMember (congrArg UInt32.toNat isSame)

/-- A search within a window ends with the name of the entry. -/
theorem searchResource_names (ascends : Ascends ObjectResource.hash table)
    {turns low high : ℕ}
    (window : Window ObjectResource.hash table dwNameHash.toNat low high)
    (within : high ≤ table.length + 1) (enough : high - low < turns) :
    ∃ szName, searchResource table dwNameHash turns low ((high : ℤ) - 1) = some szName
      ∧ NameOf table dwNameHash szName := by
  induction turns generalizing low high with
  | zero => exact absurd enough (Nat.not_lt_zero _)
  | succ turns namesRest =>
      simp only [searchResource]
      by_cases isOpen : low < high
      · have isMid : ((low : ℤ) + ((high : ℤ) - 1)).tdiv 2 = ((low + high - 1) / 2 : ℕ) := by
          rw [Int.tdiv_eq_ediv_of_nonneg (by omega)]
          omega
        have notNegative : ¬ (((low + high - 1) / 2 : ℕ) : ℤ) < 0 := by omega
        have atLeast : low ≤ (low + high - 1) / 2 := by omega
        have isLess : (low + high - 1) / 2 < high := by omega
        have isLast : table.length ≤ (low + high - 1) / 2 → table.length ≤ low := by omega
        rw [if_pos (by omega), isMid, if_neg notNegative, Int.toNat_natCast]
        generalize (low + high - 1) / 2 = mid at atLeast isLess isLast
        by_cases isOutside : table.length ≤ mid
        · rw [if_pos (by exact_mod_cast isOutside)]
          exact ⟨[], rfl, nameOf_absent window (.inr (isLast isOutside))⟩
        · rw [if_neg (by exact_mod_cast isOutside)]
          have isEntry := List.getElem?_eq_getElem (not_le.mp isOutside)
          have isMember := List.getElem_mem (not_le.mp isOutside)
          generalize table[mid] = entry at isEntry isMember
          simp only [isEntry, gt_iff_lt]
          rcases lt_trichotomy entry.hash dwNameHash.toNat with isSmaller | isSame | isGreater
          · have isLess : entry.dwNameHash < dwNameHash := isSmaller
            rw [if_neg (UInt32.ne_of_lt isLess), if_neg (UInt32.lt_asymm isLess)]
            have fewer : high - (mid + 1) < turns := by omega
            exact namesRest (window.raise ascends isEntry isSmaller) within fewer
          · have isHash : entry.dwNameHash = dwNameHash := UInt32.toNat_inj.mp isSame
            rw [if_pos isHash]
            exact ⟨_, rfl, .inl ⟨entry, isMember, isHash, rfl⟩⟩
          · have isMore : dwNameHash < entry.dwNameHash := isGreater
            rw [if_neg (UInt32.ne_of_lt isMore).symm, if_pos isMore]
            exact namesRest (window.lower ascends isEntry isGreater) (by omega) (by omega)
      · rw [if_neg (by omega)]
        exact ⟨[], rfl, nameOf_absent window (.inl (not_lt.mp isOpen))⟩

/-- The search of the whole table ends with the name of the entry. -/
theorem getResource_names (ascends : Ascends ObjectResource.hash table)
    (murmurHash2 : List UInt8 → UInt32) (bytes : List UInt8) {turns : ℕ}
    (enough : table.length + 2 ≤ turns) :
    ∃ szName, getResource murmurHash2 table (some bytes) turns = some szName
      ∧ NameOf table (murmurHash2 bytes) szName := by
  have window : Window ObjectResource.hash table (murmurHash2 bytes).toNat 0
      (table.length + 1) := .init (Nat.le_succ _)
  have isEnough : table.length + 1 - 0 < turns := by omega
  have names := searchResource_names ascends window le_rfl isEnough
  simpa [getResource] using names

end Search

section Buffer

variable {szPath : List UInt16} {buffer rest : List UInt8} {char : UInt16}

theorem cStr_cons (char : UInt16) (chars : List UInt16) :
    cStr (char :: chars) = if char = 0 then [] else char :: cStr chars := by
  by_cases isEnd : char = 0
  · simp [cStr, isEnd]
  · simp [cStr, isEnd]

theorem toUInt8_eq_iff (hasByte : char ≤ 255) (byte : UInt8) :
    char.toUInt8 = byte ↔ char = byte.toUInt16 := by
  have isSmall := UInt16.le_iff_toNat_le.mp hasByte
  have inByte := byte.toNat_lt
  rw [← UInt8.toNat_inj, ← UInt16.toNat_inj, UInt16.toNat_toUInt8, UInt8.toNat_toUInt16]
  simp only [UInt16.reduceToNat] at isSmall
  omega

/-- A readable path stands in the buffer with its terminator. -/
theorem wcstombs_readable (short : (cStr szPath).length < buffer.length)
    (hasByte : ∀ char ∈ cStr szPath, char ≤ 255) :
    ∃ rest, wcstombs buffer szPath = narrow (cStr szPath) ++ 0 :: rest := by
  induction buffer generalizing szPath with
  | nil => exact absurd short (Nat.not_lt_zero _)
  | cons byte buffer writesRest =>
      cases szPath with
      | nil => exact ⟨buffer, rfl⟩
      | cons char chars =>
          rw [cStr_cons] at short hasByte ⊢
          by_cases isEnd : char = 0
          · rw [if_pos isEnd, wcstombs, if_neg (by simp [isEnd]), if_pos isEnd]
            exact ⟨buffer, rfl⟩
          · rw [if_neg isEnd] at short hasByte ⊢
            rcases writesRest (Nat.lt_of_succ_lt_succ short)
              (fun other isOther => hasByte other (List.mem_cons_of_mem _ isOther))
              with ⟨rest, writes⟩
            have isSmall := hasByte char List.mem_cons_self
            rw [wcstombs, if_neg (UInt16.not_lt.mpr isSmall), if_neg isEnd, writes]
            exact ⟨rest, rfl⟩

/-- Any other path leaves no terminator in a buffer without zeros. -/
theorem wcstombs_unreadable (filled : 0 ∉ buffer)
    (unreadable : ¬ ((cStr szPath).length < buffer.length ∧ ∀ char ∈ cStr szPath, char ≤ 255)) :
    0 ∉ wcstombs buffer szPath := by
  induction buffer generalizing szPath with
  | nil => exact filled
  | cons byte buffer filledRest =>
      cases szPath with
      | nil =>
          apply absurd _ unreadable
          exact ⟨Nat.succ_pos _, fun _ isChar => absurd isChar List.not_mem_nil⟩
      | cons char chars =>
          rw [cStr_cons] at unreadable
          rw [wcstombs]
          split_ifs with isLarge isEnd
          · exact filled
          · rw [if_pos isEnd] at unreadable
            exact absurd ⟨Nat.succ_pos _, fun _ isChar => absurd isChar List.not_mem_nil⟩ unreadable
          · rw [if_neg isEnd] at unreadable
            have isSmall : char ≤ 255 := UInt16.not_lt.mp isLarge
            have notZero : char.toUInt8 ≠ 0 :=
              fun isZero => isEnd ((toUInt8_eq_iff isSmall 0).mp isZero)
            rw [List.mem_cons, not_or]
            have filledBehind : 0 ∉ buffer := fun isZero => filled (List.mem_cons_of_mem _ isZero)
            refine ⟨notZero.symm, filledRest filledBehind ?_⟩
            rintro ⟨short, hasByte⟩
            apply unreadable
            exact ⟨Nat.succ_lt_succ short, List.forall_mem_cons.mpr ⟨isSmall, hasByte⟩⟩

theorem strlen_append {bytes : List UInt8} (noZero : 0 ∉ bytes) :
    strlen (bytes ++ 0 :: rest) = some bytes.length := by
  have isText : ∀ byte ∈ bytes, (byte ≠ 0 : Bool) = true := by
    intro byte isByte
    exact decide_eq_true fun isZero => noZero (isZero ▸ isByte)
  rw [strlen, if_pos (List.mem_append_right _ List.mem_cons_self),
    List.takeWhile_append_of_pos isText]
  simp

theorem zero_notMem_narrow {chars : List UInt16} (hasByte : ∀ char ∈ chars, char ≤ 255)
    (noEnd : 0 ∉ chars) : 0 ∉ narrow chars := by
  intro isZero
  rcases List.mem_map.mp isZero with ⟨char, isChar, isByte⟩
  have isEnd : char = 0 := (toUInt8_eq_iff (hasByte char isChar) 0).mp isByte
  exact noEnd (isEnd ▸ isChar)

theorem zero_notMem_cStr (szPath : List UInt16) : 0 ∉ cStr szPath := by
  intro isEnd
  simpa using List.mem_takeWhile_imp isEnd

/-- The bytes of a readable path. -/
theorem pathKey_readable (readable : Readable szPath) (isBuffer : buffer.length = maxPath) :
    pathKey buffer szPath = some (narrow (cStr szPath)) := by
  rcases readable with ⟨short, hasByte⟩
  rcases wcstombs_readable (isBuffer ▸ short) hasByte with ⟨rest, writes⟩
  have noZero := zero_notMem_narrow hasByte (zero_notMem_cStr szPath)
  rw [pathKey, writes, strlen_append noZero, Option.map_some, List.take_left]

/-- A path that is not readable has no terminator in a buffer of ones. -/
theorem strlen_unreadable (unreadable : ¬ Readable szPath) :
    strlen (wcstombs (List.replicate maxPath 1) szPath) = none := by
  apply if_neg
  apply wcstombs_unreadable
  · simp
  · rwa [List.length_replicate]

theorem pathKey_unreadable (unreadable : ¬ Readable szPath) :
    pathKey (List.replicate maxPath 1) szPath = none := by
  rw [pathKey, strlen_unreadable unreadable, Option.map_none]

theorem monsterKey_unreadable (unreadable : ¬ Readable szPath) :
    monsterKey (List.replicate maxPath 1) szPath = none := by
  rw [monsterKey, strlen_unreadable unreadable, Option.bind_none]

end Buffer

section LastMark

variable {text szPath : List UInt16} {rest : List UInt8}

theorem beforeLast_marked (text : List UInt16) : beforeLast (text ++ [64]) = text := by
  simp [beforeLast]

theorem beforeLast_concat {char : UInt16} (notMark : char ≠ 64) (isMarked : 64 ∈ text) :
    beforeLast (text ++ [char]) = beforeLast text := by
  rw [beforeLast, beforeLast, if_pos (List.mem_append_left _ isMarked), if_pos isMarked,
    List.rdropWhile_concat, if_pos (decide_eq_true notMark)]

theorem cutAt_concat {char : UInt16} (hasByte : char ≤ 255) :
    cutAt (text ++ [char]).length (narrow (text ++ [char]) ++ rest)
      = if char = 64 then narrow text ++ 0 :: rest
        else cutAt text.length (narrow text ++ char.toUInt8 :: rest) := by
  have isLength : (narrow text).length = text.length := List.length_map _
  have isBuffer : narrow (text ++ [char]) ++ rest = narrow text ++ char.toUInt8 :: rest := by
    simp [narrow]
  have isLast : (narrow text ++ char.toUInt8 :: rest)[text.length]? = some char.toUInt8 := by
    rw [← isLength, List.getElem?_append_right le_rfl, Nat.sub_self, List.getElem?_cons_zero]
  have isMark : char.toUInt8 = 64 ↔ char = 64 := toUInt8_eq_iff hasByte 64
  rw [isBuffer, List.length_append, List.length_singleton, cutAt]
  simp only [isLast, Option.some.injEq, isMark]
  split_ifs
  · rw [← isLength, List.set_append_right _ _ le_rfl, Nat.sub_self, List.set_cons_zero]
  · rfl

theorem cutAt_unmarked (hasByte : ∀ char ∈ text, char ≤ 255) (notMarked : 64 ∉ text) :
    cutAt text.length (narrow text ++ rest) = narrow text ++ rest := by
  induction text using List.reverseRecOn generalizing rest with
  | nil => rfl
  | append_singleton text char cutRest =>
      rw [List.forall_mem_append, List.forall_mem_singleton] at hasByte
      rw [List.mem_append, List.mem_singleton, not_or] at notMarked
      rw [cutAt_concat hasByte.2, if_neg (Ne.symm notMarked.2), cutRest hasByte.1 notMarked.1]
      simp [narrow]

/-- The loop ends the string at its last '@'. -/
theorem cutAt_marked (hasByte : ∀ char ∈ text, char ≤ 255) (isMarked : 64 ∈ text) :
    ∃ after, cutAt text.length (narrow text ++ rest) = narrow (beforeLast text) ++ 0 :: after := by
  induction text using List.reverseRecOn generalizing rest with
  | nil => exact absurd isMarked List.not_mem_nil
  | append_singleton text char cutRest =>
      rw [List.forall_mem_append, List.forall_mem_singleton] at hasByte
      rw [cutAt_concat hasByte.2]
      split_ifs with isMark
      · rw [isMark, beforeLast_marked]
        exact ⟨rest, rfl⟩
      · rw [List.mem_append, List.mem_singleton] at isMarked
        have earlier := isMarked.resolve_right (Ne.symm isMark)
        rw [beforeLast_concat isMark earlier]
        exact cutRest hasByte.1 earlier

theorem beforeLast_isPrefix (text : List UInt16) : beforeLast text <+: text := by
  rw [beforeLast]
  split_ifs
  · apply List.IsPrefix.trans
    · exact List.dropLast_prefix _
    · exact List.rdropWhile_prefix _ _
  · exact List.prefix_rfl

/-- The bytes that `GetMonsterResource` hashes for a readable path. -/
theorem monsterKey_readable (readable : Readable szPath) (isBuffer : rest.length = maxPath) :
    monsterKey rest szPath = some (narrow (beforeLast (cStr szPath))) := by
  rcases readable with ⟨short, hasByte⟩
  rcases wcstombs_readable (isBuffer ▸ short) hasByte with ⟨after, writes⟩
  have noZero := zero_notMem_narrow hasByte (zero_notMem_cStr szPath)
  have isLength : (narrow (cStr szPath)).length = (cStr szPath).length := List.length_map _
  rw [monsterKey, writes, strlen_append noZero, Option.bind_some, isLength]
  by_cases isMarked : 64 ∈ cStr szPath
  · have isCut : ∃ behind, cutAt (cStr szPath).length (narrow (cStr szPath) ++ 0 :: after)
        = narrow (beforeLast (cStr szPath)) ++ 0 :: behind := cutAt_marked hasByte isMarked
    rcases isCut with ⟨behind, cuts⟩
    have isPrefix := beforeLast_isPrefix (cStr szPath)
    have noZeroBefore : 0 ∉ narrow (beforeLast (cStr szPath)) :=
      zero_notMem_narrow (fun char isChar => hasByte char (isPrefix.subset isChar))
        (fun isEnd => zero_notMem_cStr szPath (isPrefix.subset isEnd))
    simp only [cuts, strlen_append noZeroBefore, Option.map_some, List.take_left]
  · have isWhole : beforeLast (cStr szPath) = cStr szPath := if_neg isMarked
    simp only [cutAt_unmarked hasByte isMarked, strlen_append noZero, Option.map_some,
      List.take_left, isWhole]

end LastMark

section Parts

variable {szPath : List UInt16}

theorem cStr_of_notMem (noEnd : 0 ∉ szPath) : cStr szPath = szPath := by
  apply List.takeWhile_eq_self_iff.mpr
  intro char isChar
  exact decide_eq_true fun isEnd => noEnd (isEnd ▸ isChar)

/-- The string ends before any part of the path that holds a terminator. -/
theorem length_cStr_lt (former latter : List UInt16) (isEnd : 0 ∈ former) :
    (cStr (former ++ latter)).length < former.length := by
  induction former with
  | nil => exact absurd isEnd List.not_mem_nil
  | cons char former isLess =>
      rw [List.cons_append, cStr_cons, List.length_cons]
      split_ifs with isZero
      · exact Nat.succ_pos _
      · have later := List.mem_of_ne_of_mem (Ne.symm isZero) isEnd
        exact Nat.succ_lt_succ (isLess later)

theorem beforeLast_append (former : List UInt16) {latter : List UInt16} (notMarked : 64 ∉ latter) :
    beforeLast (former ++ 64 :: latter) = former := by
  induction latter using List.reverseRecOn with
  | nil => exact beforeLast_marked former
  | append_singleton latter char isFormer =>
      rw [List.mem_append, List.mem_singleton, not_or] at notMarked
      have isMarked : 64 ∈ former ++ 64 :: latter :=
        List.mem_append_right _ List.mem_cons_self
      rw [← List.cons_append, ← List.append_assoc, beforeLast_concat (Ne.symm notMarked.2) isMarked]
      exact isFormer notMarked.1

/-- A path with an '@' is cut at the last one. -/
theorem beforeLast_split (isMarked : 64 ∈ szPath) :
    ∃ latter, szPath = beforeLast szPath ++ 64 :: latter ∧ 64 ∉ latter := by
  have inReverse : 64 ∈ szPath.reverse := List.mem_reverse.mpr isMarked
  rcases List.eq_append_cons_of_mem inReverse with ⟨after, before, isReverse, notMarked⟩
  have isSplit : szPath = before.reverse ++ 64 :: after.reverse := by
    rw [← List.reverse_reverse szPath, isReverse]
    simp
  have notMarkedBehind : 64 ∉ after.reverse := fun isMark => notMarked (List.mem_reverse.mp isMark)
  refine ⟨after.reverse, ?_, notMarkedBehind⟩
  rw [isSplit, beforeLast_append _ notMarkedBehind]

theorem cStr_append {former : List UInt16} (noEnd : 0 ∉ former) (latter : List UInt16) :
    cStr (former ++ latter) = former ++ cStr latter := by
  apply List.takeWhile_append_of_pos
  intro char isChar
  exact decide_eq_true fun isEnd => noEnd (isEnd ▸ isChar)

theorem beforeLast_cStr (noEnd : 0 ∉ beforeLast szPath) :
    beforeLast (cStr szPath) = beforeLast szPath := by
  by_cases isMarked : 64 ∈ szPath
  · rcases beforeLast_split isMarked with ⟨latter, isSplit, notMarked⟩
    have isString : cStr szPath = beforeLast szPath ++ 64 :: cStr latter := by
      rw [isSplit, beforeLast_append _ notMarked, cStr_append noEnd, cStr_cons, if_neg (by decide)]
    have isPart : cStr latter <+: latter := List.takeWhile_prefix _
    rw [isString]
    apply beforeLast_append
    exact fun isMark => notMarked (isPart.subset isMark)
  · have isWhole : beforeLast szPath = szPath := if_neg isMarked
    rw [isWhole] at noEnd
    rw [cStr_of_notMem noEnd]

end Parts

/-- The bytes that a getter hashes, and the part of the path that they come from. -/
structure Hashes (key : List UInt8 → List UInt16 → Option (List UInt8))
    (part : List UInt16 → List UInt16) : Prop where
  readable : ∀ {aszTemp szPath}, Readable szPath → aszTemp.length = maxPath →
    key aszTemp szPath = some (narrow (part (cStr szPath)))
  unreadable : ∀ {szPath}, ¬ Readable szPath → key (List.replicate maxPath 1) szPath = none
  whole : ∀ {szPath}, 0 ∉ part szPath → part (cStr szPath) = part szPath
  shortened : ∀ {szPath}, 0 ∈ part szPath → (part (cStr szPath)).length < (part szPath).length

theorem pathKey_hashes : Hashes pathKey id where
  readable := pathKey_readable
  unreadable := pathKey_unreadable
  whole := cStr_of_notMem
  shortened {szPath} isEnd := by
    have isLess := length_cStr_lt szPath [] isEnd
    rwa [List.append_nil] at isLess

theorem monsterKey_hashes : Hashes monsterKey beforeLast where
  readable := monsterKey_readable
  unreadable := monsterKey_unreadable
  whole := beforeLast_cStr
  shortened {szPath} isEnd := by
    rcases beforeLast_isPrefix szPath with ⟨latter, isSplit⟩
    have isLess := length_cStr_lt (beforeLast szPath) latter isEnd
    rw [isSplit] at isLess
    exact (beforeLast_isPrefix _).length_le.trans_lt isLess

namespace Hashes

variable {key : List UInt8 → List UInt16 → Option (List UInt8)}
  {part : List UInt16 → List UInt16} {szPath : List UInt16}

/-- A getter that hashes the bytes of the key. -/
def getter (key : List UInt8 → List UInt16 → Option (List UInt8)) : ResourceGetter :=
  fun murmurHash2 table aszTemp szPath turns =>
    getResource murmurHash2 table (key aszTemp szPath) turns

theorem names_of_readable (hashes : Hashes key part) (readable : Readable szPath)
    (noEnd : 0 ∉ part szPath) : Names (getter key) part szPath := by
  intro murmurHash2 table aszTemp turns ascends isBuffer enough
  rw [getter, hashes.readable readable isBuffer, hashes.whole noEnd]
  exact getResource_names ascends murmurHash2 _ enough

theorem readable_of_names (hashes : Hashes key part) (names : Names (getter key) part szPath) :
    Readable szPath := by
  by_contra unreadable
  rcases names (fun _ => 0) [] (List.replicate maxPath 1) 2 .nil List.length_replicate le_rfl
    with ⟨szName, isName, _⟩
  rw [getter, hashes.unreadable unreadable] at isName
  exact Option.some_ne_none _ isName.symm

/-- A terminator in the part: only what stands before it is hashed, and another entry is found. -/
theorem noEnd_of_names (hashes : Hashes key part) (names : Names (getter key) part szPath) :
    0 ∉ part szPath := by
  intro isEnd
  have readable := hashes.readable_of_names names
  have isBuffer : (List.replicate maxPath (1 : UInt8)).length = maxPath := List.length_replicate
  have notPart : narrow (part (cStr szPath)) ≠ narrow (part szPath) := by
    intro isSame
    have sameLength := congrArg List.length isSame
    rw [narrow, narrow, List.length_map, List.length_map] at sameLength
    exact absurd sameLength (hashes.shortened isEnd).ne
  have ascends : Ascends ObjectResource.hash [⟨0, [65]⟩] := List.pairwise_singleton _ _
  rcases names (fun bytes => if bytes = narrow (part szPath) then 0 else 1) [⟨0, [65]⟩]
    (List.replicate maxPath 1) 3 ascends isBuffer le_rfl with ⟨szName, isName, nameOf⟩
  have isSearched : searchResource [⟨0, [65]⟩] 1 3 0 1 = some [] := by decide
  have isFound : getter key (fun bytes => if bytes = narrow (part szPath) then 0 else 1)
      [⟨0, [65]⟩] (List.replicate maxPath 1) szPath 3 = some [] := by
    simp only [getter, hashes.readable readable isBuffer, getResource, Option.bind_some,
      if_neg notPart]
    exact isSearched
  rw [isFound, Option.some.injEq] at isName
  rw [if_pos rfl, ← isName] at nameOf
  rcases nameOf with ⟨entry, isEntry, _, isNamed⟩ | ⟨noEntry, _⟩
  · rw [List.mem_singleton.mp isEntry] at isNamed
    exact absurd isNamed (by decide)
  · exact noEntry _ (List.mem_singleton_self _) rfl

theorem names_iff (hashes : Hashes key part) :
    Names (getter key) part szPath ↔ 0 ∉ part szPath ∧ Readable szPath := by
  constructor
  · exact fun names => ⟨hashes.noEnd_of_names names, hashes.readable_of_names names⟩
  · exact fun ⟨noEnd, readable⟩ => hashes.names_of_readable readable noEnd

end Hashes

/-- Exactly the paths that are readable, without a terminator in the part that is hashed, are
looked up. -/
theorem getResources_names_iff (szPath : List UInt16) :
    (Names getNpcResource id szPath ↔ 0 ∉ szPath ∧ Readable szPath)
      ∧ (Names getChestResource id szPath ↔ 0 ∉ szPath ∧ Readable szPath)
      ∧ (Names getMonsterResource beforeLast szPath
        ↔ 0 ∉ beforeLast szPath ∧ Readable szPath) :=
  ⟨pathKey_hashes.names_iff, pathKey_hashes.names_iff, monsterKey_hashes.names_iff⟩

/-- A path of `MAX_PATH` characters is not looked up. -/
theorem longPath_unterminated :
    ¬ (Names getNpcResource id (List.replicate 260 97)
      ∨ Names getChestResource id (List.replicate 260 97)
      ∨ Names getMonsterResource beforeLast (List.replicate 260 97)) := by
  have unreadable : ¬ Readable (List.replicate 260 97) := by
    intro readable
    exact absurd readable.1 (by decide +kernel)
  rintro (names | names | names)
  · exact unreadable (pathKey_hashes.readable_of_names names)
  · exact unreadable (pathKey_hashes.readable_of_names names)
  · exact unreadable (monsterKey_hashes.readable_of_names names)

end PoETask.Attach
