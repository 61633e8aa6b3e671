import PoETask.Attach.Inventory
import Mathlib.Data.List.TakeWhile

/-!
# Choosing what to buy

`GetPurchaseItemIndex`: the first entry of the purchase table that may be bought from an npc. The
items that are to be given away are counted in a variable that starts at zero once only, so that
an entry also counts what was counted for the entries before it.
-/

namespace PoETask.Attach

/-- A null `completeQuestName` is no name. -/
structure PurchaseItemInfo where
  purchaseItemName : WString
  needItemName : WString
  needItemCount : UInt8
  npcName : WString
  completeQuestName : Option WString

structure QuestState where
  name : WString
  isCompleted : Bool

/-- A number as a `DWORD`. -/
def dword (n : ℤ) : ℤ := n % 0x100000000

/-- `itemType` 0 adds up stacks; 1 counts items, and is one for an item that is socketed. -/
def getItemCountByType (itemName : WString) (pInven : InventoryHolder) (itemType : UInt8) : ℤ :=
  let dwCount := pInven.inventory.slotItems.foldl
    (fun dwCount pItem =>
      if itemName = pItem.displayName then
        if itemType = 0 then dword (dwCount + pItem.stackSize) else dword (dwCount + 1)
      else dwCount)
    0
  if itemType = 1 ∧ (pInven.inventory.slotItems.any fun pItem =>
      pItem.socketedNames.any fun socketed => itemName = socketed) then 1
  else dwCount

namespace PurchaseItemInfo

variable (entry : PurchaseItemInfo) (quests : List QuestState) (npcName : WString)
  (playerInventories : List InventoryHolder)

/-- The quest that is to be completed first. -/
def questDone : Bool :=
  match entry.completeQuestName with
  | none => true
  | some [] => true
  | some name => quests.any fun pQuest => pQuest.name = name && pQuest.isCompleted

/-- The loop over the inventories: it is left at one that holds the item. -/
def needLoop : List InventoryHolder → ℤ → ℤ → ℤ × ℤ
  | [], dwItemCount, dwNeedItemCount => (dwItemCount, dwNeedItemCount)
  | pInven :: rest, _, dwNeedItemCount =>
      let dwItemCount := getItemCountByType entry.purchaseItemName pInven 1
      if dwItemCount ≠ 0 then (dwItemCount, dwNeedItemCount)
      else
        needLoop rest dwItemCount
          (dword (dwNeedItemCount + getItemCountByType entry.needItemName pInven 0))

end PurchaseItemInfo

section Purchase

variable (quests : List QuestState) (npcName : WString) (playerInventories : List InventoryHolder)

/-- The loop over the table. -/
def purchaseLoop : List PurchaseItemInfo → ℤ → ℤ → Option ℕ
  | [], _, _ => none
  | entry :: rest, dwItemCount, dwNeedItemCount =>
      if entry.questDone quests && npcName = entry.npcName then
        let (dwItemCount, dwNeedItemCount) :=
          entry.needLoop playerInventories dwItemCount dwNeedItemCount
        if dwItemCount ≠ 0 then (purchaseLoop rest dwItemCount dwNeedItemCount).map (· + 1)
        else if dwNeedItemCount < entry.needItemCount.toNat then
          (purchaseLoop rest dwItemCount dwNeedItemCount).map (· + 1)
        else some 0
      else (purchaseLoop rest dwItemCount dwNeedItemCount).map (· + 1)

/-- The index of the entry; `NOINDEX` is `none`. -/
def getPurchaseItemIndex (infoPurchaseItem : List PurchaseItemInfo) : Option ℕ :=
  purchaseLoop quests npcName playerInventories infoPurchaseItem 0 0

end Purchase

theorem dword_add_left (m n : ℤ) : dword (dword m + n) = dword (m + n) :=
  Int.emod_add_emod m 0x100000000 n

theorem dword_add_right (m n : ℤ) : dword (m + dword n) = dword (m + n) :=
  Int.add_emod_emod m n 0x100000000

theorem dword_of_lt {n : ℤ} (nonneg : 0 ≤ n) (small : n < 0x100000000) : dword n = n :=
  Int.emod_eq_of_lt nonneg small

/-- The sum of the stack sizes of an item in an inventory. -/
def InventoryHolder.stacks (pInven : InventoryHolder) (itemName : WString) : ℤ :=
  ((pInven.inventory.slotItems.filter fun pItem => itemName = pItem.displayName).map
    InvenSlotItem.stackSize).sum

/-- An inventory holds an item, or an item in which it is socketed. -/
def InventoryHolder.Owns (pInven : InventoryHolder) (itemName : WString) : Prop :=
  ∃ pItem ∈ pInven.inventory.slotItems,
    itemName = pItem.displayName ∨ itemName ∈ pItem.socketedNames

instance (pInven : InventoryHolder) (itemName : WString) : Decidable (pInven.Owns itemName) :=
  List.decidableBEx _ _

section Count

variable {itemName : WString} {pInven : InventoryHolder}

theorem foldl_dword (counts : InvenSlotItem → Bool) (size : InvenSlotItem → ℤ)
    (slotItems : List InvenSlotItem) (start : ℤ) :
    slotItems.foldl
        (fun dwCount pItem => if counts pItem then dword (dwCount + size pItem) else dwCount)
        (dword start)
      = dword (start + ((slotItems.filter counts).map size).sum) := by
  induction slotItems generalizing start with
  | nil => simp
  | cons pItem rest sumRest =>
      rw [List.foldl_cons]
      by_cases isCounted : counts pItem
      · rw [if_pos isCounted, dword_add_left, sumRest, List.filter_cons_of_pos isCounted,
          List.map_cons, List.sum_cons, add_assoc]
      · rw [if_neg isCounted, sumRest, List.filter_cons_of_neg isCounted]

theorem getItemCountByType_stacks (itemName : WString) (pInven : InventoryHolder) :
    getItemCountByType itemName pInven 0 = dword (pInven.stacks itemName) := by
  have sum := foldl_dword (fun pItem => itemName = pItem.displayName) InvenSlotItem.stackSize
    pInven.inventory.slotItems 0
  simp only [decide_eq_true_eq, zero_add] at sum
  have notOwn : ¬ ((0 : UInt8) = 1) := by decide
  simp only [getItemCountByType, notOwn, false_and, if_false, if_true]
  exact sum

theorem getItemCountByType_eq_zero_iff (itemName : WString) (pInven : InventoryHolder) :
    getItemCountByType itemName pInven 1 = 0 ↔ ¬ pInven.Owns itemName := by
  have count := foldl_dword (fun pItem => itemName = pItem.displayName) (fun _ => 1)
    pInven.inventory.slotItems 0
  have atMost := List.length_filter_le (fun pItem => decide (itemName = pItem.displayName))
    pInven.inventory.slotItems
  have small := pInven.inventory.indexed
  simp only [decide_eq_true_eq, zero_add, List.map_const', List.sum_replicate, nsmul_eq_mul,
    mul_one] at count
  rw [dword_of_lt le_rfl (by decide), dword_of_lt (by omega) (by omega)] at count
  have notStacks : ¬ ((1 : UInt8) = 0) := by decide
  simp only [getItemCountByType, notStacks, if_false, true_and]
  split_ifs with isSocketed
  · simp only [List.any_eq_true, decide_eq_true_eq] at isSocketed
    rcases isSocketed with ⟨pItem, isItem, socketed, isSocketed, isSame⟩
    have owns : pInven.Owns itemName := ⟨pItem, isItem, .inr (isSame ▸ isSocketed)⟩
    exact iff_of_false one_ne_zero (not_not_intro owns)
  · rw [count, Nat.cast_eq_zero, List.length_eq_zero_iff, List.filter_eq_nil_iff]
    simp only [List.any_eq_true, decide_eq_true_eq, not_exists, not_and] at isSocketed
    simp only [InventoryHolder.Owns, decide_eq_true_eq, not_exists, not_and, not_or]
    constructor
    · intro noneNamed pItem isItem
      exact ⟨noneNamed pItem isItem, fun isIn => isSocketed pItem isItem itemName isIn rfl⟩
    · exact fun notOwned pItem isItem => (notOwned pItem isItem).1

end Count

namespace PurchaseItemInfo

variable (entry : PurchaseItemInfo) (quests : List QuestState) (npcName : WString)
  (playerInventories : List InventoryHolder)

/-- The entry's quest and npc are right, and its item is in no inventory. -/
structure Offered : Prop where
  quest : entry.questDone quests = true
  npc : npcName = entry.npcName
  notOwned : ∀ pInven ∈ playerInventories, ¬ pInven.Owns entry.purchaseItemName

/-- The sum of the stacks of the entry's needed item. -/
def available : ℤ :=
  (playerInventories.map fun pInven => pInven.stacks entry.needItemName).sum

/-- An offered entry for which enough is available. -/
structure Qualifies : Prop where
  offered : entry.Offered quests npcName playerInventories
  enough : entry.needItemCount.toNat ≤ entry.available playerInventories

/-- What an entry leaves in the count: the stacks up to an inventory that holds its item. -/
def leaves : ℤ :=
  if entry.questDone quests ∧ npcName = entry.npcName then
    ((playerInventories.takeWhile fun pInven => ¬ pInven.Owns entry.purchaseItemName).map
      fun pInven => pInven.stacks entry.needItemName).sum
  else 0

instance : Decidable (entry.Offered quests npcName playerInventories) :=
  decidable_of_iff (entry.questDone quests = true ∧ npcName = entry.npcName
      ∧ ∀ pInven ∈ playerInventories, ¬ pInven.Owns entry.purchaseItemName)
    ⟨fun ⟨quest, npc, notOwned⟩ => ⟨quest, npc, notOwned⟩,
      fun ⟨quest, npc, notOwned⟩ => ⟨quest, npc, notOwned⟩⟩

instance : Decidable (entry.Qualifies quests npcName playerInventories) :=
  decidable_of_iff (entry.Offered quests npcName playerInventories
      ∧ entry.needItemCount.toNat ≤ entry.available playerInventories)
    ⟨fun ⟨offered, enough⟩ => ⟨offered, enough⟩, fun ⟨offered, enough⟩ => ⟨offered, enough⟩⟩

variable {entry quests npcName playerInventories}

theorem needLoop_spec {dwItemCount : ℤ} (n : ℤ)
    (settled : playerInventories = [] → dwItemCount = 0) :
    ((entry.needLoop playerInventories dwItemCount (dword n)).1 = 0
        ↔ ∀ pInven ∈ playerInventories, ¬ pInven.Owns entry.purchaseItemName)
      ∧ (entry.needLoop playerInventories dwItemCount (dword n)).2
        = dword (n + ((playerInventories.takeWhile fun pInven =>
            ¬ pInven.Owns entry.purchaseItemName).map
          fun pInven => pInven.stacks entry.needItemName).sum) := by
  induction playerInventories generalizing dwItemCount n with
  | nil => simp [needLoop, settled]
  | cons pInven rest specRest =>
      simp only [needLoop]
      by_cases owns : pInven.Owns entry.purchaseItemName
      · have isCounted : getItemCountByType entry.purchaseItemName pInven 1 ≠ 0 := by
          rw [ne_eq, getItemCountByType_eq_zero_iff, not_not]
          exact owns
        simp [isCounted, owns]
      · have notCounted := (getItemCountByType_eq_zero_iff entry.purchaseItemName pInven).mpr owns
        rcases specRest (n + pInven.stacks entry.needItemName) (fun _ => notCounted) with
          ⟨first, second⟩
        rw [if_neg (not_not_intro notCounted), getItemCountByType_stacks, dword_add_left,
          dword_add_right]
        simp only [first, second, List.mem_cons, forall_eq_or_imp, owns, not_false_eq_true,
          true_and, decide_true, List.takeWhile_cons_of_pos, List.map_cons, List.sum_cons,
          add_assoc]

end PurchaseItemInfo

/-- Where an entry is offered and none before it qualifies, the count that has come together, from
`start` on, is enough for it exactly if its own stacks are. -/
def CountsOwn (quests : List QuestState) (npcName : WString)
    (playerInventories : List InventoryHolder) (start : ℤ)
    (infoPurchaseItem : List PurchaseItemInfo) : Prop :=
  ∀ (before : List PurchaseItemInfo) (entry : PurchaseItemInfo) (after : List PurchaseItemInfo),
    infoPurchaseItem = before ++ entry :: after →
    (∀ earlier ∈ before, ¬ earlier.Qualifies quests npcName playerInventories) →
    entry.Offered quests npcName playerInventories →
    (entry.needItemCount.toNat
        ≤ dword (start + (before.map fun earlier =>
            earlier.leaves quests npcName playerInventories).sum
          + entry.available playerInventories)
      ↔ entry.needItemCount.toNat ≤ entry.available playerInventories)

section Purchase

variable {quests : List QuestState} {npcName : WString} {playerInventories : List InventoryHolder}
  {entry : PurchaseItemInfo} {rest : List PurchaseItemInfo} {start : ℤ}

theorem countsOwn_cons :
    CountsOwn quests npcName playerInventories start (entry :: rest)
      ↔ (entry.Offered quests npcName playerInventories →
          (entry.needItemCount.toNat ≤ dword (start + entry.available playerInventories)
            ↔ entry.needItemCount.toNat ≤ entry.available playerInventories))
        ∧ (¬ entry.Qualifies quests npcName playerInventories →
          CountsOwn quests npcName playerInventories
            (start + entry.leaves quests npcName playerInventories) rest) := by
  constructor
  · intro countsOwn
    constructor
    · intro offered
      have own := countsOwn [] entry rest rfl (fun _ isIn => absurd isIn List.not_mem_nil) offered
      simpa using own
    · intro notQualified before later after isRest noneQualified offered
      have own := countsOwn (entry :: before) later after (by rw [isRest]; rfl)
        (List.forall_mem_cons.mpr ⟨notQualified, noneQualified⟩) offered
      simpa [add_assoc] using own
  · rintro ⟨ownFirst, ownRest⟩ before later after isTable noneQualified offered
    rcases before with _ | ⟨first, before⟩
    · rw [List.nil_append, List.cons.injEq] at isTable
      rcases isTable with ⟨rfl, rfl⟩
      simpa using ownFirst offered
    · rw [List.cons_append, List.cons.injEq] at isTable
      rcases isTable with ⟨rfl, rfl⟩
      rcases List.forall_mem_cons.mp noneQualified with ⟨notQualified, noneQualified⟩
      simpa [add_assoc] using ownRest notQualified before later after rfl noneQualified offered

theorem takeWhile_eq_self_of_notOwned {itemName : WString}
    (notOwned : ∀ pInven ∈ playerInventories, ¬ pInven.Owns itemName) :
    (playerInventories.takeWhile fun pInven => ¬ pInven.Owns itemName) = playerInventories := by
  apply List.takeWhile_eq_self_iff.mpr
  intro pInven isIn
  exact decide_eq_true (notOwned pInven isIn)

theorem map_succ_inj {x y : Option ℕ} : x.map (· + 1) = y.map (· + 1) ↔ x = y :=
  (Option.map_injective Nat.succ_injective).eq_iff

/-- Where the entry is not offered, its turn goes on with the stacks that it leaves. -/
theorem purchaseLoop_of_notOffered (rest : List PurchaseItemInfo) (start : ℤ) {dwItemCount : ℤ}
    (settled : playerInventories = [] → dwItemCount = 0)
    (notOffered : ¬ entry.Offered quests npcName playerInventories) :
    ∃ dwItemCount', (playerInventories = [] → dwItemCount' = 0)
      ∧ purchaseLoop quests npcName playerInventories (entry :: rest) dwItemCount (dword start)
        = (purchaseLoop quests npcName playerInventories rest dwItemCount'
            (dword (start + entry.leaves quests npcName playerInventories))).map (· + 1) := by
  by_cases isAsked : entry.questDone quests = true ∧ npcName = entry.npcName
  · have asked : (entry.questDone quests && decide (npcName = entry.npcName)) = true := by
      simpa using isAsked
    have owned : ¬ ∀ pInven ∈ playerInventories, ¬ pInven.Owns entry.purchaseItemName :=
      fun notOwned => notOffered ⟨isAsked.1, isAsked.2, notOwned⟩
    rcases entry.needLoop_spec start settled with ⟨isFresh, isCount⟩
    refine ⟨(entry.needLoop playerInventories dwItemCount (dword start)).1, ?_, ?_⟩
    · intro isEmpty
      exact absurd (fun _ isIn => absurd isIn (isEmpty ▸ List.not_mem_nil)) owned
    · simp only [purchaseLoop, if_pos asked, if_pos (isFresh.not.mpr owned), isCount,
        PurchaseItemInfo.leaves, if_pos isAsked]
  · have notAsked : ¬ (entry.questDone quests && decide (npcName = entry.npcName)) = true := by
      simpa using isAsked
    refine ⟨dwItemCount, settled, ?_⟩
    simp only [purchaseLoop, if_neg notAsked, PurchaseItemInfo.leaves, if_neg isAsked, add_zero]

/-- Where the entry is offered, its own stacks and what the earlier entries left are compared. -/
theorem purchaseLoop_of_offered (rest : List PurchaseItemInfo) (start : ℤ) {dwItemCount : ℤ}
    (settled : playerInventories = [] → dwItemCount = 0)
    (offered : entry.Offered quests npcName playerInventories) :
    ∃ dwItemCount', (playerInventories = [] → dwItemCount' = 0)
      ∧ purchaseLoop quests npcName playerInventories (entry :: rest) dwItemCount (dword start)
        = if dword (start + entry.available playerInventories) < entry.needItemCount.toNat then
            (purchaseLoop quests npcName playerInventories rest dwItemCount'
              (dword (start + entry.leaves quests npcName playerInventories))).map (· + 1)
          else some 0 := by
  rcases offered with ⟨quest, npc, notOwned⟩
  have asked : (entry.questDone quests && decide (npcName = entry.npcName)) = true := by
    simpa using ⟨quest, npc⟩
  have isAvailable : entry.leaves quests npcName playerInventories
      = entry.available playerInventories := by
    rw [PurchaseItemInfo.leaves, if_pos ⟨quest, npc⟩, takeWhile_eq_self_of_notOwned notOwned]
    rfl
  rcases entry.needLoop_spec start settled with ⟨isFresh, isCount⟩
  rw [takeWhile_eq_self_of_notOwned notOwned] at isCount
  refine ⟨_, fun _ => isFresh.mpr notOwned, ?_⟩
  simp only [purchaseLoop, if_pos asked, if_neg (not_not_intro (isFresh.mpr notOwned)), isCount,
    isAvailable]
  rfl

/-- The loop finds the first entry that qualifies exactly if every count it compares is as good as
the entry's own one. -/
theorem purchaseLoop_eq_iff {dwItemCount : ℤ}
    (settled : playerInventories = [] → dwItemCount = 0) (table : List PurchaseItemInfo) :
    purchaseLoop quests npcName playerInventories table dwItemCount (dword start)
        = table.findIdx? (fun entry => entry.Qualifies quests npcName playerInventories)
      ↔ CountsOwn quests npcName playerInventories start table := by
  induction table generalizing start dwItemCount with
  | nil => simp [purchaseLoop, CountsOwn]
  | cons entry rest eqRest =>
      rw [countsOwn_cons, List.findIdx?_cons]
      by_cases offered : entry.Offered quests npcName playerInventories
      · rcases purchaseLoop_of_offered rest start settled offered
          with ⟨_, settled', isTurn⟩
        rw [isTurn]
        by_cases enough : entry.needItemCount.toNat ≤ entry.available playerInventories
        · have qualifies : entry.Qualifies quests npcName playerInventories := ⟨offered, enough⟩
          simp only [offered, qualifies, enough, decide_true, if_true, true_implies, iff_true,
            not_true_eq_false, false_implies, and_true]
          split_ifs with isLess
          · simp [isLess]
          · simp [not_lt.mp isLess]
        · have notQualified : ¬ entry.Qualifies quests npcName playerInventories :=
            fun qualifies => enough qualifies.enough
          simp only [offered, notQualified, enough, decide_false, Bool.false_eq_true, if_false,
            true_implies, iff_false, not_le, not_false_eq_true]
          split_ifs with isLess
          · rw [map_succ_inj, eqRest settled']
            exact (and_iff_right isLess).symm
          · simp [isLess]
      · rcases purchaseLoop_of_notOffered rest start settled offered
          with ⟨_, settled', isTurn⟩
        have notQualified : ¬ entry.Qualifies quests npcName playerInventories :=
          fun qualifies => offered qualifies.offered
        simp only [isTurn, offered, notQualified, decide_false, Bool.false_eq_true, if_false,
          map_succ_inj, false_implies, true_and, not_false_eq_true, true_implies]
        exact eqRest settled'

end Purchase

/-- The first entry that qualifies is found exactly if no count that was left by earlier entries
makes a difference. -/
theorem getPurchaseItemIndex_eq_iff (quests : List QuestState) (npcName : WString)
    (playerInventories : List InventoryHolder) (infoPurchaseItem : List PurchaseItemInfo) :
    getPurchaseItemIndex quests npcName playerInventories infoPurchaseItem
        = infoPurchaseItem.findIdx? (fun entry =>
          entry.Qualifies quests npcName playerInventories)
      ↔ CountsOwn quests npcName playerInventories 0 infoPurchaseItem := by
  have isZero : dword 0 = 0 := by decide
  rw [← purchaseLoop_eq_iff fun _ => rfl, isZero, getPurchaseItemIndex]

/-- Five orbs in the main inventory. -/
def orbInventory : InventoryHolder where
  id := 1
  inventory := ⟨12, 5, [{
    displayName := wide "Orb of Transmutation"
    path := wide "Metadata/Items/Currency/CurrencyUpgradeToMagic"
    itemQuality := 0
    stackSize := 5
    socketedNames := []
    itemWidth := 1
    itemHeight := 1
    xMin := 0
    yMin := 0
    itemKey := 1 }], by decide⟩

/-- An entry that asks for ten orbs. -/
def tenOrbs (purchaseItemName : String) : PurchaseItemInfo where
  purchaseItemName := wide purchaseItemName
  needItemName := wide "Orb of Transmutation"
  needItemCount := 10
  npcName := wide "Nessa"
  completeQuestName := none

/-- With five orbs the second of two entries for ten is chosen, since they are counted twice. -/
theorem getPurchaseItemIndex_countsTwice :
    ¬ ∀ (quests : List QuestState) (npcName : WString) (playerInventories : List InventoryHolder)
      (infoPurchaseItem : List PurchaseItemInfo), playerInventories ≠ [] →
      getPurchaseItemIndex quests npcName playerInventories infoPurchaseItem
        = infoPurchaseItem.findIdx? fun entry =>
          entry.Qualifies quests npcName playerInventories := by
  intro claimed
  have isSame := claimed [] (wide "Nessa") [orbInventory]
    [tenOrbs "Storm Brand", tenOrbs "Frostbolt"] (by simp)
  exact absurd isSame (by decide +kernel)

end PoETask.Attach
