import PoETask.Attach.Inventory

/-!
# Selling items

`SellItemToNpc` while the sell window is open: the items to sell are moved into the offer one
after the other, and the trade is accepted when none is left. Whether an item lies in the offer is
kept in a variable that is never reset.
-/

namespace PoETask.Attach

def hasItemToSell (itemData : InvenSlotItem) : Bool :=
  if finds itemData.path "/QuestItems/" then false
  else if finds itemData.path "/Currency/" then false
  else if finds itemData.path "/Gems/" then false
  else if finds itemData.path "Cards/" then false
  else if finds itemData.path "/Jewels/" then false
  else if finds itemData.path "/Flasks/" ∧ itemData.itemQuality > 0 then false
  else true

/-- `MoveTradeItem` and `TradeAccept` with their arguments. -/
inductive TradeAction where
  | moveTradeItem (invenIndex : ℤ) (itemKey : UInt32) (targetCellX targetCellY : ℤ)
  | tradeAccept (lastItemKey : UInt32)
  deriving DecidableEq

/-- The main inventory, and the second and the first of the npc's. -/
structure TradeWindow where
  pInven : InventoryHolder
  pNpcInven1 : InventoryHolder
  pNpcInven2 : InventoryHolder

def InvenSlotItem.sameCell (pNpcItem pItem : InvenSlotItem) : Bool :=
  pNpcItem.xMin = pItem.xMin && pNpcItem.yMin = pItem.yMin

def InvenSlotItem.moveInto (pItem : InvenSlotItem) (invenId : ℤ) : TradeAction :=
  .moveTradeItem invenId pItem.itemKey pItem.xMin pItem.yMin

namespace TradeWindow

variable (window : TradeWindow)

/-- The loop over the items of the main inventory; `dwSellIndex` goes from item to item. -/
def sellLoop : List InvenSlotItem → Option ℕ → Option TradeAction
  | [], _ => none
  | pItem :: rest, dwSellIndex =>
      if !hasItemToSell pItem then sellLoop rest dwSellIndex
      else
        let found := window.pNpcInven1.inventory.slotItems.findIdx? fun pNpcItem =>
          pNpcItem.sameCell pItem
        if (found.or dwSellIndex).isNone then some (pItem.moveInto window.pInven.id)
        else sellLoop rest (found.or dwSellIndex)

/-- What is sent; `none` when the npc offers nothing. -/
def sellItemToNpc : Option TradeAction :=
  (window.sellLoop window.pInven.inventory.slotItems none).or
    (window.pNpcInven2.inventory.slotItems.getLast?.map fun last => .tradeAccept last.itemKey)

/-- The item has an entry at its cell in the offer. -/
def Placed (pItem : InvenSlotItem) : Prop :=
  ∃ pNpcItem ∈ window.pNpcInven1.inventory.slotItems,
    pNpcItem.xMin = pItem.xMin ∧ pNpcItem.yMin = pItem.yMin

/-- The items that are to be sold. -/
def toSell : List InvenSlotItem := window.pInven.inventory.slotItems.filter hasItemToSell

/-- The trade is accepted only with everything placed, and otherwise an item that is not placed is
moved. -/
structure Completes (action : Option TradeAction) : Prop where
  accepts : ∀ lastItemKey, action = some (.tradeAccept lastItemKey) →
    ∀ pItem ∈ window.toSell, window.Placed pItem
  moves : (¬ ∀ pItem ∈ window.toSell, window.Placed pItem) →
    ∃ pItem ∈ window.toSell, ¬ window.Placed pItem
      ∧ action = some (pItem.moveInto window.pInven.id)

variable {window} {pItem : InvenSlotItem}

theorem isNone_findIdx?_sameCell :
    (window.pNpcInven1.inventory.slotItems.findIdx? fun pNpcItem =>
        pNpcItem.sameCell pItem).isNone
      ↔ ¬ window.Placed pItem := by
  simp only [Option.isNone_iff_eq_none, List.findIdx?_eq_none_iff, InvenSlotItem.sameCell, Placed,
    Bool.and_eq_false_iff, decide_eq_false_iff_not, not_exists, not_and, imp_iff_not_or]

/-- Once an item was found in the offer, no later one is moved. -/
theorem sellLoop_some (window : TradeWindow) (items : List InvenSlotItem) (j : ℕ) :
    window.sellLoop items (some j) = none := by
  induction items generalizing j with
  | nil => rfl
  | cons pItem rest noneRest =>
      have isFound : ∀ found : Option ℕ, ∃ k, found.or (some j) = some k := by
        intro found
        cases found with
        | none => exact ⟨j, rfl⟩
        | some k => exact ⟨k, rfl⟩
      rcases isFound (window.pNpcInven1.inventory.slotItems.findIdx? fun pNpcItem =>
        pNpcItem.sameCell pItem) with ⟨k, isSome⟩
      simp only [sellLoop, isSome, Option.isNone_some, Bool.false_eq_true, if_false, noneRest,
        ite_self]

/-- The loop moves the first item to sell, or nothing at all. -/
theorem sellLoop_none (window : TradeWindow) (items : List InvenSlotItem) :
    (∀ first ∈ (items.filter hasItemToSell).head?, ¬ window.Placed first →
        window.sellLoop items none = some (first.moveInto window.pInven.id))
      ∧ ((∀ first ∈ (items.filter hasItemToSell).head?, window.Placed first) →
        window.sellLoop items none = none) := by
  induction items with
  | nil => simp [sellLoop]
  | cons pItem rest firstRest =>
      by_cases isKept : hasItemToSell pItem = true
      · simp only [sellLoop, isKept, List.filter_cons_of_pos, List.head?_cons, Option.mem_def,
          Option.some_inj, forall_eq', Option.or_none, Bool.not_true, Bool.false_eq_true, if_false]
        constructor
        · intro notPlaced
          rw [if_pos (isNone_findIdx?_sameCell.mpr notPlaced)]
        · intro placed
          have notNone := isNone_findIdx?_sameCell.not.mpr (not_not_intro placed)
          rw [if_neg notNone]
          rcases Option.ne_none_iff_exists'.mp (Option.isNone_iff_eq_none.not.mp notNone)
            with ⟨j, isFound⟩
          rw [isFound]
          exact window.sellLoop_some rest j
      · have isSkipped : (!hasItemToSell pItem) = true := by simpa using isKept
        rw [List.filter_cons_of_neg isKept]
        simp only [sellLoop, if_pos isSkipped]
        exact firstRest

/-- The sale is completed exactly if everything is placed or the first item to sell is not. -/
theorem sellItemToNpc_completes_iff (window : TradeWindow) :
    window.Completes window.sellItemToNpc
      ↔ (∀ pItem ∈ window.toSell, window.Placed pItem)
        ∨ ∀ first ∈ window.toSell.head?, ¬ window.Placed first := by
  have isList : window.pInven.inventory.slotItems.filter hasItemToSell = window.toSell := rfl
  have loop := window.sellLoop_none window.pInven.inventory.slotItems
  rw [isList] at loop
  rcases loop with ⟨moves, stays⟩
  by_cases firstPlaced : ∀ first ∈ window.toSell.head?, window.Placed first
  · have isAction : window.sellItemToNpc
        = window.pNpcInven2.inventory.slotItems.getLast?.map fun last =>
          .tradeAccept last.itemKey := by
      rw [sellItemToNpc, stays firstPlaced, Option.none_or]
    constructor
    · intro completes
      left
      by_contra notAll
      rcases completes.moves notAll with ⟨pItem, _, _, isMove⟩
      rw [isAction, Option.map_eq_some_iff] at isMove
      rcases isMove with ⟨last, _, isMove⟩
      exact TradeAction.noConfusion isMove
    · rintro (allPlaced | notPlaced)
      · exact ⟨fun _ _ => allPlaced, fun notAll => absurd allPlaced notAll⟩
      · have isEmpty : window.toSell = [] := by
          apply List.head?_eq_none_iff.mp
          apply Option.eq_none_iff_forall_not_mem.mpr
          exact fun first isFirst => notPlaced first isFirst (firstPlaced first isFirst)
        have allPlaced : ∀ pItem ∈ window.toSell, window.Placed pItem := by simp [isEmpty]
        exact ⟨fun _ _ => allPlaced, fun notAll => absurd allPlaced notAll⟩
  · simp only [not_forall] at firstPlaced
    rcases firstPlaced with ⟨first, isFirst, notPlaced⟩
    have isAction : window.sellItemToNpc = some (first.moveInto window.pInven.id) := by
      rw [sellItemToNpc, moves first isFirst notPlaced, Option.some_or]
    apply iff_of_true
    · constructor
      · intro lastItemKey isAccept
        rw [isAction, Option.some_inj] at isAccept
        exact TradeAction.noConfusion isAccept
      · exact fun _ => ⟨first, List.mem_of_head? isFirst, notPlaced, isAction⟩
    · right
      intro first' isFirst'
      rw [Option.mem_def] at isFirst isFirst'
      rw [isFirst, Option.some_inj] at isFirst'
      exact isFirst' ▸ notPlaced

end TradeWindow

/-- An item to sell. -/
def sellableItem (itemKey : UInt32) (xMin : ℤ) : InvenSlotItem where
  displayName := wide "Driftwood Wand"
  path := wide "Metadata/Items/Weapons/Wand"
  itemQuality := 0
  stackSize := 0
  socketedNames := []
  itemWidth := 1
  itemHeight := 3
  xMin := xMin
  yMin := 0
  itemKey := itemKey

/-- Two items to sell; the first one lies in the offer already. -/
def halfWindow : TradeWindow where
  pInven := ⟨1, ⟨12, 5, [sellableItem 1 0, sellableItem 2 1], by decide⟩⟩
  pNpcInven1 := ⟨3, ⟨12, 5, [sellableItem 1 0], by decide⟩⟩
  pNpcInven2 := ⟨2, ⟨12, 5, [sellableItem 7 0], by decide⟩⟩

/-- The trade is accepted although the second item was never offered. -/
theorem sellItemToNpc_leavesItems :
    ¬ ∀ window : TradeWindow, window.Completes window.sellItemToNpc := by
  intro claimed
  have isAccept : halfWindow.sellItemToNpc = some (.tradeAccept 7) := by decide +kernel
  have placed := (claimed halfWindow).accepts 7 isAccept (sellableItem 2 1)
    (by
      apply List.mem_filter.mpr
      exact ⟨by simp [halfWindow], by decide +kernel⟩)
  simp [TradeWindow.Placed, halfWindow, sellableItem] at placed

end PoETask.Attach
