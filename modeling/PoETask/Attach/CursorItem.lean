import PoETask.Attach.EquipItem
import PoETask.Attach.QuestPath

/-!
# The item at the cursor

`CleanInven`, `AutoEquip` and `StoreInvenItems` move items by hand. One tick takes an item
to the cursor and notes in the settings what for: to drop it, to equip it, to put a gem
into a socket, or to store it. A later tick finds an item at the cursor and goes by these
notes.

Nothing makes sure that the item found is the one taken. What the game shows is observed
anew in every tick, and a tick brings along its observations and those of the searches
for room: `emptyCell` is `GetEmptyCellByItemData`, `emptySocket` is
`GetItemIndexWithEmptySocket`.
-/

namespace PoETask.Attach

open PoETask.Library

structure ItemSocketInfo where
  isSocketEquiped : Bool
  socketedName : WString
  socketIndex : ℕ

/-- An item of the main inventory or at the cursor, with what the functions here read of it. -/
structure BagItem where
  itemData : ItemData
  itemWidth : ℕ
  itemHeight : ℕ
  stackSize : ℤ
  bIdentified : Bool
  lstItemSocketInfo : List ItemSocketInfo

inductive HoldType where
  | item
  | gem
  | stash
  deriving DecidableEq

/-- The notes in the settings. -/
structure EquipSetting where
  toEquipItemName : WString
  toEquipInvenIndex : ℕ
  toEquipCellX : ℤ
  toEquipCellY : ℤ
  holdType : HoldType
  deriving DecidableEq

def initEquip : EquipSetting where
  toEquipItemName := []
  toEquipInvenIndex := noIndex
  toEquipCellX := 0
  toEquipCellY := 0
  holdType := .item

abbrev inventoryMax : ℕ := 42

abbrev stash1 : ℕ := 38

inductive CarryCommand where
  | useItem (dwIndex : ℕ)
  | useOrb (orbIndex itemIndex : ℕ)
  | moveItemToCursor (itemIndex : ℕ)
  | unequipGem (itemIndex socketIndex : ℕ)
  | moveItem (dstInvenIndex : ℕ) (cellX cellY : ℤ)
  | equipGem (dstInvenIndex : ℕ) (dstItemIndex socketIndex : ℤ)
  | dropItem
  | levelUpGem (invenIndex itemIndex socketIndex : ℕ)
  | getNextStashInfo
  | stopRun
  deriving DecidableEq

/-- The observations of one tick. `locals` is what the local variables hold before they are set. -/
structure CarryTick where
  isTown : Bool
  player : Player
  equipment : Equipment
  gemInfo : WString → Option ℤ
  cursor : Option BagItem
  mainInventory : List BagItem
  flaskLocations : List (ℤ × ℤ)
  inventoryCount : ℕ
  count_lt : inventoryCount < noIndex - 1
  emptySocket : ℤ → Option (Fin inventoryCount × ℕ × ℕ)
  emptyCell : BagItem → ℕ → Option (ℤ × ℤ)
  upgradeGem : Option (ℕ × ℕ × ℕ)
  stashVisible : Bool
  comesToTown : Bool
  locals : ℤ × ℤ

namespace BagItem

def displayName (pItem : BagItem) : WString := pItem.itemData.displayName

def isGem (pItem : BagItem) : Bool := finds pItem.itemData.path "/Gems/"

/-- There is a gem in one of the sockets. -/
def hadGem (pItem : BagItem) : Bool :=
  pItem.lstItemSocketInfo.any fun socketInfo => socketInfo.isSocketEquiped

def linkColors (pItem : BagItem) (link : List ℤ) : List ℤ :=
  link.filterMap fun (index : ℤ) =>
    if index < 0 ∨ pItem.itemData.socketColors.length ≤ index then none
    else pItem.itemData.socketColors[index.toNat]?

/-- A group of links with sockets of all three colours. -/
def linksAllColors (pItem : BagItem) : Bool :=
  pItem.itemData.lstSocketLinkInfo.any fun link =>
    [1, 2, 3].all fun color => color ∈ pItem.linkColors link

end BagItem

namespace CarryTick

def itemWisdom : WString := wide "Scroll of Wisdom"

def itemPortal : WString := wide "Portal Scroll"

/-- `g_pInfoItemsToUse`. -/
def infoItemsToUse : List WString := [wide "Book of Regrets", wide "Book of Skill"]

variable (tick : CarryTick)

/-- `GetItemIndexByName` in the main inventory. -/
def getItemIndexByName (itemName : WString) : Option ℕ :=
  tick.mainInventory.findIdx? fun pItem => pItem.displayName = itemName

/-- `GetItemCountByType` in the main inventory, by the size of the stacks; the count is unsigned. -/
def getItemCount (itemName : WString) : ℤ :=
  ((tick.mainInventory.filter fun pItem => pItem.displayName = itemName).map
    BagItem.stackSize).sum % 2 ^ 32

def isBetterThanEquip (pItem : BagItem) : Option (Inventories × ℕ) :=
  Attach.isBetterThanEquip tick.player tick.equipment pItem.itemData

def isGoodItemToPick (pItem : BagItem) : ℕ :=
  let path := pItem.itemData.path
  if finds path "/QuestItems/" then 2
  else if finds path "/Currency/" then 1
  else if finds path "/Gems/" ∧
      (pItem.itemData.itemQuality > 0 ∨ (tick.gemInfo pItem.displayName).isSome) then 1
  else if finds path "Cards/" then 1
  else if finds path "/Jewels/" then 1
  else if finds path "/Flasks/" ∧ pItem.itemData.itemQuality > 0 then 1
  else if (tick.isBetterThanEquip pItem).isSome then 1
  else if pItem.itemData.nItemRarity ≥ 2 then 1
  else if pItem.lstItemSocketInfo.length ≥ 6 then 1
  else if pItem.itemWidth * pItem.itemHeight ≤ 4 ∧ pItem.linksAllColors then 1
  else 0

/-- The scroll and the rare item to identify with it, if there are scrolls enough. -/
def toIdentify : Option (ℕ × ℕ) :=
  (tick.getItemIndexByName itemWisdom).bind fun dwScrollIndex =>
    if tick.getItemCount itemWisdom > 10 then
      (tick.mainInventory.findIdx? fun pItem =>
        pItem.itemData.nItemRarity ≥ 2 ∧ pItem.bIdentified = false).map fun i =>
          (dwScrollIndex, i)
    else
      none

def toDrop : Option (BagItem × ℕ) :=
  tick.mainInventory.zipIdx.find? fun entry =>
    tick.isGoodItemToPick entry.1 = 0 ∧ entry.1.hadGem = false

/-- `GetItemIndexToStore`, with the item. -/
def itemToStore (bItemType : ℕ) : Option (BagItem × ℕ) :=
  let scrolls (itemName : WString) : List (BagItem × ℕ) := tick.mainInventory.zipIdx.filter
    fun entry => finds entry.1.itemData.path "/Currency/" ∧ entry.1.displayName = itemName
  let smallest (entries : List (BagItem × ℕ)) : Option (BagItem × ℕ) :=
    (entries.foldl (fun best entry =>
      if entry.1.stackSize < best.1 then (entry.1.stackSize, some entry) else best)
      ((100000 : ℤ), none)).2
  if bItemType = 0 then
    match tick.mainInventory.zipIdx.find? fun entry => finds entry.1.itemData.path "/Currency/" ∧
      entry.1.displayName ≠ itemWisdom ∧ entry.1.displayName ≠ itemPortal with
    | some entry => some entry
    | none =>
        if (scrolls itemWisdom).length > 1 then smallest (scrolls itemWisdom)
        else if (scrolls itemPortal).length > 1 then smallest (scrolls itemPortal)
        else none
  else if bItemType = 1 then
    tick.mainInventory.zipIdx.find? fun entry =>
      finds entry.1.itemData.path "/Gems/" ∧ tick.gemInfo entry.1.displayName = none ∨
        finds entry.1.itemData.path "/Jewels/"
  else
    tick.mainInventory.zipIdx.find? fun entry => finds entry.1.itemData.path "/Flasks/"

end CarryTick

namespace EquipSetting

/-- A plan for an item that is taken to the cursor. -/
def plan (pItem : BagItem) (invenIndex : ℕ) (cells : ℤ × ℤ) (holdType : HoldType) :
    EquipSetting where
  toEquipItemName := pItem.displayName
  toEquipInvenIndex := invenIndex
  toEquipCellX := cells.1
  toEquipCellY := cells.2
  holdType := holdType

def cleanInven (setting : EquipSetting) (tick : CarryTick) :
    Option (EquipSetting × CarryCommand) :=
  match CarryTick.infoItemsToUse.findSome? tick.getItemIndexByName with
  | some dwIndex => some (setting, .useItem dwIndex)
  | none =>
      match tick.toIdentify with
      | some (dwScrollIndex, i) => some (setting, .useOrb dwScrollIndex i)
      | none =>
          if tick.isTown then
            none
          else
            match tick.cursor with
            | some pItem =>
                if setting.toEquipInvenIndex = noIndex - 1 ∧
                    setting.toEquipItemName = pItem.displayName then
                  some (initEquip, .dropItem)
                else
                  none
            | none =>
                tick.toDrop.map fun (pItem, i) =>
                  ({ setting with
                      toEquipInvenIndex := noIndex - 1, toEquipItemName := pItem.displayName
                      holdType := .item }, .moveItemToCursor i)

/-- Put what is at the cursor back into the main inventory. -/
def putBack (setting : EquipSetting) (tick : CarryTick) (pItem : BagItem) :
    EquipSetting × CarryCommand :=
  match tick.emptyCell pItem 0 with
  | none => (setting, .stopRun)
  | some (emptyX, emptyY) => (initEquip, .moveItem 0 emptyX emptyY)

/-- The items of the main inventory; a flask that finds no room leaves its notes behind. -/
def equipLoop (tick : CarryTick) :
    List (BagItem × ℕ) → EquipSetting → EquipSetting × Option CarryCommand
  | [], setting => (setting, none)
  | (pItem, i) :: rest, setting =>
      match tick.isBetterThanEquip pItem with
      | none => equipLoop tick rest setting
      | some (dstInvenIndex, changeEquipIndex) =>
          if pItem.bIdentified = false then
            match tick.getItemIndexByName CarryTick.itemWisdom with
            | none => equipLoop tick rest setting
            | some dwScrollIndex => (setting, some (.useOrb dwScrollIndex i))
          else if dstInvenIndex = .flask1 then
            match tick.flaskLocations[changeEquipIndex]? with
            | some location =>
                (plan pItem dstInvenIndex.index location .item, some (.moveItemToCursor i))
            | none =>
                match (List.range flaskSlotCount).find? fun j =>
                  tick.flaskLocations.all fun location => location.1 ≠ (j : ℤ) with
                | some j => (plan pItem dstInvenIndex.index (j, 0) .item,
                    some (.moveItemToCursor i))
                | none => equipLoop tick rest (plan pItem dstInvenIndex.index (0, 0) .item)
          else
            (plan pItem dstInvenIndex.index (0, 0) .item, some (.moveItemToCursor i))

def autoEquipItem (setting : EquipSetting) (tick : CarryTick) :
    EquipSetting × Option CarryCommand :=
  match tick.cursor with
  | some pItem =>
      if pItem.isGem then
        (setting, none)
      else if setting.holdType ≠ .item then
        (setting, none)
      else if setting.toEquipInvenIndex < inventoryMax ∧
          setting.toEquipItemName = pItem.displayName then
        (initEquip, some (.moveItem setting.toEquipInvenIndex setting.toEquipCellX
          setting.toEquipCellY))
      else
        ((setting.putBack tick pItem).1, some (setting.putBack tick pItem).2)
  | none => equipLoop tick tick.mainInventory.zipIdx setting

/-- A gem for an empty socket of its colour; the socket that a gem in an item of the main
inventory is taken for need not exist. -/
def gemStep (tick : CarryTick) (entry : BagItem × ℕ) : Option (EquipSetting × CarryCommand) :=
  if entry.1.isGem then
    (tick.gemInfo entry.1.displayName).bind fun socketColor =>
      (tick.emptySocket socketColor).map fun (invenIndex, itemIndex, socketIndex) =>
        (plan entry.1 invenIndex (itemIndex, socketIndex) .gem, .moveItemToCursor entry.2)
  else
    entry.1.lstItemSocketInfo.findSome? fun socketInfo =>
      if socketInfo.isSocketEquiped then
        (tick.gemInfo socketInfo.socketedName).map fun socketColor =>
          let found := tick.emptySocket socketColor
          ({ toEquipItemName := socketInfo.socketedName
             toEquipInvenIndex := (found.map fun place => (place.1 : ℕ)).getD noIndex
             toEquipCellX := (found.map fun place => (place.2.1 : ℤ)).getD tick.locals.1
             toEquipCellY := (found.map fun place => (place.2.2 : ℤ)).getD tick.locals.2
             holdType := .gem }, .unequipGem entry.2 socketInfo.socketIndex)
      else
        none

def autoEquipGem (setting : EquipSetting) (tick : CarryTick) :
    Option (EquipSetting × CarryCommand) :=
  match tick.cursor with
  | some pItem =>
      if pItem.isGem = false then
        none
      else if setting.holdType ≠ .gem then
        none
      else if setting.toEquipInvenIndex < inventoryMax ∧
          setting.toEquipItemName = pItem.displayName then
        some (initEquip, .equipGem setting.toEquipInvenIndex setting.toEquipCellX
          setting.toEquipCellY)
      else
        some (setting.putBack tick pItem)
  | none => tick.mainInventory.zipIdx.findSome? (gemStep tick)

def autoUpgradeGem (tick : CarryTick) : Option CarryCommand :=
  tick.upgradeGem.map fun (invenIndex, itemIndex, socketIndex) =>
    .levelUpGem invenIndex itemIndex socketIndex

def autoEquip (setting : EquipSetting) (tick : CarryTick) : EquipSetting × Option CarryCommand :=
  let equipped := setting.autoEquipItem tick
  match equipped.2 with
  | some command => (equipped.1, some command)
  | none =>
      match equipped.1.autoEquipGem tick with
      | some (next, command) => (next, some command)
      | none => (equipped.1, autoUpgradeGem tick)

/-- The part of a tick of `QuestRun`; in town an empty cursor clears the notes. -/
def questRun (setting : EquipSetting) (tick : CarryTick) : EquipSetting × Option CarryCommand :=
  match setting.cleanInven tick with
  | some (next, command) => (next, some command)
  | none =>
      let equipped := setting.autoEquip tick
      match equipped.2 with
      | some command => (equipped.1, some command)
      | none =>
          if tick.comesToTown ∧ tick.isTown ∧ tick.cursor.isNone then
            (initEquip, none)
          else
            (equipped.1, none)

/-- Look for room in a tab of the stash. -/
def storeIn (tick : CarryTick) (entry : BagItem × ℕ) (invenIndex : ℕ) :
    Option (EquipSetting × CarryCommand) :=
  (tick.emptyCell entry.1 invenIndex).map fun cells =>
    (plan entry.1 invenIndex cells .stash, .moveItemToCursor entry.2)

/-- One kind of items; the first kind has two tabs. -/
def storeStep (tick : CarryTick) (i : ℕ) : Option (EquipSetting × CarryCommand) :=
  (tick.itemToStore i).bind fun entry =>
    if i = 0 then
      (storeIn tick entry (stash1 + i)).or (storeIn tick entry (stash1 + i + 1))
    else
      storeIn tick entry (stash1 + i + 1)

def storeInvenItems (setting : EquipSetting) (tick : CarryTick) :
    EquipSetting × Option CarryCommand :=
  if tick.stashVisible = false then
    (setting, none)
  else if tick.inventoryCount < 42 then
    (setting, some .getNextStashInfo)
  else
    match tick.cursor with
    | some pItem =>
        if setting.holdType = .stash then
          (initEquip, some (.moveItem setting.toEquipInvenIndex setting.toEquipCellX
            setting.toEquipCellY))
        else
          (setting, some (setting.putBack tick pItem).2)
    | none =>
        match (List.range 3).findSome? (storeStep tick) with
        | some (next, command) => (next, some command)
        | none => (setting, none)

/-- The first step of `MS_Stash_Deposit`. -/
def stashDeposit (setting : EquipSetting) (tick : CarryTick) :
    EquipSetting × Option CarryCommand :=
  let current := if tick.cursor.isNone then initEquip else setting
  if ((List.range 3).any fun i => (tick.itemToStore i).isSome) ∨ current.holdType = .stash then
    current.storeInvenItems tick
  else
    (current, none)

end EquipSetting

/-- The notes with the ticks so far and what they have done. -/
structure Carry where
  setting : EquipSetting
  ticks : List CarryTick
  commands : List CarryCommand

inductive CarryEvent where
  | questRun (tick : CarryTick)
  | stashDeposit (tick : CarryTick)
  | init

namespace Carry

def acted (carry : Carry) (tick : CarryTick)
    (done : EquipSetting × Option CarryCommand) : Carry where
  setting := done.1
  ticks := carry.ticks ++ [tick]
  commands := carry.commands ++ done.2.toList

def system : StepSystem Carry CarryEvent where
  initial carry := carry = { setting := initEquip, ticks := [], commands := [] }
  step carry event next :=
    match event with
    | .questRun tick => next = carry.acted tick (carry.setting.questRun tick)
    | .stashDeposit tick => next = carry.acted tick (carry.setting.stashDeposit tick)
    | .init => next = { carry with setting := initEquip }

end Carry

/-- The plan a tick with nothing at the cursor has made. -/
inductive CarryTick.Planned (tick : CarryTick) (setting : EquipSetting) : Prop where
  | drop (pItem : BagItem) (item_mem : pItem ∈ tick.mainInventory) (outside : tick.isTown = false)
      (unwanted : tick.isGoodItemToPick pItem = 0) (gemless : pItem.hadGem = false)
      (name_eq : setting.toEquipItemName = pItem.displayName)
      (index_eq : setting.toEquipInvenIndex = noIndex - 1) (type_eq : setting.holdType = .item)
  | equip (pItem : BagItem) (item_mem : pItem ∈ tick.mainInventory) (slot : Inventories)
      (dwIndex : ℕ) (isBetter : tick.isBetterThanEquip pItem = some (slot, dwIndex))
      (identified : pItem.bIdentified = true)
      (name_eq : setting.toEquipItemName = pItem.displayName)
      (index_eq : setting.toEquipInvenIndex = slot.index) (type_eq : setting.holdType = .item)
  | gem (socketColor : ℤ) (color_eq : tick.gemInfo setting.toEquipItemName = some socketColor)
      (socket : setting.toEquipInvenIndex = noIndex ∨
        ∃ invenIndex itemIndex socketIndex,
          tick.emptySocket socketColor = some (invenIndex, itemIndex, socketIndex) ∧
          setting.toEquipInvenIndex = invenIndex ∧ setting.toEquipCellX = itemIndex ∧
          setting.toEquipCellY = socketIndex)
      (type_eq : setting.holdType = .gem)
  | store (pItem : BagItem) (item_mem : pItem ∈ tick.mainInventory)
      (room : tick.emptyCell pItem setting.toEquipInvenIndex =
        some (setting.toEquipCellX, setting.toEquipCellY))
      (tab_le : stash1 ≤ setting.toEquipInvenIndex)
      (tab_lt : setting.toEquipInvenIndex < inventoryMax)
      (type_eq : setting.holdType = .stash)

/-- Commands that move no item. -/
def CarryCommand.Still : CarryCommand → Prop
  | .useItem _ => True
  | .useOrb _ _ => True
  | .levelUpGem _ _ _ => True
  | .getNextStashInfo => True
  | .stopRun => True
  | _ => False

/-- What a tick can do to the notes and the items. -/
inductive CarryTick.Does (tick : CarryTick) (setting : EquipSetting) :
    EquipSetting × Option CarryCommand → Prop where
  | nothing {next : EquipSetting}
      (noted : next = setting ∨ next = initEquip ∨ tick.cursor = none ∧ tick.Planned next) :
      tick.Does setting (next, none)
  | still {next : EquipSetting} {command : CarryCommand} (isStill : command.Still)
      (noted : next = setting ∨ next = initEquip ∨ tick.cursor = none ∧ tick.Planned next) :
      tick.Does setting (next, some command)
  | holds {next : EquipSetting} (i : ℕ) (free : tick.cursor = none) (planned : tick.Planned next) :
      tick.Does setting (next, some (.moveItemToCursor i))
  | unequips {next : EquipSetting} (i socketIndex : ℕ) (free : tick.cursor = none)
      (planned : tick.Planned next) :
      tick.Does setting (next, some (.unequipGem i socketIndex))
  | drops (pItem : BagItem) (held : tick.cursor = some pItem) (outside : tick.isTown = false)
      (index_eq : setting.toEquipInvenIndex = noIndex - 1)
      (name_eq : setting.toEquipItemName = pItem.displayName) :
      tick.Does setting (initEquip, some .dropItem)
  | returns (pItem : BagItem) (held : tick.cursor = some pItem) {cells : ℤ × ℤ}
      {next : EquipSetting} (room : tick.emptyCell pItem 0 = some cells)
      (noted : next = setting ∨ next = initEquip) :
      tick.Does setting (next, some (.moveItem 0 cells.1 cells.2))
  | equips (pItem : BagItem) (held : tick.cursor = some pItem) (notGem : pItem.isGem = false)
      (type_eq : setting.holdType = .item) (index_lt : setting.toEquipInvenIndex < inventoryMax)
      (name_eq : setting.toEquipItemName = pItem.displayName) :
      tick.Does setting (initEquip, some (.moveItem setting.toEquipInvenIndex
        setting.toEquipCellX setting.toEquipCellY))
  | stores (pItem : BagItem) (held : tick.cursor = some pItem)
      (type_eq : setting.holdType = .stash) :
      tick.Does setting (initEquip, some (.moveItem setting.toEquipInvenIndex
        setting.toEquipCellX setting.toEquipCellY))
  | sockets (pItem : BagItem) (held : tick.cursor = some pItem) (isGem : pItem.isGem = true)
      (type_eq : setting.holdType = .gem) (index_lt : setting.toEquipInvenIndex < inventoryMax)
      (name_eq : setting.toEquipItemName = pItem.displayName) :
      tick.Does setting (initEquip, some (.equipGem setting.toEquipInvenIndex
        setting.toEquipCellX setting.toEquipCellY))

namespace EquipSetting

section Doing

variable {setting next : EquipSetting} {tick : CarryTick} {command : CarryCommand}

theorem does_cleanInven (cleaned : setting.cleanInven tick = some (next, command)) :
    tick.Does setting (next, some command) := by
  simp only [cleanInven] at cleaned
  split at cleaned
  · cases cleaned
    exact .still trivial (.inl rfl)
  · split at cleaned
    · cases cleaned
      exact .still trivial (.inl rfl)
    · split at cleaned
      · cases cleaned
      · rename_i outside
        have isOutside := Bool.eq_false_of_not_eq_true outside
        split at cleaned
        · rename_i pItem held
          split at cleaned
          · rename_i noted
            cases cleaned
            exact .drops pItem held isOutside noted.1 noted.2
          · cases cleaned
        · rename_i free
          rcases Option.map_eq_some_iff.mp cleaned with ⟨⟨pItem, i⟩, found, same⟩
          cases same
          simp only [CarryTick.toDrop] at found
          have wanted := List.find?_some found
          rcases of_decide_eq_true wanted with ⟨unwanted, gemless⟩
          have item_mem := List.fst_mem_of_mem_zipIdx (List.mem_of_find?_eq_some found)
          exact .holds i free (.drop pItem item_mem isOutside unwanted gemless rfl rfl rfl)

theorem does_putBack {pItem : BagItem} (held : tick.cursor = some pItem) :
    tick.Does setting ((setting.putBack tick pItem).1, some (setting.putBack tick pItem).2) ∧
      tick.Does setting (setting, some (setting.putBack tick pItem).2) := by
  simp only [putBack]
  split
  · exact ⟨.still trivial (.inl rfl), .still trivial (.inl rfl)⟩
  · rename_i emptyX emptyY room
    exact ⟨.returns pItem held room (.inr rfl), .returns pItem held room (.inl rfl)⟩

/-- The notes at each item of the loop are those of before or a plan of this tick. -/
theorem does_equipLoop (free : tick.cursor = none) {entries : List (BagItem × ℕ)}
    (entries_mem : ∀ entry ∈ entries, entry.1 ∈ tick.mainInventory) {current : EquipSetting}
    (noted : current = setting ∨ tick.Planned current) :
    tick.Does setting (equipLoop tick entries current) := by
  have still : current = setting ∨ current = initEquip ∨ tick.cursor = none ∧
      tick.Planned current := by
    rcases noted with same | planned
    · exact .inl same
    · exact .inr (.inr ⟨free, planned⟩)
  induction entries generalizing current with
  | nil => exact .nothing still
  | cons entry rest ih =>
      rcases entry with ⟨pItem, i⟩
      have item_mem : pItem ∈ tick.mainInventory := entries_mem (pItem, i) List.mem_cons_self
      have rest_mem : ∀ entry ∈ rest, entry.1 ∈ tick.mainInventory :=
        fun entry entry_mem => entries_mem entry (List.mem_cons_of_mem _ entry_mem)
      simp only [equipLoop]
      split
      · exact ih rest_mem noted still
      · rename_i slot dwIndex isBetter
        split
        · split
          · exact ih rest_mem noted still
          · exact .still trivial still
        · rename_i identified
          have planned : ∀ cells, tick.Planned (plan pItem slot.index cells .item) := fun cells =>
            .equip pItem item_mem slot dwIndex isBetter (Bool.eq_true_of_not_eq_false identified)
              rfl rfl rfl
          split
          · split
            · exact .holds i free (planned _)
            · split
              · exact .holds i free (planned _)
              · exact ih rest_mem (.inr (planned _)) (.inr (.inr ⟨free, planned _⟩))
          · exact .holds i free (planned _)

theorem does_autoEquipItem (setting : EquipSetting) (tick : CarryTick) :
    tick.Does setting (setting.autoEquipItem tick) := by
  simp only [autoEquipItem]
  split
  · rename_i pItem held
    split
    · exact .nothing (.inl rfl)
    · rename_i notGem
      split
      · exact .nothing (.inl rfl)
      · rename_i isItem
        split
        · rename_i fits
          exact .equips pItem held (Bool.eq_false_of_not_eq_true notGem)
            (Decidable.not_not.mp isItem) fits.1 fits.2
        · exact (does_putBack held).1
  · rename_i free
    apply does_equipLoop free
    · intro entry entry_mem
      exact List.fst_mem_of_mem_zipIdx entry_mem
    · exact .inl rfl

theorem does_gemStep (free : tick.cursor = none) {entry : BagItem × ℕ}
    (found : gemStep tick entry = some (next, command)) :
    tick.Does setting (next, some command) := by
  simp only [gemStep] at found
  split at found
  · rcases Option.bind_eq_some_iff.mp found with ⟨socketColor, color_eq, placed⟩
    rcases Option.map_eq_some_iff.mp placed with ⟨⟨invenIndex, itemIndex, socketIndex⟩, empty, same⟩
    cases same
    refine .holds entry.2 free (.gem socketColor color_eq (.inr ?_) rfl)
    exact ⟨invenIndex, itemIndex, socketIndex, empty, rfl, rfl, rfl⟩
  · rcases List.exists_of_findSome?_eq_some found with ⟨socketInfo, -, taken⟩
    split at taken
    · rcases Option.map_eq_some_iff.mp taken with ⟨socketColor, color_eq, same⟩
      cases same
      refine .unequips entry.2 socketInfo.socketIndex free (.gem socketColor color_eq ?_ rfl)
      cases empty : tick.emptySocket socketColor with
      | none => exact .inl rfl
      | some place =>
          rcases place with ⟨invenIndex, itemIndex, socketIndex⟩
          exact .inr ⟨invenIndex, itemIndex, socketIndex, rfl, rfl, rfl, rfl⟩
    · cases taken

theorem does_autoEquipGem (equipped : setting.autoEquipGem tick = some (next, command)) :
    tick.Does setting (next, some command) := by
  simp only [autoEquipGem] at equipped
  split at equipped
  · rename_i pItem held
    split at equipped
    · cases equipped
    · rename_i isGem
      split at equipped
      · cases equipped
      · rename_i isGemHold
        split at equipped
        · rename_i fits
          cases equipped
          exact .sockets pItem held (Bool.eq_true_of_not_eq_false isGem)
            (Decidable.not_not.mp isGemHold) fits.1 fits.2
        · have done := (@does_putBack setting tick pItem held).1
          rw [Option.some.inj equipped] at done
          exact done
  · rename_i free
    rcases List.exists_of_findSome?_eq_some equipped with ⟨entry, -, found⟩
    exact does_gemStep free found

/-- With an item at the cursor the notes of an idle `AutoEquipItem` are those of before. -/
theorem autoEquipItem_of_held {pItem : BagItem} (held : tick.cursor = some pItem)
    (idle : (setting.autoEquipItem tick).2 = none) : (setting.autoEquipItem tick).1 = setting := by
  simp only [autoEquipItem, held] at idle ⊢
  split at idle
  · rename_i isGem
    rw [if_pos isGem]
  · rename_i notGem
    rw [if_neg notGem]
    split at idle
    · rename_i otherHold
      rw [if_pos otherHold]
    · split at idle
      · cases idle
      · cases idle

theorem noted_of_idle (does : tick.Does setting (next, none)) :
    next = setting ∨ next = initEquip ∨ tick.cursor = none ∧ tick.Planned next := by
  cases does with
  | nothing noted => exact noted

theorem does_autoEquip (setting : EquipSetting) (tick : CarryTick) :
    tick.Does setting (setting.autoEquip tick) := by
  have equipped := does_autoEquipItem setting tick
  have unchanged : ∀ pItem, tick.cursor = some pItem → (setting.autoEquipItem tick).2 = none →
      (setting.autoEquipItem tick).1 = setting := fun pItem => autoEquipItem_of_held
  simp only [autoEquip]
  generalize setting.autoEquipItem tick = result at equipped unchanged ⊢
  rcases result with ⟨current, done⟩
  cases done with
  | some command => exact equipped
  | none =>
      have noted := noted_of_idle equipped
      simp only
      cases gem_eq : current.autoEquipGem tick with
      | some done =>
          rcases done with ⟨next, command⟩
          cases held : tick.cursor with
          | some pItem =>
              have same : current = setting := unchanged pItem held rfl
              rw [same] at gem_eq
              exact does_autoEquipGem gem_eq
          | none =>
              simp only [autoEquipGem, held] at gem_eq
              rcases List.exists_of_findSome?_eq_some gem_eq with ⟨entry, -, found⟩
              exact does_gemStep held found
      | none =>
          simp only [autoUpgradeGem]
          cases tick.upgradeGem with
          | none => exact .nothing noted
          | some place => exact .still trivial noted

theorem does_questRun (setting : EquipSetting) (tick : CarryTick) :
    tick.Does setting (setting.questRun tick) := by
  have equipped := does_autoEquip setting tick
  simp only [questRun]
  split
  · rename_i next command cleaned
    exact does_cleanInven cleaned
  · generalize setting.autoEquip tick = result at equipped ⊢
    rcases result with ⟨current, done⟩
    cases done with
    | some command => exact equipped
    | none =>
        simp only
        split
        · exact .nothing (.inr (.inl rfl))
        · exact equipped

theorem itemToStore_mem {bItemType : ℕ} {entry : BagItem × ℕ}
    (found : tick.itemToStore bItemType = some entry) : entry.1 ∈ tick.mainInventory := by
  have smallest : ∀ (entries : List (BagItem × ℕ)) (best : ℤ × Option (BagItem × ℕ)),
      (entries.foldl (fun best entry =>
        if entry.1.stackSize < best.1 then (entry.1.stackSize, some entry) else best) best).2 =
        some entry → entry ∈ entries ∨ best.2 = some entry := by
    intro entries
    induction entries with
    | nil => exact fun best same => .inr same
    | cons head tail ih =>
        intro best same
        rcases ih _ same with entry_mem | best_eq
        · exact .inl (List.mem_cons_of_mem _ entry_mem)
        · simp only at best_eq
          split at best_eq
          · rw [Option.some.inj best_eq]
            exact .inl List.mem_cons_self
          · exact .inr best_eq
  have scrolls : ∀ wanted : BagItem × ℕ → Bool,
      ((tick.mainInventory.zipIdx.filter wanted).foldl (fun best entry =>
        if entry.1.stackSize < best.1 then (entry.1.stackSize, some entry) else best)
        ((100000 : ℤ), none)).2 = some entry → entry.1 ∈ tick.mainInventory := by
    intro wanted same
    rcases smallest _ _ same with entry_mem | impossible
    · exact List.fst_mem_of_mem_zipIdx (List.mem_of_mem_filter entry_mem)
    · cases impossible
  simp only [CarryTick.itemToStore] at found
  split at found
  · split at found
    · rename_i other other_eq
      cases found
      exact List.fst_mem_of_mem_zipIdx (List.mem_of_find?_eq_some other_eq)
    · split at found
      · exact scrolls _ found
      · split at found
        · exact scrolls _ found
        · cases found
  · split at found
    · exact List.fst_mem_of_mem_zipIdx (List.mem_of_find?_eq_some found)
    · exact List.fst_mem_of_mem_zipIdx (List.mem_of_find?_eq_some found)

theorem does_storeIn (free : tick.cursor = none) {entry : BagItem × ℕ}
    (item_mem : entry.1 ∈ tick.mainInventory) {invenIndex : ℕ} (tab_le : stash1 ≤ invenIndex)
    (tab_lt : invenIndex < inventoryMax)
    (found : storeIn tick entry invenIndex = some (next, command)) :
    tick.Does setting (next, some command) := by
  rcases Option.map_eq_some_iff.mp found with ⟨cells, room, same⟩
  cases same
  exact .holds entry.2 free (.store entry.1 item_mem room tab_le tab_lt rfl)

theorem does_storeStep (free : tick.cursor = none) {i : ℕ} (i_lt : i < 3)
    (found : storeStep tick i = some (next, command)) : tick.Does setting (next, some command) := by
  rcases Option.bind_eq_some_iff.mp found with ⟨entry, entry_eq, stored⟩
  have item_mem := itemToStore_mem entry_eq
  split at stored
  · rcases Option.or_eq_some_iff.mp stored with first | ⟨-, second⟩
    · exact does_storeIn free item_mem (by simp only [stash1]; omega)
        (by simp only [stash1, inventoryMax]; omega) first
    · exact does_storeIn free item_mem (by simp only [stash1]; omega)
        (by simp only [stash1, inventoryMax]; omega) second
  · exact does_storeIn free item_mem (by simp only [stash1]; omega)
      (by simp only [stash1, inventoryMax]; omega) stored

theorem does_storeInvenItems (setting : EquipSetting) (tick : CarryTick) :
    tick.Does setting (setting.storeInvenItems tick) := by
  simp only [storeInvenItems]
  split
  · exact .nothing (.inl rfl)
  · split
    · exact .still trivial (.inl rfl)
    · split
      · rename_i pItem held
        split
        · rename_i isStash
          exact .stores pItem held isStash
        · exact (does_putBack held).2
      · rename_i free
        split
        · rename_i next command found
          rcases List.exists_of_findSome?_eq_some found with ⟨i, i_mem, stored⟩
          exact does_storeStep free (List.mem_range.mp i_mem) stored
        · exact .nothing (.inl rfl)

theorem does_stashDeposit (setting : EquipSetting) (tick : CarryTick) :
    tick.Does setting (setting.stashDeposit tick) := by
  simp only [stashDeposit]
  cases held : tick.cursor with
  | some pItem =>
      simp only [Option.isNone_some, Bool.false_eq_true, if_false]
      split
      · exact does_storeInvenItems setting tick
      · exact .nothing (.inl rfl)
  | none =>
      simp only [Option.isNone_none, if_true]
      split
      · simp only [storeInvenItems, held]
        split
        · exact .nothing (.inr (.inl rfl))
        · split
          · exact .still trivial (.inr (.inl rfl))
          · split
            · rename_i next command found
              rcases List.exists_of_findSome?_eq_some found with ⟨i, i_mem, stored⟩
              exact does_storeStep held (List.mem_range.mp i_mem) stored
            · exact .nothing (.inr (.inl rfl))
      · exact .nothing (.inr (.inl rfl))

end Doing

end EquipSetting

namespace Carry

variable {carry next last : Carry} {tick : CarryTick} {event : CarryEvent}

/-- The notes are clear, or they are the plan of an earlier tick. -/
def Noted (carry : Carry) : Prop :=
  carry.setting = initEquip ∨
    ∃ past ∈ carry.ticks, past.cursor = none ∧ past.Planned carry.setting

/-- What stands behind a command of a tick after the given ones. -/
def Justified (ticks : List CarryTick) (tick : CarryTick) : CarryCommand → Prop
  | .moveItemToCursor _ => tick.cursor = none
  | .unequipGem _ _ => tick.cursor = none
  | .dropItem => tick.isTown = false ∧ ∃ held, tick.cursor = some held ∧ ∃ past ∈ ticks,
      past.cursor = none ∧ past.isTown = false ∧ ∃ pItem ∈ past.mainInventory,
        held.displayName = pItem.displayName ∧ past.isGoodItemToPick pItem = 0 ∧
          pItem.hadGem = false
  | .moveItem dstInvenIndex cellX cellY => ∃ held, tick.cursor = some held ∧
      (dstInvenIndex = 0 ∧ tick.emptyCell held 0 = some (cellX, cellY) ∨
        ∃ past ∈ ticks, past.cursor = none ∧ ∃ pItem ∈ past.mainInventory,
          held.displayName = pItem.displayName ∧ held.isGem = false ∧ pItem.bIdentified = true ∧
              (∃ slot dwIndex, past.isBetterThanEquip pItem = some (slot, dwIndex) ∧
                dstInvenIndex = slot.index) ∨
            stash1 ≤ dstInvenIndex ∧
              past.emptyCell pItem dstInvenIndex = some (cellX, cellY))
  | .equipGem dstInvenIndex dstItemIndex socketIndex => ∃ held, tick.cursor = some held ∧
      held.isGem = true ∧ ∃ past ∈ ticks, past.cursor = none ∧ ∃ socketColor invenIndex i j,
        past.gemInfo held.displayName = some socketColor ∧
          past.emptySocket socketColor = some (invenIndex, i, j) ∧
          dstInvenIndex = invenIndex ∧ dstItemIndex = i ∧ socketIndex = j
  | _ => True

theorem noted_acted (noted : carry.Noted) {done : EquipSetting × Option CarryCommand}
    (does : tick.Does carry.setting done) : (carry.acted tick done).Noted := by
  have later : ∀ next, next = carry.setting ∨ next = initEquip ∨
      tick.cursor = none ∧ tick.Planned next →
        next = initEquip ∨ ∃ past ∈ carry.ticks ++ [tick], past.cursor = none ∧
          past.Planned next := by
    rintro next (same | clear | ⟨free, planned⟩)
    · rcases noted with clear | ⟨past, past_mem, free, planned⟩
      · exact .inl (same.trans clear)
      · exact .inr ⟨past, List.mem_append_left _ past_mem, free, same ▸ planned⟩
    · exact .inl clear
    · exact .inr ⟨tick, List.mem_append_right _ (List.mem_singleton_self tick), free, planned⟩
  apply later
  cases does with
  | nothing noted => exact noted
  | still isStill noted => exact noted
  | holds i free planned => exact .inr (.inr ⟨free, planned⟩)
  | unequips i socketIndex free planned => exact .inr (.inr ⟨free, planned⟩)
  | drops => exact .inr (.inl rfl)
  | returns pItem held room noted =>
      rcases noted with same | clear
      · exact .inl same
      · exact .inr (.inl clear)
  | equips => exact .inr (.inl rfl)
  | stores => exact .inr (.inl rfl)
  | sockets => exact .inr (.inl rfl)

theorem noted_invariant : system.Invariant Noted where
  initial carry starts := by
    rw [show carry = _ from starts]
    exact .inl rfl
  step carry event next noted moves := by
    cases event with
    | questRun tick =>
        rw [show next = _ from moves]
        exact noted_acted noted (EquipSetting.does_questRun carry.setting tick)
    | stashDeposit tick =>
        rw [show next = _ from moves]
        exact noted_acted noted (EquipSetting.does_stashDeposit carry.setting tick)
    | init =>
        rw [show next = _ from moves]
        exact .inl rfl

end Carry

namespace CarryTick.Planned

variable {tick : CarryTick} {setting : EquipSetting}

/-- Only a plan to drop is noted under the index that stands for dropping. -/
theorem drop_of_index (planned : tick.Planned setting)
    (index_eq : setting.toEquipInvenIndex = noIndex - 1) :
    tick.isTown = false ∧ ∃ pItem ∈ tick.mainInventory,
      setting.toEquipItemName = pItem.displayName ∧ tick.isGoodItemToPick pItem = 0 ∧
        pItem.hadGem = false := by
  cases planned with
  | drop pItem item_mem outside unwanted gemless name_eq =>
      exact ⟨outside, pItem, item_mem, name_eq, unwanted, gemless⟩
  | equip pItem item_mem slot dwIndex isBetter identified name_eq slot_eq =>
      rw [index_eq] at slot_eq
      cases slot <;> simp [Inventories.index, noIndex] at slot_eq
  | gem socketColor color_eq socket =>
      rcases socket with nowhere | ⟨invenIndex, itemIndex, socketIndex, empty, socket_eq, -⟩
      · simp only [nowhere, noIndex] at index_eq
        omega
      · have := invenIndex.isLt
        have := tick.count_lt
        omega
  | store pItem item_mem room tab_le tab_lt =>
      simp only [index_eq, inventoryMax, noIndex] at tab_lt
      omega

theorem equip_of_item (planned : tick.Planned setting) (type_eq : setting.holdType = .item)
    (index_lt : setting.toEquipInvenIndex < inventoryMax) :
    ∃ pItem ∈ tick.mainInventory, setting.toEquipItemName = pItem.displayName ∧
      pItem.bIdentified = true ∧ ∃ slot dwIndex,
        tick.isBetterThanEquip pItem = some (slot, dwIndex) ∧
          setting.toEquipInvenIndex = slot.index := by
  cases planned with
  | drop pItem item_mem outside unwanted gemless name_eq index_eq =>
      simp only [index_eq, inventoryMax, noIndex] at index_lt
      omega
  | equip pItem item_mem slot dwIndex isBetter identified name_eq slot_eq =>
      exact ⟨pItem, item_mem, name_eq, identified, slot, dwIndex, isBetter, slot_eq⟩
  | gem socketColor color_eq socket gem_eq => exact absurd (type_eq.symm.trans gem_eq) (by decide)
  | store pItem item_mem room tab_le tab_lt stash_eq =>
      exact absurd (type_eq.symm.trans stash_eq) (by decide)

theorem store_of_stash (planned : tick.Planned setting) (type_eq : setting.holdType = .stash) :
    ∃ pItem ∈ tick.mainInventory, stash1 ≤ setting.toEquipInvenIndex ∧
      tick.emptyCell pItem setting.toEquipInvenIndex =
        some (setting.toEquipCellX, setting.toEquipCellY) := by
  cases planned with
  | drop pItem item_mem outside unwanted gemless name_eq index_eq item_eq =>
      exact absurd (type_eq.symm.trans item_eq) (by decide)
  | equip pItem item_mem slot dwIndex isBetter identified name_eq slot_eq item_eq =>
      exact absurd (type_eq.symm.trans item_eq) (by decide)
  | gem socketColor color_eq socket gem_eq => exact absurd (type_eq.symm.trans gem_eq) (by decide)
  | store pItem item_mem room tab_le => exact ⟨pItem, item_mem, tab_le, room⟩

theorem socket_of_gem (planned : tick.Planned setting) (type_eq : setting.holdType = .gem)
    (index_lt : setting.toEquipInvenIndex < inventoryMax) :
    ∃ socketColor invenIndex i j,
      tick.gemInfo setting.toEquipItemName = some socketColor ∧
        tick.emptySocket socketColor = some (invenIndex, i, j) ∧
          setting.toEquipInvenIndex = invenIndex ∧ setting.toEquipCellX = i ∧
            setting.toEquipCellY = j := by
  cases planned with
  | drop pItem item_mem outside unwanted gemless name_eq index_eq item_eq =>
      exact absurd (type_eq.symm.trans item_eq) (by decide)
  | equip pItem item_mem slot dwIndex isBetter identified name_eq slot_eq item_eq =>
      exact absurd (type_eq.symm.trans item_eq) (by decide)
  | gem socketColor color_eq socket =>
      rcases socket with nowhere | ⟨invenIndex, i, j, empty, index_eq, x_eq, y_eq⟩
      · simp only [nowhere, inventoryMax, noIndex] at index_lt
        omega
      · exact ⟨socketColor, invenIndex, i, j, color_eq, empty, index_eq, x_eq, y_eq⟩
  | store pItem item_mem room tab_le tab_lt stash_eq =>
      exact absurd (type_eq.symm.trans stash_eq) (by decide)

end CarryTick.Planned

namespace Carry

variable {carry next last : Carry} {tick : CarryTick} {event : CarryEvent}

theorem justified_of_does (noted : carry.Noted) {next : EquipSetting} {command : CarryCommand}
    (does : tick.Does carry.setting (next, some command)) :
    Justified carry.ticks tick command := by
  have initIndex : ¬initEquip.toEquipInvenIndex < inventoryMax := by
    simp only [initEquip, noIndex, inventoryMax]
    omega
  cases does with
  | still isStill =>
      cases command with
      | useItem => trivial
      | useOrb => trivial
      | levelUpGem => trivial
      | getNextStashInfo => trivial
      | stopRun => trivial
      | moveItemToCursor => cases isStill
      | unequipGem => cases isStill
      | moveItem => cases isStill
      | equipGem => cases isStill
      | dropItem => cases isStill
  | holds i free => exact free
  | unequips i socketIndex free => exact free
  | drops pItem held outside index_eq name_eq =>
      rcases noted with clear | ⟨past, past_mem, free, planned⟩
      · rw [clear] at index_eq
        exact absurd index_eq (by decide)
      · rcases planned.drop_of_index index_eq with
          ⟨wasOutside, unwanted, item_mem, same, notGood, gemless⟩
        exact ⟨outside, pItem, held, past, past_mem, free, wasOutside, unwanted, item_mem,
          name_eq.symm.trans same, notGood, gemless⟩
  | returns pItem held room => exact ⟨pItem, held, .inl ⟨rfl, room⟩⟩
  | equips pItem held notGem type_eq index_lt name_eq =>
      rcases noted with clear | ⟨past, past_mem, free, planned⟩
      · rw [clear] at index_lt
        exact absurd index_lt initIndex
      · rcases planned.equip_of_item type_eq index_lt with
          ⟨better, item_mem, same, identified, isBetter⟩
        exact ⟨pItem, held, .inr ⟨past, past_mem, free, better, item_mem,
          .inl ⟨name_eq.symm.trans same, notGem, identified, isBetter⟩⟩⟩
  | stores pItem held type_eq =>
      rcases noted with clear | ⟨past, past_mem, free, planned⟩
      · rw [clear] at type_eq
        cases type_eq
      · rcases planned.store_of_stash type_eq with ⟨stored, item_mem, tab_le, room⟩
        exact ⟨pItem, held, .inr ⟨past, past_mem, free, stored, item_mem, .inr ⟨tab_le, room⟩⟩⟩
  | sockets pItem held isGem type_eq index_lt name_eq =>
      rcases noted with clear | ⟨past, past_mem, free, planned⟩
      · rw [clear] at type_eq
        cases type_eq
      · rcases planned.socket_of_gem type_eq index_lt with
          ⟨socketColor, invenIndex, i, j, color_eq, empty, index_eq, x_eq, y_eq⟩
        rw [name_eq] at color_eq
        exact ⟨pItem, held, isGem, past, past_mem, free, socketColor, invenIndex, i, j, color_eq,
          empty, index_eq, x_eq, y_eq⟩

/-- Whatever is done to an item, an earlier tick stands behind it. -/
theorem command_justified (reached : system.Reachable carry) {command : CarryCommand}
    (issued : (carry.setting.questRun tick).2 = some command ∨
      (carry.setting.stashDeposit tick).2 = some command) :
    Justified carry.ticks tick command := by
  have noted := noted_invariant.of_reachable reached
  rcases issued with questRun_eq | stashDeposit_eq
  · have does := EquipSetting.does_questRun carry.setting tick
    generalize carry.setting.questRun tick = done at questRun_eq does
    rcases done with ⟨current, issued⟩
    cases questRun_eq
    exact justified_of_does noted does
  · have does := EquipSetting.does_stashDeposit carry.setting tick
    generalize carry.setting.stashDeposit tick = done at stashDeposit_eq does
    rcases done with ⟨current, issued⟩
    cases stashDeposit_eq
    exact justified_of_does noted does

/-- An item that is good for nothing, or a gem. -/
def bagItem (path displayName : WString) : BagItem where
  itemData := { sampleRing 0 with path := path, displayName := displayName }
  itemWidth := 1
  itemHeight := 1
  stackSize := 1
  bIdentified := true
  lstItemSocketInfo := []

/-- A tick outside town, with one ring on the fingers. -/
def outsideTick (cursor : Option BagItem) (mainInventory : List BagItem) : CarryTick where
  isTown := false
  player := sampleWitch
  equipment := threeRings.equipment
  gemInfo := fun _ => none
  cursor := cursor
  mainInventory := mainInventory
  flaskLocations := []
  inventoryCount := 12
  count_lt := by decide
  emptySocket := fun _ => none
  emptyCell := fun _ _ => some (0, 0)
  upgradeGem := none
  stashVisible := false
  comesToTown := true
  locals := (0, 0)

def freshCarry : Carry where
  setting := initEquip
  ticks := []
  commands := []

/-- A belt buckle is taken to the cursor. -/
def takenCarry : Carry :=
  let tick := outsideTick none [bagItem (wide "Junk") (wide "Buckle")]
  freshCarry.acted tick (initEquip.questRun tick)

theorem takenCarry_reached : system.Reachable takenCarry := by
  have moves : system.step freshCarry
      (.questRun (outsideTick none [bagItem (wide "Junk") (wide "Buckle")])) takenCarry := rfl
  exact .step (.initial rfl) moves

theorem command_justified_buckle :
    Justified takenCarry.ticks (outsideTick (some (bagItem (wide "Junk") (wide "Buckle"))) [])
      .dropItem :=
  command_justified takenCarry_reached (.inl (by decide +kernel))

/-- The tick finds a gem at the cursor. -/
def SeesGem : CarryEvent → Prop
  | .questRun tick => ∃ pItem, tick.cursor = some pItem ∧ pItem.isGem = true
  | _ => False

/-- Commands that leave alone what is at the cursor. -/
def LeavesCursor : CarryCommand → Prop
  | .useItem _ => True
  | .useOrb _ _ => True
  | .levelUpGem _ _ _ => True
  | _ => False

theorem cleanInven_leavesGem {pItem : BagItem} (held : tick.cursor = some pItem)
    {next : EquipSetting} {command : CarryCommand}
    (cleaned : initEquip.cleanInven tick = some (next, command)) :
    next = initEquip ∧ LeavesCursor command := by
  simp only [EquipSetting.cleanInven] at cleaned
  split at cleaned
  · cases cleaned
    exact ⟨rfl, trivial⟩
  · split at cleaned
    · cases cleaned
      exact ⟨rfl, trivial⟩
    · split at cleaned
      · cases cleaned
      · simp only [held] at cleaned
        split at cleaned
        · rename_i noted
          exact absurd noted.1 (by decide)
        · cases cleaned

theorem autoEquip_leavesGem {pItem : BagItem} (held : tick.cursor = some pItem)
    (isGem : pItem.isGem = true) :
    initEquip.autoEquip tick = (initEquip, EquipSetting.autoUpgradeGem tick) := by
  have item_eq : initEquip.autoEquipItem tick = (initEquip, none) := by
    simp only [EquipSetting.autoEquipItem, held, isGem, if_true]
  have gem_eq : initEquip.autoEquipGem tick = none := by
    simp only [EquipSetting.autoEquipGem, held, isGem, Bool.true_eq_false, if_false]
    rfl
  simp only [EquipSetting.autoEquip, item_eq, gem_eq]

theorem questRun_leavesGem {pItem : BagItem} (held : tick.cursor = some pItem)
    (isGem : pItem.isGem = true) :
    (initEquip.questRun tick).1 = initEquip ∧
      ∀ command ∈ (initEquip.questRun tick).2, LeavesCursor command := by
  simp only [EquipSetting.questRun]
  split
  · rename_i next command cleaned
    rcases cleanInven_leavesGem held cleaned with ⟨clear, leaves⟩
    apply And.intro clear
    intro issued issued_eq
    cases issued_eq
    exact leaves
  · simp only [autoEquip_leavesGem held isGem]
    cases upgrade_eq : EquipSetting.autoUpgradeGem tick with
    | some command =>
        simp only
        apply And.intro trivial
        intro issued issued_eq
        cases issued_eq
        rcases Option.map_eq_some_iff.mp upgrade_eq with ⟨place, -, same⟩
        rw [← same]
        trivial
    | none =>
        simp only [held, Option.isNone_some, Bool.false_eq_true, and_false, if_false]
        exact ⟨trivial, fun issued impossible => by cases impossible⟩

/-- With clear notes nothing ever puts away a gem that is found at the cursor. -/
theorem gem_staysAtCursor (clear : carry.setting = initEquip)
    (run : (system.restrict fun _ event => SeesGem event).Run carry last) :
    last.setting = initEquip ∧ ∃ issued, last.commands = carry.commands ++ issued ∧
      ∀ command ∈ issued, LeavesCursor command := by
  induction run with
  | refl =>
      exact ⟨clear, [], (List.append_nil _).symm, fun command impossible => by cases impossible⟩
  | @step mid last event run moves ih =>
      rcases ih with ⟨midClear, issued, commands_eq, leaves⟩
      rcases moves with ⟨sees, moves⟩
      cases event with
      | stashDeposit tick => cases sees
      | init => cases sees
      | questRun tick =>
          rcases sees with ⟨pItem, held, isGem⟩
          rcases questRun_leavesGem held isGem with ⟨nextClear, nextLeaves⟩
          have last_eq : last = mid.acted tick (initEquip.questRun tick) := by
            rw [← midClear]
            exact moves
          rw [last_eq]
          refine ⟨nextClear, issued ++ (initEquip.questRun tick).2.toList, ?_, ?_⟩
          · simp only [acted, commands_eq, List.append_assoc]
          · intro command command_mem
            rcases List.mem_append.mp command_mem with before | now
            · exact leaves command before
            · exact nextLeaves command (Option.mem_toList.mp now)

theorem gem_staysAtCursor_fireball :
    let tick := outsideTick (some (bagItem (wide "/Gems/") (wide "Fireball"))) []
    (freshCarry.acted tick (initEquip.questRun tick)).setting = initEquip ∧
      ∃ issued, (freshCarry.acted tick (initEquip.questRun tick)).commands =
        freshCarry.commands ++ issued ∧ ∀ command ∈ issued, LeavesCursor command := by
  intro tick
  have sees : SeesGem (.questRun tick) := ⟨_, rfl, by decide +kernel⟩
  have moves : (system.restrict fun _ event => SeesGem event).step freshCarry (.questRun tick)
      (freshCarry.acted tick (initEquip.questRun tick)) := ⟨sees, rfl⟩
  exact gem_staysAtCursor rfl (.single moves)

end Carry

end PoETask.Attach
