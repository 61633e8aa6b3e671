import PoETask.Library.Swapping
import Mathlib.Order.Lex
import Mathlib.Data.List.Lex

/-!
# Choosing what to equip

`IsBetterThanEquip` looks for a place for an item: an empty slot of its kind, or an item
of its kind that it is better than. Rings and one-hand weapons have two slots. Items are
compared by sockets, attributes, rarity, level and quality, in this order, and a weapon
is better than whatever is held in the other hand.

Strings are lists of code units, and the numbers that an attribute sum adds up are not
bounded.
-/

namespace PoETask.Attach

open PoETask.Library

abbrev WString := List UInt16

def wide (text : String) : WString := text.toList.map fun letter => .ofNat letter.toNat

/-- `text.find(pattern) != -1`. -/
def finds (text : WString) (pattern : String) : Bool := decide (wide pattern <:+: text)

/-- The inventories that hold equipment, and the main inventory. -/
inductive Inventories where
  | mainInventory1
  | bodyArmour1
  | weapon1
  | offhand1
  | helm1
  | amulet1
  | ring1
  | ring2
  | gloves1
  | boots1
  | belt1
  | flask1
  deriving DecidableEq

instance : Fintype Inventories where
  elems := {.mainInventory1, .bodyArmour1, .weapon1, .offhand1, .helm1, .amulet1, .ring1, .ring2,
    .gloves1, .boots1, .belt1, .flask1}
  complete slot := by cases slot <;> decide

def Inventories.index : Inventories → ℕ
  | .mainInventory1 => 0
  | .bodyArmour1 => 1
  | .weapon1 => 2
  | .offhand1 => 3
  | .helm1 => 4
  | .amulet1 => 5
  | .ring1 => 6
  | .ring2 => 7
  | .gloves1 => 8
  | .boots1 => 9
  | .belt1 => 10
  | .flask1 => 11

structure ItemData where
  path : WString
  displayName : WString
  implicitMods : List (List (WString × ℤ))
  socketColors : List ℤ
  lstSocketLinkInfo : List (List ℤ)
  nItemRarity : ℤ
  nItemLevel : ℤ
  nItemRequireLevel : ℤ
  strength : ℤ
  dexterity : ℤ
  intelligence : ℤ
  itemQuality : ℤ
  deriving DecidableEq

inductive CharacterClass where
  | scion
  | marauder
  | ranger
  | witch
  | duelist
  | templar
  | shadow
  | none
  deriving DecidableEq

structure Player where
  level : ℤ
  strength : ℤ
  dexterity : ℤ
  intelligence : ℤ
  playerClass : CharacterClass

structure SocketColorInfo where
  equipType : Inventories
  redCount : ℕ
  greenCount : ℕ
  blueCount : ℕ

/-- One criterion: names of attributes with their ratings. -/
abbrev ItemStatsInfo := List (String × ℤ)

structure ItemStatsList where
  equipType : Inventories
  statsList : List ItemStatsInfo

/-- `g_pInfoSocketColor_Witch`. -/
def infoSocketColorWitch : List SocketColorInfo :=
  [⟨.weapon1, 1, 0, 2⟩, ⟨.helm1, 3, 0, 1⟩, ⟨.gloves1, 1, 1, 2⟩, ⟨.bodyArmour1, 0, 1, 5⟩,
    ⟨.boots1, 0, 0, 4⟩]

def resistances : ItemStatsInfo :=
  [("base_fire_damage_resistance_%", 1), ("base_cold_damage_resistance_%", 1),
    ("base_lightning_damage_resistance_%", 1)]

def maximumLife : ItemStatsInfo := [("base_maximum_life", 1)]

def jewelryDamage : ItemStatsInfo :=
  [("base_cast_speed_+%", 5), ("elemental_damage_+%", 2), ("lightning_damage_+%", 3)]

/-- `g_pInfoItemStats_Witch`. -/
def infoItemStatsWitch : List ItemStatsList :=
  [⟨.weapon1, [[("base_cast_speed_+%", 5), ("spell_damage_+%", 3), ("lightning_damage_+%", 2)]]⟩,
    ⟨.helm1, [resistances, maximumLife]⟩,
    ⟨.bodyArmour1, [resistances, maximumLife]⟩,
    ⟨.gloves1, [resistances, maximumLife]⟩,
    ⟨.boots1, [[("base_movement_velocity_+%", 1)], resistances, maximumLife]⟩,
    ⟨.ring1, [jewelryDamage, resistances, maximumLife]⟩,
    ⟨.amulet1, [jewelryDamage, resistances, maximumLife]⟩,
    ⟨.belt1, [resistances, maximumLife]⟩]

def equipTypes : List (String × Inventories) :=
  [("/BodyArmours/", .bodyArmour1), ("/Weapons/", .weapon1), ("/Shields/", .offhand1),
    ("/Helmets/", .helm1), ("/Amulets/", .amulet1), ("/Rings/", .ring1), ("/Gloves/", .gloves1),
    ("/Boots/", .boots1), ("/Belts/", .belt1), ("/Flasks/", .flask1)]

def getEquipType (itemPath : WString) : Option Inventories :=
  (equipTypes.find? fun entry => finds itemPath entry.1).map Prod.snd

def ItemData.equipType (itemData : ItemData) : Option Inventories := getEquipType itemData.path

def getStatsValue (itemData : ItemData) (statsName : String) : ℤ :=
  ((itemData.implicitMods.flatten.find? fun stats => stats.1 = wide statsName).map Prod.snd).getD 0

/-- The sockets of one link group that are wanted, in the order red, green, blue. -/
def countLinked (colorInfo : SocketColorInfo) (itemData : ItemData) (link : List ℤ) : ℕ × ℕ × ℕ :=
  link.foldl
    (fun (red, green, blue) (index : ℤ) =>
      if index < 0 ∨ itemData.socketColors.length ≤ index then
        (red, green, blue)
      else
        match itemData.socketColors.getD index.toNat 0 with
        | 1 => (if red < colorInfo.redCount then red + 1 else red, green, blue)
        | 2 => (red, if green < colorInfo.greenCount then green + 1 else green, blue)
        | 3 => (red, green, if blue < colorInfo.blueCount then blue + 1 else blue)
        | _ => (red, green, blue))
    (0, 0, 0)

def getNeedSocketCount (itemData : ItemData) : ℕ :=
  match infoSocketColorWitch.find? fun colorInfo => some colorInfo.equipType = itemData.equipType with
  | none => 0
  | some colorInfo => itemData.lstSocketLinkInfo.foldl
      (fun maxCount link =>
        let (red, green, blue) := countLinked colorInfo itemData link
        max maxCount (red + green + blue))
      0

def statSum (itemData : ItemData) (stats : ItemStatsInfo) : ℤ :=
  (stats.map fun element => element.2 * getStatsValue itemData element.1).sum

def compareSums (item1 item2 : ItemData) : List ItemStatsInfo → ℤ
  | [] => 0
  | stats :: rest =>
      if statSum item1 stats > statSum item2 stats then 1
      else if statSum item1 stats < statSum item2 stats then -1
      else compareSums item1 item2 rest

/-- The criteria for a kind of item. -/
def statsFor (equipType : Option Inventories) : List ItemStatsInfo :=
  ((infoItemStatsWitch.find? fun info => some info.equipType = equipType).map
    ItemStatsList.statsList).getD []

def compareStats (item1 item2 : ItemData) : ℤ :=
  compareSums item1 item2 (statsFor item1.equipType)

/-- The end of `CompareItem`: sockets, attributes, rarity, level, quality. -/
def compareGrades (item1 item2 : ItemData) : ℤ :=
  if getNeedSocketCount item1 > getNeedSocketCount item2 then 1
  else if getNeedSocketCount item1 = getNeedSocketCount item2 then
    if compareStats item1 item2 > 0 then 1
    else if compareStats item1 item2 = 0 then
      if item1.nItemRarity > item2.nItemRarity then 1
      else if item1.nItemRarity = item2.nItemRarity then
        if item1.nItemLevel > item2.nItemLevel then 1
        else if item1.nItemLevel = item2.nItemLevel then
          if item1.itemQuality > item2.itemQuality then 1
          else if item1.itemQuality = item2.itemQuality then 0
          else -1
        else -1
      else -1
    else -1
  else -1

def compareItem (item1 item2 : ItemData) : ℤ :=
  let equipType1 := item1.equipType
  let equipType2 := item2.equipType
  if equipType1 = some .weapon1 ∧ equipType2 = some .offhand1 then 1
  else if equipType1 ≠ equipType2 ∨ equipType1 = none then 0
  else if equipType1 = some .flask1 ∧ item1.path.take (item1.path.length - 2) ≠
      item2.path.take (item1.path.length - 2) then 0
  else if equipType1 = some .flask1 ∧ ¬ finds item1.displayName "Life" ∧
      ¬ finds item2.displayName "Mana" then 0
  else if equipType1 = some .flask1 ∧ item1.path > item2.path then 1
  else if equipType1 = some .flask1 ∧ item1.path < item2.path then -1
  else compareGrades item1 item2

def canEquipItem (player : Player) (itemData : ItemData) : Bool :=
  !(player.level < itemData.nItemRequireLevel || player.strength < itemData.strength ||
    player.dexterity < itemData.dexterity || player.intelligence < itemData.intelligence)

/-- `playerInventories`: how many there are, and the items in each. -/
structure Equipment where
  size : ℕ
  slotItems : Inventories → List ItemData

def flaskSlotCount : ℕ := 5

def anotherEquipType : Inventories → Option Inventories
  | .weapon1 => some .offhand1
  | .ring1 => some .ring2
  | _ => none

namespace Equipment

variable (equipment : Equipment)

/-- A place where there is room. -/
def emptyPlace (equipType : Inventories) : Option (Inventories × ℕ) :=
  if equipType = .flask1 then
    if (equipment.slotItems equipType).length < flaskSlotCount then
      some (equipType, (equipment.slotItems equipType).length)
    else
      none
  else if (equipment.slotItems equipType).length = 0 then
    some (equipType, 0)
  else
    (anotherEquipType equipType).bind fun another =>
      if (equipment.slotItems another).length = 0 then some (another, 0) else none

def flasksNameType : List String := ["Life", "Mana", "Quicksilver"]

def flasksMaxCount (player : Player) : List ℕ := if player.level ≥ 25 then [3, 1, 1] else [2, 2, 1]

def flasksCount (j : ℕ) : ℕ :=
  (equipment.slotItems .flask1).countP fun flaskItem =>
    flasksNameType.findIdx? (finds flaskItem.displayName) = some j

/-- Whether a flask of another kind may give way to one of kind `j`. -/
def replaceable (player : Player) (flaskItem : ItemData) (j : ℕ) : Bool :=
  match (List.range 3).find? fun k =>
      k ≠ j ∧ finds flaskItem.path (flasksNameType.getD k "") with
  | none => true
  | some k => (flasksMaxCount player).getD k 0 < equipment.flasksCount k

/-- The flask that gives way to one of a kind of which there are too few. -/
def flaskIndex (player : Player) (itemData : ItemData) (j : ℕ) : Option ℕ :=
  let flasks := equipment.slotItems .flask1
  flasks.zipIdx.foldl
    (fun dwIndex (flaskItem, i) =>
      if finds flaskItem.path (flasksNameType.getD j "") then dwIndex
      else if equipment.replaceable player flaskItem j then
        match dwIndex.bind (flasks[·]?) with
        | none => some i
        | some chosen => if compareItem chosen itemData > 0 then some i else dwIndex
      else dwIndex)
    none

def flaskPlace (player : Player) (itemData : ItemData) : Option (Inventories × ℕ) :=
  ((List.range 3).findSome? fun j =>
    if finds itemData.displayName (flasksNameType.getD j "") ∧
        equipment.flasksCount j < (flasksMaxCount player).getD j 0 then
      equipment.flaskIndex player itemData j
    else
      none).map fun dwIndex => (.flask1, dwIndex)

/-- The first item that the given one is better than. -/
def worseIndex (itemData : ItemData) (slot : Inventories) : Option ℕ :=
  (equipment.slotItems slot).findIdx? fun held => compareItem itemData held > 0

def worsePlace (itemData : ItemData) (equipType : Inventories) : Option (Inventories × ℕ) :=
  match equipment.worseIndex itemData equipType with
  | some dwIndex => some (equipType, dwIndex)
  | none => (anotherEquipType equipType).bind fun another =>
      (equipment.worseIndex itemData another).map fun dwIndex => (another, dwIndex)

end Equipment

def isBetterThanEquip (player : Player) (equipment : Equipment) (itemData : ItemData) :
    Option (Inventories × ℕ) :=
  itemData.equipType.bind fun equipType =>
    if equipment.size ≤ equipType.index then none
    else if ¬ canEquipItem player itemData then none
    else if itemData.intelligence = 0 ∧ (itemData.strength > 0 ∨ itemData.dexterity > 0) then none
    else if equipType = .weapon1 ∧ ¬ finds itemData.path "/OneHandWeapons/" then none
    else if equipType = .weapon1 ∧ player.playerClass = .witch ∧
        ¬ finds itemData.path "/Wands/" then none
    else
      match equipment.emptyPlace equipType with
      | some place => some place
      | none =>
          match if equipType = .flask1 then equipment.flaskPlace player itemData else none with
          | some place => some place
          | none => equipment.worsePlace itemData equipType

/-- Put an item at an index of a slot, in the place of what is there. -/
def Equipment.put (equipment : Equipment) (slot : Inventories) (dwIndex : ℕ)
    (itemData : ItemData) : Equipment :=
  let held := equipment.slotItems slot
  { equipment with
    slotItems := Function.update equipment.slotItems slot
      (if dwIndex < held.length then held.set dwIndex itemData else held ++ [itemData]) }

/-- The equipment and the items in the main inventory. -/
structure Character where
  equipment : Equipment
  mainInventory : Multiset ItemData

/-- An item of the main inventory is put where `IsBetterThanEquip` says, and what was there goes to
the main inventory. -/
inductive Equips (player : Player) : Character → Character → Prop where
  | put {equipment : Equipment} {itemData : ItemData} {rest : Multiset ItemData}
      {slot : Inventories} {dwIndex : ℕ}
      (isBetter : isBetterThanEquip player equipment itemData = some (slot, dwIndex)) :
      Equips player ⟨equipment, itemData ::ₘ rest⟩
        ⟨equipment.put slot dwIndex itemData, ((equipment.slotItems slot)[dwIndex]?).toList + rest⟩

section Comparing

variable {item1 item2 : ItemData}

/-- What items of one kind are compared by. -/
def grade (itemData : ItemData) : List ℤ :=
  getNeedSocketCount itemData ::
    ((statsFor itemData.equipType).map (statSum itemData) ++
      [itemData.nItemRarity, itemData.nItemLevel, itemData.itemQuality])

/-- Better than another item, for items that are not flasks. -/
def BetterItem (item1 item2 : ItemData) : Prop :=
  item1.equipType ≠ some .flask1 ∧ 0 < compareItem item1 item2

theorem compareSums_pos_iff (stats : List ItemStatsInfo) (tail1 tail2 : List ℤ) :
    0 < compareSums item1 item2 stats ∨ compareSums item1 item2 stats = 0 ∧ tail2 < tail1 ↔
      stats.map (statSum item2) ++ tail2 < stats.map (statSum item1) ++ tail1 := by
  induction stats with
  | nil => simp [compareSums]
  | cons first rest ih =>
      simp only [compareSums, List.map_cons, List.cons_append, List.cons_lt_cons_iff, ← ih]
      split_ifs with greater less
      · simp [greater]
      · simp [less.not_gt, less.ne']
      · have same : statSum item2 first = statSum item1 first :=
          le_antisymm (not_lt.mp less) (not_lt.mp greater)
        simp [same]

theorem compareGrades_pos_iff (same : item1.equipType = item2.equipType) :
    0 < compareGrades item1 item2 ↔ grade item2 < grade item1 := by
  have tails : [item2.nItemRarity, item2.nItemLevel, item2.itemQuality] <
        [item1.nItemRarity, item1.nItemLevel, item1.itemQuality] ↔
      item2.nItemRarity < item1.nItemRarity ∨ item2.nItemRarity = item1.nItemRarity ∧
        (item2.nItemLevel < item1.nItemLevel ∨ item2.nItemLevel = item1.nItemLevel ∧
          item2.itemQuality < item1.itemQuality) := by
    simp [List.cons_lt_cons_iff]
  rw [grade, grade, List.cons_lt_cons_iff, ← same, ← compareSums_pos_iff, tails, Int.ofNat_lt,
    Int.ofNat_inj]
  simp only [compareGrades, compareStats]
  split_ifs <;> omega

theorem compareItem_pos_iff (notFlask : item1.equipType ≠ some .flask1) :
    0 < compareItem item1 item2 ↔
      (item1.equipType = some .weapon1 ∧ item2.equipType = some .offhand1) ∨
        (item1.equipType = item2.equipType ∧ item1.equipType ≠ none ∧
          grade item2 < grade item1) := by
  simp only [compareItem, notFlask, false_and, if_false]
  by_cases overShield : item1.equipType = some .weapon1 ∧ item2.equipType = some .offhand1
  · simp [overShield]
  · simp only [overShield, if_false, false_or]
    by_cases unlike : item1.equipType ≠ item2.equipType ∨ item1.equipType = none
    · have never : ¬ (item1.equipType = item2.equipType ∧ item1.equipType ≠ none ∧
          grade item2 < grade item1) := by
        rintro ⟨same, known, -⟩
        exact unlike.elim (absurd same) known
      rw [if_pos unlike]
      exact iff_of_false (lt_irrefl 0) never
    · rw [if_neg unlike]
      rw [not_or, not_not] at unlike
      rcases unlike with ⟨same, known⟩
      rw [compareGrades_pos_iff same]
      exact ⟨fun graded => ⟨same, known, graded⟩, fun graded => graded.2.2⟩

theorem BetterItem.irrefl (itemData : ItemData) : ¬ BetterItem itemData itemData := by
  rintro ⟨notFlask, better⟩
  rcases (compareItem_pos_iff notFlask).mp better with ⟨isWeapon, isShield⟩ | ⟨-, -, graded⟩
  · exact absurd (isWeapon.symm.trans isShield) (by decide)
  · exact lt_irrefl _ graded

/-- Only a weapon is better than something of another kind, and that is in the other hand. -/
theorem BetterItem.trans {item3 : ItemData} (better12 : BetterItem item1 item2)
    (better23 : BetterItem item2 item3) : BetterItem item1 item3 := by
  refine ⟨better12.1, (compareItem_pos_iff better12.1).mpr ?_⟩
  rcases (compareItem_pos_iff better12.1).mp better12.2 with
    ⟨isWeapon, isShield⟩ | ⟨same12, known, graded12⟩
  · rcases (compareItem_pos_iff better23.1).mp better23.2 with ⟨otherWeapon, -⟩ | ⟨same23, -, -⟩
    · exact absurd (otherWeapon.symm.trans isShield) (by decide)
    · exact .inl ⟨isWeapon, same23 ▸ isShield⟩
  · rcases (compareItem_pos_iff better23.1).mp better23.2 with
      ⟨isWeapon, isShield⟩ | ⟨same23, -, graded23⟩
    · exact .inl ⟨same12.trans isWeapon, isShield⟩
    · exact .inr ⟨same12.trans same23, known, graded23.trans graded12⟩

instance : IsStrictOrder ItemData BetterItem where
  irrefl := BetterItem.irrefl
  trans _ _ _ := BetterItem.trans

/-- What is displaced is no flask either. -/
theorem BetterItem.notFlask (better : BetterItem item1 item2) :
    item2.equipType ≠ some .flask1 := by
  rcases (compareItem_pos_iff better.1).mp better.2 with ⟨-, isShield⟩ | ⟨same, -, -⟩
  · simp [isShield]
  · exact same ▸ better.1

end Comparing

section Equipping

variable {player : Player} {equipment : Equipment} {itemData : ItemData} {slot : Inventories}
  {dwIndex : ℕ} {character next : Character}

theorem worseIndex_spec (found : equipment.worseIndex itemData slot = some dwIndex) :
    ∃ held, (equipment.slotItems slot)[dwIndex]? = some held ∧ 0 < compareItem itemData held := by
  rw [Equipment.worseIndex, List.findIdx?_eq_some_iff_getElem] at found
  rcases found with ⟨inside, isBetter, -⟩
  exact ⟨_, List.getElem?_eq_getElem inside, by simpa using isBetter⟩

theorem slotItems_of_emptyPlace {equipType : Inventories} (notFlask : equipType ≠ .flask1)
    (found : equipment.emptyPlace equipType = some (slot, dwIndex)) :
    equipment.slotItems slot = [] := by
  simp only [Equipment.emptyPlace, if_neg notFlask] at found
  split at found
  · rename_i isEmpty
    cases found
    exact List.length_eq_zero_iff.mp isEmpty
  · rcases Option.bind_eq_some_iff.mp found with ⟨another, -, found⟩
    simp only [Option.ite_none_right_eq_some] at found
    rcases found with ⟨isEmpty, found⟩
    cases found
    exact List.length_eq_zero_iff.mp isEmpty

theorem worsePlace_spec {equipType : Inventories}
    (found : equipment.worsePlace itemData equipType = some (slot, dwIndex)) :
    ∃ held, (equipment.slotItems slot)[dwIndex]? = some held ∧ 0 < compareItem itemData held := by
  rw [Equipment.worsePlace] at found
  split at found
  · rename_i isWorse
    cases found
    exact worseIndex_spec isWorse
  · rcases Option.bind_eq_some_iff.mp found with ⟨another, -, found⟩
    rcases Option.map_eq_some_iff.mp found with ⟨index, isWorse, same⟩
    cases same
    exact worseIndex_spec isWorse

/-- The place of an item that is no flask is an empty slot, or that of an item it is better than. -/
theorem isBetterThanEquip_spec (notFlask : itemData.equipType ≠ some .flask1)
    (isBetter : isBetterThanEquip player equipment itemData = some (slot, dwIndex)) :
    equipment.slotItems slot = [] ∨
      ∃ held, (equipment.slotItems slot)[dwIndex]? = some held ∧ BetterItem itemData held := by
  rcases Option.bind_eq_some_iff.mp isBetter with ⟨equipType, isType, place_eq⟩
  have notFlask1 : equipType ≠ .flask1 := fun same => notFlask (same ▸ isType)
  simp only [Option.ite_none_left_eq_some] at place_eq
  rcases place_eq with ⟨-, -, -, -, -, place_eq⟩
  split at place_eq
  · rename_i place isEmpty
    cases place_eq
    exact .inl (slotItems_of_emptyPlace notFlask1 isEmpty)
  · simp only [if_neg notFlask1] at place_eq
    rcases worsePlace_spec place_eq with ⟨held, isHeld, better⟩
    exact .inr ⟨held, isHeld, notFlask, better⟩

end Equipping

namespace Character

def stock (character : Character) : Stock Inventories ItemData where
  slots := character.equipment.slotItems
  spare := character.mainInventory

/-- The main inventory has no flasks. -/
def NoFlasks (character : Character) : Prop :=
  ∀ itemData ∈ character.mainInventory, itemData.equipType ≠ some .flask1

end Character

section Terminating

variable {player : Player} {character next : Character}

theorem Equips.swap (equips : Equips player character next) (noFlasks : character.NoFlasks) :
    Swap BetterItem character.stock next.stock ∧ next.NoFlasks := by
  cases equips with
  | @put equipment itemData rest slot dwIndex isBetter =>
      have notFlask := noFlasks itemData (Multiset.mem_cons_self itemData rest)
      have restNoFlasks : ∀ other ∈ rest, other.equipType ≠ some .flask1 := fun other isOther =>
        noFlasks other (Multiset.mem_cons_of_mem isOther)
      rcases isBetterThanEquip_spec notFlask isBetter with isEmpty | ⟨held, isHeld, better⟩
      · simp only [Character.stock, Character.NoFlasks, Equipment.put, isEmpty]
        simp only [List.length_nil, Nat.not_lt_zero, if_false, List.nil_append,
          List.getElem?_nil, Option.toList_none, Multiset.coe_nil, zero_add]
        exact ⟨.fill isEmpty, restNoFlasks⟩
      · rcases List.getElem?_eq_some_iff.mp isHeld with ⟨inside, held_eq⟩
        have holds : equipment.slotItems slot = (equipment.slotItems slot).take dwIndex ++
            held :: (equipment.slotItems slot).drop (dwIndex + 1) := by
          rw [← held_eq, List.getElem_cons_drop, List.take_append_drop]
        simp only [Character.stock, Character.NoFlasks, Equipment.put, if_pos inside, isHeld,
          Option.toList_some, Multiset.coe_singleton, Multiset.singleton_add,
          List.set_eq_take_append_cons_drop]
        exact ⟨.replace holds better, Multiset.forall_mem_cons.mpr ⟨better.notFlask, restNoFlasks⟩⟩

theorem stocks_of_chain {process : List Character} (noFlasks : character.NoFlasks)
    (chain : (character :: process).IsChain (Equips player)) :
    (character.stock :: process.map Character.stock).IsChain (Swap BetterItem) := by
  induction process generalizing character with
  | nil => exact List.isChain_singleton _
  | cons next later ih =>
      rw [List.isChain_cons_cons] at chain
      rcases chain.1.swap noFlasks with ⟨swap, nextNoFlasks⟩
      exact List.isChain_cons_cons.mpr ⟨swap, ih nextNoFlasks chain.2⟩

/-- There is a bound on the number of items that can be equipped one after the other. -/
theorem autoEquip_terminates (player : Player) (character : Character)
    (noFlasks : character.NoFlasks) :
    ∃ bound, ∀ process : List Character,
      (character :: process).IsChain (Equips player) → process.length ≤ bound := by
  refine ⟨character.stock.weight BetterItem character.stock.items, fun process chain => ?_⟩
  have bounded := Swap.length_le_weight (stocks_of_chain noFlasks chain)
  rwa [List.length_map] at bounded

/-- A ring of some level. -/
def sampleRing (nItemLevel : ℤ) : ItemData where
  path := wide "Metadata/Items/Rings/Ring1"
  displayName := wide "Iron Ring"
  implicitMods := []
  socketColors := []
  lstSocketLinkInfo := []
  nItemRarity := 0
  nItemLevel := nItemLevel
  nItemRequireLevel := 1
  strength := 0
  dexterity := 0
  intelligence := 0
  itemQuality := 0

def sampleWitch : Player where
  level := 10
  strength := 14
  dexterity := 14
  intelligence := 32
  playerClass := .witch

/-- Two rings on the fingers and a better one in the main inventory. -/
def threeRings : Character where
  equipment :=
    { size := 30
      slotItems := fun
        | .ring1 => [sampleRing 2]
        | .ring2 => [sampleRing 1]
        | _ => [] }
  mainInventory := {sampleRing 3}

example : ∃ next, Equips sampleWitch threeRings next := by
  have isBetter : isBetterThanEquip sampleWitch threeRings.equipment (sampleRing 3) =
      some (.ring1, 0) := by
    decide +kernel
  have threeRings_eq : threeRings = ⟨threeRings.equipment, sampleRing 3 ::ₘ 0⟩ := rfl
  rw [threeRings_eq]
  exact ⟨_, .put isBetter⟩

theorem autoEquip_terminates_threeRings : ∃ bound, ∀ process : List Character,
    (threeRings :: process).IsChain (Equips sampleWitch) → process.length ≤ bound := by
  refine autoEquip_terminates sampleWitch threeRings fun itemData isItem => ?_
  rw [Multiset.mem_singleton.mp isItem]
  decide +kernel

end Terminating

end PoETask.Attach
