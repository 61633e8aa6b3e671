import PoETask.Attach.EquipItem

/-!
# Inventories

The items of an inventory with what the trade functions and the placement read of them:
fields of `ItemData`, `ItemStack`, `Quality`, `Sockets` and `ItemLocation`.
-/

namespace PoETask.Attach

structure InvenSlotItem where
  displayName : WString
  path : WString
  itemQuality : ℤ
  stackSize : ℤ
  socketedNames : List WString
  itemWidth : UInt8
  itemHeight : UInt8
  xMin : ℤ
  yMin : ℤ
  itemKey : UInt32

/-- The items are indexed and counted by a `DWORD`. -/
structure ServerInventory where
  columns : ℤ
  rows : ℤ
  slotItems : List InvenSlotItem
  indexed : slotItems.length < 0x100000000

structure InventoryHolder where
  id : ℤ
  inventory : ServerInventory

end PoETask.Attach
