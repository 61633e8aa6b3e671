import PoETask.Attach.Inventory
import PoETask.Library.SummedArea
import Mathlib.Algebra.Order.BigOperators.Group.Finset

/-!
# A free place in an inventory

`GetEmptyCellInInven`: the occupied cells are summed in place, a rectangle is free when its four
corners leave nothing, and the columns are searched from the left, each from its top.
-/

namespace PoETask.Attach

namespace EmptyCell

/-- Where `pInventoryCell[i][j]` lies in the table of 60 by 60 cells. -/
def cellIndex (i j : ℕ) : ℕ := i * 60 + j

/-- The loops over the cells of an item. -/
def markItem (pInventoryCell : List ℤ) (pItem : InvenSlotItem) : List ℤ :=
  (List.range pItem.itemWidth.toNat).foldl
    (fun cells (j : ℕ) =>
      (List.range pItem.itemHeight.toNat).foldl
        (fun cells (k : ℕ) => cells.set (cellIndex (pItem.xMin + j).toNat (pItem.yMin + k).toNat) 1)
        cells)
    pInventoryCell

def nLeftSum (pInventoryCell : List ℤ) (i j : ℕ) : ℤ :=
  if i = 0 then 0 else pInventoryCell.getD (cellIndex (i - 1) j) 0

def nUpSum (pInventoryCell : List ℤ) (i j : ℕ) : ℤ :=
  if j = 0 then 0 else pInventoryCell.getD (cellIndex i (j - 1)) 0

def nMidSum (pInventoryCell : List ℤ) (i j : ℕ) : ℤ :=
  if i > 0 ∧ j > 0 then pInventoryCell.getD (cellIndex (i - 1) (j - 1)) 0 else 0

def sumCell (i : ℕ) (pInventoryCell : List ℤ) (j : ℕ) : List ℤ :=
  pInventoryCell.set (cellIndex i j)
    (pInventoryCell.getD (cellIndex i j) 0
      + (nLeftSum pInventoryCell i j + nUpSum pInventoryCell i j - nMidSum pInventoryCell i j))

def sumCells (nInvenWidth nInvenHeight : ℕ) (pInventoryCell : List ℤ) : List ℤ :=
  (List.range nInvenWidth).foldl
    (fun cells i => (List.range nInvenHeight).foldl (sumCell i) cells) pInventoryCell

/-- What the four corners of a rectangle leave. -/
def nSum (pInventoryCell : List ℤ) (cellWidth cellHeight i j : ℕ) : ℤ :=
  pInventoryCell.getD (cellIndex (i + cellWidth - 1) (j + cellHeight - 1)) 0
    + nMidSum pInventoryCell i j - nLeftSum pInventoryCell i (j + cellHeight - 1)
    - nUpSum pInventoryCell (i + cellWidth - 1) j

/-- The loop over `j`: where it stops. -/
def rowLoop (pInventoryCell : List ℤ) (cellWidth cellHeight i : ℕ) : ℕ → ℕ → ℕ
  | 0, j => j
  | turns + 1, j =>
      if nSum pInventoryCell cellWidth cellHeight i j = 0 then j
      else rowLoop pInventoryCell cellWidth cellHeight i turns (j + 1)

/-- The loop over `i`: it is left when the one over `j` was left early. -/
def columnLoop (pInventoryCell : List ℤ) (nInvenHeight : ℤ) (cellWidth cellHeight : ℕ) :
    ℕ → ℕ → Option (ℕ × ℕ)
  | 0, _ => none
  | turns + 1, i =>
      let j := rowLoop pInventoryCell cellWidth cellHeight i
        (nInvenHeight - cellHeight + 1).toNat 0
      if j ≤ nInvenHeight - cellHeight then some (i, j)
      else columnLoop pInventoryCell nInvenHeight cellWidth cellHeight turns (i + 1)

end EmptyCell

open EmptyCell

/-- `nInvenWidth`: two columns are left for quest items. -/
def ServerInventory.nInvenWidth (inventory : ServerInventory) (remainEmpty : Bool) : ℤ :=
  if remainEmpty then inventory.columns - 2 else inventory.columns

/-- The cells with their running sums. -/
def ServerInventory.sums (inventory : ServerInventory) (remainEmpty : Bool) : List ℤ :=
  sumCells (inventory.nInvenWidth remainEmpty).toNat inventory.rows.toNat
    (inventory.slotItems.foldl markItem (List.replicate (60 * 60) 0))

/-- The cell that is reported; `none` without success. -/
def getEmptyCellInInven (playerInventories : List InventoryHolder) (cellWidth cellHeight : ℤ)
    (remainEmpty : Bool) (dwInvenIndex : ℕ) : Option (ℕ × ℕ) :=
  if cellWidth = 0 ∨ cellHeight = 0 then none
  else playerInventories[dwInvenIndex]?.bind fun pInven =>
    columnLoop (pInven.inventory.sums remainEmpty) pInven.inventory.rows cellWidth.toNat
      cellHeight.toNat (pInven.inventory.nInvenWidth remainEmpty - cellWidth + 1).toNat 0

/-- A cell that an item lies on. -/
def InvenSlotItem.Covers (pItem : InvenSlotItem) (x y : ℤ) : Prop :=
  pItem.xMin ≤ x ∧ x < pItem.xMin + pItem.itemWidth.toNat
    ∧ pItem.yMin ≤ y ∧ y < pItem.yMin + pItem.itemHeight.toNat

instance (pItem : InvenSlotItem) (x y : ℤ) : Decidable (pItem.Covers x y) :=
  inferInstanceAs (Decidable (_ ∧ _ ∧ _ ∧ _))

namespace ServerInventory

/-- The inventory fits into the table and its items lie in it. -/
structure Fits (inventory : ServerInventory) : Prop where
  columns : inventory.columns ≤ 60
  rows : inventory.rows ≤ 60
  left : ∀ pItem ∈ inventory.slotItems, 0 ≤ pItem.xMin
  right : ∀ pItem ∈ inventory.slotItems,
    pItem.xMin + pItem.itemWidth.toNat ≤ inventory.columns
  top : ∀ pItem ∈ inventory.slotItems, 0 ≤ pItem.yMin
  bottom : ∀ pItem ∈ inventory.slotItems,
    pItem.yMin + pItem.itemHeight.toNat ≤ inventory.rows

/-- A rectangle in the usable columns that no item lies on. -/
structure Free (inventory : ServerInventory) (remainEmpty : Bool) (cellWidth cellHeight x y : ℤ) :
    Prop where
  left : 0 ≤ x
  right : x + cellWidth ≤ inventory.nInvenWidth remainEmpty
  top : 0 ≤ y
  bottom : y + cellHeight ≤ inventory.rows
  uncovered : ∀ pItem ∈ inventory.slotItems, ∀ a b, x ≤ a → a < x + cellWidth → y ≤ b →
    b < y + cellHeight → ¬ pItem.Covers a b

end ServerInventory

namespace EmptyCell

open SummedArea

section Mark

theorem length_foldl_set (value : ℤ) (indices : List ℕ) (cells : List ℤ) :
    (indices.foldl (fun cells index => cells.set index value) cells).length = cells.length := by
  induction indices generalizing cells with
  | nil => rfl
  | cons index rest lengthRest => rw [List.foldl_cons, lengthRest, List.length_set]

/-- Writing one value at many places. -/
theorem getD_foldl_set (value : ℤ) (indices : List ℕ) {cells : List ℤ} {place : ℕ}
    (inTable : place < cells.length) :
    (indices.foldl (fun cells index => cells.set index value) cells).getD place 0
      = if place ∈ indices then value else cells.getD place 0 := by
  induction indices generalizing cells with
  | nil => rfl
  | cons index rest readsRest =>
      rw [List.foldl_cons, readsRest (by rwa [List.length_set])]
      simp only [List.getD_eq_getElem?_getD, List.getElem?_set, List.mem_cons]
      by_cases isFirst : place = index
      · subst isFirst
        simp [inTable]
      · have notIndex : ¬ index = place := fun isSame => isFirst isSame.symm
        simp only [isFirst, notIndex, if_false, false_or]

variable {cells : List ℤ} {pItem : InvenSlotItem} {i j : ℕ}

theorem markItem_eq_foldl (cells : List ℤ) (pItem : InvenSlotItem) :
    markItem cells pItem
      = ((List.range pItem.itemWidth.toNat).flatMap fun (j : ℕ) =>
          (List.range pItem.itemHeight.toNat).map fun (k : ℕ) =>
            cellIndex (pItem.xMin + j).toNat (pItem.yMin + k).toNat).foldl
        (fun cells index => cells.set index 1) cells := by
  simp only [markItem, List.foldl_flatMap, List.foldl_map]

theorem length_markItem (cells : List ℤ) (pItem : InvenSlotItem) :
    (markItem cells pItem).length = cells.length := by
  rw [markItem_eq_foldl, length_foldl_set]

/-- Marking an item sets the cells that it covers. -/
theorem getD_markItem (length : cells.length = 60 * 60) (left : 0 ≤ pItem.xMin)
    (top : 0 ≤ pItem.yMin) (bottom : pItem.yMin + pItem.itemHeight.toNat ≤ 60)
    (column : i < 60) (row : j < 60) :
    (markItem cells pItem).getD (cellIndex i j) 0
      = if pItem.Covers i j then 1 else cells.getD (cellIndex i j) 0 := by
  have inTable : cellIndex i j < cells.length := by
    rw [length, cellIndex]
    omega
  have isCovered : (cellIndex i j ∈ (List.range pItem.itemWidth.toNat).flatMap fun (j : ℕ) =>
      (List.range pItem.itemHeight.toNat).map fun (k : ℕ) =>
        cellIndex (pItem.xMin + j).toNat (pItem.yMin + k).toNat) ↔ pItem.Covers i j := by
    simp only [List.mem_flatMap, List.mem_map, List.mem_range, cellIndex, InvenSlotItem.Covers]
    constructor
    · rintro ⟨a, inWidth, b, inHeight, isSame⟩
      omega
    · rintro ⟨leftOf, rightOf, below, above⟩
      exact ⟨(i - pItem.xMin).toNat, by omega, (j - pItem.yMin).toNat, by omega, by omega⟩
  rw [markItem_eq_foldl, getD_foldl_set 1 _ inTable]
  exact if_congr isCovered rfl rfl

/-- One for a cell that some item covers; the table has a row for each column. -/
def occupied (items : List InvenSlotItem) (j i : ℕ) : ℤ :=
  if ∃ pItem ∈ items, pItem.Covers i j then 1 else 0

theorem occupied_nonneg (items : List InvenSlotItem) (j i : ℕ) : 0 ≤ occupied items j i := by
  unfold occupied
  split_ifs <;> decide

theorem occupied_eq_zero {items : List InvenSlotItem} :
    occupied items j i = 0 ↔ ∀ pItem ∈ items, ¬ pItem.Covers i j := by
  simp only [occupied, ite_eq_right_iff, one_ne_zero, imp_false, not_exists, not_and]

/-- The items that lie in the table. -/
structure InTable (pItem : InvenSlotItem) : Prop where
  left : 0 ≤ pItem.xMin
  top : 0 ≤ pItem.yMin
  bottom : pItem.yMin + pItem.itemHeight.toNat ≤ 60

theorem length_foldl_markItem (items : List InvenSlotItem) (cells : List ℤ) :
    (items.foldl markItem cells).length = cells.length := by
  induction items generalizing cells with
  | nil => rfl
  | cons pItem rest lengthRest => rw [List.foldl_cons, lengthRest, length_markItem]

theorem getD_foldl_markItem {items : List InvenSlotItem} {cells : List ℤ}
    (inTable : ∀ pItem ∈ items, InTable pItem) (length : cells.length = 60 * 60)
    (column : i < 60) (row : j < 60) :
    (items.foldl markItem cells).getD (cellIndex i j) 0
      = if ∃ pItem ∈ items, pItem.Covers i j then 1 else cells.getD (cellIndex i j) 0 := by
  induction items generalizing cells with
  | nil => simp
  | cons pItem rest readsRest =>
      rcases inTable pItem List.mem_cons_self with ⟨left, top, bottom⟩
      have inTableRest := fun item isIn => inTable item (List.mem_cons_of_mem pItem isIn)
      rw [List.foldl_cons, readsRest inTableRest (by rw [length_markItem, length]),
        getD_markItem length left top bottom column row]
      simp only [List.mem_cons, exists_eq_or_imp]
      by_cases isCovered : pItem.Covers i j
      · simp only [isCovered, if_true, true_or, ite_self]
      · simp only [isCovered, if_false, false_or]

theorem foldl_markItem_summed {items : List InvenSlotItem}
    (inTable : ∀ pItem ∈ items, InTable pItem) :
    Summed 60 60 (occupied items) (fun _ _ => False)
      (items.foldl markItem (List.replicate (60 * 60) 0)) := by
  constructor
  case length => rw [length_foldl_markItem, List.length_replicate]
  case sum => exact fun _ _ isDone => isDone.elim
  case own =>
    intro j i row column _
    have isEmpty : (List.replicate (60 * 60) (0 : ℤ)).getD (cellIndex i j) 0 = 0 := by
      rw [List.getD_eq_getElem?_getD, List.getElem?_replicate]
      split_ifs <;> rfl
    exact (getD_foldl_markItem inTable List.length_replicate column row).trans
      (by rw [isEmpty]; rfl)

end Mark

section Sum

variable {f : ℕ → ℕ → ℤ} {cells : List ℤ} {done : ℕ → ℕ → Prop} {i j : ℕ}

theorem nLeftSum_eq (summed : Summed 60 60 f done cells) (column : i ≤ 60) (row : j < 60)
    (isDone : 0 < i → done j (i - 1)) : nLeftSum cells i j = sumBefore f (j + 1) i := by
  rcases Nat.eq_zero_or_pos i with isZero | positive
  · rw [nLeftSum, if_pos isZero, isZero, sumBefore_zero_right]
  · rcases Nat.exists_eq_add_of_le' positive with ⟨i, rfl⟩
    rw [nLeftSum, if_neg (Nat.succ_ne_zero i)]
    exact summed.sum row column (isDone positive)

theorem nUpSum_eq (summed : Summed 60 60 f done cells) (column : i < 60) (row : j ≤ 60)
    (isDone : 0 < j → done (j - 1) i) : nUpSum cells i j = sumBefore f j (i + 1) := by
  rcases Nat.eq_zero_or_pos j with isZero | positive
  · rw [nUpSum, if_pos isZero, isZero, sumBefore_zero_left]
  · rcases Nat.exists_eq_add_of_le' positive with ⟨j, rfl⟩
    rw [nUpSum, if_neg (Nat.succ_ne_zero j)]
    exact summed.sum row column (isDone positive)

theorem nMidSum_eq (summed : Summed 60 60 f done cells) (column : i ≤ 60) (row : j ≤ 60)
    (isDone : 0 < i → 0 < j → done (j - 1) (i - 1)) : nMidSum cells i j = sumBefore f j i := by
  rcases Nat.eq_zero_or_pos i with isZero | positive
  · rw [nMidSum, if_neg (by omega), isZero, sumBefore_zero_right]
  · rcases Nat.eq_zero_or_pos j with isZero | positive'
    · rw [nMidSum, if_neg (by omega), isZero, sumBefore_zero_left]
    · rcases Nat.exists_eq_add_of_le' positive with ⟨i, rfl⟩
      rcases Nat.exists_eq_add_of_le' positive' with ⟨j, rfl⟩
      rw [nMidSum, if_pos ⟨positive, positive'⟩]
      exact summed.sum row column (isDone positive positive')

/-- The loops sum the cells of the usable columns, one after the other. -/
theorem sumCells_summed {width height : ℕ} (columns : width ≤ 60) (rows : height ≤ 60)
    (summed : Summed 60 60 f (fun _ _ => False) cells) :
    Summed 60 60 f (fun y x => x < width ∧ y < height) (sumCells width height cells) := by
  apply foldl_from_zero (motive := fun i => Summed 60 60 f fun y x => x < i ∧ y < height)
  · apply summed.congr
    intro y x _ _
    simp only [Nat.not_lt_zero, false_and]
  · intro i cells column summed
    have result : Summed 60 60 f (fun y x => x < i ∧ y < height ∨ x = i ∧ y < height)
        ((List.range height).foldl (sumCell i) cells) := by
      apply foldl_from_zero
        (motive := fun j => Summed 60 60 f fun y x => x < i ∧ y < height ∨ x = i ∧ y < j)
      · apply summed.congr
        intro y x _ _
        omega
      · intro j cells row summed
        apply summed.write (by omega) (by omega)
        · have own := summed.own (by omega : j < 60) (by omega : i < 60) (by omega)
          have left := nLeftSum_eq summed (by omega : i ≤ 60) (by omega : j < 60) (by omega)
          have up := nUpSum_eq summed (by omega : i < 60) (by omega : j ≤ 60) (by omega)
          have mid := nMidSum_eq summed (by omega : i ≤ 60) (by omega : j ≤ 60) (by omega)
          rw [left, up, mid, cellIndex, own, prefixSum_eq_sumBefore]
        · intro y x _ _
          omega
    apply result.congr
    intro y x _ _
    omega

/-- The corners of a rectangle in the summed part leave the sum over it. -/
theorem nSum_eq {width height cellWidth cellHeight : ℕ} (columns : width ≤ 60) (rows : height ≤ 60)
    (summed : Summed 60 60 f (fun y x => x < width ∧ y < height) cells) (wide : 0 < cellWidth)
    (high : 0 < cellHeight) (right : i + cellWidth ≤ width) (bottom : j + cellHeight ≤ height) :
    nSum cells cellWidth cellHeight i j
      = ∑ a ∈ Finset.range cellWidth, ∑ b ∈ Finset.range cellHeight, f (j + b) (i + a) := by
  have isWidth : i + cellWidth - 1 + 1 = i + cellWidth := by omega
  have isHeight : j + cellHeight - 1 + 1 = j + cellHeight := by omega
  have corner := summed.sum (by omega : j + cellHeight - 1 < 60)
    (by omega : i + cellWidth - 1 < 60) (by omega)
  have left := nLeftSum_eq summed (by omega : i ≤ 60) (by omega : j + cellHeight - 1 < 60)
    (by omega)
  have up := nUpSum_eq summed (by omega : i + cellWidth - 1 < 60) (by omega : j ≤ 60) (by omega)
  have mid := nMidSum_eq summed (by omega : i ≤ 60) (by omega : j ≤ 60) (by omega)
  rw [← sumBefore_succ_succ, isHeight, isWidth] at corner
  rw [isHeight] at left
  rw [isWidth] at up
  rw [nSum, cellIndex, corner, left, up, mid, ← sumBefore_rectangle]
  ring

end Sum

section Search

variable {cells : List ℤ} {cellWidth cellHeight i j turns : ℕ}

/-- The loop over `j` stops at the first row where the rectangle is free, or after its turns. -/
theorem rowLoop_spec (cells : List ℤ) (cellWidth cellHeight i turns j : ℕ) :
    j ≤ rowLoop cells cellWidth cellHeight i turns j
      ∧ rowLoop cells cellWidth cellHeight i turns j ≤ j + turns
      ∧ (rowLoop cells cellWidth cellHeight i turns j < j + turns →
        nSum cells cellWidth cellHeight i (rowLoop cells cellWidth cellHeight i turns j) = 0)
      ∧ ∀ y, j ≤ y → y < rowLoop cells cellWidth cellHeight i turns j →
        nSum cells cellWidth cellHeight i y ≠ 0 := by
  induction turns generalizing j with
  | zero => exact ⟨le_rfl, le_rfl, fun isLess => absurd isLess (lt_irrefl _), by simp only [rowLoop]; omega⟩
  | succ turns specRest =>
      simp only [rowLoop]
      split_ifs with isFree
      · exact ⟨le_rfl, by omega, fun _ => isFree, fun y atLeast isLess => by omega⟩
      · rcases specRest (j + 1) with ⟨atLeast, atMost, stops, passes⟩
        refine ⟨by omega, by omega, fun isLess => stops (by omega), ?_⟩
        intro y atLeast' isLess
        rcases Nat.eq_or_lt_of_le atLeast' with isFirst | isLater
        · exact isFirst ▸ isFree
        · exact passes y isLater isLess

/-- What the search returns: the first free rectangle, column by column, or nothing. -/
theorem columnLoop_spec (cells : List ℤ) (height : ℤ) (cellWidth cellHeight turns i : ℕ) :
    (∀ x y, columnLoop cells height cellWidth cellHeight turns i = some (x, y) →
      i ≤ x ∧ x < i + turns ∧ (y : ℤ) ≤ height - cellHeight
        ∧ nSum cells cellWidth cellHeight x y = 0
        ∧ ∀ x' y' : ℕ, i ≤ x' → (y' : ℤ) ≤ height - cellHeight →
          nSum cells cellWidth cellHeight x' y' = 0 → x < x' ∨ x = x' ∧ y ≤ y')
      ∧ (columnLoop cells height cellWidth cellHeight turns i = none →
        ∀ x y : ℕ, i ≤ x → x < i + turns → (y : ℤ) ≤ height - cellHeight →
          nSum cells cellWidth cellHeight x y ≠ 0) := by
  induction turns generalizing i with
  | zero =>
      refine ⟨fun x y isFound => by simp [columnLoop] at isFound, ?_⟩
      intro _ x y atLeast isLess
      omega
  | succ turns specRest =>
      rcases rowLoop_spec cells cellWidth cellHeight i (height - cellHeight + 1).toNat 0
        with ⟨_, atMost, stops, passes⟩
      rcases specRest (i + 1) with ⟨found, notFound⟩
      simp only [columnLoop]
      generalize rowLoop cells cellWidth cellHeight i (height - cellHeight + 1).toNat 0 = row
        at atMost stops passes
      split_ifs with isEarly
      · refine ⟨?_, fun isNone => by simp at isNone⟩
        intro x y isFound
        simp only [Option.some_inj, Prod.mk.injEq] at isFound
        rcases isFound with ⟨rfl, rfl⟩
        refine ⟨le_rfl, by omega, isEarly, stops (by omega), ?_⟩
        intro x' y' atLeast inRows isFree
        by_cases isColumn : i = x'
        · refine .inr ⟨isColumn, ?_⟩
          by_contra isAbove
          exact passes y' (Nat.zero_le _) (by omega) (isColumn ▸ isFree)
        · exact .inl (by omega)
      · have noneHere : ∀ y : ℕ, (y : ℤ) ≤ height - cellHeight →
            nSum cells cellWidth cellHeight i y ≠ 0 :=
          fun y inRows => passes y (Nat.zero_le _) (by omega)
        constructor
        · intro x y isFound
          rcases found x y isFound with ⟨atLeast, isLess, inRows, isFree, isFirst⟩
          refine ⟨by omega, by omega, inRows, isFree, ?_⟩
          intro x' y' atLeast' inRows' isFree'
          by_cases isColumn : i = x'
          · exact absurd (isColumn ▸ isFree') (noneHere y' inRows')
          · exact isFirst x' y' (by omega) inRows' isFree'
        · intro isNone x y atLeast isLess inRows
          by_cases isColumn : i = x
          · exact isColumn ▸ noneHere y inRows
          · exact notFound isNone x y (by omega) (by omega) inRows

end Search

end EmptyCell

namespace ServerInventory

variable {inventory : ServerInventory} {remainEmpty : Bool} {cellWidth cellHeight : ℤ}

theorem nInvenWidth_le (inventory : ServerInventory) (remainEmpty : Bool) :
    inventory.nInvenWidth remainEmpty ≤ inventory.columns := by
  unfold nInvenWidth
  split_ifs <;> omega

theorem sums_summed (fits : inventory.Fits) (remainEmpty : Bool) :
    SummedArea.Summed 60 60 (occupied inventory.slotItems)
      (fun y x => x < (inventory.nInvenWidth remainEmpty).toNat ∧ y < inventory.rows.toNat)
      (inventory.sums remainEmpty) := by
  have narrower := inventory.nInvenWidth_le remainEmpty
  rcases fits with ⟨columns, rows, left, _, top, bottom⟩
  apply sumCells_summed (by omega) (by omega)
  apply foldl_markItem_summed
  intro pItem isItem
  have isBottom := bottom pItem isItem
  exact ⟨left pItem isItem, top pItem isItem, by omega⟩

/-- The corners of a rectangle leave nothing exactly if it is free. -/
theorem nSum_eq_zero_iff (fits : inventory.Fits) (wide : 0 < cellWidth) (high : 0 < cellHeight)
    {x y : ℕ} (right : x + cellWidth ≤ inventory.nInvenWidth remainEmpty)
    (bottom : y + cellHeight ≤ inventory.rows) :
    nSum (inventory.sums remainEmpty) cellWidth.toNat cellHeight.toNat x y = 0
      ↔ inventory.Free remainEmpty cellWidth cellHeight x y := by
  have narrower := inventory.nInvenWidth_le remainEmpty
  have columns := fits.columns
  have rows := fits.rows
  rw [nSum_eq (by omega) (by omega) (sums_summed fits remainEmpty) (by omega) (by omega) (by omega)
    (by omega), Finset.sum_eq_zero_iff_of_nonneg
      fun _ _ => Finset.sum_nonneg fun _ _ => occupied_nonneg _ _ _]
  simp only [Finset.sum_eq_zero_iff_of_nonneg fun _ _ => occupied_nonneg _ _ _, Finset.mem_range,
    occupied_eq_zero]
  constructor
  · intro allEmpty
    refine ⟨by omega, right, by omega, bottom, ?_⟩
    intro pItem isItem a b fromLeft toRight fromTop toBottom isCovered
    have isColumn : a = ((x + (a - x).toNat : ℕ) : ℤ) := by omega
    have isRow : b = ((y + (b - y).toNat : ℕ) : ℤ) := by omega
    rw [isColumn, isRow] at isCovered
    exact allEmpty (a - x).toNat (by omega) (b - y).toNat (by omega) pItem isItem isCovered
  · intro free a inWidth b inHeight pItem isItem isCovered
    exact free.uncovered pItem isItem _ _ (by omega) (by omega) (by omega) (by omega) isCovered

end ServerInventory

/-- Success means that a free rectangle exists, and the cell is that of the first one, column by
column from the left. -/
theorem getEmptyCellInInven_first {playerInventories : List InventoryHolder} {dwInvenIndex : ℕ}
    {pInven : InventoryHolder} (isInven : playerInventories[dwInvenIndex]? = some pInven)
    (fits : pInven.inventory.Fits) {cellWidth cellHeight : ℤ} (wide : 0 < cellWidth)
    (high : 0 < cellHeight) (remainEmpty : Bool) :
    ((getEmptyCellInInven playerInventories cellWidth cellHeight remainEmpty dwInvenIndex).isSome
        ↔ ∃ x y, pInven.inventory.Free remainEmpty cellWidth cellHeight x y)
      ∧ ∀ outEmptyX outEmptyY,
        getEmptyCellInInven playerInventories cellWidth cellHeight remainEmpty dwInvenIndex
          = some (outEmptyX, outEmptyY) →
        pInven.inventory.Free remainEmpty cellWidth cellHeight outEmptyX outEmptyY
          ∧ ∀ x y, pInven.inventory.Free remainEmpty cellWidth cellHeight x y →
            outEmptyX < x ∨ outEmptyX = x ∧ outEmptyY ≤ y := by
  have notZero : ¬ (cellWidth = 0 ∨ cellHeight = 0) := by omega
  simp only [getEmptyCellInInven, if_neg notZero, isInven, Option.bind_some]
  rcases columnLoop_spec (pInven.inventory.sums remainEmpty) pInven.inventory.rows
    cellWidth.toNat cellHeight.toNat
    (pInven.inventory.nInvenWidth remainEmpty - cellWidth + 1).toNat 0 with ⟨found, notFound⟩
  have isNat : ∀ {x y}, pInven.inventory.Free remainEmpty cellWidth cellHeight x y →
      ∃ x' y' : ℕ, x = x' ∧ y = y' := by
    intro x y free
    exact ⟨x.toNat, y.toNat, (Int.toNat_of_nonneg free.left).symm,
      (Int.toNat_of_nonneg free.top).symm⟩
  have isFree : ∀ {x y : ℕ}, columnLoop (pInven.inventory.sums remainEmpty) pInven.inventory.rows
      cellWidth.toNat cellHeight.toNat
      (pInven.inventory.nInvenWidth remainEmpty - cellWidth + 1).toNat 0 = some (x, y) →
      pInven.inventory.Free remainEmpty cellWidth cellHeight x y := by
    intro x y isFound
    rcases found x y isFound with ⟨_, inColumns, inRows, noneLeft, _⟩
    exact (ServerInventory.nSum_eq_zero_iff fits wide high (by omega) (by omega)).mp noneLeft
  refine ⟨⟨?_, ?_⟩, ?_⟩
  · intro isSome
    rcases Option.isSome_iff_exists.mp isSome with ⟨⟨x, y⟩, isFound⟩
    exact ⟨x, y, isFree isFound⟩
  · rintro ⟨x, y, free⟩
    rcases isNat free with ⟨x, y, rfl, rfl⟩
    have right := free.right
    have bottom := free.bottom
    by_contra isNone
    simp only [Option.not_isSome_iff_eq_none] at isNone
    apply notFound isNone x y (Nat.zero_le _) (by omega) (by omega)
    exact (ServerInventory.nSum_eq_zero_iff fits wide high right bottom).mpr free
  · intro outEmptyX outEmptyY isFound
    refine ⟨isFree isFound, ?_⟩
    intro x y free
    rcases isNat free with ⟨x, y, rfl, rfl⟩
    have bottom := free.bottom
    rcases found outEmptyX outEmptyY isFound with ⟨_, _, _, _, isFirst⟩
    have isFirst' := isFirst x y (Nat.zero_le _) (by omega)
      ((ServerInventory.nSum_eq_zero_iff fits wide high free.right bottom).mpr free)
    exact_mod_cast isFirst'

/-- An item of one column and two rows in the corner. -/
def cornerItem : InvenSlotItem where
  displayName := wide "Wand"
  path := wide "Metadata/Items/Weapons/Wand"
  itemQuality := 0
  stackSize := 0
  socketedNames := []
  itemWidth := 1
  itemHeight := 2
  xMin := 0
  yMin := 0
  itemKey := 1

def smallInventory : InventoryHolder where
  id := 1
  inventory := ⟨4, 3, [cornerItem], by decide⟩

theorem smallInventory_fits : smallInventory.inventory.Fits where
  columns := by decide
  rows := by decide
  left := by simp [smallInventory, cornerItem]
  right := by simp [smallInventory, cornerItem]
  top := by simp [smallInventory, cornerItem]
  bottom := by simp [smallInventory, cornerItem]

theorem smallInventory_emptyCell :
    getEmptyCellInInven [smallInventory] 2 2 false 0 = some (1, 0) := by
  decide +kernel

theorem smallInventory_first :
    smallInventory.inventory.Free false 2 2 1 0
      ∧ ∀ x y, smallInventory.inventory.Free false 2 2 x y → 1 < x ∨ 1 = x ∧ 0 ≤ y := by
  have isFirst : [smallInventory][0]? = some smallInventory := rfl
  exact (getEmptyCellInInven_first isFirst smallInventory_fits
    (by decide) (by decide) false).2 1 0 smallInventory_emptyCell

end PoETask.Attach
