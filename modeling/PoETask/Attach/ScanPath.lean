import PoETask.Attach.BlockMap
import PoETask.Library.SummedArea
import Mathlib.Algebra.BigOperators.Ring.Finset

/-!
# The scan path

`CalcScanPath2`: two passes over the map collect passable cells in open surroundings that lie
apart from each other; the tour then visits them from the nearest to the nearest.

Distances are computed in a 32-bit integer by the source; the tour's minimum starts at its largest
value. They are exact on maps whose squared diagonal is below it.
-/

namespace PoETask.Attach

/-- The loop over the first column. -/
def sumFirstColumn (nWidth nHeight : ℕ) (pnSum : List ℤ) : List ℤ :=
  (List.range' 1 (nHeight - 1)).foldl
    (fun pnSum y =>
      pnSum.set (y * nWidth) (pnSum.getD (y * nWidth) 0 + pnSum.getD ((y - 1) * nWidth) 0))
    pnSum

/-- The loop over the first row. -/
def sumFirstRow (nWidth : ℕ) (pnSum : List ℤ) : List ℤ :=
  (List.range' 1 (nWidth - 1)).foldl
    (fun pnSum x => pnSum.set x (pnSum.getD x 0 + pnSum.getD (x - 1) 0)) pnSum

/-- The inner loop over the other entries of a row. -/
def sumRow (nWidth : ℕ) (pnSum : List ℤ) (y : ℕ) : List ℤ :=
  (List.range' 1 (nWidth - 1)).foldl
    (fun pnSum x =>
      pnSum.set (y * nWidth + x)
        (pnSum.getD (y * nWidth + x) 0 + pnSum.getD (y * nWidth + x - 1) 0
          + pnSum.getD ((y - 1) * nWidth + x) 0 - pnSum.getD ((y - 1) * nWidth + x - 1) 0))
    pnSum

/-- The loops over the other entries. -/
def sumInterior (nWidth nHeight : ℕ) (pnSum : List ℤ) : List ℤ :=
  (List.range' 1 (nHeight - 1)).foldl (sumRow nWidth) pnSum

/-- The cells counted by `nS`, by the corners of the window. -/
def windowSum (nWidth : ℕ) (pnSum : List ℤ) (nR x y : ℕ) : ℤ :=
  pnSum.getD ((y + nR) * nWidth + x + nR) 0 + pnSum.getD ((y - nR) * nWidth + x - nR) 0
    - pnSum.getD ((y + nR) * nWidth + x - nR) 0 - pnSum.getD ((y - nR) * nWidth + x + nR) 0

/-- The limit of the density test; the product is computed in a 32-bit integer. -/
def densityLimit (nR percent : ℕ) : ℤ :=
  (Int.bmod (nR * nR * percent) 0x100000000).tdiv 100

theorem densityLimit_of_lt {nR percent : ℕ} (small : nR * nR * percent < 0x80000000) :
    densityLimit nR percent = (nR * nR * percent / 100 : ℕ) := by
  have isExact : ∀ product : ℕ, product < 0x80000000 → Int.bmod product 0x100000000 = product := by
    intro product small
    apply Int.bmod_eq_of_le <;> omega
  have limit := isExact _ small
  rw [Nat.cast_mul, Nat.cast_mul] at limit
  unfold densityLimit
  rw [limit, ← Nat.cast_mul, ← Nat.cast_mul,
    Int.tdiv_eq_ediv_of_nonneg (Int.natCast_nonneg _), Int.natCast_ediv]
  rfl

/-- The scan for points near the tour: it stops at the first point that is not passed. -/
def passedLoop (nPassedRange : ℤ) (pPointsTemp : List IVector) :
    List IVector → List Bool → List Bool × Bool
  | p :: points, passed :: flags =>
      if passed || pPointsTemp.any fun q => distSquared p q < nPassedRange * nPassedRange then
        let (later, stopped) := passedLoop nPassedRange pPointsTemp points flags
        (true :: later, stopped)
      else (passed :: flags, true)
  | _, flags => (flags, false)

/-- The index `j` of the nearest point that is not passed, and `nMax`. -/
def nearestLoop (nStart : IVector) : ℕ → List IVector → List Bool → ℕ × ℤ → ℕ × ℤ
  | i, p :: points, passed :: flags, best =>
      if passed then nearestLoop nStart (i + 1) points flags best
      else if distSquared p nStart < best.2 then
        nearestLoop nStart (i + 1) points flags (i, distSquared p nStart)
      else nearestLoop nStart (i + 1) points flags best
  | _, _, _, best => best

/-- The largest value of a 32-bit integer. -/
def nMaxInit : ℤ := 0x7FFFFFFF

/-- The turns of the tour; `none` when the fuel runs out. -/
def tourLoop (nPassedRange : ℤ) (pPoints : List IVector) :
    ℕ → IVector → List Bool → List IVector → Option (List IVector)
  | 0, _, _, _ => none
  | fuel + 1, nStart, pbPassed, pPointsTemp =>
      let (passed, stopped) := passedLoop nPassedRange pPointsTemp pPoints pbPassed
      if stopped then
        let j := (nearestLoop nStart 0 pPoints passed (0, nMaxInit)).1
        let next := pPoints.getD j default
        tourLoop nPassedRange pPoints fuel next (passed.set j true) (pPointsTemp ++ [next])
      else some pPointsTemp

namespace BlockMap

variable (map : BlockMap)

/-- The table: one for every cell that is not blocked, summed in place. -/
def pnSum : List ℤ :=
  sumInterior map.mapWidth map.mapHeight
    (sumFirstRow map.mapWidth
      (sumFirstColumn map.mapWidth map.mapHeight
        (map.blockBuffer.map fun byte => if byte = blocked then 0 else 1)))

/-- A cell is added when more than `percent` of a quarter of its window is open and it is at least
`nPassedRange` away from all points before it. -/
def scanCell (pnSum : List ℤ) (nR percent : ℕ) (nPassedRange : ℤ) (y : ℕ) (points : List IVector)
    (x : ℕ) : List IVector :=
  let c : IVector := ⟨x, y⟩
  if map.cell c = blocked then points
  else if densityLimit nR percent < windowSum map.mapWidth pnSum nR x y then
    if points.any fun p => distSquared p c < nPassedRange * nPassedRange then points
    else points ++ [c]
  else points

/-- One pass over the rows and columns that are at least `nR` away from the border. -/
def scanPass (pnSum : List ℤ) (nR percent : ℕ) (nPassedRange : ℤ) (points : List IVector) :
    List IVector :=
  (List.range' nR (map.mapHeight - nR - nR)).foldl
    (fun points y =>
      (List.range' nR (map.mapWidth - nR - nR)).foldl
        (map.scanCell pnSum nR percent nPassedRange y) points)
    points

/-- The points of the two passes. -/
def scanPoints (nStep : ℕ) (nPassedRange : ℤ) : List IVector :=
  let nR := (nStep + 1) / 2
  map.scanPass map.pnSum ((nR + 1) / 2) 300 nPassedRange
    (map.scanPass map.pnSum nR 320 nPassedRange [])

/-- Every turn of the tour passes one more point. -/
def calcScanPath2 (nStart : IVector) (nStep : ℕ) (nPassedRange : ℤ) : Option (List IVector) :=
  let pPoints := map.scanPoints nStep nPassedRange
  tourLoop nPassedRange pPoints (pPoints.length + 1) nStart
    (List.replicate pPoints.length false) []

end BlockMap

section Table

open SummedArea

variable {w h : ℕ} {f : ℕ → ℕ → ℤ} {table : List ℤ}

theorem sumFirstColumn_summed (columns : 0 < w) (rows : 0 < h)
    (summed : Summed w h f (fun x y => x = 0 ∧ y = 0) table) :
    Summed w h f (fun x _ => x = 0) (sumFirstColumn w h table) := by
  have result : Summed w h f (fun x y => x = 0 ∧ y < h) (sumFirstColumn w h table) := by
    apply foldl_from_one (motive := fun k => Summed w h f fun x y => x = 0 ∧ y < k)
    · apply summed.congr
      intro x y _ _
      omega
    · intro k table oneLe isLess summed
      rcases Nat.exists_eq_add_of_le' oneLe with ⟨y, rfl⟩
      have own := summed.own columns isLess (by omega)
      have above := summed.sum columns (Nat.lt_of_succ_lt isLess) ⟨rfl, Nat.lt_succ_self y⟩
      simp only [Nat.add_zero] at own above
      apply summed.write columns isLess (x := 0) (y := y + 1)
      · simp only [Nat.add_sub_cancel, own, above, prefixSum_zero_succ]
      · intro i j _ _
        omega
    · exact rows
  apply result.congr
  intro x y _ row
  exact ⟨fun isFirst => ⟨isFirst, row⟩, And.left⟩

theorem sumFirstRow_summed (columns : 0 < w) (rows : 0 < h)
    (summed : Summed w h f (fun x _ => x = 0) table) :
    Summed w h f (fun x y => x = 0 ∨ y = 0) (sumFirstRow w table) := by
  have result : Summed w h f (fun x y => x = 0 ∨ y = 0 ∧ x < w) (sumFirstRow w table) := by
    apply foldl_from_one (motive := fun k => Summed w h f fun x y => x = 0 ∨ y = 0 ∧ x < k)
    · apply summed.congr
      intro x y _ _
      omega
    · intro k table oneLe isLess summed
      rcases Nat.exists_eq_add_of_le' oneLe with ⟨x, rfl⟩
      have own := summed.own isLess rows (by omega)
      have before := summed.sum (Nat.lt_of_succ_lt isLess) rows (by omega)
      simp only [Nat.zero_mul, Nat.zero_add] at own before
      have isSum : table.getD (x + 1) 0 + table.getD x 0 = prefixSum f (x + 1) 0 := by
        simp only [own, before, prefixSum_succ_zero]
      have written : Summed w h f (fun i j => i = 0 ∨ j = 0 ∧ i < x + 1 + 1)
          (table.set (0 * w + (x + 1)) (table.getD (x + 1) 0 + table.getD x 0)) := by
        apply summed.write isLess rows isSum
        intro i j _ _
        omega
      simpa only [Nat.zero_mul, Nat.zero_add, Nat.add_sub_cancel] using written
    · exact columns
  apply result.congr
  intro x y column _
  simp only [column, and_true]

/-- The inner loop sums the row below the rows that are summed. -/
theorem sumRow_summed {y : ℕ} (columns : 0 < w) (row : y + 1 < h)
    (summed : Summed w h f (fun i j => i = 0 ∨ j < y + 1) table) :
    Summed w h f (fun i j => i = 0 ∨ j < y + 1 + 1) (sumRow w table (y + 1)) := by
  have result : Summed w h f (fun i j => i = 0 ∨ j < y + 1 ∨ j = y + 1 ∧ i < w)
      (sumRow w table (y + 1)) := by
    apply foldl_from_one
      (motive := fun k => Summed w h f fun i j => i = 0 ∨ j < y + 1 ∨ j = y + 1 ∧ i < k)
    · apply summed.congr
      intro i j _ _
      omega
    · intro k table oneLe column summed
      rcases Nat.exists_eq_add_of_le' oneLe with ⟨x, rfl⟩
      have own := summed.own column row (by omega)
      have before := summed.sum (x := x) (Nat.lt_of_succ_lt column) row (by omega)
      have above := summed.sum column (y := y) (Nat.lt_of_succ_lt row) (by omega)
      have diagonal := summed.sum (x := x) (y := y) (Nat.lt_of_succ_lt column)
        (Nat.lt_of_succ_lt row) (by omega)
      apply summed.write column row
      · simp only [← Nat.add_assoc, Nat.add_sub_cancel] at own before above diagonal ⊢
        simp only [own, before, above, diagonal, prefixSum_succ_succ]
      · intro i j _ _
        omega
    · exact columns
  apply result.congr
  intro i j column _
  omega

theorem sumInterior_summed (columns : 0 < w) (rows : 0 < h)
    (summed : Summed w h f (fun x y => x = 0 ∨ y = 0) table) :
    Summed w h f (fun _ _ => True) (sumInterior w h table) := by
  have result : Summed w h f (fun x y => x = 0 ∨ y < h) (sumInterior w h table) := by
    apply foldl_from_one (motive := fun k => Summed w h f fun x y => x = 0 ∨ y < k)
    · apply summed.congr
      intro x y _ _
      omega
    · intro k table oneLe isLess summed
      rcases Nat.exists_eq_add_of_le' oneLe with ⟨y, rfl⟩
      exact sumRow_summed columns isLess summed
    · exact rows
  apply result.congr
  intro x y _ row
  exact ⟨fun _ => .inr row, fun _ => trivial⟩

end Table

namespace BlockMap

/-- What a cell adds to the table. -/
def opens (map : BlockMap) (x y : ℕ) : ℤ :=
  if map.cell ⟨x, y⟩ = blocked then 0 else 1

variable {map : BlockMap} {nR percent nStep x y : ℕ} {nPassedRange : ℤ} {table : List ℤ}

theorem pnSum_summed (columns : 0 < map.mapWidth) (rows : 0 < map.mapHeight) :
    SummedArea.Summed map.mapWidth map.mapHeight map.opens (fun _ _ => True) map.pnSum := by
  apply sumInterior_summed columns rows
  apply sumFirstRow_summed columns rows
  apply sumFirstColumn_summed columns rows
  have own : ∀ {x y}, x < map.mapWidth → y < map.mapHeight →
      (map.blockBuffer.map fun byte => if byte = blocked then (0 : ℤ) else 1).getD
        (y * map.mapWidth + x) 0 = map.opens x y := by
    intro x y column row
    have inBuffer := (inside_natCast column row).index_lt
    simp only [toNat_index_natCast] at inBuffer
    simp only [opens, cell, readByte, toNat_index_natCast]
    rw [List.getD_eq_getElem _ _ (by simpa using inBuffer), List.getElem_map,
      List.getD_eq_getElem _ _ inBuffer]
  constructor
  case length => rw [List.length_map, map.size]
  case sum =>
    rintro x y column row ⟨rfl, rfl⟩
    rw [own column row, SummedArea.prefixSum_zero_zero]
  case own => exact fun column row _ => own column row

/-- The four corners of the table count the open cells of the window. -/
theorem windowSum_pnSum (left : nR ≤ x) (right : x + nR < map.mapWidth) (bottom : nR ≤ y)
    (top : y + nR < map.mapHeight) :
    windowSum map.mapWidth map.pnSum nR x y
      = ∑ j ∈ Finset.Ioc (y - nR) (y + nR), ∑ i ∈ Finset.Ioc (x - nR) (x + nR), map.opens i j := by
  have columns : 0 < map.mapWidth := by omega
  have rows : 0 < map.mapHeight := by omega
  have summed := pnSum_summed columns rows
  have before : ∀ row, row + x - nR = row + (x - nR) := fun row => Nat.add_sub_assoc left row
  rw [← SummedArea.prefixSum_window map.opens (by omega) (by omega), windowSum]
  simp only [Nat.add_assoc _ x nR, before]
  rw [summed.sum (by omega) (by omega) trivial, summed.sum (by omega) (by omega) trivial,
    summed.sum (by omega) (by omega) trivial, summed.sum (by omega) (by omega) trivial]

/-- The cells of a window, half-open at its lower ends, that are not blocked. -/
def windowCells (map : BlockMap) (nR x y : ℕ) : Finset (ℕ × ℕ) :=
  {cell ∈ Finset.range map.mapWidth ×ˢ Finset.range map.mapHeight |
    map.cell ⟨cell.1, cell.2⟩ ≠ blocked ∧
      (x < cell.1 + nR ∧ cell.1 ≤ x + nR) ∧ y < cell.2 + nR ∧ cell.2 ≤ y + nR}

theorem card_windowCells (left : nR ≤ x) (right : x + nR < map.mapWidth) (bottom : nR ≤ y)
    (top : y + nR < map.mapHeight) :
    ((map.windowCells nR x y).card : ℤ)
      = ∑ j ∈ Finset.Ioc (y - nR) (y + nR), ∑ i ∈ Finset.Ioc (x - nR) (x + nR), map.opens i j := by
  have isWindow : map.windowCells nR x y
      = {cell ∈ Finset.Ioc (x - nR) (x + nR) ×ˢ Finset.Ioc (y - nR) (y + nR) |
          map.cell ⟨cell.1, cell.2⟩ ≠ blocked} := by
    ext ⟨i, j⟩
    simp only [windowCells, Finset.mem_filter, Finset.mem_product, Finset.mem_range,
      Finset.mem_Ioc]
    constructor
    · rintro ⟨_, isOpen, inWindow⟩
      exact ⟨by omega, isOpen⟩
    · rintro ⟨inWindow, isOpen⟩
      exact ⟨by omega, isOpen, by omega⟩
  rw [isWindow, Finset.card_filter, Finset.sum_product_right, Nat.cast_sum]
  apply Finset.sum_congr rfl
  intro j _
  rw [Nat.cast_sum]
  apply Finset.sum_congr rfl
  intro i _
  simp only [opens, ite_not, Nat.cast_ite, Nat.cast_zero, Nat.cast_one]

/-- The entries of the table behind `nS`, in the order of the code. -/
def windowIndices (nWidth nR x y : ℤ) : List ℤ :=
  [(y + nR) * nWidth + x + nR, (y - nR) * nWidth + x - nR, (y + nR) * nWidth + x - nR,
    (y - nR) * nWidth + x + nR]

theorem windowIndices_inside (left : nR ≤ x) (right : x + nR < map.mapWidth) (bottom : nR ≤ y)
    (top : y + nR < map.mapHeight) :
    ∀ i ∈ windowIndices map.mapWidth nR x y, 0 ≤ i ∧ i < map.pnSum.length := by
  have isIndex : ∀ c, map.Inside c → 0 ≤ map.index c ∧ map.index c < map.pnSum.length := by
    intro c inside
    have columns : 0 < map.mapWidth := by omega
    have rows : 0 < map.mapHeight := by omega
    have isLength := (pnSum_summed columns rows).length
    have isSize := map.size
    have isLess := inside.index_lt
    have isNonneg := inside.index_nonneg
    omega
  intro i isRead
  simp only [windowIndices, List.mem_cons, List.not_mem_nil, or_false, add_assoc, add_sub_assoc]
    at isRead
  rcases isRead with rfl | rfl | rfl | rfl
  · apply isIndex ⟨x + nR, y + nR⟩
    refine ⟨?_, ?_, ?_, ?_⟩ <;> dsimp only <;> omega
  · apply isIndex ⟨x - nR, y - nR⟩
    refine ⟨?_, ?_, ?_, ?_⟩ <;> dsimp only <;> omega
  · apply isIndex ⟨x - nR, y + nR⟩
    refine ⟨?_, ?_, ?_, ?_⟩ <;> dsimp only <;> omega
  · apply isIndex ⟨x + nR, y - nR⟩
    refine ⟨?_, ?_, ?_, ?_⟩ <;> dsimp only <;> omega

/-- At every cell that a pass examines, `nS` is the number of open cells of the window. -/
theorem windowSum_eq_card (left : nR ≤ x) (right : x < map.mapWidth - nR) (bottom : nR ≤ y)
    (top : y < map.mapHeight - nR) :
    windowSum map.mapWidth map.pnSum nR x y = (map.windowCells nR x y).card ∧
      ∀ i ∈ windowIndices map.mapWidth nR x y, 0 ≤ i ∧ i < map.pnSum.length := by
  refine ⟨?_, windowIndices_inside left (by omega) bottom (by omega)⟩
  rw [windowSum_pnSum left (by omega) bottom (by omega),
    card_windowCells left (by omega) bottom (by omega)]

/-- Nine cells, the last one blocked. -/
def nineCells : BlockMap := ⟨3, 3, [0, 0, 0, 0, 0, 0, 0, 0, 255], rfl⟩

theorem nineCells_windowSum :
    windowSum 3 nineCells.pnSum 1 1 1 = (nineCells.windowCells 1 1 1).card ∧
      ∀ i ∈ windowIndices 3 1 1 1, 0 ≤ i ∧ i < nineCells.pnSum.length :=
  @windowSum_eq_card nineCells 1 1 1 (by decide) (by decide) (by decide) (by decide)

theorem scanCell_open {points : List IVector} (column : x < map.mapWidth) (row : y < map.mapHeight)
    (areOpen : ∀ c ∈ points, map.Open c) :
    ∀ c ∈ map.scanCell table nR percent nPassedRange y points x, map.Open c := by
  intro c isPoint
  simp only [scanCell] at isPoint
  split_ifs at isPoint with isBlocked isDense isNear
  · exact areOpen c isPoint
  · exact areOpen c isPoint
  · rcases List.mem_append.mp isPoint with old | isNew
    · exact areOpen c old
    · simp only [List.mem_singleton] at isNew
      subst isNew
      refine ⟨⟨?_, ?_, ?_, ?_⟩, isBlocked⟩ <;> dsimp only <;> omega
  · exact areOpen c isPoint

theorem scanPass_open {points : List IVector} (areOpen : ∀ c ∈ points, map.Open c) :
    ∀ c ∈ map.scanPass table nR percent nPassedRange points, map.Open c := by
  rw [scanPass]
  apply List.foldlRecOn (motive := fun points => ∀ c ∈ points, map.Open c)
  · exact areOpen
  · intro points areOpen y isRow
    simp only [List.mem_range'_1] at isRow
    apply List.foldlRecOn (motive := fun points => ∀ c ∈ points, map.Open c)
    · exact areOpen
    · intro points areOpen x isColumn
      simp only [List.mem_range'_1] at isColumn
      exact scanCell_open (by omega) (by omega) areOpen

theorem scanPoints_open : ∀ c ∈ map.scanPoints nStep nPassedRange, map.Open c := by
  apply scanPass_open
  apply scanPass_open
  exact fun _ isPoint => absurd isPoint List.not_mem_nil

end BlockMap

section Tour

variable {nPassedRange : ℤ} {pPoints pPointsTemp : List IVector} {nStart : IVector}

/-- A point that the tour has neither visited nor passed. -/
def Remains (points : List IVector) (flags : List Bool) (k : ℕ) : Prop :=
  k < points.length ∧ flags.getD k true = false

theorem remains_succ {p : IVector} {points : List IVector} {passed : Bool} {flags : List Bool}
    {k : ℕ} : Remains (p :: points) (passed :: flags) (k + 1) ↔ Remains points flags k := by
  simp only [Remains, List.length_cons, Nat.add_lt_add_iff_right, List.getD_cons_succ]

/-- The loop leaves `best` alone or finds a nearest point of those that remain. -/
theorem nearestLoop_cases (nStart : IVector) (i : ℕ) (points : List IVector) (flags : List Bool)
    (best : ℕ × ℤ) :
    nearestLoop nStart i points flags best = best
        ∧ (∀ k, Remains points flags k → best.2 ≤ distSquared (points.getD k default) nStart)
      ∨ ∃ k, Remains points flags k
        ∧ nearestLoop nStart i points flags best
          = (i + k, distSquared (points.getD k default) nStart)
        ∧ distSquared (points.getD k default) nStart < best.2
        ∧ ∀ k', Remains points flags k' →
          distSquared (points.getD k default) nStart
            ≤ distSquared (points.getD k' default) nStart := by
  induction points generalizing i flags best with
  | nil => exact .inl ⟨rfl, fun k remains => absurd remains.1 (Nat.not_lt_zero k)⟩
  | cons p rest casesRest =>
      cases flags with
      | nil =>
          refine .inl ⟨rfl, fun k remains => ?_⟩
          exact absurd remains.2 (by simp)
      | cons passed flags =>
          have shifted : ∀ {k}, i + 1 + k = i + (k + 1) := by omega
          by_cases isCloser : passed = false ∧ distSquared p nStart < best.2
          · rcases isCloser with ⟨isFalse, isLess⟩
            subst isFalse
            simp only [nearestLoop, Bool.false_eq_true, if_false, if_pos isLess]
            right
            rcases casesRest (i + 1) flags (i, distSquared p nStart) with
              ⟨same, isFarther⟩ | ⟨k, remains, isResult, closer, nearest⟩
            · refine ⟨0, ⟨Nat.zero_lt_succ _, rfl⟩, same, isLess, ?_⟩
              intro k' remains'
              cases k' with
              | zero => exact le_rfl
              | succ k' => exact isFarther k' (remains_succ.mp remains')
            · refine ⟨k + 1, remains_succ.mpr remains, ?_, closer.trans isLess, ?_⟩
              · simp only [isResult, shifted, List.getD_cons_succ]
              · intro k' remains'
                cases k' with
                | zero => exact closer.le
                | succ k' => exact nearest k' (remains_succ.mp remains')
          · have unchanged : nearestLoop nStart i (p :: rest) (passed :: flags) best
                = nearestLoop nStart (i + 1) rest flags best := by
              simp only [nearestLoop]
              split_ifs with isPassed isLess
              · rfl
              · exact absurd ⟨Bool.eq_false_iff.mpr isPassed, isLess⟩ isCloser
              · rfl
            have notLess : passed = false → best.2 ≤ distSquared p nStart :=
              fun isFalse => not_lt.mp fun isLess => isCloser ⟨isFalse, isLess⟩
            rw [unchanged]
            rcases casesRest (i + 1) flags best with
              ⟨same, isFarther⟩ | ⟨k, remains, isResult, closer, nearest⟩
            · refine .inl ⟨same, ?_⟩
              intro k' remains'
              cases k' with
              | zero => exact notLess remains'.2
              | succ k' => exact isFarther k' (remains_succ.mp remains')
            · refine .inr ⟨k + 1, remains_succ.mpr remains, ?_, closer, ?_⟩
              · simp only [isResult, shifted, List.getD_cons_succ]
              · intro k' remains'
                cases k' with
                | zero => exact closer.le.trans (notLess remains'.2)
                | succ k' => exact nearest k' (remains_succ.mp remains')

end Tour

namespace BlockMap

variable {map : BlockMap} {nStep : ℕ} {nPassedRange : ℤ} {nStart : IVector}

/-- The squared diagonal fits in a 32-bit integer. -/
def DiagonalFits (map : BlockMap) : Prop :=
  map.mapWidth * map.mapWidth + map.mapHeight * map.mapHeight ≤ 0x7FFFFFFF

instance : Decidable map.DiagonalFits :=
  inferInstanceAs (Decidable (_ ≤ _))

theorem DiagonalFits.distSquared_lt (fits : map.DiagonalFits) {u v : IVector}
    (uInside : map.Inside u) (vInside : map.Inside v) : distSquared u v < nMaxInit := by
  rcases uInside with ⟨uLeft, uRight, uBottom, uTop⟩
  rcases vInside with ⟨vLeft, vRight, vBottom, vTop⟩
  have bounded : ∀ {a b s : ℤ}, 0 ≤ a → a < s → 0 ≤ b → b < s →
      (a - b) * (a - b) ≤ (s - 1) * (s - 1) := by
    intro a b s aLow aHigh bLow bHigh
    have above : 0 ≤ s - 1 - (a - b) := by omega
    have below : 0 ≤ s - 1 + (a - b) := by omega
    linarith [mul_nonneg above below]
  have columns := bounded uLeft uRight vLeft vRight
  have rows := bounded uBottom uTop vBottom vTop
  have diagonal : (map.mapWidth : ℤ) * map.mapWidth + map.mapHeight * map.mapHeight
      ≤ 0x7FFFFFFF := by
    exact_mod_cast fits
  simp only [distSquared, nMaxInit]
  nlinarith

end BlockMap

end PoETask.Attach
