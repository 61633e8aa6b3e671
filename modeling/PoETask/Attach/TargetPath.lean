import PoETask.Attach.QuestPath
import PoETask.Attach.RefinePath

/-!
# The path to a target

`GameLogic::FindTargetPath`: the passable cells nearest to the player and to the target, the
path between them, and the verdict on its last point.
-/

namespace PoETask.Attach

def mapBlockPoints : ℤ := 3

def areaChamberLv1 : String := "The Chamber of Sins Level 1"

def convertPointsToBlock (pos : IVector) : IVector where
  x := pos.x.tdiv mapBlockPoints
  y := pos.y.tdiv mapBlockPoints

def convertPointsFromBlock (cpos : IVector) : IVector where
  x := cpos.x * mapBlockPoints
  y := cpos.y * mapBlockPoints

/-- `DIST` is at most 10. -/
def WithinReach (pos posTarget : IVector) : Prop :=
  distSquared pos posTarget ≤ 100 * 100

instance (pos posTarget : IVector) : Decidable (WithinReach pos posTarget) :=
  inferInstanceAs (Decidable (_ ≤ _))

/-- The nearest cell so far; `distMin` starts at 100000000. -/
structure Nearest where
  distMin : ℤ := (10 * 100000000) ^ 2
  cell : Option IVector := none

def Nearest.closer (pos : IVector) (best : Nearest) (c : IVector) : Nearest :=
  if distSquared c pos < best.distMin then
    { distMin := distSquared c pos, cell := some c }
  else best

namespace BlockMap

variable (map : BlockMap)

/-- Every byte other than zero becomes 255. -/
def normalized : BlockMap where
  mapWidth := map.mapWidth
  mapHeight := map.mapHeight
  blockBuffer := map.blockBuffer.map fun byte => if byte ≠ 0 then blocked else byte
  size := by rw [List.length_map, map.size]

/-- The order of the two loops: columns from the left, rows from the top. -/
def scanOrder : List IVector :=
  (List.range map.mapWidth).flatMap fun (i : ℕ) =>
    (List.range map.mapHeight).reverse.map fun (j : ℕ) => ⟨i, j⟩

def nearPoints (startPos endPos : IVector) : Nearest × Nearest :=
  map.scanOrder.foldl
    (fun best c =>
      if map.cell c = 0 then (best.1.closer startPos c, best.2.closer endPos c) else best)
    ({}, {})

end BlockMap

/-- `none` when a nearest cell is read that no cell of the map was assigned to. -/
def findTargetPath (blockMap : Option BlockMap) (areaName : String) (gridPos posTarget : IVector) :
    Option TargetSearch :=
  match blockMap with
  | none => some { points := none, found := false }
  | some map => do
      let map := map.normalized
      let near :=
        map.nearPoints (convertPointsToBlock gridPos) (convertPointsToBlock posTarget)
      let startPos ← near.1.cell
      let endPos ← near.2.cell
      let raw ← map.calcRawPath startPos endPos (areaName == areaChamberLv1)
      let refined ← map.calcRefinePath 20 raw
      let targetPath := refined.map convertPointsFromBlock
      match targetPath.getLast? with
      | none => some { points := some targetPath, found := false }
      | some last =>
          some { points := some targetPath, found := decide (WithinReach last posTarget) }

/-- The passable cell nearest to a position, the first one in the order of the scan. -/
structure IsNearest (map : BlockMap) (pos c : IVector) : Prop where
  passable : map.Passable c
  nearest : ∀ d, map.Passable d → distSquared c pos ≤ distSquared d pos
  first : ∀ d, map.Passable d → distSquared d pos = distSquared c pos →
    c.x < d.x ∨ c.x = d.x ∧ d.y ≤ c.y

theorem IsNearest.unique {map : BlockMap} {pos c d : IVector} (isNearest : IsNearest map pos c)
    (isNearest' : IsNearest map pos d) : c = d := by
  have sameDistance : distSquared d pos = distSquared c pos :=
    le_antisymm (isNearest'.nearest c isNearest.passable) (isNearest.nearest d isNearest'.passable)
  have forward := isNearest.first d isNearest'.passable sameDistance
  have backward := isNearest'.first c isNearest.passable sameDistance.symm
  simp only [IVector.ext_iff]
  omega

def closest (map : BlockMap) (pos : IVector) (cells : List IVector) (best : Nearest) : Nearest :=
  cells.foldl (fun best c => if map.cell c = 0 then best.closer pos c else best) best

theorem foldl_pair (map : BlockMap) (startPos endPos : IVector) (cells : List IVector)
    (best : Nearest × Nearest) :
    cells.foldl
        (fun best c =>
          if map.cell c = 0 then (best.1.closer startPos c, best.2.closer endPos c) else best)
        best
      = (closest map startPos cells best.1, closest map endPos cells best.2) := by
  induction cells generalizing best with
  | nil => rfl
  | cons c rest pairRest =>
      simp only [closest, List.foldl_cons] at pairRest ⊢
      simp only [pairRest]
      split_ifs <;> rfl

/-- The loop looks for both cells at once. -/
theorem BlockMap.nearPoints_eq (map : BlockMap) (startPos endPos : IVector) :
    map.nearPoints startPos endPos
      = (closest map startPos map.scanOrder {}, closest map endPos map.scanOrder {}) :=
  foldl_pair map startPos endPos map.scanOrder ({}, {})

/-- The loop finds nothing nearer, or the first of the nearest passable cells. -/
theorem closest_cases (map : BlockMap) (pos : IVector) (cells : List IVector) (best : Nearest) :
    closest map pos cells best = best
        ∧ (∀ c ∈ cells, map.cell c = 0 → best.distMin ≤ distSquared c pos)
      ∨ ∃ before c after, cells = before ++ c :: after ∧ map.cell c = 0
        ∧ distSquared c pos < best.distMin
        ∧ closest map pos cells best = { distMin := distSquared c pos, cell := some c }
        ∧ (∀ d ∈ before, map.cell d = 0 → distSquared c pos < distSquared d pos)
        ∧ ∀ d ∈ after, map.cell d = 0 → distSquared c pos ≤ distSquared d pos := by
  induction cells generalizing best with
  | nil => exact .inl ⟨rfl, fun _ isCell => absurd isCell List.not_mem_nil⟩
  | cons first rest casesRest =>
      simp only [closest, List.foldl_cons] at casesRest ⊢
      by_cases isCloser : map.cell first = 0 ∧ distSquared first pos < best.distMin
      · simp only [if_pos isCloser.1, Nearest.closer, if_pos isCloser.2]
        right
        rcases casesRest { distMin := distSquared first pos, cell := some first } with
          ⟨same, isFarther⟩ | ⟨before, c, after, isRest, isZero, isLess, isResult, facts⟩
        · exact ⟨[], first, rest, rfl, isCloser.1, isCloser.2, same,
            fun _ isCell => absurd isCell List.not_mem_nil, isFarther⟩
        · refine ⟨first :: before, c, after, by rw [isRest, List.cons_append], isZero,
            isLess.trans isCloser.2, isResult, ?_, facts.2⟩
          intro d isBefore dZero
          rcases List.mem_cons.mp isBefore with isFirst | isLater
          · exact isFirst ▸ isLess
          · exact facts.1 d isLater dZero
      · have unchanged : (if map.cell first = 0 then best.closer pos first else best) = best := by
          simp only [Nearest.closer]
          split_ifs with isZero isLess
          · exact absurd ⟨isZero, isLess⟩ isCloser
          · rfl
          · rfl
        simp only [unchanged]
        have notLess : map.cell first = 0 → best.distMin ≤ distSquared first pos := by
          intro isZero
          exact not_lt.mp fun isLess => isCloser ⟨isZero, isLess⟩
        rcases casesRest best with
          ⟨same, isFarther⟩ | ⟨before, c, after, isRest, isZero, isLess, isResult, facts⟩
        · refine .inl ⟨same, ?_⟩
          intro c isCell
          rcases List.mem_cons.mp isCell with isFirst | isLater
          · exact isFirst ▸ notLess
          · exact isFarther c isLater
        · refine .inr ⟨first :: before, c, after, by rw [isRest, List.cons_append], isZero,
            isLess, isResult, ?_, facts.2⟩
          intro d isBefore dZero
          rcases List.mem_cons.mp isBefore with isFirst | isLater
          · subst isFirst
            exact isLess.trans_le (notLess dZero)
          · exact facts.1 d isLater dZero

namespace BlockMap

variable {map : BlockMap}

theorem mem_scanOrder {c : IVector} : c ∈ map.scanOrder ↔ map.Inside c := by
  simp only [scanOrder, List.mem_flatMap, List.mem_map, List.mem_reverse, List.mem_range, Inside]
  constructor
  · rintro ⟨i, iLess, j, jLess, rfl⟩
    dsimp only
    omega
  · rintro ⟨left, right, bottom, top⟩
    refine ⟨c.x.toNat, by omega, c.y.toNat, by omega, ?_⟩
    rw [IVector.ext_iff]
    dsimp only
    omega

theorem scanOrder_pairwise (map : BlockMap) :
    map.scanOrder.Pairwise fun c d => c.x < d.x ∨ c.x = d.x ∧ d.y < c.y := by
  simp only [scanOrder, List.pairwise_flatMap]
  constructor
  · intro i _
    rw [List.pairwise_map, List.pairwise_reverse]
    apply List.pairwise_lt_range.imp
    intro j j' isLess
    exact .inr ⟨rfl, by dsimp only; omega⟩
  · apply List.pairwise_lt_range.imp
    intro i i' isLess c isCell d isCell'
    rcases List.mem_map.mp isCell with ⟨j, _, rfl⟩
    rcases List.mem_map.mp isCell' with ⟨j', _, rfl⟩
    exact .inl (by dsimp only; omega)

theorem closest_eq {pos c : IVector} (isNearest : IsNearest map pos c)
    (inReach : distSquared c pos < (10 * 100000000) ^ 2) :
    (closest map pos map.scanOrder {}).cell = some c := by
  rcases closest_cases map pos map.scanOrder {} with
    ⟨_, isFarther⟩ | ⟨before, d, after, isOrder, isZero, _, isResult, isFirst, isNear⟩
  · have := isFarther c (mem_scanOrder.mpr isNearest.passable.1) isNearest.passable.2
    exact absurd inReach (not_lt.mpr this)
  · simp only [isResult, Option.some_inj]
    apply IsNearest.unique _ isNearest
    have ordered := map.scanOrder_pairwise
    simp only [isOrder, List.pairwise_append, List.pairwise_cons] at ordered
    have dInside : map.Inside d := by
      rw [← mem_scanOrder, isOrder]
      simp
    have place : ∀ e, map.Passable e →
        distSquared d pos < distSquared e pos ∨ e = d ∨ e ∈ after := by
      intro e isPassable
      have isCell := mem_scanOrder.mpr isPassable.1
      simp only [isOrder, List.mem_append, List.mem_cons] at isCell
      exact isCell.imp_left fun isBefore => isFirst e isBefore isPassable.2
    refine ⟨⟨dInside, isZero⟩, ?_, ?_⟩
    · intro e isPassable
      rcases place e isPassable with isLess | isSame | isAfter
      · exact isLess.le
      · exact isSame ▸ le_rfl
      · exact isNear e isAfter isPassable.2
    · intro e isPassable sameDistance
      rcases place e isPassable with isLess | isSame | isAfter
      · exact absurd sameDistance isLess.ne'
      · exact .inr (isSame ▸ ⟨rfl, le_rfl⟩)
      · exact (ordered.2.1.1 e isAfter).imp_right fun ⟨same, isLess⟩ => ⟨same, isLess.le⟩

theorem normalized_cell (map : BlockMap) (c : IVector) :
    map.normalized.cell c = 0 ↔ map.cell c = 0 := by
  simp only [cell, readByte, index, normalized, List.getD_eq_getElem?_getD, List.getElem?_map]
  cases map.blockBuffer[(c.y * map.mapWidth + c.x).toNat]? with
  | none => rfl
  | some byte =>
      simp only [Option.map_some, Option.getD_some]
      split_ifs with notZero
      · exact iff_of_false (by decide) notZero
      · rfl

theorem normalized_passable (map : BlockMap) : map.normalized.Passable = map.Passable := by
  funext c
  exact propext (and_congr_right fun _ => normalized_cell map c)

theorem normalized_connected (map : BlockMap) : map.normalized.Connected = map.Connected := by
  have sameWalks : map.normalized.Walks = map.Walks := by
    funext u v
    simp only [Walks, normalized_passable]
  funext u v
  simp only [Connected, sameWalks]

end BlockMap

theorem IsNearest.normalized {map : BlockMap} {pos c : IVector} (isNearest : IsNearest map pos c) :
    IsNearest map.normalized pos c := by
  rcases isNearest with ⟨passable, nearest, first⟩
  rw [← map.normalized_passable] at passable nearest first
  exact ⟨passable, nearest, first⟩

theorem findTargetPath_eq {map : BlockMap} {areaName : String} {gridPos posTarget : IVector}
    {nearStart nearEnd last : IVector} {raw : List IVector}
    (isStart : IsNearest map (convertPointsToBlock gridPos) nearStart)
    (isEnd : IsNearest map (convertPointsToBlock posTarget) nearEnd)
    (startInReach : distSquared nearStart (convertPointsToBlock gridPos) < (10 * 100000000) ^ 2)
    (endInReach : distSquared nearEnd (convertPointsToBlock posTarget) < (10 * 100000000) ^ 2)
    (isRaw : map.normalized.calcRawPath nearStart nearEnd (areaName == areaChamberLv1) = some raw)
    (isLast : raw.getLast? = some last) :
    ∃ points, findTargetPath (some map) areaName gridPos posTarget
      = some
        { points := some points
          found := decide (WithinReach (convertPointsFromBlock last) posTarget) } := by
  rcases map.normalized.calcRefinePath_interpolated raw with ⟨refined, isRefined, _⟩
  have lastPoint : (refined.map convertPointsFromBlock).getLast?
      = some (convertPointsFromBlock last) := by
    simp only [List.getLast?_map, BlockMap.calcRefinePath_getLast? isRefined, isLast]
    rfl
  refine ⟨refined.map convertPointsFromBlock, ?_⟩
  simp only [findTargetPath, BlockMap.nearPoints_eq]
  rw [BlockMap.closest_eq isStart.normalized startInReach,
    BlockMap.closest_eq isEnd.normalized endInReach]
  simp only [Option.bind_eq_bind, Option.bind_some, isRaw, isRefined, lastPoint]

/-- Outside the chamber the target is found exactly when its nearest cell is connected to the
player's and within reach of it, or, if they are not connected, when the cell that the exhausted
trace discovers last is within reach. -/
theorem findTargetPath_found {map : BlockMap} {areaName : String}
    (notChamber : areaName ≠ areaChamberLv1) {gridPos posTarget nearStart nearEnd : IVector}
    (isStart : IsNearest map (convertPointsToBlock gridPos) nearStart)
    (isEnd : IsNearest map (convertPointsToBlock posTarget) nearEnd)
    (startInReach : distSquared nearStart (convertPointsToBlock gridPos) < (10 * 100000000) ^ 2)
    (endInReach : distSquared nearEnd (convertPointsToBlock posTarget) < (10 * 100000000) ^ 2) :
    ∃ search raw last, findTargetPath (some map) areaName gridPos posTarget = some search
      ∧ map.normalized.calcRawPath nearStart nearEnd false = some raw
      ∧ raw.getLast? = some last
      ∧ (∀ c ∈ raw, map.Connected nearStart c)
      ∧ (¬ map.Connected nearStart nearEnd → ∀ c, map.Connected nearStart c → c ∈ raw)
      ∧ (search.found = true ↔
        map.Connected nearStart nearEnd
            ∧ WithinReach (convertPointsFromBlock nearEnd) posTarget
          ∨ ¬ map.Connected nearStart nearEnd
            ∧ WithinReach (convertPointsFromBlock last) posTarget) := by
  rcases BlockMap.calcRawPath_rawTrace nearEnd isStart.normalized.passable
    with ⟨raw, isRaw, isTrace⟩
  have notRoundScan : (areaName == areaChamberLv1) = false := beq_eq_false_iff_ne.mpr notChamber
  have connected := isTrace.connected
  have complete := isTrace.complete
  have lastOfConnected := isTrace.last_of_connected
  simp only [map.normalized_connected] at connected complete lastOfConnected
  cases isLast : raw.getLast? with
  | none =>
      simp only [List.getLast?_eq_none_iff.mp isLast] at isTrace
      exact absurd isTrace.first (by simp)
  | some last =>
      rw [← notRoundScan] at isRaw
      rcases findTargetPath_eq isStart isEnd startInReach endInReach isRaw isLast
        with ⟨points, isFound⟩
      simp only [notRoundScan] at isRaw
      refine ⟨_, raw, last, isFound, isRaw, isLast, connected, ?_, ?_⟩
      · intro notConnected
        exact complete fun isPoint => notConnected (connected nearEnd isPoint)
      · simp only [decide_eq_true_eq]
        by_cases isConnected : map.Connected nearStart nearEnd
        · have isEnd : last = nearEnd :=
            Option.some_inj.mp (isLast.symm.trans (lastOfConnected isConnected))
          simp only [isConnected, isEnd, true_and, not_true, false_and, or_false]
        · simp only [isConnected, false_and, false_or, not_false_iff, true_and]

theorem IsNearest.self {map : BlockMap} {c : IVector} (isPassable : map.Passable c) :
    IsNearest map c c where
  passable := isPassable
  nearest d _ := by
    have atSelf : distSquared c c = 0 := by simp [distSquared]
    simp only [atSelf]
    exact distSquared_nonneg d c
  first d _ sameDistance := by
    have atSelf : distSquared c c = 0 := by simp [distSquared]
    rw [atSelf, distSquared] at sameDistance
    have column := mul_self_nonneg (d.x - c.x)
    have row := mul_self_nonneg (d.y - c.y)
    have isColumn : d.x - c.x = 0 := mul_self_eq_zero.mp (by omega)
    have isRow : d.y - c.y = 0 := mul_self_eq_zero.mp (by omega)
    omega

/-- Two cells with a wall between them. -/
def wallMap : BlockMap where
  mapWidth := 3
  mapHeight := 1
  blockBuffer := [0, 1, 0]
  size := rfl

theorem findTargetPath_found_wall :
    ∃ search raw last, findTargetPath (some wallMap) "The Mud Flats" ⟨0, 0⟩ ⟨6, 0⟩ = some search
      ∧ wallMap.normalized.calcRawPath ⟨0, 0⟩ ⟨2, 0⟩ false = some raw
      ∧ raw.getLast? = some last
      ∧ (∀ c ∈ raw, wallMap.Connected ⟨0, 0⟩ c)
      ∧ (¬ wallMap.Connected ⟨0, 0⟩ ⟨2, 0⟩ → ∀ c, wallMap.Connected ⟨0, 0⟩ c → c ∈ raw)
      ∧ (search.found = true ↔
        wallMap.Connected ⟨0, 0⟩ ⟨2, 0⟩
            ∧ WithinReach (convertPointsFromBlock ⟨2, 0⟩) ⟨6, 0⟩
          ∨ ¬ wallMap.Connected ⟨0, 0⟩ ⟨2, 0⟩
            ∧ WithinReach (convertPointsFromBlock last) ⟨6, 0⟩) :=
  findTargetPath_found (by decide) (.self (by decide)) (.self (by decide)) (by decide) (by decide)

theorem wallMap_raw : wallMap.normalized.calcRawPath ⟨0, 0⟩ ⟨2, 0⟩ false = some [⟨0, 0⟩] := by
  decide

/-- Behind the wall the target is found: the trace ends within reach of it. -/
theorem findTargetPath_unconnected :
    ¬ ∀ (map : BlockMap) (areaName : String) (gridPos posTarget nearStart nearEnd : IVector)
      (search : TargetSearch), areaName ≠ areaChamberLv1 →
      IsNearest map (convertPointsToBlock gridPos) nearStart →
      IsNearest map (convertPointsToBlock posTarget) nearEnd →
      findTargetPath (some map) areaName gridPos posTarget = some search →
      (search.found = true ↔ map.Connected nearStart nearEnd
        ∧ WithinReach (convertPointsFromBlock nearEnd) posTarget) := by
  intro claimed
  have isFound : findTargetPath (some wallMap) "The Mud Flats" ⟨0, 0⟩ ⟨6, 0⟩
      = some { points := some [⟨0, 0⟩], found := true } := by
    decide +kernel
  have connected := ((claimed wallMap "The Mud Flats" ⟨0, 0⟩ ⟨6, 0⟩ ⟨0, 0⟩ ⟨2, 0⟩ _ (by decide)
    (.self (by decide)) (.self (by decide)) isFound).mp rfl).1
  have isPassable : wallMap.normalized.Passable ⟨0, 0⟩ := by decide
  rcases BlockMap.calcRawPath_rawTrace ⟨2, 0⟩ isPassable with ⟨raw, isRaw, isTrace⟩
  simp only [wallMap_raw, Option.some_inj] at isRaw
  rw [← wallMap.normalized_connected] at connected
  have isLast := isTrace.last_of_connected connected
  rw [← isRaw] at isLast
  exact absurd isLast (by decide)

end PoETask.Attach
