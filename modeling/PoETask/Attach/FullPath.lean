import PoETask.Attach.ConnectedArea
import PoETask.Attach.QuestLogic
import PoETask.Attach.ScanPath
import PoETask.Attach.TargetPath

/-!
# The full path

`GameLogic::FindFullPath`: the area around the player is cut out of the block map, the scan points
of the area are put in an order, and the refined paths from each of them to the next are stored one
behind the other.
-/

namespace PoETask.Attach

def areaMudFlats : String := "The Mud Flats"

/-- What the search leaves in `_map.findPathStep`, `_pointsScan` and `_fullPath`. -/
structure FullPath where
  findPathStep : ℕ
  pointsScan : List IVector
  fullPath : List IVector

/-- The step of the search: 30 in the Mud Flats once the third quest is under way. -/
def searchStep (areaName : String) (quests : List Quest) (findPathStep : ℕ) : ℕ :=
  if areaName = areaMudFlats then
    match quests.find? fun quest => quest.key = 3 with
    | some quest => if quest.step > 1 ∨ quest.step = -1 then 30 else findPathStep
    | none => findPathStep
  else findPathStep

namespace BlockMap

variable (map : BlockMap)

/-- The buffer with the cell of the player opened. -/
def opened (startPos : IVector) : BlockMap :=
  { map.normalized with
    blockBuffer := map.normalized.blockBuffer.set (map.index startPos).toNat 0
    size := by rw [List.length_set, map.normalized.size] }

/-- The same map with another buffer, when the buffer has the size of the map. -/
def withBuffer (buffer : List BYTE) : Option BlockMap :=
  if size : buffer.length = map.mapWidth * map.mapHeight then
    some { map with blockBuffer := buffer, size := size }
  else none

/-- The buffer that is searched: input and output of the fill are the same array. -/
def searchedArea (startPos : IVector) : Option BlockMap := do
  let out ←
    (map.opened startPos).detectConnectedArea blocked startPos (map.opened startPos).blockBuffer
  map.withBuffer out

/-- The loop over the scan points: it stores the refined path of every leg. -/
def storeLegs : IVector → List IVector → Option (List IVector)
  | _, [] => some []
  | startPos, nEnd :: pointsScan => do
      let raw ← map.calcRawPath startPos nEnd false
      let points ← map.calcRefinePath 20 raw
      let later ← storeLegs nEnd pointsScan
      some (points.map convertPointsFromBlock ++ later)

end BlockMap

/-- `path` holds the members before the call; they stay as they are without a map. -/
def findFullPath (blockMap : Option BlockMap) (areaName : String) (quests : List Quest)
    (gridPos : IVector) (path : FullPath) : Option FullPath :=
  match blockMap with
  | none => some path
  | some map => do
      let startPos := convertPointsToBlock gridPos
      let area ← map.searchedArea startPos
      let findPathStep := searchStep areaName quests path.findPathStep
      let pointsScan ← area.calcScanPath2 startPos findPathStep findPathStep
      let fullPath ← area.storeLegs startPos pointsScan
      some { findPathStep, pointsScan, fullPath }

/-- The searched buffer holds the cells that are joined to the player's. -/
structure IsSearched (map : BlockMap) (startPos : IVector) (area : BlockMap) : Prop where
  width : area.mapWidth = map.mapWidth
  height : area.mapHeight = map.mapHeight
  binary : area.Binary
  start : area.Passable startPos
  passable_iff : ∀ c, area.Passable c ↔ (map.opened startPos).Connected startPos c

namespace BlockMap

variable {map area : BlockMap} {startPos : IVector}

end BlockMap

/-- The cells of the searched buffer are joined in it. -/
theorem IsSearched.connected {map area : BlockMap} {startPos c : IVector}
    (searched : IsSearched map startPos area) (isPassable : area.Passable c) :
    area.Connected startPos c := by
  have joined := (searched.passable_iff c).mp isPassable
  clear isPassable
  induction joined with
  | refl => exact .refl
  | tail before walks connected =>
      refine connected.tail ⟨?_, ?_, walks.2.2⟩
      · exact (searched.passable_iff _).mpr before
      · exact (searched.passable_iff _).mpr (before.tail walks)

namespace BlockMap

variable {map area : BlockMap} {startPos : IVector}

theorem Connected.symm {u v : IVector} (connected : map.Connected u v) : map.Connected v u := by
  have isSubrelation : Function.swap map.Walks ≤ map.Walks := by
    rintro c d ⟨cPassable, dPassable, different, column, row⟩
    exact ⟨dPassable, cPassable, different.symm, abs_sub_comm c.x d.x ▸ column,
      abs_sub_comm c.y d.y ▸ row⟩
  exact Relation.ReflTransGen.mono isSubrelation v u (Relation.ReflTransGen.swap _ _ connected)

end BlockMap

end PoETask.Attach
