import PoETask.Attach.TargetPath

/-!
# A target path that is not found

`LoadTargetPath` switches to the target path only if the search succeeds, but the search
has written its points by then. If another target path is being followed, the points that
`QuestRun` goes on to follow are those of the search that failed.

What a search writes is the route between two cells of the map, the passable ones nearest
to the player and to the target, and it begins with the first of them. So a followed target
path survives a search between the same two cells and does not survive one that starts from
another cell. All that `QuestRun` does to the followed path is a sequence of loads and of
switches to another path; runs of these carry the result.
-/

namespace PoETask.Attach

open PoETask.Library

/-- The passable cell that `FindTargetPath` takes for a grid position. -/
structure NearCell (map : BlockMap) (gridPos c : IVector) : Prop where
  isNearest : IsNearest map (convertPointsToBlock gridPos) c
  inReach : distSquared c (convertPointsToBlock gridPos) < (10 * 100000000) ^ 2

theorem NearCell.unique {map : BlockMap} {gridPos c d : IVector} (near : NearCell map gridPos c)
    (nearToo : NearCell map gridPos d) : c = d :=
  near.isNearest.unique nearToo.isNearest

/-- The refined trace from one cell to another, in grid points. -/
def BlockMap.route (map : BlockMap) (areaName : String) (startPos endPos : IVector) :
    Option (List IVector) := do
  let raw ← map.normalized.calcRawPath startPos endPos (areaName == areaChamberLv1)
  let refined ← map.normalized.calcRefinePath 20 raw
  return refined.map convertPointsFromBlock

/-- From a passable cell there is a route, and it begins there. -/
theorem BlockMap.exists_route {map : BlockMap} {startPos : IVector}
    (isPassable : map.Passable startPos) (areaName : String) (endPos : IVector) :
    ∃ route, map.route areaName startPos endPos = some route ∧
      route.head? = some (convertPointsFromBlock startPos) := by
  rw [← map.normalized_passable] at isPassable
  rcases exists_calcRawPath isPassable endPos (areaName == areaChamberLv1) with
    ⟨raw, isRaw, first⟩
  rcases map.normalized.calcRefinePath_interpolated raw with ⟨refined, isRefined, -⟩
  refine ⟨refined.map convertPointsFromBlock, ?_, ?_⟩
  · simp only [route, isRaw, isRefined, Option.bind_eq_bind, Option.bind_some]
    rfl
  · rw [List.head?_map, calcRefinePath_head? isRefined, first, Option.map_some]

/-- A search writes the route between the two cells that it takes. -/
theorem findTargetPath_writes {map : BlockMap} {areaName : String}
    {gridPos posTarget startPos endPos : IVector} {route : List IVector}
    (nearStart : NearCell map gridPos startPos) (nearEnd : NearCell map posTarget endPos)
    (isRoute : map.route areaName startPos endPos = some route) :
    ∃ found, findTargetPath (some map) areaName gridPos posTarget =
      some { points := some route, found } := by
  simp only [BlockMap.route, Option.bind_eq_bind, Option.bind_eq_some_iff] at isRoute
  rcases isRoute with ⟨raw, isRaw, refined, isRefined, route_eq⟩
  cases route_eq
  simp only [findTargetPath, BlockMap.nearPoints_eq]
  rw [BlockMap.closest_eq nearStart.isNearest.normalized nearStart.inReach,
    BlockMap.closest_eq nearEnd.isNearest.normalized nearEnd.inReach]
  simp only [Option.bind_eq_bind, Option.bind_some, isRaw, isRefined]
  split
  · exact ⟨false, rfl⟩
  · exact ⟨_, rfl⟩

/-- Where the search of a tick is defined, the tick observes what it does on a map. -/
def Tick.Observes (tick : Tick) (map : Option BlockMap) (areaName : String) : Prop :=
  ∀ posTarget search, Attach.findTargetPath map areaName tick.gridPos posTarget = some search →
    tick.findTargetPath posTarget = search

theorem Tick.Observes.writes {tick : Tick} {map : BlockMap} {areaName : String}
    {posTarget startPos endPos : IVector} {route : List IVector}
    (observes : tick.Observes (some map) areaName) (nearStart : NearCell map tick.gridPos startPos)
    (nearEnd : NearCell map posTarget endPos)
    (isRoute : map.route areaName startPos endPos = some route) :
    (tick.findTargetPath posTarget).points = some route := by
  rcases findTargetPath_writes nearStart nearEnd isRoute with ⟨found, searches⟩
  rw [observes posTarget _ searches]

/-- What a target path is searched for. -/
structure TargetRequest where
  areaName : String
  gridPos : IVector
  posTarget : IVector

/-- Two searches take the same cells. -/
def TargetRequest.SameCells (map : BlockMap) (request other : TargetRequest) : Prop :=
  request.areaName = other.areaName ∧ ∃ startPos endPos,
    NearCell map request.gridPos startPos ∧ NearCell map other.gridPos startPos ∧
    NearCell map request.posTarget endPos ∧ NearCell map other.posTarget endPos

/-- The walker with the map that he has; `searched` is a history, the request of the last search
that succeeded. -/
structure Trip where
  map : Option BlockMap
  walker : Walker
  searched : Option TargetRequest

/-- What may become of the followed path at a time. -/
inductive PathEvent where
  | loadTargetPath (tick : Tick) (areaName : String) (posTarget : IVector)
  | keepPath
  | leavePath

namespace Walker

/-- Two walkers follow the same path, and have the same target path. -/
structure SamePath (walker next : Walker) : Prop where
  currentPath : next.currentPath = walker.currentPath
  currentPathSize : next.currentPathSize = walker.currentPathSize
  targetPath : next.targetPath = walker.targetPath

end Walker

/-- A walker under any sequence of loads. A path that is not the target path may be followed at any
time, and the map changes with it or is given up. -/
def pathRun : StepSystem Trip PathEvent where
  initial trip := trip.walker = Walker.init
  step trip event next :=
    match event with
    | .loadTargetPath tick areaName posTarget => tick.Observes trip.map areaName ∧ next =
        { map := trip.map
          walker := (trip.walker.loadTargetPath tick posTarget).2
          searched :=
            if (tick.findTargetPath posTarget).found then
              some { areaName, gridPos := tick.gridPos, posTarget }
            else
              trip.searched }
    | .keepPath => trip.walker.SamePath next.walker ∧ next.searched = trip.searched ∧
        (next.map = trip.map ∨ next.map = none)
    | .leavePath => next.walker.currentPath ≠ some .target

/-- A load that fails while a target path is followed on a map takes the same cells as the search
that has found this path. -/
def Trip.Repeats (trip : Trip) : PathEvent → Prop
  | .loadTargetPath tick areaName posTarget => (tick.findTargetPath posTarget).found = false →
      trip.walker.currentPath = some .target → ∀ map, trip.map = some map →
        ∃ request, trip.searched = some request ∧
          request.SameCells map { areaName, gridPos := tick.gridPos, posTarget }
  | .keepPath => True
  | .leavePath => True

/-- A target path that is followed is the route between the cells of its search. -/
def Trip.Tracked (trip : Trip) : Prop :=
  trip.walker.currentPath = some .target → ∃ request, trip.searched = some request ∧
    ∀ map, trip.map = some map → ∀ startPos endPos, NearCell map request.gridPos startPos →
      NearCell map request.posTarget endPos → ∃ route,
        map.route request.areaName startPos endPos = some route ∧
        trip.walker.currentPathSize = route.length ∧
        ∀ i (inRoute : i < route.length), trip.walker.targetPath i = route[i]

namespace Walker

variable {walker : Walker} {tick : Tick} {areaName : String} {posTarget : IVector}

/-- What `QuestRun` follows after a step is what it followed before. -/
structure FollowsOn (before after : Walker) : Prop where
  currentPath : after.currentPath = before.currentPath
  currentPathSize : after.currentPathSize = before.currentPathSize
  moveStep : after.moveStep = before.moveStep
  points : ∀ array, before.currentPath = some array → ∀ i < before.currentPathSize,
    after.pathPoints array i = before.pathPoints array i

theorem loadTargetPath_of_found (found : (tick.findTargetPath posTarget).found = true) :
    (walker.loadTargetPath tick posTarget).2 = { walker.findTargetPath tick posTarget with
      currentPath := some .target
      currentPathSize := (walker.findTargetPath tick posTarget).targetPathSize
      moveStep := noIndex } := by
  simp only [loadTargetPath, if_pos found]

theorem loadTargetPath_of_failed (failed : (tick.findTargetPath posTarget).found = false) :
    (walker.loadTargetPath tick posTarget).2 = walker.findTargetPath tick posTarget := by
  simp only [loadTargetPath, failed, Bool.false_eq_true, if_false]

theorem findTargetPath_of_points {route : List IVector}
    (points_eq : (tick.findTargetPath posTarget).points = some route) :
    walker.findTargetPath tick posTarget = { walker with
      targetPath := writePoints route walker.targetPath, targetPathSize := route.length } := by
  simp only [findTargetPath, points_eq]

/-- A search reaches the followed path only through the target array. -/
theorem findTargetPath_followsOn_iff :
    FollowsOn walker (walker.findTargetPath tick posTarget) ↔
      (walker.currentPath = some .target → ∀ i < walker.currentPathSize,
        (walker.findTargetPath tick posTarget).targetPath i = walker.targetPath i) := by
  constructor
  · intro followsOn following
    exact followsOn.points .target following
  · intro kept
    unfold findTargetPath at kept ⊢
    split
    · exact ⟨rfl, rfl, rfl, fun _ _ _ _ => rfl⟩
    · rename_i points points_eq
      simp only [points_eq] at kept
      refine ⟨rfl, rfl, rfl, ?_⟩
      intro array following i inside
      cases array with
      | full => rfl
      | target => exact kept following i inside

theorem writePoints_eq_getElem {points : List IVector} {i : ℕ} (inPoints : i < points.length)
    (array : ℕ → IVector) : writePoints points array i = points[i] := by
  rw [writePoints, List.getD_eq_getElem _ _ inPoints]

end Walker

section Loads

open Walker

variable {trip next : Trip} {tick : Tick} {areaName : String} {posTarget : IVector}

/-- Without a map a search writes nothing and finds nothing. -/
theorem Tick.Observes.without_map (observes : tick.Observes none areaName) (posTarget : IVector) :
    tick.findTargetPath posTarget = { points := none, found := false } :=
  observes posTarget _ rfl

/-- A load that takes the same cells writes the points that are there. -/
theorem Trip.Tracked.findTargetPath_eq (tracked : trip.Tracked)
    (repeats : trip.Repeats (.loadTargetPath tick areaName posTarget))
    (observes : tick.Observes trip.map areaName)
    (failed : (tick.findTargetPath posTarget).found = false)
    (following : trip.walker.currentPath = some .target) (i : ℕ)
    (inside : i < trip.walker.currentPathSize) :
    (trip.walker.findTargetPath tick posTarget).targetPath i = trip.walker.targetPath i := by
  cases map_eq : trip.map with
  | none =>
      rw [map_eq] at observes
      simp only [Walker.findTargetPath, observes.without_map]
  | some map =>
      rcases repeats failed following map map_eq with ⟨request, searched, sameArea, startPos,
        endPos, nearStart, nearStartToo, nearEnd, nearEndToo⟩
      rcases tracked following with ⟨same, searchedToo, routes⟩
      obtain rfl := Option.some.inj (searched.symm.trans searchedToo)
      rcases routes map map_eq startPos endPos nearStart nearEnd with
        ⟨route, isRoute, size_eq, points_eq⟩
      rw [map_eq] at observes
      rw [sameArea] at isRoute
      have inRoute : i < route.length := size_eq ▸ inside
      rw [findTargetPath_of_points (observes.writes nearStartToo nearEndToo isRoute),
        points_eq i inRoute]
      exact writePoints_eq_getElem inRoute _

theorem invariant_tracked : (pathRun.restrict Trip.Repeats).Invariant Trip.Tracked where
  initial trip isInitial := by
    intro following
    rw [show trip.walker = Walker.init from isInitial] at following
    cases following
  step trip event next tracked moves := by
    rcases moves with ⟨repeats, moves⟩
    cases event with
    | keepPath =>
        rcases moves with ⟨same, searched_eq, map_eq⟩
        intro following
        rw [same.currentPath] at following
        rcases tracked following with ⟨request, searched, routes⟩
        refine ⟨request, searched_eq.trans searched, ?_⟩
        intro map isMap startPos endPos nearStart nearEnd
        rw [same.currentPathSize, same.targetPath]
        rcases map_eq with map_eq | map_eq
        · exact routes map (map_eq.symm.trans isMap) startPos endPos nearStart nearEnd
        · cases map_eq.symm.trans isMap
    | leavePath =>
        have left : next.walker.currentPath ≠ some .target := moves
        exact fun following => absurd following left
    | loadTargetPath tick areaName posTarget =>
        rcases moves with ⟨observes, next_eq⟩
        obtain rfl : next = _ := next_eq
        cases found : (tick.findTargetPath posTarget).found with
        | true =>
            intro _
            simp only [if_pos, loadTargetPath_of_found found]
            refine ⟨_, rfl, ?_⟩
            intro map isMap startPos endPos nearStart nearEnd
            rw [isMap] at observes
            rcases BlockMap.exists_route nearStart.isNearest.passable areaName endPos with
              ⟨route, isRoute, -⟩
            have writes := observes.writes nearStart nearEnd isRoute
            simp only [findTargetPath_of_points writes]
            exact ⟨route, isRoute, rfl, fun i inRoute => writePoints_eq_getElem inRoute _⟩
        | false =>
            intro following
            simp only [Bool.false_eq_true, if_false, loadTargetPath_of_failed found] at following ⊢
            have kept := findTargetPath_followsOn_iff.mpr fun isTarget =>
              tracked.findTargetPath_eq repeats observes found isTarget
            rw [kept.currentPath] at following
            rcases tracked following with ⟨request, searched, routes⟩
            refine ⟨request, searched, ?_⟩
            intro map isMap startPos endPos nearStart nearEnd
            rcases routes map isMap startPos endPos nearStart nearEnd with
              ⟨route, isRoute, size_eq, points_eq⟩
            refine ⟨route, isRoute, kept.currentPathSize.trans size_eq, ?_⟩
            intro i inRoute
            exact (kept.points .target following i (size_eq ▸ inRoute)).trans (points_eq i inRoute)

end Loads

section Questing

variable {map : Option BlockMap} {walker next : Walker} {tick : Tick} {areaName : String}

/-- The path of a walker on a map may become the path of another one. -/
def Walker.Passes (map : Option BlockMap) (walker next : Walker) : Prop :=
  ∀ searched, ∃ later,
    pathRun.Run { map, walker, searched } { map, walker := next, searched := later }

/-- However a piece of a tick ends, its walker has passed there. -/
def Flow.Passes (map : Option BlockMap) (walker : Walker) : Flow → Prop
  | .fault => True
  | .returned next => walker.Passes map next
  | .goesOn next => walker.Passes map next

namespace Walker

theorem Passes.refl (map : Option BlockMap) (walker : Walker) : walker.Passes map walker :=
  fun searched => ⟨searched, .refl⟩

theorem Passes.trans {last : Walker} (passes : walker.Passes map next)
    (passesOn : next.Passes map last) : walker.Passes map last := by
  intro searched
  rcases passes searched with ⟨later, run⟩
  rcases passesOn later with ⟨latest, runOn⟩
  exact ⟨latest, run.trans runOn⟩

theorem SamePath.passes (same : walker.SamePath next) : walker.Passes map next := by
  intro searched
  have moves : pathRun.step { map, walker, searched } .keepPath { map, walker := next, searched } :=
    ⟨same, rfl, .inl rfl⟩
  exact ⟨searched, .single moves⟩

theorem passes_of_left (left : next.currentPath ≠ some .target) : walker.Passes map next := by
  intro searched
  have moves : pathRun.step { map, walker, searched } .leavePath
      { map, walker := next, searched } := left
  exact ⟨searched, .single moves⟩

theorem passes_loadTargetPath (observes : tick.Observes map areaName) (posTarget : IVector) :
    walker.Passes map (walker.loadTargetPath tick posTarget).2 := by
  intro searched
  have moves : pathRun.step { map, walker, searched } (.loadTargetPath tick areaName posTarget) _ :=
    ⟨observes, rfl⟩
  exact ⟨_, .single moves⟩

/-- A load and what a handler notes about it. -/
theorem passes_load_as (observes : tick.Observes map areaName) (posTarget : IVector)
    (same : (walker.loadTargetPath tick posTarget).2.SamePath next) : walker.Passes map next :=
  (passes_loadTargetPath observes posTarget).trans same.passes

end Walker

namespace Flow

theorem Passes.after {flow : Flow} (passesOn : flow.Passes map next)
    (passes : walker.Passes map next) : flow.Passes map walker := by
  cases flow with
  | fault => trivial
  | returned last => exact passes.trans passesOn
  | goesOn last => exact passes.trans passesOn

theorem Passes.andThen {flow : Flow} {rest : Walker → Flow} (passes : flow.Passes map walker)
    (passesOn : ∀ next, flow = .goesOn next → (rest next).Passes map next) :
    (flow.andThen rest).Passes map walker := by
  cases flow with
  | fault => trivial
  | returned last => exact passes
  | goesOn last => exact (passesOn last rfl).after passes

end Flow

namespace Walker

theorem passes_readStep {rest : IVector → Flow} (passes : ∀ point, (rest point).Passes map walker) :
    (walker.readStep rest).Passes map walker := by
  simp only [readStep]
  split
  · trivial
  · split
    · exact passes _
    · trivial

theorem loadFullPath_currentPath (walker : Walker) (tick : Tick) :
    (walker.loadFullPath tick).currentPath ≠ some .target := by
  simp only [loadFullPath]
  split
  · simp
  · simp

theorem selectStep_passes (map : Option BlockMap) (walker : Walker) (tick : Tick) :
    (walker.selectStep tick).Passes map walker := by
  simp only [selectStep]
  split
  · exact passes_of_left (walker.loadFullPath_currentPath tick)
  · apply Flow.Passes.andThen
    · simp only [locateStep]
      split
      · split
        · exact .refl map walker
        · exact SamePath.passes ⟨rfl, rfl, rfl⟩
      · exact .refl map walker
    · intro located _
      simp only [checkArrival]
      split_ifs
      · exact passes_of_left (by simp)
      · exact passes_of_left (by simp)
      · exact .refl map located

theorem runErrand_passes (observes : tick.Observes map areaName) (walker : Walker)
    (errand : Errand) : (walker.runErrand tick errand).Passes map walker := by
  cases errand with
  | acts => exact .refl map walker
  | autoEquip => exact SamePath.passes ⟨rfl, rfl, rfl⟩
  | openSpecialDoor isPassed =>
      simp only [runErrand]
      split
      · exact passes_of_left (by simp)
      · exact SamePath.passes ⟨rfl, rfl, rfl⟩
  | gotoTarget pos kind =>
      simp only [runErrand]
      split_ifs
      · exact passes_load_as observes pos ⟨rfl, rfl, rfl⟩
      · exact passes_loadTargetPath observes pos
      · exact .refl map walker
  | selectEntrance =>
      simp only [runErrand]
      split_ifs
      · exact .refl map walker
      · exact .refl map walker

theorem runErrands_passes (observes : tick.Observes map areaName) (walker : Walker)
    (errands : List Errand) : (walker.runErrands tick errands).Passes map walker := by
  induction errands generalizing walker with
  | nil => exact .refl map walker
  | cons errand later ih =>
      exact (runErrand_passes observes walker errand).andThen fun next _ => ih next

theorem skipAhead_passes (map : Option BlockMap) (walker : Walker) (tick : Tick) :
    walker.Passes map (walker.skipAhead tick) := by
  simp only [skipAhead]
  split
  · exact .refl map walker
  · split_ifs
    · exact passes_of_left (by simp)
    · exact SamePath.passes ⟨rfl, rfl, rfl⟩
    · exact .refl map walker

theorem moveToStep_passes (map : Option BlockMap) (walker : Walker) :
    walker.moveToStep.Passes map walker :=
  passes_readStep fun _ => .refl map walker

theorem detour_passes (observes : tick.Observes map areaName) (walker : Walker) :
    (walker.detour tick).Passes map walker := by
  apply passes_readStep
  intro point
  apply Flow.Passes.andThen
  · split_ifs
    · apply passes_readStep
      intro point
      simp only
      split_ifs
      · exact passes_load_as observes point ⟨rfl, rfl, rfl⟩
      · exact passes_loadTargetPath observes point
    · exact .refl map walker
  · intro next _
    apply passes_readStep
    intro point
    split_ifs
    · exact .refl map next
    · exact passes_readStep fun _ => .refl map next

theorem move_passes (observes : tick.Observes map areaName) (walker : Walker) :
    (walker.move tick).Passes map walker := by
  apply passes_readStep
  intro point
  split_ifs
  · apply (moveToStep_passes map _).after
    exact (skipAhead_passes map walker tick).trans (SamePath.passes ⟨rfl, rfl, rfl⟩)
  · exact detour_passes observes walker
  · exact moveToStep_passes map walker
  · exact (moveToStep_passes map _).after (SamePath.passes ⟨rfl, rfl, rfl⟩)
  · exact SamePath.passes ⟨rfl, rfl, rfl⟩

/-- Searches for icons leave the followed path alone while it is not the target path. -/
theorem foldl_findTargetPath_currentPath (walker : Walker) (tick : Tick) (icons : List IVector) :
    (icons.foldl (fun walker pos => walker.findTargetPath tick pos) walker).currentPath =
      walker.currentPath := by
  induction icons generalizing walker with
  | nil => rfl
  | cons pos later ih =>
      rw [List.foldl_cons, ih]
      simp only [findTargetPath]
      split <;> rfl

/-- At the start of a tick the map may be a new one if the path is reloaded. -/
theorem reload_run {before : Option BlockMap} (observes : tick.Observes map areaName)
    (fresh : tick.newMapBlock = false → map = before ∨ map = none) (walker : Walker)
    (searched : Option TargetRequest) :
    ∃ later, pathRun.Run { map := before, walker, searched }
      { map, walker := walker.reload tick, searched := later } := by
  let reloaded :=
    if tick.newMapBlock || tick.leftAreaPart then
      tick.iconsCache.foldl (fun walker pos => walker.findTargetPath tick pos)
        (({ walker with targetPathType := .none }).loadFullPath tick)
    else
      walker
  have begins : pathRun.Run { map := before, walker, searched }
      { map, walker := reloaded, searched } := by
    by_cases isNew : (tick.newMapBlock || tick.leftAreaPart) = true
    · have left : reloaded.currentPath ≠ some .target := by
        simp only [reloaded, if_pos isNew, foldl_findTargetPath_currentPath]
        exact loadFullPath_currentPath _ tick
      have moves : pathRun.step { map := before, walker, searched } .leavePath
          { map, walker := reloaded, searched } := left
      exact .single moves
    · have same : reloaded = walker := if_neg isNew
      rw [same]
      have notNew : tick.newMapBlock = false := by
        simp only [Bool.or_eq_true, not_or, Bool.not_eq_true] at isNew
        exact isNew.1
      have moves : pathRun.step { map := before, walker, searched } .keepPath
          { map, walker, searched } := ⟨⟨rfl, rfl, rfl⟩, rfl, fresh notNew⟩
      exact .single moves
  have mourns : reloaded.Passes map (walker.reload tick) := by
    cases mourned : tick.posDead with
    | none =>
        have same : walker.reload tick = reloaded := by
          simp only [reload, mourned, reloaded]
        rw [same]
        exact .refl map reloaded
    | some posDead =>
        have same : walker.reload tick =
            if (reloaded.loadTargetPath tick posDead).1 then
              { (reloaded.loadTargetPath tick posDead).2 with targetPathType := .gotoDeadPos }
            else (reloaded.loadTargetPath tick posDead).2 := by
          simp only [reload, mourned, reloaded]
        rw [same]
        split_ifs
        · exact passes_load_as observes posDead ⟨rfl, rfl, rfl⟩
        · exact passes_loadTargetPath observes posDead
  rcases mourns searched with ⟨later, run⟩
  exact ⟨later, begins.trans run⟩

end Walker

/-- The ticks of `QuestRun` with the map they run on. -/
structure Tour where
  map : Option BlockMap
  stage : Stage

/-- Every tick searches the map of the time. A new map comes with the flag `newMapBlock`, and the
map may be given up without it. -/
def mapRun : StepSystem Tour QuestEvent where
  initial tour := tour.stage = .between Walker.init
  step tour event next := questRun.step tour.stage event next.stage ∧
    match event with
    | .chooseStep tick => (∃ areaName, tick.Observes next.map areaName) ∧
        (tick.newMapBlock = false → next.map = tour.map ∨ next.map = none)
    | .move => next.map = tour.map

/-- The walker of the ticks is a walker under loads, on the same map. -/
def Tour.Travels (tour : Tour) (trip : Trip) : Prop :=
  trip.map = tour.map ∧
    match tour.stage with
    | .between walker => trip.walker = walker
    | .atMove tick walker =>
        trip.walker = walker ∧ ∃ areaName, tick.Observes tour.map areaName
    | .faulted => True

/-- `QuestRun` does nothing to the followed path but what a run of loads does. -/
theorem mapRun_simulates : mapRun.Simulates pathRun Tour.Travels where
  initial tour isInitial := by
    refine ⟨{ map := tour.map, walker := Walker.init, searched := none }, rfl, rfl, ?_⟩
    rw [show tour.stage = .between Walker.init from isInitial]
  step tour event next trip travels moves := by
    rcases tour with ⟨before, stage⟩
    rcases next with ⟨map, nextStage⟩
    rcases trip with ⟨tripMap, walker, searched⟩
    rcases travels with ⟨map_eq, travels⟩
    rcases moves with ⟨moves, isMap⟩
    obtain rfl : tripMap = before := map_eq
    cases stage with
    | between start =>
        obtain rfl : walker = start := travels
        cases event with
        | move => exact moves.elim
        | chooseStep tick =>
            obtain rfl : nextStage = .afterChoice tick (walker.chooseStep tick) := moves
            rcases isMap with ⟨⟨areaName, observes⟩, fresh⟩
            rcases Walker.reload_run observes fresh walker searched with ⟨middle, begins⟩
            have passes : (walker.chooseStep tick).Passes map (walker.reload tick) := by
              simp only [Walker.chooseStep]
              split_ifs
              · exact (Walker.selectStep_passes map _ tick).andThen fun next _ =>
                  Walker.runErrands_passes observes next tick.errands
              · exact .refl map _
            cases chosen : walker.chooseStep tick with
            | fault => exact ⟨_, begins, rfl, trivial⟩
            | returned done =>
                rw [chosen] at passes
                rcases passes middle with ⟨later, run⟩
                exact ⟨_, begins.trans run, rfl, rfl⟩
            | goesOn done =>
                rw [chosen] at passes
                rcases passes middle with ⟨later, run⟩
                exact ⟨_, begins.trans run, rfl, rfl, areaName, observes⟩
    | atMove tick start =>
        rcases travels with ⟨start_eq, areaName, observes⟩
        obtain rfl : walker = start := start_eq
        cases event with
        | chooseStep other => exact moves.elim
        | move =>
            obtain rfl : nextStage = .afterMove (walker.move tick) := moves
            obtain rfl : map = tripMap := isMap
            have passes := Walker.move_passes observes walker
            cases moved : walker.move tick with
            | fault => exact ⟨_, .refl, rfl, trivial⟩
            | returned done =>
                rw [moved] at passes
                rcases passes searched with ⟨later, run⟩
                exact ⟨_, run, rfl, rfl⟩
            | goesOn done =>
                rw [moved] at passes
                rcases passes searched with ⟨later, run⟩
                exact ⟨_, run, rfl, rfl⟩
    | faulted => exact moves.elim

end Questing
namespace Walker

end Walker

end PoETask.Attach
