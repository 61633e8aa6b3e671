import PoETask.Attach.AreaPath
import PoETask.Library.StepSystem

/-!
# Moving between areas

The part of `QuestRun` that brings the player to the area of the current quest. It plans
a route with `FindAreaPath` and keeps it until the quest area is reached, the quest area
is another one, or the player is found off the route. On the route it looks for the
farthest way ahead: by portal to a town of the same act, by waypoint, or through the
entrance to the next area.

A tick brings along what it observes of the game. A command is what the tick has done to
leave the area: enter a portal, travel by waypoint, or select an entrance. A portal is
either for a town on the route or, in some areas that consist of parts, a way back to the
town from where the route is planned anew; the quest area is not a town then.
-/

namespace PoETask.Attach

open PoETask.Library

/-- `WorldArea`, as far as the moves between areas read it. -/
structure WorldArea where
  name : String
  act : UInt8
  isTown : Bool
  hasWaypoint : Bool

/-- How far an action that needs several ticks has come. -/
inductive MoveProgress where
  | nothing
  | going
  | there

/-- In an area whose current part is known: whether to leave it by portal, and whether the tick
ends on the way to another part. -/
structure PartTick where
  usePortal : Bool
  movesOn : Bool

/-- The observations of one tick. `comesThrough` tells that nothing has ended the tick before the
moves between areas. -/
structure MoveTick where
  worldArea : WorldArea
  teleportFieldIds : List UInt32
  questArea : String
  comesThrough : Bool
  areaPart : Option PartTick
  portal : MoveProgress
  gotoWaypoint : MoveProgress
  gotoEntrance : MoveProgress

inductive AreaCommand (count : ℕ) where
  | detour
  | portal (town : Fin count)
  | waypoint (key : Fin count)
  | entrance (key : Fin count)
  deriving DecidableEq

structure GlobalMove (count : ℕ) where
  globalMove : Bool
  globalAreas : List (Fin count)
  command : Option (AreaCommand count)
  deriving DecidableEq

def areasInfoSkipScroll : List String :=
  ["The Southern Forest", "The City of Sarn", "The Aqueduct", "The Slave Pens"]

/-- What a command relies on, with the areas ahead on the route. -/
def AreaCommand.Fits {count : ℕ} (resWorldArea : Fin count → ResWorldArea)
    (tick : MoveTick) (ahead : List (Fin count)) : AreaCommand count → Prop
  | .detour => tick.worldArea.isTown = false ∧ tick.worldArea.hasWaypoint = true ∧
      (∃ part, tick.areaPart = some part ∧ part.usePortal = true) ∧
      (ahead.getLast?.map fun key => (resWorldArea key).bIsTown) = some false
  | .portal town => tick.worldArea.isTown = false ∧
      tick.worldArea.name ∉ areasInfoSkipScroll ∧
      ((resWorldArea town).bIsTown = true ∧ (resWorldArea town).bAct = tick.worldArea.act) ∧
      ∃ nearer further, ahead = nearer ++ town :: further ∧ ∀ other ∈ further,
        ¬ ((resWorldArea other).bIsTown = true ∧ (resWorldArea other).bAct = tick.worldArea.act)
  | .waypoint key => tick.worldArea.hasWaypoint = true ∧
      Teleports resWorldArea tick.teleportFieldIds key ∧
      ∃ nearer further, ahead = nearer ++ key :: further ∧
        ∀ other ∈ further, ¬ Teleports resWorldArea tick.teleportFieldIds other
  | .entrance key => ahead.head? = some key

namespace GlobalMove

variable {count : ℕ} (resWorldArea : Fin count → ResWorldArea)

def initGlobalMove : GlobalMove count where
  globalMove := false
  globalAreas := []
  command := none

def order (move : GlobalMove count) (command : AreaCommand count) : GlobalMove count :=
  { move with command := some command }

/-- The last area of the route is the quest area. -/
def LeadsTo (move : GlobalMove count) (questArea : String) : Prop :=
  move.globalAreas.getLast?.map (fun key => (resWorldArea key).szName) = some questArea

instance (move : GlobalMove count) (questArea : String) :
    Decidable (move.LeadsTo resWorldArea questArea) :=
  inferInstanceAs (Decidable (_ = _))

/-- The route of a tick. -/
def chooseRoute (library : StdAlgorithms (Fin count) ℚ) (fuel : ℕ) (move : GlobalMove count)
    (tick : MoveTick) : Option (GlobalMove count) :=
  if tick.worldArea.name = tick.questArea then
    some initGlobalMove
  else if move.LeadsTo resWorldArea tick.questArea ∧ move.globalMove then
    some { move with command := none }
  else
    (findAreaPath resWorldArea tick.teleportFieldIds library fuel tick.worldArea.name
      tick.questArea).map fun globalAreas =>
        { globalMove := true, globalAreas, command := none }

/-- `GetGlobalAreaIndexByName`. -/
def globalAreaIndex (move : GlobalMove count) (areaName : String) : Option ℕ :=
  move.globalAreas.findIdx? fun key => (resWorldArea key).szName = areaName

/-- The route behind the current area; none if there is no next area. -/
def routeAhead (move : GlobalMove count) (areaName : String) :
    Option (Fin count × List (Fin count)) :=
  match move.globalAreaIndex resWorldArea areaName with
  | none => none
  | some dwAreaIndex =>
      match move.globalAreas.drop (dwAreaIndex + 1) with
      | [] => none
      | next :: rest => some (next, rest)

def usePortalScroll (tick : MoveTick) : MoveProgress :=
  if tick.worldArea.isTown then .nothing else tick.portal

/-- Between the parts of an area; none if the tick goes on. -/
def movePart (move : GlobalMove count) (tick : MoveTick) : Option (GlobalMove count) :=
  match tick.areaPart with
  | none => none
  | some part =>
      if move.globalMove then
        match move.routeAhead resWorldArea tick.worldArea.name with
        | none => some initGlobalMove
        | some _ =>
            if tick.worldArea.hasWaypoint ∧ part.usePortal ∧
                (move.globalAreas.getLast?.map fun key => (resWorldArea key).bIsTown) =
                  some false then
              match usePortalScroll tick with
              | .there => some (move.order .detour)
              | .going => some move
              | .nothing => if part.movesOn then some move else none
            else
              if part.movesOn then some move else none
      else
        if part.movesOn then some move else none

/-- Through the entrance to the next area. -/
def moveEntrance (move : GlobalMove count) (tick : MoveTick) (next : Fin count) :
    GlobalMove count :=
  match tick.gotoEntrance with
  | .there => move.order (.entrance next)
  | .going => move
  | .nothing => move

/-- By waypoint to the last area of the route that has a usable one. -/
def moveWaypoint (move : GlobalMove count) (tick : MoveTick) (next : Fin count)
    (rest : List (Fin count)) : GlobalMove count :=
  if tick.worldArea.hasWaypoint then
    match (next :: rest).reverse.find? fun key =>
      Teleports resWorldArea tick.teleportFieldIds key with
    | none => move.moveEntrance tick next
    | some key =>
        match tick.gotoWaypoint with
        | .there => move.order (.waypoint key)
        | .going => move
        | .nothing => move.moveEntrance tick next
  else
    move.moveEntrance tick next

/-- By portal to a town of the act that lies ahead. -/
def movePortal (move : GlobalMove count) (tick : MoveTick) (next : Fin count)
    (rest : List (Fin count)) : GlobalMove count :=
  match (next :: rest).reverse.find? fun key =>
    tick.worldArea.name ∉ areasInfoSkipScroll ∧ (resWorldArea key).bIsTown ∧
      (resWorldArea key).bAct = tick.worldArea.act with
  | none => move.moveWaypoint resWorldArea tick next rest
  | some town =>
      match usePortalScroll tick with
      | .there => move.order (.portal town)
      | .going => move
      | .nothing => move.moveWaypoint resWorldArea tick next rest

def moveGlobal (move : GlobalMove count) (tick : MoveTick) : GlobalMove count :=
  if move.globalMove then
    match move.routeAhead resWorldArea tick.worldArea.name with
    | none => initGlobalMove
    | some (next, rest) => move.movePortal resWorldArea tick next rest
  else
    move

/-- The moves between areas of `QuestRun`. -/
def questRun (library : StdAlgorithms (Fin count) ℚ) (fuel : ℕ) (move : GlobalMove count)
    (tick : MoveTick) : Option (GlobalMove count) :=
  (chooseRoute resWorldArea library fuel move tick).map fun chosen =>
    if chosen.globalMove ∧ chosen.globalAreas = [] then
      chosen
    else if tick.comesThrough then
      match chosen.movePart resWorldArea tick with
      | some ended => ended
      | none => chosen.moveGlobal resWorldArea tick
    else
      chosen

section Passing

variable {count : ℕ} {resWorldArea : Fin count → ResWorldArea}
  {library : StdAlgorithms (Fin count) ℚ} {move next : GlobalMove count} {tick : MoveTick}

/-- The current area on a route, the first one of its name, and the areas ahead. -/
def StandsBefore (resWorldArea : Fin count → ResWorldArea) (areaName : String)
    (globalAreas ahead : List (Fin count)) : Prop :=
  ∃ before here, globalAreas = before ++ here :: ahead ∧ (resWorldArea here).szName = areaName ∧
    ∀ key ∈ before, (resWorldArea key).szName ≠ areaName

theorem globalAreaIndex_of_standsBefore {areaName : String} {ahead : List (Fin count)}
    (stands : StandsBefore resWorldArea areaName move.globalAreas ahead) :
    ∃ index, move.globalAreaIndex resWorldArea areaName = some index ∧
      move.globalAreas.drop (index + 1) = ahead := by
  rcases stands with ⟨before, here, areas_eq, name_eq, different⟩
  refine ⟨before.length, ?_, ?_⟩
  · have notBefore : before.findIdx? (fun key => (resWorldArea key).szName = areaName) = none := by
      apply List.findIdx?_eq_none_iff.mpr
      intro key key_mem
      exact decide_eq_false (different key key_mem)
    simp only [globalAreaIndex, areas_eq, List.findIdx?_append, notBefore, List.findIdx?_cons,
      name_eq, decide_true, if_true]
    simp
  · simp [areas_eq]

theorem exists_standsBefore {areaName : String} {globalAreas : List (Fin count)}
    (onRoute : ∃ key ∈ globalAreas, (resWorldArea key).szName = areaName) :
    ∃ ahead, StandsBefore resWorldArea areaName globalAreas ahead := by
  have isSome : (globalAreas.find? fun key => (resWorldArea key).szName = areaName).isSome := by
    simpa using onRoute
  rcases Option.isSome_iff_exists.mp isSome with ⟨here, found⟩
  rcases List.find?_eq_some_iff_append.mp found with ⟨isHere, before, ahead, areas_eq, different⟩
  refine ⟨ahead, before, here, areas_eq, of_decide_eq_true isHere, ?_⟩
  intro key key_mem
  simpa using different key key_mem

theorem routeAhead_of_standsBefore {areaName : String} {ahead : List (Fin count)}
    (stands : StandsBefore resWorldArea areaName move.globalAreas ahead) :
    move.routeAhead resWorldArea areaName = ahead.head?.map fun following =>
      (following, ahead.tail) := by
  rcases globalAreaIndex_of_standsBefore stands with ⟨index, index_eq, drop_eq⟩
  simp only [routeAhead, index_eq, drop_eq]
  cases ahead with
  | nil => rfl
  | cons following rest => rfl

/-- Without a next area the current one is last on the route or not on it at all. -/
theorem routeAhead_cases (move : GlobalMove count) (areaName : String) :
    (move.routeAhead resWorldArea areaName = none ∧
        ∀ ahead, StandsBefore resWorldArea areaName move.globalAreas ahead → ahead = []) ∨
      ∃ following rest, move.routeAhead resWorldArea areaName = some (following, rest) ∧
        StandsBefore resWorldArea areaName move.globalAreas (following :: rest) := by
  by_cases onRoute : ∃ key ∈ move.globalAreas, (resWorldArea key).szName = areaName
  · rcases exists_standsBefore onRoute with ⟨ahead, stands⟩
    cases ahead with
    | nil =>
        have last := routeAhead_of_standsBefore stands
        refine .inl ⟨last, ?_⟩
        intro other otherStands
        have same := last.symm.trans (routeAhead_of_standsBefore otherStands)
        cases other with
        | nil => rfl
        | cons following rest => cases same
    | cons following rest =>
        exact .inr ⟨following, rest, routeAhead_of_standsBefore stands, stands⟩
  · left
    have notFound : move.globalAreaIndex resWorldArea areaName = none := by
      apply List.findIdx?_eq_none_iff.mpr
      intro key key_mem
      exact decide_eq_false fun name_eq => onRoute ⟨key, key_mem, name_eq⟩
    refine ⟨by simp only [routeAhead, notFound], ?_⟩
    rintro ahead ⟨before, here, areas_eq, name_eq, -⟩
    exact absurd ⟨here, by simp [areas_eq], name_eq⟩ onRoute

/-- What a tick makes of a route it is on: the route stays, and a command fits it. -/
def Follows (resWorldArea : Fin count → ResWorldArea) (tick : MoveTick)
    (route next : GlobalMove count) : Prop :=
  next.globalMove = route.globalMove ∧ next.globalAreas = route.globalAreas ∧
    ∀ command, next.command = some command →
      ∃ ahead, StandsBefore resWorldArea tick.worldArea.name route.globalAreas ahead ∧
        command.Fits resWorldArea tick ahead

theorem follows_self (quiet : move.command = none) : Follows resWorldArea tick move move :=
  ⟨rfl, rfl, fun _ ordered => nomatch quiet.symm.trans ordered⟩

theorem follows_order {command : AreaCommand count} {ahead : List (Fin count)}
    (stands : StandsBefore resWorldArea tick.worldArea.name move.globalAreas ahead)
    (fits : command.Fits resWorldArea tick ahead) :
    Follows resWorldArea tick move (move.order command) := by
  refine ⟨rfl, rfl, ?_⟩
  intro other ordered
  cases ordered
  exact ⟨ahead, stands, fits⟩

variable {following : Fin count} {rest : List (Fin count)}

/-- The last area that meets a condition. -/
theorem find?_reverse_eq_some {areas : List (Fin count)} {wanted : Fin count → Bool}
    {key : Fin count} (found : areas.reverse.find? wanted = some key) :
    wanted key = true ∧ ∃ nearer further, areas = nearer ++ key :: further ∧
      ∀ other ∈ further, wanted other = false := by
  rcases List.find?_eq_some_iff_append.mp found with
    ⟨isWanted, later, earlier, reverse_eq, unwanted⟩
  refine ⟨isWanted, earlier.reverse, later.reverse, ?_, ?_⟩
  · have areas_eq := congrArg List.reverse reverse_eq
    simpa using areas_eq
  · intro other other_mem
    have notWanted := unwanted other (List.mem_reverse.mp other_mem)
    simpa using notWanted

theorem follows_moveEntrance (quiet : move.command = none)
    (stands : StandsBefore resWorldArea tick.worldArea.name move.globalAreas
      (following :: rest)) :
    Follows resWorldArea tick move (move.moveEntrance tick following) := by
  simp only [moveEntrance]
  split
  · exact follows_order stands rfl
  · exact follows_self quiet
  · exact follows_self quiet

theorem follows_moveWaypoint (quiet : move.command = none)
    (stands : StandsBefore resWorldArea tick.worldArea.name move.globalAreas
      (following :: rest)) :
    Follows resWorldArea tick move (move.moveWaypoint resWorldArea tick following rest) := by
  simp only [moveWaypoint]
  split
  · rename_i hasWaypoint
    split
    · exact follows_moveEntrance quiet stands
    · rename_i key found
      rcases find?_reverse_eq_some found with ⟨teleports, nearer, further, ahead_eq, untaught⟩
      split
      · refine follows_order stands ⟨hasWaypoint, of_decide_eq_true teleports, nearer, further,
          ahead_eq, ?_⟩
        intro other other_mem
        exact of_decide_eq_false (untaught other other_mem)
      · exact follows_self quiet
      · exact follows_moveEntrance quiet stands
  · exact follows_moveEntrance quiet stands

theorem usePortalScroll_there (acts : usePortalScroll tick = .there) :
    tick.worldArea.isTown = false := by
  by_contra isTown
  simp only [usePortalScroll, Bool.eq_true_of_not_eq_false isTown, if_true] at acts
  cases acts

theorem follows_movePortal (quiet : move.command = none)
    (stands : StandsBefore resWorldArea tick.worldArea.name move.globalAreas
      (following :: rest)) :
    Follows resWorldArea tick move (move.movePortal resWorldArea tick following rest) := by
  simp only [movePortal]
  split
  · exact follows_moveWaypoint quiet stands
  · rename_i town found
    rcases find?_reverse_eq_some found with ⟨isTown, nearer, further, ahead_eq, notTown⟩
    rcases of_decide_eq_true isTown with ⟨notSkipped, town⟩
    split
    · rename_i acts
      refine follows_order stands
        ⟨usePortalScroll_there acts, notSkipped, town, nearer, further, ahead_eq, ?_⟩
      intro other other_mem otherTown
      exact of_decide_eq_false (notTown other other_mem) ⟨notSkipped, otherTown⟩
    · exact follows_self quiet
    · exact follows_moveWaypoint quiet stands

/-- The moves on a route: it is followed, or dropped where there is no next area. -/
def Proceeds (resWorldArea : Fin count → ResWorldArea) (tick : MoveTick)
    (route next : GlobalMove count) : Prop :=
  Follows resWorldArea tick route next ∨ next = initGlobalMove ∧
    ∀ ahead, StandsBefore resWorldArea tick.worldArea.name route.globalAreas ahead → ahead = []

theorem proceeds_moveGlobal (quiet : move.command = none) :
    Proceeds resWorldArea tick move (move.moveGlobal resWorldArea tick) := by
  simp only [moveGlobal]
  split
  · rcases move.routeAhead_cases tick.worldArea.name with
      ⟨last, astray⟩ | ⟨following, rest, ahead_eq, stands⟩
    · rw [last]
      exact .inr ⟨rfl, astray⟩
    · rw [ahead_eq]
      exact .inl (follows_movePortal quiet stands)
  · exact .inl (follows_self quiet)

theorem proceeds_movePart (quiet : move.command = none)
    (ended : move.movePart resWorldArea tick = some next) :
    Proceeds resWorldArea tick move next := by
  have stays : ∀ movesOn : Bool, (if movesOn then some move else none) = some next →
      Proceeds resWorldArea tick move next := by
    intro movesOn movesOn_eq
    split at movesOn_eq
    · cases movesOn_eq
      exact .inl (follows_self quiet)
    · cases movesOn_eq
  simp only [movePart] at ended
  split at ended
  · cases ended
  · rename_i part part_eq
    split at ended
    · rcases move.routeAhead_cases tick.worldArea.name with
        ⟨last, astray⟩ | ⟨following, rest, ahead_eq, stands⟩
      · rw [last] at ended
        cases ended
        exact .inr ⟨rfl, astray⟩
      · rw [ahead_eq] at ended
        simp only at ended
        split at ended
        · rename_i leaves
          split at ended
          · rename_i acts
            cases ended
            refine .inl (follows_order stands
              ⟨usePortalScroll_there acts, leaves.1, ⟨part, part_eq, leaves.2.1⟩, ?_⟩)
            rcases stands with ⟨before, here, areas_eq, -⟩
            rw [areas_eq, List.getLast?_append_of_ne_nil _ (List.cons_ne_nil _ _),
              List.getLast?_cons_cons] at leaves
            exact leaves.2.2
          · cases ended
            exact .inl (follows_self quiet)
          · exact stays part.movesOn ended
        · exact stays part.movesOn ended
    · exact stays part.movesOn ended

/-- The route that a tick is on. -/
inductive Chooses (resWorldArea : Fin count → ResWorldArea) (library : StdAlgorithms (Fin count) ℚ)
    (tick : MoveTick) (move route : GlobalMove count) : Prop where
  | arrived (name_eq : tick.worldArea.name = tick.questArea) (route_eq : route = initGlobalMove)
  | keeps (away : tick.worldArea.name ≠ tick.questArea)
      (leads : move.LeadsTo resWorldArea tick.questArea) (isMoving : move.globalMove = true)
      (route_eq : route = { move with command := none })
  | plans (away : tick.worldArea.name ≠ tick.questArea)
      (useless : ¬ (move.LeadsTo resWorldArea tick.questArea ∧ move.globalMove = true))
      (globalAreas : List (Fin count))
      (found : FindsAreaPath resWorldArea tick.teleportFieldIds library tick.worldArea.name
        tick.questArea globalAreas)
      (route_eq : route = { globalMove := true, globalAreas, command := none })

theorem Chooses.quiet {route : GlobalMove count}
    (chooses : Chooses resWorldArea library tick move route) : route.command = none := by
  cases chooses with
  | arrived name_eq route_eq => rw [route_eq]; rfl
  | keeps away leads isMoving route_eq => rw [route_eq]
  | plans away useless globalAreas found route_eq => rw [route_eq]

theorem exists_chooses (resWorldArea : Fin count → ResWorldArea)
    (library : StdAlgorithms (Fin count) ℚ) (move : GlobalMove count) (tick : MoveTick) :
    ∃ route enough, (∀ fuel, enough ≤ fuel →
        move.chooseRoute resWorldArea library fuel tick = some route) ∧
      Chooses resWorldArea library tick move route := by
  by_cases name_eq : tick.worldArea.name = tick.questArea
  · refine ⟨initGlobalMove, 0, ?_, .arrived name_eq rfl⟩
    intro fuel _
    simp only [chooseRoute, if_pos name_eq]
  · by_cases useful : move.LeadsTo resWorldArea tick.questArea ∧ move.globalMove = true
    · refine ⟨{ move with command := none }, 0, ?_, .keeps name_eq useful.1 useful.2 rfl⟩
      intro fuel _
      simp only [chooseRoute, if_neg name_eq, if_pos useful]
    · rcases @exists_findsAreaPath _ resWorldArea tick.teleportFieldIds library
        tick.worldArea.name tick.questArea with ⟨globalAreas, ⟨enough, runs⟩, -⟩
      refine ⟨{ globalMove := true, globalAreas, command := none }, enough, ?_,
        .plans name_eq useful globalAreas ⟨enough, runs⟩ rfl⟩
      intro fuel suffices_le
      simp only [chooseRoute, if_neg name_eq, if_neg useful, runs fuel suffices_le,
        Option.map_some]

/-- What a tick makes of the moves between areas. -/
def Ticks (resWorldArea : Fin count → ResWorldArea) (library : StdAlgorithms (Fin count) ℚ)
    (tick : MoveTick) (move next : GlobalMove count) : Prop :=
  ∃ enough, ∀ fuel, enough ≤ fuel → questRun resWorldArea library fuel move tick = some next

/-- What one amount of fuel makes of a tick is what becomes of it. -/
theorem ticks_of_eq {fuel : ℕ} (ran : questRun resWorldArea library fuel move tick = some next) :
    Ticks resWorldArea library tick move next := by
  refine ⟨fuel, ?_⟩
  intro more fuel_le
  rcases Option.map_eq_some_iff.mp ran with ⟨route, chosen, rfl⟩
  have again : move.chooseRoute resWorldArea library more tick = some route := by
    simp only [chooseRoute] at chosen ⊢
    split at chosen
    · rename_i arrived
      rw [if_pos arrived]
      exact chosen
    · rename_i away
      rw [if_neg away]
      split at chosen
      · rename_i useful
        rw [if_pos useful]
        exact chosen
      · rename_i useless
        rcases Option.map_eq_some_iff.mp chosen with ⟨globalAreas, found, rfl⟩
        rw [if_neg useless, findAreaPath_of_le found fuel_le, Option.map_some]
  simp only [questRun, again, Option.map_some]

/-- A tick always ends, and it chooses a route and proceeds on it. -/
theorem exists_ticks (resWorldArea : Fin count → ResWorldArea)
    (library : StdAlgorithms (Fin count) ℚ) (move : GlobalMove count) (tick : MoveTick) :
    ∃ route next, Ticks resWorldArea library tick move next ∧
      Chooses resWorldArea library tick move route ∧
      Proceeds resWorldArea tick route next := by
  rcases exists_chooses resWorldArea library move tick with ⟨route, enough, runs, chooses⟩
  have quiet := chooses.quiet
  have ticks : ∀ next, (if route.globalMove ∧ route.globalAreas = [] then route
      else if tick.comesThrough then
        match route.movePart resWorldArea tick with
        | some ended => ended
        | none => route.moveGlobal resWorldArea tick
      else route) = next → Ticks resWorldArea library tick move next := by
    intro next next_eq
    refine ⟨enough, ?_⟩
    intro fuel suffices_le
    simp only [questRun, runs fuel suffices_le, Option.map_some, ← next_eq]
  refine ⟨route, _, ticks _ rfl, chooses, ?_⟩
  split
  · exact .inl (follows_self quiet)
  · split
    · cases ended : route.movePart resWorldArea tick with
      | some next => exact proceeds_movePart quiet ended
      | none => exact proceeds_moveGlobal quiet
    · exact .inl (follows_self quiet)

theorem Ticks.unique {other : GlobalMove count} (ticks : Ticks resWorldArea library tick move next)
    (otherTicks : Ticks resWorldArea library tick move other) : next = other := by
  rcases ticks with ⟨enough, runs⟩
  rcases otherTicks with ⟨otherEnough, otherRuns⟩
  have same := (runs (max enough otherEnough) (le_max_left _ _)).symm.trans
    (otherRuns (max enough otherEnough) (le_max_right _ _))
  exact Option.some.inj same

theorem Ticks.cases (ticks : Ticks resWorldArea library tick move next) :
    ∃ route, Chooses resWorldArea library tick move route ∧
      Proceeds resWorldArea tick route next := by
  rcases exists_ticks resWorldArea library move tick with ⟨route, other, otherTicks, found⟩
  obtain rfl := ticks.unique otherTicks
  exact ⟨route, found⟩

end Passing

end GlobalMove

/-- A player who travels under the moves between areas; `entered` lists the areas entered. -/
structure Travel (count : ℕ) where
  area : Fin count
  move : GlobalMove count
  entered : List (Fin count)

inductive TravelEvent (count : ℕ) where
  | questRun (tick : MoveTick)
  | enter (area : Fin count)

/-- The area that a command leads to by the route. -/
def AreaCommand.target {count : ℕ} : AreaCommand count → Option (Fin count)
  | .detour => none
  | .portal town => some town
  | .waypoint key => some key
  | .entrance key => some key

namespace Travel

variable {count : ℕ}

/-- The player in a world that may bring him anywhere at any time. -/
def system (resWorldArea : Fin count → ResWorldArea) (library : StdAlgorithms (Fin count) ℚ) :
    StepSystem (Travel count) (TravelEvent count) where
  initial travel := travel.move = GlobalMove.initGlobalMove ∧ travel.entered = []
  step travel event next :=
    match event with
    | .questRun tick => tick.worldArea.name = (resWorldArea travel.area).szName ∧
        GlobalMove.Ticks resWorldArea library tick travel.move next.move ∧
        next.area = travel.area ∧ next.entered = travel.entered
    | .enter area => next =
        { area, move := { travel.move with command := none }, entered := travel.entered ++ [area] }

/-- The player enters areas only where a command leads, the quest area stays the same, and no
area of several parts is left by portal. -/
def Obeys (resWorldArea : Fin count → ResWorldArea) (questArea : String) (travel : Travel count) :
    TravelEvent count → Prop
  | .questRun tick => tick.questArea = questArea ∧
      ∀ part, tick.areaPart = some part → part.usePortal = false
  | .enter area => ∃ command key, travel.move.command = some command ∧
      command.target = some key ∧ (resWorldArea area).szName = (resWorldArea key).szName

section Following

open GlobalMove

variable {resWorldArea : Fin count → ResWorldArea} {library : StdAlgorithms (Fin count) ℚ}
  {travel next last : Travel count} {tick : MoveTick} {questArea : String}
  {globalAreas ahead other : List (Fin count)} {areaName : String}

theorem szName_of_areaIndex {area : Fin count}
    (index_eq : areaIndex resWorldArea areaName = some area) :
    (resWorldArea area).szName = areaName := by
  simpa using List.find?_some index_eq

/-- The route comes from a tick of the run and has been the same since: it is a cheapest one for
the waypoints known in that tick, from the area the player was in then to the quest area of then. -/
def Planned (resWorldArea : Fin count → ResWorldArea) (library : StdAlgorithms (Fin count) ℚ)
    (travel : Travel count) : Prop :=
  ∃ before tick planned start goal,
    (system resWorldArea library).Reachable before ∧
    (system resWorldArea library).step before (.questRun tick) planned ∧
    ((system resWorldArea library).restrict fun state _ =>
      state.move.globalAreas = travel.move.globalAreas).Run planned travel ∧
    areaIndex resWorldArea (resWorldArea before.area).szName = some start ∧
    areaIndex resWorldArea tick.questArea = some goal ∧
    Walk.Cheapest (getChildren resWorldArea tick.teleportFieldIds) start goal
      travel.move.globalAreas

/-- A route that a step leaves as it is stays a planned one. -/
theorem Planned.step {event : TravelEvent count} (planned : Planned resWorldArea library travel)
    (moves : (system resWorldArea library).step travel event next)
    (same : next.move.globalAreas = travel.move.globalAreas) :
    Planned resWorldArea library next := by
  rcases planned with ⟨before, tick, planned, start, goal, reached, plans, run, isPlan⟩
  refine ⟨before, tick, planned, start, goal, reached, plans, ?_, ?_⟩
  · rw [same]
    exact run.step ⟨rfl, moves⟩
  · rw [same]
    exact isPlan

/-- What holds of the moves in every state: a route is a planned one, and a command fits it. -/
structure Sound (resWorldArea : Fin count → ResWorldArea) (library : StdAlgorithms (Fin count) ℚ)
    (travel : Travel count) : Prop where
  reached : (system resWorldArea library).Reachable travel
  isMoving : travel.move.globalAreas ≠ [] → travel.move.globalMove = true
  planned : travel.move.globalAreas ≠ [] → Planned resWorldArea library travel
  ordered : ∀ command, travel.move.command = some command → ∃ tick ahead,
    StandsBefore resWorldArea (resWorldArea travel.area).szName travel.move.globalAreas ahead ∧
      command.Fits resWorldArea tick ahead

theorem cheapest_of_finds {startArea endArea : String}
    (found : FindsAreaPath resWorldArea tick.teleportFieldIds library startArea endArea globalAreas)
    (found_ne : globalAreas ≠ []) :
    ∃ start goal, areaIndex resWorldArea startArea = some start ∧
      areaIndex resWorldArea endArea = some goal ∧
      Walk.Cheapest (getChildren resWorldArea tick.teleportFieldIds) start goal globalAreas := by
  rcases @exists_findsAreaPath _ resWorldArea tick.teleportFieldIds library startArea endArea with
    ⟨route, routeFound, -, cheapest⟩
  obtain rfl := found.unique routeFound
  exact cheapest found_ne

/-- After a tick the route is empty or a planned one for the quest area, and a command fits it. -/
theorem Sound.questRun (sound : travel.Sound resWorldArea library)
    (moves : (system resWorldArea library).step travel (.questRun tick) next) :
    (next.move.globalAreas ≠ [] → next.move.globalMove = true ∧
        Planned resWorldArea library next ∧ next.move.LeadsTo resWorldArea tick.questArea) ∧
      ∀ command, next.move.command = some command → ∃ ahead,
        StandsBefore resWorldArea tick.worldArea.name next.move.globalAreas ahead ∧
          command.Fits resWorldArea tick ahead := by
  have ⟨name_eq, ticks, _⟩ := moves
  rcases ticks.cases with ⟨route, chooses, ⟨moving_eq, areas_eq, fits⟩ | ⟨next_eq, -⟩⟩
  · refine ⟨?_, areas_eq ▸ fits⟩
    intro areas_ne
    cases chooses with
    | arrived arrived_eq route_eq =>
        rw [areas_eq, route_eq] at areas_ne
        exact absurd rfl areas_ne
    | keeps away leads isMoving route_eq =>
        have same : next.move.globalAreas = travel.move.globalAreas := by rw [areas_eq, route_eq]
        refine ⟨by rw [moving_eq, route_eq]; exact isMoving, ?_, ?_⟩
        · exact (sound.planned (same ▸ areas_ne)).step moves same
        · rw [LeadsTo, same]
          exact leads
    | plans away useless globalAreas found route_eq =>
        have same : next.move.globalAreas = globalAreas := by rw [areas_eq, route_eq]
        rcases cheapest_of_finds found (same ▸ areas_ne) with ⟨start, goal, start_eq, goal_eq,
          cheapest⟩
        refine ⟨by rw [moving_eq, route_eq], ?_, ?_⟩
        · exact ⟨travel, tick, next, start, goal, sound.reached, moves, .refl,
            name_eq ▸ start_eq, goal_eq, same ▸ cheapest⟩
        · rcases cheapest with ⟨w, walk, -⟩
          rw [LeadsTo, same, walk.getLast_eq, Option.map_some, szName_of_areaIndex goal_eq]
  · rw [next_eq]
    exact ⟨fun impossible => absurd rfl impossible, nofun⟩

theorem invariant_sound (resWorldArea : Fin count → ResWorldArea)
    (library : StdAlgorithms (Fin count) ℚ) :
    (system resWorldArea library).Invariant (Sound resWorldArea library) where
  initial travel isInitial := by
    refine ⟨.initial isInitial, ?_, ?_, ?_⟩
    · rw [isInitial.1]
      exact fun impossible => absurd rfl impossible
    · rw [isInitial.1]
      exact fun impossible => absurd rfl impossible
    · rw [isInitial.1]
      exact nofun
  step travel event next sound moves := by
    have reached := sound.reached.step moves
    cases event with
    | questRun tick =>
        rcases sound.questRun moves with ⟨routed, ordered⟩
        rcases moves with ⟨name_eq, -, area_eq, -⟩
        refine ⟨reached, fun areas_ne => (routed areas_ne).1, fun areas_ne => (routed areas_ne).2.1, ?_⟩
        intro command command_eq
        rw [area_eq, ← name_eq]
        exact ⟨tick, ordered command command_eq⟩
    | enter area =>
        have next_eq : next = _ := moves
        have areas_eq : next.move.globalAreas = travel.move.globalAreas := by rw [next_eq]
        refine ⟨reached, ?_, ?_, ?_⟩
        · rw [next_eq]
          exact sound.isMoving
        · intro areas_ne
          exact (sound.planned (areas_eq ▸ areas_ne)).step moves areas_eq
        · rw [next_eq]
          exact nofun

/-- The coast, the area behind it and the two areas behind that one. -/
def coastAreas : Fin 4 → ResWorldArea := ![
  { szName := "The Coast", bAct := 1, bIsTown := false, pdwConnectionsList := [1]
    dwID := 31442 },
  { szName := "The Mud Flats", bAct := 1, bIsTown := false, pdwConnectionsList := [0, 2, 3]
    dwID := 49149 },
  { szName := "The Fetid Pool", bAct := 1, bIsTown := false, pdwConnectionsList := [1]
    dwID := 56912 },
  { szName := "The Submerged Passage", bAct := 1, bIsTown := false, pdwConnectionsList := [1]
    dwID := 35190 }]

/-- A tick at the first of them, at the entrance to the next, with a quest in the last. -/
def coastTick : MoveTick where
  worldArea := { name := "The Coast", act := 1, isTown := false, hasWaypoint := true }
  teleportFieldIds := [31442]
  questArea := "The Fetid Pool"
  comesThrough := true
  areaPart := none
  portal := .nothing
  gotoWaypoint := .nothing
  gotoEntrance := .there

def onCoast : Travel 4 where
  area := 0
  move := GlobalMove.initGlobalMove
  entered := []

/-- After the tick. -/
def leavingCoast : Travel 4 where
  area := 0
  move := { globalMove := true, globalAreas := [0, 1, 2], command := some (.entrance 1) }
  entered := []

theorem leavesCoast :
    (system coastAreas (Dijkstra.listAlgorithms (Fin 4) ℚ)).step onCoast (.questRun coastTick)
      leavingCoast := by
  have ran : questRun coastAreas (Dijkstra.listAlgorithms (Fin 4) ℚ) 8 onCoast.move coastTick =
      some leavingCoast.move := by decide +kernel
  exact ⟨rfl, ticks_of_eq ran, rfl, rfl⟩

/-- In every run, wherever the world brings the player, a route was planned in a tick of the run,
as a cheapest one for what that tick has seen, and leads to the quest area, and a command leads to
an area ahead of the current one: the next area by its entrance, the farthest usable waypoint from
a waypoint, the farthest town of the act by portal. Or it is the way back of an area that consists
of parts, taken on the way to a quest area that is not a town. -/
theorem command_leadsAhead (reached : (system resWorldArea library).Reachable travel)
    (moves : (system resWorldArea library).step travel (.questRun tick) next) :
    (next.move.globalAreas ≠ [] → Planned resWorldArea library next ∧
        next.move.LeadsTo resWorldArea tick.questArea) ∧
      ∀ command, next.move.command = some command → ∃ ahead,
        StandsBefore resWorldArea (resWorldArea travel.area).szName next.move.globalAreas ahead ∧
          command.Fits resWorldArea tick ahead := by
  have sound := (invariant_sound resWorldArea library).of_reachable reached
  rcases sound.questRun moves with ⟨routed, ordered⟩
  rw [← moves.1]
  exact ⟨fun areas_ne => (routed areas_ne).2, ordered⟩

theorem command_leadsAhead_coast :
    (leavingCoast.move.globalAreas ≠ [] →
        Planned coastAreas (Dijkstra.listAlgorithms (Fin 4) ℚ) leavingCoast ∧
          leavingCoast.move.LeadsTo coastAreas coastTick.questArea) ∧
      ∀ command, leavingCoast.move.command = some command → ∃ ahead,
        StandsBefore coastAreas (coastAreas onCoast.area).szName leavingCoast.move.globalAreas
            ahead ∧
          command.Fits coastAreas coastTick ahead :=
  command_leadsAhead (.initial ⟨rfl, rfl⟩) leavesCoast

theorem standsBefore_unique (stands : StandsBefore resWorldArea areaName globalAreas ahead)
    (otherStands : StandsBefore resWorldArea areaName globalAreas other) : ahead = other := by
  let move : GlobalMove count := { globalMove := true, globalAreas, command := none }
  rcases globalAreaIndex_of_standsBefore (show StandsBefore _ _ move.globalAreas _ from stands) with
    ⟨index, index_eq, drop_eq⟩
  rcases globalAreaIndex_of_standsBefore
    (show StandsBefore _ _ move.globalAreas _ from otherStands) with
    ⟨otherIndex, otherIndex_eq, otherDrop_eq⟩
  obtain rfl := Option.some.inj (index_eq.symm.trans otherIndex_eq)
  exact drop_eq.symm.trans otherDrop_eq

/-- A command with a target leads to an area ahead. -/
theorem target_mem {command : AreaCommand count} {key : Fin count}
    (fits : command.Fits resWorldArea tick ahead) (target_eq : command.target = some key) :
    key ∈ ahead := by
  cases command with
  | detour => cases target_eq
  | portal town =>
      obtain rfl := Option.some.inj target_eq
      rcases fits.2.2.2 with ⟨nearer, further, ahead_eq, -⟩
      exact ahead_eq ▸ List.mem_append_right _ List.mem_cons_self
  | waypoint key =>
      obtain rfl := Option.some.inj target_eq
      rcases fits.2.2 with ⟨nearer, further, ahead_eq, -⟩
      exact ahead_eq ▸ List.mem_append_right _ List.mem_cons_self
  | entrance key =>
      obtain rfl := Option.some.inj target_eq
      exact List.mem_of_mem_head? fits

/-- Behind the last area of a route whose names are distinct nothing is ahead. -/
theorem ahead_eq_nil_iff (distinct : (globalAreas.map fun key => (resWorldArea key).szName).Nodup)
    (leads : globalAreas.getLast?.map (fun key => (resWorldArea key).szName) = some questArea)
    (stands : StandsBefore resWorldArea areaName globalAreas ahead) :
    ahead = [] ↔ areaName = questArea := by
  rcases stands with ⟨before, here, rfl, rfl, -⟩
  rcases List.eq_nil_or_concat ahead with rfl | ⟨between, final, rfl⟩
  · simp only [true_iff]
    simpa using leads
  · rw [List.concat_eq_append] at distinct leads ⊢
    have areas_eq : before ++ here :: (between ++ [final]) =
        (before ++ here :: between) ++ [final] := by simp
    have final_eq : (resWorldArea final).szName = questArea := by
      rw [areas_eq, List.getLast?_concat] at leads
      exact Option.some.inj leads
    constructor
    · intro impossible
      exact absurd impossible (by simp)
    · intro name_eq
      rw [areas_eq, List.map_append] at distinct
      refine absurd (name_eq.trans final_eq.symm) ?_
      refine (List.nodup_append.mp distinct).2.2 _ (List.mem_map_of_mem ?_) _
        (List.mem_map_of_mem List.mem_cons_self)
      simp

/-- Where a run that obeys stands: some way along the route that it began with. -/
def Along (resWorldArea : Fin count → ResWorldArea) (globalAreas ahead : List (Fin count))
    (steps : List (Fin count)) (travel : Travel count) : Prop :=
  ∃ rest, StandsBefore resWorldArea (resWorldArea travel.area).szName globalAreas rest ∧
    (steps.map (fun key => (resWorldArea key).szName) ++
      rest.map fun key => (resWorldArea key).szName).Sublist
        (ahead.map fun key => (resWorldArea key).szName) ∧
    (rest ≠ [] → travel.move.globalAreas = globalAreas ∧ travel.move.globalMove = true) ∧
    ∀ command key, travel.move.command = some command → command.target = some key → key ∈ rest

/-- Entering the area that a command leads to is a step along the route. -/
theorem Along.enter {steps : List (Fin count)} {area : Fin count}
    (distinct : (globalAreas.map fun key => (resWorldArea key).szName).Nodup)
    (along : Along resWorldArea globalAreas ahead steps travel)
    (obeys : Obeys resWorldArea questArea travel (.enter area))
    (move_eq : next.move = { travel.move with command := none }) (area_eq : next.area = area) :
    Along resWorldArea globalAreas ahead (steps ++ [area]) next := by
  rcases along with
    ⟨rest, ⟨before, here, areas_eq, name_eq, different⟩, sublist, kept, targets⟩
  rcases obeys with ⟨command, key, command_eq, target_eq, name_same⟩
  rcases List.append_of_mem (targets command key command_eq target_eq) with
    ⟨between, further, rest_eq⟩
  refine ⟨further, ⟨before ++ here :: between, key, ?_, ?_, ?_⟩, ?_, ?_, ?_⟩
  · rw [areas_eq, rest_eq]
    simp
  · rw [area_eq, name_same]
  · intro other other_mem
    have split_eq : globalAreas = (before ++ here :: between) ++ key :: further := by
      rw [areas_eq, rest_eq]
      simp
    rw [split_eq, List.map_append] at distinct
    rw [area_eq, name_same]
    exact (List.nodup_append.mp distinct).2.2 _ (List.mem_map_of_mem other_mem) _
      (List.mem_map_of_mem List.mem_cons_self)
  · refine List.Sublist.trans ?_ sublist
    rw [rest_eq, List.map_append, List.append_assoc]
    refine (List.Sublist.refl _).append ?_
    simp [name_same]
  · intro further_ne
    have rest_ne : rest ≠ [] := by
      rw [rest_eq]
      simp
    rw [move_eq]
    exact kept rest_ne
  · rw [move_eq]
    exact nofun

/-- A tick keeps to the route until the quest area is reached. -/
theorem Along.questRun {steps : List (Fin count)}
    (distinct : (globalAreas.map fun key => (resWorldArea key).szName).Nodup)
    (leads : globalAreas.getLast?.map (fun key => (resWorldArea key).szName) = some questArea)
    (along : Along resWorldArea globalAreas ahead steps travel)
    (obeys : Obeys resWorldArea questArea travel (.questRun tick))
    (moves : (system resWorldArea library).step travel (.questRun tick) next) :
    Along resWorldArea globalAreas ahead steps next := by
  rcases along with ⟨rest, stands, sublist, kept, -⟩
  rcases moves with ⟨name_eq, ticks, area_eq, -⟩
  have rest_nil := ahead_eq_nil_iff distinct leads stands
  rcases ticks.cases with ⟨route, chooses, proceeds⟩
  refine ⟨rest, area_eq ▸ stands, sublist, ?_⟩
  have nothing : ∀ rest, ¬ StandsBefore resWorldArea tick.worldArea.name
      (initGlobalMove : GlobalMove count).globalAreas rest := by
    rintro rest ⟨before, here, areas_eq, -⟩
    simp [initGlobalMove] at areas_eq
  cases chooses with
  | arrived arrived_eq route_eq =>
      have rest_eq : rest = [] := rest_nil.mpr (name_eq ▸ arrived_eq.trans obeys.1)
      refine ⟨fun rest_ne => absurd rest_eq rest_ne, ?_⟩
      intro command key command_eq target_eq
      rcases proceeds with ⟨-, -, fits⟩ | ⟨next_eq, -⟩
      · rcases fits command command_eq with ⟨further, standsNow, -⟩
        rw [route_eq] at standsNow
        exact absurd standsNow (nothing further)
      · rw [next_eq] at command_eq
        cases command_eq
  | keeps away moveLeads isMoving route_eq =>
      have rest_ne : rest ≠ [] := fun rest_eq =>
        away (name_eq.trans ((rest_nil.mp rest_eq).trans obeys.1.symm))
      rcases kept rest_ne with ⟨areas_eq, -⟩
      have route_areas : route.globalAreas = globalAreas := by rw [route_eq, areas_eq]
      rcases proceeds with ⟨moving_eq, next_areas, fits⟩ | ⟨-, astray⟩
      · refine ⟨fun _ => ⟨next_areas.trans route_areas, ?_⟩, ?_⟩
        · rw [moving_eq, route_eq]
          exact isMoving
        · intro command key command_eq target_eq
          rcases fits command command_eq with ⟨further, standsNow, fitsNow⟩
          rw [route_areas, name_eq] at standsNow
          obtain rfl := standsBefore_unique stands standsNow
          exact target_mem fitsNow target_eq
      · rw [route_areas, name_eq] at astray
        exact absurd (astray rest stands) rest_ne
  | plans away useless globalAreas' found route_eq =>
      have rest_ne : rest ≠ [] := fun rest_eq =>
        away (name_eq.trans ((rest_nil.mp rest_eq).trans obeys.1.symm))
      rcases kept rest_ne with ⟨areas_eq, isMoving⟩
      refine absurd ⟨?_, isMoving⟩ useless
      rw [LeadsTo, areas_eq, obeys.1]
      exact leads

/-- From a route whose areas have distinct names: as long as the player enters areas only where
commands lead, he follows the route to the quest area without planning anew. The areas he enters
are areas ahead on the route, in its order and none of them twice, so that there are at most as
many as lie ahead. -/
theorem travel_followsRoute (reached : (system resWorldArea library).Reachable travel)
    (distinct : (travel.move.globalAreas.map fun key => (resWorldArea key).szName).Nodup)
    (leads : travel.move.LeadsTo resWorldArea questArea)
    (stands : StandsBefore resWorldArea (resWorldArea travel.area).szName
      travel.move.globalAreas ahead)
    (run : ((system resWorldArea library).restrict (Obeys resWorldArea questArea)).Run
      travel last) :
    ∃ steps, last.entered = travel.entered ++ steps ∧
      (steps.map fun key => (resWorldArea key).szName).Sublist
        (ahead.map fun key => (resWorldArea key).szName) ∧
      ((resWorldArea last.area).szName ≠ questArea →
        last.move.globalAreas = travel.move.globalAreas ∧ steps.length < ahead.length) := by
  have sound := (invariant_sound resWorldArea library).of_reachable reached
  have along : ∃ steps, last.entered = travel.entered ++ steps ∧
      Along resWorldArea travel.move.globalAreas ahead steps last := by
    induction run with
    | refl =>
        refine ⟨[], (List.append_nil _).symm, ahead, stands, ?_, ?_, ?_⟩
        · exact List.Sublist.refl _
        · intro _
          refine ⟨rfl, sound.isMoving ?_⟩
          rcases stands with ⟨before, here, areas_eq, -⟩
          rw [areas_eq]
          simp
        · intro command key command_eq target_eq
          rcases sound.ordered command command_eq with ⟨tick, further, standsNow, fits⟩
          obtain rfl := standsBefore_unique stands standsNow
          exact target_mem fits target_eq
    | @step next last event run moves ih =>
        rcases ih with ⟨steps, entered_eq, along⟩
        rcases moves with ⟨obeys, moves⟩
        cases event with
        | questRun tick =>
            have same : last.entered = next.entered := moves.2.2.2
            exact ⟨steps, same.trans entered_eq, along.questRun distinct leads obeys moves⟩
        | enter area =>
            obtain rfl : last = _ := moves
            refine ⟨steps ++ [area], ?_, along.enter distinct obeys rfl rfl⟩
            rw [← List.append_assoc, ← entered_eq]
  rcases along with ⟨steps, entered_eq, rest, standsLast, sublist, kept, -⟩
  refine ⟨steps, entered_eq, (List.sublist_append_left _ _).trans sublist, ?_⟩
  intro away
  have rest_ne : rest ≠ [] := fun rest_eq =>
    away ((ahead_eq_nil_iff distinct leads standsLast).mp rest_eq)
  refine ⟨(kept rest_ne).1, ?_⟩
  have length_le := sublist.length_le
  simp only [List.length_append, List.length_map] at length_le
  have positive := List.length_pos_iff.mpr rest_ne
  omega

theorem travel_followsRoute_coast :
    ∃ steps, [(1 : Fin 4)] = [] ++ steps ∧
      (steps.map fun key => (coastAreas key).szName).Sublist
        ([1, 2].map fun key => (coastAreas key).szName) ∧
      ((coastAreas 1).szName ≠ "The Fetid Pool" →
        leavingCoast.move.globalAreas = leavingCoast.move.globalAreas ∧
          steps.length < [(1 : Fin 4), 2].length) := by
  have entering : ((system coastAreas (Dijkstra.listAlgorithms (Fin 4) ℚ)).restrict
      (Obeys coastAreas "The Fetid Pool")).step leavingCoast (.enter 1)
      { area := 1, move := { leavingCoast.move with command := none }, entered := [1] } :=
    ⟨⟨.entrance 1, 1, rfl, rfl, rfl⟩, rfl⟩
  exact travel_followsRoute (.step (.initial ⟨rfl, rfl⟩) leavesCoast) (by decide) rfl
    ⟨[], 0, rfl, rfl, nofun⟩ (.step .refl entering)

end Following

end Travel

end PoETask.Attach
