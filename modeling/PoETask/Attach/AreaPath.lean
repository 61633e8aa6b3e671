import PoETask.Attach.ShortestRoute
import Mathlib.Algebra.Order.Ring.Rat
import Mathlib.Data.List.FinRange
import Mathlib.Tactic.Linarith
import Mathlib.Tactic.NormNum

/-!
# Routes over the world

`FindAreaPath` looks for the way from one area of the world to another one. It builds a
graph over the table of all areas: a connection costs 1, and between any two areas whose
waypoints can be used there is an edge of cost 1.1 unless they are connected anyway. On
this graph it runs the Dijkstra search.

Areas are addressed by name, and several have the same one; the first of them counts.
Costs are taken as exact numbers.
-/

namespace PoETask.Attach

open PoETask.Library

/-- `PoEResWorldArea`, as far as the moves between areas read it. -/
structure ResWorldArea where
  szName : String
  bAct : UInt8
  bIsTown : Bool
  pdwConnectionsList : List ℕ
  dwID : UInt32

section Graph

variable {count : ℕ} (resWorldArea : Fin count → ResWorldArea) (teleportFieldIds : List UInt32)

def areaIndex (areaName : String) : Option (Fin count) :=
  (List.finRange count).find? fun i => (resWorldArea i).szName = areaName

/-- The area can be reached from every waypoint. -/
def Teleports (i : Fin count) : Prop := (resWorldArea i).dwID ∈ teleportFieldIds

instance (i : Fin count) : Decidable (Teleports resWorldArea teleportFieldIds i) :=
  inferInstanceAs (Decidable (_ ∈ _))

def connections (i : Fin count) : List (Fin count × ℚ) :=
  (resWorldArea i).pdwConnectionsList.filterMap fun key =>
    if inside : key < count then some (⟨key, inside⟩, 1) else none

def waypoints (i : Fin count) : List (Fin count × ℚ) :=
  if Teleports resWorldArea teleportFieldIds i then
    ((List.finRange count).filter fun j =>
      i ≠ j ∧ Teleports resWorldArea teleportFieldIds j ∧
        (j : ℕ) ∉ (resWorldArea i).pdwConnectionsList).map fun j => (j, 11 / 10)
  else
    []

def getChildren (i : Fin count) : List (Fin count × ℚ) :=
  connections resWorldArea i ++ waypoints resWorldArea teleportFieldIds i

/-- `FindAreaPath`; the nodes are new ones, and the search object has been cleared. -/
def findAreaPath (library : StdAlgorithms (Fin count) ℚ) (fuel : ℕ) (startArea endArea : String) :
    Option (List (Fin count)) :=
  match areaIndex resWorldArea startArea, areaIndex resWorldArea endArea with
  | some startIndex, some endIndex =>
      (Dijkstra.findPath library (getChildren resWorldArea teleportFieldIds) fuel Dijkstra.fresh
        startIndex endIndex).map fun found => found.1.getD []
  | _, _ => some []

end Graph

section Edges

variable {count : ℕ} {resWorldArea : Fin count → ResWorldArea} {teleportFieldIds : List UInt32}
  {i j : Fin count} {cost : ℚ}

theorem mem_connections :
    (j, cost) ∈ connections resWorldArea i ↔
      (j : ℕ) ∈ (resWorldArea i).pdwConnectionsList ∧ cost = 1 := by
  simp only [connections, List.mem_filterMap]
  constructor
  · rintro ⟨key, key_mem, found⟩
    split at found
    · cases found
      exact ⟨key_mem, rfl⟩
    · cases found
  · rintro ⟨key_mem, rfl⟩
    exact ⟨j, key_mem, by simp⟩

theorem mem_waypoints :
    (j, cost) ∈ waypoints resWorldArea teleportFieldIds i ↔
      Teleports resWorldArea teleportFieldIds i ∧ i ≠ j ∧
        Teleports resWorldArea teleportFieldIds j ∧
        (j : ℕ) ∉ (resWorldArea i).pdwConnectionsList ∧ cost = 11 / 10 := by
  simp only [waypoints]
  split
  · rename_i teleports
    simp only [List.mem_map, List.mem_filter, List.mem_finRange, true_and, decide_eq_true_eq,
      Prod.mk.injEq]
    constructor
    · rintro ⟨other, ⟨different, otherTeleports, apart⟩, rfl, rfl⟩
      exact ⟨teleports, different, otherTeleports, apart, rfl⟩
    · rintro ⟨-, different, otherTeleports, apart, rfl⟩
      exact ⟨j, ⟨different, otherTeleports, apart⟩, rfl, rfl⟩
  · rename_i notTeleports
    exact ⟨fun absurd_mem => absurd absurd_mem List.not_mem_nil,
      fun impossible => absurd impossible.1 notTeleports⟩

/-- Every edge is a connection of cost 1 or leads from waypoint to waypoint at cost 1.1. -/
theorem edge_cases (edge : (j, cost) ∈ getChildren resWorldArea teleportFieldIds i) :
    cost = 1 ∨ Teleports resWorldArea teleportFieldIds i ∧
      Teleports resWorldArea teleportFieldIds j ∧ cost = 11 / 10 := by
  rcases List.mem_append.mp edge with connection | waypoint
  · exact .inl (mem_connections.mp connection).2
  · rcases mem_waypoints.mp waypoint with ⟨teleports, -, otherTeleports, -, cost_eq⟩
    exact .inr ⟨teleports, otherTeleports, cost_eq⟩

theorem one_le_edge : ∀ i edge, edge ∈ getChildren resWorldArea teleportFieldIds i →
    (1 : ℚ) ≤ edge.2 := by
  rintro i ⟨j, cost⟩ edge
  rcases edge_cases edge with rfl | ⟨-, -, rfl⟩
  · exact le_rfl
  · norm_num

/-- From waypoint to waypoint there is always a direct way. -/
theorem exists_edge (teleports : Teleports resWorldArea teleportFieldIds i)
    (otherTeleports : Teleports resWorldArea teleportFieldIds j) (different : i ≠ j) :
    ∃ cost ≤ (11 / 10 : ℚ), (j, cost) ∈ getChildren resWorldArea teleportFieldIds i := by
  by_cases connected : (j : ℕ) ∈ (resWorldArea i).pdwConnectionsList
  · exact ⟨1, by norm_num, List.mem_append_left _ (mem_connections.mpr ⟨connected, rfl⟩)⟩
  · refine ⟨11 / 10, le_rfl, List.mem_append_right _ ?_⟩
    exact mem_waypoints.mpr ⟨teleports, different, otherTeleports, connected, rfl⟩

end Edges

section Routes

variable {count : ℕ} {resWorldArea : Fin count → ResWorldArea} {teleportFieldIds : List UInt32}
  {start goal : Fin count} {route : List (Fin count)}

/-- A walk of `moves` moves need not cost more than that, or more than a tenth above it where a
waypoint has been met. -/
theorem exists_cheap_walk {w : ℚ} {path : List (Fin count)}
    (walk : Walk (getChildren resWorldArea teleportFieldIds) start goal w path) :
    (∃ cost other, Walk (getChildren resWorldArea teleportFieldIds) start goal cost other ∧
        cost ≤ (path.length - 1 : ℕ)) ∨
      ∃ hub, Teleports resWorldArea teleportFieldIds hub ∧
        (∃ cost other, Walk (getChildren resWorldArea teleportFieldIds) start hub cost other ∧
          cost ≤ (path.length - 1 : ℕ)) ∧
        ∃ cost other, Walk (getChildren resWorldArea teleportFieldIds) start goal cost other ∧
          cost ≤ (path.length - 1 : ℕ) + 1 / 10 := by
  induction walk with
  | nil => exact .inl ⟨0, [start], .nil, by simp⟩
  | @snoc u v c w path walk edge ih =>
      have moves_eq : (((path ++ [v]).length - 1 : ℕ) : ℚ) = (path.length - 1 : ℕ) + 1 := by
        have positive : 0 < path.length := List.length_pos_iff.mpr walk.ne_nil
        have length_eq : (path ++ [v]).length - 1 = (path.length - 1) + 1 := by
          simp only [List.length_append, List.length_singleton]
          omega
        rw [length_eq, Nat.cast_add_one]
      simp only [moves_eq]
      rcases edge_cases edge with rfl | ⟨teleports, otherTeleports, rfl⟩
      · rcases ih with ⟨cost, other, cheap, cost_le⟩ |
          ⟨hub, hubTeleports, ⟨cost, other, toHub, cost_le⟩, total, onward, cheap, total_le⟩
        · exact .inl ⟨_, _, .snoc cheap edge, by linarith⟩
        · refine .inr ⟨hub, hubTeleports, ⟨cost, other, toHub, by linarith⟩, ?_⟩
          exact ⟨_, _, .snoc cheap edge, by linarith⟩
      · rcases ih with ⟨cost, other, cheap, cost_le⟩ |
          ⟨hub, hubTeleports, ⟨cost, other, toHub, cost_le⟩, -⟩
        · refine .inr ⟨u, teleports, ⟨cost, other, cheap, by linarith⟩, ?_⟩
          exact ⟨_, _, .snoc cheap edge, by linarith⟩
        · by_cases same : hub = v
          · subst same
            exact .inl ⟨cost, other, toHub, by linarith⟩
          · rcases exists_edge hubTeleports otherTeleports same with ⟨direct, direct_le, jump⟩
            refine .inr ⟨hub, hubTeleports, ⟨cost, other, toHub, by linarith⟩, ?_⟩
            exact ⟨_, _, .snoc toHub jump, by linarith⟩

theorem exists_walk_le {w : ℚ} {path : List (Fin count)}
    (walk : Walk (getChildren resWorldArea teleportFieldIds) start goal w path) :
    ∃ cost other, Walk (getChildren resWorldArea teleportFieldIds) start goal cost other ∧
      cost ≤ (path.length - 1 : ℕ) + 1 / 10 := by
  rcases exists_cheap_walk walk with ⟨cost, other, cheap, cost_le⟩ | ⟨-, -, -, found⟩
  · exact ⟨cost, other, cheap, by linarith⟩
  · exact found

theorem moves_le_cost {w : ℚ} {path : List (Fin count)}
    (walk : Walk (getChildren resWorldArea teleportFieldIds) start goal w path) :
    ((path.length - 1 : ℕ) : ℚ) ≤ w := by
  have bound := walk.le_cost one_le_edge
  simpa using bound

/-- A cheapest route makes the fewest moves, and at most one of them by waypoint beyond the
connections. -/
theorem fewest_moves
    (cheapest : Walk.Cheapest (getChildren resWorldArea teleportFieldIds) start goal route) :
    (∃ w, Walk (getChildren resWorldArea teleportFieldIds) start goal w route ∧
        w ≤ (route.length - 1 : ℕ) + 1 / 10) ∧
      ∀ cost other, Walk (getChildren resWorldArea teleportFieldIds) start goal cost other →
        route.length ≤ other.length := by
  rcases cheapest with ⟨w, walk, least⟩
  refine ⟨⟨w, walk, ?_⟩, ?_⟩
  · rcases exists_walk_le walk with ⟨cost, other, cheap, cost_le⟩
    exact (least cost other cheap).trans cost_le
  · intro cost other otherWalk
    rcases exists_walk_le otherWalk with ⟨cheapCost, cheapPath, cheap, cost_le⟩
    have moves_lt : ((route.length - 1 : ℕ) : ℚ) < ((other.length - 1 : ℕ) : ℚ) + 1 := by
      have within := (moves_le_cost walk).trans ((least _ _ cheap).trans cost_le)
      linarith
    have positive : 0 < other.length := List.length_pos_iff.mpr otherWalk.ne_nil
    have moves_le : route.length - 1 < (other.length - 1) + 1 := by exact_mod_cast moves_lt
    omega

/-- Two usable waypoints on a cheapest route follow each other. -/
theorem waypoints_adjacent {before between after : List (Fin count)} {i j : Fin count}
    (cheapest : Walk.Cheapest (getChildren resWorldArea teleportFieldIds) start goal route)
    (route_eq : route = before ++ i :: (between ++ j :: after))
    (teleports : Teleports resWorldArea teleportFieldIds i)
    (otherTeleports : Teleports resWorldArea teleportFieldIds j) : between = [] ∧ i ≠ j := by
  rcases cheapest.middle route_eq with ⟨w, walk, least⟩
  have moves_le := moves_le_cost walk
  have moves_eq : (i :: (between ++ [j])).length - 1 = between.length + 1 := by simp
  rw [moves_eq, Nat.cast_add_one] at moves_le
  have length_nonneg : (0 : ℚ) ≤ between.length := Nat.cast_nonneg _
  have different : i ≠ j := by
    rintro rfl
    have stays := least 0 [i] .nil
    linarith
  refine ⟨?_, different⟩
  rcases exists_edge teleports otherTeleports different with ⟨cost, cost_le, jump⟩
  have direct := least cost _ (.of_edge jump)
  have short : (between.length : ℚ) < 1 := by linarith
  have length_eq : between.length < 1 := by exact_mod_cast short
  exact List.length_eq_zero_iff.mp (by omega)

end Routes

section Search

variable {count : ℕ} (resWorldArea : Fin count → ResWorldArea) (teleportFieldIds : List UInt32)
  (library : StdAlgorithms (Fin count) ℚ)

/-- What `FindAreaPath` returns. -/
def FindsAreaPath (startArea endArea : String) (globalAreas : List (Fin count)) : Prop :=
  ∃ enough, ∀ fuel, enough ≤ fuel →
    findAreaPath resWorldArea teleportFieldIds library fuel startArea endArea = some globalAreas

variable {resWorldArea teleportFieldIds library}

theorem FindsAreaPath.unique {startArea endArea : String} {globalAreas other : List (Fin count)}
    (found : FindsAreaPath resWorldArea teleportFieldIds library startArea endArea globalAreas)
    (otherFound : FindsAreaPath resWorldArea teleportFieldIds library startArea endArea other) :
    globalAreas = other := by
  rcases found with ⟨enough, runs⟩
  rcases otherFound with ⟨otherEnough, otherRuns⟩
  have same := (runs (max enough otherEnough) (le_max_left _ _)).symm.trans
    (otherRuns (max enough otherEnough) (le_max_right _ _))
  exact Option.some.inj same

theorem reconstructPath_of_le {search : Dijkstra (Fin count) ℚ} {fuel more : ℕ} {node : Fin count}
    {path : List (Fin count)} (found : search.reconstructPath fuel node = some path)
    (fuel_le : fuel ≤ more) : search.reconstructPath more node = some path := by
  induction fuel generalizing node path more with
  | zero => cases found
  | succ fuel ih =>
      cases more with
      | zero => exact absurd fuel_le (by omega)
      | succ more =>
          simp only [Dijkstra.reconstructPath] at found ⊢
          split at found
          · exact found
          · rcases Option.map_eq_some_iff.mp found with ⟨front, front_eq, rfl⟩
            rw [ih front_eq (by omega), Option.map_some]

theorem searchLoop_of_le {edges : Fin count → List (Fin count × ℚ)} {goal : Fin count}
    {search : Dijkstra (Fin count) ℚ} {fuel more : ℕ}
    {answer : Option (List (Fin count)) × Dijkstra (Fin count) ℚ}
    (ends : Dijkstra.searchLoop library edges goal fuel search = some answer)
    (fuel_le : fuel ≤ more) : Dijkstra.searchLoop library edges goal more search = some answer := by
  induction fuel generalizing search more with
  | zero => cases ends
  | succ fuel ih =>
      cases more with
      | zero => exact absurd fuel_le (by omega)
      | succ more =>
          simp only [Dijkstra.searchLoop] at ends ⊢
          split at ends
          · exact ends
          · split at ends
            · rename_i isGoal
              rcases Option.map_eq_some_iff.mp ends with ⟨path, path_eq, rfl⟩
              rw [if_pos isGoal, reconstructPath_of_le path_eq (by omega), Option.map_some]
            · rename_i notGoal
              rw [if_neg notGoal]
              exact ih ends (by omega)

/-- More fuel finds the same. -/
theorem findAreaPath_of_le {fuel more : ℕ} {startArea endArea : String}
    {globalAreas : List (Fin count)}
    (found : findAreaPath resWorldArea teleportFieldIds library fuel startArea endArea =
      some globalAreas) (fuel_le : fuel ≤ more) :
    findAreaPath resWorldArea teleportFieldIds library more startArea endArea =
      some globalAreas := by
  simp only [findAreaPath] at found ⊢
  split at found
  · rcases Option.map_eq_some_iff.mp found with ⟨answer, answer_eq, rfl⟩
    rcases Option.map_eq_some_iff.mp answer_eq with ⟨reversed, reversed_eq, rfl⟩
    simp only [Dijkstra.findPath, Dijkstra.getPath] at reversed_eq ⊢
    rw [searchLoop_of_le reversed_eq fuel_le]
    rfl
  · exact found

/-- The search on fresh nodes comes to an answer. -/
theorem findPath_answers (start goal : Fin count) : ∃ solution search enough,
    (∀ fuel, enough ≤ fuel →
      Dijkstra.findPath library (getChildren resWorldArea teleportFieldIds) fuel Dijkstra.fresh
        start goal = some (solution, search)) ∧
    Dijkstra.Answers (getChildren resWorldArea teleportFieldIds) start goal solution search := by
  have nonneg : ∀ i edge, edge ∈ getChildren resWorldArea teleportFieldIds i → 0 ≤ edge.2 :=
    fun i edge edge_mem => zero_le_one.trans (one_le_edge i edge edge_mem)
  rcases (Dijkstra.searching_begun library (getChildren resWorldArea teleportFieldIds) start
    goal).searchLoop library nonneg with ⟨solution, search, enough, runs, answers⟩
  refine ⟨solution.map List.reverse, search, enough, ?_, answers⟩
  intro fuel suffices_le
  have ran := runs fuel suffices_le
  change (Dijkstra.searchLoop library _ goal fuel (Dijkstra.begun library start)).map _ = _
  simp only [ran]
  rfl

/-- A route is found between the first areas of the two names exactly when one is reachable from
the other, and then it is a cheapest one. -/
theorem exists_findsAreaPath (startArea endArea : String) : ∃ globalAreas,
    FindsAreaPath resWorldArea teleportFieldIds library startArea endArea globalAreas ∧
    (globalAreas ≠ [] ↔ ∃ start goal w path, areaIndex resWorldArea startArea = some start ∧
      areaIndex resWorldArea endArea = some goal ∧
      Walk (getChildren resWorldArea teleportFieldIds) start goal w path) ∧
    (globalAreas ≠ [] → ∃ start goal, areaIndex resWorldArea startArea = some start ∧
      areaIndex resWorldArea endArea = some goal ∧
      Walk.Cheapest (getChildren resWorldArea teleportFieldIds) start goal globalAreas) := by
  cases start_eq : areaIndex resWorldArea startArea with
  | none =>
      refine ⟨[], ⟨0, fun fuel _ => by simp only [findAreaPath, start_eq]⟩, ?_, nofun⟩
      exact ⟨nofun, fun ⟨_, _, _, _, impossible, _⟩ => nomatch impossible⟩
  | some start =>
      cases goal_eq : areaIndex resWorldArea endArea with
      | none =>
          refine ⟨[], ⟨0, fun fuel _ => by simp only [findAreaPath, start_eq, goal_eq]⟩, ?_, nofun⟩
          exact ⟨nofun, fun ⟨_, _, _, _, _, impossible, _⟩ => nomatch impossible⟩
      | some goal =>
          rcases @findPath_answers _ resWorldArea teleportFieldIds library start goal with
            ⟨solution, search, enough, runs, answers⟩
          refine ⟨solution.getD [], ⟨enough, ?_⟩, ?_, ?_⟩
          · intro fuel suffices_le
            simp only [findAreaPath, start_eq, goal_eq, runs fuel suffices_le, Option.map_some]
          · constructor
            · intro found
              cases solution with
              | none => exact absurd rfl found
              | some route =>
                  rcases answers.minimal route rfl with ⟨w, walk, -⟩
                  exact ⟨start, goal, w, route, rfl, rfl, walk⟩
            · rintro ⟨_, _, w, path, ⟨⟩, ⟨⟩, walk⟩
              rcases Option.isSome_iff_exists.mp (answers.found_iff.mpr ⟨w, path, walk⟩) with
                ⟨route, rfl⟩
              rcases answers.minimal route rfl with ⟨_, routeWalk, -⟩
              exact routeWalk.ne_nil
          · intro found
            cases solution with
            | none => exact absurd rfl found
            | some route => exact ⟨start, goal, rfl, rfl, answers.minimal route rfl⟩

/-- `FindAreaPath` always returns. It returns a route between the first areas of the two names
exactly when there is one, and then one with the fewest moves of all, at most one of them by
waypoint where there is no connection; usable waypoints on the route follow each other directly,
so that there are at most two of them. -/
theorem findAreaPath_fewest (startArea endArea : String) : ∃ globalAreas,
    FindsAreaPath resWorldArea teleportFieldIds library startArea endArea globalAreas ∧
    (globalAreas ≠ [] ↔ ∃ start goal w path, areaIndex resWorldArea startArea = some start ∧
      areaIndex resWorldArea endArea = some goal ∧
      Walk (getChildren resWorldArea teleportFieldIds) start goal w path) ∧
    (globalAreas ≠ [] → ∃ start goal, areaIndex resWorldArea startArea = some start ∧
      areaIndex resWorldArea endArea = some goal ∧
      (∃ w, Walk (getChildren resWorldArea teleportFieldIds) start goal w globalAreas ∧
        w ≤ (globalAreas.length - 1 : ℕ) + 1 / 10) ∧
      (∀ cost other, Walk (getChildren resWorldArea teleportFieldIds) start goal cost other →
        globalAreas.length ≤ other.length) ∧
      ∀ before i between j after, globalAreas = before ++ i :: (between ++ j :: after) →
        Teleports resWorldArea teleportFieldIds i → Teleports resWorldArea teleportFieldIds j →
        between = [] ∧ i ≠ j) := by
  rcases @exists_findsAreaPath _ resWorldArea teleportFieldIds library startArea endArea with
    ⟨globalAreas, found, found_iff, cheapest⟩
  refine ⟨globalAreas, found, found_iff, ?_⟩
  intro found_ne
  rcases cheapest found_ne with ⟨start, goal, start_eq, goal_eq, route⟩
  refine ⟨start, goal, start_eq, goal_eq, (fewest_moves route).1, (fewest_moves route).2, ?_⟩
  intro before i between j after route_eq teleports otherTeleports
  exact waypoints_adjacent route route_eq teleports otherTeleports

end Search

end PoETask.Attach
