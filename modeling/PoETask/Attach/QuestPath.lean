import PoETask.Attach.Geometry
import PoETask.Library.StepSystem
import Mathlib.Logic.Function.Basic

/-!
# Following a path

`QuestRun` walks along a path, which is either the full path over the map or a path
to a target. It keeps a pointer to one of the two arrays, a size and the index of the
next point. The two arrays are rewritten whenever a path is searched, also when the
search fails and the pointer stays where it is.

A tick first chooses path and index, then lets its handlers act, and then moves. What
the searches find and what the handlers do depends on the observed game, so a tick
brings it along. The handlers touch the path in three ways only: a special door drops
it, a target path replaces it if no target is being followed, and each of the two ends
the tick. All reads at the index happen in the move, and one that is not backed by a
path point is a fault.

The move has one flaw. If the walker has been stuck for ten seconds on the full path
and finds no later point nearby, it drops the path and then reads it.
-/

namespace PoETask.Attach

open PoETask.Library

inductive TargetPathType where
  | none
  | gotoObject
  | gotoNpc
  | gotoDeadPos
  | gotoEntrance
  | gotoWaypoint
  | chaoPos
  deriving DecidableEq

/-- The array `_currentPath` points into. -/
inductive PathArray where
  | full
  | target
  deriving DecidableEq

/-- `NOINDEX`. -/
abbrev noIndex : ℕ := 4294967295

structure Walker where
  fullPath : ℕ → IVector
  fullPathSize : ℕ
  targetPath : ℕ → IVector
  targetPathSize : ℕ
  currentPath : Option PathArray
  currentPathSize : ℕ
  moveStep : ℕ
  targetPathType : TargetPathType
  prevMovePos : IVector
  prevMoveTick : ℕ

/-- What `FindTargetPath` does for one target: the points it writes, if it gets that far, and
its verdict. -/
structure TargetSearch where
  points : Option (List IVector)
  found : Bool
  deriving DecidableEq

/-- What a handler of the tick does, as far as it concerns the path. -/
inductive Errand where
  | acts
  | autoEquip
  | openSpecialDoor (isPassed : ℕ)
  | gotoTarget (pos : IVector) (kind : TargetPathType)
  | selectEntrance

/-- The observations of one tick. `findFullPath` is none while no map has been read; `errands` are
what the handlers between step selection and move find to do, in the order of the source. -/
structure Tick where
  now : ℕ
  gridPos : IVector
  newMapBlock : Bool
  leftAreaPart : Bool
  findFullPath : Option (List IVector)
  findTargetPath : IVector → TargetSearch
  iconsCache : List IVector
  posDead : Option IVector
  questFound : Bool
  areaPathFound : Bool
  errands : List Errand
  useForwardSkill : Bool

/-- How a piece of `QuestRun` ends. -/
inductive Flow where
  | fault
  | returned (walker : Walker)
  | goesOn (walker : Walker)

def Flow.andThen (flow : Flow) (rest : Walker → Flow) : Flow :=
  match flow with
  | .fault => .fault
  | .returned walker => .returned walker
  | .goesOn walker => rest walker

def writePoints (points : List IVector) (array : ℕ → IVector) : ℕ → IVector :=
  fun i => points.getD i (array i)

namespace Walker

def init : Walker where
  fullPath _ := ⟨0, 0⟩
  fullPathSize := 0
  targetPath _ := ⟨0, 0⟩
  targetPathSize := 0
  currentPath := none
  currentPathSize := 0
  moveStep := noIndex
  targetPathType := .none
  prevMovePos := ⟨0, 0⟩
  prevMoveTick := 0

def pathPoints (walker : Walker) : PathArray → ℕ → IVector
  | .full => walker.fullPath
  | .target => walker.targetPath

def readStep (walker : Walker) (rest : IVector → Flow) : Flow :=
  match walker.currentPath with
  | none => .fault
  | some array =>
      if walker.moveStep < walker.currentPathSize then
        rest (walker.pathPoints array walker.moveStep)
      else
        .fault

def initMove (walker : Walker) : Walker :=
  { walker with prevMovePos := ⟨0, 0⟩, prevMoveTick := 0 }

def loadFullPath (walker : Walker) (tick : Tick) : Walker :=
  match tick.findFullPath with
  | none =>
      { walker with
        currentPath := none, currentPathSize := walker.fullPathSize, moveStep := noIndex }
  | some points =>
      { walker with
        fullPath := writePoints points walker.fullPath, fullPathSize := points.length
        currentPath := some .full, currentPathSize := points.length, moveStep := noIndex }

/-- The effect of `FindTargetPath` on the target array. -/
def findTargetPath (walker : Walker) (tick : Tick) (posTarget : IVector) : Walker :=
  match (tick.findTargetPath posTarget).points with
  | none => walker
  | some points =>
      { walker with
        targetPath := writePoints points walker.targetPath, targetPathSize := points.length }

def loadTargetPath (walker : Walker) (tick : Tick) (posTarget : IVector) : Bool × Walker :=
  let searched := walker.findTargetPath tick posTarget
  if (tick.findTargetPath posTarget).found then
    (true, { searched with
      currentPath := some .target, currentPathSize := searched.targetPathSize
      moveStep := noIndex })
  else
    (false, searched)

/-- The search for the nearest point over some indices; ties go to the one tried last. -/
def nearestOf (gridPos : IVector) (points : ℕ → IVector) (indices : List ℕ) (distMin : ℤ) :
    ℤ × Option ℕ :=
  indices.foldl
    (fun best i =>
      if distSquared gridPos (points i) ≤ best.1 then
        (distSquared gridPos (points i), some i)
      else
        best)
    (distMin, none)

/-- New map, new area part, death: whatever replaces the path at the start of a tick. -/
def reload (walker : Walker) (tick : Tick) : Walker :=
  let reloaded :=
    if tick.newMapBlock || tick.leftAreaPart then
      tick.iconsCache.foldl (fun walker pos => walker.findTargetPath tick pos)
        (({ walker with targetPathType := .none }).loadFullPath tick)
    else
      walker
  match tick.posDead with
  | none => reloaded
  | some posDead =>
      let loaded := reloaded.loadTargetPath tick posDead
      if loaded.1 then
        { loaded.2 with targetPathType := .gotoDeadPos }
      else
        loaded.2

/-- Without a step, start from the nearest point of the path. -/
def locateStep (walker : Walker) (tick : Tick) (array : PathArray) : Flow :=
  if walker.moveStep = noIndex then
    match (nearestOf tick.gridPos (walker.pathPoints array)
        (List.range walker.currentPathSize).reverse (10 ^ 20)).2 with
    | none => .returned walker
    | some dwIndex => .goesOn { walker with moveStep := dwIndex }
  else
    .goesOn walker

/-- Past the last point a target path gives way to the full path, and the full path is dropped. -/
def checkArrival (walker : Walker) : Flow :=
  if walker.moveStep ≥ walker.currentPathSize then
    if walker.targetPathType ≠ .none then
      .returned { walker with
        currentPath := some .full, currentPathSize := walker.fullPathSize
        moveStep := noIndex, targetPathType := .none }
    else
      .returned { walker with currentPath := none }
  else
    .goesOn walker

def selectStep (walker : Walker) (tick : Tick) : Flow :=
  match walker.currentPath with
  | none => .returned (walker.loadFullPath tick)
  | some array => (walker.locateStep tick array).andThen checkArrival

def runErrand (walker : Walker) (tick : Tick) : Errand → Flow
  | .acts => .returned walker
  | .autoEquip => .returned { walker with prevMoveTick := tick.now }
  | .openSpecialDoor isPassed =>
      let opened := if isPassed = 3 then { walker with currentPath := none } else walker
      .returned { opened with prevMoveTick := tick.now }
  | .gotoTarget pos kind =>
      if walker.targetPathType = .none then
        let loaded := walker.loadTargetPath tick pos
        if loaded.1 then
          .returned { loaded.2 with targetPathType := kind }
        else
          .goesOn loaded.2
      else
        .goesOn walker
  | .selectEntrance =>
      if walker.targetPathType = .gotoEntrance ∧ walker.moveStep = walker.currentPathSize - 1 then
        .returned walker
      else
        .goesOn walker

def runErrands (walker : Walker) (tick : Tick) : List Errand → Flow
  | [] => .goesOn walker
  | errand :: later => (walker.runErrand tick errand).andThen fun walker =>
      walker.runErrands tick later

/-- `QuestRun` up to the move. -/
def chooseStep (walker : Walker) (tick : Tick) : Flow :=
  let reloaded := walker.reload tick
  if tick.questFound && tick.areaPathFound then
    (reloaded.selectStep tick).andThen fun walker => walker.runErrands tick tick.errands
  else
    .returned reloaded

/-- Stuck for ten seconds: go on from the nearest later point, or drop the full path. -/
def skipAhead (walker : Walker) (tick : Tick) : Walker :=
  match walker.currentPath with
  | none => walker
  | some array =>
      if walker.targetPathType = .none then
        let nearest := nearestOf tick.gridPos (walker.pathPoints array)
          (List.range' (walker.moveStep + 1)
            (walker.currentPathSize - (walker.moveStep + 1))).reverse (10 ^ 12)
        if nearest.2 = none ∨ nearest.1 > 10000 then
          { walker with currentPath := none, moveStep := noIndex }
        else
          { walker with moveStep := nearest.2.getD noIndex }
      else
        walker

/-- `MoveToPos(_currentPath[_moveStep])` at the end of the move. -/
def moveToStep (walker : Walker) : Flow := walker.readStep fun _ => .returned walker

/-- Stuck for four seconds: look for a way to the point, jump or stray. -/
def detour (walker : Walker) (tick : Tick) : Flow :=
  walker.readStep fun point =>
    let tried : Flow :=
      if distSquared tick.gridPos point > 14400 then
        walker.readStep fun point =>
          let loaded := walker.loadTargetPath tick point
          if loaded.1 then
            .returned { loaded.2 with targetPathType := .chaoPos }
          else
            .goesOn loaded.2
      else
        .goesOn walker
    tried.andThen fun walker =>
      walker.readStep fun _ =>
        if tick.useForwardSkill then
          .returned walker
        else
          walker.readStep fun _ => .returned walker

def move (walker : Walker) (tick : Tick) : Flow :=
  walker.readStep fun point =>
    if distSquared tick.gridPos point > 400 then
      if distSquared walker.prevMovePos tick.gridPos < 100 then
        if walker.prevMoveTick ≠ 0 ∧ tick.now > walker.prevMoveTick + 10000 then
          (walker.skipAhead tick).initMove.moveToStep
        else if walker.prevMoveTick ≠ 0 ∧ tick.now > walker.prevMoveTick + 4000 then
          walker.detour tick
        else
          walker.moveToStep
      else
        ({ walker with prevMovePos := tick.gridPos, prevMoveTick := tick.now }).moveToStep
    else
      .returned { walker with moveStep := (walker.moveStep + 1) % 2 ^ 32 }

section Nearest

variable {gridPos : IVector} {points : ℕ → IVector}

theorem nearestOf_cases (indices : List ℕ) (distMin : ℤ) :
    (nearestOf gridPos points indices distMin = (distMin, none) ∧
        ∀ i ∈ indices, distMin < distSquared gridPos (points i)) ∨
      ∃ i ∈ indices, nearestOf gridPos points indices distMin =
          (distSquared gridPos (points i), some i) ∧
        ∀ j ∈ indices, distSquared gridPos (points i) ≤ distSquared gridPos (points j) := by
  have along : ∀ (rest : List ℕ) (best : ℤ × Option ℕ),
      let result := rest.foldl
        (fun best i =>
          if distSquared gridPos (points i) ≤ best.1 then
            (distSquared gridPos (points i), some i)
          else
            best) best
      (result = best ∧ ∀ i ∈ rest, best.1 < distSquared gridPos (points i)) ∨
        ∃ i ∈ rest, result = (distSquared gridPos (points i), some i) ∧
          distSquared gridPos (points i) ≤ best.1 ∧
          ∀ j ∈ rest, distSquared gridPos (points i) ≤ distSquared gridPos (points j) := by
    intro rest
    induction rest with
    | nil =>
        intro best
        exact Or.inl ⟨rfl, fun i i_mem => absurd i_mem List.not_mem_nil⟩
    | cons head tail ih =>
        intro best
        by_cases nearer : distSquared gridPos (points head) ≤ best.1
        · right
          simp only [List.foldl_cons, if_pos nearer]
          rcases ih (distSquared gridPos (points head), some head) with
            ⟨kept, farther⟩ | ⟨i, i_mem, found, le_head, least⟩
          · refine ⟨head, List.mem_cons_self, kept, nearer, ?_⟩
            intro j j_mem
            rcases List.mem_cons.mp j_mem with rfl | j_tail
            · exact le_rfl
            · exact (farther j j_tail).le
          · refine ⟨i, List.mem_cons_of_mem _ i_mem, found, le_head.trans nearer, ?_⟩
            intro j j_mem
            rcases List.mem_cons.mp j_mem with rfl | j_tail
            · exact le_head
            · exact least j j_tail
        · simp only [List.foldl_cons, if_neg nearer]
          rcases ih best with ⟨kept, farther⟩ | ⟨i, i_mem, found, le_best, least⟩
          · left
            refine ⟨kept, ?_⟩
            intro j j_mem
            rcases List.mem_cons.mp j_mem with rfl | j_tail
            · exact not_le.mp nearer
            · exact farther j j_tail
          · right
            refine ⟨i, List.mem_cons_of_mem _ i_mem, found, le_best, ?_⟩
            intro j j_mem
            rcases List.mem_cons.mp j_mem with rfl | j_tail
            · exact le_best.trans (not_le.mp nearer).le
            · exact least j j_tail
  rcases along indices (distMin, none) with ⟨kept, farther⟩ | ⟨i, i_mem, found, -, least⟩
  · exact Or.inl ⟨kept, farther⟩
  · exact Or.inr ⟨i, i_mem, found, least⟩

end Nearest

def Ready (walker : Walker) : Prop :=
  walker.currentPath ≠ none ∧ walker.moveStep < walker.currentPathSize

theorem Ready.readStep_eq {walker : Walker} (ready : walker.Ready) {array : PathArray}
    (path_eq : walker.currentPath = some array) (rest : IVector → Flow) :
    walker.readStep rest = rest (walker.pathPoints array walker.moveStep) := by
  simp only [readStep, path_eq, if_pos ready.2]

theorem readStep_of_dropped {walker : Walker} (dropped : walker.currentPath = none)
    (rest : IVector → Flow) : walker.readStep rest = .fault := by
  simp only [readStep, dropped]

end Walker

/-- A piece of a tick that reads nothing at the step and goes on only with a step on the path. -/
def Flow.KeepsPath (flow : Flow) : Prop :=
  flow ≠ .fault ∧ ∀ next, flow = .goesOn next → next.Ready

namespace Walker

section Choosing

variable {walker : Walker} {tick : Tick}

theorem Ready.goesOn (ready : walker.Ready) : (Flow.goesOn walker).KeepsPath :=
  ⟨nofun, fun _ same => Flow.goesOn.inj same ▸ ready⟩

theorem returned_keepsPath (walker : Walker) : (Flow.returned walker).KeepsPath := ⟨nofun, nofun⟩

theorem checkArrival_keepsPath (onPath : walker.currentPath ≠ none) :
    walker.checkArrival.KeepsPath := by
  simp only [checkArrival]
  split_ifs with past following
  · exact returned_keepsPath _
  · exact returned_keepsPath _
  · exact Ready.goesOn ⟨onPath, not_le.mp past⟩

theorem selectStep_keepsPath (walker : Walker) (tick : Tick) :
    (walker.selectStep tick).KeepsPath := by
  simp only [selectStep]
  split
  · exact returned_keepsPath _
  · rename_i array path_eq
    have onPath : walker.currentPath ≠ none := path_eq ▸ Option.some_ne_none array
    simp only [locateStep]
    split
    · split
      · exact returned_keepsPath _
      · exact checkArrival_keepsPath onPath
    · exact checkArrival_keepsPath onPath

/-- A search that fails leaves pointer, size and step alone. -/
theorem Ready.loadTargetPath {pos : IVector} (ready : walker.Ready)
    (failed : (walker.loadTargetPath tick pos).1 = false) :
    (walker.loadTargetPath tick pos).2.Ready := by
  unfold Walker.loadTargetPath at failed ⊢
  simp only at failed ⊢
  split at failed
  · cases failed
  · rename_i notFound
    simp only [if_neg notFound]
    simp only [findTargetPath]
    split
    · exact ready
    · exact ready

theorem Ready.runErrand (ready : walker.Ready) (errand : Errand) :
    (walker.runErrand tick errand).KeepsPath := by
  cases errand with
  | acts => exact returned_keepsPath _
  | autoEquip => exact returned_keepsPath _
  | openSpecialDoor isPassed => exact returned_keepsPath _
  | gotoTarget pos kind =>
      simp only [Walker.runErrand]
      split_ifs with following found
      · exact returned_keepsPath _
      · exact (ready.loadTargetPath (Bool.eq_false_of_not_eq_true found)).goesOn
      · exact ready.goesOn
  | selectEntrance =>
      simp only [Walker.runErrand]
      split_ifs
      · exact returned_keepsPath _
      · exact ready.goesOn

theorem Ready.runErrands (errands : List Errand) (ready : walker.Ready) :
    (walker.runErrands tick errands).KeepsPath := by
  induction errands generalizing walker with
  | nil => exact ready.goesOn
  | cons errand later ih =>
      have kept : (walker.runErrand tick errand).KeepsPath := ready.runErrand errand
      simp only [Walker.runErrands]
      cases ran : walker.runErrand tick errand with
      | fault => exact absurd ran kept.1
      | returned done => exact returned_keepsPath done
      | goesOn after => exact ih (kept.2 after ran)

/-- The choice never reads at the step, and where it goes on the next step is on the path. -/
theorem chooseStep_keepsPath (walker : Walker) (tick : Tick) :
    (walker.chooseStep tick).KeepsPath := by
  unfold chooseStep
  simp only
  split
  · rcases (walker.reload tick).selectStep_keepsPath tick with ⟨noFault, goesOn⟩
    cases chosen : (walker.reload tick).selectStep tick with
    | fault => exact absurd chosen noFault
    | returned done => exact returned_keepsPath done
    | goesOn after => exact (goesOn after chosen).runErrands tick.errands
  · exact returned_keepsPath _

end Choosing

/-- Stuck for ten seconds on the full path with no later point nearby. -/
def StuckOnFullPath (walker : Walker) (tick : Tick) : Prop :=
  ∃ array, walker.currentPath = some array ∧
    400 < distSquared tick.gridPos (walker.pathPoints array walker.moveStep) ∧
    distSquared walker.prevMovePos tick.gridPos < 100 ∧
    walker.prevMoveTick ≠ 0 ∧ walker.prevMoveTick + 10000 < tick.now ∧
    walker.targetPathType = .none ∧
    ∀ i, walker.moveStep < i → i < walker.currentPathSize →
      10000 < distSquared tick.gridPos (walker.pathPoints array i)

section Moving

variable {walker : Walker} {tick : Tick} {array : PathArray}

theorem mem_later {i : ℕ} :
    i ∈ (List.range' (walker.moveStep + 1)
        (walker.currentPathSize - (walker.moveStep + 1))).reverse ↔
      walker.moveStep < i ∧ i < walker.currentPathSize := by
  simp only [List.mem_reverse, List.mem_range'_1]
  omega

/-- Skipping ahead keeps a path to read unless every later point is too far away. -/
theorem Ready.skipAhead (ready : walker.Ready) (path_eq : walker.currentPath = some array) :
    ((walker.skipAhead tick).currentPath = none ∧ walker.targetPathType = .none ∧
        ∀ i, walker.moveStep < i → i < walker.currentPathSize →
          10000 < distSquared tick.gridPos (walker.pathPoints array i)) ∨
      ((walker.skipAhead tick).Ready ∧ ¬ (walker.targetPathType = .none ∧
        ∀ i, walker.moveStep < i → i < walker.currentPathSize →
          10000 < distSquared tick.gridPos (walker.pathPoints array i))) := by
  simp only [Walker.skipAhead]
  simp only [path_eq]
  by_cases following : walker.targetPathType = .none
  · simp only [if_pos following]
    rcases nearestOf_cases (List.range' (walker.moveStep + 1)
        (walker.currentPathSize - (walker.moveStep + 1))).reverse (10 ^ 12) with
      ⟨nothing, farther⟩ | ⟨i, i_mem, found, least⟩
    · left
      rw [nothing, if_pos (Or.inl rfl)]
      refine ⟨rfl, following, ?_⟩
      intro i after inside
      have far := farther i (mem_later.mpr ⟨after, inside⟩)
      omega
    · have bounds := mem_later.mp i_mem
      by_cases far : distSquared tick.gridPos (walker.pathPoints array i) > 10000
      · left
        rw [found, if_pos (Or.inr far)]
        refine ⟨rfl, following, ?_⟩
        intro j after inside
        exact lt_of_lt_of_le far (least j (mem_later.mpr ⟨after, inside⟩))
      · right
        rw [found, if_neg (by simp [far])]
        refine ⟨⟨?_, bounds.2⟩, ?_⟩
        · exact path_eq ▸ Option.some_ne_none array
        · rintro ⟨-, allFar⟩
          exact far (allFar i bounds.1 bounds.2)
  · simp only [if_neg following]
    exact Or.inr ⟨ready, fun stuck => following stuck.1⟩

theorem Ready.moveToStep_ne_fault (ready : walker.Ready) : walker.moveToStep ≠ .fault := by
  rcases Option.ne_none_iff_exists'.mp ready.1 with ⟨array, path_eq⟩
  simp only [moveToStep, ready.readStep_eq path_eq]
  exact nofun

theorem Ready.detour_ne_fault (ready : walker.Ready) : walker.detour tick ≠ .fault := by
  have stray : ∀ after : Walker, after.Ready → (after.readStep fun _ =>
      if tick.useForwardSkill then
        .returned after
      else
        after.readStep fun _ => .returned after) ≠ .fault := by
    intro after afterReady
    rcases Option.ne_none_iff_exists'.mp afterReady.1 with ⟨array, path_eq⟩
    rw [afterReady.readStep_eq path_eq, afterReady.readStep_eq path_eq]
    split <;> exact nofun
  rcases Option.ne_none_iff_exists'.mp ready.1 with ⟨array, path_eq⟩
  rw [detour, ready.readStep_eq path_eq]
  simp only
  split
  · simp only [ready.readStep_eq path_eq]
    cases found : (walker.loadTargetPath tick (walker.pathPoints array walker.moveStep)).1 with
    | true => exact nofun
    | false => exact stray _ (ready.loadTargetPath found)
  · exact stray walker ready

/-- The move reads behind the path exactly when the walker is stuck on the full path. -/
theorem Ready.move_eq_fault_iff (ready : walker.Ready) :
    walker.move tick = .fault ↔ walker.StuckOnFullPath tick := by
  rcases Option.ne_none_iff_exists'.mp ready.1 with ⟨array, path_eq⟩
  simp only [move, ready.readStep_eq path_eq]
  have stuck_iff : walker.StuckOnFullPath tick ↔
      400 < distSquared tick.gridPos (walker.pathPoints array walker.moveStep) ∧
      distSquared walker.prevMovePos tick.gridPos < 100 ∧
      (walker.prevMoveTick ≠ 0 ∧ tick.now > walker.prevMoveTick + 10000) ∧
      walker.targetPathType = .none ∧
      ∀ i, walker.moveStep < i → i < walker.currentPathSize →
        10000 < distSquared tick.gridPos (walker.pathPoints array i) := by
    simp only [StuckOnFullPath]
    constructor
    · rintro ⟨other, other_eq, away, still, ticked, late, following, far⟩
      simp only [path_eq] at other_eq
      cases other_eq
      exact ⟨away, still, ⟨ticked, late⟩, following, far⟩
    · rintro ⟨away, still, ⟨ticked, late⟩, following, far⟩
      exact ⟨array, path_eq, away, still, ticked, late, following, far⟩
  simp only [stuck_iff]
  by_cases away : distSquared tick.gridPos (walker.pathPoints array walker.moveStep) > 400
  · simp only [if_pos away]
    by_cases still : distSquared walker.prevMovePos tick.gridPos < 100
    · simp only [if_pos still]
      by_cases late : walker.prevMoveTick ≠ 0 ∧ tick.now > walker.prevMoveTick + 10000
      · simp only [if_pos late]
        rcases ready.skipAhead path_eq with ⟨dropped, following, far⟩ | ⟨skipped, notStuck⟩
        · have initialized : (walker.skipAhead tick).initMove.currentPath = none := dropped
          exact ⟨fun _ => ⟨away, still, late, following, far⟩,
            fun _ => readStep_of_dropped initialized _⟩
        · have initialized : ((walker.skipAhead tick).initMove).Ready := skipped
          refine ⟨fun faulted => absurd faulted initialized.moveToStep_ne_fault, ?_⟩
          rintro ⟨-, -, -, stuck⟩
          exact absurd stuck notStuck
      · simp only [if_neg late]
        refine ⟨fun faulted => ?_, fun stuck => absurd stuck.2.2.1 late⟩
        split at faulted
        · exact absurd faulted ready.detour_ne_fault
        · exact absurd faulted ready.moveToStep_ne_fault
    · simp only [if_neg still]
      have recorded : ({ walker with
          prevMovePos := tick.gridPos, prevMoveTick := tick.now } : Walker).Ready := ready
      exact ⟨fun faulted => absurd faulted recorded.moveToStep_ne_fault,
        fun stuck => absurd stuck.2.1 still⟩
  · simp only [if_neg away]
    exact ⟨nofun, fun stuck => absurd stuck.1 away⟩

end Moving

end Walker

/-- Where a run of ticks stands: between two ticks, before the move of a tick, or after a read that
no path point backs. -/
inductive Stage where
  | between (walker : Walker)
  | atMove (tick : Tick) (walker : Walker)
  | faulted

inductive QuestEvent where
  | chooseStep (tick : Tick)
  | move

namespace Stage

/-- The first half of a tick. -/
def afterChoice (tick : Tick) : Flow → Stage
  | .fault => .faulted
  | .returned walker => .between walker
  | .goesOn walker => .atMove tick walker

def afterMove : Flow → Stage
  | .fault => .faulted
  | .returned walker => .between walker
  | .goesOn walker => .between walker

end Stage

def questRun : StepSystem Stage QuestEvent where
  initial stage := stage = .between Walker.init
  step stage event next :=
    match stage, event with
    | .between walker, .chooseStep tick => next = .afterChoice tick (walker.chooseStep tick)
    | .atMove tick walker, .move => next = .afterMove (walker.move tick)
    | _, _ => False

/-- The condition under which a step keeps to the path: no move starts stuck on the full path. -/
def NotStuck (stage : Stage) (_event : QuestEvent) : Prop :=
  ∀ tick walker, stage = .atMove tick walker → ¬ walker.StuckOnFullPath tick

def Stage.OnPath : Stage → Prop
  | .between _ => True
  | .atMove _ walker => walker.Ready
  | .faulted => False

theorem invariant_onPath : (questRun.restrict NotStuck).Invariant Stage.OnPath where
  initial stage isInitial := by
    obtain rfl : stage = .between Walker.init := isInitial
    trivial
  step stage event next onPath moves := by
    rcases moves with ⟨notStuck, moves⟩
    cases stage with
    | between walker =>
        cases event with
        | chooseStep tick =>
            obtain rfl : next = .afterChoice tick (walker.chooseStep tick) := moves
            rcases walker.chooseStep_keepsPath tick with ⟨noFault, ready⟩
            cases chosen : walker.chooseStep tick with
            | fault => exact absurd chosen noFault
            | returned done => trivial
            | goesOn chosenWalker => exact ready chosenWalker chosen
        | move => exact moves.elim
    | atMove tick walker =>
        cases event with
        | chooseStep other => exact moves.elim
        | move =>
            obtain rfl : next = .afterMove (walker.move tick) := moves
            have ready : walker.Ready := onPath
            cases moved : walker.move tick with
            | fault => exact absurd (ready.move_eq_fault_iff.mp moved) (notStuck tick walker rfl)
            | returned done => trivial
            | goesOn done => trivial
    | faulted => exact onPath.elim

/-- In a run no move of which starts stuck on the full path, every read of the current path at the
current step is a read of a path point. -/
theorem path_reads_inside {stage : Stage}
    (reached : (questRun.restrict NotStuck).Reachable stage) : stage ≠ .faulted := by
  have onPath := invariant_onPath.of_reachable reached
  intro isFaulted
  simp only [isFaulted] at onPath
  exact onPath

/-- A tick of a player who stands thirty points off the start of a two-point path. -/
def standingTick (now : ℕ) (newMapBlock : Bool) : Tick where
  now := now
  gridPos := ⟨30, 0⟩
  newMapBlock := newMapBlock
  leftAreaPart := false
  findFullPath := some [⟨0, 0⟩, ⟨1000, 0⟩]
  findTargetPath _ := { points := none, found := false }
  iconsCache := []
  posDead := none
  questFound := true
  areaPathFound := true
  errands := []
  useForwardSkill := false

def standingWalker : Walker :=
  { Walker.init with
    fullPath := writePoints [⟨0, 0⟩, ⟨1000, 0⟩] Walker.init.fullPath, fullPathSize := 2
    currentPath := some .full, currentPathSize := 2, moveStep := 0 }

def recordedWalker : Walker := { standingWalker with prevMovePos := ⟨30, 0⟩, prevMoveTick := 1 }

theorem standing_chooses : questRun.step (.between Walker.init) (.chooseStep (standingTick 1 true))
    (.atMove (standingTick 1 true) standingWalker) := rfl

theorem standing_moves : questRun.step (.atMove (standingTick 1 true) standingWalker) .move
    (.between recordedWalker) := rfl

/-- The first tick on a new map chooses a step and moves. -/
theorem path_reads_inside_standing :
    (questRun.restrict NotStuck).Reachable (.between recordedWalker) ∧
      Stage.between recordedWalker ≠ .faulted := by
  have notStuck : NotStuck (.atMove (standingTick 1 true) standingWalker) .move := by
    rintro tick walker same ⟨array, -, -, -, ticked, -⟩
    cases same
    exact ticked rfl
  have chosen : (questRun.restrict NotStuck).Reachable
      (.atMove (standingTick 1 true) standingWalker) := by
    apply StepSystem.Reachable.step (.initial rfl)
    refine ⟨?_, standing_chooses⟩
    intro tick walker impossible
    cases impossible
  have moved : (questRun.restrict NotStuck).Reachable (.between recordedWalker) := by
    apply StepSystem.Reachable.step chosen
    exact ⟨notStuck, standing_moves⟩
  exact ⟨moved, path_reads_inside moved⟩

/-- The player does not get away for twenty seconds; the next move drops the full path and then
reads it. -/
theorem path_read_after_drop : ¬ ∀ stage, questRun.Reachable stage → stage ≠ .faulted := by
  intro claimed
  have chosen : questRun.Reachable (.atMove (standingTick 1 true) standingWalker) :=
    .step (.initial rfl) standing_chooses
  have moved : questRun.Reachable (.between recordedWalker) := .step chosen standing_moves
  have later : questRun.step (.between recordedWalker) (.chooseStep (standingTick 20000 false))
      (.atMove (standingTick 20000 false) recordedWalker) := rfl
  have drops : questRun.step (.atMove (standingTick 20000 false) recordedWalker) .move .faulted :=
    rfl
  exact claimed _ (.step (.step moved later) drops) rfl

end PoETask.Attach
