import PoETask.Attach.BlockMap
import PoETask.Library.GraphSearch
import Mathlib.Algebra.Order.Ring.Abs
import Mathlib.Data.List.Nodup
import Mathlib.Tactic.IntervalCases

/-!
# The raw path

`CalcRawPath`: a depth-first trace over the cells that share the byte of the start cell. The
list it returns holds every cell in the order of its discovery. It stops at the end cell; when
the end cell is out of reach it runs until the stack is empty.
-/

namespace PoETask.Attach

def pnDirectX : List ℤ := [-1, 0, 1, 1, 1, 0, -1, -1]

def pnDirectY : List ℤ := [-1, -1, -1, 0, 1, 1, 1, 0]

def towards (c : IVector) (k : ℕ) : IVector where
  x := c.x + pnDirectX.getD k 0
  y := c.y + pnDirectY.getD k 0

/-- `pnDir`: the directions by their closeness to the end cell, from its offset `diff`. -/
def pnDir (diff : IVector) : Option (List ℕ) :=
  if diff.x < 0 then
    if diff.y < 0 then some [0, 1, 7, 2, 6, 3, 5, 4]
    else if 0 < diff.y then some [6, 7, 5, 0, 4, 1, 3, 2]
    else some [7, 0, 6, 1, 5, 2, 4, 3]
  else if 0 < diff.x then
    if diff.y < 0 then some [2, 1, 3, 0, 4, 7, 5, 6]
    else if 0 < diff.y then some [4, 3, 5, 2, 6, 7, 1, 0]
    else some [3, 2, 4, 1, 5, 0, 6, 7]
  else
    if diff.y < 0 then some [1, 0, 2, 7, 3, 6, 5, 4]
    else if 0 < diff.y then some [5, 6, 4, 7, 3, 0, 2, 1]
    else none

/-- The buffers of the trace; the top of the stack comes first. -/
structure Trace where
  pbTemp : List BYTE
  pnStack : List ℤ
  pPoints : List IVector

namespace BlockMap

variable (map : BlockMap)

/-- The corner cells that the `roundScan` variant leaves out. -/
def cornered (nSeed : BYTE) (c : IVector) : Bool :=
  let up := decide (map.cell ⟨c.x, c.y + 1⟩ ≠ nSeed)
  let down := decide (map.cell ⟨c.x, c.y - 1⟩ ≠ nSeed)
  let right := decide (map.cell ⟨c.x + 1, c.y⟩ ≠ nSeed)
  let left := decide (map.cell ⟨c.x - 1, c.y⟩ ≠ nSeed)
  decide (0 < c.x ∧ c.x < map.mapWidth - 1 ∧ 0 < c.y ∧ c.y < map.mapHeight - 1) &&
    (up && right || down && right || up && left || down && left)

/-- The loop over the directions; it breaks with an empty stack when it discovers the end. -/
def scanDirections (nSeed : BYTE) (roundScan : Bool) (current nEnd : IVector) :
    List ℕ → Trace → Trace
  | [], trace => trace
  | k :: rest, trace =>
      let next := towards current k
      if next.x < 0 ∨ map.mapWidth ≤ next.x then
        scanDirections nSeed roundScan current nEnd rest trace
      else if next.y < 0 ∨ map.mapHeight < next.y then
        scanDirections nSeed roundScan current nEnd rest trace
      else if readByte trace.pbTemp (map.index next) ≠ nSeed then
        scanDirections nSeed roundScan current nEnd rest trace
      else
        let marked := trace.pbTemp.set (map.index next).toNat blocked
        if roundScan && map.cornered nSeed next then
          scanDirections nSeed roundScan current nEnd rest { trace with pbTemp := marked }
        else
          let points := trace.pPoints ++ [next]
          if next = nEnd then { pbTemp := marked, pnStack := [], pPoints := points }
          else
            scanDirections nSeed roundScan current nEnd rest
              { pbTemp := marked, pnStack := map.index next :: trace.pnStack, pPoints := points }

/-- The turns of the main loop; `none` when the fuel runs out. -/
def traceLoop (nSeed : BYTE) (roundScan : Bool) (nEnd : IVector) :
    ℕ → IVector → Trace → Option (List IVector)
  | 0, _, _ => none
  | fuel + 1, current, trace =>
      match pnDir ⟨nEnd.x - current.x, nEnd.y - current.y⟩ with
      | none => some trace.pPoints
      | some directions =>
          let scanned :=
            map.scanDirections nSeed roundScan current nEnd directions.reverse trace
          match scanned.pnStack with
          | [] => some scanned.pPoints
          | top :: rest =>
              traceLoop nSeed roundScan nEnd fuel
                ⟨top.tmod map.mapWidth, top.tdiv map.mapWidth⟩ { scanned with pnStack := rest }

/-- A cell is pushed at most once, so the loop makes at most one turn a cell. -/
def calcRawPath (nStart nEnd : IVector) (roundScan : Bool) : Option (List IVector) :=
  if map.mapWidth = 0 ∨ map.mapHeight = 0 then some []
  else if map.cell nStart = blocked then some []
  else
    map.traceLoop (map.cell nStart) roundScan nEnd (map.mapWidth * map.mapHeight) nStart
      { pbTemp := map.blockBuffer.set (map.index nStart).toNat blocked
        pnStack := []
        pPoints := [nStart] }

theorem Passable.calcRawPath_eq {map : BlockMap} {nStart nEnd : IVector} {roundScan : Bool}
    (isPassable : map.Passable nStart) :
    map.calcRawPath nStart nEnd roundScan
      = map.traceLoop 0 roundScan nEnd (map.mapWidth * map.mapHeight) nStart
        { pbTemp := map.blockBuffer.set (map.index nStart).toNat blocked
          pnStack := []
          pPoints := [nStart] } := by
  rw [calcRawPath, if_neg isPassable.1.notEmpty, if_neg isPassable.notBlocked, isPassable.2]

end BlockMap

theorem pnDir_perm {diff : IVector} {directions : List ℕ} (isTable : pnDir diff = some directions) :
    directions.Perm (List.range 8) := by
  simp only [pnDir] at isTable
  split_ifs at isTable <;>
    · rcases isTable
      decide

theorem pnDir_lt {diff : IVector} {directions : List ℕ} (isTable : pnDir diff = some directions) :
    ∀ k ∈ directions.reverse, k < 8 := by
  intro k isDirection
  exact List.mem_range.mp ((pnDir_perm isTable).mem_iff.mp (List.mem_reverse.mp isDirection))

theorem pnDir_eq_none {u v : IVector} : pnDir ⟨v.x - u.x, v.y - u.y⟩ = none ↔ u = v := by
  cases u
  cases v
  simp only [pnDir, IVector.mk.injEq]
  split_ifs <;> simp <;> omega

theorem towards_neighbours {k : ℕ} (isDirection : k < 8) (c : IVector) :
    Neighbours c (towards c k) := by
  interval_cases k <;>
    simp [Neighbours, towards, pnDirectX, pnDirectY, IVector.ext_iff, abs_one]

theorem exists_towards {u v : IVector} (neighbours : Neighbours u v) :
    ∃ k < 8, towards u k = v := by
  rcases neighbours with ⟨different, column, row⟩
  have columns : v.x = u.x - 1 ∨ v.x = u.x ∨ v.x = u.x + 1 := by
    simp only [abs_le] at column
    omega
  have rows : v.y = u.y - 1 ∨ v.y = u.y ∨ v.y = u.y + 1 := by
    simp only [abs_le] at row
    omega
  simp only [ne_eq, IVector.ext_iff] at different
  simp only [IVector.ext_iff]
  rcases columns with left | middle | right <;> rcases rows with down | same | up
  · exact ⟨0, by decide, left.symm, down.symm⟩
  · exact ⟨7, by decide, left.symm, by simp [towards, pnDirectY, same]⟩
  · exact ⟨6, by decide, left.symm, up.symm⟩
  · exact ⟨1, by decide, by simp [towards, pnDirectX, middle], down.symm⟩
  · exact absurd ⟨middle.symm, same.symm⟩ different
  · exact ⟨5, by decide, by simp [towards, pnDirectX, middle], up.symm⟩
  · exact ⟨2, by decide, right.symm, down.symm⟩
  · exact ⟨3, by decide, right.symm, by simp [towards, pnDirectY, same]⟩
  · exact ⟨4, by decide, right.symm, up.symm⟩

/-- The temporary buffer holds the map with the discovered cells blocked. -/
structure Marked (map : BlockMap) (trace : Trace) : Prop where
  length : trace.pbTemp.length = map.blockBuffer.length
  passable : ∀ c ∈ trace.pPoints, map.Passable c
  read : ∀ {c : IVector}, 0 ≤ c.x → c.x < map.mapWidth → 0 ≤ c.y →
    readByte trace.pbTemp (map.index c) = if c ∈ trace.pPoints then blocked else map.cell c

namespace Marked

variable {map : BlockMap} {trace : Trace} {next : IVector}

theorem untouched (map : BlockMap) :
    Marked map { pbTemp := map.blockBuffer, pnStack := [], pPoints := [] } :=
  ⟨rfl, fun _ isPoint => absurd isPoint List.not_mem_nil, fun _ _ _ => rfl⟩

theorem undiscovered (marked : Marked map trace) (left : 0 ≤ next.x)
    (right : next.x < map.mapWidth) (bottom : 0 ≤ next.y)
    (isSeed : readByte trace.pbTemp (map.index next) = 0) :
    next ∉ trace.pPoints ∧ map.Passable next := by
  simp only [marked.read left right bottom] at isSeed
  split_ifs at isSeed with discovered
  · exact absurd isSeed (by decide)
  · refine ⟨discovered, BlockMap.inside_of_cell left right bottom ?_, isSeed⟩
    simp only [isSeed]
    decide

theorem isSeed (marked : Marked map trace) (isPassable : map.Passable next)
    (notDiscovered : next ∉ trace.pPoints) :
    readByte trace.pbTemp (map.index next) = 0 := by
  simp only [marked.read isPassable.1.1 isPassable.1.2.1 isPassable.1.2.2.1, if_neg notDiscovered]
  exact isPassable.2

theorem discover (marked : Marked map trace) (isPassable : map.Passable next)
    (stack : List ℤ) :
    Marked map
      { pbTemp := trace.pbTemp.set (map.index next).toNat blocked
        pnStack := stack
        pPoints := trace.pPoints ++ [next] } where
  length := by rw [List.length_set, marked.length]
  passable c isPoint := by
    rcases List.mem_append.mp isPoint with old | new
    · exact marked.passable c old
    · simp only [List.mem_singleton.mp new]
      exact isPassable
  read {c} left right bottom := by
    have inBuffer : (map.index next).toNat < trace.pbTemp.length := by
      simp only [marked.length]
      exact isPassable.1.index_lt
    rw [readByte_set isPassable.1.index_nonneg (BlockMap.index_nonneg left bottom) inBuffer,
      marked.read left right bottom]
    by_cases isNext : c = next
    · simp [isNext]
    · have otherIndex : map.index c ≠ map.index next := by
        intro sameIndex
        exact isNext
          (BlockMap.index_inj left right isPassable.1.1 isPassable.1.2.1 sameIndex)
      simp [otherIndex, isNext]

theorem count (marked : Marked map trace) (isPassable : map.Passable next)
    (notDiscovered : next ∉ trace.pPoints) :
    (trace.pbTemp.set (map.index next).toNat blocked).count 0 + 1 = trace.pbTemp.count 0 := by
  have inBuffer : (map.index next).toNat < trace.pbTemp.length := by
    simp only [marked.length]
    exact isPassable.1.index_lt
  have isZero : trace.pbTemp[(map.index next).toNat] = 0 := by
    have zero := marked.isSeed isPassable notDiscovered
    simp only [readByte, List.getD_eq_getElem _ _ inBuffer] at zero
    exact zero
  have present : 0 < trace.pbTemp.count 0 :=
    List.count_pos_iff.mpr (isZero ▸ List.getElem_mem inBuffer)
  have notZero : (blocked == 0) = false := by decide
  simp only [List.count_set inBuffer, isZero, notZero, beq_self_eq_true, if_true,
    Bool.false_eq_true, if_false]
  omega

end Marked

/-- What the loop over the directions does to the buffers when it discovers `found`. -/
structure Scanned (map : BlockMap) (current nEnd : IVector) (directions : List ℕ)
    (trace scanned : Trace) (found : List IVector) : Prop where
  marked : Marked map scanned
  points : scanned.pPoints = trace.pPoints ++ found
  neighbours : ∀ c ∈ found, Neighbours current c
  count : scanned.pbTemp.count 0 + found.length = trace.pbTemp.count 0
  reached : nEnd ∈ found → scanned.pnStack = [] ∧ scanned.pPoints.getLast? = some nEnd
  pushed : nEnd ∉ found → scanned.pnStack = (found.map map.index).reverse ++ trace.pnStack
  covered : nEnd ∉ found → ∀ k ∈ directions, map.Passable (towards current k) →
    towards current k ∈ scanned.pPoints

namespace Scanned

variable {map : BlockMap} {current nEnd : IVector} {k : ℕ} {rest : List ℕ}
variable {trace scanned : Trace} {found : List IVector}

theorem nothing (marked : Marked map trace) :
    Scanned map current nEnd [] trace trace [] where
  marked := marked
  points := (List.append_nil _).symm
  neighbours _ isFound := absurd isFound List.not_mem_nil
  count := rfl
  reached isFound := absurd isFound List.not_mem_nil
  pushed _ := rfl
  covered _ _ isDirection := absurd isDirection List.not_mem_nil

theorem skip (skipped : map.Passable (towards current k) → towards current k ∈ trace.pPoints)
    (scans : Scanned map current nEnd rest trace scanned found) :
    Scanned map current nEnd (k :: rest) trace scanned found :=
  { scans with
    covered := by
      intro notReached direction isDirection isPassable
      rcases List.mem_cons.mp isDirection with isFirst | isLater
      · subst isFirst
        simp only [scans.points]
        exact List.mem_append_left _ (skipped isPassable)
      · exact scans.covered notReached direction isLater isPassable }

theorem reach (marked : Marked map trace) (isDirection : k < 8)
    (isPassable : map.Passable (towards current k))
    (notDiscovered : towards current k ∉ trace.pPoints) (isEnd : towards current k = nEnd) :
    Scanned map current nEnd (k :: rest) trace
      { pbTemp := trace.pbTemp.set (map.index (towards current k)).toNat blocked
        pnStack := []
        pPoints := trace.pPoints ++ [towards current k] } [towards current k] where
  marked := marked.discover isPassable []
  points := rfl
  neighbours c isFound := by
    simp only [List.mem_singleton.mp isFound]
    exact towards_neighbours isDirection current
  count := marked.count isPassable notDiscovered
  reached _ := ⟨rfl, by rw [List.getLast?_concat, isEnd]⟩
  pushed notReached := absurd (List.mem_singleton.mpr isEnd.symm) notReached
  covered notReached := absurd (List.mem_singleton.mpr isEnd.symm) notReached

theorem push (marked : Marked map trace) (isDirection : k < 8)
    (isPassable : map.Passable (towards current k))
    (notDiscovered : towards current k ∉ trace.pPoints) (notEnd : towards current k ≠ nEnd)
    (scans : Scanned map current nEnd rest
      { pbTemp := trace.pbTemp.set (map.index (towards current k)).toNat blocked
        pnStack := map.index (towards current k) :: trace.pnStack
        pPoints := trace.pPoints ++ [towards current k] } scanned found) :
    Scanned map current nEnd (k :: rest) trace scanned (towards current k :: found) where
  marked := scans.marked
  points := by rw [scans.points, List.append_assoc, List.singleton_append]
  neighbours c isFound := by
    rcases List.mem_cons.mp isFound with isFirst | isLater
    · simp only [isFirst]
      exact towards_neighbours isDirection current
    · exact scans.neighbours c isLater
  count := by
    have countRest : scanned.pbTemp.count 0 + found.length
        = (trace.pbTemp.set (map.index (towards current k)).toNat blocked).count 0 := scans.count
    have countMarked := marked.count isPassable notDiscovered
    simp only [List.length_cons]
    omega
  reached isFound := by
    apply scans.reached
    rcases List.mem_cons.mp isFound with isFirst | isLater
    · exact absurd isFirst.symm notEnd
    · exact isLater
  pushed notReached := by
    simp only [scans.pushed fun isLater => notReached (List.mem_cons_of_mem _ isLater)]
    simp
  covered notReached direction isDirection' isPassable' := by
    rcases List.mem_cons.mp isDirection' with isFirst | isLater
    · subst isFirst
      simp only [scans.points]
      simp
    · exact scans.covered (fun isFound => notReached (List.mem_cons_of_mem _ isFound))
        direction isLater isPassable'

end Scanned

theorem BlockMap.scanDirections_scanned {map : BlockMap} {directions : List ℕ}
    (areDirections : ∀ k ∈ directions, k < 8) (current nEnd : IVector) {trace : Trace}
    (marked : Marked map trace) :
    ∃ found, Scanned map current nEnd directions trace
      (map.scanDirections 0 false current nEnd directions trace) found := by
  induction directions generalizing trace with
  | nil => exact ⟨[], .nothing marked⟩
  | cons k rest scansRest =>
      have restDirections : ∀ k ∈ rest, k < 8 :=
        fun k isLater => areDirections k (List.mem_cons_of_mem _ isLater)
      simp only [scanDirections]
      simp only [Bool.false_and, Bool.false_eq_true, if_false]
      split_ifs with outsideColumn outsideRow notSeed isEnd
      · rcases scansRest restDirections marked with ⟨found, scans⟩
        refine ⟨found, scans.skip ?_⟩
        intro isPassable
        have := isPassable.1.1
        have := isPassable.1.2.1
        omega
      · rcases scansRest restDirections marked with ⟨found, scans⟩
        refine ⟨found, scans.skip ?_⟩
        intro isPassable
        have := isPassable.1.2.2.1
        have := isPassable.1.2.2.2
        omega
      · rcases scansRest restDirections marked with ⟨found, scans⟩
        refine ⟨found, scans.skip ?_⟩
        intro isPassable
        by_contra notDiscovered
        exact notSeed (marked.isSeed isPassable notDiscovered)
      · rcases marked.undiscovered (by omega) (by omega) (by omega) (not_not.mp notSeed)
          with ⟨notDiscovered, isPassable⟩
        exact ⟨_, .reach marked (areDirections k List.mem_cons_self) isPassable
          notDiscovered isEnd⟩
      · rcases marked.undiscovered (by omega) (by omega) (by omega) (not_not.mp notSeed)
          with ⟨notDiscovered, isPassable⟩
        rcases scansRest restDirections (marked.discover isPassable _) with ⟨found, scans⟩
        exact ⟨_, scans.push marked (areDirections k List.mem_cons_self) isPassable
          notDiscovered isEnd⟩

/-- Lists in which every cell after the first is a neighbour of an earlier one. -/
inductive Grown : List IVector → Prop where
  | start (c : IVector) : Grown [c]
  | discover {points : List IVector} {parent next : IVector} (grown : Grown points)
      (isPoint : parent ∈ points) (neighbours : Neighbours parent next) :
      Grown (points ++ [next])

namespace Grown

theorem append {points found : List IVector} {parent : IVector} (grown : Grown points)
    (isPoint : parent ∈ points) (neighbours : ∀ c ∈ found, Neighbours parent c) :
    Grown (points ++ found) := by
  induction found generalizing points with
  | nil => rwa [List.append_nil]
  | cons next rest growsRest =>
      rw [← List.singleton_append, ← List.append_assoc]
      apply growsRest
      · exact grown.discover isPoint (neighbours next List.mem_cons_self)
      · exact List.mem_append_left _ isPoint
      · intro c isLater
        exact neighbours c (List.mem_cons_of_mem _ isLater)

theorem exists_parent {points : List IVector} (grown : Grown points)
    {before after : List IVector} {next : IVector} (split : points = before ++ next :: after)
    (notFirst : before ≠ []) : ∃ parent ∈ before, Neighbours parent next := by
  induction grown generalizing after with
  | start c =>
      have : ([c] : List IVector).length = (before ++ next :: after).length := by rw [split]
      simp only [List.length_append, List.length_cons, List.length_nil] at this
      have := List.length_pos_iff.mpr notFirst
      omega
  | @discover points parent last _ isPoint neighbours parentBefore =>
      rcases List.eq_nil_or_concat after with isLast | ⟨rest, final, isConcat⟩
      · subst isLast
        rcases List.append_inj' split rfl with ⟨samePoints, sameNext⟩
        rw [← samePoints, ← List.head_eq_of_cons_eq sameNext]
        exact ⟨parent, isPoint, neighbours⟩
      · rw [isConcat, List.concat_eq_append, ← List.cons_append, ← List.append_assoc] at split
        exact parentBefore (List.append_inj' split rfl).1

end Grown

/-- The list that a finished trace returns. -/
structure RawTrace (map : BlockMap) (nStart nEnd : IVector) (raw : List IVector) : Prop where
  first : raw.head? = some nStart
  passable : ∀ c ∈ raw, map.Passable c
  connected : ∀ c ∈ raw, map.Connected nStart c
  grown : Grown raw
  reached : nEnd ∈ raw → raw.getLast? = some nEnd
  complete : nEnd ∉ raw → ∀ c, map.Connected nStart c → c ∈ raw

theorem RawTrace.last_of_connected {map : BlockMap} {nStart nEnd : IVector} {raw : List IVector}
    (isTrace : RawTrace map nStart nEnd raw) (connected : map.Connected nStart nEnd) :
    raw.getLast? = some nEnd := by
  apply isTrace.reached
  by_contra notReached
  exact notReached (isTrace.complete notReached nEnd connected)

/-- The state of the trace between two turns of the main loop, with the cells on the stack. -/
structure Searching (map : BlockMap) (nStart nEnd current : IVector) (pending : List IVector)
    (trace : Trace) : Prop where
  marked : Marked map trace
  stack : trace.pnStack = pending.map map.index
  explored : GraphSearch.Explored map.Walks nStart (· ∈ trace.pPoints) (· ∈ current :: pending)
  notReached : nEnd ∉ trace.pPoints
  first : trace.pPoints.head? = some nStart
  grown : Grown trace.pPoints

namespace Searching

variable {map : BlockMap} {nStart nEnd current : IVector} {pending : List IVector}
variable {directions : List ℕ} {trace scanned : Trace} {found : List IVector}

theorem current_discovered (searching : Searching map nStart nEnd current pending trace) :
    current ∈ trace.pPoints :=
  searching.explored.pending_discovered List.mem_cons_self

theorem walks_found (searching : Searching map nStart nEnd current pending trace)
    (scans : Scanned map current nEnd directions trace scanned found) {c : IVector}
    (isFound : c ∈ found) : map.Walks current c := by
  refine ⟨searching.marked.passable _ searching.current_discovered, ?_,
    scans.neighbours c isFound⟩
  apply scans.marked.passable
  simp only [scans.points]
  exact List.mem_append_right _ isFound

theorem first_scanned (searching : Searching map nStart nEnd current pending trace)
    (scans : Scanned map current nEnd directions trace scanned found) :
    scanned.pPoints.head? = some nStart := by
  simp only [scans.points, List.head?_append, searching.first]
  rfl

theorem grown_scanned (searching : Searching map nStart nEnd current pending trace)
    (scans : Scanned map current nEnd directions trace scanned found) :
    Grown scanned.pPoints := by
  simp only [scans.points]
  exact searching.grown.append searching.current_discovered scans.neighbours

theorem connected_scanned (searching : Searching map nStart nEnd current pending trace)
    (scans : Scanned map current nEnd directions trace scanned found) :
    ∀ c ∈ scanned.pPoints, map.Connected nStart c := by
  intro c isPoint
  simp only [scans.points] at isPoint
  rcases List.mem_append.mp isPoint with old | isFound
  · exact searching.explored.reachable old
  · exact searching.explored.reachable_of_adjacent searching.current_discovered
      (searching.walks_found scans isFound)

theorem finish (searching : Searching map nStart nEnd current pending trace)
    (scans : Scanned map current nEnd directions trace scanned found)
    (isFound : nEnd ∈ found) : RawTrace map nStart nEnd scanned.pPoints where
  first := searching.first_scanned scans
  passable := scans.marked.passable
  connected := searching.connected_scanned scans
  grown := searching.grown_scanned scans
  reached _ := (scans.reached isFound).2
  complete notReached := by
    apply absurd _ notReached
    simp only [scans.points]
    exact List.mem_append_right _ isFound

theorem notReached_scanned (searching : Searching map nStart nEnd current pending trace)
    (scans : Scanned map current nEnd directions trace scanned found) (notFound : nEnd ∉ found) :
    nEnd ∉ scanned.pPoints := by
  simp only [scans.points]
  intro isPoint
  rcases List.mem_append.mp isPoint with old | isFound
  · exact searching.notReached old
  · exact notFound isFound

/-- Any other scan expands the current cell. -/
theorem explored_scanned (searching : Searching map nStart nEnd current pending trace)
    (scans : Scanned map current nEnd directions trace scanned found) (notFound : nEnd ∉ found)
    (allDirections : ∀ k < 8, k ∈ directions) :
    GraphSearch.Explored map.Walks nStart (· ∈ scanned.pPoints)
      (· ∈ found.reverse ++ pending) := by
  apply searching.explored.expand searching.current_discovered
  · intro other old
    simp only [scans.points]
    exact List.mem_append_left _ old
  · intro next walks
    rcases exists_towards walks.2.2 with ⟨k, isDirection, isTowards⟩
    rw [← isTowards]
    apply scans.covered notFound k (allDirections k isDirection)
    simp only [isTowards]
    exact walks.2.1
  · intro other isPoint
    simp only [scans.points] at isPoint
    exact (List.mem_append.mp isPoint).imp_right (searching.walks_found scans)
  · intro other isPending notCurrent
    apply List.mem_append_right
    exact (List.mem_cons.mp isPending).resolve_left notCurrent
  · intro other isPoint new
    simp only [scans.points] at isPoint
    apply List.mem_append_left
    simp only [List.mem_reverse]
    exact (List.mem_append.mp isPoint).resolve_left new
  · intro other isPending
    simp only [scans.points]
    rcases List.mem_append.mp isPending with isFound | old
    · exact List.mem_append_right _ (List.mem_reverse.mp isFound)
    · exact List.mem_append_left _
        (searching.explored.pending_discovered (List.mem_cons_of_mem _ old))

theorem exhaust (searching : Searching map nStart nEnd current pending trace)
    (scans : Scanned map current nEnd directions trace scanned found) (notFound : nEnd ∉ found)
    (allDirections : ∀ k < 8, k ∈ directions) (isEmpty : found.reverse ++ pending = []) :
    RawTrace map nStart nEnd scanned.pPoints where
  first := searching.first_scanned scans
  passable := scans.marked.passable
  connected := searching.connected_scanned scans
  grown := searching.grown_scanned scans
  reached isPoint := absurd isPoint (searching.notReached_scanned scans notFound)
  complete _ c connected := by
    have explored := searching.explored_scanned scans notFound allDirections
    apply explored.discovered_of_reachable _ connected
    intro node isPending
    simp only [isEmpty] at isPending
    exact List.not_mem_nil isPending

theorem pop (searching : Searching map nStart nEnd current pending trace)
    (scans : Scanned map current nEnd directions trace scanned found) (notFound : nEnd ∉ found)
    (allDirections : ∀ k < 8, k ∈ directions) {next : IVector} {rest : List IVector}
    (isTop : found.reverse ++ pending = next :: rest) :
    Searching map nStart nEnd next rest { scanned with pnStack := rest.map map.index } := by
  have marked := scans.marked
  have explored := searching.explored_scanned scans notFound allDirections
  have notReached := searching.notReached_scanned scans notFound
  have first := searching.first_scanned scans
  have grown := searching.grown_scanned scans
  simp only [isTop] at explored
  exact ⟨⟨marked.length, marked.passable, marked.read⟩, rfl, explored, notReached, first, grown⟩

theorem inside_current (searching : Searching map nStart nEnd current pending trace) :
    map.Inside current :=
  (searching.marked.passable _ searching.current_discovered).1

end Searching

/-- Enough fuel is one turn for each cell that is on the stack or still to be discovered. -/
theorem BlockMap.traceLoop_rawTrace {map : BlockMap} {nStart nEnd current : IVector}
    {pending : List IVector} {trace : Trace}
    (searching : Searching map nStart nEnd current pending trace) {fuel : ℕ}
    (enough : trace.pbTemp.count 0 + pending.length < fuel) :
    ∃ raw, map.traceLoop 0 false nEnd fuel current trace = some raw
      ∧ RawTrace map nStart nEnd raw := by
  induction fuel generalizing current pending trace with
  | zero => exact absurd enough (Nat.not_lt_zero _)
  | succ fuel runs =>
      simp only [traceLoop]
      cases table : pnDir ⟨nEnd.x - current.x, nEnd.y - current.y⟩ with
      | none =>
          have atEnd := pnDir_eq_none.mp table
          exact absurd (atEnd ▸ searching.current_discovered) searching.notReached
      | some directions =>
          have allDirections : ∀ k < 8, k ∈ directions.reverse := by
            intro k isDirection
            exact List.mem_reverse.mpr
              ((pnDir_perm table).mem_iff.mpr (List.mem_range.mpr isDirection))
          rcases scanDirections_scanned (pnDir_lt table) current nEnd searching.marked
            with ⟨found, scans⟩
          simp only
          generalize map.scanDirections 0 false current nEnd directions.reverse trace = scanned
            at scans ⊢
          by_cases isFound : nEnd ∈ found
          · simp only [(scans.reached isFound).1]
            exact ⟨scanned.pPoints, rfl, searching.finish scans isFound⟩
          · have stack : scanned.pnStack = (found.reverse ++ pending).map map.index := by
              simp only [scans.pushed isFound, searching.stack, List.map_append, List.map_reverse]
            cases isTop : found.reverse ++ pending with
            | nil =>
                simp only [stack, isTop]
                exact ⟨scanned.pPoints, rfl,
                  searching.exhaust scans isFound allDirections isTop⟩
            | cons next rest =>
                have searchingNext := searching.pop scans isFound allDirections isTop
                simp only [stack, isTop]
                simp only [List.map_cons]
                simp only [searchingNext.inside_current.decode]
                apply runs searchingNext
                have := scans.count
                have := congrArg List.length isTop
                simp only [List.length_append, List.length_reverse, List.length_cons] at this
                simp only
                omega

theorem Searching.init {map : BlockMap} {nStart nEnd : IVector}
    (isPassable : map.Passable nStart) (notEnd : nStart ≠ nEnd) :
    Searching map nStart nEnd nStart []
      { pbTemp := map.blockBuffer.set (map.index nStart).toNat blocked
        pnStack := []
        pPoints := [nStart] } where
  marked := by
    have unmarked : Marked map { pbTemp := map.blockBuffer, pnStack := [], pPoints := [] } :=
      ⟨rfl, fun _ isPoint => absurd isPoint List.not_mem_nil, fun _ _ _ => rfl⟩
    exact unmarked.discover isPassable []
  stack := rfl
  explored := by
    have explored : GraphSearch.Explored map.Walks nStart (· = nStart) (· = nStart) := .init
    simpa only [List.mem_singleton] using explored
  notReached isPoint := notEnd (List.mem_singleton.mp isPoint).symm
  first := rfl
  grown := .start nStart

theorem RawTrace.init {map : BlockMap} {nStart : IVector} (isPassable : map.Passable nStart) :
    RawTrace map nStart nStart [nStart] where
  first := rfl
  passable c isPoint := by
    simp only [List.mem_singleton.mp isPoint]
    exact isPassable
  connected c isPoint := by
    simp only [List.mem_singleton.mp isPoint]
    exact .refl
  grown := .start nStart
  reached _ := rfl
  complete notReached := absurd (List.mem_singleton.mpr rfl) notReached

/-- From a passable cell the trace finishes, at the end cell when it is connected. -/
theorem BlockMap.calcRawPath_rawTrace {map : BlockMap} {nStart : IVector} (nEnd : IVector)
    (isPassable : map.Passable nStart) :
    ∃ raw, map.calcRawPath nStart nEnd false = some raw ∧ RawTrace map nStart nEnd raw := by
  rw [isPassable.calcRawPath_eq]
  by_cases atEnd : nStart = nEnd
  · subst atEnd
    have positive : map.mapWidth * map.mapHeight ≠ 0 :=
      mul_ne_zero (fun zero => isPassable.1.notEmpty (.inl zero))
        (fun zero => isPassable.1.notEmpty (.inr zero))
    rcases Nat.exists_eq_succ_of_ne_zero positive with ⟨fuel, isSucc⟩
    refine ⟨[nStart], ?_, .init isPassable⟩
    simp only [isSucc, traceLoop, pnDir_eq_none.mpr rfl]
  · apply traceLoop_rawTrace (.init isPassable atEnd)
    have counted := (Marked.untouched map).count isPassable List.not_mem_nil
    have bounded : map.blockBuffer.count 0 ≤ map.blockBuffer.length := List.count_le_length
    have := map.size
    simp only at counted
    simp only [List.length_nil]
    omega

theorem BlockMap.scanDirections_nodup {map : BlockMap} (current nEnd : IVector)
    (directions : List ℕ) {trace : Trace} (marked : Marked map trace)
    (nodup : trace.pPoints.Nodup) :
    (map.scanDirections 0 false current nEnd directions trace).pPoints.Nodup := by
  induction directions generalizing trace with
  | nil => exact nodup
  | cons k rest keepsRest =>
      simp only [scanDirections]
      simp only [Bool.false_and, Bool.false_eq_true, if_false]
      split_ifs with outsideColumn outsideRow notSeed isEnd
      · exact keepsRest marked nodup
      · exact keepsRest marked nodup
      · exact keepsRest marked nodup
      all_goals
        push Not at outsideColumn outsideRow notSeed
        rcases marked.undiscovered outsideColumn.1 outsideColumn.2 outsideRow.1 notSeed
          with ⟨notDiscovered, isPassable⟩
        have discovers : (trace.pPoints ++ [towards current k]).Nodup :=
          List.nodup_append_comm.mp (List.nodup_cons.mpr ⟨notDiscovered, nodup⟩)
      · exact discovers
      · exact keepsRest (marked.discover isPassable _) discovers

/-- No cell is discovered twice. -/
theorem BlockMap.traceLoop_nodup {map : BlockMap} {nEnd current : IVector} {trace : Trace}
    (marked : Marked map trace) (nodup : trace.pPoints.Nodup) {fuel : ℕ} {raw : List IVector}
    (isRaw : map.traceLoop 0 false nEnd fuel current trace = some raw) : raw.Nodup := by
  induction fuel generalizing current trace with
  | zero => exact absurd isRaw (by simp [traceLoop])
  | succ fuel keeps =>
      simp only [traceLoop] at isRaw
      cases table : pnDir ⟨nEnd.x - current.x, nEnd.y - current.y⟩ with
      | none =>
          simp only [table, Option.some_inj] at isRaw
          exact isRaw ▸ nodup
      | some directions =>
          rcases scanDirections_scanned (pnDir_lt table) current nEnd marked with ⟨found, scans⟩
          have nodupScanned := map.scanDirections_nodup current nEnd directions.reverse marked nodup
          have markedScanned := scans.marked
          simp only [table] at isRaw
          generalize map.scanDirections 0 false current nEnd directions.reverse trace = scanned
            at isRaw nodupScanned markedScanned
          cases stack : scanned.pnStack with
          | nil =>
              simp only [stack, Option.some_inj] at isRaw
              exact isRaw ▸ nodupScanned
          | cons top rest =>
              simp only [stack] at isRaw
              have markedRest : Marked map { scanned with pnStack := rest } :=
                ⟨markedScanned.length, markedScanned.passable, markedScanned.read⟩
              exact keeps markedRest nodupScanned isRaw

theorem BlockMap.calcRawPath_nodup {map : BlockMap} {nStart nEnd : IVector}
    (isPassable : map.Passable nStart) {raw : List IVector}
    (isRaw : map.calcRawPath nStart nEnd false = some raw) : raw.Nodup := by
  rw [isPassable.calcRawPath_eq] at isRaw
  exact traceLoop_nodup ((Marked.untouched map).discover isPassable []) (List.nodup_singleton nStart) isRaw

namespace BlockMap

section Endings

variable {map : BlockMap} {nSeed : BYTE} {roundScan : Bool} {current nEnd : IVector}
  {trace : Trace}

/-- Points are only appended. -/
theorem scanDirections_prefix (map : BlockMap) (nSeed : BYTE) (roundScan : Bool)
    (current nEnd : IVector) (directions : List ℕ) (trace : Trace) :
    trace.pPoints <+:
      (map.scanDirections nSeed roundScan current nEnd directions trace).pPoints := by
  induction directions generalizing trace with
  | nil => exact List.prefix_rfl
  | cons k rest prefixRest =>
      simp only [scanDirections]
      split_ifs
      · exact prefixRest trace
      · exact prefixRest trace
      · exact prefixRest trace
      · refine List.IsPrefix.trans ?_ (prefixRest _)
        exact List.prefix_rfl
      · exact List.prefix_append _ _
      · refine List.IsPrefix.trans ?_ (prefixRest _)
        exact List.prefix_append _ _

theorem traceLoop_prefix {fuel : ℕ} {raw : List IVector}
    (isRaw : map.traceLoop nSeed roundScan nEnd fuel current trace = some raw) :
    trace.pPoints <+: raw := by
  induction fuel generalizing current trace with
  | zero => cases isRaw
  | succ fuel prefixRest =>
      simp only [traceLoop] at isRaw
      split at isRaw
      · cases isRaw
        exact List.prefix_rfl
      · rename_i directions _
        have scanned := map.scanDirections_prefix nSeed roundScan current nEnd directions.reverse
          trace
        split at isRaw
        · cases isRaw
          exact scanned
        · have later := prefixRest isRaw
          exact scanned.trans later

/-- Marking a cell of the component takes it from the cells to come. -/
theorem count_mark {pbTemp : List BYTE} {i : ℤ} (notBlocked : nSeed ≠ blocked)
    (isSeed : readByte pbTemp i = nSeed) :
    (pbTemp.set i.toNat blocked).count nSeed + 1 = pbTemp.count nSeed := by
  have inRange : i.toNat < pbTemp.length := by
    by_contra outside
    rw [readByte, List.getD_eq_default _ _ (not_lt.mp outside)] at isSeed
    exact notBlocked isSeed.symm
  rw [readByte, List.getD_eq_getElem _ _ inRange] at isSeed
  have positive : 0 < pbTemp.count nSeed :=
    List.count_pos_iff.mpr (isSeed ▸ List.getElem_mem inRange)
  rw [List.count_set inRange, isSeed, if_pos (beq_self_eq_true _),
    if_neg (by simpa using notBlocked.symm)]
  omega

/-- The cells that wait on the stack and those to come do not become more. -/
theorem scanDirections_waiting_le (map : BlockMap) (notBlocked : nSeed ≠ blocked)
    (roundScan : Bool) (current nEnd : IVector) (directions : List ℕ) (trace : Trace) :
    let scanned := map.scanDirections nSeed roundScan current nEnd directions trace
    scanned.pnStack.length + scanned.pbTemp.count nSeed ≤
      trace.pnStack.length + trace.pbTemp.count nSeed := by
  induction directions generalizing trace with
  | nil => exact le_rfl
  | cons k rest waitingRest =>
      simp only [scanDirections]
      split_ifs with outsideColumn outsideRow notSeed cornered isEnd
      · exact waitingRest trace
      · exact waitingRest trace
      · exact waitingRest trace
      all_goals
        have marked := count_mark notBlocked (not_not.mp notSeed)
      · refine (waitingRest ⟨_, _, _⟩).trans ?_
        simp only
        omega
      · simp only [List.length_nil]
        omega
      · refine (waitingRest ⟨_, _, _⟩).trans ?_
        simp only [List.length_cons]
        omega

theorem exists_traceLoop (notBlocked : nSeed ≠ blocked) {fuel : ℕ}
    (enough : trace.pnStack.length + trace.pbTemp.count nSeed < fuel) :
    ∃ raw, map.traceLoop nSeed roundScan nEnd fuel current trace = some raw := by
  induction fuel generalizing current trace with
  | zero => exact absurd enough (Nat.not_lt_zero _)
  | succ fuel tracesRest =>
      simp only [traceLoop]
      split
      · exact ⟨_, rfl⟩
      · rename_i directions _
        have waiting := map.scanDirections_waiting_le notBlocked roundScan current nEnd
          directions.reverse trace
        split
        · exact ⟨_, rfl⟩
        · rename_i top rest stack_eq
          apply tracesRest
          simp only [stack_eq, List.length_cons] at waiting
          simp only
          omega

/-- From a passable cell the trace finishes, and it begins there. -/
theorem exists_calcRawPath {nStart : IVector} (isPassable : map.Passable nStart) (nEnd : IVector)
    (roundScan : Bool) :
    ∃ raw, map.calcRawPath nStart nEnd roundScan = some raw ∧ raw.head? = some nStart := by
  have isSeed : readByte map.blockBuffer (map.index nStart) = 0 := isPassable.2
  have marked := count_mark (by decide) isSeed
  have count_le : map.blockBuffer.count 0 ≤ map.blockBuffer.length := List.count_le_length
  have size := map.size
  have traces : ∃ raw, map.traceLoop 0 roundScan nEnd (map.mapWidth * map.mapHeight) nStart
      { pbTemp := map.blockBuffer.set (map.index nStart).toNat blocked
        pnStack := []
        pPoints := [nStart] } = some raw := by
    apply exists_traceLoop (by decide)
    simp only [List.length_nil]
    omega
  rcases traces with ⟨raw, isRaw⟩
  refine ⟨raw, isPassable.calcRawPath_eq.trans isRaw, ?_⟩
  rcases traceLoop_prefix isRaw with ⟨rest, rfl⟩
  rfl

end Endings

end BlockMap

end PoETask.Attach
