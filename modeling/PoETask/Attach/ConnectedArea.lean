import PoETask.Attach.RawPath
import Mathlib.Data.List.Nodup
import Mathlib.Data.List.Perm.Subperm

/-!
# The connected area

`DetectConnectedArea`: a fill over the cells that share the byte of the start cell. A cell leaves
the stack once and is then linked to the cell that left before it. The output is written by
walking these links back from the last cell to the start.
-/

namespace PoETask.Attach

/-- The buffers of the fill; the top of the stack comes first. -/
structure Fill where
  pbTemp : List BYTE
  pnStack : List ℤ
  pnConnComponents : List ℤ
  nPointNum : ℕ

namespace BlockMap

variable (map : BlockMap) (nBk nSeed : BYTE)

/-- The loop over the directions. A read beyond the buffer counts as background. -/
def fillDirections (current : IVector) : List ℕ → Fill → Fill
  | [], fill => fill
  | k :: rest, fill =>
      let next := towards current k
      if next.x < 0 ∨ map.mapWidth ≤ next.x then fillDirections current rest fill
      else if next.y < 0 ∨ map.mapHeight < next.y then fillDirections current rest fill
      else if fill.pbTemp.getD (map.index next).toNat nBk ≠ nSeed then
        fillDirections current rest fill
      else
        fillDirections current rest
          { fill with
            pbTemp := fill.pbTemp.set (map.index next).toNat nBk
            pnStack := map.index next :: fill.pnStack
            nPointNum := fill.nPointNum + 1 }

/-- The turns of the main loop, with the last cell that left the stack; `none` when the fuel runs
out. -/
def fillLoop : ℕ → IVector → Fill → Option (IVector × Fill)
  | 0, _, _ => none
  | fuel + 1, current, fill =>
      let scanned := map.fillDirections nBk nSeed current (List.range 8) fill
      match scanned.pnStack with
      | [] => some (current, scanned)
      | top :: rest =>
          let next : IVector := ⟨top.tmod map.mapWidth, top.tdiv map.mapWidth⟩
          fillLoop fuel next
            { scanned with
              pnStack := rest
              pnConnComponents :=
                scanned.pnConnComponents.set (map.index next).toNat (map.index current) }

/-- The turns of the main loop: the cell it stands at and the buffers after the directions. -/
def fillTurns : ℕ → IVector → Fill → List (IVector × Fill)
  | 0, _, _ => []
  | fuel + 1, current, fill =>
      let scanned := map.fillDirections nBk nSeed current (List.range 8) fill
      match scanned.pnStack with
      | [] => [(current, scanned)]
      | top :: rest =>
          let next : IVector := ⟨top.tmod map.mapWidth, top.tdiv map.mapWidth⟩
          (current, scanned) :: fillTurns fuel next
            { scanned with
              pnStack := rest
              pnConnComponents :=
                scanned.pnConnComponents.set (map.index next).toNat (map.index current) }

/-- The walk along the links; `none` when the fuel runs out. -/
def chainLoop (pnConnComponents : List ℤ) : ℕ → ℤ → List BYTE → Option (List BYTE)
  | 0, _, _ => none
  | fuel + 1, k, pbOut =>
      let c : IVector := ⟨k.tmod map.mapWidth, k.tdiv map.mapWidth⟩
      let written := pbOut.set (map.index c).toNat nSeed
      let linked := pnConnComponents.getD k.toNat (-1)
      if linked = -1 then some written else chainLoop pnConnComponents fuel linked written

/-- The buffers before the first turn. -/
def startFill (nStart : IVector) : Fill where
  pbTemp := map.blockBuffer.set (map.index nStart).toNat nBk
  pnStack := []
  pnConnComponents :=
    (List.replicate (map.mapWidth * map.mapHeight) 0).set (map.index nStart).toNat (-1)
  nPointNum := 1

/-- `pbOut` after the call. A cell leaves the stack at most once, so the loop makes at most one turn
a cell, and no link is followed twice. -/
def detectConnectedArea (nStart : IVector) (pbOut : List BYTE) : Option (List BYTE) :=
  if map.mapWidth = 0 ∨ map.mapHeight = 0 then some pbOut
  else if map.cell nStart = nBk then some pbOut
  else do
    let (last, fill) ←
      map.fillLoop nBk (map.cell nStart) (map.mapWidth * map.mapHeight) nStart
        (map.startFill nBk nStart)
    if fill.nPointNum = 0 then some pbOut
    else
      map.chainLoop (map.cell nStart) fill.pnConnComponents (map.mapWidth * map.mapHeight)
        (map.index last) (List.replicate (map.mapWidth * map.mapHeight) nBk)

/-- The turns of a call; there are none when it returns at once. -/
def detectTurns (nStart : IVector) : List (IVector × Fill) :=
  if map.mapWidth = 0 ∨ map.mapHeight = 0 then []
  else if map.cell nStart = nBk then []
  else
    map.fillTurns nBk (map.cell nStart) (map.mapWidth * map.mapHeight) nStart
      (map.startFill nBk nStart)

/-- A step between two cells of the map that hold the byte of the fill. -/
def Joins (u v : IVector) : Prop :=
  (map.Inside u ∧ map.cell u = nSeed) ∧ (map.Inside v ∧ map.cell v = nSeed) ∧ Neighbours u v

variable {map nBk nSeed}

theorem cell_eq_getD {c : IVector} (inside : map.Inside c) :
    map.blockBuffer.getD (map.index c).toNat nBk = map.cell c := by
  simp only [cell, readByte, List.getD_eq_getElem _ _ inside.index_lt]

/-- A byte other than the background at a column of the map is inside the map. -/
theorem inside_of_getD {c : IVector} (left : 0 ≤ c.x) (right : c.x < map.mapWidth)
    (bottom : 0 ≤ c.y) (other : map.blockBuffer.getD (map.index c).toNat nBk ≠ nBk) :
    map.Inside c := by
  refine ⟨left, right, bottom, ?_⟩
  by_contra above
  apply other
  exact List.getD_eq_default _ _ (length_le_index left (not_lt.mp above))

end BlockMap

theorem getD_set_of_index {α : Type*} {buffer : List α} {written index : ℤ} (nonneg : 0 ≤ written)
    (indexNonneg : 0 ≤ index) (inBuffer : written.toNat < buffer.length) (value default : α) :
    (buffer.set written.toNat value).getD index.toNat default
      = if index = written then value else buffer.getD index.toNat default := by
  simp only [List.getD_eq_getElem?_getD, List.getElem?_set]
  by_cases same : index = written
  · simp [same, inBuffer]
  · have different : written.toNat ≠ index.toNat := by omega
    simp [same, different]

/-- The temporary buffer holds the map with the discovered cells taken out. -/
structure Discovered (map : BlockMap) (nBk nSeed : BYTE) (cells : List IVector)
    (pbTemp : List BYTE) : Prop where
  length : pbTemp.length = map.blockBuffer.length
  nodup : cells.Nodup
  alike : ∀ c ∈ cells, map.Inside c ∧ map.cell c = nSeed
  read : ∀ {c : IVector}, 0 ≤ c.x → c.x < map.mapWidth → 0 ≤ c.y →
    pbTemp.getD (map.index c).toNat nBk
      = if c ∈ cells then nBk else map.blockBuffer.getD (map.index c).toNat nBk

namespace Discovered

variable {map : BlockMap} {nBk nSeed : BYTE} {cells cells' : List IVector} {pbTemp : List BYTE}
variable {next : IVector}

theorem perm (discovered : Discovered map nBk nSeed cells pbTemp) (isPerm : cells.Perm cells') :
    Discovered map nBk nSeed cells' pbTemp where
  length := discovered.length
  nodup := isPerm.nodup discovered.nodup
  alike c isCell := discovered.alike c (isPerm.mem_iff.mpr isCell)
  read left right bottom := by
    rw [discovered.read left right bottom]
    simp only [isPerm.mem_iff]

theorem fresh (discovered : Discovered map nBk nSeed cells pbTemp) (notBk : nSeed ≠ nBk)
    (left : 0 ≤ next.x) (right : next.x < map.mapWidth) (bottom : 0 ≤ next.y)
    (isSeed : pbTemp.getD (map.index next).toNat nBk = nSeed) :
    next ∉ cells ∧ map.Inside next ∧ map.cell next = nSeed := by
  rw [discovered.read left right bottom] at isSeed
  split_ifs at isSeed with isCell
  · exact absurd isSeed.symm notBk
  · have inside := BlockMap.inside_of_getD left right bottom (isSeed ▸ notBk)
    rw [BlockMap.cell_eq_getD inside] at isSeed
    exact ⟨isCell, inside, isSeed⟩

theorem isSeed (discovered : Discovered map nBk nSeed cells pbTemp) (inside : map.Inside next)
    (alike : map.cell next = nSeed) (notCell : next ∉ cells) :
    pbTemp.getD (map.index next).toNat nBk = nSeed := by
  rw [discovered.read inside.1 inside.2.1 inside.2.2.1, if_neg notCell,
    BlockMap.cell_eq_getD inside, alike]

theorem discover (discovered : Discovered map nBk nSeed cells pbTemp) (inside : map.Inside next)
    (alike : map.cell next = nSeed) (notCell : next ∉ cells) :
    Discovered map nBk nSeed (next :: cells) (pbTemp.set (map.index next).toNat nBk) where
  length := by rw [List.length_set, discovered.length]
  nodup := List.nodup_cons.mpr ⟨notCell, discovered.nodup⟩
  alike c isCell := by
    rcases List.mem_cons.mp isCell with isNext | old
    · exact isNext ▸ ⟨inside, alike⟩
    · exact discovered.alike c old
  read {c} left right bottom := by
    have inBuffer : (map.index next).toNat < pbTemp.length := by
      simp only [discovered.length]
      exact inside.index_lt
    rw [getD_set_of_index inside.index_nonneg (BlockMap.index_nonneg left bottom) inBuffer,
      discovered.read left right bottom]
    by_cases isNext : c = next
    · simp [isNext]
    · have otherIndex : map.index c ≠ map.index next := by
        intro sameIndex
        exact isNext (BlockMap.index_inj left right inside.1 inside.2.1 sameIndex)
      simp [otherIndex, isNext]

end Discovered

/-- What the loop over the directions does to the buffers when it pushes `found`. -/
structure Filled (map : BlockMap) (nBk nSeed : BYTE) (current : IVector) (directions : List ℕ)
    (cells : List IVector) (fill filled : Fill) (found : List IVector) : Prop where
  discovered : Discovered map nBk nSeed (found ++ cells) filled.pbTemp
  stack : filled.pnStack = found.map map.index ++ fill.pnStack
  links : filled.pnConnComponents = fill.pnConnComponents
  counted : fill.nPointNum ≤ filled.nPointNum
  neighbours : ∀ c ∈ found, Neighbours current c
  covered : ∀ k ∈ directions, map.Inside (towards current k) →
    map.cell (towards current k) = nSeed → towards current k ∈ found ++ cells

namespace Filled

variable {map : BlockMap} {nBk nSeed : BYTE} {current : IVector} {k : ℕ} {rest : List ℕ}
variable {cells found : List IVector} {fill filled : Fill}

theorem skip (skipped : map.Inside (towards current k) → map.cell (towards current k) = nSeed →
      towards current k ∈ cells)
    (fills : Filled map nBk nSeed current rest cells fill filled found) :
    Filled map nBk nSeed current (k :: rest) cells fill filled found :=
  { fills with
    covered := by
      intro direction isDirection inside alike
      rcases List.mem_cons.mp isDirection with isFirst | isLater
      · subst isFirst
        exact List.mem_append_right _ (skipped inside alike)
      · exact fills.covered direction isLater inside alike }

theorem push (isDirection : k < 8)
    (fills : Filled map nBk nSeed current rest (towards current k :: cells)
      { fill with
        pbTemp := fill.pbTemp.set (map.index (towards current k)).toNat nBk
        pnStack := map.index (towards current k) :: fill.pnStack
        nPointNum := fill.nPointNum + 1 } filled found) :
    Filled map nBk nSeed current (k :: rest) cells fill filled (found ++ [towards current k]) where
  discovered := by
    rw [List.append_assoc, List.singleton_append]
    exact fills.discovered
  stack := by rw [fills.stack, List.map_append, List.append_assoc]; rfl
  links := fills.links
  counted := (Nat.le_succ _).trans fills.counted
  neighbours c isFound := by
    rcases List.mem_append.mp isFound with isLater | isFirst
    · exact fills.neighbours c isLater
    · simp only [List.mem_singleton.mp isFirst]
      exact towards_neighbours isDirection current
  covered direction isDirection' inside alike := by
    rw [List.append_assoc, List.singleton_append]
    rcases List.mem_cons.mp isDirection' with isFirst | isLater
    · subst isFirst
      simp
    · exact fills.covered direction isLater inside alike

end Filled

theorem BlockMap.fillDirections_filled {map : BlockMap} {nBk nSeed : BYTE} (notBk : nSeed ≠ nBk)
    {directions : List ℕ} (areDirections : ∀ k ∈ directions, k < 8) (current : IVector)
    {cells : List IVector} {fill : Fill} (discovered : Discovered map nBk nSeed cells fill.pbTemp) :
    ∃ found, Filled map nBk nSeed current directions cells fill
      (map.fillDirections nBk nSeed current directions fill) found := by
  induction directions generalizing cells fill with
  | nil =>
      refine ⟨[], discovered, rfl, rfl, le_rfl, ?_, ?_⟩
      · exact fun _ isFound => absurd isFound List.not_mem_nil
      · exact fun _ isDirection => absurd isDirection List.not_mem_nil
  | cons k rest fillsRest =>
      have restDirections : ∀ k ∈ rest, k < 8 :=
        fun k isLater => areDirections k (List.mem_cons_of_mem _ isLater)
      simp only [fillDirections]
      split_ifs with outsideColumn outsideRow notSeed
      · rcases fillsRest restDirections discovered with ⟨found, fills⟩
        refine ⟨found, fills.skip ?_⟩
        intro inside
        have := inside.1
        have := inside.2.1
        omega
      · rcases fillsRest restDirections discovered with ⟨found, fills⟩
        refine ⟨found, fills.skip ?_⟩
        intro inside
        have := inside.2.2.1
        have := inside.2.2.2
        omega
      · rcases fillsRest restDirections discovered with ⟨found, fills⟩
        refine ⟨found, fills.skip ?_⟩
        intro inside alike
        by_contra notCell
        exact notSeed (discovered.isSeed inside alike notCell)
      · push Not at outsideColumn outsideRow notSeed
        rcases discovered.fresh notBk outsideColumn.1 outsideColumn.2 outsideRow.1 notSeed
          with ⟨notCell, inside, alike⟩
        let pushed : Fill :=
          { fill with
            pbTemp := fill.pbTemp.set (map.index (towards current k)).toNat nBk
            pnStack := map.index (towards current k) :: fill.pnStack
            nPointNum := fill.nPointNum + 1 }
        have discoveredNext : Discovered map nBk nSeed (towards current k :: cells) pushed.pbTemp :=
          discovered.discover inside alike notCell
        rcases fillsRest restDirections discoveredNext with ⟨found, fills⟩
        exact ⟨_, fills.push (areDirections k List.mem_cons_self)⟩

/-- Each cell is linked to the next one of the list, the last one to nothing. -/
def Linked (map : BlockMap) (links : List ℤ) : List IVector → Prop
  | [] => True
  | [c] => links.getD (map.index c).toNat (-1) = -1
  | c :: d :: rest =>
      links.getD (map.index c).toNat (-1) = map.index d ∧ Linked map links (d :: rest)

theorem Linked.set {map : BlockMap} {links : List ℤ} {cells : List IVector} {c : IVector}
    (linked : Linked map links cells) (inCells : ∀ d ∈ cells, map.Inside d)
    (inside : map.Inside c) (notCell : c ∉ cells)
    (length : links.length = map.mapWidth * map.mapHeight) (link : ℤ) :
    Linked map (links.set (map.index c).toNat link) cells := by
  have unchanged : ∀ d ∈ cells,
      (links.set (map.index c).toNat link).getD (map.index d).toNat (-1)
        = links.getD (map.index d).toNat (-1) := by
    intro d isCell
    have inBuffer : (map.index c).toNat < links.length := by
      rw [length, ← map.size]
      exact inside.index_lt
    rw [getD_set_of_index inside.index_nonneg (inCells d isCell).index_nonneg inBuffer]
    apply if_neg
    intro sameIndex
    have same := BlockMap.index_inj (inCells d isCell).1 (inCells d isCell).2.1 inside.1
      inside.2.1 sameIndex
    exact notCell (same ▸ isCell)
  induction cells with
  | nil => trivial
  | cons d rest setRest =>
      cases rest with
      | nil => exact (unchanged d List.mem_cons_self).trans linked
      | cons e rest =>
          refine ⟨(unchanged d List.mem_cons_self).trans linked.1, setRest linked.2 ?_ ?_ ?_⟩
          · exact fun f isLater => inCells f (List.mem_cons_of_mem d isLater)
          · exact fun isLater => notCell (List.mem_cons_of_mem d isLater)
          · exact fun f isLater => unchanged f (List.mem_cons_of_mem d isLater)

/-- The state of the fill between two turns of the main loop: `visited` are the cells that have
left the stack before `current`, the latest first. -/
structure Filling (map : BlockMap) (nBk nSeed : BYTE) (nStart current : IVector)
    (visited pending : List IVector) (fill : Fill) : Prop where
  discovered : Discovered map nBk nSeed (pending ++ current :: visited) fill.pbTemp
  stack : fill.pnStack = pending.map map.index
  explored : GraphSearch.Explored (map.Joins nSeed) nStart (· ∈ pending ++ current :: visited)
    (· ∈ current :: pending)
  linked : Linked map fill.pnConnComponents (current :: visited)
  linksLength : fill.pnConnComponents.length = map.mapWidth * map.mapHeight
  counted : 0 < fill.nPointNum

/-- The links of a finished fill lead through the connected cells, each once. -/
structure FilledArea (map : BlockMap) (nSeed : BYTE) (nStart last : IVector)
    (visited : List IVector) (fill : Fill) : Prop where
  nodup : (last :: visited).Nodup
  inside : ∀ c ∈ last :: visited, map.Inside c
  connected : ∀ c, c ∈ last :: visited ↔ Relation.ReflTransGen (map.Joins nSeed) nStart c
  linked : Linked map fill.pnConnComponents (last :: visited)
  counted : 0 < fill.nPointNum

theorem BlockMap.length_le_of_nodup {map : BlockMap} {cells : List IVector} (nodup : cells.Nodup)
    (inside : ∀ c ∈ cells, map.Inside c) : cells.length ≤ map.mapWidth * map.mapHeight := by
  have indices : (cells.map fun c => (map.index c).toNat).Nodup := by
    apply List.Nodup.map_on _ nodup
    intro c isCell d isCell' sameIndex
    have nonneg := (inside c isCell).index_nonneg
    have nonneg' := (inside d isCell').index_nonneg
    exact BlockMap.index_inj (inside c isCell).1 (inside c isCell).2.1 (inside d isCell').1
      (inside d isCell').2.1 (by omega)
  have bounded : ∀ i ∈ cells.map fun c => (map.index c).toNat,
      i ∈ List.range (map.mapWidth * map.mapHeight) := by
    intro i isIndex
    rcases List.mem_map.mp isIndex with ⟨c, isCell, rfl⟩
    rw [List.mem_range, ← map.size]
    exact (inside c isCell).index_lt
  have := (List.Nodup.subperm indices bounded).length_le
  simpa only [List.length_map, List.length_range] using this

namespace Filling

variable {map : BlockMap} {nBk nSeed : BYTE} {nStart current next : IVector}
variable {visited pending found rest : List IVector} {fill filled : Fill}

theorem current_discovered (filling : Filling map nBk nSeed nStart current visited pending fill) :
    current ∈ pending ++ current :: visited :=
  filling.explored.pending_discovered List.mem_cons_self

theorem joins_found (filling : Filling map nBk nSeed nStart current visited pending fill)
    (fills : Filled map nBk nSeed current (List.range 8) (pending ++ current :: visited) fill
      filled found) {c : IVector} (isFound : c ∈ found) : map.Joins nSeed current c :=
  ⟨filling.discovered.alike _ filling.current_discovered,
    fills.discovered.alike c (List.mem_append_left _ isFound), fills.neighbours c isFound⟩

/-- A scan expands the current cell. -/
theorem explored_filled (filling : Filling map nBk nSeed nStart current visited pending fill)
    (fills : Filled map nBk nSeed current (List.range 8) (pending ++ current :: visited) fill
      filled found) :
    GraphSearch.Explored (map.Joins nSeed) nStart
      (· ∈ found ++ (pending ++ current :: visited)) (· ∈ found ++ pending) := by
  apply filling.explored.expand filling.current_discovered
  · intro other old
    exact List.mem_append_right _ old
  · intro other joins
    rcases exists_towards joins.2.2 with ⟨k, isDirection, isTowards⟩
    subst isTowards
    exact fills.covered k (List.mem_range.mpr isDirection) joins.2.1.1 joins.2.1.2
  · intro other isCell
    exact (List.mem_append.mp isCell).symm.imp_right (filling.joins_found fills)
  · intro other isPending notCurrent
    exact List.mem_append_right _ ((List.mem_cons.mp isPending).resolve_left notCurrent)
  · intro other isCell new
    exact List.mem_append_left _ ((List.mem_append.mp isCell).resolve_right new)
  · intro other isPending
    rw [← List.append_assoc]
    exact List.mem_append_left _ isPending

theorem pop (filling : Filling map nBk nSeed nStart current visited pending fill)
    (fills : Filled map nBk nSeed current (List.range 8) (pending ++ current :: visited) fill
      filled found) (isTop : found ++ pending = next :: rest) :
    Filling map nBk nSeed nStart next (current :: visited) rest
      { filled with
        pnStack := rest.map map.index
        pnConnComponents :=
          filled.pnConnComponents.set (map.index next).toNat (map.index current) } := by
  have cells : found ++ (pending ++ current :: visited) = next :: (rest ++ current :: visited) := by
    rw [← List.append_assoc, isTop, List.cons_append]
  have isPerm : (next :: (rest ++ current :: visited)).Perm (rest ++ next :: current :: visited) :=
    List.perm_middle.symm
  have discovered := fills.discovered
  have explored := filling.explored_filled fills
  simp only [cells, isTop] at discovered explored
  have notCell : next ∉ current :: visited := by
    intro isCell
    exact (List.nodup_cons.mp discovered.nodup).1 (List.mem_append_right _ isCell)
  have inside := fun c isCell => (filling.discovered.alike c (List.mem_append_right _ isCell)).1
  have nextInside := (discovered.alike next List.mem_cons_self).1
  constructor
  case discovered => exact discovered.perm isPerm
  case stack => rfl
  case explored =>
    simp only [isPerm.mem_iff] at explored
    exact explored
  case linked =>
    have inBuffer : (map.index next).toNat < filled.pnConnComponents.length := by
      rw [fills.links, filling.linksLength, ← map.size]
      exact nextInside.index_lt
    simp only [Linked]
    constructor
    · rw [getD_set_of_index nextInside.index_nonneg nextInside.index_nonneg inBuffer, if_pos rfl]
    · rw [fills.links]
      exact filling.linked.set inside nextInside notCell filling.linksLength _
  case linksLength => simp only [List.length_set, fills.links, filling.linksLength]
  case counted => exact filling.counted.trans_le fills.counted

theorem finish (filling : Filling map nBk nSeed nStart current visited pending fill)
    (fills : Filled map nBk nSeed current (List.range 8) (pending ++ current :: visited) fill
      filled found) (isEmpty : found ++ pending = []) :
    FilledArea map nSeed nStart current visited filled := by
  rcases List.append_eq_nil_iff.mp isEmpty with ⟨rfl, rfl⟩
  have discovered := filling.discovered
  have explored := filling.explored_filled fills
  simp only [List.nil_append] at discovered explored
  constructor
  case nodup => exact discovered.nodup
  case inside => exact fun c isCell => (discovered.alike c isCell).1
  case connected =>
    intro c
    refine ⟨explored.reachable, explored.discovered_of_reachable ?_⟩
    exact List.not_mem_nil
  case linked => exact fills.links ▸ filling.linked
  case counted => exact filling.counted.trans_le fills.counted

end Filling

theorem Filling.stack_le {map : BlockMap} {nBk nSeed : BYTE} {nStart current : IVector}
    {visited pending found : List IVector} {fill filled : Fill}
    (filling : Filling map nBk nSeed nStart current visited pending fill)
    (fills : Filled map nBk nSeed current (List.range 8) (pending ++ current :: visited) fill
      filled found) : filled.pnStack.length ≤ map.mapWidth * map.mapHeight := by
  have atMost := BlockMap.length_le_of_nodup fills.discovered.nodup
    fun c isCell => (fills.discovered.alike c isCell).1
  rw [fills.stack, filling.stack]
  simp only [List.length_append, List.length_map, List.length_cons] at atMost ⊢
  omega

/-- Enough fuel is one turn for each cell of the map that has not left the stack. The cells of the
turns are the ones that are visited. -/
theorem BlockMap.fillLoop_filledArea {map : BlockMap} {nBk nSeed : BYTE} (notBk : nSeed ≠ nBk)
    {nStart current : IVector} {visited pending : List IVector} {fill : Fill}
    (filling : Filling map nBk nSeed nStart current visited pending fill) {fuel : ℕ}
    (enough : map.mapWidth * map.mapHeight ≤ fuel + visited.length) :
    ∃ last filled visited', map.fillLoop nBk nSeed fuel current fill = some (last, filled)
      ∧ FilledArea map nSeed nStart last visited' filled
      ∧ last :: visited'
        = ((map.fillTurns nBk nSeed fuel current fill).map Prod.fst).reverse ++ visited
      ∧ ∀ turn ∈ map.fillTurns nBk nSeed fuel current fill,
        turn.2.pnStack.length ≤ map.mapWidth * map.mapHeight := by
  induction fuel generalizing current visited pending fill with
  | zero =>
      have nodup : (current :: visited).Nodup := List.Nodup.of_append_right filling.discovered.nodup
      have atMost := length_le_of_nodup nodup
        fun c isCell => (filling.discovered.alike c (List.mem_append_right _ isCell)).1
      simp only [List.length_cons] at atMost
      omega
  | succ fuel runs =>
      rcases fillDirections_filled notBk (fun k isDirection => List.mem_range.mp isDirection)
        current filling.discovered with ⟨found, fills⟩
      have stackLe := filling.stack_le fills
      have stack := fills.stack
      rw [filling.stack, ← List.map_append] at stack
      simp only [fillLoop, fillTurns]
      cases isTop : found ++ pending with
      | nil =>
          simp only [stack, isTop]
          refine ⟨current, _, visited, rfl, filling.finish fills isTop, rfl, ?_⟩
          intro turn isTurn
          rw [List.map_nil, List.mem_singleton] at isTurn
          exact isTurn ▸ stackLe
      | cons next rest =>
          have fillingNext := filling.pop fills isTop
          have inside := (fillingNext.discovered.alike next
            (List.mem_append_right _ List.mem_cons_self)).1
          simp only [stack, isTop]
          simp only [List.map_cons]
          simp only [inside.decode]
          rcases runs fillingNext (by simp only [List.length_cons]; omega)
            with ⟨last, filled, visited', isFilled, area, isVisited, stacksLe⟩
          refine ⟨last, filled, visited', isFilled, area, ?_, ?_⟩
          · rw [isVisited, List.reverse_cons, List.append_assoc, List.singleton_append]
          · intro turn isTurn
            rcases List.mem_cons.mp isTurn with isFirst | isLater
            · exact isFirst ▸ stackLe
            · exact stacksLe turn isLater

theorem Filling.init {map : BlockMap} {nBk : BYTE} {nStart : IVector}
    (inside : map.Inside nStart) :
    Filling map nBk (map.cell nStart) nStart nStart [] [] (map.startFill nBk nStart) where
  discovered := by
    have untouched : Discovered map nBk (map.cell nStart) [] map.blockBuffer :=
      ⟨rfl, List.nodup_nil, fun _ isCell => absurd isCell List.not_mem_nil, fun _ _ _ => rfl⟩
    exact untouched.discover inside rfl List.not_mem_nil
  stack := rfl
  explored := by
    have explored : GraphSearch.Explored (map.Joins (map.cell nStart)) nStart (· = nStart)
        (· = nStart) := .init
    simpa only [List.nil_append, List.mem_singleton] using explored
  linked := by
    have inBuffer : (map.index nStart).toNat
        < (List.replicate (map.mapWidth * map.mapHeight) (0 : ℤ)).length := by
      rw [List.length_replicate, ← map.size]
      exact inside.index_lt
    simp only [Linked, BlockMap.startFill]
    rw [getD_set_of_index inside.index_nonneg inside.index_nonneg inBuffer, if_pos rfl]
  linksLength := by simp only [BlockMap.startFill, List.length_set, List.length_replicate]
  counted := Nat.one_pos

/-- The walk along the links writes the seed at every cell of the list. -/
theorem BlockMap.chainLoop_linked {map : BlockMap} (nSeed : BYTE) {links : List ℤ}
    {c : IVector} {rest : List IVector} (linked : Linked map links (c :: rest))
    (inside : ∀ d ∈ c :: rest, map.Inside d) {fuel : ℕ} (enough : rest.length < fuel)
    {pbOut : List BYTE} (length : pbOut.length = map.mapWidth * map.mapHeight) (nBk : BYTE) :
    ∃ out, map.chainLoop nSeed links fuel (map.index c) pbOut = some out
      ∧ out.length = map.mapWidth * map.mapHeight
      ∧ ∀ d, map.Inside d → out.getD (map.index d).toNat nBk
        = if d ∈ c :: rest then nSeed else pbOut.getD (map.index d).toNat nBk := by
  induction fuel generalizing c rest pbOut with
  | zero => exact absurd enough (Nat.not_lt_zero _)
  | succ fuel runs =>
      have first := inside c List.mem_cons_self
      have inBuffer : (map.index c).toNat < pbOut.length := by
        rw [length, ← map.size]
        exact first.index_lt
      have sameLength : (pbOut.set (map.index c).toNat nSeed).length
          = map.mapWidth * map.mapHeight := by rw [List.length_set, length]
      have written : ∀ d, map.Inside d →
          (pbOut.set (map.index c).toNat nSeed).getD (map.index d).toNat nBk
            = if d = c then nSeed else pbOut.getD (map.index d).toNat nBk := by
        intro d dInside
        rw [getD_set_of_index first.index_nonneg dInside.index_nonneg inBuffer]
        have sameIndex : map.index d = map.index c ↔ d = c :=
          ⟨BlockMap.index_inj dInside.1 dInside.2.1 first.1 first.2.1, congrArg map.index⟩
        simp only [sameIndex]
      simp only [chainLoop, first.decode]
      cases rest with
      | nil =>
          simp only [Linked] at linked
          refine ⟨_, if_pos linked, sameLength, ?_⟩
          intro d dInside
          simp only [written d dInside, List.mem_singleton]
      | cons e rest =>
          have notEnd : ¬ links.getD (map.index c).toNat (-1) = -1 := by
            have := (inside e (by simp)).index_nonneg
            rw [linked.1]
            omega
          rw [if_neg notEnd, linked.1]
          rcases runs linked.2 (fun d isLater => inside d (List.mem_cons_of_mem c isLater))
            (by simpa using enough) sameLength with ⟨out, isOut, outLength, reads⟩
          refine ⟨out, isOut, outLength, ?_⟩
          intro d dInside
          rw [reads d dInside, written d dInside]
          by_cases isLater : d ∈ e :: rest
          · rw [if_pos isLater, if_pos (List.mem_cons_of_mem c isLater)]
          · by_cases isFirst : d = c
            · rw [if_neg isLater, if_pos isFirst, if_pos (isFirst ▸ List.mem_cons_self)]
            · rw [if_neg isLater, if_neg isFirst, if_neg]
              simp only [List.mem_cons, not_or] at isLater ⊢
              exact ⟨isFirst, isLater⟩

/-- The output of the call: the byte of the start cell on the cells joined to it, and the
background on all others. -/
structure IsArea (map : BlockMap) (nBk : BYTE) (nStart : IVector) (out : List BYTE) : Prop where
  length : out.length = map.mapWidth * map.mapHeight
  joined : ∀ c, map.Inside c → Relation.ReflTransGen (map.Joins (map.cell nStart)) nStart c →
    out.getD (map.index c).toNat nBk = map.cell nStart
  apart : ∀ c, map.Inside c → ¬ Relation.ReflTransGen (map.Joins (map.cell nStart)) nStart c →
    out.getD (map.index c).toNat nBk = nBk

theorem BlockMap.detectConnectedArea_isArea {map : BlockMap} {nBk : BYTE} {nStart : IVector}
    (inside : map.Inside nStart) (notBk : map.cell nStart ≠ nBk) (pbOut : List BYTE) :
    ∃ out, map.detectConnectedArea nBk nStart pbOut = some out ∧ IsArea map nBk nStart out := by
  rcases fillLoop_filledArea notBk (.init inside) (Nat.le_add_right _ _)
    with ⟨last, filled, visited, isFilled, area, _⟩
  have enough : visited.length < map.mapWidth * map.mapHeight :=
    length_le_of_nodup area.nodup area.inside
  rcases chainLoop_linked (map.cell nStart) area.linked area.inside enough
    (List.length_replicate (a := nBk)) nBk with ⟨out, isOut, length, reads⟩
  refine ⟨out, ?_, length, ?_, ?_⟩
  · rw [detectConnectedArea, if_neg inside.notEmpty, if_neg notBk, isFilled]
    simp only [Option.bind_eq_bind, Option.bind_some]
    rw [if_neg area.counted.ne', isOut]
  · intro c cInside joined
    rw [reads c cInside, if_pos ((area.connected c).mpr joined)]
  · intro c cInside apart
    have inBuffer : (map.index c).toNat
        < (List.replicate (map.mapWidth * map.mapHeight) nBk).length := by
      rw [List.length_replicate, ← map.size]
      exact cInside.index_lt
    rw [reads c cInside, if_neg fun isCell => apart ((area.connected c).mp isCell),
      List.getD_eq_getElem _ _ inBuffer, List.getElem_replicate]

/-- The output labels exactly the connected area, whatever the output array held before, the input
array included, and no turn puts more cells on the stack than the map has. -/
theorem BlockMap.detectConnectedArea_labels {map : BlockMap} {nBk : BYTE} {nStart : IVector}
    (inside : map.Inside nStart) (notBk : map.cell nStart ≠ nBk) :
    (∀ pbOut, ∃ out, map.detectConnectedArea nBk nStart pbOut = some out ∧ IsArea map nBk nStart out)
      ∧ ∀ turn ∈ map.detectTurns nBk nStart,
        turn.2.pnStack.length ≤ map.mapWidth * map.mapHeight := by
  constructor
  · exact detectConnectedArea_isArea inside notBk
  · rcases fillLoop_filledArea notBk (.init inside) (Nat.le_add_right _ _)
      with ⟨_, _, _, _, _, _, stacksLe⟩
    rw [detectTurns, if_neg inside.notEmpty, if_neg notBk]
    exact stacksLe

/-- Two rooms of three and two cells above a closed row. -/
def twoRooms : BlockMap where
  mapWidth := 4
  mapHeight := 3
  blockBuffer := [7, 7, 255, 7, 7, 255, 255, 7, 255, 255, 255, 255]
  size := rfl

theorem detectConnectedArea_labels_twoRooms :
    (∀ pbOut, ∃ out, twoRooms.detectConnectedArea 255 ⟨0, 0⟩ pbOut = some out
        ∧ IsArea twoRooms 255 ⟨0, 0⟩ out)
      ∧ ∀ turn ∈ twoRooms.detectTurns 255 ⟨0, 0⟩,
        turn.2.pnStack.length ≤ twoRooms.mapWidth * twoRooms.mapHeight :=
  BlockMap.detectConnectedArea_labels (by decide) (by decide)

end PoETask.Attach
