import PoETask.Attach.ConnectedArea

/-!
# The search of the raw path

On any map the trace compares bytes only with that of its start cell and with the background. The
map on which the start's byte is zero, and every other byte than the background one, has the same
trace, so what holds of the passable cells holds of the cells that share the start's byte.
-/

namespace PoETask.Attach

/-- The start's byte becomes zero. -/
def relabel (nSeed byte : BYTE) : BYTE :=
  if byte = nSeed then 0 else if byte = blocked then blocked else 1

section Relabel

variable {nSeed : BYTE}

theorem relabel_eq_zero {byte : BYTE} : relabel nSeed byte = 0 ↔ byte = nSeed := by
  simp only [relabel]
  split_ifs with isSeed isBlocked
  · exact iff_of_true rfl isSeed
  · exact iff_of_false (by decide) isSeed
  · exact iff_of_false (by decide) isSeed

theorem relabel_blocked (notBlocked : nSeed ≠ blocked) : relabel nSeed blocked = blocked := by
  rw [relabel, if_neg notBlocked.symm, if_pos rfl]

theorem readByte_relabel (notBlocked : nSeed ≠ blocked) (buffer : List BYTE) (index : ℤ) :
    readByte (buffer.map (relabel nSeed)) index = relabel nSeed (readByte buffer index) := by
  simp only [readByte, List.getD_eq_getElem?_getD, List.getElem?_map]
  cases buffer[index.toNat]? with
  | none => exact (relabel_blocked notBlocked).symm
  | some byte => rfl

def Trace.relabelled (nSeed : BYTE) (trace : Trace) : Trace :=
  { trace with pbTemp := trace.pbTemp.map (relabel nSeed) }

end Relabel

namespace BlockMap

def relabelled (map : BlockMap) (nSeed : BYTE) : BlockMap where
  mapWidth := map.mapWidth
  mapHeight := map.mapHeight
  blockBuffer := map.blockBuffer.map (relabel nSeed)
  size := by rw [List.length_map, map.size]

variable {map : BlockMap} {nSeed : BYTE} {nStart nEnd : IVector}

theorem relabelled_cell (notBlocked : nSeed ≠ blocked) (c : IVector) :
    (map.relabelled nSeed).cell c = relabel nSeed (map.cell c) :=
  readByte_relabel notBlocked _ _

theorem relabelled_passable (notBlocked : nSeed ≠ blocked) {c : IVector} :
    (map.relabelled nSeed).Passable c ↔ map.Inside c ∧ map.cell c = nSeed := by
  rw [Passable, relabelled_cell notBlocked, relabel_eq_zero]
  exact Iff.rfl

theorem relabelled_walks (notBlocked : nSeed ≠ blocked) :
    (map.relabelled nSeed).Walks = map.Joins nSeed := by
  funext u v
  rw [Walks, relabelled_passable notBlocked, relabelled_passable notBlocked]
  rfl

theorem relabelled_width (map : BlockMap) (nSeed : BYTE) :
    (map.relabelled nSeed).mapWidth = map.mapWidth :=
  rfl

theorem relabelled_height (map : BlockMap) (nSeed : BYTE) :
    (map.relabelled nSeed).mapHeight = map.mapHeight :=
  rfl

theorem relabelled_index (map : BlockMap) (nSeed : BYTE) : (map.relabelled nSeed).index = map.index :=
  rfl

theorem scanDirections_relabelled (notBlocked : nSeed ≠ blocked) (current nEnd : IVector)
    (directions : List ℕ) (trace : Trace) :
    (map.relabelled nSeed).scanDirections 0 false current nEnd directions (trace.relabelled nSeed)
      = (map.scanDirections nSeed false current nEnd directions trace).relabelled nSeed := by
  induction directions generalizing trace with
  | nil => rfl
  | cons k rest sameRest =>
      have isRead : readByte (trace.relabelled nSeed).pbTemp (map.index (towards current k)) ≠ 0
          ↔ readByte trace.pbTemp (map.index (towards current k)) ≠ nSeed := by
        rw [Trace.relabelled, readByte_relabel notBlocked, ne_eq, relabel_eq_zero]
      have isMarked : ∀ (stack : List ℤ) (points : List IVector),
          ({ pbTemp := (trace.relabelled nSeed).pbTemp.set
                (map.index (towards current k)).toNat blocked
             pnStack := stack
             pPoints := points } : Trace)
            = ({ pbTemp := trace.pbTemp.set (map.index (towards current k)).toNat blocked
                 pnStack := stack
                 pPoints := points } : Trace).relabelled nSeed := by
        intro stack points
        simp only [Trace.relabelled, List.map_set, relabel_blocked notBlocked]
      simp only [scanDirections, relabelled_index, relabelled_width, relabelled_height]
      simp only [Bool.false_and, Bool.false_eq_true, if_false, isRead]
      split_ifs with outsideColumn outsideRow notSeed isEnd
      · exact sameRest trace
      · exact sameRest trace
      · exact sameRest trace
      · exact isMarked [] _
      · rw [isMarked]
        exact sameRest _

theorem traceLoop_relabelled (notBlocked : nSeed ≠ blocked) (nEnd : IVector) (fuel : ℕ)
    (current : IVector) (trace : Trace) :
    (map.relabelled nSeed).traceLoop 0 false nEnd fuel current (trace.relabelled nSeed)
      = map.traceLoop nSeed false nEnd fuel current trace := by
  induction fuel generalizing current trace with
  | zero => rfl
  | succ fuel sameRest =>
      simp only [traceLoop]
      cases table : pnDir ⟨nEnd.x - current.x, nEnd.y - current.y⟩ with
      | none => rfl
      | some directions =>
          simp only [scanDirections_relabelled notBlocked]
          generalize map.scanDirections nSeed false current nEnd directions.reverse trace = scanned
          cases stack : scanned.pnStack with
          | nil => simp only [Trace.relabelled, stack]
          | cons top rest =>
              simp only [Trace.relabelled, stack]
              exact sameRest _ { scanned with pnStack := rest }

theorem calcRawPath_relabelled (notBlocked : map.cell nStart ≠ blocked) :
    (map.relabelled (map.cell nStart)).calcRawPath nStart nEnd false
      = map.calcRawPath nStart nEnd false := by
  have isZero : (map.relabelled (map.cell nStart)).cell nStart = 0 := by
    rw [relabelled_cell notBlocked, relabel_eq_zero]
  have zeroNotBlocked : (0 : BYTE) ≠ blocked := by decide
  have isBuffer : (map.relabelled (map.cell nStart)).blockBuffer.set (map.index nStart).toNat blocked
      = (map.blockBuffer.set (map.index nStart).toNat blocked).map (relabel (map.cell nStart)) := by
    simp only [relabelled, List.map_set, relabel_blocked notBlocked]
  rw [calcRawPath, calcRawPath, isZero, if_neg zeroNotBlocked, if_neg notBlocked, relabelled_index,
    isBuffer]
  congr 1
  exact traceLoop_relabelled notBlocked nEnd _ nStart
    { pbTemp := map.blockBuffer.set (map.index nStart).toNat blocked
      pnStack := []
      pPoints := [nStart] }

/-- The trace from any cell but a blocked one finishes. It discovers cells of the start's area, each
once, and the end cell last, exactly when it lies in that area. -/
theorem calcRawPath_search (inside : map.Inside nStart) (notBlocked : map.cell nStart ≠ blocked)
    (nEnd : IVector) :
    ∃ raw, map.calcRawPath nStart nEnd false = some raw
      ∧ raw.Nodup
      ∧ raw.head? = some nStart
      ∧ (∀ c ∈ raw, Relation.ReflTransGen (map.Joins (map.cell nStart)) nStart c)
      ∧ (nEnd ∈ raw ↔ Relation.ReflTransGen (map.Joins (map.cell nStart)) nStart nEnd)
      ∧ (nEnd ∈ raw → raw.getLast? = some nEnd) := by
  have isPassable : (map.relabelled (map.cell nStart)).Passable nStart :=
    (relabelled_passable notBlocked).mpr ⟨inside, rfl⟩
  rcases calcRawPath_rawTrace nEnd isPassable with ⟨raw, isRaw, isTrace⟩
  have nodup := calcRawPath_nodup isPassable isRaw
  have joined := isTrace.connected
  have complete := isTrace.complete
  rw [calcRawPath_relabelled notBlocked] at isRaw
  simp only [Connected, relabelled_walks notBlocked] at joined complete
  refine ⟨raw, isRaw, nodup, isTrace.first, joined, ⟨joined nEnd, ?_⟩, isTrace.reached⟩
  intro isJoined
  by_contra notReached
  exact notReached (complete notReached nEnd isJoined)

/-- The third cell of the start's room is reached. -/
theorem calcRawPath_search_twoRooms :
    ∃ raw, twoRooms.calcRawPath ⟨0, 0⟩ ⟨0, 1⟩ false = some raw
      ∧ raw.Nodup
      ∧ raw.head? = some ⟨0, 0⟩
      ∧ (∀ c ∈ raw, Relation.ReflTransGen (twoRooms.Joins (twoRooms.cell ⟨0, 0⟩)) ⟨0, 0⟩ c)
      ∧ (⟨0, 1⟩ ∈ raw ↔
        Relation.ReflTransGen (twoRooms.Joins (twoRooms.cell ⟨0, 0⟩)) ⟨0, 0⟩ ⟨0, 1⟩)
      ∧ (⟨0, 1⟩ ∈ raw → raw.getLast? = some ⟨0, 1⟩) :=
  calcRawPath_search (by decide) (by decide) ⟨0, 1⟩

end BlockMap

end PoETask.Attach
