import PoETask.Attach.RawSearch

/-!
# The accesses to the grid

The indices at which `DetectConnectedArea` and `CalcRawPath` read and write their arrays of cells.
Both let a neighbour pass when its row is the height of the map, so a cell of the last row makes
them read behind the arrays. What is read there is unknown, and counts as blocked here: the lists
are exact up to the first such access.
-/

namespace PoETask.Attach

namespace BlockMap

variable (map : BlockMap)

/-- The checks of the coordinates of a neighbour, as both searches make them. -/
def Admitted (c : IVector) : Prop :=
  0 ≤ c.x ∧ c.x < map.mapWidth ∧ 0 ≤ c.y ∧ c.y ≤ map.mapHeight

instance (c : IVector) : Decidable (map.Admitted c) :=
  inferInstanceAs (Decidable (_ ∧ _ ∧ _ ∧ _))

/-- An index of the arrays. -/
def InBuffer (i : ℤ) : Prop :=
  0 ≤ i ∧ i < map.mapWidth * map.mapHeight

instance (i : ℤ) : Decidable (map.InBuffer i) :=
  inferInstanceAs (Decidable (_ ∧ _))

/-- A turn of the fill: the link of the cell that left the stack, and the neighbours in the
temporary buffer, each read and then, when it has the seed, written. -/
def fillAccesses (current : IVector) : List ℤ :=
  map.index current
    :: (((List.range 8).map (towards current)).filter fun c => map.Admitted c).map map.index

/-- The walk along the links: an output cell is written and its link is read. -/
def chainAccesses (pnConnComponents : List ℤ) : ℕ → ℤ → List ℤ
  | 0, _ => []
  | fuel + 1, k =>
      let c : IVector := ⟨k.tmod map.mapWidth, k.tdiv map.mapWidth⟩
      let linked := pnConnComponents.getD k.toNat (-1)
      if linked = -1 then [map.index c, k]
      else map.index c :: k :: chainAccesses pnConnComponents fuel linked

def detectAccesses (nBk : BYTE) (nStart : IVector) : List ℤ :=
  if map.mapWidth = 0 ∨ map.mapHeight = 0 then []
  else if map.cell nStart = nBk then [map.index nStart]
  else
    map.index nStart :: (map.detectTurns nBk nStart).flatMap (fun turn => map.fillAccesses turn.1)
      ++ match map.fillLoop nBk (map.cell nStart) (map.mapWidth * map.mapHeight) nStart
          (map.startFill nBk nStart) with
        | none => []
        | some (last, fill) =>
            map.chainAccesses fill.pnConnComponents (map.mapWidth * map.mapHeight) (map.index last)

/-- The cells of the input that the `roundScan` variant looks at. -/
def cornerAccesses (c : IVector) : List ℤ :=
  if 0 < c.x ∧ c.x < map.mapWidth - 1 ∧ 0 < c.y ∧ c.y < map.mapHeight - 1 then
    [map.index ⟨c.x, c.y + 1⟩, map.index ⟨c.x + 1, c.y⟩, map.index ⟨c.x, c.y - 1⟩,
      map.index ⟨c.x - 1, c.y⟩]
  else []

/-- A turn of the trace; the loop over the directions breaks at the end cell. -/
def scanAccesses (nSeed : BYTE) (roundScan : Bool) (current nEnd : IVector) :
    List ℕ → Trace → List ℤ
  | [], _ => []
  | k :: rest, trace =>
      let next := towards current k
      if ¬ map.Admitted next then scanAccesses nSeed roundScan current nEnd rest trace
      else
        map.index next ::
          if readByte trace.pbTemp (map.index next) ≠ nSeed then
            scanAccesses nSeed roundScan current nEnd rest trace
          else
            let marked := trace.pbTemp.set (map.index next).toNat blocked
            let corners := if roundScan then map.cornerAccesses next else []
            if roundScan && map.cornered nSeed next then
              corners ++ scanAccesses nSeed roundScan current nEnd rest
                { trace with pbTemp := marked }
            else if next = nEnd then corners
            else
              corners ++ scanAccesses nSeed roundScan current nEnd rest
                { pbTemp := marked
                  pnStack := map.index next :: trace.pnStack
                  pPoints := trace.pPoints ++ [next] }

def traceAccesses (nSeed : BYTE) (roundScan : Bool) (nEnd : IVector) :
    ℕ → IVector → Trace → List ℤ
  | 0, _, _ => []
  | fuel + 1, current, trace =>
      match pnDir ⟨nEnd.x - current.x, nEnd.y - current.y⟩ with
      | none => []
      | some directions =>
          let scanned :=
            map.scanDirections nSeed roundScan current nEnd directions.reverse trace
          map.scanAccesses nSeed roundScan current nEnd directions.reverse trace
            ++ match scanned.pnStack with
              | [] => []
              | top :: rest =>
                  traceAccesses nSeed roundScan nEnd fuel
                    ⟨top.tmod map.mapWidth, top.tdiv map.mapWidth⟩ { scanned with pnStack := rest }

def rawAccesses (nStart nEnd : IVector) (roundScan : Bool) : List ℤ :=
  if map.mapWidth = 0 ∨ map.mapHeight = 0 then []
  else if map.cell nStart = blocked then [map.index nStart]
  else
    map.index nStart
      :: map.traceAccesses (map.cell nStart) roundScan nEnd (map.mapWidth * map.mapHeight) nStart
        { pbTemp := map.blockBuffer.set (map.index nStart).toNat blocked
          pnStack := []
          pPoints := [nStart] }

variable {map} {nBk nSeed : BYTE} {nStart nEnd current c : IVector} {roundScan : Bool}

theorem Inside.inBuffer (inside : map.Inside c) : map.InBuffer (map.index c) := by
  refine ⟨inside.index_nonneg, ?_⟩
  have nonneg := inside.index_nonneg
  have below := inside.index_lt
  rw [map.size] at below
  have : map.index c < (map.mapWidth * map.mapHeight : ℕ) := by omega
  exact_mod_cast this

/-- The cells around a cell that is not in the last row are inside the map when they are admitted. -/
theorem Admitted.inside {k : ℕ} (isDirection : k < 8) (admitted : map.Admitted (towards current k))
    (notLast : current.y + 1 < map.mapHeight) : map.Inside (towards current k) := by
  rcases towards_neighbours isDirection current with ⟨_, _, row⟩
  rw [abs_le] at row
  rcases admitted with ⟨left, right, bottom, _⟩
  exact ⟨left, right, bottom, by omega⟩

theorem fillAccesses_inBuffer (inside : map.Inside current)
    (notLast : current.y + 1 < map.mapHeight) :
    ∀ i ∈ map.fillAccesses current, map.InBuffer i := by
  intro i isAccess
  rcases List.mem_cons.mp isAccess with isLink | isRead
  · exact isLink ▸ inside.inBuffer
  · rcases List.mem_map.mp isRead with ⟨c, isCell, rfl⟩
    rcases List.mem_filter.mp isCell with ⟨isNeighbour, admitted⟩
    rcases List.mem_map.mp isNeighbour with ⟨k, isDirection, rfl⟩
    exact (Admitted.inside (List.mem_range.mp isDirection) (of_decide_eq_true admitted)
      notLast).inBuffer

/-- A turn at the last row reads the cell above it, behind the buffer. -/
theorem not_inBuffer_of_last (inside : map.Inside current)
    (isLast : map.mapHeight ≤ current.y + 1) :
    ∃ i ∈ map.fillAccesses current, ¬ map.InBuffer i := by
  have above : towards current 5 = ⟨current.x, map.mapHeight⟩ := by
    rw [IVector.ext_iff]
    have := inside.2.2.2
    simp only [towards, pnDirectX, pnDirectY, List.getD_cons_succ, List.getD_cons_zero]
    omega
  have admitted : map.Admitted (towards current 5) := by
    rw [above]
    exact ⟨inside.1, inside.2.1, Int.natCast_nonneg _, le_rfl⟩
  refine ⟨map.index (towards current 5), ?_, ?_⟩
  · apply List.mem_cons_of_mem
    apply List.mem_map_of_mem
    rw [List.mem_filter]
    exact ⟨List.mem_map_of_mem (by decide), decide_eq_true admitted⟩
  · rw [above]
    rintro ⟨_, isLess⟩
    simp only [index] at isLess
    have := inside.1
    linarith [mul_comm (map.mapWidth : ℤ) map.mapHeight]

theorem chainAccesses_linked {links : List ℤ} {rest : List IVector}
    (linked : Linked map links (c :: rest)) (inside : ∀ d ∈ c :: rest, map.Inside d) (fuel : ℕ) :
    ∀ i ∈ map.chainAccesses links fuel (map.index c), map.InBuffer i := by
  induction fuel generalizing c rest with
  | zero => exact fun i isAccess => absurd isAccess List.not_mem_nil
  | succ fuel linkedRest =>
      have first := inside c List.mem_cons_self
      intro i isAccess
      simp only [chainAccesses, first.decode] at isAccess
      cases rest with
      | nil =>
          simp only [Linked] at linked
          rw [if_pos linked] at isAccess
          simp only [List.mem_cons, List.not_mem_nil, or_false, or_self] at isAccess
          exact isAccess ▸ first.inBuffer
      | cons d rest =>
          have notEnd : ¬ links.getD (map.index c).toNat (-1) = -1 := by
            have := (inside d (by simp)).index_nonneg
            rw [linked.1]
            omega
          rw [if_neg notEnd, linked.1] at isAccess
          rcases List.mem_cons.mp isAccess with isWrite | isLater
          · exact isWrite ▸ first.inBuffer
          · rcases List.mem_cons.mp isLater with isRead | isLater
            · exact isRead ▸ first.inBuffer
            · exact linkedRest linked.2 (fun e isMember => inside e (List.mem_cons_of_mem c isMember))
                i isLater

/-- The fill stays in its buffers exactly when its area keeps clear of the last row. -/
theorem detectAccesses_inBuffer_iff (inside : map.Inside nStart) (notBk : map.cell nStart ≠ nBk) :
    (∀ i ∈ map.detectAccesses nBk nStart, map.InBuffer i)
      ↔ ∀ c, Relation.ReflTransGen (map.Joins (map.cell nStart)) nStart c →
        c.y + 1 < map.mapHeight := by
  rcases fillLoop_filledArea notBk (.init inside) (Nat.le_add_right _ _)
    with ⟨last, filled, visited, isFilled, area, isVisited, _⟩
  have isTurn : ∀ c, (∃ turn ∈ map.detectTurns nBk nStart, turn.1 = c) ↔ c ∈ last :: visited := by
    intro c
    rw [isVisited, List.append_nil, List.mem_reverse, List.mem_map, detectTurns, if_neg inside.notEmpty,
      if_neg notBk]
  rw [detectAccesses, if_neg inside.notEmpty, if_neg notBk, isFilled]
  constructor
  · intro inBuffer c joined
    by_contra notClear
    have isVisit := (area.connected c).mpr joined
    rcases (isTurn c).mpr isVisit with ⟨turn, isMember, rfl⟩
    rcases not_inBuffer_of_last (area.inside _ isVisit) (not_lt.mp notClear)
      with ⟨i, isAccess, notInBuffer⟩
    apply notInBuffer
    apply inBuffer
    apply List.mem_append_left
    exact List.mem_cons_of_mem _ (List.mem_flatMap.mpr ⟨turn, isMember, isAccess⟩)
  · intro clear i isAccess
    rcases List.mem_append.mp isAccess with isFill | isChain
    · rcases List.mem_cons.mp isFill with isFirst | isScan
      · exact isFirst ▸ inside.inBuffer
      · rcases List.mem_flatMap.mp isScan with ⟨turn, isMember, isRead⟩
        have isVisit := (isTurn turn.1).mp ⟨turn, isMember, rfl⟩
        exact fillAccesses_inBuffer (area.inside _ isVisit)
          (clear _ ((area.connected _).mp isVisit)) i isRead
    · exact chainAccesses_linked area.linked area.inside _ i isChain

end BlockMap

/-- A cell that the fill from the start would label. -/
def BlockMap.InArea (map : BlockMap) (nSeed : BYTE) (nStart c : IVector) : Prop :=
  map.Inside c ∧ map.cell c = nSeed ∧ Relation.ReflTransGen (map.Joins nSeed) nStart c

/-- What the trace needs to stay in its area, with any seed and in both variants: the temporary
buffer differs from the map only where it is blocked, and the stack holds cells of the area. -/
structure Roaming (map : BlockMap) (nSeed : BYTE) (nStart : IVector) (trace : Trace) : Prop where
  erased : ∀ i, readByte trace.pbTemp i = blocked ∨ readByte trace.pbTemp i
    = readByte map.blockBuffer i
  stack : ∀ i ∈ trace.pnStack, ∃ c, i = map.index c ∧ map.InArea nSeed nStart c

namespace Roaming

variable {map : BlockMap} {nSeed : BYTE} {nStart current nEnd : IVector} {roundScan : Bool}
variable {trace : Trace}

theorem erase (roaming : Roaming map nSeed nStart trace) (written : ℕ) (i : ℤ) :
    readByte (trace.pbTemp.set written blocked) i = blocked
      ∨ readByte (trace.pbTemp.set written blocked) i = readByte map.blockBuffer i := by
  have old := roaming.erased i
  simp only [readByte, List.getD_eq_getElem?_getD, List.getElem?_set] at old ⊢
  split_ifs
  · exact .inl rfl
  · exact .inl rfl
  · exact old

/-- A neighbour with the seed lies in the area. -/
theorem next_inArea (roaming : Roaming map nSeed nStart trace) (notBlocked : nSeed ≠ blocked)
    (inArea : map.InArea nSeed nStart current) {k : ℕ} (isDirection : k < 8)
    (left : 0 ≤ (towards current k).x) (right : (towards current k).x < map.mapWidth)
    (bottom : 0 ≤ (towards current k).y)
    (isSeed : readByte trace.pbTemp (map.index (towards current k)) = nSeed) :
    map.InArea nSeed nStart (towards current k) := by
  have alike : map.cell (towards current k) = nSeed := by
    rcases roaming.erased (map.index (towards current k)) with isErased | same
    · exact absurd (isSeed.symm.trans isErased) notBlocked
    · exact same.symm.trans isSeed
  have inside : map.Inside (towards current k) :=
    BlockMap.inside_of_cell left right bottom (alike ▸ notBlocked)
  have joins : map.Joins nSeed current (towards current k) :=
    ⟨⟨inArea.1, inArea.2.1⟩, ⟨inside, alike⟩, towards_neighbours isDirection current⟩
  exact ⟨inside, alike, inArea.2.2.tail joins⟩

theorem scanDirections (roaming : Roaming map nSeed nStart trace) (notBlocked : nSeed ≠ blocked)
    (inArea : map.InArea nSeed nStart current) {directions : List ℕ}
    (areDirections : ∀ k ∈ directions, k < 8) (roundScan : Bool) (nEnd : IVector) :
    Roaming map nSeed nStart
      (map.scanDirections nSeed roundScan current nEnd directions trace) := by
  induction directions generalizing trace with
  | nil => exact roaming
  | cons k rest roamsRest =>
      have isDirection := areDirections k List.mem_cons_self
      have restDirections : ∀ k ∈ rest, k < 8 :=
        fun k isLater => areDirections k (List.mem_cons_of_mem _ isLater)
      simp only [BlockMap.scanDirections]
      split_ifs with outsideColumn outsideRow notSeed isCorner isEnd
      · exact roamsRest roaming restDirections
      · exact roamsRest roaming restDirections
      · exact roamsRest roaming restDirections
      · exact roamsRest ⟨roaming.erase _, roaming.stack⟩ restDirections
      · exact ⟨roaming.erase _, fun _ isIndex => absurd isIndex List.not_mem_nil⟩
      · push Not at outsideColumn outsideRow notSeed
        have nextInArea := roaming.next_inArea notBlocked inArea isDirection outsideColumn.1
          outsideColumn.2 outsideRow.1 notSeed
        apply roamsRest _ restDirections
        refine ⟨roaming.erase _, ?_⟩
        intro i isIndex
        rcases List.mem_cons.mp isIndex with isNext | old
        · exact ⟨_, isNext, nextInArea⟩
        · exact roaming.stack i old

end Roaming

namespace BlockMap

variable {map : BlockMap} {nSeed : BYTE} {nStart nEnd current c : IVector} {roundScan : Bool}

theorem cornerAccesses_inBuffer : ∀ i ∈ map.cornerAccesses c, map.InBuffer i := by
  intro i isAccess
  simp only [cornerAccesses] at isAccess
  split_ifs at isAccess with isInner
  · have inside : ∀ d : IVector, |d.x - c.x| ≤ 1 → |d.y - c.y| ≤ 1 → map.Inside d := by
      intro d column row
      rw [abs_le] at column row
      exact ⟨by omega, by omega, by omega, by omega⟩
    simp only [List.mem_cons, List.not_mem_nil, or_false] at isAccess
    rcases isAccess with up | right | down | left
    · exact up ▸ (inside _ (by simp) (by simp)).inBuffer
    · exact right ▸ (inside _ (by simp) (by simp)).inBuffer
    · exact down ▸ (inside _ (by simp) (by simp)).inBuffer
    · exact left ▸ (inside _ (by simp) (by simp)).inBuffer
  · exact absurd isAccess List.not_mem_nil

theorem scanAccesses_inBuffer (notLast : current.y + 1 < map.mapHeight) {directions : List ℕ}
    (areDirections : ∀ k ∈ directions, k < 8) (trace : Trace) :
    ∀ i ∈ map.scanAccesses nSeed roundScan current nEnd directions trace, map.InBuffer i := by
  induction directions generalizing trace with
  | nil => exact fun i isAccess => absurd isAccess List.not_mem_nil
  | cons k rest inBufferRest =>
      have restDirections : ∀ k ∈ rest, k < 8 :=
        fun k isLater => areDirections k (List.mem_cons_of_mem _ isLater)
      have later := fun trace => inBufferRest restDirections trace
      have corners : ∀ i ∈ (if roundScan then map.cornerAccesses (towards current k) else []),
          map.InBuffer i := by
        intro i isAccess
        split_ifs at isAccess
        · exact cornerAccesses_inBuffer i isAccess
        · exact absurd isAccess List.not_mem_nil
      intro i isAccess
      simp only [scanAccesses] at isAccess
      generalize (if roundScan then map.cornerAccesses (towards current k) else []) = cornerCells
        at corners isAccess
      by_cases admitted : map.Admitted (towards current k)
      · have inside := admitted.inside (areDirections k List.mem_cons_self) notLast
        rw [if_neg (not_not.mpr admitted)] at isAccess
        rcases List.mem_cons.mp isAccess with isRead | isAccess
        · exact isRead ▸ inside.inBuffer
        · split_ifs at isAccess with notSeed isCorner isEnd
          · exact later _ i isAccess
          · rcases List.mem_append.mp isAccess with atCorner | isLater
            · exact corners i atCorner
            · exact later _ i isLater
          · exact corners i isAccess
          · rcases List.mem_append.mp isAccess with atCorner | isLater
            · exact corners i atCorner
            · exact later _ i isLater
      · rw [if_pos admitted] at isAccess
        exact later _ i isAccess

/-- A trace whose area keeps clear of the last row stays in its buffers. -/
theorem traceAccesses_inBuffer (notBlocked : nSeed ≠ blocked)
    (clear : ∀ c, Relation.ReflTransGen (map.Joins nSeed) nStart c → c.y + 1 < map.mapHeight)
    (inArea : map.InArea nSeed nStart current) {trace : Trace}
    (roaming : Roaming map nSeed nStart trace) (fuel : ℕ) :
    ∀ i ∈ map.traceAccesses nSeed roundScan nEnd fuel current trace, map.InBuffer i := by
  induction fuel generalizing current trace with
  | zero => exact fun i isAccess => absurd isAccess List.not_mem_nil
  | succ fuel inBufferRest =>
      intro i isAccess
      simp only [traceAccesses] at isAccess
      cases table : pnDir ⟨nEnd.x - current.x, nEnd.y - current.y⟩ with
      | none =>
          simp only [table] at isAccess
          exact absurd isAccess List.not_mem_nil
      | some directions =>
          have areDirections := pnDir_lt table
          have scanned := roaming.scanDirections notBlocked inArea areDirections roundScan nEnd
          simp only [table] at isAccess
          rcases List.mem_append.mp isAccess with isScan | isLater
          · exact scanAccesses_inBuffer (clear current inArea.2.2) areDirections trace i isScan
          · generalize map.scanDirections nSeed roundScan current nEnd directions.reverse trace
              = result at scanned isLater
            cases stack : result.pnStack with
            | nil =>
                simp only [stack] at isLater
                exact absurd isLater List.not_mem_nil
            | cons top rest =>
                have pending := scanned.stack
                rw [stack] at pending
                rcases pending top List.mem_cons_self with ⟨c, isTop, cInArea⟩
                simp only [stack] at isLater
                simp only [isTop, cInArea.1.decode] at isLater
                apply inBufferRest cInArea _ i isLater
                exact ⟨scanned.erased, fun j isPending =>
                  pending j (List.mem_cons_of_mem _ isPending)⟩

theorem rawAccesses_inBuffer (inside : map.Inside nStart) (notBlocked : map.cell nStart ≠ blocked)
    (clear : ∀ c, Relation.ReflTransGen (map.Joins (map.cell nStart)) nStart c →
      c.y + 1 < map.mapHeight) :
    ∀ i ∈ map.rawAccesses nStart nEnd roundScan, map.InBuffer i := by
  intro i isAccess
  rw [rawAccesses, if_neg inside.notEmpty, if_neg notBlocked] at isAccess
  rcases List.mem_cons.mp isAccess with isFirst | isTrace
  · exact isFirst ▸ inside.inBuffer
  · have untouched : Roaming map (map.cell nStart) nStart
        { pbTemp := map.blockBuffer, pnStack := [], pPoints := [] } :=
      ⟨fun _ => .inr rfl, fun _ isIndex => absurd isIndex List.not_mem_nil⟩
    apply traceAccesses_inBuffer notBlocked clear ⟨inside, rfl, .refl⟩ _ _ i isTrace
    exact ⟨untouched.erase _, untouched.stack⟩

/-- Both searches stay in their buffers exactly when the start is blocked or no cell of its area
lies in the last row. -/
theorem gridAccess_inBuffer_iff (inside : map.Inside nStart) (nEnd : IVector) (roundScan : Bool) :
    (∀ i ∈ map.detectAccesses blocked nStart ++ map.rawAccesses nStart nEnd roundScan,
        map.InBuffer i)
      ↔ map.cell nStart = blocked
        ∨ ∀ c, Relation.ReflTransGen (map.Joins (map.cell nStart)) nStart c →
          c.y + 1 < map.mapHeight := by
  rw [List.forall_mem_append]
  by_cases isBlocked : map.cell nStart = blocked
  · have atStart : ∀ i ∈ [map.index nStart], map.InBuffer i := by
      intro i isAccess
      exact List.mem_singleton.mp isAccess ▸ inside.inBuffer
    refine iff_of_true ?_ (.inl isBlocked)
    rw [detectAccesses, rawAccesses, if_neg inside.notEmpty, if_pos isBlocked, if_neg inside.notEmpty,
      if_pos isBlocked]
    exact ⟨atStart, atStart⟩
  · rw [detectAccesses_inBuffer_iff inside isBlocked, or_iff_right isBlocked]
    exact ⟨And.left, fun clear => ⟨clear, rawAccesses_inBuffer inside isBlocked clear⟩⟩

/-- The start's room stays above the last row. -/
theorem gridAccess_inBuffer_twoRooms :
    (∀ i ∈ twoRooms.detectAccesses blocked ⟨0, 0⟩ ++ twoRooms.rawAccesses ⟨0, 0⟩ ⟨3, 0⟩ false,
        twoRooms.InBuffer i)
      ↔ twoRooms.cell ⟨0, 0⟩ = blocked
        ∨ ∀ c, Relation.ReflTransGen (twoRooms.Joins (twoRooms.cell ⟨0, 0⟩)) ⟨0, 0⟩ c →
          c.y + 1 < twoRooms.mapHeight :=
  gridAccess_inBuffer_iff (by decide) ⟨3, 0⟩ false

/-- Two cells that share a byte, with a wall between them. -/
def rowMap : BlockMap where
  mapWidth := 3
  mapHeight := 1
  blockBuffer := [7, 255, 7]
  size := rfl

/-- The only row of `rowMap` is its last one: from its first cell both searches read behind it. -/
theorem gridAccess_not_inBuffer :
    ¬ ∀ (map : BlockMap) (nStart nEnd : IVector) (roundScan : Bool), map.Inside nStart →
      map.Inside nEnd →
      ∀ i ∈ map.detectAccesses blocked nStart ++ map.rawAccesses nStart nEnd roundScan,
        map.InBuffer i := by
  intro claimed
  have notInBuffer : 3 ∈ rowMap.detectAccesses blocked ⟨0, 0⟩
      ++ rowMap.rawAccesses ⟨0, 0⟩ ⟨2, 0⟩ false := by
    decide
  exact absurd (claimed rowMap ⟨0, 0⟩ ⟨2, 0⟩ false (by decide) (by decide) 3 notInBuffer)
    (by decide)

end BlockMap

end PoETask.Attach
