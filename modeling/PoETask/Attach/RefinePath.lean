import PoETask.Attach.RawPath
import Mathlib.Data.List.Chain

/-!
# The refined path

`IsConnected`, `CalcMidStep` and `CalcRefinePath`: points that a later point sees along a
straight line are left out, and points are inserted where two kept ones are far apart.
-/

namespace PoETask.Attach

/-- The loop along the longer axis of a line: the cells it looks at. -/
def lineLoop (inc2dy inc2dydx incValue : ℤ) : ℕ → ℤ → ℤ → ℤ → List (ℤ × ℤ)
  | 0, _, _, _ => []
  | turns + 1, ndx, other, pValue =>
      if 0 > pValue then
        (ndx, other)
          :: lineLoop inc2dy inc2dydx incValue turns (ndx + 1) other (pValue + inc2dy)
      else
        (ndx, other + incValue)
          :: lineLoop inc2dy inc2dydx incValue turns (ndx + 1) (other + incValue)
            (pValue + inc2dydx)

/-- The cells that `IsConnected` and `CalcMidStep` look at, in their order. -/
def lineCells (pt1 pt2 : IVector) : List IVector :=
  let dx := |pt2.x - pt1.x|
  let dy := |pt2.y - pt1.y|
  if dy ≤ dx then
    let low := if pt2.x < pt1.x then pt2 else pt1
    let high := if pt2.x < pt1.x then pt1 else pt2
    (lineLoop (2 * dy) (2 * (dy - dx)) (if low.y < high.y then 1 else -1)
      (high.x - low.x).toNat low.x low.y (2 * dy - dx)).map fun c => ⟨c.1, c.2⟩
  else
    let low := if pt2.y < pt1.y then pt2 else pt1
    let high := if pt2.y < pt1.y then pt1 else pt2
    (lineLoop (2 * dx) (2 * (dx - dy)) (if low.x < high.x then 1 else -1)
      (high.y - low.y).toNat low.y low.x (2 * dx - dy)).map fun c => ⟨c.2, c.1⟩

def twentySteps (pt1 pt2 : IVector) : IVector :=
  let dx := |pt2.x - pt1.x|
  let dy := |pt2.y - pt1.y|
  { x := pt1.x + ((pt2.x - pt1.x) * 20).tdiv (dx + dy)
    y := pt1.y + ((pt2.y - pt1.y) * 20).tdiv (dx + dy) }

namespace BlockMap

variable (map : BlockMap)

def isConnected (pt1 pt2 : IVector) : Bool :=
  (lineCells pt1 pt2).all fun c => map.cell c ≠ blocked

/-- The loop of `CalcMidStep` over the cells of the line. -/
def midLoop (nStep : ℤ) (pt1 pointMid : IVector) : List IVector → IVector
  | [] => pointMid
  | c :: rest =>
      if map.cell c = blocked then pointMid
      else if nStep * nStep ≤ distSquared c pt1 then c
      else midLoop nStep pt1 pointMid rest

def calcMidStep (nStep : ℤ) (pt1 pt2 : IVector) : IVector :=
  map.midLoop nStep pt1 (twentySteps pt1 pt2) (lineCells pt1 pt2)

/-- `pbRefine` after the loop over `k` has marked the points between `j` and `i`. -/
def markBetween (j i : ℕ) (pbRefine : List Bool) : List Bool :=
  pbRefine.mapIdx fun k marked => marked || (j < k && k < i)

/-- The loop over `j`, counted down; it returns the last `k` and the marks. -/
def markLoop (points : List IVector) (i : ℕ) : ℕ → ℤ → List Bool → ℤ × List Bool
  | 0, k, pbRefine => (k, pbRefine)
  | j + 1, k, pbRefine =>
      if map.isConnected (points.getD i default) (points.getD j default) then
        markLoop points i j j (markBetween j i pbRefine)
      else markLoop points i j k pbRefine

/-- The loop over `i`; every turn lowers `i` by at least two. -/
def refineLoop (points : List IVector) : ℕ → ℤ → List Bool → List Bool
  | 0, _, pbRefine => pbRefine
  | fuel + 1, i, pbRefine =>
      if 0 < i then
        let (k, marked) := map.markLoop points i.toNat (i.toNat - 1) (i - 2) pbRefine
        refineLoop points fuel k marked
      else pbRefine

/-- The points that are left when the marked ones are gone. -/
def keptPoints (points : List IVector) : List IVector :=
  let pbRefine := map.refineLoop points points.length (points.length - 1)
    (List.replicate points.length false)
  ((List.range points.length).filter fun i => !pbRefine.getD i false).map
    fun i => points.getD i default

/-- The loop that inserts points; `none` when the fuel runs out. -/
def insertLoop (nStep : ℤ) : ℕ → List IVector → Option (List IVector)
  | 0, _ => none
  | fuel + 1, p :: q :: rest =>
      if nStep < distSquared p q then
        (insertLoop nStep fuel (map.calcMidStep nStep p q :: q :: rest)).map (p :: ·)
      else (insertLoop nStep fuel (q :: rest)).map (p :: ·)
  | _ + 1, points => some points

/-- The distance along a list of points by rows and columns, and a turn for each point. -/
def walkLength : List IVector → ℕ
  | p :: q :: rest => (q.x - p.x).natAbs + (q.y - p.y).natAbs + 1 + walkLength (q :: rest)
  | _ => 1

def calcRefinePath (nStep : ℤ) (points : List IVector) : Option (List IVector) :=
  let kept := map.keptPoints points
  map.insertLoop (nStep * nStep) (walkLength kept) kept

end BlockMap

/-- The rectangle with two opposite corners. -/
structure Between (p q c : IVector) : Prop where
  left : min p.x q.x ≤ c.x
  right : c.x ≤ max p.x q.x
  bottom : min p.y q.y ≤ c.y
  top : c.y ≤ max p.y q.y

namespace Between

variable {p q r c : IVector}

theorem trans (outer : Between p q r) (inner : Between r q c) : Between p q c := by
  rcases outer with ⟨_, _, _, _⟩
  rcases inner with ⟨_, _, _, _⟩
  constructor <;> omega

theorem inside {map : BlockMap} (between : Between p q c) (pInside : map.Inside p)
    (qInside : map.Inside q) : map.Inside c := by
  rcases between with ⟨_, _, _, _⟩
  rcases pInside with ⟨_, _, _, _⟩
  rcases qInside with ⟨_, _, _, _⟩
  refine ⟨?_, ?_, ?_, ?_⟩ <;> omega

theorem nearer (between : Between p q c) (notFirst : c ≠ p) :
    (q.x - c.x).natAbs + (q.y - c.y).natAbs < (q.x - p.x).natAbs + (q.y - p.y).natAbs := by
  rcases between with ⟨_, _, _, _⟩
  simp only [ne_eq, IVector.ext_iff] at notFirst
  omega

end Between

section Turns

variable {short long done moved pValue : ℤ}

/-- The error term after a turn that goes straight on. -/
theorem line_straight (isPValue : pValue = 2 * short * (done + 1) - 2 * long * moved - long) :
    pValue + 2 * short = 2 * short * (done + 1 + 1) - 2 * long * moved - long := by
  simp only [isPValue]
  ring

/-- The error term after a turn that moves sideways. -/
theorem line_sideways (isPValue : pValue = 2 * short * (done + 1) - 2 * long * moved - long) :
    pValue + 2 * (short - long) = 2 * short * (done + 1 + 1) - 2 * long * (moved + 1) - long := by
  simp only [isPValue]
  ring

/-- A turn moves sideways only when fewer than `short` moves are behind it. -/
theorem line_movesOn (shortNonneg : 0 ≤ short) (longPositive : 0 < long)
    (isTurn : done + 1 ≤ long) (fits : moved ≤ short)
    (isPValue : pValue = 2 * short * (done + 1) - 2 * long * moved - long)
    (moves : ¬ 0 > pValue) : moved + 1 ≤ short := by
  by_contra stays
  have isMoved : moved = short := by omega
  have bounded : short * (done + 1) ≤ short * long :=
    mul_le_mul_of_nonneg_left isTurn shortNonneg
  simp only [isPValue, isMoved] at moves
  apply moves
  linarith [mul_comm short long]

end Turns

/-- `other` has moved `moved` times in `done` turns, and never moves more than `short` times. -/
theorem lineLoop_mem {short long incValue : ℤ} (shortNonneg : 0 ≤ short) {turns : ℕ}
    {ndx other pValue done moved : ℤ} (started : 0 ≤ done) (total : done + turns = long)
    (fits : moved ≤ short)
    (isPValue : pValue = 2 * short * (done + 1) - 2 * long * moved - long) {c : ℤ × ℤ}
    (isCell : c ∈ lineLoop (2 * short) (2 * (short - long)) incValue turns ndx other pValue) :
    ndx ≤ c.1 ∧ c.1 < ndx + turns
      ∧ ∃ more, 0 ≤ more ∧ more ≤ short - moved ∧ c.2 = other + incValue * more := by
  induction turns generalizing ndx other pValue done moved with
  | zero => exact absurd isCell List.not_mem_nil
  | succ turns memRest =>
      push_cast at total ⊢
      simp only [lineLoop] at isCell
      split_ifs at isCell with straight
      · rcases List.mem_cons.mp isCell with isFirst | isLater
        · simp only [isFirst]
          exact ⟨le_rfl, by omega, 0, le_rfl, by omega, by simp⟩
        · rcases memRest (by omega) (by omega) fits (line_straight isPValue) isLater with ⟨low, high, more, isMore⟩
          exact ⟨by omega, by omega, more, isMore⟩
      · have movesOn := line_movesOn shortNonneg (by omega) (by omega) fits isPValue straight
        rcases List.mem_cons.mp isCell with isFirst | isLater
        · simp only [isFirst]
          exact ⟨le_rfl, by omega, 1, by omega, by omega, by simp⟩
        · rcases memRest (by omega) (by omega) movesOn (line_sideways isPValue) isLater
            with ⟨low, high, more, nonneg, atMost, isOther⟩
          refine ⟨by omega, by omega, more + 1, by omega, by omega, ?_⟩
          simp only [isOther]
          ring

theorem lineLoop_between {a b u v : ℤ} (forward : a ≤ b) {c : ℤ × ℤ}
    (isCell : c ∈ lineLoop (2 * |v - u|) (2 * (|v - u| - |b - a|)) (if u < v then 1 else -1)
      (b - a).toNat a u (2 * |v - u| - |b - a|)) :
    a ≤ c.1 ∧ c.1 ≤ b ∧ min u v ≤ c.2 ∧ c.2 ≤ max u v := by
  have long : |b - a| = b - a := abs_of_nonneg (sub_nonneg.mpr forward)
  simp only [long] at isCell
  have isStart : 2 * |v - u| - (b - a) = 2 * |v - u| * (0 + 1) - 2 * (b - a) * 0 - (b - a) := by
    ring
  rcases lineLoop_mem (abs_nonneg _) le_rfl (by omega) (abs_nonneg _) isStart isCell
    with ⟨low, high, more, nonneg, atMost, isOther⟩
  refine ⟨low, by omega, ?_⟩
  simp only [isOther]
  split_ifs with upwards
  · simp only [abs_of_pos (sub_pos.mpr upwards)] at atMost
    omega
  · rw [abs_of_nonpos (by omega)] at atMost
    omega

/-- The loops look at cells of the rectangle only. -/
theorem between_of_mem_lineCells {p q c : IVector} (isCell : c ∈ lineCells p q) :
    Between p q c := by
  by_cases flat : |q.y - p.y| ≤ |q.x - p.x|
  · by_cases backwards : q.x < p.x
    · simp only [lineCells, if_pos flat, if_pos backwards] at isCell
      simp only [abs_sub_comm q.y, abs_sub_comm q.x] at isCell
      rcases List.mem_map.mp isCell with ⟨pair, isPair, rfl⟩
      rcases lineLoop_between backwards.le isPair with ⟨low, high, bottom, top⟩
      constructor <;> dsimp only <;> omega
    · simp only [lineCells, if_pos flat, if_neg backwards] at isCell
      rcases List.mem_map.mp isCell with ⟨pair, isPair, rfl⟩
      rcases lineLoop_between (not_lt.mp backwards) isPair with ⟨low, high, bottom, top⟩
      constructor <;> dsimp only <;> omega
  · by_cases backwards : q.y < p.y
    · simp only [lineCells, if_neg flat, if_pos backwards] at isCell
      simp only [abs_sub_comm q.y, abs_sub_comm q.x] at isCell
      rcases List.mem_map.mp isCell with ⟨pair, isPair, rfl⟩
      rcases lineLoop_between backwards.le isPair with ⟨low, high, bottom, top⟩
      constructor <;> dsimp only <;> omega
    · simp only [lineCells, if_neg flat, if_neg backwards] at isCell
      rcases List.mem_map.mp isCell with ⟨pair, isPair, rfl⟩
      rcases lineLoop_between (not_lt.mp backwards) isPair with ⟨low, high, bottom, top⟩
      constructor <;> dsimp only <;> omega

theorem share_between {share size : ℤ} (large : 20 ≤ size) :
    min 0 share ≤ (share * 20).tdiv size ∧ (share * 20).tdiv size ≤ max 0 share := by
  rcases le_total 0 share with forward | backward
  · rw [Int.tdiv_eq_ediv_of_nonneg (by omega)]
    have nonneg : 0 ≤ share * 20 / size := Int.ediv_nonneg (by omega) (by omega)
    have atMost : share * 20 / size ≤ share :=
      Int.ediv_le_of_le_mul (by omega) (mul_le_mul_of_nonneg_left large forward)
    omega
  · have isNegated : (share * 20).tdiv size = -(-share * 20 / size) := by
      rw [← Int.tdiv_eq_ediv_of_nonneg (by omega), ← Int.neg_tdiv]
      congr 1
      ring
    have nonneg : 0 ≤ -share * 20 / size := Int.ediv_nonneg (by omega) (by omega)
    have atMost : -share * 20 / size ≤ -share :=
      Int.ediv_le_of_le_mul (by omega) (mul_le_mul_of_nonneg_left large (by omega))
    omega

theorem share_ne_zero {share size : ℤ} (positive : 0 < size) (atLeast : size ≤ 20 * |share|) :
    (share * 20).tdiv size ≠ 0 := by
  intro stays
  have isZero : share.natAbs * 20 / size.natAbs = 0 := by
    rw [← Int.natAbs_zero, ← stays, Int.natAbs_tdiv, Int.natAbs_mul]
    rfl
  simp only [Nat.div_eq_zero_iff] at isZero
  simp only [Int.abs_eq_natAbs] at atLeast
  omega

theorem far_apart {p q : IVector} (isFar : 20 * 20 < distSquared p q) :
    20 < |q.x - p.x| + |q.y - p.y| := by
  by_contra isNear
  have squares : distSquared p q ≤ (|q.x - p.x| + |q.y - p.y|) ^ 2 := by
    have isSum : distSquared p q = |q.x - p.x| ^ 2 + |q.y - p.y| ^ 2 := by
      simp only [sq_abs, sq_abs, distSquared]
      ring
    simp only [isSum]
    nlinarith [mul_nonneg (abs_nonneg (q.x - p.x)) (abs_nonneg (q.y - p.y))]
  nlinarith [abs_nonneg (q.x - p.x), abs_nonneg (q.y - p.y)]

theorem twentySteps_between {p q : IVector} (isFar : 20 * 20 < distSquared p q) :
    Between p q (twentySteps p q) := by
  have isLarge := (far_apart isFar).le
  have column : min 0 (q.x - p.x) ≤ (twentySteps p q).x - p.x
      ∧ (twentySteps p q).x - p.x ≤ max 0 (q.x - p.x) := by
    simp only [twentySteps, add_sub_cancel_left]
    exact share_between isLarge
  have row : min 0 (q.y - p.y) ≤ (twentySteps p q).y - p.y
      ∧ (twentySteps p q).y - p.y ≤ max 0 (q.y - p.y) := by
    simp only [twentySteps, add_sub_cancel_left]
    exact share_between isLarge
  exact ⟨by omega, by omega, by omega, by omega⟩

theorem twentySteps_ne {p q : IVector} (isFar : 20 * 20 < distSquared p q) :
    twentySteps p q ≠ p := by
  have isLarge := far_apart isFar
  intro stays
  simp only [IVector.ext_iff] at stays
  simp only [twentySteps, add_eq_left] at stays
  rcases le_total |q.x - p.x| |q.y - p.y| with steep | flat
  · exact share_ne_zero (by omega) (by omega) stays.2
  · exact share_ne_zero (by omega) (by omega) stays.1

namespace BlockMap

theorem midLoop_cases (map : BlockMap) (nStep : ℤ) (pt1 pointMid : IVector) (cells : List IVector) :
    map.midLoop nStep pt1 pointMid cells = pointMid
      ∨ map.midLoop nStep pt1 pointMid cells ∈ cells
        ∧ map.cell (map.midLoop nStep pt1 pointMid cells) ≠ blocked
        ∧ nStep * nStep ≤ distSquared (map.midLoop nStep pt1 pointMid cells) pt1 := by
  induction cells with
  | nil => exact .inl rfl
  | cons c rest casesRest =>
      simp only [midLoop]
      split_ifs with isBlocked isFar
      · exact .inl rfl
      · exact .inr ⟨List.mem_cons_self, isBlocked, isFar⟩
      · exact casesRest.imp_right fun ⟨isCell, facts⟩ => ⟨List.mem_cons_of_mem c isCell, facts⟩

/-- `CalcRefinePath` passes its squared step, here 400, as the step. -/
theorem calcMidStep_cases (map : BlockMap) (p q : IVector) :
    map.calcMidStep (20 * 20) p q = twentySteps p q
      ∨ Between p q (map.calcMidStep (20 * 20) p q)
        ∧ map.calcMidStep (20 * 20) p q ≠ p
        ∧ map.cell (map.calcMidStep (20 * 20) p q) ≠ blocked := by
  rcases map.midLoop_cases (20 * 20) p (twentySteps p q) (lineCells p q)
    with isTwenty | ⟨isCell, notBlocked, isFar⟩
  · exact .inl isTwenty
  · refine .inr ⟨between_of_mem_lineCells isCell, ?_, notBlocked⟩
    intro isFirst
    simp only [calcMidStep] at isFirst
    simp only [isFirst] at isFar
    simp [distSquared] at isFar

theorem calcMidStep_between (map : BlockMap) {p q : IVector} (isFar : 20 * 20 < distSquared p q) :
    Between p q (map.calcMidStep (20 * 20) p q) := by
  rcases map.calcMidStep_cases p q with isTwenty | ⟨between, _⟩
  · simp only [isTwenty]
    exact twentySteps_between isFar
  · exact between

theorem calcMidStep_ne (map : BlockMap) {p q : IVector} (isFar : 20 * 20 < distSquared p q) :
    map.calcMidStep (20 * 20) p q ≠ p := by
  rcases map.calcMidStep_cases p q with isTwenty | ⟨_, notFirst, _⟩
  · simp only [isTwenty]
    exact twentySteps_ne isFar
  · exact notFirst

end BlockMap

/-- The points that the loop inserts between `p` and `q`. -/
structure Inserted (map : BlockMap) (p q : IVector) (mids : List IVector) : Prop where
  empty_iff : mids = [] ↔ distSquared p q ≤ 20 * 20
  between : ∀ c ∈ mids, Between p q c
  origin : ∀ c ∈ mids, map.cell c ≠ blocked ∨ ∃ r ∈ p :: mids, c = twentySteps r q

namespace Inserted

variable {map : BlockMap} {p q : IVector}

theorem close (isClose : distSquared p q ≤ 20 * 20) : Inserted map p q [] where
  empty_iff := iff_of_true rfl isClose
  between _ isMid := absurd isMid List.not_mem_nil
  origin _ isMid := absurd isMid List.not_mem_nil

theorem far (isFar : 20 * 20 < distSquared p q) {mids : List IVector}
    (inserted : Inserted map (map.calcMidStep (20 * 20) p q) q mids) :
    Inserted map p q (map.calcMidStep (20 * 20) p q :: mids) where
  empty_iff := iff_of_false (List.cons_ne_nil _ _) (not_le.mpr isFar)
  between c isMid := by
    have between := map.calcMidStep_between isFar
    rcases List.mem_cons.mp isMid with isFirst | isLater
    · simp only [isFirst]
      exact between
    · exact between.trans (inserted.between c isLater)
  origin c isMid := by
    rcases List.mem_cons.mp isMid with isFirst | isLater
    · simp only [isFirst]
      rcases map.calcMidStep_cases p q with isTwenty | ⟨_, _, notBlocked⟩
      · exact .inr ⟨p, List.mem_cons_self, isTwenty⟩
      · exact .inl notBlocked
    · rcases inserted.origin c isLater with notBlocked | ⟨r, isOrigin, isTwenty⟩
      · exact .inl notBlocked
      · exact .inr ⟨r, List.mem_cons_of_mem p isOrigin, isTwenty⟩

end Inserted

/-- `out` holds the points of `kept` with points inserted between consecutive ones. -/
inductive Interpolated (map : BlockMap) : List IVector → List IVector → Prop where
  | nil : Interpolated map [] []
  | last (p : IVector) : Interpolated map [p] [p]
  | cons {p q : IVector} {rest mids out : List IVector} (inserted : Inserted map p q mids)
      (interpolated : Interpolated map (q :: rest) (q :: out)) :
      Interpolated map (p :: q :: rest) (p :: (mids ++ q :: out))

namespace Interpolated

variable {map : BlockMap} {kept out : List IVector}

theorem getLast? (interpolated : Interpolated map kept out) : out.getLast? = kept.getLast? := by
  induction interpolated with
  | nil => rfl
  | last p => rfl
  | cons _ _ lastRest =>
      rw [List.getLast?_cons_cons, ← lastRest, List.getLast?_cons, List.getLast?_append]
      simp [List.getLast?_cons]

/-- An output point was kept, or inserted between two kept ones. -/
theorem origin (interpolated : Interpolated map kept out) {c : IVector} (isPoint : c ∈ out) :
    c ∈ kept ∨ (∃ p ∈ kept, ∃ q ∈ kept, Between p q c)
      ∧ (map.cell c ≠ blocked ∨ ∃ r ∈ out, ∃ q ∈ kept, c = twentySteps r q) := by
  induction interpolated with
  | nil => exact absurd isPoint List.not_mem_nil
  | last p => exact .inl isPoint
  | @cons p q rest mids out inserted _ originRest =>
      rw [← List.cons_append, List.mem_append] at isPoint
      rcases isPoint with isNew | isLater
      · rcases List.mem_cons.mp isNew with isFirst | isMid
        · exact .inl (isFirst ▸ List.mem_cons_self)
        · refine .inr ⟨⟨p, by simp, q, by simp, inserted.between c isMid⟩, ?_⟩
          rcases inserted.origin c isMid with notBlocked | ⟨r, isOrigin, isTwenty⟩
          · exact .inl notBlocked
          · refine .inr ⟨r, ?_, q, by simp, isTwenty⟩
            rw [← List.cons_append]
            exact List.mem_append_left _ isOrigin
      · have widen : ∀ {r}, r ∈ q :: rest → r ∈ p :: q :: rest := List.mem_cons_of_mem p
        rcases originRest isLater with isKept | ⟨⟨r, isKept, s, isKept', between⟩, facts⟩
        · exact .inl (widen isKept)
        · refine .inr ⟨⟨r, widen isKept, s, widen isKept', between⟩, ?_⟩
          rcases facts with notBlocked | ⟨r, isOut, s, isKept, isTwenty⟩
          · exact .inl notBlocked
          · refine .inr ⟨r, ?_, s, widen isKept, isTwenty⟩
            exact List.mem_cons_of_mem _ (List.mem_append_right _ isOut)

theorem exists_tail {p : IVector} {rest : List IVector}
    (interpolated : Interpolated map (p :: rest) out) : ∃ tail, out = p :: tail := by
  cases interpolated with
  | last => exact ⟨[], rfl⟩
  | cons => exact ⟨_, rfl⟩

theorem head? (interpolated : Interpolated map kept out) : out.head? = kept.head? := by
  cases interpolated <;> rfl

theorem insert_far {p q : IVector} {rest : List IVector} (isFar : 20 * 20 < distSquared p q)
    (interpolated : Interpolated map (map.calcMidStep (20 * 20) p q :: q :: rest) out) :
    Interpolated map (p :: q :: rest) (p :: out) := by
  cases interpolated with
  | cons inserted interpolatedRest => exact .cons (inserted.far isFar) interpolatedRest

theorem insert_close {p q : IVector} {rest : List IVector} (isClose : distSquared p q ≤ 20 * 20)
    (interpolated : Interpolated map (q :: rest) out) :
    Interpolated map (p :: q :: rest) (p :: out) := by
  rcases interpolated.exists_tail with ⟨tail, rfl⟩
  exact .cons (.close isClose) interpolated

end Interpolated

namespace BlockMap

variable {map : BlockMap}

theorem one_le_walkLength (points : List IVector) : 1 ≤ walkLength points := by
  unfold walkLength
  split <;> omega

/-- The loop finishes, because an inserted point is nearer to the next kept point. What its turns
keep, from behind, holds of the kept points and its result. -/
theorem insertLoop_run {motive : List IVector → List IVector → Prop} (nil : motive [] [])
    (last : ∀ p, motive [p] [p])
    (insertFar : ∀ {p q rest out}, 20 * 20 < distSquared p q →
      motive (map.calcMidStep (20 * 20) p q :: q :: rest) out → motive (p :: q :: rest) (p :: out))
    (insertClose : ∀ {p q rest out}, distSquared p q ≤ 20 * 20 → motive (q :: rest) out →
      motive (p :: q :: rest) (p :: out))
    {fuel : ℕ} {points : List IVector} (enough : walkLength points ≤ fuel) :
    ∃ out, map.insertLoop (20 * 20) fuel points = some out ∧ motive points out := by
  induction fuel generalizing points with
  | zero =>
      have := one_le_walkLength points
      omega
  | succ fuel runs =>
      match points with
      | [] => exact ⟨[], rfl, nil⟩
      | [p] => exact ⟨[p], rfl, last p⟩
      | p :: q :: rest =>
          simp only [insertLoop]
          simp only [walkLength] at enough
          split_ifs with isFar
          · have nearer := (map.calcMidStep_between isFar).nearer (map.calcMidStep_ne isFar)
            have enoughRest : walkLength (map.calcMidStep (20 * 20) p q :: q :: rest) ≤ fuel := by
              simp only [walkLength]
              omega
            rcases runs enoughRest with ⟨out, isOut, holds⟩
            exact ⟨p :: out, by rw [isOut]; rfl, insertFar isFar holds⟩
          · rcases runs (by omega : walkLength (q :: rest) ≤ fuel) with ⟨out, isOut, holds⟩
            exact ⟨p :: out, by rw [isOut]; rfl, insertClose (not_lt.mp isFar) holds⟩

theorem insertLoop_interpolated {fuel : ℕ} {points : List IVector}
    (enough : walkLength points ≤ fuel) :
    ∃ out, map.insertLoop (20 * 20) fuel points = some out ∧ Interpolated map points out := by
  apply insertLoop_run .nil .last _ _ enough
  · exact fun isFar interpolated => interpolated.insert_far isFar
  · exact fun isClose interpolated => interpolated.insert_close isClose

theorem getD_replicate_false (length k : ℕ) :
    (List.replicate length false).getD k false = false := by
  simp only [List.getD_eq_getElem?_getD, List.getElem?_replicate]
  split_ifs <;> rfl

theorem length_markBetween (j i : ℕ) (pbRefine : List Bool) :
    (markBetween j i pbRefine).length = pbRefine.length :=
  List.length_mapIdx

theorem getD_markBetween {j i x : ℕ} {pbRefine : List Bool} (inRange : i ≤ pbRefine.length) :
    (markBetween j i pbRefine).getD x false
      = (pbRefine.getD x false || (j < x && x < i : Bool)) := by
  simp only [markBetween, List.getD_eq_getElem?_getD, List.getElem?_mapIdx]
  by_cases isPoint : x < pbRefine.length
  · simp [List.getElem?_eq_getElem isPoint]
  · have beyond : ¬ x < i := by omega
    simp [List.getElem?_eq_none (not_lt.mp isPoint), beyond]

/-- The loop over `j` leaves everything alone, or marks the points up to the connected point
that it ends with. -/
theorem markLoop_cases (map : BlockMap) (points : List IVector) {i : ℕ} (count : ℕ) (k : ℤ)
    {pbRefine : List Bool} (inRange : i ≤ pbRefine.length) :
    map.markLoop points i count k pbRefine = (k, pbRefine)
      ∨ ∃ j < count, ∃ marked : List Bool,
        map.markLoop points i count k pbRefine = (↑j, marked)
          ∧ map.isConnected (points.getD i default) (points.getD j default) = true
          ∧ marked.length = pbRefine.length
          ∧ ∀ x, marked.getD x false = (pbRefine.getD x false || (j < x && x < i : Bool)) := by
  induction count generalizing k pbRefine with
  | zero => exact .inl rfl
  | succ j casesRest =>
      simp only [markLoop]
      split_ifs with isConnected
      · have inRange' : i ≤ (markBetween j i pbRefine).length := by
          rwa [length_markBetween]
        rcases casesRest j inRange' with
          same | ⟨j', isBelow, marked, isMarked, isConnected', sameLength, reads⟩
        · refine .inr ⟨j, Nat.lt_succ_self j, _, same, isConnected, length_markBetween _ _ _, ?_⟩
          intro x
          exact getD_markBetween inRange
        · refine .inr ⟨j', by omega, marked, isMarked, isConnected', ?_, ?_⟩
          · simp only [sameLength, length_markBetween]
          · intro x
            simp only [reads, getD_markBetween inRange]
            cases pbRefine.getD x false <;> simp
            omega
      · rcases casesRest k inRange with same | ⟨j', isBelow, facts⟩
        · exact .inl same
        · exact .inr ⟨j', by omega, facts⟩

end BlockMap

/-- What is known of the marks when the loop over `i` is at `i`: everything up to `i` is kept,
and from `i` on a kept point is joined to the next kept one or directly before it. -/
structure Refining (map : BlockMap) (points : List IVector) (i : ℤ) (pbRefine : List Bool) :
    Prop where
  length : pbRefine.length = points.length
  below : i < points.length
  unmarked : ∀ k : ℕ, k ≤ i → pbRefine.getD k false = false
  first : pbRefine.getD 0 false = false
  last : pbRefine.getD (points.length - 1) false = false
  joined : ∀ a b : ℕ, i ≤ a → a < b → b < points.length → pbRefine.getD a false = false →
    pbRefine.getD b false = false → (∀ c, a < c → c < b → pbRefine.getD c false = true) →
    map.isConnected (points.getD b default) (points.getD a default) = true ∨ b = a + 1

namespace Refining

variable {map : BlockMap} {points : List IVector}

theorem init (map : BlockMap) (points : List IVector) :
    Refining map points (points.length - 1) (List.replicate points.length false) where
  length := List.length_replicate
  below := by omega
  unmarked k _ := BlockMap.getD_replicate_false _ k
  first := BlockMap.getD_replicate_false _ 0
  last := BlockMap.getD_replicate_false _ _
  joined a b := by omega

theorem lower {i : ℤ} {pbRefine : List Bool} (refining : Refining map points i pbRefine) :
    Refining map points (i - 2) pbRefine where
  length := refining.length
  below := by have := refining.below; omega
  unmarked k isBelow := refining.unmarked k (by omega)
  first := refining.first
  last := refining.last
  joined a b atLeast less isPoint aKept bKept marked := by
    by_cases old : i ≤ a
    · exact refining.joined a b old less isPoint aKept bKept marked
    · right
      by_contra notNext
      have := marked (a + 1) (by omega) (by omega)
      simp only [refining.unmarked (a + 1) (by push_cast; omega)] at this
      exact Bool.false_ne_true this

theorem mark {i j : ℕ} {pbRefine marked : List Bool} (refining : Refining map points i pbRefine)
    (isBelow : j + 1 < i)
    (isConnected : map.isConnected (points.getD i default) (points.getD j default) = true)
    (sameLength : marked.length = pbRefine.length)
    (reads : ∀ x, marked.getD x false = (pbRefine.getD x false || (j < x && x < i : Bool))) :
    Refining map points j marked where
  length := by rw [sameLength, refining.length]
  below := by have := refining.below; omega
  unmarked k isLow := by
    simp only [reads, refining.unmarked k (by omega)]
    simp
    omega
  first := by rw [reads, refining.first, decide_eq_false (Nat.not_lt_zero j)]; rfl
  last := by
    have := refining.below
    simp only [reads, refining.last]
    simp
    omega
  joined a b atLeast less isPoint aKept bKept isMarked := by
    simp only [reads] at aKept bKept
    by_cases old : (i : ℤ) ≤ a
    · apply refining.joined a b old less isPoint
      · exact (Bool.or_eq_false_iff.mp aKept).1
      · exact (Bool.or_eq_false_iff.mp bKept).1
      · intro c above isLess
        have := isMarked c above isLess
        simp only [reads, Bool.or_eq_true, Bool.and_eq_true, decide_eq_true_eq, decide_eq_true_eq] at this
        exact this.resolve_right (by omega)
    · rw [Bool.or_eq_false_iff, Bool.and_eq_false_iff, decide_eq_false_iff_not,
        decide_eq_false_iff_not] at aKept bKept
      have isJ : a = j := by
        have := aKept.2
        omega
      have isI : b = i := by
        have := bKept.2
        by_contra notI
        have := isMarked i (by omega) (by omega)
        rw [reads, refining.unmarked i le_rfl, decide_eq_false (lt_irrefl i),
          Bool.and_false] at this
        exact Bool.false_ne_true this
      simp only [isJ, isI]
      exact .inl isConnected

end Refining

/-- Every turn keeps what is known of the marks, and the loop ends with `i` at most zero. -/
theorem BlockMap.refineLoop_refining {map : BlockMap} {points : List IVector} {fuel : ℕ} {i : ℤ}
    {pbRefine : List Bool} (refining : Refining map points i pbRefine) (enough : i ≤ fuel) :
    ∃ final ≤ 0, Refining map points final (map.refineLoop points fuel i pbRefine) := by
  induction fuel generalizing i pbRefine with
  | zero => exact ⟨i, enough, refining⟩
  | succ fuel runs =>
      simp only [refineLoop]
      split_ifs with positive
      · rcases Int.eq_ofNat_of_zero_le positive.le with ⟨n, isNat⟩
        subst isNat
        have inRange : n ≤ pbRefine.length := by
          have := refining.below
          have := refining.length
          omega
        simp only [Int.toNat_natCast]
        rcases map.markLoop_cases points (n - 1) (n - 2) inRange with
          same | ⟨j, isBelow, marked, isMarked, isConnected, sameLength, reads⟩
        · simp only [same]
          exact runs refining.lower (by push_cast at enough; omega)
        · simp only [isMarked]
          apply runs (refining.mark (by omega) isConnected sameLength reads)
          push_cast at enough
          omega
      · exact ⟨i, not_lt.mp positive, refining⟩

/-- Nothing of an increasing list lies between two consecutive members. -/
theorem consecutive_of_increasing {indices : List ℕ} (increasing : indices.Pairwise (· < ·))
    {a b : ℕ} (isInfix : [a, b] <:+: indices) :
    a < b ∧ ∀ c ∈ indices, a < c → b ≤ c := by
  rcases isInfix with ⟨before, after, rfl⟩
  simp only [List.append_assoc, List.cons_append, List.nil_append, List.pairwise_append,
    List.pairwise_cons, List.mem_cons] at increasing
  rcases increasing with ⟨_, ⟨fromA, fromB, _⟩, across⟩
  refine ⟨fromA b (.inl rfl), ?_⟩
  intro c isMember above
  simp only [List.append_assoc, List.cons_append, List.nil_append, List.mem_append,
    List.mem_cons] at isMember
  rcases isMember with earlier | isA | isB | later
  · exact absurd (across c earlier a (.inl rfl)) (not_lt.mpr above.le)
  · omega
  · omega
  · exact (fromB c later).le

def Follows (points : List IVector) (u v : IVector) : Prop :=
  ∃ before after, points = before ++ u :: v :: after

theorem follows_getD {points : List IVector} {a : ℕ} (inRange : a + 1 < points.length) :
    Follows points (points.getD a default) (points.getD (a + 1) default) := by
  refine ⟨points.take a, points.drop (a + 2), ?_⟩
  rw [List.getD_eq_getElem _ _ (by omega), List.getD_eq_getElem _ _ inRange,
    ← List.drop_eq_getElem_cons inRange, ← List.drop_eq_getElem_cons (by omega),
    List.take_append_drop]

theorem map_getD_range (points : List IVector) :
    ((List.range points.length).map fun i => points.getD i default) = points := by
  apply List.ext_getElem
  · simp
  · intro i _ inRange
    simp [List.getElem?_eq_getElem inRange]

namespace BlockMap

variable {map : BlockMap} {points : List IVector}

theorem keptPoints_sublist (map : BlockMap) (points : List IVector) :
    (map.keptPoints points).Sublist points := by
  conv_rhs => rw [← map_getD_range points]
  exact List.filter_sublist.map _

/-- A kept point sees the next kept one or stands directly before it. -/
theorem keptPoints_chain (map : BlockMap) (points : List IVector) :
    (map.keptPoints points).IsChain fun u v =>
      map.isConnected v u = true ∨ Follows points u v := by
  rcases refineLoop_refining (.init map points) (by omega : _ ≤ (points.length : ℤ))
    with ⟨final, atEnd, refining⟩
  simp only [keptPoints]
  generalize map.refineLoop points points.length (points.length - 1)
    (List.replicate points.length false) = pbRefine at refining
  simp only [List.isChain_map]
  apply (List.isChain_isInfix _).imp
  intro a b isInfix
  have increasing := (List.pairwise_lt_range (n := points.length)).filter
    fun i => !pbRefine.getD i false
  rcases consecutive_of_increasing increasing isInfix with ⟨less, nextKept⟩
  have isMember := fun c isIn => List.mem_filter.mp (isInfix.subset (a := c) isIn)
  rcases isMember a (by simp) with ⟨_, aKept⟩
  rcases isMember b (by simp) with ⟨bInRange, bKept⟩
  simp only [List.mem_range] at bInRange
  have marked : ∀ c, a < c → c < b → pbRefine.getD c false = true := by
    intro c above isLess
    by_contra notMarked
    have isKept : c ∈ (List.range points.length).filter fun i => !pbRefine.getD i false := by
      simp only [List.mem_filter, List.mem_range]
      exact ⟨by omega, by simpa using notMarked⟩
    exact absurd (nextKept c isKept above) (not_le.mpr isLess)
  rcases refining.joined a b (by omega) less bInRange (by simpa using aKept)
    (by simpa using bKept) marked with isConnected | isNext
  · exact .inl isConnected
  · right
    subst isNext
    exact follows_getD bInRange

theorem keptPoints_ends (map : BlockMap) (points : List IVector) :
    (map.keptPoints points).head? = points.head?
      ∧ (map.keptPoints points).getLast? = points.getLast? := by
  rcases refineLoop_refining (.init map points) (by omega : _ ≤ (points.length : ℤ))
    with ⟨final, _, refining⟩
  simp only [keptPoints]
  generalize map.refineLoop points points.length (points.length - 1)
    (List.replicate points.length false) = pbRefine at refining
  cases size : points.length with
  | zero =>
      simp only [List.length_eq_zero_iff.mp size]
      exact ⟨rfl, rfl⟩
  | succ n =>
      have firstKept : (!pbRefine.getD 0 false) = true := by rw [refining.first]; rfl
      have lastKept : (!pbRefine.getD n false) = true := by
        have isLast := refining.last
        simp only [size, Nat.add_sub_cancel] at isLast
        simp only [isLast]
        rfl
      constructor
      · rw [List.range_succ_eq_map, List.filter_cons, if_pos firstKept, List.map_cons,
          List.head?_cons, List.head?_eq_getElem?, List.getElem?_eq_getElem (by omega),
          List.getD_eq_getElem _ _ (by omega)]
      · rw [List.range_succ, List.filter_append, List.filter_singleton, lastKept, cond_true,
          List.map_append, List.map_singleton, List.getLast?_concat, List.getLast?_eq_getElem?,
          size, Nat.add_sub_cancel, List.getElem?_eq_getElem (by omega),
          List.getD_eq_getElem _ _ (by omega)]

theorem calcRefinePath_interpolated (map : BlockMap) (points : List IVector) :
    ∃ out, map.calcRefinePath 20 points = some out
      ∧ Interpolated map (map.keptPoints points) out :=
  insertLoop_interpolated le_rfl

theorem calcRefinePath_head? {out : List IVector}
    (isRefined : map.calcRefinePath 20 points = some out) :
    out.head? = points.head? := by
  rcases calcRefinePath_interpolated map points with ⟨out', isRefined', interpolated⟩
  simp only [isRefined, Option.some_inj] at isRefined'
  simp only [isRefined', interpolated.head?, (keptPoints_ends map points).1]

theorem calcRefinePath_getLast? {out : List IVector}
    (isRefined : map.calcRefinePath 20 points = some out) :
    out.getLast? = points.getLast? := by
  rcases calcRefinePath_interpolated map points with ⟨out', isRefined', interpolated⟩
  simp only [isRefined, Option.some_inj] at isRefined'
  simp only [isRefined', interpolated.getLast?, (keptPoints_ends map points).2]

end BlockMap

namespace BlockMap

theorem markLoop_le (map : BlockMap) (points : List IVector) (i count : ℕ) (k : ℤ)
    (pbRefine : List Bool) : (map.markLoop points i count k pbRefine).1 ≤ max k (count - 1) := by
  induction count generalizing k pbRefine with
  | zero => exact le_max_left _ _
  | succ j leRest =>
      simp only [markLoop]
      push_cast
      split_ifs
      · have := leRest j (markBetween j i pbRefine)
        omega
      · have := leRest k pbRefine
        omega

/-- The loop over `i` has ended after a turn for each point: more turns change nothing. -/
theorem refineLoop_ended (map : BlockMap) (points : List IVector) {fuel : ℕ} {i : ℤ}
    (enough : i ≤ fuel) (pbRefine : List Bool) (extra : ℕ) :
    map.refineLoop points (fuel + extra) i pbRefine = map.refineLoop points fuel i pbRefine := by
  induction fuel generalizing i pbRefine with
  | zero =>
      have notPositive : ¬ 0 < i := by push_cast at enough; omega
      cases extra with
      | zero => rfl
      | succ extra => simp only [refineLoop, if_neg notPositive]
  | succ fuel endedRest =>
      rw [Nat.succ_add]
      simp only [refineLoop]
      split_ifs with positive
      · apply endedRest
        have := map.markLoop_le points i.toNat (i.toNat - 1) (i - 2) pbRefine
        push_cast at enough
        omega
      · rfl

end BlockMap

namespace Interpolated

variable {map : BlockMap} {kept out : List IVector}

theorem sublist (interpolated : Interpolated map kept out) : kept.Sublist out := by
  induction interpolated with
  | nil => exact .slnil
  | last p => exact .refl _
  | @cons p q rest mids out _ _ sublistRest =>
      exact (sublistRest.trans (List.sublist_append_right mids _)).cons_cons p

end Interpolated

/-- Both loops of the refinement end. The result begins and ends like the raw list, and holds the
raw points that are kept in their order, with others inserted between them. -/
theorem BlockMap.calcRefinePath_keepsEnds (map : BlockMap) (points : List IVector) :
    (∀ extra, map.refineLoop points (points.length + extra) (points.length - 1)
        (List.replicate points.length false)
      = map.refineLoop points points.length (points.length - 1)
        (List.replicate points.length false))
      ∧ ∃ out, map.calcRefinePath 20 points = some out
        ∧ out.head? = points.head?
        ∧ out.getLast? = points.getLast?
        ∧ (map.keptPoints points).Sublist points
        ∧ (map.keptPoints points).Sublist out
        ∧ Interpolated map (map.keptPoints points) out := by
  constructor
  · exact map.refineLoop_ended points (by omega) _
  · rcases calcRefinePath_interpolated map points with ⟨out, isOut, interpolated⟩
    exact ⟨out, isOut, calcRefinePath_head? isOut, calcRefinePath_getLast? isOut,
      keptPoints_sublist map points, interpolated.sublist, interpolated⟩

/-- The later point follows in the trace, but was discovered from a cell before its
predecessor. -/
def Branches (raw : List IVector) (u v : IVector) : Prop :=
  ∃ before after, raw = before ++ u :: v :: after ∧ ∃ parent ∈ before, Neighbours parent v

theorem RawTrace.neighbours_or_branches {map : BlockMap} {nStart nEnd : IVector}
    {raw : List IVector} (isTrace : RawTrace map nStart nEnd raw) {u v : IVector}
    (follows : Follows raw u v) : Neighbours u v ∨ Branches raw u v := by
  rcases follows with ⟨before, after, isRaw⟩
  have split : raw = (before ++ [u]) ++ v :: after := by
    simp only [isRaw, List.append_assoc, List.singleton_append]
  rcases isTrace.grown.exists_parent split (by simp) with ⟨parent, isBefore, neighbours⟩
  rcases List.mem_append.mp isBefore with earlier | isLast
  · exact .inr ⟨before, after, isRaw, parent, earlier, neighbours⟩
  · exact .inl (List.mem_singleton.mp isLast ▸ neighbours)

/-- What the raw list, the points that are kept of it and the refined path have in common. -/
structure RefinedPath (map : BlockMap) (nStart nEnd : IVector) (raw kept out : List IVector) :
    Prop where
  raw_first : raw.head? = some nStart
  raw_last : raw.getLast? = some nEnd
  raw_passable : ∀ c ∈ raw, map.Passable c
  kept_sublist : kept.Sublist raw
  kept_joined : kept.IsChain fun u v =>
    map.isConnected v u = true ∨ Neighbours u v ∨ Branches raw u v
  interpolated : Interpolated map kept out
  first : out.head? = some nStart
  last : out.getLast? = some nEnd
  inside : ∀ c ∈ out, map.Inside c
  passable : ∀ c ∈ out, map.Passable c ∨ ∃ r ∈ out, ∃ q ∈ kept, c = twentySteps r q

namespace BlockMap

def Binary (map : BlockMap) : Prop :=
  ∀ byte ∈ map.blockBuffer, byte = 0 ∨ byte = blocked

instance (map : BlockMap) : Decidable map.Binary :=
  inferInstanceAs (Decidable (∀ byte ∈ map.blockBuffer, _))

theorem Binary.passable {map : BlockMap} (isBinary : map.Binary) {c : IVector}
    (inside : map.Inside c) (notBlocked : map.cell c ≠ blocked) : map.Passable c := by
  refine ⟨inside, ?_⟩
  simp only [cell, readByte, List.getD_eq_getElem _ _ inside.index_lt] at notBlocked ⊢
  exact (isBinary _ (List.getElem_mem _)).resolve_right notBlocked

/-- Between connected cells the two functions return a path whose kept points are passable and
joined, except across a branch of the trace. -/
theorem calcRefinePath_refinedPath {map : BlockMap} (isBinary : map.Binary)
    {nStart nEnd : IVector} (isPassable : map.Passable nStart)
    (connected : map.Connected nStart nEnd) :
    ∃ raw kept out, map.calcRawPath nStart nEnd false = some raw
      ∧ map.calcRefinePath 20 raw = some out ∧ RefinedPath map nStart nEnd raw kept out := by
  rcases calcRawPath_rawTrace nEnd isPassable with ⟨raw, isRaw, isTrace⟩
  rcases calcRefinePath_interpolated map raw with ⟨out, isOut, interpolated⟩
  have isSublist := keptPoints_sublist map raw
  have ends := keptPoints_ends map raw
  have keptPassable : ∀ c ∈ map.keptPoints raw, map.Passable c := by
    intro c isKept
    exact isTrace.passable c (isSublist.subset isKept)
  have inside : ∀ c ∈ out, map.Inside c := by
    intro c isPoint
    rcases interpolated.origin isPoint with isKept | ⟨⟨p, pKept, q, qKept, between⟩, _⟩
    · exact (keptPassable c isKept).1
    · exact between.inside (keptPassable p pKept).1 (keptPassable q qKept).1
  refine ⟨raw, map.keptPoints raw, out, isRaw, isOut, ?_⟩
  constructor
  case raw_first => exact isTrace.first
  case raw_last => exact isTrace.last_of_connected connected
  case raw_passable => exact isTrace.passable
  case kept_sublist => exact isSublist
  case kept_joined =>
    apply (keptPoints_chain map raw).imp
    intro u v joined
    exact joined.imp_right isTrace.neighbours_or_branches
  case interpolated => exact interpolated
  case first => rw [interpolated.head?, ends.1, isTrace.first]
  case last => rw [interpolated.getLast?, ends.2, isTrace.last_of_connected connected]
  case inside => exact inside
  case passable =>
    intro c isPoint
    rcases interpolated.origin isPoint with isKept | ⟨_, notBlocked | isTwenty⟩
    · exact .inl (keptPassable c isKept)
    · exact .inl (isBinary.passable (inside c isPoint) notBlocked)
    · exact .inr isTwenty

end BlockMap

/-- Two rooms that touch at a corner. -/
def cornerMap : BlockMap where
  mapWidth := 2
  mapHeight := 3
  blockBuffer := [0, 255, 0, 255, 255, 0]
  size := rfl

/-- A corridor along the line from its first to its last cell. -/
def slopeMap : BlockMap where
  mapWidth := 21
  mapHeight := 2
  blockBuffer := .replicate 9 0 ++ .replicate 21 255 ++ .replicate 12 0
  size := rfl

theorem slopeMap_path :
    (slopeMap.calcRawPath ⟨0, 0⟩ ⟨20, 1⟩ false).bind (slopeMap.calcRefinePath 20)
      = some [⟨0, 0⟩, ⟨19, 0⟩, ⟨20, 1⟩] := by
  decide +kernel

theorem cornerMap_path :
    (cornerMap.calcRawPath ⟨0, 1⟩ ⟨1, 2⟩ false).bind (cornerMap.calcRefinePath 20)
      = some [⟨0, 1⟩, ⟨0, 0⟩, ⟨1, 2⟩] := by
  decide +kernel

/-- A path that comes out with its end was computed between connected cells. -/
theorem BlockMap.exists_raw {map : BlockMap} {nStart nEnd : IVector} {out : List IVector}
    (isPassable : map.Passable nStart)
    (isPath : (map.calcRawPath nStart nEnd false).bind (map.calcRefinePath 20) = some out)
    (atEnd : out.getLast? = some nEnd) :
    ∃ raw, map.calcRawPath nStart nEnd false = some raw ∧ map.calcRefinePath 20 raw = some out
      ∧ map.Connected nStart nEnd := by
  rcases Option.bind_eq_some_iff.mp isPath with ⟨raw, isRaw, isOut⟩
  rcases calcRawPath_rawTrace nEnd isPassable with ⟨raw', isRaw', isTrace⟩
  simp only [isRaw, Option.some_inj] at isRaw'
  simp only [calcRefinePath_getLast? isOut, isRaw'] at atEnd
  exact ⟨raw, isRaw, isOut, isTrace.connected nEnd (List.mem_of_getLast? atEnd)⟩

/-- The corridor of `slopeMap` is a refined path in this sense. -/
theorem slopeMap_refinedPath :
    ∃ raw kept out, slopeMap.calcRawPath ⟨0, 0⟩ ⟨20, 1⟩ false = some raw
      ∧ slopeMap.calcRefinePath 20 raw = some out
      ∧ RefinedPath slopeMap ⟨0, 0⟩ ⟨20, 1⟩ raw kept out := by
  have isPassable : slopeMap.Passable ⟨0, 0⟩ := by decide
  rcases BlockMap.exists_raw isPassable slopeMap_path rfl with ⟨_, _, _, connected⟩
  exact BlockMap.calcRefinePath_refinedPath (by decide +kernel) isPassable connected

/-- Not every point of a refined path is passable, and not every two consecutive ones are joined
by a line or neighbours. -/
theorem refinedPath_not_walkable :
    (¬ ∀ (map : BlockMap) (nStart nEnd : IVector) (raw out : List IVector), map.Binary →
      map.Passable nStart → map.Passable nEnd → map.Connected nStart nEnd →
      map.calcRawPath nStart nEnd false = some raw → map.calcRefinePath 20 raw = some out →
      ∀ c ∈ out, map.Passable c)
    ∧ ¬ ∀ (map : BlockMap) (nStart nEnd : IVector) (raw out : List IVector), map.Binary →
      map.Passable nStart → map.Passable nEnd → map.Connected nStart nEnd →
      map.calcRawPath nStart nEnd false = some raw → map.calcRefinePath 20 raw = some out →
      out.IsChain fun u v => map.isConnected u v = true ∨ map.isConnected v u = true ∨ u = v
        ∨ Neighbours u v := by
  constructor
  · intro claimed
    have isPassable : slopeMap.Passable ⟨0, 0⟩ := by decide
    rcases BlockMap.exists_raw isPassable slopeMap_path rfl with ⟨raw, isRaw, isOut, connected⟩
    have allPassable := claimed slopeMap ⟨0, 0⟩ ⟨20, 1⟩ raw _ (by decide +kernel)
      isPassable
      (by decide) connected isRaw isOut
    exact absurd (allPassable ⟨19, 0⟩ (by decide)) (by decide)
  · intro claimed
    have isPassable : cornerMap.Passable ⟨0, 1⟩ := by decide
    rcases BlockMap.exists_raw isPassable cornerMap_path rfl with ⟨raw, isRaw, isOut, connected⟩
    have allJoined := claimed cornerMap ⟨0, 1⟩ ⟨1, 2⟩ raw _ (by decide +kernel)
      isPassable
      (by decide) connected isRaw isOut
    simp only [List.isChain_cons_cons, List.isChain_cons_cons] at allJoined
    exact absurd allJoined.2.1 (by decide)

end PoETask.Attach
