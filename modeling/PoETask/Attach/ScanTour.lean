import PoETask.Attach.ScanPath

/-!
# The tour of the scan

What `CalcScanPath2` returns: the candidates of its two passes lie apart and cover the open
surroundings, and the tour visits each of them once, always going on to a nearest one.
-/

namespace PoETask.Attach

section Fold

variable {α β : Type*} {turn : List β → α → List β}

theorem subset_foldl (grows : ∀ points a, points ⊆ turn points a) (inputs : List α)
    (points : List β) : points ⊆ inputs.foldl turn points := by
  apply List.foldlRecOn (motive := fun result => points ⊆ result)
  · exact List.Subset.refl points
  · intro result isSubset a _
    exact List.Subset.trans isSubset (grows result a)

/-- What the turn for one input establishes, and growing keeps, holds at the end. -/
theorem foldl_establishes {motive : List β → Prop} (grows : ∀ points a, points ⊆ turn points a)
    (keeps : ∀ {points points'}, points ⊆ points' → motive points → motive points')
    {inputs : List α} {a : α} (isInput : a ∈ inputs)
    (establishes : ∀ points, motive (turn points a)) (points : List β) :
    motive (inputs.foldl turn points) := by
  rcases List.append_of_mem isInput with ⟨before, after, rfl⟩
  simp only [List.foldl_append, List.foldl_cons]
  exact keeps (subset_foldl grows after _) (establishes _)

end Fold

namespace BlockMap

/-- The open cells that `nS` counts. -/
def openCells (map : BlockMap) (nR x y : ℕ) : ℤ :=
  ∑ j ∈ Finset.Ioc (y - nR) (y + nR), ∑ i ∈ Finset.Ioc (x - nR) (x + nR), map.opens i j

/-- A cell that meets the density test of a pass. -/
structure Dense (map : BlockMap) (nR percent x y : ℕ) : Prop where
  left : nR ≤ x
  right : x + nR < map.mapWidth
  bottom : nR ≤ y
  top : y + nR < map.mapHeight
  passable : map.cell ⟨x, y⟩ ≠ blocked
  density : densityLimit nR percent < map.openCells nR x y

end BlockMap

def Apart (nPassedRange : ℤ) (u v : IVector) : Prop :=
  nPassedRange * nPassedRange ≤ distSquared u v

/-- A cell that is a candidate or closer than the range to one. -/
def Covered (nPassedRange : ℤ) (points : List IVector) (c : IVector) : Prop :=
  c ∈ points ∨ ∃ p ∈ points, distSquared p c < nPassedRange * nPassedRange

theorem Covered.mono {nPassedRange : ℤ} {points points' : List IVector} {c : IVector}
    (isSubset : points ⊆ points') (covered : Covered nPassedRange points c) :
    Covered nPassedRange points' c := by
  rcases covered with isPoint | ⟨p, isPoint, isNear⟩
  · exact .inl (isSubset isPoint)
  · exact .inr ⟨p, isSubset isPoint, isNear⟩

theorem Apart.symm {nPassedRange : ℤ} {u v : IVector} (apart : Apart nPassedRange u v) :
    Apart nPassedRange v u := by
  have isSame : distSquared v u = distSquared u v := by
    simp only [distSquared]
    ring
  rwa [Apart, isSame]

namespace BlockMap

variable {map : BlockMap} {nR percent nStep x y : ℕ} {nPassedRange : ℤ} {table : List ℤ}
  {points : List IVector}

theorem subset_scanCell (points : List IVector) (x : ℕ) :
    points ⊆ map.scanCell table nR percent nPassedRange y points x := by
  simp only [scanCell]
  split_ifs
  · exact List.Subset.refl points
  · exact List.Subset.refl points
  · exact List.subset_append_left points _
  · exact List.Subset.refl points

theorem scanCell_apart (apart : points.Pairwise (Apart nPassedRange)) :
    (map.scanCell table nR percent nPassedRange y points x).Pairwise (Apart nPassedRange) := by
  simp only [scanCell]
  split_ifs with isBlocked isDense isNear
  · exact apart
  · exact apart
  · rw [List.pairwise_append]
    refine ⟨apart, List.pairwise_singleton _ _, ?_⟩
    intro p isPoint c isNew
    simp only [List.mem_singleton] at isNew
    simp only [List.any_eq_true, decide_eq_true_eq, not_exists, not_and, not_lt] at isNear
    exact isNew ▸ isNear p isPoint
  · exact apart

theorem scanCell_covers (dense : map.Dense nR percent x y) (points : List IVector) :
    Covered nPassedRange (map.scanCell map.pnSum nR percent nPassedRange y points x) ⟨x, y⟩ := by
  have density := dense.density
  rw [openCells, ← windowSum_pnSum dense.left dense.right dense.bottom dense.top] at density
  simp only [scanCell, if_neg dense.passable, if_pos density]
  split_ifs with isNear
  · simp only [List.any_eq_true, decide_eq_true_eq] at isNear
    exact .inr isNear
  · exact .inl (List.mem_append_right points (List.mem_singleton_self _))

theorem subset_scanPass (points : List IVector) :
    points ⊆ map.scanPass table nR percent nPassedRange points :=
  subset_foldl (fun points _ => subset_foldl subset_scanCell _ points) _ points

theorem scanPass_apart (apart : points.Pairwise (Apart nPassedRange)) :
    (map.scanPass table nR percent nPassedRange points).Pairwise (Apart nPassedRange) := by
  rw [scanPass]
  apply List.foldlRecOn (motive := List.Pairwise (Apart nPassedRange))
  · exact apart
  · intro points apart y _
    apply List.foldlRecOn (motive := List.Pairwise (Apart nPassedRange))
    · exact apart
    · intro points apart x _
      exact scanCell_apart apart

theorem scanPass_covers (dense : map.Dense nR percent x y) (points : List IVector) :
    Covered nPassedRange (map.scanPass map.pnSum nR percent nPassedRange points) ⟨x, y⟩ := by
  have left := dense.left
  have right := dense.right
  have bottom := dense.bottom
  have top := dense.top
  have isRow : y ∈ List.range' nR (map.mapHeight - nR - nR) := by
    simp only [List.mem_range'_1]
    omega
  have isColumn : x ∈ List.range' nR (map.mapWidth - nR - nR) := by
    simp only [List.mem_range'_1]
    omega
  rw [scanPass]
  apply foldl_establishes (fun points _ => subset_foldl subset_scanCell _ points) Covered.mono isRow
  apply foldl_establishes subset_scanCell Covered.mono isColumn
  exact scanCell_covers dense

theorem scanPoints_apart (map : BlockMap) (nStep : ℕ) (nPassedRange : ℤ) :
    (map.scanPoints nStep nPassedRange).Pairwise (Apart nPassedRange) :=
  scanPass_apart (scanPass_apart .nil)

/-- A cell that meets the density test of either pass is covered by the candidates. -/
theorem scanPoints_covers
    (dense : map.Dense ((nStep + 1) / 2) 320 x y ∨ map.Dense (((nStep + 1) / 2 + 1) / 2) 300 x y) :
    Covered nPassedRange (map.scanPoints nStep nPassedRange) ⟨x, y⟩ := by
  rcases dense with first | second
  · exact (scanPass_covers first []).mono (subset_scanPass _)
  · exact scanPass_covers second _

end BlockMap

/-- What is known of the tour after some turns: the flags mark the points it has visited, and
each of them was a nearest one when it was chosen, the first one unless all are out of reach. -/
structure Touring (points : List IVector) (start nStart : IVector) (temp : List IVector)
    (flags : List Bool) : Prop where
  marks : flags = points.map fun p => decide (p ∈ temp)
  visits : temp ⊆ points
  once : temp.Nodup
  current : nStart = temp.getLast?.getD start
  nearest : ∀ before v after, temp = before ++ v :: after →
    (before = [] → ∀ p ∈ points, distSquared p start < nMaxInit) → ∀ c ∈ points, c ∉ before →
    distSquared v (before.getLast?.getD start) ≤ distSquared c (before.getLast?.getD start)

namespace Touring

variable {nPassedRange : ℤ} {points temp : List IVector} {start nStart : IVector}
  {flags : List Bool}

theorem init (points : List IVector) (start : IVector) :
    Touring points start start [] (List.replicate points.length false) where
  marks := by simp
  visits := List.nil_subset points
  once := List.nodup_nil
  current := rfl
  nearest before v after isTemp := by simp at isTemp

theorem remains_iff (touring : Touring points start nStart temp flags) {k : ℕ} :
    Remains points flags k ↔ k < points.length ∧ points.getD k default ∉ temp := by
  rw [Remains, and_congr_right_iff]
  intro inRange
  have inFlags : k < (points.map fun p => decide (p ∈ temp)).length := by
    rwa [List.length_map]
  rw [touring.marks, List.getD_eq_getElem _ _ inFlags, List.getElem_map,
    List.getD_eq_getElem _ _ inRange, decide_eq_false_iff_not]

/-- A turn of the tour: one more point is marked and visited. -/
theorem next (touring : Touring points start nStart temp flags) (nodup : points.Nodup) {k : ℕ}
    (remains : Remains points flags k)
    (isNearest : (temp = [] → ∀ p ∈ points, distSquared p start < nMaxInit) →
      ∀ c ∈ points, c ∉ temp →
        distSquared (points.getD k default) nStart ≤ distSquared c nStart) :
    Touring points start (points.getD k default) (temp ++ [points.getD k default])
      (flags.set k true) := by
  rcases touring.remains_iff.mp remains with ⟨inRange, notVisited⟩
  rw [List.getD_eq_getElem _ _ inRange] at notVisited isNearest ⊢
  constructor
  case marks =>
    apply List.ext_getElem
    · simp [touring.marks]
    · intro i _ inRange'
      simp only [List.length_map] at inRange'
      simp only [touring.marks, List.getElem_set, List.getElem_map, List.mem_append,
        List.mem_singleton, nodup.getElem_inj_iff]
      split_ifs with isNew
      · simp [isNew]
      · simp [Ne.symm isNew]
  case visits =>
    apply List.append_subset.mpr
    exact ⟨touring.visits, List.cons_subset.mpr ⟨List.getElem_mem inRange, List.nil_subset _⟩⟩
  case once =>
    rw [List.nodup_append]
    refine ⟨touring.once, List.nodup_singleton _, ?_⟩
    intro p isVisited q isNew isSame
    rw [List.mem_singleton] at isNew
    exact notVisited (isNew ▸ isSame ▸ isVisited)
  case current => rw [List.getLast?_concat, Option.getD_some]
  case nearest =>
    intro before v after isTemp
    rcases List.eq_nil_or_concat after with isLast | ⟨after, w, isConcat⟩
    · rw [isLast] at isTemp
      rcases List.append_inj' isTemp rfl with ⟨isBefore, isNew⟩
      simp only [List.cons.injEq, and_true] at isNew
      rw [← isBefore, ← isNew, ← touring.current]
      exact isNearest
    · rw [isConcat, List.concat_eq_append, ← List.cons_append, ← List.append_assoc] at isTemp
      exact touring.nearest before v after (List.append_inj' isTemp rfl).1

/-- The index that a turn ends with. -/
theorem remains_nearest (touring : Touring points start nStart temp flags)
    (fits : ∀ p ∈ points, ∀ q ∈ points, distSquared p q < nMaxInit) {k : ℕ}
    (remains : Remains points flags k) :
    Remains points flags (nearestLoop nStart 0 points flags (0, nMaxInit)).1
      ∧ ((temp = [] → ∀ p ∈ points, distSquared p start < nMaxInit) → ∀ c ∈ points, c ∉ temp →
        distSquared (points.getD (nearestLoop nStart 0 points flags (0, nMaxInit)).1 default) nStart
          ≤ distSquared c nStart) := by
  have inReach : (temp = [] → ∀ p ∈ points, distSquared p start < nMaxInit) →
      ∀ p ∈ points, distSquared p nStart < nMaxInit := by
    intro fromStart p isPoint
    rcases List.eq_nil_or_concat temp with isEmpty | ⟨before, q, isConcat⟩
    · rw [touring.current, isEmpty]
      exact fromStart isEmpty p isPoint
    · rw [List.concat_eq_append] at isConcat
      rw [touring.current, isConcat, List.getLast?_concat, Option.getD_some]
      exact fits p isPoint q (touring.visits (isConcat ▸ by simp))
  rcases nearestLoop_cases nStart 0 points flags (0, nMaxInit) with
    ⟨same, isFarther⟩ | ⟨j, isRemaining, isResult, _, isNearest⟩
  · have isPoint : points.getD k default ∈ points := by
      rw [List.getD_eq_getElem _ _ remains.1]
      exact List.getElem_mem remains.1
    have outOfReach : ¬ ∀ p ∈ points, distSquared p nStart < nMaxInit := by
      intro reach
      exact absurd (reach _ isPoint) (not_lt.mpr (isFarther k remains))
    have isEmpty : temp = [] := by
      by_contra notEmpty
      exact outOfReach (inReach fun isEmpty => absurd isEmpty notEmpty)
    refine ⟨?_, fun fromStart => absurd (inReach fromStart) outOfReach⟩
    rw [same, touring.remains_iff, isEmpty]
    exact ⟨Nat.zero_lt_of_lt remains.1, List.not_mem_nil⟩
  · rw [isResult]
    simp only [Nat.zero_add]
    refine ⟨isRemaining, ?_⟩
    intro _ c isPoint notVisited
    rcases List.getElem_of_mem isPoint with ⟨i, inRange, rfl⟩
    rw [← List.getD_eq_getElem points default inRange] at notVisited ⊢
    exact isNearest i (touring.remains_iff.mpr ⟨inRange, notVisited⟩)

end Touring

/-- Points that lie apart are passed by being visited only. -/
theorem passedLoop_marks {nPassedRange : ℤ} {points temp : List IVector}
    (apart : ∀ p ∈ points, ∀ q ∈ temp,
      distSquared p q < nPassedRange * nPassedRange → p ∈ temp) :
    passedLoop nPassedRange temp points (points.map fun p => decide (p ∈ temp))
      = (points.map fun p => decide (p ∈ temp), points.any fun p => decide (p ∉ temp)) := by
  induction points with
  | nil => rfl
  | cons p rest marksRest =>
      have marks := marksRest fun p isPoint => apart p (List.mem_cons_of_mem _ isPoint)
      simp only [List.map_cons, List.any_cons, passedLoop, marks]
      by_cases isVisited : p ∈ temp
      · simp [isVisited]
      · have notNear : (temp.any fun q => distSquared p q < nPassedRange * nPassedRange) = false := by
          simp only [List.any_eq_false, decide_eq_true_eq]
          intro q isTemp isNear
          exact isVisited (apart p List.mem_cons_self q isTemp isNear)
        simp [isVisited, notNear]

/-- The turns lead to a tour of all points. -/
theorem tourLoop_touring {nPassedRange : ℤ} {points temp : List IVector} {start nStart : IVector}
    {flags : List Bool} {fuel : ℕ}
    (apart : ∀ p ∈ points, ∀ q ∈ points,
      distSquared p q < nPassedRange * nPassedRange → p = q)
    (nodup : points.Nodup) (fits : ∀ p ∈ points, ∀ q ∈ points, distSquared p q < nMaxInit)
    (touring : Touring points start nStart temp flags)
    (enough : points.length < fuel + temp.length) :
    ∃ tour last flags', tourLoop nPassedRange points fuel nStart flags temp = some tour
      ∧ Touring points start last tour flags' ∧ points ⊆ tour := by
  induction fuel generalizing nStart temp flags with
  | zero =>
      have atMost := (touring.once.subperm touring.visits).length_le
      omega
  | succ fuel runs =>
      have marks : passedLoop nPassedRange temp points flags
          = (flags, points.any fun p => decide (p ∉ temp)) := by
        rw [touring.marks]
        apply passedLoop_marks
        intro p isPoint q isVisited isNear
        rw [apart p isPoint q (touring.visits isVisited) isNear]
        exact isVisited
      simp only [tourLoop, marks]
      split_ifs with someLeft
      · simp only [List.any_eq_true, decide_eq_true_eq] at someLeft
        rcases someLeft with ⟨p, isPoint, notVisited⟩
        rcases List.getElem_of_mem isPoint with ⟨k, inRange, rfl⟩
        rw [← List.getD_eq_getElem points default inRange] at notVisited
        have remains := touring.remains_iff.mpr ⟨inRange, notVisited⟩
        rcases touring.remains_nearest fits remains with ⟨remains', isNearest⟩
        apply runs (touring.next nodup remains' isNearest)
        rw [List.length_append, List.length_singleton]
        omega
      · refine ⟨temp, nStart, flags, rfl, touring, ?_⟩
        intro p isPoint
        simp only [List.any_eq_true, decide_eq_true_eq, not_exists, not_and, not_not] at someLeft
        exact someLeft p isPoint

namespace BlockMap

variable {map : BlockMap} {nStep : ℕ} {nPassedRange : ℤ}

theorem DiagonalFits.distSquared_scanPoints_lt (fits : map.DiagonalFits) {start : IVector}
    (inside : map.Inside start) {p : IVector} (isPoint : p ∈ map.scanPoints nStep nPassedRange) :
    distSquared p start < nMaxInit :=
  fits.distSquared_lt (scanPoints_open p isPoint).1 inside

/-- The tour visits every candidate once; the candidates lie apart and cover what meets a density
test; the tour goes on to a nearest candidate that is left, and from a start in the map it also
begins with one. -/
theorem calcScanPath2_tour (fits : map.DiagonalFits) (nStart : IVector) (nStep : ℕ)
    (positive : 1 ≤ nPassedRange) :
    ∃ tour, map.calcScanPath2 nStart nStep nPassedRange = some tour
      ∧ tour.Nodup
      ∧ tour.Perm (map.scanPoints nStep nPassedRange)
      ∧ (map.scanPoints nStep nPassedRange).Pairwise (fun u v =>
        nPassedRange * nPassedRange ≤ distSquared u v)
      ∧ (∀ x y, map.Dense ((nStep + 1) / 2) 320 x y
          ∨ map.Dense (((nStep + 1) / 2 + 1) / 2) 300 x y →
        Covered nPassedRange (map.scanPoints nStep nPassedRange) ⟨x, y⟩)
      ∧ (∀ before u v after, tour = before ++ u :: v :: after →
        ∀ c ∈ map.scanPoints nStep nPassedRange, c ∉ before ++ [u] →
          distSquared v u ≤ distSquared c u)
      ∧ (map.Inside nStart → ∀ first ∈ tour.head?, ∀ c ∈ map.scanPoints nStep nPassedRange,
        distSquared first nStart ≤ distSquared c nStart) := by
  have apart := scanPoints_apart map nStep nPassedRange
  have positiveSquare : 0 < nPassedRange * nPassedRange := by nlinarith
  have nodup : (map.scanPoints nStep nPassedRange).Nodup := by
    apply apart.imp
    intro u v isApart isSame
    rw [Apart, isSame] at isApart
    simp only [distSquared, sub_self, mul_zero, add_zero] at isApart
    omega
  have : Std.Symm (Apart nPassedRange) := ⟨fun _ _ => Apart.symm⟩
  have onlySelf : ∀ p ∈ map.scanPoints nStep nPassedRange,
      ∀ q ∈ map.scanPoints nStep nPassedRange,
        distSquared p q < nPassedRange * nPassedRange → p = q := by
    intro p isPoint q isPoint' isNear
    by_contra different
    exact absurd isNear (not_lt.mpr (apart.forall isPoint isPoint' different))
  have inReach : ∀ p ∈ map.scanPoints nStep nPassedRange,
      ∀ q ∈ map.scanPoints nStep nPassedRange, distSquared p q < nMaxInit :=
    fun p isPoint q isPoint' => fits.distSquared_scanPoints_lt (scanPoints_open q isPoint').1 isPoint
  rcases tourLoop_touring onlySelf nodup inReach (.init _ nStart)
    (by simp : (map.scanPoints nStep nPassedRange).length
      < (map.scanPoints nStep nPassedRange).length + 1 + ([] : List IVector).length)
    with ⟨tour, last, flags, isTour, touring, complete⟩
  refine ⟨tour, isTour, touring.once, ?_, apart, fun x y => scanPoints_covers, ?_, ?_⟩
  · rw [List.perm_ext_iff_of_nodup touring.once nodup]
    exact fun c => ⟨fun isVisited => touring.visits isVisited, fun isPoint => complete isPoint⟩
  · intro before u v after isSplit c isPoint notVisited
    have isNearest := touring.nearest (before ++ [u]) v after
      (by rw [isSplit, List.append_assoc, List.singleton_append])
      (fun isEmpty => absurd isEmpty (by simp)) c isPoint notVisited
    rwa [List.getLast?_concat, Option.getD_some] at isNearest
  · intro inside first isFirst c isPoint
    rcases List.head?_eq_some_iff.mp isFirst with ⟨after, isSplit⟩
    exact touring.nearest [] first after isSplit
      (fun _ p => fits.distSquared_scanPoints_lt inside) c isPoint List.not_mem_nil

end BlockMap

/-- An open square. -/
def squareMap : BlockMap where
  mapWidth := 5
  mapHeight := 5
  blockBuffer := .replicate 25 0
  size := rfl

theorem squareMap_scanPoints :
    squareMap.scanPoints 1 2 = [⟨1, 1⟩, ⟨3, 1⟩, ⟨1, 3⟩, ⟨3, 3⟩] := by
  decide +kernel

theorem squareMap_tour :
    ∃ tour, squareMap.calcScanPath2 ⟨4, 0⟩ 1 2 = some tour
      ∧ tour.Perm [⟨1, 1⟩, ⟨3, 1⟩, ⟨1, 3⟩, ⟨3, 3⟩]
      ∧ ∀ before u v after, tour = before ++ u :: v :: after →
        ∀ c ∈ squareMap.scanPoints 1 2, c ∉ before ++ [u] → distSquared v u ≤ distSquared c u := by
  rcases squareMap.calcScanPath2_tour (by decide) ⟨4, 0⟩ 1 (by decide : (1 : ℤ) ≤ 2)
    with ⟨tour, isTour, _, perm, _, _, isNearest, _⟩
  exact ⟨tour, isTour, squareMap_scanPoints ▸ perm, isNearest⟩

end PoETask.Attach
