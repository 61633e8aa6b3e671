import PoETask.Attach.RefinePath

/-!
# The step bound of the refined path

`CalcRefinePath` squares its step and hands the square to `CalcMidStep`, which squares it once
more: a cell of the line is taken only at 400 cells or more. The twenty steps that are taken
otherwise stay within the bound.
-/

namespace PoETask.Attach

/-- The rounded-down shares of two summands of 20 are 20 at most. -/
theorem shares_le (dx dy : ℕ) : dx * 20 / (dx + dy) + dy * 20 / (dx + dy) ≤ 20 := by
  rcases Nat.eq_zero_or_pos (dx + dy) with isZero | positive
  · simp only [isZero, Nat.div_zero, add_zero, Nat.zero_le]
  · apply Nat.le_of_mul_le_mul_left _ positive
    calc (dx + dy) * (dx * 20 / (dx + dy) + dy * 20 / (dx + dy))
        = (dx + dy) * (dx * 20 / (dx + dy)) + (dx + dy) * (dy * 20 / (dx + dy)) := mul_add _ _ _
      _ ≤ dx * 20 + dy * 20 := Nat.add_le_add (Nat.mul_div_le _ _) (Nat.mul_div_le _ _)
      _ = (dx + dy) * 20 := (add_mul dx dy 20).symm

theorem natAbs_share (share : ℤ) (dx dy : ℤ) :
    ((share * 20).tdiv (|dx| + |dy|)).natAbs = share.natAbs * 20 / (dx.natAbs + dy.natAbs) := by
  have size : (|dx| + |dy|).natAbs = dx.natAbs + dy.natAbs := by
    simp only [Int.abs_eq_natAbs]
    omega
  rw [Int.natAbs_tdiv, Int.natAbs_mul, size]
  rfl

theorem distSquared_comm (u v : IVector) : distSquared u v = distSquared v u := by
  simp only [distSquared]
  ring

theorem twentySteps_near (p q : IVector) : distSquared p (twentySteps p q) ≤ 20 * 20 := by
  have bound := shares_le (q.x - p.x).natAbs (q.y - p.y).natAbs
  simp only [← natAbs_share] at bound
  simp only [distSquared, twentySteps, sub_add_cancel_left, neg_mul_neg]
  generalize ((q.x - p.x) * 20).tdiv (|q.x - p.x| + |q.y - p.y|) = column at bound ⊢
  generalize ((q.y - p.y) * 20).tdiv (|q.x - p.x| + |q.y - p.y|) = row at bound ⊢
  have squares : column.natAbs * column.natAbs + row.natAbs * row.natAbs ≤ 20 * 20 := by
    have square := Nat.mul_le_mul bound bound
    simp only [add_mul, mul_add] at square
    omega
  rw [← Int.natAbs_mul_self, ← @Int.natAbs_mul_self row]
  exact_mod_cast squares

namespace BlockMap

variable {map : BlockMap}

/-- Before a blocked cell, the line shows one that is `nStep` or more away from `u`. -/
def seesFar (map : BlockMap) (nStep : ℤ) (u q : IVector) : Bool :=
  ((lineCells u q).takeWhile fun c => map.cell c ≠ blocked).any
    fun c => nStep * nStep ≤ distSquared c u

/-- The points on the way from `p` to `q` by twenty steps at a time. -/
def Strides (q : IVector) : IVector → IVector → Prop :=
  Relation.ReflTransGen fun u v => 20 * 20 < distSquared u q ∧ v = twentySteps u q

/-- Wherever the way from `p` to `q` still has far to go, no cell at 400 or more is in sight. -/
def StaysNear (map : BlockMap) (p q : IVector) : Prop :=
  ∀ u, Strides q p u → 20 * 20 < distSquared u q → map.seesFar (20 * 20) u q = false

/-- A line on which nothing far is in sight leaves the middle point as it is. -/
theorem midLoop_of_not_seesFar {nStep : ℤ} {pt1 pointMid : IVector} {cells : List IVector}
    (notFar : ((cells.takeWhile fun c => map.cell c ≠ blocked).any
      fun c => nStep * nStep ≤ distSquared c pt1) = false) :
    map.midLoop nStep pt1 pointMid cells = pointMid := by
  induction cells with
  | nil => rfl
  | cons c rest keepsRest =>
      simp only [midLoop]
      split_ifs with isBlocked isFar
      · rfl
      · simp [isBlocked, isFar] at notFar
      · simp only [isBlocked, isFar, List.takeWhile_cons, List.any_cons, ne_eq, not_false_eq_true,
          decide_true, if_true, decide_false, Bool.false_or] at notFar
        exact keepsRest notFar

theorem midLoop_of_seesFar {nStep : ℤ} {pt1 pointMid : IVector} {cells : List IVector}
    (isFar : ((cells.takeWhile fun c => map.cell c ≠ blocked).any
      fun c => nStep * nStep ≤ distSquared c pt1) = true) :
    nStep * nStep ≤ distSquared (map.midLoop nStep pt1 pointMid cells) pt1 := by
  induction cells with
  | nil => simp at isFar
  | cons c rest farRest =>
      simp only [midLoop]
      split_ifs with isBlocked isHere
      · simp [isBlocked] at isFar
      · exact isHere
      · simp only [isBlocked, isHere, List.takeWhile_cons, List.any_cons, ne_eq, not_false_eq_true,
          decide_true, if_true, decide_false, Bool.false_or] at isFar
        exact farRest isFar

theorem calcMidStep_eq_twentySteps {p q : IVector}
    (notFar : map.seesFar (20 * 20) p q = false) :
    map.calcMidStep (20 * 20) p q = twentySteps p q :=
  midLoop_of_not_seesFar notFar

/-- A middle point is within the bound exactly if no cell at 400 or more was in sight. -/
theorem calcMidStep_near_iff (map : BlockMap) (p q : IVector) :
    distSquared p (map.calcMidStep (20 * 20) p q) ≤ 20 * 20
      ↔ map.seesFar (20 * 20) p q = false := by
  cases sees : map.seesFar (20 * 20) p q with
  | true =>
      have isFar : 20 * 20 * (20 * 20) ≤ distSquared (map.calcMidStep (20 * 20) p q) p :=
        midLoop_of_seesFar sees
      simp only [Bool.true_eq_false, iff_false, not_le, distSquared_comm p]
      exact lt_of_lt_of_le (by norm_num) isFar
  | false => simp only [calcMidStep_eq_twentySteps sees, twentySteps_near]

theorem staysNear_of_close {p q : IVector} (isClose : distSquared p q ≤ 20 * 20) :
    map.StaysNear p q := by
  intro u isStride isFar
  cases isStride.cases_head with
  | inl isFirst => exact absurd (isFirst ▸ isFar) (not_lt.mpr isClose)
  | inr goesOn =>
      rcases goesOn with ⟨v, ⟨isFar', _⟩, _⟩
      exact absurd isFar' (not_lt.mpr isClose)

/-- One insertion: the bound holds on the whole way exactly if it holds of the inserted point and
on the way from it. -/
theorem staysNear_iff_of_far {p q : IVector} (isFar : 20 * 20 < distSquared p q) :
    map.StaysNear p q ↔ distSquared p (map.calcMidStep (20 * 20) p q) ≤ 20 * 20
      ∧ map.StaysNear (map.calcMidStep (20 * 20) p q) q := by
  rw [calcMidStep_near_iff]
  constructor
  · intro staysNear
    have notFar := staysNear p .refl isFar
    refine ⟨notFar, ?_⟩
    rw [calcMidStep_eq_twentySteps notFar]
    intro u isStride
    exact staysNear u (.head ⟨isFar, rfl⟩ isStride)
  · rintro ⟨notFar, staysRest⟩ u isStride isFar'
    rw [calcMidStep_eq_twentySteps notFar] at staysRest
    rcases isStride.cases_head with isFirst | ⟨v, ⟨_, isNext⟩, isStride'⟩
    · exact isFirst ▸ notFar
    · exact staysRest u (isNext ▸ isStride') isFar'

/-- Near points: the bound on two consecutive points of the output. -/
def Near (u v : IVector) : Prop :=
  distSquared u v ≤ 20 * 20

theorem insertLoop_near_iff (map : BlockMap) {fuel : ℕ} {points : List IVector}
    (enough : walkLength points ≤ fuel) :
    ∃ out, map.insertLoop (20 * 20) fuel points = some out ∧ out.head? = points.head?
      ∧ (out.IsChain Near ↔ points.IsChain map.StaysNear) := by
  apply insertLoop_run _ _ _ _ enough
  · exact ⟨rfl, by simp⟩
  · exact fun p => ⟨rfl, by simp⟩
  · rintro p q rest out isFar ⟨isHead, nearIff⟩
    rcases List.head?_eq_some_iff.mp isHead with ⟨tail, rfl⟩
    refine ⟨rfl, ?_⟩
    rw [List.isChain_cons_cons, nearIff, List.isChain_cons_cons, List.isChain_cons_cons,
      ← and_assoc, staysNear_iff_of_far isFar]
    rfl
  · rintro p q rest out isClose ⟨isHead, nearIff⟩
    rcases List.head?_eq_some_iff.mp isHead with ⟨tail, rfl⟩
    refine ⟨rfl, ?_⟩
    rw [List.isChain_cons_cons, nearIff, List.isChain_cons_cons]
    exact and_congr_left' (iff_of_true isClose (staysNear_of_close isClose))

/-- The refined path keeps the bound exactly if, on the way between two consecutive kept points,
no cell at 400 or more ever comes into sight. -/
theorem calcRefinePath_near_iff (map : BlockMap) (points : List IVector) :
    ∃ out, map.calcRefinePath 20 points = some out
      ∧ (out.IsChain (fun u v => distSquared u v ≤ 20 * 20)
        ↔ (map.keptPoints points).IsChain map.StaysNear) := by
  have enough : walkLength (map.keptPoints points) ≤ walkLength (map.keptPoints points) := le_rfl
  rcases map.insertLoop_near_iff enough with ⟨out, isOut, _, nearIff⟩
  exact ⟨out, isOut, nearIff⟩

end BlockMap

/-- A straight open corridor. -/
def corridorMap : BlockMap where
  mapWidth := 406
  mapHeight := 1
  blockBuffer := .replicate 406 0
  size := List.length_replicate

theorem corridorMap_path :
    corridorMap.calcRefinePath 20 [⟨0, 0⟩, ⟨405, 0⟩] = some [⟨0, 0⟩, ⟨400, 0⟩, ⟨405, 0⟩] := by
  decide +kernel

/-- In an open corridor a step of 400 stays in the refined path. -/
theorem calcRefinePath_longStep :
    ¬ ∀ (map : BlockMap) (points out : List IVector), points ≠ [] →
      (∀ p ∈ points, map.Inside p) → map.calcRefinePath 20 points = some out →
      out.IsChain fun u v => distSquared u v ≤ 20 * 20 := by
  intro claimed
  have isChain := claimed corridorMap _ _ (by simp) (by decide) corridorMap_path
  exact absurd isChain (by decide)

end PoETask.Attach
