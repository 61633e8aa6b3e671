import PoETask.Attach.RefinePath

/-!
# The line of sight

The cells that `IsConnected` looks at lie in the rectangle of the two cells, are the same in both
directions, and lead from a cell beside the one end to a cell beside the other. When none of them
is blocked, they are a way from cell to cell between the two ends.
-/

namespace PoETask.Attach

section Line

/-- The last cell of the loop lies beside the end of the line. -/
theorem lineLoop_last {short long incValue : ℤ} (shortNonneg : 0 ≤ short)
    (isShort : short ≤ long) {turns : ℕ} {ndx other pValue done moved : ℤ} (positive : 0 < turns)
    (total : done + turns = long) (started : 0 ≤ done) (fits : moved ≤ short)
    (isPValue : pValue = 2 * short * (done + 1) - 2 * long * moved - long)
    (bounded : pValue < 2 * short) :
    (lineLoop (2 * short) (2 * (short - long)) incValue turns ndx other pValue).getLast?
      = some (ndx + turns - 1, other + incValue * (short - moved)) := by
  induction turns generalizing ndx other pValue done moved with
  | zero => exact absurd positive (Nat.lt_irrefl 0)
  | succ turns lastRest =>
      push_cast at total ⊢
      have longPositive : 0 < long := by omega
      simp only [lineLoop]
      cases turns with
      | zero =>
          have isDone : done + 1 = long := by push_cast at total; omega
          have isGap : pValue = 2 * (long * (short - moved)) - long := by
            rw [isPValue, isDone]
            ring
          split_ifs with straight
          · have stays : short - moved ≤ 0 := by
              by_contra moves
              have : long * 1 ≤ long * (short - moved) :=
                mul_le_mul_of_nonneg_left (by omega) longPositive.le
              omega
            have isEnd : short - moved = 0 := by omega
            simp [isEnd, lineLoop]
          · have moves : 1 ≤ short - moved := by
              by_contra stays
              have : short - moved = 0 := by omega
              rw [this] at isGap
              omega
            have once : short - moved ≤ 1 := by
              by_contra twice
              have : long * 2 ≤ long * (short - moved) :=
                mul_le_mul_of_nonneg_left (by omega) longPositive.le
              omega
            have isEnd : short - moved = 1 := by omega
            simp [isEnd, lineLoop]
      | succ turns =>
          have isLast : ndx + 1 + ((turns + 1 : ℕ) : ℤ) - 1 = ndx + ((turns + 1 : ℕ) + 1) - 1 := by
            ring
          split_ifs with straight
          · rw [← isLast, List.getLast?_cons, lastRest (Nat.zero_lt_succ turns)
              (by push_cast at total ⊢; omega) (by omega) fits (line_straight isPValue) (by omega)]
            rfl
          · have movesOn := line_movesOn shortNonneg longPositive
              (by push_cast at total; omega) fits isPValue straight
            have isEnd : other + incValue * (short - moved)
                = other + incValue + incValue * (short - (moved + 1)) := by ring
            rw [← isLast, isEnd, List.getLast?_cons, lastRest (Nat.zero_lt_succ turns)
              (by push_cast at total ⊢; omega) (by omega) movesOn (line_sideways isPValue) (by omega)]
            rfl

/-- Every cell of the loop touches the one before it. -/
theorem lineLoop_isChain (inc2dy inc2dydx : ℤ) {incValue : ℤ} (isUnit : |incValue| ≤ 1)
    (turns : ℕ) (ndx other pValue : ℤ) :
    ((ndx - 1, other) :: lineLoop inc2dy inc2dydx incValue turns ndx other pValue).IsChain
      fun c d => d.1 = c.1 + 1 ∧ |d.2 - c.2| ≤ 1 := by
  induction turns generalizing ndx other pValue with
  | zero => exact .singleton _
  | succ turns chainRest =>
      have isNext : ndx = ndx + 1 - 1 := by ring
      simp only [lineLoop]
      split_ifs
      · refine .cons_cons ⟨by ring, by simp⟩ ?_
        rw [isNext]
        simpa only [sub_add_cancel] using chainRest (ndx + 1) other (pValue + inc2dy)
      · refine .cons_cons ⟨by ring, by simpa using isUnit⟩ ?_
        rw [isNext]
        simpa only [sub_add_cancel] using
          chainRest (ndx + 1) (other + incValue) (pValue + inc2dydx)

variable {a b u v : ℤ}

theorem lineLoop_getLast? (forward : a < b) (flat : |v - u| ≤ |b - a|) :
    (lineLoop (2 * |v - u|) (2 * (|v - u| - |b - a|)) (if u < v then 1 else -1) (b - a).toNat a u
      (2 * |v - u| - |b - a|)).getLast? = some (b - 1, v) := by
  have isLong : |b - a| = b - a := abs_of_pos (sub_pos.mpr forward)
  rw [isLong] at flat ⊢
  have isStart : 2 * |v - u| - (b - a) = 2 * |v - u| * (0 + 1) - 2 * (b - a) * 0 - (b - a) := by
    ring
  have isColumn : a + ((b - a).toNat : ℤ) - 1 = b - 1 := by omega
  have isRow : u + (if u < v then 1 else -1) * (|v - u| - 0) = v := by
    split_ifs with upwards
    · rw [abs_of_pos (sub_pos.mpr upwards)]
      ring
    · rw [abs_of_nonpos (by omega)]
      ring
  rw [lineLoop_last (abs_nonneg (v - u)) flat (by omega) (by omega) le_rfl (abs_nonneg _) isStart
    (by omega), isColumn, isRow]

/-- A step from an open place to one that touches it. -/
def Touches (isOpen : ℤ → ℤ → Prop) (c d : ℤ × ℤ) : Prop :=
  isOpen c.1 c.2 ∧ isOpen d.1 d.2 ∧ c ≠ d ∧ |d.1 - c.1| ≤ 1 ∧ |d.2 - c.2| ≤ 1

theorem isChain_reaches {α : Type*} {r s : α → α → Prop} {first last : α} {rest : List α}
    (isChain : (first :: rest).IsChain r)
    (steps : ∀ c ∈ first :: rest, ∀ d ∈ first :: rest, r c d → s c d)
    (isLast : (first :: rest).getLast? = some last) : Relation.ReflTransGen s first last := by
  induction rest generalizing first with
  | nil =>
      simp only [List.getLast?_singleton, Option.some_inj] at isLast
      exact isLast ▸ .refl
  | cons next rest reachesRest =>
      rw [List.isChain_cons_cons] at isChain
      rw [List.getLast?_cons_cons] at isLast
      have first_next : s first next := steps first (by simp) next (by simp) isChain.1
      apply Relation.ReflTransGen.head first_next
      apply reachesRest isChain.2 _ isLast
      intro c isCell d isCell'
      exact steps c (List.mem_cons_of_mem _ isCell) d (List.mem_cons_of_mem _ isCell')

/-- An open line leads from its lower end to its upper one. -/
theorem lineLoop_reaches {isOpen : ℤ → ℤ → Prop} (forward : a < b) (flat : |v - u| ≤ |b - a|)
    (startOpen : isOpen a u) (endOpen : isOpen b v)
    (lineOpen : ∀ c ∈ lineLoop (2 * |v - u|) (2 * (|v - u| - |b - a|)) (if u < v then 1 else -1)
      (b - a).toNat a u (2 * |v - u| - |b - a|), isOpen c.1 c.2) :
    Relation.ReflTransGen (Touches isOpen) (a, u) (b, v) := by
  have isLast := lineLoop_getLast? forward flat
  have isUnit : |if u < v then (1 : ℤ) else -1| ≤ 1 := by split_ifs <;> simp
  have isChain := lineLoop_isChain (2 * |v - u|) (2 * (|v - u| - |b - a|)) isUnit (b - a).toNat a u
    (2 * |v - u| - |b - a|)
  generalize lineLoop (2 * |v - u|) (2 * (|v - u| - |b - a|)) (if u < v then 1 else -1)
    (b - a).toNat a u (2 * |v - u| - |b - a|) = cells at lineOpen isLast isChain
  cases cells with
  | nil => exact absurd isLast (by simp)
  | cons first rest =>
      rw [List.isChain_cons_cons] at isChain
      rcases isChain with ⟨⟨isColumn, isRow⟩, isChain⟩
      simp only at isColumn isRow
      have firstOpen := lineOpen first List.mem_cons_self
      have toFirst : Relation.ReflTransGen (Touches isOpen) (a, u) first := by
        by_cases same : (a, u) = first
        · exact same ▸ .refl
        · refine .single ⟨startOpen, firstOpen, same, ?_, isRow⟩
          rw [isColumn]
          simp
      have toLast : Relation.ReflTransGen (Touches isOpen) first (b - 1, v) := by
        apply isChain_reaches isChain _ isLast
        intro c isCell d isCell' ⟨nextColumn, nextRow⟩
        refine ⟨lineOpen c isCell, lineOpen d isCell', ?_, ?_, nextRow⟩
        · intro same
          rw [same] at nextColumn
          omega
        · rw [nextColumn]
          simp
      have lastOpen := lineOpen _ (List.mem_of_getLast? isLast)
      refine (toFirst.trans toLast).tail ⟨lastOpen, endOpen, ?_, by simp, by simp⟩
      intro same
      have := congrArg Prod.fst same
      simp only at this
      omega

theorem Touches.symm {isOpen : ℤ → ℤ → Prop} {c d : ℤ × ℤ} (touches : Touches isOpen c d) :
    Touches isOpen d c := by
  rcases touches with ⟨cOpen, dOpen, different, column, row⟩
  rw [abs_sub_comm] at column row
  exact ⟨dOpen, cOpen, different.symm, column, row⟩

end Line

theorem lineCells_comm (p q : IVector) : lineCells p q = lineCells q p := by
  by_cases same : p = q
  · rw [same]
  simp only [lineCells, abs_sub_comm p.x q.x, abs_sub_comm p.y q.y]
  simp only [IVector.ext_iff] at same
  by_cases flat : |q.y - p.y| ≤ |q.x - p.x|
  · simp only [if_pos flat]
    rcases lt_trichotomy p.x q.x with forward | sameColumn | backward
    · simp only [if_pos forward, if_neg (not_lt.mpr forward.le)]
    · rw [sameColumn, sub_self, abs_zero] at flat
      have sameRow := sub_eq_zero.mp (abs_nonpos_iff.mp flat)
      exact absurd ⟨sameColumn, sameRow.symm⟩ same
    · simp only [if_pos backward, if_neg (not_lt.mpr backward.le)]
  · simp only [if_neg flat]
    rcases lt_trichotomy p.y q.y with upward | sameRow | downward
    · simp only [if_pos upward, if_neg (not_lt.mpr upward.le)]
    · rw [sameRow, sub_self, abs_zero] at flat
      exact absurd (abs_nonneg _) flat
    · simp only [if_pos downward, if_neg (not_lt.mpr downward.le)]

namespace Between

variable {p q c : IVector}

theorem symm (between : Between p q c) : Between q p c := by
  rcases between with ⟨_, _, _, _⟩
  constructor <;> omega

theorem first (p q : IVector) : Between p q p :=
  ⟨min_le_left _ _, le_max_left _ _, min_le_left _ _, le_max_left _ _⟩

theorem last (p q : IVector) : Between p q q := (first q p).symm

end Between

namespace BlockMap

theorem isConnected_comm (map : BlockMap) (p q : IVector) :
    map.isConnected p q = map.isConnected q p := by
  rw [isConnected, lineCells_comm, isConnected]

/-- A step between open neighbours in the rectangle of two cells. -/
def WalksWithin (map : BlockMap) (p q u v : IVector) : Prop :=
  (Between p q u ∧ map.Open u) ∧ (Between p q v ∧ map.Open v) ∧ Neighbours u v

variable {map : BlockMap} {p q u v : IVector}

theorem WalksWithin.symm (walks : map.WalksWithin p q u v) : map.WalksWithin q p v u := by
  rcases walks with ⟨⟨uBetween, uOpen⟩, ⟨vBetween, vOpen⟩, different, column, row⟩
  rw [abs_sub_comm] at column row
  exact ⟨⟨vBetween.symm, vOpen⟩, ⟨uBetween.symm, uOpen⟩, different.symm, column, row⟩

theorem lineCells_open (pOpen : map.Open p) (qOpen : map.Open q)
    (isConnected : map.isConnected p q = true) :
    ∀ c ∈ lineCells p q, Between p q c ∧ map.Open c := by
  intro c isCell
  have between := between_of_mem_lineCells isCell
  exact ⟨between, between.inside pOpen.1 qOpen.1,
    of_decide_eq_true (List.all_eq_true.mp isConnected c isCell)⟩

/-- The line along the columns, from its left end. -/
theorem walksWithin_flat (pOpen : map.Open p) (qOpen : map.Open q)
    (isConnected : map.isConnected p q = true) (forward : p.x < q.x)
    (flat : |q.y - p.y| ≤ |q.x - p.x|) :
    Relation.ReflTransGen (map.WalksWithin p q) p q := by
  have areOpen := lineCells_open pOpen qOpen isConnected
  simp only [lineCells, if_pos flat, if_neg (not_lt.mpr forward.le)] at areOpen
  have reaches : Relation.ReflTransGen
      (Touches fun x y => Between p q ⟨x, y⟩ ∧ map.Open ⟨x, y⟩) (p.x, p.y) (q.x, q.y) := by
    apply lineLoop_reaches forward flat
    · exact ⟨.first p q, pOpen⟩
    · exact ⟨.last p q, qOpen⟩
    · exact fun c isCell => areOpen _ (List.mem_map_of_mem isCell)
  apply reaches.lift fun c : ℤ × ℤ => (⟨c.1, c.2⟩ : IVector)
  rintro c d ⟨cOpen, dOpen, different, column, row⟩
  refine ⟨cOpen, dOpen, ?_, column, row⟩
  intro same
  exact different (Prod.ext (congrArg IVector.x same) (congrArg IVector.y same))

/-- The line along the rows, from its lower end. -/
theorem walksWithin_steep (pOpen : map.Open p) (qOpen : map.Open q)
    (isConnected : map.isConnected p q = true) (upward : p.y < q.y)
    (steep : |q.x - p.x| < |q.y - p.y|) :
    Relation.ReflTransGen (map.WalksWithin p q) p q := by
  have areOpen := lineCells_open pOpen qOpen isConnected
  simp only [lineCells, if_neg (not_le.mpr steep), if_neg (not_lt.mpr upward.le)] at areOpen
  have reaches : Relation.ReflTransGen
      (Touches fun y x => Between p q ⟨x, y⟩ ∧ map.Open ⟨x, y⟩) (p.y, p.x) (q.y, q.x) := by
    apply lineLoop_reaches upward steep.le
    · exact ⟨.first p q, pOpen⟩
    · exact ⟨.last p q, qOpen⟩
    · exact fun c isCell => areOpen _ (List.mem_map_of_mem isCell)
  apply reaches.lift fun c : ℤ × ℤ => (⟨c.2, c.1⟩ : IVector)
  rintro c d ⟨cOpen, dOpen, different, row, column⟩
  refine ⟨cOpen, dOpen, ?_, column, row⟩
  intro same
  exact different (Prod.ext (congrArg IVector.y same) (congrArg IVector.x same))

theorem walksWithin_of_isConnected (pOpen : map.Open p) (qOpen : map.Open q)
    (isConnected : map.isConnected p q = true) :
    Relation.ReflTransGen (map.WalksWithin p q) p q := by
  have backwards : Relation.ReflTransGen (map.WalksWithin q p) q p →
      Relation.ReflTransGen (map.WalksWithin p q) p q := by
    intro reaches
    have isSubrelation : Function.swap (map.WalksWithin q p) ≤ map.WalksWithin p q :=
      fun _ _ => WalksWithin.symm
    exact Relation.ReflTransGen.mono isSubrelation p q (Relation.ReflTransGen.swap _ _ reaches)
  have isConnected' := isConnected
  rw [isConnected_comm] at isConnected'
  rcases le_or_gt |q.y - p.y| |q.x - p.x| with flat | steep
  · rcases lt_trichotomy p.x q.x with forward | sameColumn | backward
    · exact walksWithin_flat pOpen qOpen isConnected forward flat
    · rw [sameColumn, sub_self, abs_zero] at flat
      have sameRow := sub_eq_zero.mp (abs_nonpos_iff.mp flat)
      have same : p = q := IVector.ext sameColumn sameRow.symm
      exact same ▸ .refl
    · rw [abs_sub_comm q.y, abs_sub_comm q.x] at flat
      exact backwards (walksWithin_flat qOpen pOpen isConnected' backward flat)
  · rcases lt_trichotomy p.y q.y with upward | sameRow | downward
    · exact walksWithin_steep pOpen qOpen isConnected upward steep
    · rw [sameRow, sub_self, abs_zero] at steep
      exact absurd (abs_nonneg _) (not_le.mpr steep)
    · rw [abs_sub_comm q.y, abs_sub_comm q.x] at steep
      exact backwards (walksWithin_steep qOpen pOpen isConnected' downward steep)

/-- The line of sight stays in the rectangle, has no direction, and is a way between its ends when
it is open. -/
theorem isConnected_sound (pOpen : map.Open p) (qOpen : map.Open q) :
    (∀ c ∈ lineCells p q, Between p q c)
      ∧ map.isConnected p q = map.isConnected q p
      ∧ (map.isConnected p q = true → Relation.ReflTransGen (map.WalksWithin p q) p q) :=
  ⟨fun _ => between_of_mem_lineCells, map.isConnected_comm p q,
    walksWithin_of_isConnected pOpen qOpen⟩

/-- On `slopeMap` the corridor joins its ends. -/
theorem isConnected_sound_slopeMap :
    (∀ c ∈ lineCells ⟨0, 0⟩ ⟨20, 1⟩, Between ⟨0, 0⟩ ⟨20, 1⟩ c)
      ∧ slopeMap.isConnected ⟨0, 0⟩ ⟨20, 1⟩ = slopeMap.isConnected ⟨20, 1⟩ ⟨0, 0⟩
      ∧ (slopeMap.isConnected ⟨0, 0⟩ ⟨20, 1⟩ = true →
        Relation.ReflTransGen (slopeMap.WalksWithin ⟨0, 0⟩ ⟨20, 1⟩) ⟨0, 0⟩ ⟨20, 1⟩) :=
  isConnected_sound (by decide) (by decide)

end BlockMap

end PoETask.Attach
