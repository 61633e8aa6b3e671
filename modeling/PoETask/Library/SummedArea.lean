import Mathlib.Algebra.BigOperators.Intervals
import Mathlib.Tactic.Abel
import Mathlib.Tactic.Ring

/-!
# Summed-area tables

A table of `w` columns and `h` rows, stored row by row, that is overwritten entry by entry with
the sums over the rectangles that end at the entries. The sum over any window is then read off at
its four corners.
-/

namespace PoETask.SummedArea

variable {α : Type*} [AddCommGroup α]

def prefixSum (f : ℕ → ℕ → α) (x y : ℕ) : α :=
  ∑ j ∈ Finset.range (y + 1), ∑ i ∈ Finset.range (x + 1), f i j

theorem prefixSum_zero_zero (f : ℕ → ℕ → α) : prefixSum f 0 0 = f 0 0 := by
  simp [prefixSum]

theorem prefixSum_zero_succ (f : ℕ → ℕ → α) (y : ℕ) :
    prefixSum f 0 (y + 1) = f 0 (y + 1) + prefixSum f 0 y := by
  rw [prefixSum, Finset.sum_range_succ, Finset.sum_range_one, add_comm]
  rfl

theorem prefixSum_succ_zero (f : ℕ → ℕ → α) (x : ℕ) :
    prefixSum f (x + 1) 0 = f (x + 1) 0 + prefixSum f x 0 := by
  rw [prefixSum, Finset.sum_range_one, Finset.sum_range_succ, add_comm, prefixSum,
    Finset.sum_range_one]

theorem prefixSum_succ_succ (f : ℕ → ℕ → α) (x y : ℕ) :
    prefixSum f (x + 1) (y + 1)
      = f (x + 1) (y + 1) + prefixSum f x (y + 1) + prefixSum f (x + 1) y - prefixSum f x y := by
  have lastRow : ∀ x, prefixSum f x (y + 1)
      = prefixSum f x y + ∑ i ∈ Finset.range (x + 1), f i (y + 1) :=
    fun x => Finset.sum_range_succ _ _
  rw [lastRow, lastRow, Finset.sum_range_succ _ (x + 1)]
  abel

/-- The sum over the entries strictly before a corner. -/
def sumBefore (f : ℕ → ℕ → α) (x y : ℕ) : α :=
  ∑ j ∈ Finset.range y, ∑ i ∈ Finset.range x, f i j

theorem sumBefore_succ_succ (f : ℕ → ℕ → α) (x y : ℕ) :
    sumBefore f (x + 1) (y + 1) = prefixSum f x y :=
  rfl

theorem sumBefore_zero_left (f : ℕ → ℕ → α) (y : ℕ) : sumBefore f 0 y = 0 := by
  simp [sumBefore]

theorem sumBefore_zero_right (f : ℕ → ℕ → α) (x : ℕ) : sumBefore f x 0 = 0 := by
  simp [sumBefore]

/-- The sum over a rectangle with a given corner, borders included, from its four corners. -/
theorem sumBefore_rectangle (f : ℕ → ℕ → α) (x y width height : ℕ) :
    sumBefore f (x + width) (y + height) + sumBefore f x y - sumBefore f x (y + height)
        - sumBefore f (x + width) y
      = ∑ j ∈ Finset.range height, ∑ i ∈ Finset.range width, f (x + i) (y + j) := by
  have strip : ∀ x, sumBefore f x (y + height) - sumBefore f x y
      = ∑ j ∈ Finset.range height, ∑ i ∈ Finset.range x, f i (y + j) := by
    intro x
    rw [sumBefore, sumBefore, Finset.sum_range_add, add_sub_cancel_left]
  have difference : sumBefore f (x + width) (y + height) + sumBefore f x y
        - sumBefore f x (y + height) - sumBefore f (x + width) y
      = (sumBefore f (x + width) (y + height) - sumBefore f (x + width) y)
        - (sumBefore f x (y + height) - sumBefore f x y) := by
    abel
  rw [difference, strip, strip, ← Finset.sum_sub_distrib]
  apply Finset.sum_congr rfl
  intro j _
  rw [Finset.sum_range_add, add_sub_cancel_left]

/-- The sum over a window, half-open at its lower ends, from its four corners. -/
theorem prefixSum_window (f : ℕ → ℕ → α) {x₀ x₁ y₀ y₁ : ℕ} (columns : x₀ ≤ x₁) (rows : y₀ ≤ y₁) :
    prefixSum f x₁ y₁ + prefixSum f x₀ y₀ - prefixSum f x₀ y₁ - prefixSum f x₁ y₀
      = ∑ j ∈ Finset.Ioc y₀ y₁, ∑ i ∈ Finset.Ioc x₀ x₁, f i j := by
  have rectangle := sumBefore_rectangle f (x₀ + 1) (y₀ + 1) (x₁ - x₀) (y₁ - y₀)
  have lastColumn : x₀ + 1 + (x₁ - x₀) = x₁ + 1 := by omega
  have lastRow : y₀ + 1 + (y₁ - y₀) = y₁ + 1 := by omega
  simp only [lastColumn, lastRow, sumBefore_succ_succ] at rectangle
  simp only [rectangle, ← Finset.Ico_add_one_add_one_eq_Ioc, Finset.sum_Ico_eq_sum_range,
    Nat.add_sub_add_right]

/-- One more entry, from the sums before its corner. -/
theorem prefixSum_eq_sumBefore (f : ℕ → ℕ → α) (x y : ℕ) :
    prefixSum f x y
      = f x y + (sumBefore f (x + 1) y + sumBefore f x (y + 1) - sumBefore f x y) := by
  have rectangle := sumBefore_rectangle f x y 1 1
  simp only [Finset.sum_range_one, Nat.add_zero] at rectangle
  rw [← sumBefore_succ_succ, ← rectangle]
  abel

/-- The entries that are `done` hold their sums, the others still their own values. -/
structure Summed (w h : ℕ) (f : ℕ → ℕ → α) (done : ℕ → ℕ → Prop) (table : List α) : Prop where
  length : table.length = w * h
  sum : ∀ {x y}, x < w → y < h → done x y → table.getD (y * w + x) 0 = prefixSum f x y
  own : ∀ {x y}, x < w → y < h → ¬ done x y → table.getD (y * w + x) 0 = f x y

namespace Summed

variable {w h : ℕ} {f : ℕ → ℕ → α} {done done' : ℕ → ℕ → Prop} {table : List α}

theorem congr (summed : Summed w h f done table)
    (same : ∀ {x y}, x < w → y < h → (done' x y ↔ done x y)) : Summed w h f done' table where
  length := summed.length
  sum column row isDone := summed.sum column row ((same column row).mp isDone)
  own column row notDone :=
    summed.own column row fun isDone => notDone ((same column row).mpr isDone)

/-- Writing the sum of one more entry. -/
theorem write (summed : Summed w h f done table) {x y : ℕ} (column : x < w) (row : y < h)
    {value : α} (isSum : value = prefixSum f x y)
    (adds : ∀ {i j}, i < w → j < h → (done' i j ↔ done i j ∨ i = x ∧ j = y)) :
    Summed w h f done' (table.set (y * w + x) value) := by
  have inTable : y * w + x < table.length := by
    rw [summed.length]
    calc y * w + x < y * w + w := Nat.add_lt_add_left column _
      _ = (y + 1) * w := (Nat.succ_mul y w).symm
      _ ≤ h * w := Nat.mul_le_mul_right w row
      _ = w * h := Nat.mul_comm h w
  have sameEntry : ∀ {i j}, i < w → (j * w + i = y * w + x ↔ i = x ∧ j = y) := by
    intro i j iColumn
    constructor
    · intro same
      have columns := congrArg (· % w) same
      have rows := congrArg (· / w) same
      simp only [Nat.mul_add_mod', Nat.mod_eq_of_lt iColumn, Nat.mod_eq_of_lt column] at columns
      simp only [Nat.mul_comm _ w, Nat.mul_add_div column.pos, Nat.div_eq_of_lt iColumn,
        Nat.div_eq_of_lt column, Nat.add_zero] at rows
      exact ⟨columns, rows⟩
    · rintro ⟨rfl, rfl⟩
      rfl
  have reads : ∀ {i j}, i < w → (table.set (y * w + x) value).getD (j * w + i) 0
      = if i = x ∧ j = y then value else table.getD (j * w + i) 0 := by
    intro i j iColumn
    simp only [List.getD_eq_getElem?_getD, List.getElem?_set, ← sameEntry iColumn]
    by_cases same : j * w + i = y * w + x
    · simp [same, inTable]
    · have different : ¬ y * w + x = j * w + i := fun isSame => same isSame.symm
      simp [same, different]
  constructor
  case length => rw [List.length_set, summed.length]
  case sum =>
    intro i j iColumn jRow isDone
    rw [reads iColumn]
    split_ifs with isNew
    · rw [isNew.1, isNew.2, isSum]
    · exact summed.sum iColumn jRow (((adds iColumn jRow).mp isDone).resolve_right isNew)
  case own =>
    intro i j iColumn jRow notDone
    have isOld := fun isDone => notDone ((adds iColumn jRow).mpr (.inl isDone))
    have notNew := fun isNew => notDone ((adds iColumn jRow).mpr (.inr isNew))
    rw [reads iColumn, if_neg notNew, summed.own iColumn jRow isOld]

end Summed

/-- A loop below `n` keeps what each of its turns keeps. -/
theorem foldl_from_zero {β : Type*} {motive : ℕ → β → Prop} (turn : β → ℕ → β) {n : ℕ} {init : β}
    (start : motive 0 init)
    (step : ∀ {k state}, k < n → motive k state → motive (k + 1) (turn state k)) :
    motive n ((List.range n).foldl turn init) := by
  induction n with
  | zero => exact start
  | succ n keeps =>
      rw [List.range_succ, List.foldl_append]
      exact step (Nat.lt_succ_self n)
        (keeps fun isLess => step (isLess.trans (Nat.lt_succ_self n)))

/-- A loop from 1 to `n` keeps what each of its turns keeps. -/
theorem foldl_from_one {β : Type*} {motive : ℕ → β → Prop} (turn : β → ℕ → β) {n : ℕ} {init : β}
    (start : motive 1 init)
    (step : ∀ {k state}, 1 ≤ k → k < n → motive k state → motive (k + 1) (turn state k))
    (positive : 1 ≤ n) : motive n ((List.range' 1 (n - 1)).foldl turn init) := by
  induction n, positive using Nat.le_induction with
  | base => exact start
  | succ n positive keeps =>
      have isSucc : n + 1 - 1 = (n - 1) + 1 := by omega
      rw [isSucc, List.range'_1_concat, List.foldl_append]
      have isLast : 1 + (n - 1) = n := by omega
      simp only [isLast, List.foldl_cons, List.foldl_nil]
      exact step positive (Nat.lt_succ_self n)
        (keeps fun oneLe isLess => step oneLe (isLess.trans (Nat.lt_succ_self n)))

end PoETask.SummedArea
