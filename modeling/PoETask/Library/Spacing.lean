import Mathlib.Data.List.Basic
import Mathlib.Data.Nat.Basic

/-!
# Times a gap apart

The times of something that happens again only after a gap, the latest first. In a window
of time it happens at most once for each gap that fits into the window, and once more.
-/

namespace PoETask.Library

/-- Each time is at least a gap after all times before it. -/
def Spaced (gap : ℕ) (times : List ℕ) : Prop :=
  times.Pairwise fun later earlier => earlier + gap ≤ later

variable {gap now : ℕ} {times : List ℕ}

theorem Spaced.nil : Spaced gap [] := List.Pairwise.nil

theorem Spaced.cons (spaced : Spaced gap times) (passed : ∀ time ∈ times, time + gap ≤ now) :
    Spaced gap (now :: times) :=
  List.pairwise_cons.mpr ⟨passed, spaced⟩

/-- All but the latest of some spaced times lie that many gaps before it. -/
theorem Spaced.length_mul_le (spaced : Spaced gap (now :: times)) {start : ℕ}
    (inside : ∀ time ∈ times, start ≤ time) : times ≠ [] → start + times.length * gap ≤ now := by
  induction times generalizing now with
  | nil => exact fun impossible => absurd rfl impossible
  | cons latest times ih =>
      intro _
      rcases List.pairwise_cons.mp spaced with ⟨passed, rest⟩
      have isLater := passed latest List.mem_cons_self
      rw [List.length_cons, Nat.succ_mul]
      by_cases isEmpty : times = []
      · subst isEmpty
        have isStart := inside latest List.mem_cons_self
        simp only [List.length_nil, Nat.zero_mul]
        omega
      · have bound := ih rest (fun time isTime => inside time (List.mem_cons_of_mem _ isTime))
          isEmpty
        omega

/-- How many of them a window can hold. -/
theorem Spaced.length_window (spaced : Spaced gap times) (positive : 0 < gap) (start width : ℕ) :
    (times.filter fun time => start ≤ time ∧ time ≤ start + width).length ≤ width / gap + 1 := by
  have inside : ∀ time ∈ times.filter (fun time => start ≤ time ∧ time ≤ start + width),
      start ≤ time ∧ time ≤ start + width := by
    intro time isTime
    exact of_decide_eq_true (List.mem_filter.mp isTime).2
  have stillSpaced : Spaced gap (times.filter fun time =>
      start ≤ time ∧ time ≤ start + width) := List.Pairwise.filter _ spaced
  generalize times.filter (fun time => start ≤ time ∧ time ≤ start + width) = window at *
  cases window with
  | nil => exact Nat.zero_le _
  | cons latest earlier =>
      have isLast := (inside latest List.mem_cons_self).2
      rw [List.length_cons]
      apply Nat.succ_le_succ
      rw [Nat.le_div_iff_mul_le positive]
      by_cases isEmpty : earlier = []
      · simp [isEmpty]
      · have bound := stillSpaced.length_mul_le
          (fun time isTime => (inside time (List.mem_cons_of_mem _ isTime)).1) isEmpty
        omega

end PoETask.Library
