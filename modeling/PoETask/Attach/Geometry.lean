import Mathlib.Algebra.Order.Ring.Int
import Mathlib.Tactic.Ring

/-!
# Points

Positions in grid points and in map cells. Distances are compared by their squares,
which is exact: `DIST` divides by ten, so `DIST u v < r` is read as a bound of
`(10 r)²` on the square.
-/

namespace PoETask.Attach

@[ext]
structure IVector where
  x : ℤ
  y : ℤ
  deriving DecidableEq, Inhabited

/-- A hundred times the square of `DIST`. -/
def distSquared (u v : IVector) : ℤ :=
  (u.x - v.x) * (u.x - v.x) + (u.y - v.y) * (u.y - v.y)

theorem distSquared_nonneg (u v : IVector) : 0 ≤ distSquared u v :=
  add_nonneg (mul_self_nonneg _) (mul_self_nonneg _)

end PoETask.Attach
