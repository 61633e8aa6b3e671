import Mathlib.Algebra.Order.Monoid.WithTop
import Mathlib.Logic.Function.Basic

/-!
# Label-setting shortest paths

A search labels the nodes of a weighted graph with a distance, a parent and a mark
that the label is final. `Labels.Invariant` is what makes such a search right: every
label belongs to a walk that the parents trace back, final labels are not larger than
the others, and the edges out of final nodes cannot improve a label.

Two operations keep it. Settling makes the smallest open label final and puts the
edges of that node on a waiting list; relaxing takes one edge from the list. While no
edge waits, the frontier lemma holds: the end of every walk is final with a label not
above the cost of the walk, or some open label is not above it.

Costs are elements of any linearly ordered additive monoid.
-/

namespace PoETask.Library

universe u v

variable {V : Type u} {W : Type v}

/-- A walk along edges, with its cost and the nodes it visits from its start on. -/
inductive Walk [AddCommMonoid W] (edges : V → List (V × W)) (start : V) :
    V → W → List V → Prop where
  | nil : Walk edges start start 0 [start]
  | snoc {u v : V} {c w : W} {path : List V} (walk : Walk edges start u w path)
      (edge : (v, c) ∈ edges u) : Walk edges start v (w + c) (path ++ [v])

namespace Walk

section Composition

variable [AddCommMonoid W] {edges : V → List (V × W)} {start middle last : V} {w : W}
  {path : List V}

theorem ne_nil (walk : Walk edges start last w path) : path ≠ [] := by
  cases walk with
  | nil => exact List.cons_ne_nil _ _
  | snoc walk edge => exact List.append_ne_nil_of_right_ne_nil _ (List.cons_ne_nil _ _)

theorem getLast_eq (walk : Walk edges start last w path) : path.getLast? = some last := by
  cases walk with
  | nil => rfl
  | snoc walk edge => simp

/-- A walk that goes on along another one. -/
theorem trans {further : W} {rest : List V} (walk : Walk edges start middle w path)
    (next : Walk edges middle last further rest) :
    Walk edges start last (w + further) (path ++ rest.tail) := by
  induction next with
  | nil => simpa using walk
  | @snoc u v c total rest next edge ih =>
      have tail_eq : (rest ++ [v]).tail = rest.tail ++ [v] :=
        List.tail_append_of_ne_nil next.ne_nil
      rw [tail_eq, ← List.append_assoc, ← add_assoc]
      exact .snoc ih edge

theorem of_edge {c : W} (edge : (last, c) ∈ edges start) :
    Walk edges start last c [start, last] := by
  simpa using Walk.snoc (.nil : Walk edges start start 0 [start]) edge

/-- A walk splits at every node it visits. -/
theorem split {before after : List V} (walk : Walk edges start last w path)
    (path_eq : path = before ++ middle :: after) :
    ∃ w₁ w₂, Walk edges start middle w₁ (before ++ [middle]) ∧
      Walk edges middle last w₂ (middle :: after) ∧ w₁ + w₂ = w := by
  induction walk generalizing before after with
  | nil =>
      rcases List.append_eq_singleton_iff.mp path_eq.symm with ⟨rfl, same⟩ | ⟨-, absurd_eq⟩
      · cases same
        exact ⟨0, 0, .nil, .nil, add_zero 0⟩
      · cases absurd_eq
  | @snoc u v c total path walk edge ih =>
      rcases List.eq_nil_or_concat after with rfl | ⟨rest, final, rfl⟩
      · rcases List.append_inj' path_eq rfl with ⟨rfl, same⟩
        cases same
        exact ⟨total + c, 0, .snoc walk edge, .nil, add_zero _⟩
      · have split_eq : path ++ [v] = (before ++ middle :: rest) ++ [final] := by
          simpa using path_eq
        rcases List.append_inj' split_eq rfl with ⟨path_split, same⟩
        cases same
        rcases ih path_split with ⟨w₁, w₂, first, second, sum_eq⟩
        refine ⟨w₁, w₂ + c, first, ?_, ?_⟩
        · have further : Walk edges middle v (w₂ + c) ((middle :: rest) ++ [v]) :=
            .snoc second edge
          simpa using further
        · rw [← sum_eq, add_assoc]

end Composition

variable [AddCommMonoid W] [LinearOrder W]

/-- A walk of minimal cost, by the nodes it visits. -/
def Cheapest (edges : V → List (V × W)) (start last : V) (path : List V) : Prop :=
  ∃ w, Walk edges start last w path ∧ ∀ cost other, Walk edges start last cost other → w ≤ cost

variable {edges : V → List (V × W)} {start last : V} {path : List V}

/-- Where every edge costs at least `c`, a walk costs that for each node after the first. -/
theorem le_cost [IsOrderedAddMonoid W] {c w : W}
    (bound : ∀ u edge, edge ∈ edges u → c ≤ edge.2) (walk : Walk edges start last w path) :
    (path.length - 1) • c ≤ w := by
  induction walk with
  | nil => simp
  | @snoc u v cost total path walk edge ih =>
      have positive : 0 < path.length := List.length_pos_iff.mpr walk.ne_nil
      have length_eq : (path ++ [v]).length - 1 = (path.length - 1) + 1 := by
        simp only [List.length_append, List.length_singleton]
        omega
      rw [length_eq, succ_nsmul]
      exact add_le_add ih (bound u (v, cost) edge)

/-- Between two of its nodes a cheapest walk costs no more than any other way from one to the
other. -/
theorem Cheapest.middle [IsOrderedCancelAddMonoid W] {before between after : List V} {u v : V}
    (cheapest : Cheapest edges start last path)
    (path_eq : path = before ++ u :: (between ++ v :: after)) :
    Cheapest edges u v (u :: (between ++ [v])) := by
  rcases cheapest with ⟨w, walk, least⟩
  rcases walk.split path_eq with ⟨w₁, rest, first, onward, rest_eq⟩
  have onward_eq : u :: (between ++ v :: after) = (u :: between) ++ v :: after := rfl
  rcases onward.split onward_eq with ⟨w₂, w₃, second, third, onward_sum⟩
  refine ⟨w₂, second, ?_⟩
  intro cost other otherWalk
  have whole := least _ _ ((first.trans otherWalk).trans third)
  rw [← rest_eq, ← onward_sum, ← add_assoc] at whole
  exact le_of_add_le_add_left (le_of_add_le_add_right whole)

end Walk

structure Labels (V : Type u) (W : Type v) where
  distance : V → WithTop W
  parent : V → Option V
  closed : V → Bool

namespace Labels

/-- The nodes that the parents lead through, ending in the given one. -/
inductive Chain (labels : Labels V W) : V → List V → Prop where
  | root {v : V} (top : labels.parent v = none) : Chain labels v [v]
  | step {u v : V} {path : List V} (child : labels.parent v = some u)
      (chain : Chain labels u path) : Chain labels v (path ++ [v])

/-- A chain through nodes that keep their parents is a chain of the new labels. -/
theorem Chain.of_agree {labels next : Labels V W} {v : V} {path : List V}
    (chain : labels.Chain v path) (agree : ∀ u ∈ path, next.parent u = labels.parent u) :
    next.Chain v path := by
  induction chain with
  | root top => exact .root ((agree _ List.mem_cons_self).trans top)
  | step child chain ih =>
      refine .step ?_ (ih fun u u_mem => agree u (List.mem_append_left _ u_mem))
      exact (agree _ (List.mem_append_right _ List.mem_cons_self)).trans child

variable [AddCommMonoid W] [LinearOrder W]

/-- The label of `v` is the cost of a walk that the parents trace through final nodes. -/
def Traced (edges : V → List (V × W)) (start : V) (labels : Labels V W) (v : V) (w : W) : Prop :=
  ∃ inner, (∀ u ∈ inner, labels.closed u) ∧ labels.Chain v (inner ++ [v]) ∧
    Walk edges start v w (inner ++ [v])

/-- The invariant of a search, except for the edges that still wait to be relaxed. -/
structure Invariant (edges : V → List (V × W)) (start : V) (waiting : V → V × W → Prop)
    (labels : Labels V W) : Prop where
  start_zero : labels.distance start = 0
  distance_nonneg : ∀ v, 0 ≤ labels.distance v
  traced : ∀ v (w : W), labels.distance v = w → Traced edges start labels v w
  closed_finite : ∀ v, labels.closed v → labels.distance v ≠ ⊤
  ordered : ∀ u v, labels.closed u → ¬ labels.closed v → labels.distance u ≤ labels.distance v
  relaxed : ∀ u edge, labels.closed u → edge ∈ edges u → ¬ waiting u edge →
    labels.distance edge.1 ≤ labels.distance u + edge.2

variable {edges : V → List (V × W)} {start : V}

namespace Invariant

variable {labels : Labels V W} {waiting : V → V × W → Prop}

/-- An edge that cannot improve its end need not wait. -/
theorem discard {still : V → V × W → Prop} (invariant : Invariant edges start waiting labels)
    (settled : ∀ u edge, labels.closed u → edge ∈ edges u → waiting u edge → ¬ still u edge →
      labels.distance edge.1 ≤ labels.distance u + edge.2) :
    Invariant edges start still labels where
  start_zero := invariant.start_zero
  distance_nonneg := invariant.distance_nonneg
  traced := invariant.traced
  closed_finite := invariant.closed_finite
  ordered := invariant.ordered
  relaxed u edge isClosed edge_mem notStill := by
    by_cases waits : waiting u edge
    · exact settled u edge isClosed edge_mem waits notStill
    · exact invariant.relaxed u edge isClosed edge_mem waits

/-- While no edge waits, a walk ends in a final node within its cost, or it leaves an open label
within its cost. -/
theorem frontier [IsOrderedAddMonoid W]
    (invariant : Invariant edges start (fun _ _ => False) labels)
    (nonneg : ∀ u edge, edge ∈ edges u → 0 ≤ edge.2) {v : V} {w : W} {path : List V}
    (walk : Walk edges start v w path) :
    (labels.closed v ∧ labels.distance v ≤ w) ∨
      ∃ x, ¬ labels.closed x ∧ labels.distance x ≤ w := by
  induction walk with
  | nil =>
      by_cases isClosed : labels.closed start
      · exact Or.inl ⟨isClosed, invariant.start_zero.le⟩
      · exact Or.inr ⟨start, isClosed, invariant.start_zero.le⟩
  | @snoc u v c w path walk edge ih =>
      have cost_nonneg : (0 : WithTop W) ≤ c := by exact_mod_cast nonneg u _ edge
      have sum_eq : ((w + c : W) : WithTop W) = w + c := WithTop.coe_add w c
      simp only [sum_eq]
      rcases ih with ⟨isClosed, within⟩ | ⟨x, isOpen, within⟩
      · have step := invariant.relaxed u (v, c) isClosed edge not_false
        have through : labels.distance v ≤ w + c := step.trans (by gcongr)
        by_cases end_closed : labels.closed v
        · exact Or.inl ⟨end_closed, through⟩
        · exact Or.inr ⟨v, end_closed, through⟩
      · exact Or.inr ⟨x, isOpen, within.trans (le_add_of_nonneg_right cost_nonneg)⟩

end Invariant

variable [DecidableEq V]

def settle (labels : Labels V W) (v : V) : Labels V W :=
  { labels with closed := Function.update labels.closed v true }

def lower (labels : Labels V W) (u v : V) (c : W) : Labels V W :=
  { labels with
    distance := Function.update labels.distance v (labels.distance u + c)
    parent := Function.update labels.parent v (some u) }

def init (start : V) : Labels V W where
  distance := Function.update (fun _ => ⊤) start 0
  parent _ := none
  closed _ := false

namespace Invariant

variable {labels : Labels V W} {waiting : V → V × W → Prop}

theorem init : Invariant edges start (fun _ _ => False) (Labels.init start) where
  start_zero := by simp [Labels.init]
  distance_nonneg v := by
    by_cases same : v = start
    · simp [Labels.init, same]
    · simp [Labels.init, same]
  traced v w label := by
    by_cases same : v = start
    · subst same
      have zero : (0 : WithTop W) = w := by simpa [Labels.init] using label
      have cost_eq : w = 0 := (WithTop.coe_injective zero).symm
      subst cost_eq
      exact ⟨[], fun u u_mem => absurd u_mem List.not_mem_nil, .root rfl, .nil⟩
    · simp [Labels.init, same] at label
  closed_finite v isClosed := by simp [Labels.init] at isClosed
  ordered u v isClosed := by simp [Labels.init] at isClosed
  relaxed u edge isClosed := by simp [Labels.init] at isClosed

theorem settle {v : V} (invariant : Invariant edges start (fun _ _ => False) labels)
    (opened : ¬ labels.closed v) (finite : labels.distance v ≠ ⊤)
    (smallest : ∀ u, ¬ labels.closed u → labels.distance v ≤ labels.distance u) :
    Invariant edges start (fun u _ => u = v) (labels.settle v) where
  start_zero := invariant.start_zero
  distance_nonneg := invariant.distance_nonneg
  traced u w label := by
    rcases invariant.traced u w label with ⟨inner, through, chain, walk⟩
    refine ⟨inner, ?_, chain.of_agree fun _ _ => rfl, walk⟩
    intro x x_mem
    by_cases same : x = v
    · simp [Labels.settle, same]
    · simpa [Labels.settle, same] using through x x_mem
  closed_finite u isClosed := by
    by_cases same : u = v
    · exact same ▸ finite
    · exact invariant.closed_finite u (by simpa [Labels.settle, same] using isClosed)
  ordered u x isClosed notClosed := by
    have different : x ≠ v := by
      rintro rfl
      simp [Labels.settle] at notClosed
    have open_x : ¬ labels.closed x := by simpa [Labels.settle, different] using notClosed
    by_cases same : u = v
    · exact same ▸ smallest x open_x
    · exact invariant.ordered u x (by simpa [Labels.settle, same] using isClosed) open_x
  relaxed u edge isClosed edge_mem notWaiting := by
    refine invariant.relaxed u edge ?_ edge_mem not_false
    simpa [Labels.settle, notWaiting] using isClosed

variable [IsOrderedAddMonoid W]

theorem lower {u v : V} {c : W} (nonneg : 0 ≤ c)
    (invariant : Invariant edges start waiting labels) (isClosed : labels.closed u)
    (largest : ∀ x, labels.closed x → labels.distance x ≤ labels.distance u)
    (edge : (v, c) ∈ edges u) (opened : ¬ labels.closed v)
    (improves : labels.distance u + c < labels.distance v) :
    Invariant edges start waiting (labels.lower u v c) := by
  have cost_nonneg : (0 : WithTop W) ≤ c := by exact_mod_cast nonneg
  have closed_ne : ∀ x, labels.closed x → x ≠ v := by
    rintro x closed_x rfl
    exact opened closed_x
  have keeps : ∀ x, x ≠ v → (labels.lower u v c).distance x = labels.distance x :=
    fun x different => Function.update_of_ne different ..
  have lowered : (labels.lower u v c).distance v = labels.distance u + c := Function.update_self ..
  have chains : ∀ x path, labels.Chain x path → (∀ y ∈ path, y ≠ v) →
      (labels.lower u v c).Chain x path := by
    intro x path chain avoids
    exact chain.of_agree fun y y_mem => Function.update_of_ne (avoids y y_mem) ..
  obtain ⟨base, base_eq⟩ := WithTop.ne_top_iff_exists.mp (invariant.closed_finite u isClosed)
  have start_ne : start ≠ v := by
    rintro rfl
    simp only [invariant.start_zero] at improves
    exact absurd (add_nonneg (invariant.distance_nonneg u) cost_nonneg) (not_le.mpr improves)
  refine ⟨?_, ?_, ?_, ?_, ?_, ?_⟩
  · simp only [keeps start start_ne]
    exact invariant.start_zero
  · intro x
    by_cases same : x = v
    · simp only [same, lowered]
      exact add_nonneg (invariant.distance_nonneg u) cost_nonneg
    · simp only [keeps x same]
      exact invariant.distance_nonneg x
  · intro x w label
    by_cases same : x = v
    · subst same
      rcases invariant.traced u base base_eq.symm with ⟨inner, through, chain, walk⟩
      have cost_eq : w = base + c := by
        rw [lowered, ← base_eq, ← WithTop.coe_add] at label
        exact (WithTop.coe_injective label).symm
      refine ⟨inner ++ [u], ?_, ?_, ?_⟩
      · intro y y_mem
        simp only [List.mem_append, List.mem_singleton] at y_mem
        rcases y_mem with y_mem | rfl
        · exact through y y_mem
        · exact isClosed
      · refine .step (Function.update_self ..) (chains u _ chain ?_)
        intro y y_mem
        simp only [List.mem_append, List.mem_singleton] at y_mem
        rcases y_mem with y_mem | rfl
        · exact closed_ne y (through y y_mem)
        · exact closed_ne y isClosed
      · simp only [cost_eq]
        exact .snoc walk edge
    · simp only [keeps x same] at label
      rcases invariant.traced x w label with ⟨inner, through, chain, walk⟩
      refine ⟨inner, through, chains x _ chain ?_, walk⟩
      intro y y_mem
      simp only [List.mem_append, List.mem_singleton] at y_mem
      rcases y_mem with y_mem | rfl
      · exact closed_ne y (through y y_mem)
      · exact same
  · intro x closed_x
    simp only [keeps x (closed_ne x closed_x)]
    exact invariant.closed_finite x closed_x
  · intro x y closed_x open_y
    simp only [keeps x (closed_ne x closed_x)]
    by_cases same : y = v
    · simp only [same, lowered]
      exact (largest x closed_x).trans (le_add_of_nonneg_right cost_nonneg)
    · simp only [keeps y same]
      exact invariant.ordered x y closed_x open_y
  · intro x other closed_x other_mem notWaiting
    simp only [keeps x (closed_ne x closed_x)]
    have before := invariant.relaxed x other closed_x other_mem notWaiting
    by_cases same : other.1 = v
    · simp only [same, lowered]
      simp only [same] at before
      exact improves.le.trans before
    · simp only [keeps _ same]
      exact before

end Invariant

end Labels

end PoETask.Library
