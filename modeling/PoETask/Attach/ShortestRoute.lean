import PoETask.Attach.Dijkstra
import Mathlib.Algebra.Order.Ring.Nat
import Mathlib.Data.Fin.VecNotation
import Mathlib.Data.Finset.Card
import Mathlib.Data.List.Sort

/-!
# Shortest routes

The search keeps the label invariant of label-setting shortest paths, and its open
and closed vectors account for every node it has touched. A round settles the front
node and relaxes its edges, or it meets a node that is closed already and changes
nothing but the vector. So the number of open nodes and the length of the vector
decrease together, and when the goal comes up or the vector runs empty the frontier
lemma gives the answer.
-/

namespace PoETask.Attach

open PoETask.Library

universe u v

namespace Dijkstra

variable {V : Type u} {W : Type v}

section Parents

theorem reconstructPath_of_chain (search : Dijkstra V W) {node : V} {path : List V}
    (chain : search.labels.Chain node path) {fuel : ℕ} (enough : path.length ≤ fuel) :
    search.reconstructPath fuel node = some path.reverse := by
  induction chain generalizing fuel with
  | root top =>
      rcases fuel with _ | fuel
      · simp at enough
      · change (search.nodes _).parent = none at top
        simp [reconstructPath, top]
  | @step u v path child chain ih =>
      rcases fuel with _ | fuel
      · simp at enough
      · change (search.nodes v).parent = some u at child
        have shorter : path.length ≤ fuel := by
          simp only [List.length_append, List.length_singleton] at enough
          exact Nat.le_of_succ_le_succ enough
        simp [reconstructPath, child, ih shorter]

end Parents

/-- The two vectors account for every touched node. -/
structure Books (search : Dijkstra V W) : Prop where
  opened : ∀ node, ¬ (search.nodes node).closed → search.distance node ≠ ⊤ →
    node ∈ search.openNodes
  open_finite : ∀ node ∈ search.openNodes, search.distance node ≠ ⊤
  closed_iff : ∀ node, (search.nodes node).closed ↔ node ∈ search.closedNodes
  untouched : ∀ node, search.distance node = ⊤ → search.nodes node = DijkstraNode.fresh

variable [DecidableEq V]

section Clear

theorem foldl_release (touched : List V) (search : Dijkstra V W) (node : V) :
    (touched.foldl release search).nodes node =
      if node ∈ touched then DijkstraNode.fresh else search.nodes node := by
  induction touched generalizing search with
  | nil => simp
  | cons head rest ih =>
      simp only [List.foldl_cons, ih]
      by_cases inRest : node ∈ rest
      · simp [inRest]
      · by_cases same : node = head
        · simp [same, release, modify]
        · simp [inRest, same, release, modify]

theorem Books.clear {search : Dijkstra V W} (books : search.Books) : search.clear = fresh := by
  have nodes_eq : search.clear.nodes = fun _ => DijkstraNode.fresh := by
    funext node
    change (search.closedNodes.foldl release (search.openNodes.foldl release search)).nodes node = _
    rw [foldl_release]
    by_cases isClosed : node ∈ search.closedNodes
    · simp [isClosed]
    · rw [if_neg isClosed, foldl_release]
      by_cases isOpen : node ∈ search.openNodes
      · simp [isOpen]
      · simp only [if_neg isOpen]
        apply books.untouched
        by_contra touched
        exact isOpen (books.opened node (mt (books.closed_iff node).mp isClosed) touched)
  change Dijkstra.mk search.clear.nodes [] [] = _
  simp only [nodes_eq]
  rfl

end Clear

variable [LinearOrder W] (library : StdAlgorithms V W)

omit [DecidableEq V] in
theorem mem_openNodes_pushOpen {search : Dijkstra V W} {node other : V} :
    other ∈ (search.pushOpen library node).openNodes ↔ other ∈ search.openNodes ∨ other = node := by
  have members := (library.pushHeap_perm search.distance (search.openNodes ++ [node])).mem_iff
    (a := other)
  simp only [List.mem_append, List.mem_singleton] at members
  exact members

theorem openNodes_popOpen (search : Dijkstra V W) (node : V) (rest : List V) :
    ((({ search with openNodes := node :: rest }) : Dijkstra V W).popOpen library
      node).openNodes.Perm rest := by
  rcases library.popHeap_front search.distance node rest with ⟨others, perm, popped_eq⟩
  change (library.popHeap search.distance (node :: rest)).dropLast.Perm rest
  simp only [popped_eq, List.dropLast_concat]
  exact perm

theorem labels_popOpen (search : Dijkstra V W) (node : V) :
    (search.popOpen library node).labels = search.labels.settle node := by
  simp only [labels, popOpen, modify, Labels.settle, Labels.mk.injEq]
  refine ⟨?_, ?_, ?_⟩ <;> funext other <;> by_cases same : other = node <;> simp [same]

theorem Books.popOpen {search : Dijkstra V W} {node : V} {rest : List V} (books : search.Books)
    (members : ∀ other, other ∈ search.openNodes ↔ other ∈ node :: rest) :
    (({ search with openNodes := node :: rest } : Dijkstra V W).popOpen library node).Books := by
  set popped := ({ search with openNodes := node :: rest } : Dijkstra V W).popOpen library node
    with popped_eq
  have remaining := openNodes_popOpen library search node rest
  have data : ∀ other, other ≠ node → popped.nodes other = search.nodes other := by
    intro other different
    simp [popped_eq, Dijkstra.popOpen, modify, different]
  have closed_node : (popped.nodes node).closed = true := by
    simp [popped_eq, Dijkstra.popOpen, modify]
  have distances : ∀ other, popped.distance other = search.distance other := by
    intro other
    by_cases same : other = node
    · simp [popped_eq, Dijkstra.popOpen, modify, distance, same]
    · simp [distance, data other same]
  refine ⟨?_, ?_, ?_, ?_⟩
  · intro other notClosed finite
    have different : other ≠ node := by
      rintro rfl
      exact notClosed closed_node
    simp only [data other different] at notClosed
    simp only [distances] at finite
    have inVector := (members other).mp (books.opened other notClosed finite)
    simp only [List.mem_cons] at inVector
    exact remaining.mem_iff.mpr (inVector.resolve_left different)
  · intro other isOpen
    simp only [distances]
    exact books.open_finite other
      ((members other).mpr (List.mem_cons_of_mem _ (remaining.mem_iff.mp isOpen)))
  · intro other
    change _ ↔ other ∈ search.closedNodes ++ [node]
    simp only [List.mem_append, List.mem_singleton]
    by_cases same : other = node
    · simp [same, closed_node]
    · simp only [data other same, books.closed_iff]
      simp [same]
  · intro other infinite
    simp only [distances] at infinite
    have different : other ≠ node := by
      rintro rfl
      exact books.open_finite other ((members other).mpr List.mem_cons_self) infinite
    simp only [data other different]
    exact books.untouched other infinite

variable [AddCommMonoid W] {getChildren : V → List (V × W)} {start goal : V}

section Children

variable {search : Dijkstra V W} {currentNode : V} {child : V × W}

theorem visitChild_of_not_improves (notImproves : ¬ (¬ (search.nodes child.1).closed ∧
    search.distance currentNode + child.2 < search.distance child.1)) :
    visitChild library currentNode search child = search := if_neg notImproves

theorem labels_visitChild (improves : ¬ (search.nodes child.1).closed ∧
    search.distance currentNode + child.2 < search.distance child.1) :
    (visitChild library currentNode search child).labels =
      search.labels.lower currentNode child.1 child.2 := by
  have taken : visitChild library currentNode search child =
      (search.modify child.1 fun data =>
        { data with
          distance := search.distance currentNode + child.2
          parent := some currentNode }).pushOpen library child.1 := if_pos improves
  simp only [taken]
  simp only [labels, pushOpen, modify, Labels.lower, Labels.mk.injEq]
  refine ⟨?_, ?_, ?_⟩ <;> funext other <;> by_cases same : other = child.1 <;>
    simp [same, distance]

theorem Books.visitChild (books : search.Books) (child : V × W) (currentNode : V) :
    (visitChild library currentNode search child).Books := by
  by_cases improves : ¬ (search.nodes child.1).closed ∧
      search.distance currentNode + child.2 < search.distance child.1
  · have finite : search.distance currentNode + child.2 ≠ ⊤ := improves.2.ne_top
    set lowered := search.modify child.1 fun data =>
      { data with
        distance := search.distance currentNode + child.2
        parent := some currentNode } with lowered_eq
    have visited : Dijkstra.visitChild library currentNode search child =
        lowered.pushOpen library child.1 := if_pos improves
    have data : ∀ other, other ≠ child.1 → lowered.nodes other = search.nodes other := by
      intro other different
      simp [lowered_eq, modify, different]
    have closedKept : ∀ other, (lowered.nodes other).closed = (search.nodes other).closed := by
      intro other
      by_cases same : other = child.1
      · simp [lowered_eq, modify, same]
      · simp only [data other same]
    have distance_child : lowered.distance child.1 = search.distance currentNode + child.2 := by
      simp [lowered_eq, modify, distance]
    simp only [visited]
    refine ⟨?_, ?_, ?_, ?_⟩
    · intro other notClosed otherFinite
      apply (mem_openNodes_pushOpen library).mpr
      by_cases same : other = child.1
      · exact Or.inr same
      · left
        change ¬ (lowered.nodes other).closed at notClosed
        change (lowered.nodes other).distance ≠ ⊤ at otherFinite
        simp only [data other same] at notClosed otherFinite
        exact books.opened other notClosed otherFinite
    · intro other isOpen
      change lowered.distance other ≠ ⊤
      by_cases same : other = child.1
      · simp only [same, distance_child]
        exact finite
      · change (lowered.nodes other).distance ≠ ⊤
        simp only [data other same]
        exact books.open_finite other (((mem_openNodes_pushOpen library).mp isOpen).resolve_right same)
    · intro other
      change (lowered.nodes other).closed ↔ other ∈ search.closedNodes
      simp only [closedKept]
      exact books.closed_iff other
    · intro other infinite
      change lowered.distance other = ⊤ at infinite
      have different : other ≠ child.1 := by
        rintro rfl
        exact finite (distance_child.symm.trans infinite)
      change lowered.nodes other = _
      simp only [data other different]
      change (lowered.nodes other).distance = ⊤ at infinite
      simp only [data other different] at infinite
      exact books.untouched other infinite
  · simp only [visitChild_of_not_improves library improves]
    exact books

theorem closed_visitChild (search : Dijkstra V W) (currentNode : V) (child : V × W) (node : V) :
    ((visitChild library currentNode search child).nodes node).closed =
      (search.nodes node).closed := by
  simp only [visitChild]
  split
  · by_cases same : node = child.1 <;> simp [pushOpen, modify, same]
  · rfl

end Children

/-- Between two rounds: the labels are right, the books are kept and the goal is still open. -/
structure Searching (getChildren : V → List (V × W)) (start goal : V) (search : Dijkstra V W) :
    Prop where
  invariant : search.labels.Invariant getChildren start fun _ _ => False
  books : search.Books
  goal_open : ¬ (search.nodes goal).closed

structure Answers (getChildren : V → List (V × W)) (start goal : V) (solution : Option (List V))
    (search : Dijkstra V W) : Prop where
  found_iff : solution.isSome ↔ ∃ w path, Walk getChildren start goal w path
  minimal : ∀ path, solution = some path → ∃ w, Walk getChildren start goal w path ∧
    ∀ cost other, Walk getChildren start goal cost other → w ≤ cost
  books : search.Books

namespace Searching

variable {search : Dijkstra V W} {currentNode : V} {rest : List V}

/-- A node that was closed before has nothing left to relax. -/
theorem foldl_of_closed (searching : Searching getChildren start goal search)
    (isClosed : (search.nodes currentNode).closed) {popped : Dijkstra V W}
    (same : popped.labels = search.labels) :
    (getChildren currentNode).foldl (visitChild library currentNode) popped = popped := by
  have unchanged : ∀ children : List (V × W), (∀ child ∈ children, child ∈ getChildren currentNode) →
      children.foldl (visitChild library currentNode) popped = popped := by
    intro children
    induction children with
    | nil => intro _; rfl
    | cons child others ih =>
        intro edges
        have relaxed := searching.invariant.relaxed currentNode child isClosed
          (edges child List.mem_cons_self) not_false
        rw [← same] at relaxed
        have notImproves : ¬ (¬ (popped.nodes child.1).closed ∧
            popped.distance currentNode + child.2 < popped.distance child.1) :=
          fun improves => absurd relaxed (not_le.mpr improves.2)
        simp only [List.foldl_cons, visitChild_of_not_improves library notImproves]
        exact ih fun other other_mem => edges other (List.mem_cons_of_mem _ other_mem)
  exact unchanged (getChildren currentNode) fun _ child_mem => child_mem

variable [IsOrderedAddMonoid W]

theorem foldl_of_settled (nonneg : ∀ u edge, edge ∈ getChildren u → 0 ≤ edge.2)
    (children : List (V × W)) (edges : ∀ child ∈ children, child ∈ getChildren currentNode)
    {popped : Dijkstra V W}
    (invariant : popped.labels.Invariant getChildren start
      fun u edge => u = currentNode ∧ edge ∈ children)
    (books : popped.Books) (isClosed : (popped.nodes currentNode).closed)
    (largest : ∀ x, (popped.nodes x).closed → popped.distance x ≤ popped.distance currentNode)
    (goal_open : ¬ (popped.nodes goal).closed) :
    Searching getChildren start goal (children.foldl (visitChild library currentNode) popped) ∧
      ∀ node, ((children.foldl (visitChild library currentNode) popped).nodes node).closed =
        (popped.nodes node).closed := by
  induction children generalizing popped with
  | nil =>
      refine ⟨⟨invariant.discard ?_, books, goal_open⟩, fun _ => rfl⟩
      intro u edge _ _ waits _
      exact absurd waits.2 List.not_mem_nil
  | cons child others ih =>
      have edge := edges child List.mem_cons_self
      have later : ∀ other ∈ others, other ∈ getChildren currentNode :=
        fun other other_mem => edges other (List.mem_cons_of_mem _ other_mem)
      have closedKept := closed_visitChild library popped currentNode child
      by_cases improves : ¬ (popped.nodes child.1).closed ∧
          popped.distance currentNode + child.2 < popped.distance child.1
      · have distanceKept : ∀ x, (popped.nodes x).closed →
            (visitChild library currentNode popped child).labels.distance x =
              popped.distance x := by
          intro x closed_x
          simp only [labels_visitChild library improves]
          refine Function.update_of_ne ?_ ..
          rintro rfl
          exact improves.1 closed_x
        have lowered := invariant.lower (nonneg _ _ edge) isClosed largest edge improves.1 improves.2
        have childDone : (visitChild library currentNode popped child).labels.Invariant getChildren
            start fun u other => u = currentNode ∧ other ∈ others := by
          simp only [labels_visitChild library improves]
          apply lowered.discard
          rintro u other - - ⟨rfl, waits⟩ notStill
          have same : other = child := by
            simp only [List.mem_cons] at waits
            exact waits.resolve_right fun mem => notStill ⟨rfl, mem⟩
          subst same
          have different : u ≠ other.1 := by
            rintro same
            exact improves.1 (same ▸ isClosed)
          simp only [Labels.lower, Function.update_self, Function.update_of_ne different]
          exact le_rfl
        rcases ih later childDone (books.visitChild library child currentNode)
          (by rw [closedKept]; exact isClosed) (by
            intro x closed_x
            simp only [closedKept] at closed_x
            exact (distanceKept x closed_x).trans_le
              ((largest x closed_x).trans_eq (distanceKept currentNode isClosed).symm))
          (by rw [closedKept]; exact goal_open) with ⟨searching, closedRest⟩
        exact ⟨searching, fun node => (closedRest node).trans (closedKept node)⟩
      · have childDone : popped.labels.Invariant getChildren start
            fun u other => u = currentNode ∧ other ∈ others := by
          apply invariant.discard
          rintro u other closed_u - ⟨rfl, waits⟩ notStill
          have same : other = child := by
            simp only [List.mem_cons] at waits
            exact waits.resolve_right fun mem => notStill ⟨rfl, mem⟩
          subst same
          simp only [not_and] at improves
          by_cases closed_child : (popped.nodes other.1).closed
          · have cost_nonneg : (0 : WithTop W) ≤ other.2 := by
              exact_mod_cast nonneg _ _ edge
            exact (largest _ closed_child).trans (le_add_of_nonneg_right cost_nonneg)
          · exact not_lt.mp (improves closed_child)
        simp only [List.foldl_cons, visitChild_of_not_improves library improves]
        exact ih later childDone books isClosed largest goal_open

theorem round (searching : Searching getChildren start goal search)
    (nonneg : ∀ u edge, edge ∈ getChildren u → 0 ≤ edge.2)
    (sorted : library.sort search.distance search.openNodes = currentNode :: rest)
    (notGoal : currentNode ≠ goal) :
    let popped := ({ search with openNodes := currentNode :: rest } : Dijkstra V W).popOpen library
      currentNode
    let next := (getChildren currentNode).foldl (visitChild library currentNode) popped
    Searching getChildren start goal next ∧
      (∀ node, (search.nodes node).closed → (next.nodes node).closed) ∧
      (if (search.nodes currentNode).closed then
        next.openNodes.length < search.openNodes.length
      else
        (next.nodes currentNode).closed) := by
  intro popped next
  have perm := library.sort_perm search.distance search.openNodes
  simp only [sorted] at perm
  have members : ∀ other, other ∈ search.openNodes ↔ other ∈ currentNode :: rest :=
    fun other => perm.mem_iff.symm
  have books := searching.books.popOpen library members
  have labels_eq : popped.labels = search.labels.settle currentNode := labels_popOpen library _ _
  have closed_eq : ∀ node, (popped.nodes node).closed =
      Function.update (fun node => (search.nodes node).closed) currentNode true node :=
    fun node => congrFun (congrArg Labels.closed labels_eq) node
  have distance_eq : ∀ node, popped.distance node = search.distance node :=
    fun node => congrFun (congrArg Labels.distance labels_eq) node
  have isClosed : (popped.nodes currentNode).closed := by rw [closed_eq]; simp
  have goal_open : ¬ (popped.nodes goal).closed := by
    simp only [closed_eq, Function.update_of_ne notGoal.symm]
    exact searching.goal_open
  have grows : ∀ node, (search.nodes node).closed → (popped.nodes node).closed := by
    intro node closed_node
    simp only [closed_eq]
    by_cases same : node = currentNode
    · simp [same]
    · simpa [same] using closed_node
  by_cases again : (search.nodes currentNode).closed
  · have labels_same : popped.labels = search.labels := by
      simp only [labels_eq]
      have closed_same : Function.update search.labels.closed currentNode true =
          search.labels.closed := by
        simp only [Function.update_eq_self_iff]
        exact again.symm
      simp only [Labels.settle, closed_same]
    have unchanged : next = popped := searching.foldl_of_closed library again labels_same
    simp only [unchanged, if_pos again]
    refine ⟨⟨labels_same ▸ searching.invariant, books, goal_open⟩, grows, ?_⟩
    have length_popped := (openNodes_popOpen library search currentNode rest).length_eq
    have length_open := perm.length_eq
    simp only [List.length_cons] at length_open
    change popped.openNodes.length = rest.length at length_popped
    omega
  · have smallest : ∀ u, ¬ search.labels.closed u →
        search.labels.distance currentNode ≤ search.labels.distance u := by
      intro u open_u
      by_cases finite : search.distance u = ⊤
      · exact le_top.trans_eq finite.symm
      · have inVector := (members u).mp (searching.books.opened u open_u finite)
        simp only [List.mem_cons] at inVector
        rcases inVector with rfl | inRest
        · exact le_rfl
        · have order := library.sort_sorted search.distance search.openNodes
          simp only [sorted, List.pairwise_cons] at order
          exact order.1 u inRest
    have finite := searching.books.open_finite currentNode
      ((members currentNode).mpr List.mem_cons_self)
    have settled := searching.invariant.settle again finite smallest
    rw [← labels_eq] at settled
    have waiting : popped.labels.Invariant getChildren start
        fun u edge => u = currentNode ∧ edge ∈ getChildren currentNode := by
      apply settled.discard
      rintro u edge - edge_mem rfl notStill
      exact absurd ⟨rfl, edge_mem⟩ notStill
    have largest : ∀ x, (popped.nodes x).closed →
        popped.distance x ≤ popped.distance currentNode := by
      intro x closed_x
      rw [distance_eq, distance_eq]
      by_cases same : x = currentNode
      · rw [same]
      · simp only [closed_eq, Function.update_of_ne same] at closed_x
        exact searching.invariant.ordered x currentNode closed_x again
    rcases foldl_of_settled library nonneg (getChildren currentNode) (fun _ mem => mem)
      waiting books isClosed largest goal_open with ⟨nextSearching, closedKept⟩
    refine ⟨nextSearching, ?_, ?_⟩
    · intro node closed_node
      rw [closedKept]
      exact grows node closed_node
    · rw [if_neg again, closedKept]
      exact isClosed

end Searching

variable [IsOrderedAddMonoid W]

omit [DecidableEq V] in
/-- When the vector is empty the goal cannot be reached. -/
theorem Searching.unreachable {search : Dijkstra V W}
    (searching : Searching getChildren start goal search)
    (nonneg : ∀ u edge, edge ∈ getChildren u → 0 ≤ edge.2) (empty : search.openNodes = [])
    (w : W) (path : List V) : ¬ Walk getChildren start goal w path := by
  intro walk
  rcases searching.invariant.frontier nonneg walk with ⟨isClosed, -⟩ | ⟨x, isOpen, within⟩
  · exact searching.goal_open isClosed
  · have finite : search.distance x ≠ ⊤ := (within.trans_lt (WithTop.coe_lt_top w)).ne
    have inVector := searching.books.opened x isOpen finite
    simp only [empty] at inVector
    exact absurd inVector List.not_mem_nil

/-- When the goal is at the front its parents lead back along a cheapest walk. -/
theorem Searching.goal_at_front {search : Dijkstra V W} {rest : List V}
    (searching : Searching getChildren start goal search)
    (nonneg : ∀ u edge, edge ∈ getChildren u → 0 ≤ edge.2)
    (sorted : library.sort search.distance search.openNodes = goal :: rest) :
    let popped := ({ search with openNodes := goal :: rest } : Dijkstra V W).popOpen library goal
    popped.Books ∧ ∃ path w, popped.labels.Chain goal path ∧ Walk getChildren start goal w path ∧
      ∀ cost other, Walk getChildren start goal cost other → w ≤ cost := by
  intro popped
  have perm := library.sort_perm search.distance search.openNodes
  simp only [sorted] at perm
  have members : ∀ other, other ∈ search.openNodes ↔ other ∈ goal :: rest :=
    fun other => perm.mem_iff.symm
  have books := searching.books.popOpen library members
  have labels_eq : popped.labels = search.labels.settle goal := labels_popOpen library _ _
  have finite := searching.books.open_finite goal ((members goal).mpr List.mem_cons_self)
  obtain ⟨w, w_eq⟩ := WithTop.ne_top_iff_exists.mp finite
  rcases searching.invariant.traced goal w w_eq.symm with ⟨inner, -, chain, walk⟩
  have parents : ∀ u, popped.labels.parent u = search.labels.parent u :=
    fun u => congrFun (congrArg Labels.parent labels_eq) u
  refine ⟨books, inner ++ [goal], w, chain.of_agree fun u _ => parents u, walk, ?_⟩
  intro cost other otherWalk
  have within : search.distance goal ≤ cost := by
    rcases searching.invariant.frontier nonneg otherWalk with ⟨isClosed, -⟩ | ⟨x, isOpen, below⟩
    · exact absurd isClosed searching.goal_open
    · have x_finite : search.distance x ≠ ⊤ := (below.trans_lt (WithTop.coe_lt_top cost)).ne
      have inVector := (members x).mp (searching.books.opened x isOpen x_finite)
      simp only [List.mem_cons] at inVector
      rcases inVector with rfl | inRest
      · exact below
      · have order := library.sort_sorted search.distance search.openNodes
        simp only [sorted, List.pairwise_cons] at order
        exact (order.1 x inRest).trans below
  rw [← w_eq] at within
  exact WithTop.coe_le_coe.mp within

def unclosed [Fintype V] (search : Dijkstra V W) : Finset V :=
  Finset.univ.filter fun node => ¬ (search.nodes node).closed

/-- Enough fuel brings a search to its answer, and more fuel changes nothing. -/
theorem Searching.searchLoop [Fintype V] {search : Dijkstra V W}
    (searching : Searching getChildren start goal search)
    (nonneg : ∀ u edge, edge ∈ getChildren u → 0 ≤ edge.2) :
    ∃ solution final enough,
      (∀ fuel, enough ≤ fuel → Dijkstra.searchLoop library getChildren goal fuel search =
        some (solution, final)) ∧
      Answers getChildren start goal (solution.map List.reverse) final := by
  induction unclosed_eq : search.unclosed.card using Nat.strong_induction_on
    generalizing search with
  | _ unclosed fewerUnclosed =>
      induction length_eq : search.openNodes.length using Nat.strong_induction_on
        generalizing search with
      | _ length shorter =>
          cases sorted : library.sort search.distance search.openNodes with
          | nil =>
              have perm := library.sort_perm search.distance search.openNodes
              simp only [sorted] at perm
              have empty : search.openNodes = [] := perm.symm.eq_nil
              refine ⟨none, search, 1, ?_, ?_, ?_, searching.books⟩
              · rintro (_ | fuel) enough
                · exact absurd enough (by omega)
                · simp only [Dijkstra.searchLoop, sorted]
              · have unreachable := searching.unreachable nonneg empty
                simpa using unreachable
              · intro path impossible
                simp at impossible
          | cons currentNode rest =>
              by_cases isGoal : currentNode = goal
              · subst isGoal
                rcases searching.goal_at_front library nonneg sorted with
                  ⟨books, path, w, chain, walk, minimal⟩
                refine ⟨some path.reverse, _, path.length + 1, ?_, ?_, ?_, books⟩
                · rintro (_ | fuel) enough
                  · exact absurd enough (by omega)
                  · have rebuilt := reconstructPath_of_chain _ chain
                      (show path.length ≤ fuel by omega)
                    simp only [Dijkstra.searchLoop, sorted, if_true, rebuilt, Option.map_some]
                · exact ⟨fun _ => ⟨w, path, walk⟩, fun _ => rfl⟩
                · intro found found_eq
                  obtain rfl : path = found := by simpa using found_eq
                  exact ⟨w, walk, minimal⟩
              · rcases searching.round library nonneg sorted isGoal with
                  ⟨nextSearching, closedKept, progress⟩
                set next := (getChildren currentNode).foldl (visitChild library currentNode)
                  (({ search with openNodes := currentNode :: rest } : Dijkstra V W).popOpen
                    library currentNode) with next_eq
                have subset : next.unclosed ⊆ search.unclosed := by
                  intro node node_mem
                  simp only [Dijkstra.unclosed, Finset.mem_filter, Finset.mem_univ,
                    true_and] at node_mem ⊢
                  exact fun isClosed => node_mem (closedKept node isClosed)
                have answered : ∃ solution final enough,
                    (∀ fuel, enough ≤ fuel →
                      Dijkstra.searchLoop library getChildren goal fuel next =
                        some (solution, final)) ∧
                    Answers getChildren start goal (solution.map List.reverse) final := by
                  by_cases again : (search.nodes currentNode).closed
                  · simp only [if_pos again] at progress
                    rcases (Finset.card_le_card subset).lt_or_eq with fewer | same
                    · exact fewerUnclosed _ (unclosed_eq ▸ fewer) nextSearching rfl
                    · exact shorter _ (length_eq ▸ progress) nextSearching
                        (same.trans unclosed_eq) rfl
                  · simp only [if_neg again] at progress
                    have strict : next.unclosed ⊂ search.unclosed := by
                      refine (Finset.ssubset_iff_of_subset subset).mpr ⟨currentNode, ?_, ?_⟩
                      · simpa [Dijkstra.unclosed] using again
                      · simpa [Dijkstra.unclosed] using progress
                    exact fewerUnclosed _ (unclosed_eq ▸ Finset.card_lt_card strict)
                      nextSearching rfl
                rcases answered with ⟨solution, final, enough, runs, answers⟩
                refine ⟨solution, final, enough + 1, ?_, answers⟩
                rintro (_ | fuel) suffices_eq
                · exact absurd suffices_eq (by omega)
                · have ran := runs fuel (by omega)
                  simp only [Dijkstra.searchLoop, sorted, if_neg isGoal]
                  exact ran

/-- The search before its first round, on fresh nodes. -/
def begun (start : V) : Dijkstra V W :=
  (({ fresh with openNodes := library.makeHeap fresh.distance [] } : Dijkstra V W).pushOpen library
    start).modify start fun data => { data with distance := 0 }

omit [IsOrderedAddMonoid W] in
theorem searching_begun (getChildren : V → List (V × W)) (start goal : V) :
    Searching getChildren start goal (begun library start) := by
  have empty : library.makeHeap (fresh : Dijkstra V W).distance [] = [] :=
    (library.makeHeap_perm _ []).eq_nil
  have labels_eq : (begun library start).labels = Labels.init start := by
    simp only [begun, labels, Labels.init, pushOpen, modify, Labels.mk.injEq]
    refine ⟨?_, ?_, ?_⟩ <;> funext node <;> by_cases same : node = start <;>
      simp [same, fresh, DijkstraNode.fresh]
  have members : ∀ node, node ∈ (begun library start).openNodes ↔ node = start := by
    intro node
    change node ∈ (pushOpen library _ start).openNodes ↔ _
    simp only [mem_openNodes_pushOpen, empty]
    simp
  have distance_eq : ∀ node, (begun library start).distance node =
      Function.update (fun _ => (⊤ : WithTop W)) start 0 node :=
    fun node => congrFun (congrArg Labels.distance labels_eq) node
  have closed_eq : ∀ node, ((begun library start).nodes node).closed = false :=
    fun node => congrFun (congrArg Labels.closed labels_eq) node
  refine ⟨labels_eq ▸ Labels.Invariant.init, ⟨?_, ?_, ?_, ?_⟩, ?_⟩
  · intro node _ finite
    simp only [members]
    by_contra different
    simp only [distance_eq, Function.update_of_ne different] at finite
    exact finite rfl
  · intro node isOpen
    simp only [members] at isOpen
    simp only [distance_eq, isOpen, Function.update_self]
    exact WithTop.zero_ne_top
  · intro node
    simp only [closed_eq]
    simp [begun, modify, pushOpen, fresh]
  · intro node infinite
    have different : node ≠ start := by
      rintro rfl
      simp only [distance_eq, Function.update_self] at infinite
      exact WithTop.zero_ne_top infinite
    simp [begun, modify, pushOpen, fresh, different]
  · simp only [closed_eq]
    exact Bool.false_ne_true

/-- On any finite graph with non-negative costs the search terminates. It finds a path exactly when
the goal can be reached, the path found is a walk from start to goal of minimal cost, and after
`clear` every further search behaves as on fresh nodes. -/
theorem findPath_optimal [Fintype V] (nonneg : ∀ u edge, edge ∈ getChildren u → 0 ≤ edge.2)
    (start goal : V) :
    ∃ solution search enough,
      (∀ fuel, enough ≤ fuel →
        findPath library getChildren fuel fresh start goal = some (solution, search)) ∧
      (solution.isSome ↔ ∃ w path, Walk getChildren start goal w path) ∧
      (∀ path, solution = some path → ∃ w, Walk getChildren start goal w path ∧
        ∀ cost other, Walk getChildren start goal cost other → w ≤ cost) ∧
      ∀ fuel nextStart nextGoal,
        findPath library getChildren fuel search.clear nextStart nextGoal =
          findPath library getChildren fuel fresh nextStart nextGoal := by
  rcases (searching_begun library getChildren start goal).searchLoop library nonneg with
    ⟨solution, search, enough, runs, answers⟩
  refine ⟨solution.map List.reverse, search, enough, ?_, answers.found_iff, answers.minimal, ?_⟩
  · intro fuel suffices_eq
    have ran := runs fuel suffices_eq
    change (Dijkstra.searchLoop library getChildren goal fuel (begun library start)).map _ = _
    simp only [ran]
    rfl
  · intro fuel nextStart nextGoal
    simp only [answers.books.clear]

/-- Library functions that keep a plain list: sorting by insertion, and a heap that only moves its
front element. -/
def listAlgorithms (V : Type u) (W : Type v) [LinearOrder W] : StdAlgorithms V W where
  sort distance nodes := nodes.insertionSort fun first second => distance first ≤ distance second
  pushHeap _ nodes := nodes
  popHeap _ nodes :=
    match nodes with
    | [] => []
    | front :: rest => rest ++ [front]
  makeHeap _ nodes := nodes
  sort_perm distance nodes := List.perm_insertionSort _ nodes
  sort_sorted distance nodes := by
    have total : Std.Total fun first second : V => distance first ≤ distance second :=
      ⟨fun first second => le_total (distance first) (distance second)⟩
    have transitive : IsTrans V fun first second => distance first ≤ distance second :=
      ⟨fun _ _ _ => le_trans⟩
    exact List.pairwise_insertionSort _ nodes
  pushHeap_perm _ nodes := List.Perm.refl nodes
  makeHeap_perm _ nodes := List.Perm.refl nodes
  popHeap_front _ front rest := ⟨rest, List.Perm.refl rest, rfl⟩

/-- A direct road of cost 3 and a detour of cost 2. -/
def detour : Fin 3 → List (Fin 3 × ℕ) := ![[(2, 3), (1, 1)], [(2, 1)], []]

/-- The search takes the detour. -/
theorem findPath_optimal_detour : ∃ path search enough,
    (∀ fuel, enough ≤ fuel → findPath (listAlgorithms (Fin 3) ℕ) detour fuel fresh 0 2 =
      some (some path, search)) ∧
    ∃ w, Walk detour 0 2 w path ∧ w ≤ 2 := by
  have nonneg : ∀ u edge, edge ∈ detour u → 0 ≤ edge.2 := fun _ _ _ => Nat.zero_le _
  rcases findPath_optimal (listAlgorithms (Fin 3) ℕ) nonneg 0 2 with
    ⟨solution, search, enough, runs, found_iff, minimal, -⟩
  have first : Walk detour 0 1 (0 + 1) ([0] ++ [1]) := .snoc .nil (by decide)
  have around : Walk detour 0 2 (0 + 1 + 1) ([0] ++ [1] ++ [2]) := .snoc first (by decide)
  rcases Option.isSome_iff_exists.mp (found_iff.mpr ⟨_, _, around⟩) with ⟨path, rfl⟩
  rcases minimal path rfl with ⟨w, walk, least⟩
  exact ⟨path, search, enough, runs, w, walk, least _ _ around⟩

end Dijkstra

end PoETask.Attach
