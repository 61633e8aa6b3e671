import Mathlib.Logic.Relation
import Mathlib.Tactic.Tauto

/-!
# Searching a graph from a node

A search discovers nodes and keeps some of them pending. Expanding a pending node discovers
all its neighbours. When nothing is pending any more, exactly the reachable nodes have been
discovered, whatever the order of the expansions was.
-/

namespace PoETask.GraphSearch

variable {Node : Type*} {adjacent : Node → Node → Prop} {start : Node}

/-- What a search from `start` knows between two expansions. -/
structure Explored (adjacent : Node → Node → Prop) (start : Node)
    (discovered pending : Node → Prop) : Prop where
  start_discovered : discovered start
  reachable : ∀ {node}, discovered node → Relation.ReflTransGen adjacent start node
  pending_discovered : ∀ {node}, pending node → discovered node
  expanded : ∀ {node next}, discovered node → ¬ pending node → adjacent node next →
    discovered next

namespace Explored

variable {discovered pending : Node → Prop}

theorem init : Explored adjacent start (· = start) (· = start) where
  start_discovered := rfl
  reachable isStart := isStart ▸ .refl
  pending_discovered := id
  expanded isStart notPending := absurd isStart notPending

theorem reachable_of_adjacent (explored : Explored adjacent start discovered pending)
    {node next : Node} (isDiscovered : discovered node) (isAdjacent : adjacent node next) :
    Relation.ReflTransGen adjacent start next :=
  (explored.reachable isDiscovered).tail isAdjacent

/-- One expansion: the neighbours of `node` are discovered, and `node` is the only one that may
stop being pending. -/
theorem expand (explored : Explored adjacent start discovered pending) {node : Node}
    {discovered' pending' : Node → Prop} (isDiscovered : discovered node)
    (keeps : ∀ {other}, discovered other → discovered' other)
    (covers : ∀ {next}, adjacent node next → discovered' next)
    (adds : ∀ {other}, discovered' other → discovered other ∨ adjacent node other)
    (stays : ∀ {other}, pending other → other ≠ node → pending' other)
    (fresh : ∀ {other}, discovered' other → ¬ discovered other → pending' other)
    (within : ∀ {other}, pending' other → discovered' other) :
    Explored adjacent start discovered' pending' where
  start_discovered := keeps explored.start_discovered
  reachable {other} isDiscovered' := by
    rcases adds isDiscovered' with old | isAdjacent
    · exact explored.reachable old
    · exact explored.reachable_of_adjacent isDiscovered isAdjacent
  pending_discovered := within
  expanded {other next} isDiscovered' notPending' isAdjacent := by
    by_cases old : discovered other
    · by_cases isNode : other = node
      · exact covers (isNode ▸ isAdjacent)
      · apply keeps
        apply explored.expanded old _ isAdjacent
        intro isPending
        exact notPending' (stays isPending isNode)
    · exact absurd (fresh isDiscovered' old) notPending'

/-- A search with nothing pending has discovered every reachable node. -/
theorem discovered_of_reachable (explored : Explored adjacent start discovered pending)
    (exhausted : ∀ {node}, ¬ pending node) {node : Node}
    (isReachable : Relation.ReflTransGen adjacent start node) : discovered node := by
  induction isReachable with
  | refl => exact explored.start_discovered
  | tail _ isAdjacent discoveredBefore =>
      exact explored.expanded discoveredBefore exhausted isAdjacent

end Explored

/-- A search with a queue, which marks a node as visited when it leaves the queue; a node may stand
in the queue several times. -/
def Queued (adjacent : Node → Node → Prop) (start : Node) (queue visited : List Node) : Prop :=
  Explored adjacent start (· ∈ queue ++ visited) fun node => node ∈ queue ∧ node ∉ visited

namespace Queued

variable {node : Node} {queue visited found : List Node}

theorem init : Queued adjacent start [start] [] where
  start_discovered := List.mem_append_left _ (List.mem_singleton_self start)
  reachable isStart := by
    simp only [List.append_nil, List.mem_singleton] at isStart
    exact isStart ▸ .refl
  pending_discovered isPending := List.mem_append_left _ isPending.1
  expanded isStart notPending := by
    simp only [List.append_nil] at isStart
    exact absurd ⟨isStart, List.not_mem_nil⟩ notPending

/-- A node that was visited before leaves the queue. -/
theorem skip (queued : Queued adjacent start (node :: queue) visited) (isVisited : node ∈ visited) :
    Queued adjacent start queue visited := by
  have discovered : ∀ {other}, other ∈ queue ++ visited ↔ other ∈ node :: queue ++ visited := by
    intro other
    simp only [List.cons_append, List.mem_cons, List.mem_append]
    constructor
    · exact .inr
    · rintro (rfl | old)
      · exact .inr isVisited
      · exact old
  constructor
  case start_discovered => exact discovered.mpr queued.start_discovered
  case reachable => exact fun isDiscovered => queued.reachable (discovered.mp isDiscovered)
  case pending_discovered => exact fun isPending => List.mem_append_left _ isPending.1
  case expanded =>
    intro other next isDiscovered notPending isAdjacent
    apply discovered.mpr
    apply queued.expanded (discovered.mp isDiscovered) _ isAdjacent
    rintro ⟨inQueue, notVisited⟩
    rcases List.mem_cons.mp inQueue with rfl | later
    · exact notVisited isVisited
    · exact notPending ⟨later, notVisited⟩

/-- A new node is visited, and its neighbours enter the queue. -/
theorem visit (queued : Queued adjacent start (node :: queue) visited)
    (neighbours : ∀ {next}, adjacent node next ↔ next ∈ found) :
    Queued adjacent start (queue ++ found) (visited ++ [node]) := by
  have isDiscovered : node ∈ node :: queue ++ visited := List.mem_cons_self
  apply Explored.expand queued isDiscovered
  · intro other old
    simp only [List.cons_append, List.mem_cons, List.mem_append, List.not_mem_nil,
      or_false] at old ⊢
    tauto
  · intro next isAdjacent
    exact List.mem_append_left _ (List.mem_append_right _ (neighbours.mp isAdjacent))
  · intro other isDiscovered'
    rw [neighbours]
    simp only [List.cons_append, List.mem_cons, List.mem_append, List.not_mem_nil,
      or_false] at isDiscovered' ⊢
    tauto
  · rintro other ⟨inQueue, notVisited⟩ notNode
    simp only [List.mem_cons, List.mem_append, List.not_mem_nil, or_false] at inQueue ⊢
    tauto
  · intro other isDiscovered' new
    simp only [List.cons_append, List.mem_cons, List.mem_append, List.not_mem_nil,
      or_false] at isDiscovered' new ⊢
    tauto
  · exact fun isPending => List.mem_append_left _ isPending.1

/-- With an empty queue exactly the reachable nodes were visited. -/
theorem mem_visited_iff (queued : Queued adjacent start [] visited) :
    node ∈ visited ↔ Relation.ReflTransGen adjacent start node := by
  constructor
  · exact fun isVisited => queued.reachable isVisited
  · exact queued.discovered_of_reachable fun isPending => List.not_mem_nil isPending.1

end Queued

end PoETask.GraphSearch
