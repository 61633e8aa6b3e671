import Mathlib.Data.Fintype.Pigeonhole
import Mathlib.Logic.Function.Iterate

/-!
# Chains of links

A loop that follows a link from node to node until one stops it. Such a loop visits no node
twice; over finitely many nodes it either ends within as many turns as there are nodes, or it
comes to a node that it has visited before.
-/

namespace PoETask.Library

universe u v

/-- The nodes that are visited from a node on, until one stops the loop. -/
inductive Chain {Node : Type u} (next : Node → Node) (Stops : Node → Prop) :
    Node → List Node → Prop where
  | stop {node : Node} (stops : Stops node) : Chain next Stops node []
  | step {node : Node} {nodes : List Node} (goesOn : ¬Stops node)
      (rest : Chain next Stops (next node) nodes) : Chain next Stops node (node :: nodes)

namespace Chain

variable {Node : Type u} {next : Node → Node} {Stops : Node → Prop} {node : Node}
  {nodes others : List Node}

theorem unique (chain : Chain next Stops node nodes) (other : Chain next Stops node others) :
    nodes = others := by
  induction chain generalizing others with
  | stop stops =>
      cases other with
      | stop => rfl
      | step goesOn => exact absurd stops goesOn
  | step goesOn _ ih =>
      cases other with
      | stop stops => exact absurd stops goesOn
      | step _ rest => rw [ih rest]

/-- The node that stops the loop, and the nodes before it. -/
theorem iterate (chain : Chain next Stops node nodes) :
    Stops (next^[nodes.length] node) ∧
      nodes = (List.range nodes.length).map fun i => next^[i] node := by
  induction chain with
  | stop stops => exact ⟨stops, rfl⟩
  | @step node nodes _ _ ih =>
      rcases ih with ⟨stops, nodes_eq⟩
      refine ⟨stops, ?_⟩
      rw [List.length_cons, List.range_succ_eq_map, List.map_cons, List.map_map]
      exact congrArg (node :: ·) nodes_eq

theorem of_iterate {count : ℕ} (stops : Stops (next^[count] node)) :
    ∃ nodes, Chain next Stops node nodes := by
  induction count generalizing node with
  | zero => exact ⟨[], .stop stops⟩
  | succ count ih =>
      by_cases isStop : Stops node
      · exact ⟨[], .stop isStop⟩
      · rcases ih stops with ⟨nodes, rest⟩
        exact ⟨node :: nodes, .step isStop rest⟩

theorem suffix (chain : Chain next Stops node nodes) {visited : Node} (mem : visited ∈ nodes) :
    ∃ rest, rest <:+ nodes ∧ Chain next Stops visited rest := by
  induction chain with
  | stop => cases mem
  | @step node nodes goesOn rest ih =>
      rcases List.mem_cons.mp mem with same | later
      · rw [same]
        exact ⟨_, List.suffix_refl _, .step goesOn rest⟩
      · rcases ih later with ⟨found, isSuffix, chain⟩
        exact ⟨found, isSuffix.trans (List.suffix_cons node nodes), chain⟩

/-- No node is visited twice. -/
theorem nodup (chain : Chain next Stops node nodes) : nodes.Nodup := by
  induction chain with
  | stop => exact .nil
  | @step node nodes goesOn rest ih =>
      refine List.nodup_cons.mpr ⟨fun again => ?_, ih⟩
      rcases rest.suffix again with ⟨found, isSuffix, chain⟩
      have same := chain.unique (.step goesOn rest)
      have shorter := isSuffix.length_le
      rw [same, List.length_cons] at shorter
      omega

theorem not_stops (chain : Chain next Stops node nodes) {visited : Node} (mem : visited ∈ nodes) :
    ¬Stops visited := by
  induction chain with
  | stop => cases mem
  | step goesOn _ ih =>
      rcases List.mem_cons.mp mem with same | later
      · rwa [same]
      · exact ih later

end Chain

section Ending

variable {Node : Type u} (next : Node → Node) (Stops : Node → Prop)

/-- The loop that starts at a node comes to its end. -/
def Ends (node : Node) : Prop := ∃ nodes, Chain next Stops node nodes

/-- The links lead back to a node before any node that stops the loop. -/
def ComesBack (node : Node) : Prop :=
  ∃ i j, i < j ∧ next^[i] node = next^[j] node ∧ ∀ k ≤ j, ¬Stops (next^[k] node)

variable {next Stops} {node : Node}

theorem not_ends_iff [Finite Node] : ¬Ends next Stops node ↔ ComesBack next Stops node := by
  constructor
  · intro endless
    have goesOn : ∀ k, ¬Stops (next^[k] node) := fun k stops => endless (Chain.of_iterate stops)
    rcases Finite.exists_ne_map_eq_of_infinite fun i => next^[i] node with ⟨i, j, different, same⟩
    rcases Nat.lt_or_gt_of_ne different with less | greater
    · exact ⟨i, j, less, same, fun k _ => goesOn k⟩
    · exact ⟨j, i, greater, same.symm, fun k _ => goesOn k⟩
  · rintro ⟨i, j, less, same, goesOn⟩ ⟨nodes, chain⟩
    rcases chain.iterate with ⟨stops, nodes_eq⟩
    have long : j < nodes.length := by
      by_contra short
      exact goesOn nodes.length (by omega) stops
    have different := chain.nodup
    rw [nodes_eq] at different
    have index_eq := List.inj_on_of_nodup_map different
      (List.mem_range.mpr (less.trans long)) (List.mem_range.mpr long) same
    exact less.ne index_eq

end Ending

section Walking

variable {Node : Type u} {State : Type v} (next : Node → Node) (Stops : Node → Prop)
  [DecidablePred Stops] (visit : Node → State → State)

/-- The loop with what it does at every node; none when it does not end within the turns. -/
def walk : ℕ → Node → State → Option State
  | 0, _, _ => none
  | turns + 1, node, state =>
      if Stops node then some state
      else walk turns (next node) (visit node state)

variable {next Stops visit} {node : Node} {nodes : List Node}

theorem walk_of_chain (chain : Chain next Stops node nodes) (state : State) {turns : ℕ}
    (enough : nodes.length < turns) :
    walk next Stops visit turns node state =
      some (nodes.foldl (fun state node => visit node state) state) := by
  induction chain generalizing state turns with
  | stop stops =>
      rcases Nat.exists_eq_add_of_le' (Nat.zero_lt_of_lt enough) with ⟨turns, rfl⟩
      rw [walk, if_pos stops]
      rfl
  | step goesOn _ ih =>
      rcases Nat.exists_eq_add_of_le' (Nat.zero_lt_of_lt enough) with ⟨turns, rfl⟩
      rw [walk, if_neg goesOn]
      exact ih _ (Nat.lt_of_succ_lt_succ enough)

theorem chain_of_walk {turns : ℕ} {state last : State}
    (walks : walk next Stops visit turns node state = some last) : Ends next Stops node := by
  induction turns generalizing node state with
  | zero => cases walks
  | succ turns ih =>
      rw [walk] at walks
      split at walks
      · rename_i stops
        exact ⟨[], .stop stops⟩
      · rename_i goesOn
        rcases ih walks with ⟨nodes, rest⟩
        exact ⟨node :: nodes, .step goesOn rest⟩

end Walking

end PoETask.Library
