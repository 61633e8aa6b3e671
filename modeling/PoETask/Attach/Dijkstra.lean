import PoETask.Library.ShortestPath
import Mathlib.Data.Fintype.Card
import Mathlib.Data.List.Basic

/-!
# Dijkstra search

The search behind `FindAreaPath`. The open list is a vector that may hold a node
several times, and a node's distance may be lowered while it sits there. The search
sorts the whole vector in every round, takes the front element through `pop_heap`,
and marks it closed; a node taken again later finds nothing left to do.

The heap and sort functions of the standard library are a parameter with the laws the
search relies on. Loops without a bound of their own take fuel, and the theorems say
that some amount of fuel is enough and more of it changes nothing.
-/

namespace PoETask.Attach

open PoETask.Library

universe u v

/-- What the search uses of the standard library, for a vector compared by distance. -/
structure StdAlgorithms (V : Type u) (W : Type v) [LinearOrder W] where
  sort : (V → WithTop W) → List V → List V
  pushHeap : (V → WithTop W) → List V → List V
  popHeap : (V → WithTop W) → List V → List V
  makeHeap : (V → WithTop W) → List V → List V
  sort_perm : ∀ distance nodes, (sort distance nodes).Perm nodes
  sort_sorted : ∀ distance nodes,
    (sort distance nodes).Pairwise fun first second => distance first ≤ distance second
  pushHeap_perm : ∀ distance nodes, (pushHeap distance nodes).Perm nodes
  makeHeap_perm : ∀ distance nodes, (makeHeap distance nodes).Perm nodes
  popHeap_front : ∀ distance front rest, ∃ others, others.Perm rest ∧
    popHeap distance (front :: rest) = others ++ [front]

structure DijkstraNode (V : Type u) (W : Type v) where
  closed : Bool
  distance : WithTop W
  parent : Option V

namespace DijkstraNode

/-- The constructor, and the effect of `release`. -/
def fresh {V : Type u} {W : Type v} : DijkstraNode V W :=
  { closed := false, distance := ⊤, parent := none }

end DijkstraNode

/-- The nodes and the two vectors of the search object. -/
structure Dijkstra (V : Type u) (W : Type v) where
  nodes : V → DijkstraNode V W
  openNodes : List V
  closedNodes : List V

namespace Dijkstra

variable {V : Type u} {W : Type v}

/-- Nodes that no search has touched. -/
def fresh : Dijkstra V W :=
  { nodes := fun _ => DijkstraNode.fresh, openNodes := [], closedNodes := [] }

def distance (search : Dijkstra V W) (node : V) : WithTop W := (search.nodes node).distance

def labels (search : Dijkstra V W) : Labels V W where
  distance node := (search.nodes node).distance
  parent node := (search.nodes node).parent
  closed node := (search.nodes node).closed

variable [DecidableEq V]

def modify (search : Dijkstra V W) (node : V) (change : DijkstraNode V W → DijkstraNode V W) :
    Dijkstra V W :=
  { search with nodes := Function.update search.nodes node (change (search.nodes node)) }

def release (search : Dijkstra V W) (node : V) : Dijkstra V W :=
  search.modify node fun _ => DijkstraNode.fresh

def releaseNodes (search : Dijkstra V W) : Dijkstra V W :=
  search.closedNodes.foldl release (search.openNodes.foldl release search)

def clear (search : Dijkstra V W) : Dijkstra V W :=
  { search.releaseNodes with openNodes := [], closedNodes := [] }

/-- `reconstructPath`: the node and its parents, from the goal back. -/
def reconstructPath (search : Dijkstra V W) : ℕ → V → Option (List V)
  | 0, _ => none
  | fuel + 1, node =>
      match (search.nodes node).parent with
      | none => some [node]
      | some parent => (reconstructPath search fuel parent).map (node :: ·)

variable [LinearOrder W] (library : StdAlgorithms V W)

def pushOpen (search : Dijkstra V W) (node : V) : Dijkstra V W :=
  { search with openNodes := library.pushHeap search.distance (search.openNodes ++ [node]) }

def popOpen (search : Dijkstra V W) (node : V) : Dijkstra V W :=
  { (search.modify node fun data => { data with closed := true }) with
    openNodes := (library.popHeap search.distance search.openNodes).dropLast
    closedNodes := search.closedNodes ++ [node] }

variable [AddCommMonoid W] (getChildren : V → List (V × W))

/-- The body of the loop over the children of a node. -/
def visitChild (currentNode : V) (search : Dijkstra V W) (child : V × W) : Dijkstra V W :=
  let dist := search.distance currentNode + child.2
  if ¬ (search.nodes child.1).closed ∧ dist < search.distance child.1 then
    (search.modify child.1 fun data =>
      { data with distance := dist, parent := some currentNode }).pushOpen library child.1
  else
    search

/-- The main loop of `getPath`. -/
def searchLoop (goal : V) : ℕ → Dijkstra V W → Option (Option (List V) × Dijkstra V W)
  | 0, _ => none
  | fuel + 1, search =>
      match library.sort search.distance search.openNodes with
      | [] => some (none, search)
      | currentNode :: rest =>
          let popped := ({ search with openNodes := currentNode :: rest }).popOpen library
            currentNode
          if currentNode = goal then
            (popped.reconstructPath fuel currentNode).map fun path => (some path, popped)
          else
            searchLoop goal fuel
              ((getChildren currentNode).foldl (visitChild library currentNode) popped)

/-- The path is none when the search returns false; the other result is the search object. -/
def getPath (fuel : ℕ) (search : Dijkstra V W) (start goal : V) :
    Option (Option (List V) × Dijkstra V W) :=
  let heap := { search with openNodes := library.makeHeap search.distance search.openNodes }
  searchLoop library getChildren goal fuel
    ((heap.pushOpen library start).modify start fun data => { data with distance := 0 })

/-- `PathFinder::findPath`, which turns the path round. -/
def findPath (fuel : ℕ) (search : Dijkstra V W) (start goal : V) :
    Option (Option (List V) × Dijkstra V W) :=
  (getPath library getChildren fuel search start goal).map fun result =>
    (result.1.map List.reverse, result.2)

end Dijkstra

end PoETask.Attach
