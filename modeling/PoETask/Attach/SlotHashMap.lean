import PoETask.Attach.RemoteMemory
import PoETask.Library.SearchTree

/-!
# The slots of a server inventory

`ReadHashMap` walks the search tree of an inventory's slots in the memory of the game with a
stack, for 500 nodes at most, and collects them in a map.
-/

namespace PoETask.Attach

open SearchTree

/-- The stack starts with this many turns. -/
def stackCounter : ℕ := 500

namespace Memory

variable (memory : Memory)

def isNull (node : UInt64) : Bool := node ≠ 0 && memory.byte (node + 0x19) ≠ 0

def key (node : UInt64) : ℤ := (memory.dword (node + 0x20)).toInt32.toInt

/-- `value1` with its `itemKey`. -/
def value1 (node : UInt64) : InvenSlotItem :=
  { memory.slotItem (memory.pointer (node + 0x28)) with itemKey := memory.dword (node + 0x20) }

/-- A node on top of the stack unless it is null. -/
def push (node : UInt64) (stack : List UInt64) : List UInt64 :=
  if !memory.isNull node then node :: stack else stack

/-- The loop with its counter. -/
def slotLoop : ℕ → List UInt64 → List (ℤ × InvenSlotItem) → List (ℤ × InvenSlotItem)
  | 0, _, result => result
  | _ + 1, [], result => result
  | counter + 1, node :: stack, result =>
      let result :=
        if !memory.isNull node then assign (memory.key node) (memory.value1 node) result else result
      slotLoop counter (memory.push (memory.next node) (memory.push (memory.previous node) stack))
        result

def readHashMap (pointer : UInt64) : List InvenSlotItem :=
  if pointer = 0 then []
  else (memory.slotLoop stackCounter [memory.root (memory.pointer pointer)] []).map Prod.snd

/-- The node holds a tree. -/
def TreeAt : UInt64 → BinaryTree (ℤ × InvenSlotItem) → Prop
  | node, .nil => memory.isNull node = true
  | node, .node entry left right =>
      memory.isNull node = false ∧ entry = (memory.key node, memory.value1 node)
        ∧ TreeAt (memory.previous node) left ∧ TreeAt (memory.next node) right

/-- The map at an address: its head leads to the tree, and to itself when the tree is empty. -/
structure MapAt (pointer : UInt64) (tree : BinaryTree (ℤ × InvenSlotItem)) : Prop where
  root : memory.TreeAt (memory.root (memory.pointer pointer)) tree
  empty : tree = .nil → memory.isNull (memory.previous (memory.root (memory.pointer pointer))) = true
    ∧ memory.isNull (memory.next (memory.root (memory.pointer pointer))) = true

end Memory

/-- The nodes on a stack hold trees, none of them empty. -/
def Stacked (memory : Memory) :
    List UInt64 → List (BinaryTree (ℤ × InvenSlotItem)) → Prop :=
  List.Forall₂ fun node tree => memory.TreeAt node tree ∧ memory.isNull node = false

namespace Memory

variable {memory : Memory} {node pointer : UInt64} {stack : List UInt64}
  {tree : BinaryTree (ℤ × InvenSlotItem)} {trees : List (BinaryTree (ℤ × InvenSlotItem))}

theorem push_stacked (treeAt : memory.TreeAt node tree) (stacked : Stacked memory stack trees) :
    ∃ trees', Stacked memory (memory.push node stack) trees'
      ∧ trees'.flatMap rightFirst = rightFirst tree ++ trees.flatMap rightFirst := by
  cases tree with
  | nil =>
      simp only [TreeAt] at treeAt
      simp only [push, treeAt, Bool.not_true, Bool.false_eq_true, if_false]
      exact ⟨trees, stacked, rfl⟩
  | node entry left right =>
      have notNull := treeAt.1
      simp only [push, notNull, Bool.not_false, if_true]
      exact ⟨_ :: trees, .cons ⟨treeAt, notNull⟩ stacked, rfl⟩

/-- The loop collects the nodes in the order of the stack, as many as the counter allows. -/
theorem slotLoop_stacked {counter : ℕ} (stacked : Stacked memory stack trees)
    (result : List (ℤ × InvenSlotItem)) :
    memory.slotLoop counter stack result
      = assignAll result ((trees.flatMap rightFirst).take counter) := by
  induction counter generalizing stack trees result with
  | zero => rfl
  | succ counter collectsRest =>
      cases stacked with
      | nil => rfl
      | @cons node tree stack trees isTop stackedRest =>
          rcases isTop with ⟨treeAt, notNull⟩
          cases tree with
          | nil =>
              simp only [TreeAt] at treeAt
              exact absurd notNull (by simp [treeAt])
          | node entry left right =>
              rcases treeAt with ⟨_, rfl, treeLeft, treeRight⟩
              rcases push_stacked treeLeft stackedRest with ⟨_, stackedLeft, isLeft⟩
              rcases push_stacked treeRight stackedLeft with ⟨_, stackedRight, isRight⟩
              simp only [slotLoop, notNull, Bool.not_false, if_true]
              rw [collectsRest stackedRight, isRight, isLeft, List.flatMap_cons, rightFirst,
                List.cons_append, List.take_succ_cons, List.append_assoc]
              rfl

theorem slotLoop_mapAt (mapAt : memory.MapAt pointer tree) {counter : ℕ} (positive : 0 < counter) :
    memory.slotLoop counter [memory.root (memory.pointer pointer)] []
      = assignAll [] ((rightFirst tree).take counter) := by
  rcases mapAt with ⟨treeAt, empty⟩
  cases tree with
  | nil =>
      rcases Nat.exists_eq_add_of_le' positive with ⟨counter, rfl⟩
      rcases empty rfl with ⟨previousNull, nextNull⟩
      simp only [TreeAt] at treeAt
      simp only [slotLoop, push, treeAt, previousNull, nextNull, Bool.not_true,
        Bool.false_eq_true, if_false]
      cases counter <;> rfl
  | node entry left right =>
      have stacked : Stacked memory [memory.root (memory.pointer pointer)]
          [.node entry left right] := .cons ⟨treeAt, treeAt.1⟩ .nil
      rw [slotLoop_stacked stacked, List.flatMap_singleton]

/-- The values of the first 500 nodes, in ascending key order; of all nodes when there are no
more. -/
theorem readHashMap_values (notNull : pointer ≠ 0) (mapAt : memory.MapAt pointer tree)
    (isSearchTree : Ascending (inorder tree)) :
    (∃ entries, memory.readHashMap pointer = entries.map Prod.snd
        ∧ entries.Perm ((rightFirst tree).take 500) ∧ Ascending entries)
      ∧ (tree.numNodes ≤ 500 → memory.readHashMap pointer = (inorder tree).map Prod.snd) := by
  have isRead : memory.readHashMap pointer
      = (assignAll [] ((rightFirst tree).take 500)).map Prod.snd := by
    rw [readHashMap, if_neg notNull, slotLoop_mapAt mapAt (by decide)]
    rfl
  have different : ((inorder tree).map Prod.fst).Nodup := by
    apply List.Pairwise.map _ _ isSearchTree
    exact fun a b isLess => ne_of_lt isLess
  have differentFirst : (((rightFirst tree).take 500).map Prod.fst).Nodup := by
    have isPerm := (rightFirst_perm_inorder tree).map Prod.fst
    exact (isPerm.nodup_iff.mpr different).sublist ((List.take_sublist 500 _).map Prod.fst)
  have empty : Ascending ([] : List (ℤ × InvenSlotItem)) := .nil
  have ascending := empty.assignAll ((rightFirst tree).take 500)
  have fresh : ∀ input ∈ (rightFirst tree).take 500, ∀ entry ∈ ([] : List (ℤ × InvenSlotItem)),
      input.1 ≠ entry.1 := by
    simp
  have perm := assignAll_perm differentFirst fresh
  constructor
  · exact ⟨_, isRead, perm, ascending⟩
  · intro fits
    rw [← length_rightFirst] at fits
    rw [List.take_of_length_le fits, List.nil_append] at perm
    rw [isRead, List.take_of_length_le fits]
    rw [List.take_of_length_le fits] at ascending
    rw [ascending.eq_of_perm isSearchTree (perm.trans (rightFirst_perm_inorder tree))]

theorem length_slotLoop_le (counter : ℕ) (stack : List UInt64)
    (result : List (ℤ × InvenSlotItem)) :
    (memory.slotLoop counter stack result).length ≤ result.length + counter := by
  induction counter generalizing stack result with
  | zero => exact le_rfl
  | succ counter boundRest =>
      cases stack with
      | nil => exact Nat.le_add_right _ _
      | cons node stack =>
          simp only [slotLoop]
          have assigned := length_assign_le (memory.key node) (memory.value1 node) result
          split_ifs
          · exact (boundRest _ _).trans (by omega)
          · exact (boundRest _ _).trans (by omega)

theorem length_readHashMap_le (memory : Memory) (pointer : UInt64) :
    (memory.readHashMap pointer).length ≤ 500 := by
  simp only [readHashMap]
  split_ifs
  · exact Nat.zero_le _
  · rw [List.length_map]
    exact (length_slotLoop_le _ _ _).trans (Nat.le_of_eq (Nat.zero_add _))

end Memory

section Spine

/-- Nodes at the multiples of 64, each the right child of the one before; the node at 32128 is the
head of the map and null. The pointer at 8 leads to all of them, the one at 32 to the last three. -/
def spineMemory : Memory where
  pointer address :=
    if address = 8 then 32128
    else if address = 32136 then 64
    else if address = 32 then 32192
    else if address = 32200 then 31936
    else if address % 64 = 16 then address + 48
    else 32128
  byte address := if address = 32153 then 1 else 0
  dword address := .ofNat address.toNat
  slotItem _ :=
    { displayName := [], path := [], itemQuality := 0, stackSize := 0, socketedNames := [],
      itemWidth := 1, itemHeight := 1, xMin := 0, yMin := 0, itemKey := 0 }

def spineNode (k : ℕ) : UInt64 := .ofNat (64 * k)

/-- The tree of the nodes from the `k`-th on. -/
def spine : ℕ → ℕ → BinaryTree (ℤ × InvenSlotItem)
  | 0, _ => .nil
  | count + 1, k =>
      .node (spineMemory.key (spineNode k), spineMemory.value1 (spineNode k)) .nil
        (spine count (k + 1))

theorem spineNode_links : ∀ k < 502, 0 < k →
    spineMemory.isNull (spineNode k) = false
      ∧ spineMemory.isNull (spineMemory.previous (spineNode k)) = true
      ∧ spineMemory.next (spineNode k) = spineNode (k + 1)
      ∧ spineMemory.key (spineNode k) = 64 * k + 32 := by
  decide +kernel

theorem spine_treeAt {count k : ℕ} (total : k + count = 502) (positive : 0 < k) :
    spineMemory.TreeAt (spineNode k) (spine count k) := by
  induction count generalizing k with
  | zero =>
      have isLast : k = 502 := total
      subst isLast
      exact (by decide : spineMemory.isNull (spineNode 502) = true)
  | succ count treeRest =>
      rcases spineNode_links k (by omega) positive with ⟨notNull, previousNull, isNext, _⟩
      refine ⟨notNull, rfl, previousNull, ?_⟩
      rw [isNext]
      exact treeRest (by omega) (Nat.succ_pos k)

theorem spine_ascending {count k : ℕ} (total : k + count = 502) (positive : 0 < k) :
    Ascending (inorder (spine count k)) ∧ ∀ entry ∈ inorder (spine count k), 64 * k < entry.1 := by
  induction count generalizing k with
  | zero => exact ⟨.nil, fun _ isEntry => absurd isEntry List.not_mem_nil⟩
  | succ count ascendingRest =>
      rcases spineNode_links k (by omega) positive with ⟨_, _, _, isKey⟩
      rcases ascendingRest (by omega) (Nat.succ_pos k) with ⟨ascending, above⟩
      push_cast at above
      constructor
      · refine List.pairwise_cons.mpr ⟨?_, ascending⟩
        intro entry isEntry
        have := above entry isEntry
        rw [isKey]
        omega
      · intro entry isEntry
        rcases List.mem_cons.mp isEntry with isFirst | isLater
        · rw [isFirst, isKey]
          omega
        · have := above entry isLater
          omega

theorem spine_numNodes (count k : ℕ) : (spine count k).numNodes = count := by
  induction count generalizing k with
  | zero => rfl
  | succ count numRest => simp only [spine, BinaryTree.numNodes, numRest, Nat.zero_add]

theorem spine_mapAt {pointer : UInt64} {count k : ℕ}
    (isRoot : spineMemory.root (spineMemory.pointer pointer) = spineNode k)
    (total : k + count = 502) (positive : 0 < k) (notEmpty : 0 < count) :
    spineMemory.MapAt pointer (spine count k) where
  root := by
    rw [isRoot]
    exact spine_treeAt total positive
  empty isEmpty := by
    have isZero := spine_numNodes count k
    rw [isEmpty] at isZero
    exact absurd isZero (Nat.ne_of_lt notEmpty)

theorem lastThree_values :
    spineMemory.readHashMap 32 = (inorder (spine 3 499)).map Prod.snd := by
  have mapAt : spineMemory.MapAt 32 (spine 3 499) :=
    spine_mapAt (by decide) rfl (by decide) (by decide)
  exact (Memory.readHashMap_values (by decide) mapAt (spine_ascending rfl (by decide)).1).2
    (by rw [spine_numNodes]; decide)

/-- One of 501 values is left out. -/
theorem readHashMap_incomplete :
    ¬ ∀ (memory : Memory) (pointer : UInt64) (tree : BinaryTree (ℤ × InvenSlotItem)), pointer ≠ 0 →
      memory.MapAt pointer tree → Ascending (inorder tree) →
      memory.readHashMap pointer = (inorder tree).map Prod.snd := by
  intro claimed
  have mapAt : spineMemory.MapAt 8 (spine 501 1) :=
    spine_mapAt (by decide) rfl Nat.one_pos (by decide)
  have isRead := claimed spineMemory 8 (spine 501 1) (by decide) mapAt
    (spine_ascending rfl Nat.one_pos).1
  have atMost := spineMemory.length_readHashMap_le 8
  rw [isRead, List.length_map, ← (rightFirst_perm_inorder _).length_eq, length_rightFirst,
    spine_numNodes] at atMost
  exact absurd atMost (by decide)

end Spine

end PoETask.Attach
