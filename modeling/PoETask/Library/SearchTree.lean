import Mathlib.Data.List.Perm.Basic
import Mathlib.Data.Tree.Basic
import Mathlib.Order.Lattice

/-!
# Search trees and ordered maps

The order in which a stack visits the nodes of a binary tree, and finite maps kept as lists of
entries in ascending key order.
-/

namespace PoETask.SearchTree

section Tree

variable {β : Type*}

def inorder : BinaryTree β → List β
  | .nil => []
  | .node entry left right => inorder left ++ entry :: inorder right

/-- A node before its subtrees, the right one first. -/
def rightFirst : BinaryTree β → List β
  | .nil => []
  | .node entry left right => entry :: (rightFirst right ++ rightFirst left)

theorem rightFirst_perm_inorder (tree : BinaryTree β) :
    (rightFirst tree).Perm (inorder tree) := by
  induction tree with
  | nil => exact .nil
  | node entry left right permLeft permRight =>
      have permBelow : (rightFirst right ++ rightFirst left).Perm (inorder left ++ inorder right) :=
        List.perm_append_comm.trans (permLeft.append permRight)
      exact (permBelow.cons entry).trans List.perm_middle.symm

theorem length_rightFirst (tree : BinaryTree β) : (rightFirst tree).length = tree.numNodes := by
  induction tree with
  | nil => rfl
  | node entry left right lengthLeft lengthRight =>
      simp only [rightFirst, List.length_cons, List.length_append, lengthLeft, lengthRight,
        BinaryTree.numNodes]
      omega

end Tree

section Map

variable {κ α : Type*} [LinearOrder κ] {entries inputs : List (κ × α)}

/-- The assignment of a value to a key. -/
def assign (key : κ) (value : α) : List (κ × α) → List (κ × α)
  | [] => [(key, value)]
  | entry :: rest =>
      if key < entry.1 then (key, value) :: entry :: rest
      else if key = entry.1 then (key, value) :: rest
      else entry :: assign key value rest

/-- The assignments of a list of inputs, one after the other. -/
def assignAll (entries inputs : List (κ × α)) : List (κ × α) :=
  inputs.foldl (fun entries input => assign input.1 input.2 entries) entries

def Ascending (entries : List (κ × α)) : Prop :=
  entries.Pairwise fun a b => a.1 < b.1

theorem key_of_mem_assign {key : κ} {value : α} {other : κ × α}
    (isEntry : other ∈ assign key value entries) : other.1 = key ∨ other ∈ entries := by
  induction entries with
  | nil => simp_all [assign]
  | cons entry rest keyRest =>
      simp only [assign] at isEntry
      split_ifs at isEntry with isLess isSame
      · rcases List.mem_cons.mp isEntry with isNew | isOld
        · exact .inl (isNew ▸ rfl)
        · exact .inr isOld
      · rcases List.mem_cons.mp isEntry with isNew | isOld
        · exact .inl (isNew ▸ rfl)
        · exact .inr (List.mem_cons_of_mem entry isOld)
      · rcases List.mem_cons.mp isEntry with isFirst | isLater
        · exact .inr (isFirst ▸ List.mem_cons_self)
        · exact (keyRest isLater).imp_right (List.mem_cons_of_mem entry)

/-- A map stays in ascending order. -/
theorem Ascending.assign (ascending : Ascending entries) (key : κ) (value : α) :
    Ascending (assign key value entries) := by
  induction entries with
  | nil => exact List.pairwise_singleton _ _
  | cons entry rest ascendingRest =>
      rcases List.pairwise_cons.mp ascending with ⟨first, later⟩
      simp only [SearchTree.assign]
      split_ifs with isLess isSame
      · refine List.pairwise_cons.mpr ⟨?_, ascending⟩
        intro other isEntry
        rcases List.mem_cons.mp isEntry with isFirst | isLater
        · exact isFirst ▸ isLess
        · exact lt_trans isLess (first other isLater)
      · exact List.pairwise_cons.mpr ⟨fun other isLater => isSame ▸ first other isLater, later⟩
      · refine List.pairwise_cons.mpr ⟨?_, ascendingRest later⟩
        intro other isEntry
        rcases key_of_mem_assign isEntry with isNew | isOld
        · rw [isNew]
          exact lt_of_le_of_ne (not_lt.mp isLess) (Ne.symm isSame)
        · exact first other isOld

/-- A new key adds an entry. -/
theorem assign_perm {key : κ} {value : α} (fresh : ∀ entry ∈ entries, key ≠ entry.1) :
    (assign key value entries).Perm ((key, value) :: entries) := by
  induction entries with
  | nil => exact .refl _
  | cons entry rest permRest =>
      rcases List.forall_mem_cons.mp fresh with ⟨notFirst, notLater⟩
      simp only [assign, if_neg notFirst]
      split_ifs
      · exact .refl _
      · exact ((permRest notLater).cons entry).trans (List.Perm.swap _ _ _)

theorem length_assign_le (key : κ) (value : α) (entries : List (κ × α)) :
    (assign key value entries).length ≤ entries.length + 1 := by
  induction entries with
  | nil => exact Nat.le_refl _
  | cons entry rest boundRest =>
      simp only [assign]
      split_ifs
      · exact Nat.le_refl _
      · exact Nat.le_succ _
      · exact Nat.succ_le_succ boundRest

theorem Ascending.assignAll (ascending : Ascending entries) (inputs : List (κ × α)) :
    Ascending (assignAll entries inputs) := by
  induction inputs generalizing entries with
  | nil => exact ascending
  | cons input rest ascendingRest => exact ascendingRest (ascending.assign input.1 input.2)

/-- Inputs with different keys become the entries. -/
theorem assignAll_perm (different : (inputs.map Prod.fst).Nodup)
    (fresh : ∀ input ∈ inputs, ∀ entry ∈ entries, input.1 ≠ entry.1) :
    (assignAll entries inputs).Perm (entries ++ inputs) := by
  induction inputs generalizing entries with
  | nil => simp [assignAll]
  | cons input rest permRest =>
      rcases List.forall_mem_cons.mp fresh with ⟨isNew, areNew⟩
      rcases List.nodup_cons.mp different with ⟨notLater, different⟩
      have perm : (assign input.1 input.2 entries).Perm (input :: entries) := assign_perm isNew
      have freshRest : ∀ later ∈ rest, ∀ entry ∈ assign input.1 input.2 entries,
          later.1 ≠ entry.1 := by
        intro later isLater entry isEntry
        rcases key_of_mem_assign isEntry with isInput | isOld
        · rw [isInput]
          exact fun isSame => notLater (isSame ▸ List.mem_map_of_mem isLater)
        · exact areNew later isLater entry isOld
      exact ((permRest different freshRest).trans (perm.append_right rest)).trans
        List.perm_middle.symm

/-- Two maps with the same entries are the same list. -/
theorem Ascending.eq_of_perm {entries' : List (κ × α)} (ascending : Ascending entries)
    (ascending' : Ascending entries') (perm : entries.Perm entries') : entries = entries' := by
  apply perm.eq_of_pairwise _ ascending ascending'
  intro a b _ _ isLess isGreater
  exact absurd isGreater (lt_asymm isLess)

end Map

end PoETask.SearchTree
