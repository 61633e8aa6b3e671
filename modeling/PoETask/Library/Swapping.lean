import Mathlib.Algebra.BigOperators.Group.Finset.Basic
import Mathlib.Data.Fintype.Basic
import Mathlib.Data.List.Chain
import Mathlib.Order.Defs.Unbundled
import Mathlib.Tactic.Abel

/-!
# Swapping for the better

Finitely many slots hold items, and more items lie beside them. One move puts an item
into an empty slot, or in the place of an item that it is better than, which then lies
beside the slots. If being better is a strict order, there is a bound on the number of
moves: the items stay the same, so every swap raises the rank of a held item among
them, and every other move fills a slot.
-/

namespace PoETask.Library

universe u v

/-- Items in slots and items beside them. -/
structure Stock (Slot : Type u) (Item : Type v) where
  slots : Slot → List Item
  spare : Multiset Item

variable {Slot : Type u} {Item : Type v}

inductive Swap [DecidableEq Slot] (better : Item → Item → Prop) :
    Stock Slot Item → Stock Slot Item → Prop where
  | fill {slots : Slot → List Item} {slot : Slot} {item : Item} {rest : Multiset Item}
      (isEmpty : slots slot = []) :
      Swap better ⟨slots, item ::ₘ rest⟩ ⟨Function.update slots slot [item], rest⟩
  | replace {slots : Slot → List Item} {slot : Slot} {item old : Item} {rest : Multiset Item}
      {front back : List Item} (holds : slots slot = front ++ old :: back)
      (isBetter : better item old) :
      Swap better ⟨slots, item ::ₘ rest⟩
        ⟨Function.update slots slot (front ++ item :: back), old ::ₘ rest⟩

namespace Stock

/-- The number of items that are worse. -/
noncomputable def rank (better : Item → Item → Prop) (items : Multiset Item) (item : Item) : ℕ :=
  open Classical in items.countP (better item)

/-- An empty slot weighs more than any item, and an item the more the lower its rank is. -/
noncomputable def slotWeight (better : Item → Item → Prop) (items : Multiset Item) :
    List Item → ℕ
  | [] => items.card + 1
  | held => (held.map fun item => items.card - rank better items item).sum

section Ranking

variable {better : Item → Item → Prop}

theorem rank_lt [IsStrictOrder Item better] {items : Multiset Item} {item old : Item}
    (isBetter : better item old) (present : old ∈ items) :
    rank better items old < rank better items item := by
  classical
  rcases Multiset.exists_cons_of_mem present with ⟨rest, rfl⟩
  have weaker : rest.countP (better old) ≤ rest.countP (better item) := by
    rw [Multiset.countP_eq_card_filter, Multiset.countP_eq_card_filter]
    exact Multiset.card_le_card
      (Multiset.monotone_filter_right rest fun _ worse => Trans.trans isBetter worse)
  simp only [rank]
  rw [Multiset.countP_cons_of_neg _ (irrefl old), Multiset.countP_cons_of_pos _ isBetter]
  exact Nat.lt_succ_of_le weaker

theorem rank_le_card (items : Multiset Item) (item : Item) :
    rank better items item ≤ items.card := by
  classical
  exact Multiset.countP_le_card _ _

theorem slotWeight_nil (items : Multiset Item) :
    slotWeight better items [] = items.card + 1 := rfl

theorem slotWeight_of_held (items : Multiset Item) {front back : List Item} {item : Item} :
    slotWeight better items (front ++ item :: back) =
      ((front ++ item :: back).map fun item => items.card - rank better items item).sum := by
  cases front <;> rfl

end Ranking

variable [Fintype Slot] [DecidableEq Slot]

def items (stock : Stock Slot Item) : Multiset Item :=
  stock.spare + ∑ slot, (stock.slots slot : Multiset Item)

noncomputable def weight (better : Item → Item → Prop) (items : Multiset Item)
    (stock : Stock Slot Item) : ℕ :=
  ∑ slot, slotWeight better items (stock.slots slot)

/-- A sum over the slots changes where the slots do. -/
theorem exists_sum_update {M : Type*} [AddCommMonoid M] (value : List Item → M)
    (slots : Slot → List Item) (slot : Slot) (content : List Item) :
    ∃ others, ∑ other, value (slots other) = value (slots slot) + others ∧
      ∑ other, value (Function.update slots slot content other) = value content + others := by
  refine ⟨∑ other ∈ Finset.univ.erase slot, value (slots other), ?_, ?_⟩
  · exact (Finset.add_sum_erase _ _ (Finset.mem_univ slot)).symm
  · rw [← Finset.add_sum_erase _ _ (Finset.mem_univ slot), Function.update_self]
    congr 1
    refine Finset.sum_congr rfl fun other isOther => ?_
    rw [Function.update_of_ne (Finset.ne_of_mem_erase isOther)]

end Stock

namespace Swap

open Stock

variable [Fintype Slot] [DecidableEq Slot] {better : Item → Item → Prop}
  {stock next : Stock Slot Item}

/-- No item comes or goes. -/
theorem items_eq (swap : Swap better stock next) : next.items = stock.items := by
  cases swap with
  | @fill slots slot item rest isEmpty =>
      rcases exists_sum_update (fun held => (held : Multiset Item)) slots slot [item] with
        ⟨others, before, after⟩
      simp only [items, before, after, isEmpty, Multiset.coe_nil, Multiset.coe_singleton, zero_add,
        ← Multiset.singleton_add]
      abel
  | @replace slots slot item old rest front back holds isBetter =>
      rcases exists_sum_update (fun held => (held : Multiset Item)) slots slot
        (front ++ item :: back) with ⟨others, before, after⟩
      simp only [items, before, after, holds, ← Multiset.coe_add, ← Multiset.cons_coe,
        ← Multiset.singleton_add]
      abel

/-- Filling a slot and swapping for the better both make the weight smaller. -/
theorem weight_lt [IsStrictOrder Item better] (swap : Swap better stock next) :
    weight better stock.items next < weight better stock.items stock := by
  cases swap with
  | @fill slots slot item rest isEmpty =>
      generalize (Stock.mk slots (item ::ₘ rest)).items = items
      rcases exists_sum_update (slotWeight better items) slots slot [item] with
        ⟨others, before, after⟩
      have single : slotWeight better items [item] = items.card - rank better items item := rfl
      simp only [weight, before, after, isEmpty, slotWeight_nil, single]
      omega
  | @replace slots slot item old rest front back holds isBetter =>
      have present : old ∈ Stock.items ⟨slots, item ::ₘ rest⟩ := by
        rcases exists_sum_update (fun held => (held : Multiset Item)) slots slot [] with
          ⟨others, before, -⟩
        rw [Stock.items, before, holds]
        simp
      generalize (Stock.mk slots (item ::ₘ rest)).items = items at present ⊢
      have higher := rank_lt isBetter present
      have bounded : rank better items item ≤ items.card := rank_le_card items item
      rcases exists_sum_update (slotWeight better items) slots slot (front ++ item :: back) with
        ⟨others, before, after⟩
      simp only [weight, before, after, holds, slotWeight_of_held, List.map_append, List.map_cons,
        List.sum_append, List.sum_cons]
      omega

/-- Moves cannot go on for ever: their number is bounded. -/
theorem length_le_weight [IsStrictOrder Item better] {moves : List (Stock Slot Item)}
    (chain : (stock :: moves).IsChain (Swap better)) :
    moves.length ≤ weight better stock.items stock := by
  induction moves generalizing stock with
  | nil => exact Nat.zero_le _
  | cons next later ih =>
      rw [List.isChain_cons_cons] at chain
      have fewer := ih chain.2
      rw [chain.1.items_eq] at fewer
      have lighter := weight_lt chain.1
      rw [List.length_cons]
      omega

end Swap

end PoETask.Library
