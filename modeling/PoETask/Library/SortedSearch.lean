import Mathlib.Data.List.Basic
import Mathlib.Order.Lattice

/-!
# Searching a sorted list

A search that halves a list in ascending order keeps a window: the entries before it are too small
and those behind it too large. When the window holds no entry any more, the target is absent.
-/

namespace PoETask.SortedSearch

variable {Entry Key : Type*} [LinearOrder Key] {key : Entry → Key} {entries : List Entry}
  {target : Key} {low high mid : ℕ} {entry : Entry}

/-- Only entries from `low` on and before `high` can have the target as their key. -/
structure Window (key : Entry → Key) (entries : List Entry) (target : Key) (low high : ℕ) :
    Prop where
  below : ∀ {i entry}, entries[i]? = some entry → i < low → key entry < target
  above : ∀ {i entry}, entries[i]? = some entry → high ≤ i → target < key entry

/-- The keys of a list in ascending order. -/
def Ascends (key : Entry → Key) (entries : List Entry) : Prop :=
  entries.Pairwise fun former latter => key former < key latter

theorem Ascends.key_le (ascends : Ascends key entries) {i j : ℕ} {former latter : Entry}
    (isFormer : entries[i]? = some former) (isLatter : entries[j]? = some latter)
    (inOrder : i ≤ j) : key former ≤ key latter := by
  rcases List.getElem?_eq_some_iff.mp isFormer with ⟨inList, rfl⟩
  rcases List.getElem?_eq_some_iff.mp isLatter with ⟨inListToo, rfl⟩
  rcases Nat.lt_or_eq_of_le inOrder with isBefore | rfl
  · exact (List.pairwise_iff_getElem.mp ascends i j inList inListToo isBefore).le
  · exact le_rfl

namespace Window

theorem init (covers : entries.length ≤ high) : Window key entries target 0 high where
  below _ isLess := absurd isLess (Nat.not_lt_zero _)
  above {i entry} isEntry atLeast := by
    rcases List.getElem?_eq_some_iff.mp isEntry with ⟨inList, _⟩
    omega

/-- The key in the middle is too small. -/
theorem raise (window : Window key entries target low high) (ascends : Ascends key entries)
    (isMid : entries[mid]? = some entry) (isLess : key entry < target) :
    Window key entries target (mid + 1) high where
  below isEntry atMost := (ascends.key_le isEntry isMid (Nat.le_of_lt_succ atMost)).trans_lt isLess
  above := window.above

/-- The key in the middle is too large. -/
theorem lower (window : Window key entries target low high) (ascends : Ascends key entries)
    (isMid : entries[mid]? = some entry) (isGreater : target < key entry) :
    Window key entries target low mid where
  below := window.below
  above isEntry atLeast := isGreater.trans_le (ascends.key_le isMid isEntry atLeast)

theorem absent (window : Window key entries target low high)
    (isEmpty : high ≤ low ∨ entries.length ≤ low) : ∀ entry ∈ entries, key entry ≠ target := by
  intro entry isMember
  rcases List.mem_iff_getElem?.mp isMember with ⟨i, isEntry⟩
  rcases List.getElem?_eq_some_iff.mp isEntry with ⟨inList, _⟩
  by_cases isBelow : i < low
  · exact (window.below isEntry isBelow).ne
  · exact (window.above isEntry (by omega)).ne'

end Window

end PoETask.SortedSearch
