import Mathlib.Data.List.MinMax

/-!
# Loops that search a list

Two loops over a list. One ends at the first entry for which something is found. The other
goes to the end, skips what is no candidate and remembers the first candidate whose key is
smaller than all the keys before it and than a bound; it is `List.argmin` over the
candidates below the bound. The entry that was found may then be changed.
-/

namespace PoETask.Library

universe u v

section First

variable {Entry : Type u} {Found : Type v} {find : Entry → Option Found} {entries : List Entry}
  {i : ℕ} {entry : Entry} {found : Found}

/-- The loop up to the first entry for which something is found. -/
def firstEntry (find : Entry → Option Found) (entries : List Entry) :
    Option (ℕ × Entry × Found) :=
  entries.zipIdx.findSome? fun entry => (find entry.1).map fun found => (entry.2, entry.1, found)

theorem firstEntry_spec (isFirst : firstEntry find entries = some (i, entry, found)) :
    entries[i]? = some entry ∧ find entry = some found ∧
      ∀ j < i, ∀ other, entries[j]? = some other → find other = none := by
  rcases List.findSome?_eq_some_iff.mp isFirst with ⟨before, last, after, split, finds, misses⟩
  have sameLength : ∀ other ∈ entries.zipIdx, entries[other.2]? = some other.1 := by
    intro other isOther
    exact List.mk_mem_zipIdx_iff_getElem?.mp isOther
  rcases Option.map_eq_some_iff.mp finds with ⟨result, found_eq, same⟩
  obtain ⟨rfl, rfl, rfl⟩ : last.2 = i ∧ last.1 = entry ∧ result = found := by
    simpa only [Prod.mk.injEq] using same
  have isLast : last ∈ entries.zipIdx := split ▸ List.mem_append_right _ List.mem_cons_self
  refine ⟨sameLength last isLast, found_eq, ?_⟩
  intro j before_j other isOther
  have place : entries.zipIdx[before.length]? = some last := by
    rw [split]
    simp
  have count : last.2 = before.length := by
    rw [List.getElem?_zipIdx] at place
    rcases Option.map_eq_some_iff.mp place with ⟨value, -, same_last⟩
    rw [← same_last]
    simp
  have isEarlier : (other, j) ∈ before := by
    have at_j : entries.zipIdx[j]? = some (other, j) := by
      rw [List.getElem?_zipIdx, isOther]
      simp
    rw [split, List.getElem?_append_left (count ▸ before_j)] at at_j
    exact List.mem_of_getElem? at_j
  exact Option.map_eq_none_iff.mp (misses _ isEarlier)

end First

section Change

variable {Entry : Type u} {Image : Type v} {entries : List Entry} {change : Entry → Entry}
  {i : ℕ}

/-- An image of the entries changes with the one that is changed. -/
theorem map_modify_entry {image : Entry → Image} {changeImage : Image → Image}
    (commutes : ∀ entry, image (change entry) = changeImage (image entry)) :
    (entries.modify i change).map image = (entries.map image).modify i changeImage := by
  apply List.ext_getElem?
  intro j
  simp only [List.getElem?_map, List.getElem?_modify]
  cases entries[j]? with
  | none => rfl
  | some entry => by_cases same : i = j <;> simp [same, commutes]

/-- What is at a place once an entry has been changed. -/
theorem getElem?_modify_cases {j : ℕ} {entry found : Entry} (isEntry : entries[i]? = some entry)
    (isFound : (entries.modify i change)[j]? = some found) :
    (j = i ∧ found = change entry) ∨ (j ≠ i ∧ entries[j]? = some found) := by
  rw [List.getElem?_modify] at isFound
  by_cases same : i = j
  · subst same
    rw [isEntry] at isFound
    exact .inl ⟨rfl, by simpa using isFound.symm⟩
  · exact .inr ⟨Ne.symm same, by simpa [same] using isFound⟩

end Change

section Least

variable {Item : Type u} {Key : Type v} [LinearOrder Key]

/-- The loop; it returns the least key and its item. -/
def leastSearch (isCandidate : Item → Bool) (key : Item → Key) (bound : Key) (items : List Item) :
    Key × Option Item :=
  items.foldl
    (fun least item =>
      if isCandidate item ∧ key item < least.1 then (key item, some item) else least)
    (bound, none)

def leastItem (isCandidate : Item → Bool) (key : Item → Key) (bound : Key) (items : List Item) :
    Option Item :=
  (leastSearch isCandidate key bound items).2

variable {isCandidate : Item → Bool} {key : Item → Key} {bound : Key} {items : List Item}
  {item : Item}

theorem leastSearch_eq_argmin (items : List Item) :
    leastSearch isCandidate key bound items =
      ((items.filter fun item => isCandidate item ∧ key item < bound).argmin key).elim (bound, none)
        fun item => (key item, some item) := by
  induction items using List.reverseRecOn with
  | nil => rfl
  | append_singleton items last ih =>
      have step : leastSearch isCandidate key bound (items ++ [last]) =
          if isCandidate last ∧ key last < (leastSearch isCandidate key bound items).1 then
            (key last, some last)
          else
            leastSearch isCandidate key bound items := by
        rw [leastSearch, List.foldl_append]
        rfl
      rw [step, ih, List.filter_append]
      by_cases found : isCandidate last ∧ key last < bound
      · have single : [last].filter (fun item => isCandidate item ∧ key item < bound) = [last] :=
          List.filter_cons_of_pos (by simpa using found)
        rw [single, List.argmin_concat]
        cases least : (items.filter fun item => isCandidate item ∧ key item < bound).argmin key with
        | none => exact if_pos found
        | some item =>
            by_cases smaller : key last < key item
            · simp [found.1, smaller]
            · simp [smaller]
      · have skipped : [last].filter (fun item => isCandidate item ∧ key item < bound) = [] :=
          List.filter_cons_of_neg (by simpa using found)
        rw [skipped, List.append_nil]
        cases least : (items.filter fun item => isCandidate item ∧ key item < bound).argmin key with
        | none => exact if_neg found
        | some item =>
            have isItem := List.mem_filter.mp (List.argmin_mem least)
            have below : key item < bound := (of_decide_eq_true isItem.2).2
            exact if_neg fun smaller => found ⟨smaller.1, smaller.2.trans below⟩

theorem leastItem_eq_argmin (items : List Item) : leastItem isCandidate key bound items =
    (items.filter fun item => isCandidate item ∧ key item < bound).argmin key := by
  rw [leastItem, leastSearch_eq_argmin]
  cases (items.filter fun item => isCandidate item ∧ key item < bound).argmin key with
  | none => rfl
  | some item => rfl

theorem mem_of_leastItem (found : leastItem isCandidate key bound items = some item) :
    item ∈ items ∧ isCandidate item ∧ key item < bound := by
  rw [leastItem_eq_argmin] at found
  have isItem := List.mem_filter.mp (List.argmin_mem found)
  exact ⟨isItem.1, of_decide_eq_true isItem.2⟩

theorem le_of_leastItem (found : leastItem isCandidate key bound items = some item) {other : Item}
    (isOther : other ∈ items) (isCandidateOther : isCandidate other) : key item ≤ key other := by
  rcases lt_or_ge (key other) bound with below | atLeast
  · rw [leastItem_eq_argmin] at found
    apply List.le_of_mem_argmin _ found
    exact List.mem_filter.mpr ⟨isOther, decide_eq_true ⟨isCandidateOther, below⟩⟩
  · exact (mem_of_leastItem found).2.2.le.trans atLeast

/-- Nothing is found exactly when no candidate is below the bound. -/
theorem leastItem_eq_none_iff : leastItem isCandidate key bound items = none ↔
    ∀ other ∈ items, isCandidate other → bound ≤ key other := by
  simp only [leastItem_eq_argmin, List.argmin_eq_none, List.filter_eq_nil_iff, decide_eq_true_eq,
    not_and, not_lt]

end Least

end PoETask.Library
