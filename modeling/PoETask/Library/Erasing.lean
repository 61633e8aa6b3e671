import Mathlib.Data.List.Induction

/-!
# Erasing from an array by assignment

Erasing an element of an array assigns every element behind it to the slot in front of
it. If assignment replaces the whole slot, the other elements just move up. This file is
about assignments that merge the old content of the slot with the new one.

Where merging is associative and idempotent, an element that has moved up is the merge
of all elements from its new place to its old one. A loop that erases what it does not
keep therefore leaves at each slot the merge of a window of the array.
-/

namespace PoETask.Library

universe u v

variable {α : Type u} {β : Type v}

/-- The merge of a window, from the front. -/
def blend (assign : α → α → α) : List α → Option α
  | [] => none
  | x :: rest => some (rest.foldl assign x)

/-- The elements behind an erased one, after each was assigned to the slot in front of it. -/
def closeGap (assign : α → α → α) : α → List α → List α
  | _, [] => []
  | slot, x :: rest => assign slot x :: closeGap assign x rest

/-- The loop from some slot on, with one turn for each slot at or behind it: keep the element and go
to the next slot, or erase it and look at the same slot again. -/
def eraseLoop (assign : α → α → α) (keep : α → Bool) : ℕ → List α → List α
  | 0, slots => slots
  | _ + 1, [] => []
  | turns + 1, x :: rest =>
      if keep x then x :: eraseLoop assign keep turns rest
      else eraseLoop assign keep turns (closeGap assign x rest)

section Copied

variable {assign : α → α → α} {keep : α → Bool}

@[simp]
theorem length_closeGap (slot : α) (xs : List α) :
    (closeGap assign slot xs).length = xs.length := by
  induction xs generalizing slot with
  | nil => rfl
  | cons x rest ih => simp only [closeGap, List.length_cons, ih]

theorem map_closeGap {field : α → β} (copied : ∀ slot x, field (assign slot x) = field x)
    (slot : α) (xs : List α) : (closeGap assign slot xs).map field = xs.map field := by
  induction xs generalizing slot with
  | nil => rfl
  | cons x rest ih => simp only [closeGap, List.map_cons, copied, ih]

/-- A field that assignment copies is kept where the element is kept. -/
theorem map_eraseLoop {field : α → β} (copied : ∀ slot x, field (assign slot x) = field x)
    {keepField : β → Bool} (keep_eq : ∀ x, keep x = keepField (field x)) (xs : List α) :
    (eraseLoop assign keep xs.length xs).map field = (xs.map field).filter keepField := by
  induction turns_eq : xs.length generalizing xs with
  | zero =>
      cases List.length_eq_zero_iff.mp turns_eq
      rfl
  | succ turns ih =>
      cases xs with
      | nil => cases turns_eq
      | cons x rest =>
          have rest_length : rest.length = turns := Nat.succ.inj turns_eq
          simp only [eraseLoop, List.map_cons, List.filter_cons, ← keep_eq]
          by_cases kept : keep x
          · simp only [if_pos kept, List.map_cons, ih rest rest_length]
          · simp only [if_neg kept, ih _ ((length_closeGap x rest).trans rest_length),
              map_closeGap copied]

end Copied

section Windows

variable {assign : α → α → α} {keep : α → Bool} {x y : α} {xs slots : List α} {gap : ℕ}

theorem blend_isSome (assign : α → α → α) {window : List α} (notEmpty : window ≠ []) :
    ∃ merged, blend assign window = some merged := by
  cases window with
  | nil => exact absurd rfl notEmpty
  | cons x rest => exact ⟨_, rfl⟩

theorem assign_assoc [Std.Associative assign] (x y z : α) :
    assign (assign x y) z = assign x (assign y z) := Std.Associative.assoc x y z

theorem foldl_assign [Std.Associative assign] (x y : α) (rest : List α) :
    rest.foldl assign (assign x y) = assign x (rest.foldl assign y) := by
  induction rest generalizing y with
  | nil => rfl
  | cons z rest ih => simp only [List.foldl_cons, assign_assoc, ih]

/-- Two windows that overlap in all but their ends merge into the window of both. -/
theorem blend_overlap [Std.Associative assign] [Std.IdempotentOp assign] {first last : α}
    {middle : List α} {left right : α} (isLeft : blend assign (first :: middle) = some left)
    (isRight : blend assign (middle ++ [last]) = some right) :
    blend assign (first :: (middle ++ [last])) = some (assign left right) := by
  cases isLeft
  cases middle with
  | nil =>
      cases isRight
      rfl
  | cons y rest =>
      rw [List.cons_append, blend, List.foldl_append, Option.some.injEq] at isRight
      rw [blend, List.foldl_append, ← isRight, Option.some.injEq]
      simp only [List.foldl_cons, List.foldl_nil, foldl_assign]
      generalize rest.foldl assign y = shared
      calc assign first (assign shared last)
        _ = assign first (assign (assign shared shared) last) := by
            rw [show assign shared shared = shared from Std.IdempotentOp.idempotent shared]
        _ = assign (assign first shared) (assign shared last) := by
            simp only [assign_assoc]

/-- A field that assignment copies is that of the last element of a window. -/
theorem copied_blend {field : α → β} (copied : ∀ slot x, field (assign slot x) = field x)
    {window : List α} {merged : α} (isMerged : blend assign window = some merged) :
    window.getLast?.map field = some (field merged) := by
  cases window with
  | nil => cases isMerged
  | cons x rest =>
      cases isMerged
      induction rest using List.reverseRecOn with
      | nil => rfl
      | append_singleton front y _ =>
          rw [← List.cons_append, List.getLast?_concat, List.foldl_append]
          simp only [Option.map_some, List.foldl_cons, List.foldl_nil, copied]

/-- A field that assignment leaves alone is that of the first element of a window. -/
theorem kept_blend {field : α → β} (kept : ∀ slot x, field (assign slot x) = field slot)
    {window : List α} {merged : α} (isMerged : blend assign window = some merged) :
    window.head?.map field = some (field merged) := by
  cases window with
  | nil => cases isMerged
  | cons x rest =>
      cases isMerged
      induction rest generalizing x with
      | nil => rfl
      | cons y rest ih =>
          have behind := ih (assign x y)
          simp only [List.head?_cons, Option.map_some, Option.some.injEq, List.foldl_cons,
            kept] at behind ⊢
          exact behind

section Overridden

variable {field : α → β} {empty : β} [DecidableEq β]
  (overridden : ∀ slot x, field (assign slot x) = if field x = empty then field slot else field x)

include overridden

theorem overridden_blend_eq_empty {window : List α} {merged : α}
    (isMerged : blend assign window = some merged) :
    field merged = empty ↔ ∀ x ∈ window, field x = empty := by
  cases window with
  | nil => cases isMerged
  | cons x rest =>
      cases isMerged
      induction rest generalizing x with
      | nil => simp only [List.foldl_nil, List.mem_singleton, forall_eq]
      | cons y rest ih =>
          simp only [List.foldl_cons, ih, List.forall_mem_cons, overridden]
          split_ifs with isEmpty <;> simp [isEmpty]

/-- A field that assignment leaves alone where the new one is empty is that of the last element of a
window if this is not empty, or if all of them are. -/
theorem overridden_blend {front : List α} {last merged : α}
    (isMerged : blend assign (front ++ [last]) = some merged) :
    field merged = field last ↔ field last ≠ empty ∨ ∀ x ∈ front, field x = empty := by
  cases front with
  | nil =>
      cases isMerged
      simp
  | cons x rest =>
      rw [List.cons_append, blend, List.foldl_append, Option.some.injEq] at isMerged
      subst isMerged
      simp only [List.foldl_cons, List.foldl_nil, overridden]
      split_ifs with isEmpty
      · have allEmpty : field (rest.foldl assign x) = empty ↔ ∀ y ∈ x :: rest, field y = empty :=
          overridden_blend_eq_empty overridden rfl
        rw [isEmpty, allEmpty]
        simp
      · simp [isEmpty]

end Overridden

/-- The slots from some place of an array on, after `gap` elements before them were erased: each
holds the merge of a window. -/
structure Shifted (assign : α → α → α) (xs : List α) (gap : ℕ) (slots : List α) : Prop where
  length_eq : slots.length + gap = xs.length
  slot_eq : ∀ m (inside : m < slots.length),
    blend assign ((xs.drop m).take (gap + 1)) = some slots[m]

theorem getElem?_closeGap {slot : α} {m : ℕ} (inside : m < xs.length) :
    (closeGap assign slot xs)[m]? = some (assign ((slot :: xs).get ⟨m, Nat.lt_succ_of_lt inside⟩)
      xs[m]) := by
  induction xs generalizing slot m with
  | nil => cases inside
  | cons y rest ih =>
      cases m with
      | zero => rfl
      | succ m => exact ih (Nat.lt_of_succ_lt_succ inside)

namespace Shifted

theorem self (assign : α → α → α) (xs : List α) : Shifted assign xs 0 xs where
  length_eq := rfl
  slot_eq m inside := by
    rw [List.drop_eq_getElem_cons inside]
    rfl

theorem next (shifted : Shifted assign xs gap (x :: slots)) :
    Shifted assign xs.tail gap slots where
  length_eq := by
    have length_eq := shifted.length_eq
    simp only [List.length_cons, List.length_tail] at length_eq ⊢
    omega
  slot_eq m inside := by
    have slot_eq := shifted.slot_eq (m + 1) (Nat.succ_lt_succ inside)
    simpa only [← List.drop_one, List.drop_drop, Nat.add_comm 1, List.getElem_cons_succ]
      using slot_eq

theorem erase [Std.Associative assign] [Std.IdempotentOp assign]
    (shifted : Shifted assign xs gap (x :: slots)) :
    Shifted assign xs (gap + 1) (closeGap assign x slots) where
  length_eq := by
    have length_eq := shifted.length_eq
    simp only [List.length_cons, length_closeGap] at length_eq ⊢
    omega
  slot_eq m inside := by
    have inSlots : m < slots.length := by simpa using inside
    have length_eq := shifted.length_eq
    simp only [List.length_cons] at length_eq
    have left := shifted.slot_eq m (Nat.lt_succ_of_lt inSlots)
    have right := shifted.slot_eq (m + 1) (Nat.succ_lt_succ inSlots)
    rw [List.drop_eq_getElem_cons (by omega), List.take_succ_cons] at left ⊢
    have last_eq : (xs.drop (m + 1)).take (gap + 1) =
        (xs.drop (m + 1)).take gap ++ [xs[m + 1 + gap]] := by
      rw [List.take_succ_eq_append_getElem (by simp only [List.length_drop]; omega),
        List.getElem_drop]
    rw [last_eq] at right ⊢
    rw [blend_overlap left right, ← List.getElem?_eq_getElem inside, getElem?_closeGap inSlots]
    rfl

theorem keep_iff (shifted : Shifted assign xs gap (x :: slots))
    (keep_assign : ∀ slot x, keep (assign slot x) = keep x) (inside : gap < xs.length) :
    keep x = keep xs[gap] := by
  have merged := copied_blend keep_assign (shifted.slot_eq 0 (Nat.succ_pos _))
  rw [List.drop_zero, List.take_succ_eq_append_getElem inside, List.getLast?_concat] at merged
  exact (Option.some.inj merged).symm

/-- The loop leaves at the place of each element that it keeps the merge of everything between this
place and the old one. -/
theorem getElem?_eraseLoop [Std.Associative assign] [Std.IdempotentOp assign]
    (shifted : Shifted assign xs gap slots)
    (keep_assign : ∀ slot x, keep (assign slot x) = keep x) {s : ℕ}
    (inside : gap + s < xs.length) (isKept : keep xs[gap + s]) {place : ℕ}
    (place_eq : ((xs.drop gap).take s).countP keep = place) :
    (eraseLoop assign keep slots.length slots)[place]? =
      blend assign ((xs.drop place).take (gap + s + 1 - place)) := by
  induction turns_eq : slots.length generalizing xs gap slots s place with
  | zero =>
      have length_eq := shifted.length_eq
      omega
  | succ turns ih =>
      cases slots with
      | nil => cases turns_eq
      | cons x rest =>
          have rest_length : rest.length = turns := Nat.succ.inj turns_eq
          have keep_eq := shifted.keep_iff keep_assign (by omega)
          cases s with
          | zero =>
              subst place_eq
              simp only [Nat.add_zero] at isKept
              simp only [eraseLoop, keep_eq, isKept, if_true]
              exact (shifted.slot_eq 0 (Nat.succ_pos _)).symm
          | succ s =>
              rw [List.drop_eq_getElem_cons (by omega), List.take_succ_cons,
                List.countP_cons, ← keep_eq] at place_eq
              by_cases kept : keep x
              · simp only [eraseLoop, if_pos kept]
                simp only [if_pos kept] at place_eq
                subst place_eq
                cases xs with
                | nil => cases inside
                | cons head tail =>
                    have shiftedTail : Shifted assign tail gap rest := shifted.next
                    rw [List.getElem?_cons_succ, List.drop_succ_cons, List.drop_succ_cons,
                      ih shiftedTail (Nat.lt_of_succ_lt_succ inside) isKept rfl rest_length]
                    congr 2
                    omega
              · simp only [eraseLoop, if_neg kept]
                simp only [if_neg kept, Nat.add_zero] at place_eq
                have moved := ih shifted.erase (s := s) (by omega)
                  (by simpa only [Nat.add_assoc, Nat.add_comm 1] using isKept) place_eq
                  ((length_closeGap x rest).trans rest_length)
                rw [moved]
                congr 2
                omega

end Shifted

end Windows

end PoETask.Library
