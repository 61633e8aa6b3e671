import Mathlib.Data.List.GetD
import Mathlib.Data.List.Nodup
import Mathlib.Logic.Function.Basic

/-!
# Loops over the cells of a memory

An operation is local to a region if it changes no cell outside the region and what it does depends
on none. A loop of local operations is local, and a loop over separate regions does in each region
what the turn of this region does. A loop whose turns can be undone is undone from behind.
-/

namespace PoETask.LocalLoops

variable {Cell Value Turn State : Type*}

/-- The reversed loop undoes the turns. -/
theorem foldl_undo {step undo : State → Turn → State} {turns : List Turn}
    (undoes : ∀ turn ∈ turns, ∀ state, undo (step state turn) turn = state) (state : State) :
    turns.reverse.foldl undo (turns.foldl step state) = state := by
  induction turns generalizing state with
  | nil => rfl
  | cons turn turns undoesRest =>
      rw [List.forall_mem_cons] at undoes
      simp only [List.reverse_cons, List.foldl_append, List.foldl_cons, List.foldl_nil,
        undoesRest undoes.2, undoes.1]

/-- The operation changes and reads only cells of the region. -/
structure Local (region : Cell → Prop) (operation : (Cell → Value) → Cell → Value) : Prop where
  outside : ∀ {memory cell}, ¬ region cell → operation memory cell = memory cell
  inside : ∀ {memory other}, (∀ cell, region cell → memory cell = other cell) →
    ∀ {cell}, region cell → operation memory cell = operation other cell

namespace Local

variable {region : Cell → Prop} {operation : (Cell → Value) → Cell → Value}

theorem comp {next : (Cell → Value) → Cell → Value} (isLocal : Local region operation)
    (nextIsLocal : Local region next) : Local region fun memory => next (operation memory) where
  outside isOutside := (nextIsLocal.outside isOutside).trans (isLocal.outside isOutside)
  inside agree := nextIsLocal.inside fun _ isInside => isLocal.inside agree isInside

theorem foldl {step : (Cell → Value) → Turn → Cell → Value} {turns : List Turn}
    (isLocal : ∀ turn ∈ turns, Local region fun memory => step memory turn) :
    Local region fun memory => turns.foldl step memory := by
  induction turns with
  | nil => exact ⟨fun _ => rfl, fun agree _ isInside => agree _ isInside⟩
  | cons turn turns localRest =>
      rw [List.forall_mem_cons] at isLocal
      exact isLocal.1.comp (localRest isLocal.2)

/-- A value that depends on the region is written to a cell of the region. -/
theorem write [DecidableEq Cell] {cell : Cell} (inRegion : region cell)
    {value : (Cell → Value) → Value}
    (reads : ∀ {memory other : Cell → Value}, (∀ cell, region cell → memory cell = other cell) →
      value memory = value other) :
    Local region fun memory => Function.update memory cell (value memory) where
  outside {memory other} isOutside := by
    apply Function.update_of_ne
    rintro rfl
    exact isOutside inRegion
  inside {memory other} agree {written} isInside := by
    rw [reads agree, Function.update_apply, Function.update_apply, agree written isInside]

end Local

section Separate

variable {part : Cell → Turn} {step : (Cell → Value) → Turn → Cell → Value} {turns : List Turn}

theorem foldl_outside
    (isLocal : ∀ turn ∈ turns, Local (part · = turn) fun memory => step memory turn)
    (memory : Cell → Value) {cell : Cell} (isOutside : part cell ∉ turns) :
    turns.foldl step memory cell = memory cell := by
  induction turns generalizing memory with
  | nil => rfl
  | cons turn turns outsideRest =>
      rw [List.forall_mem_cons] at isLocal
      rw [List.mem_cons, not_or] at isOutside
      rw [List.foldl_cons, outsideRest isLocal.2 _ isOutside.2, isLocal.1.outside isOutside.1]

/-- In a loop over separate regions only the turn of its region acts on a cell. -/
theorem foldl_separate
    (isLocal : ∀ turn ∈ turns, Local (part · = turn) fun memory => step memory turn)
    (different : turns.Nodup) (memory : Cell → Value) {cell : Cell} (isTurn : part cell ∈ turns) :
    turns.foldl step memory cell = step memory (part cell) cell := by
  induction turns generalizing memory with
  | nil => exact absurd isTurn List.not_mem_nil
  | cons turn turns separateRest =>
      have isLocalFirst := isLocal turn List.mem_cons_self
      have isLocalRest := fun other isOther => isLocal other (List.mem_cons_of_mem turn isOther)
      rw [List.nodup_cons] at different
      rw [List.foldl_cons]
      by_cases isFirst : part cell = turn
      · rw [foldl_outside isLocalRest _ (isFirst ▸ different.1), isFirst]
      · have later := (List.mem_cons.mp isTurn).resolve_left isFirst
        rw [separateRest isLocalRest different.2 _ later]
        apply (isLocalRest _ later).inside _ rfl
        intro other isOther
        apply isLocalFirst.outside
        rwa [isOther]

end Separate

section Swap

variable [DecidableEq Cell]

/-- The values of two cells change places. -/
def swap (memory : Cell → Value) (first second : Cell) : Cell → Value :=
  Function.update (Function.update memory first (memory second)) second (memory first)

theorem swap_apply (memory : Cell → Value) (first second cell : Cell) :
    swap memory first second cell
      = if cell = second then memory first else if cell = first then memory second
        else memory cell := by
  simp only [swap, Function.update_apply]

theorem swap_swap (memory : Cell → Value) (first second : Cell) :
    swap (swap memory first second) first second = memory := by
  funext cell
  simp only [swap_apply]
  grind

theorem swap_local {region : Cell → Prop} {first second : Cell} (isFirst : region first)
    (isSecond : region second) :
    Local region fun memory : Cell → Value => swap memory first second where
  outside {memory cell} isOutside := by
    rw [swap_apply, if_neg, if_neg]
    · rintro rfl
      exact isOutside isFirst
    · rintro rfl
      exact isOutside isSecond
  inside {memory other} agree {cell} isInside := by
    rw [swap_apply, swap_apply, agree first isFirst, agree second isSecond, agree cell isInside]

end Swap

section Range

variable {Value : Type*}

/-- A loop that fills the cells from `start` on. -/
theorem foldl_fill (value : ℕ → Value) (start count : ℕ) (memory : ℕ → Value) (cell : ℕ) :
    (List.range count).foldl (fun memory i => Function.update memory (start + i) (value i)) memory
        cell
      = if start ≤ cell ∧ cell < start + count then value (cell - start) else memory cell := by
  induction count with
  | zero => rw [if_neg (by omega), List.range_zero, List.foldl_nil]
  | succ count fillsBefore =>
      rw [List.range_succ, List.foldl_append, List.foldl_cons, List.foldl_nil,
        Function.update_apply, fillsBefore]
      by_cases isLast : cell = start + count
      · rw [if_pos isLast, if_pos (by omega), isLast, Nat.add_sub_cancel_left]
      · rw [if_neg isLast]
        apply if_congr _ rfl rfl
        omega

section Written

variable {value : (ℕ → Value) → ℕ → Value} {start count : ℕ} {memory : ℕ → Value} {cell : ℕ}

theorem foldl_written_outside (isOutside : cell < start ∨ start + count ≤ cell) :
    (List.range' start count).foldl (fun memory i => Function.update memory i (value memory i))
        memory cell
      = memory cell := by
  induction count with
  | zero => rfl
  | succ count outsideBefore =>
      rw [List.range'_1_concat, List.foldl_append, List.foldl_cons, List.foldl_nil,
        Function.update_of_ne (by omega), outsideBefore (by omega)]

/-- A loop that writes each cell once, from the cells in front of it. -/
theorem foldl_written
    (fromFront : ∀ {memory other : ℕ → Value} {i}, start ≤ i → (∀ j < i, memory j = other j) →
      value memory i = value other i)
    (isReached : start ≤ cell ∧ cell < start + count) :
    (List.range' start count).foldl (fun memory i => Function.update memory i (value memory i))
        memory cell
      = value ((List.range' start count).foldl
          (fun memory i => Function.update memory i (value memory i)) memory) cell := by
  induction count with
  | zero => omega
  | succ count writtenBefore =>
      rw [List.range'_1_concat, List.foldl_append, List.foldl_cons, List.foldl_nil]
      by_cases isLast : cell = start + count
      · rw [isLast, Function.update_self]
        apply fromFront (Nat.le_add_right start count)
        exact fun j isFront => (Function.update_of_ne (by omega) _ _).symm
      · rw [Function.update_of_ne isLast, writtenBefore (by omega)]
        apply fromFront isReached.1
        exact fun j isFront => (Function.update_of_ne (by omega) _ _).symm

end Written

/-- A loop that copies to each cell the next one. -/
theorem foldl_shift (start count : ℕ) (memory : ℕ → Value) (cell : ℕ) :
    (List.range' start count).foldl
        (fun memory i => Function.update memory i (memory (i + 1))) memory cell
      = if start ≤ cell ∧ cell < start + count then memory (cell + 1) else memory cell := by
  induction count generalizing start memory with
  | zero => rw [if_neg (by omega), List.range'_zero, List.foldl_nil]
  | succ count shiftsLater =>
      rw [List.range'_succ, List.foldl_cons, shiftsLater]
      by_cases isLater : start + 1 ≤ cell ∧ cell < start + 1 + count
      · rw [if_pos isLater, if_pos (by omega), Function.update_of_ne (by omega)]
      · rw [if_neg isLater]
        by_cases isFirst : cell = start
        · rw [if_pos (by omega), isFirst, Function.update_self]
        · rw [if_neg (by omega), Function.update_of_ne isFirst]

/-- A loop that swaps opposite cells reverses the cells it has reached. -/
theorem foldl_mirror (memory : ℕ → Value) {total count : ℕ} (atMost : 2 * count ≤ total)
    (cell : ℕ) :
    (List.range count).foldl (fun memory j => swap memory j (total - 1 - j)) memory cell
      = if cell < count ∨ total ≤ cell + count ∧ cell < total then memory (total - 1 - cell)
        else memory cell := by
  induction count generalizing cell with
  | zero => rw [if_neg (by omega), List.range_zero, List.foldl_nil]
  | succ count mirrorsBefore =>
      rw [List.range_succ, List.foldl_append, List.foldl_cons, List.foldl_nil, swap_apply]
      simp only [mirrorsBefore (by omega : 2 * count ≤ total)]
      by_cases isSecond : cell = total - 1 - count
      · rw [if_pos isSecond, if_neg (by omega), if_pos (by omega)]
        congr 1
        omega
      · rw [if_neg isSecond]
        by_cases isFirst : cell = count
        · rw [if_pos isFirst, if_neg (by omega), if_pos (by omega), isFirst]
        · rw [if_neg isFirst]
          apply if_congr _ rfl rfl
          omega

end Range

section Blocks

variable {Value : Type*}

/-- A block is written from a cell on. -/
def writeBlock (memory : ℕ → Value) (start : ℕ) (block : List Value) : ℕ → Value :=
  fun cell => if start ≤ cell then block.getD (cell - start) (memory cell) else memory cell

theorem writeBlock_outside {memory : ℕ → Value} {start cell : ℕ} {block : List Value}
    (isOutside : cell < start ∨ start + block.length ≤ cell) :
    writeBlock memory start block cell = memory cell := by
  unfold writeBlock
  split
  · exact List.getD_eq_default _ _ (by omega)
  · rfl

/-- The places of an entry are in front of the next one. -/
theorem place_lt {size count i k : ℕ} (isEntry : i < count) (isPlace : k < size) :
    size * i + k < size * count := by
  calc size * i + k < size * i + size := Nat.add_lt_add_left isPlace _
    _ = size * (i + 1) := (Nat.mul_succ size i).symm
    _ ≤ size * count := Nat.mul_le_mul_left size isEntry

section Entries

variable {block : ℕ → List Value} {size : ℕ}

theorem foldl_writeBlock_behind (short : ∀ i, (block i).length ≤ size) (memory : ℕ → Value)
    {count cell : ℕ} (isBehind : size * count ≤ cell) :
    (List.range count).foldl (fun memory i => writeBlock memory (size * i) (block i)) memory cell
      = memory cell := by
  induction count with
  | zero => rfl
  | succ count keepsBefore =>
      rw [Nat.mul_succ] at isBehind
      have fits := short count
      rw [List.range_succ, List.foldl_append, List.foldl_cons, List.foldl_nil,
        writeBlock_outside (by omega), keepsBefore (by omega)]

/-- A loop that writes a block to the front of every entry. -/
theorem foldl_writeBlock (short : ∀ i, (block i).length ≤ size) (memory : ℕ → Value)
    {count i k : ℕ} (isEntry : i < count) (isPlace : k < size) :
    (List.range count).foldl (fun memory i => writeBlock memory (size * i) (block i)) memory
        (size * i + k)
      = (block i).getD k (memory (size * i + k)) := by
  induction count with
  | zero => omega
  | succ count writesBefore =>
      rw [List.range_succ, List.foldl_append, List.foldl_cons, List.foldl_nil]
      by_cases isLast : i = count
      · rw [isLast, writeBlock, if_pos (Nat.le_add_right _ k), Nat.add_sub_cancel_left,
          foldl_writeBlock_behind short memory (Nat.le_add_right _ k)]
      · have isBefore : i < count := by omega
        rw [writeBlock_outside (.inl (place_lt isBefore isPlace)), writesBefore isBefore]

end Entries

/-- Reading a stream into memory: as much as there is, but no more than asked for. -/
def readBlock (read : (ℕ → Value) × List Value) (start size : ℕ) : (ℕ → Value) × List Value :=
  (writeBlock read.1 start (read.2.take size), read.2.drop size)

/-- Blocks that are read one behind the other are read as one. -/
theorem foldl_readBlock (size count : ℕ) (memory : ℕ → Value) (stream : List Value) :
    (List.range count).foldl (fun read i => readBlock read (size * i) size) (memory, stream)
      = readBlock (memory, stream) 0 (size * count) := by
  induction count with
  | zero =>
      rw [Nat.mul_zero, List.range_zero, List.foldl_nil, readBlock, List.take_zero, List.drop_zero,
        Prod.mk.injEq]
      exact ⟨funext fun cell => (writeBlock_outside (by simp)).symm, rfl⟩
  | succ count readsBefore =>
      rw [List.range_succ, List.foldl_append, List.foldl_cons, List.foldl_nil, readsBefore]
      simp only [readBlock, List.drop_drop, Nat.mul_succ, Prod.mk.injEq, and_true]
      funext cell
      simp only [writeBlock, Nat.zero_le, if_true, Nat.sub_zero, List.getD_eq_getElem?_getD,
        List.getElem?_take, List.getElem?_drop]
      by_cases isBefore : cell < size * count
      · rw [if_neg (by omega), if_pos isBefore, if_pos (by omega)]
      · rw [if_pos (by omega), if_neg isBefore, Option.getD_none,
          Nat.add_sub_cancel' (Nat.not_lt.mp isBefore)]
        apply congrArg (Option.getD · (memory cell))
        apply if_congr _ rfl rfl
        omega

/-- Blocks of a memory that lie one behind the other. -/
theorem flatMap_blocks (memory : ℕ → Value) (size count : ℕ) :
    ((List.range count).flatMap fun i => (List.range size).map fun k => memory (size * i + k))
      = (List.range (size * count)).map memory := by
  induction count with
  | zero => rfl
  | succ count joinsBefore =>
      rw [List.range_succ, List.flatMap_append, joinsBefore, Nat.mul_succ, List.range_add,
        List.map_append, List.map_map]
      simp only [List.flatMap_cons, List.flatMap_nil, List.append_nil]
      rfl

end Blocks

end PoETask.LocalLoops
