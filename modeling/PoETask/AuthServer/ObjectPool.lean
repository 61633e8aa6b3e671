import Mathlib.Data.Fintype.Basic
import PoETask.AuthServer.Consistency

/-!
# Concurrent allocation and release

`Storage` locks each operation on its two lists but neither `Allocate` nor `Release` as a
whole. Here any number of threads run them, one list operation at a time in any order.
An object counts as handed out from the end of its `Allocate` to the `Find` of the next
`Release` of it.

`Release` passes its `Find` and comes back to the lists later, when the object may have
been released by somebody else and even handed out again, and `Unique` drops a repeated
object only next to its copy. The condition `Orderly` asks that a late `Release` does
not put a handed out object on the free list and that every repetition there is dropped
before it matters. Under it a pool is sound in every interleaving.
-/

namespace PoETask.AuthServer

open PoETask.Library

universe u

abbrev ObjectPtr := ℕ

/-- The list operation that a call is going to perform next. -/
inductive Point where
  | count
  | popFront
  | pushBack (p : ObjectPtr)
  | unique (p : ObjectPtr)
  | find (p : ObjectPtr)
  | remove (p : ObjectPtr)
  | pushBackFree (p : ObjectPtr)
  | uniqueFree (p : ObjectPtr)
  deriving DecidableEq

/-- The two lists, the next new address, the calls in progress and the objects handed out. -/
structure Pool (Thread : Type u) where
  list : List ObjectPtr
  freelist : List ObjectPtr
  heap : ObjectPtr
  calls : Thread → Option Point
  held : List ObjectPtr

namespace Storage

theorem unique_cons (p : ObjectPtr) (rest : List ObjectPtr) :
    unique (p :: rest) = rest.destutter' (· ≠ ·) p := rfl

theorem mem_destutter' {q p : ObjectPtr} {rest : List ObjectPtr} :
    q ∈ rest.destutter' (· ≠ ·) p ↔ q = p ∨ q ∈ rest := by
  induction rest generalizing p with
  | nil => simp
  | cons other rest ih =>
      by_cases same : p = other
      · subst same
        simp only [List.destutter'_cons, ne_eq, not_true_eq_false, if_false, ih, List.mem_cons]
        tauto
      · simp only [List.destutter'_cons, ne_eq, same, not_false_eq_true, if_true, List.mem_cons, ih]

@[simp, grind =]
theorem mem_unique {q : ObjectPtr} {pointers : List ObjectPtr} :
    q ∈ unique pointers ↔ q ∈ pointers := by
  cases pointers with
  | nil => simp [unique]
  | cons p rest => simp only [unique_cons, mem_destutter', List.mem_cons]

theorem count_unique_le (q : ObjectPtr) (pointers : List ObjectPtr) :
    (unique pointers).count q ≤ pointers.count q :=
  (List.destutter_sublist _ pointers).count_le q

@[simp, grind =]
theorem unique_unique (pointers : List ObjectPtr) : unique (unique pointers) = unique pointers :=
  List.destutter_idem _ _

/-- A repeated object at the end is dropped, and nothing else changes. -/
theorem unique_append (pointers : List ObjectPtr) (p : ObjectPtr) :
    unique (pointers ++ [p]) =
      if pointers.getLast? = some p then unique pointers else unique pointers ++ [p] := by
  have appends : ∀ (rest : List ObjectPtr) (first : ObjectPtr),
      (rest ++ [p]).destutter' (· ≠ ·) first =
        if (first :: rest).getLast? = some p then rest.destutter' (· ≠ ·) first
        else rest.destutter' (· ≠ ·) first ++ [p] := by
    intro rest
    induction rest with
    | nil =>
        intro first
        by_cases same : first = p <;> simp [same]
    | cons other rest ih =>
        intro first
        by_cases same : first = other
        · subst same
          simpa [List.destutter'_cons, List.getLast?_cons_cons] using ih first
        · have step := ih other
          simp only [List.cons_append, List.destutter'_cons, ne_eq, same, not_false_eq_true, if_true,
            step, List.getLast?_cons_cons]
          split <;> rfl
  cases pointers with
  | nil => rfl
  | cons first rest => exact appends rest first

theorem nodup_unique_append {pointers : List ObjectPtr} {p : ObjectPtr}
    (nodup : (unique pointers).Nodup)
    (isLast : p ∈ pointers → pointers.getLast? = some p) : (unique (pointers ++ [p])).Nodup := by
  simp only [unique_append]
  split
  · exact nodup
  · rename_i notLast
    refine nodup_append_singleton nodup fun mem => ?_
    exact notLast (isLast (mem_unique.mp mem))

theorem nodup_unique_tail {p : ObjectPtr} {rest : List ObjectPtr}
    (nodup : (unique (p :: rest)).Nodup) (once : p ∉ rest) : (unique rest).Nodup := by
  cases rest with
  | nil => exact List.nodup_nil
  | cons other rest =>
      have different : p ≠ other := fun same => once (same ▸ List.mem_cons_self)
      simp only [unique_cons, List.destutter'_cons, if_pos different, List.nodup_cons] at nodup
      exact nodup.2

end Storage

namespace Pool

inductive Event (Thread : Type u) where
  | allocate (thread : Thread)
  | release (thread : Thread) (p : ObjectPtr)
  | proceed (thread : Thread)

variable {Thread : Type u} [DecidableEq Thread]

def goTo (pool : Pool Thread) (thread : Thread) (point : Option Point) : Pool Thread :=
  { pool with calls := Function.update pool.calls thread point }

/-- `new X`. -/
def create (pool : Pool Thread) (thread : Thread) : Pool Thread :=
  { pool with heap := pool.heap + 1 }.goTo thread (some (.pushBack pool.heap))

/-- The next list operation of a call. -/
def perform (pool : Pool Thread) (thread : Thread) : Point → Pool Thread
  | .count =>
      if 10 ≤ pool.freelist.length then
        pool.goTo thread (some .popFront)
      else
        pool.create thread
  | .popFront =>
      match pool.freelist with
      | [] => pool.create thread
      | p :: rest => { pool with freelist := rest }.goTo thread (some (.pushBack p))
  | .pushBack p => { pool with list := pool.list ++ [p] }.goTo thread (some (.unique p))
  | .unique p =>
      { pool with list := Storage.unique pool.list, held := p :: pool.held }.goTo thread none
  | .find p =>
      { pool with held := pool.held.erase p }.goTo thread
        (if p ∈ pool.list then some (.remove p) else none)
  | .remove p =>
      { pool with list := pool.list.filter (· ≠ p) }.goTo thread (some (.pushBackFree p))
  | .pushBackFree p =>
      { pool with freelist := pool.freelist ++ [p] }.goTo thread (some (.uniqueFree p))
  | .uniqueFree _ =>
      { pool with freelist := Storage.unique pool.freelist }.goTo thread none

def advance (pool : Pool Thread) : Event Thread → Option (Pool Thread)
  | .allocate thread =>
      if pool.calls thread = none then some (pool.goTo thread (some .count)) else none
  | .release thread p =>
      if pool.calls thread = none then some (pool.goTo thread (some (.find p))) else none
  | .proceed thread => (pool.calls thread).map (pool.perform thread)

def start : Pool Thread where
  list := []
  freelist := []
  heap := 0
  calls _ := none
  held := []

def system : StepSystem (Pool Thread) (Event Thread) where
  initial pool := pool = start
  step pool event next := pool.advance event = some next

/-- The thread is about to return the object from `Allocate`. -/
def Allocates (pool : Pool Thread) (thread : Thread) (p : ObjectPtr) : Prop :=
  pool.calls thread = some (.pushBack p) ∨ pool.calls thread = some (.unique p)

/-- `Release` puts an object on the free list only while nobody has it, and not behind another
object when it is there already; `Allocate` takes an object off the free list that is not on it
once more. -/
def Orderly (pool : Pool Thread) : Event Thread → Prop
  | .proceed thread =>
      match pool.calls thread with
      | some .popFront => ∀ p ∈ pool.freelist.head?, p ∉ pool.freelist.tail
      | some (.pushBackFree p) =>
          p ∉ pool.held ∧ (∀ other, ¬ pool.Allocates other p) ∧
            (p ∈ pool.freelist → pool.freelist.getLast? = some p)
      | _ => True
  | _ => True

section Frames

variable (pool : Pool Thread) (thread other : Thread) (point : Option Point) (p : ObjectPtr)

@[simp]
theorem list_goTo : (pool.goTo thread point).list = pool.list := rfl

@[simp]
theorem freelist_goTo : (pool.goTo thread point).freelist = pool.freelist := rfl

@[simp]
theorem heap_goTo : (pool.goTo thread point).heap = pool.heap := rfl

@[simp]
theorem held_goTo : (pool.goTo thread point).held = pool.held := rfl

@[simp]
theorem calls_goTo : (pool.goTo thread point).calls other =
    if other = thread then point else pool.calls other :=
  Function.update_apply _ _ _ _

end Frames

instance [Fintype Thread] (pool : Pool Thread) (thread : Thread) (p : ObjectPtr) :
    Decidable (pool.Allocates thread p) :=
  inferInstanceAs (Decidable (_ ∨ _))

instance [Fintype Thread] (pool : Pool Thread) : (event : Event Thread) →
    Decidable (pool.Orderly event)
  | .allocate _ | .release _ _ => .isTrue trivial
  | .proceed thread =>
      match atPoint : pool.calls thread with
      | some .popFront => decidable_of_iff (∀ p ∈ pool.freelist.head?, p ∉ pool.freelist.tail) (by
          simp only [Orderly, atPoint])
      | some (.pushBackFree p) => decidable_of_iff (p ∉ pool.held ∧
          (∀ other, ¬ pool.Allocates other p) ∧
            (p ∈ pool.freelist → pool.freelist.getLast? = some p)) (by
          simp only [Orderly, atPoint])
      | some .count | some (.pushBack _) | some (.unique _) | some (.find _) | some (.remove _)
      | some (.uniqueFree _) | none => .isTrue (by simp only [Orderly, atPoint])

/-- Nobody is given an object that somebody has, and the lists are clean whenever no call is in
progress. -/
structure Correct (pool : Pool Thread) : Prop where
  returns : ∀ thread p, pool.calls thread = some (.unique p) → p ∉ pool.held
  quiescent : (∀ thread, pool.calls thread = none) →
    pool.list.Nodup ∧ pool.freelist.Nodup ∧ pool.list.Disjoint pool.freelist

/-- An object belongs to one holder, to one `Allocate` on its way out or to the free list. -/
structure Sound (pool : Pool Thread) : Prop where
  one_allocates : ∀ thread other p, pool.Allocates thread p → pool.Allocates other p →
    thread = other
  not_held : ∀ thread p, pool.Allocates thread p → p ∉ pool.held
  held_nodup : pool.held.Nodup
  free_unowned : ∀ p ∈ pool.freelist, p ∉ pool.held ∧ ∀ thread, ¬ pool.Allocates thread p
  free_unique : (Storage.unique pool.freelist).Nodup
  free_nodup : (∀ thread p, pool.calls thread ≠ some (.uniqueFree p)) → pool.freelist.Nodup
  listed_owned : ∀ p ∈ pool.list, (∀ thread, pool.calls thread ≠ some (.remove p)) →
    p ∈ pool.held ∨ ∃ thread, pool.calls thread = some (.unique p)
  listed_once : ∀ p, (∀ thread, pool.calls thread ≠ some (.remove p)) → pool.list.count p ≤ 1
  list_lt : ∀ p ∈ pool.list, p < pool.heap
  held_lt : ∀ p ∈ pool.held, p < pool.heap
  allocates_lt : ∀ thread p, pool.Allocates thread p → p < pool.heap
  releases_lt : ∀ thread p, pool.calls thread = some (.remove p) ∨
    pool.calls thread = some (.pushBackFree p) → p < pool.heap
  free_lt : ∀ p ∈ pool.freelist, p < pool.heap

namespace Sound

variable {pool next : Pool Thread} {thread : Thread} {p : ObjectPtr}

omit [DecidableEq Thread] in
theorem correct (sound : pool.Sound) : pool.Correct where
  returns thread p isLast := sound.not_held thread p (.inr isLast)
  quiescent idle := by
    have nobody : ∀ thread point, pool.calls thread ≠ some point := by
      intro thread point
      simp only [idle thread, ne_eq, reduceCtorEq, not_false_eq_true]
    refine ⟨?_, sound.free_nodup fun thread p => nobody thread _, ?_⟩
    · exact List.nodup_iff_count_le_one.mpr fun p =>
        sound.listed_once p fun thread => nobody thread _
    · intro p listed free
      rcases sound.listed_owned p listed fun thread => nobody thread _ with held | ⟨thread, isLast⟩
      · exact (sound.free_unowned p free).1 held
      · exact nobody thread _ isLast

theorem goTo (sound : pool.Sound) {point : Option Point}
    (enters : point = some .count ∨ point = some .popFront ∨ ∃ q, point = some (.find q))
    (leaves : pool.calls thread = none ∨ pool.calls thread = some .count) :
    (pool.goTo thread point).Sound := by
  rcases sound with ⟨one_allocates, not_held, held_nodup, free_unowned, free_unique, free_nodup,
    listed_owned, listed_once, list_lt, held_lt, allocates_lt, releases_lt, free_lt⟩
  constructor
  all_goals
    simp only [Allocates, list_goTo, freelist_goTo, heap_goTo, held_goTo, calls_goTo] at *
    grind

/-- A new object has an address that nobody knows. -/
theorem create (sound : pool.Sound)
    (leaves : pool.calls thread = some .count ∨ pool.calls thread = some .popFront) :
    (pool.create thread).Sound := by
  rcases sound with ⟨one_allocates, not_held, held_nodup, free_unowned, free_unique, free_nodup,
    listed_owned, listed_once, list_lt, held_lt, allocates_lt, releases_lt, free_lt⟩
  constructor
  all_goals
    simp only [Pool.create, Allocates, list_goTo, freelist_goTo, heap_goTo, held_goTo,
      calls_goTo] at *
    grind

theorem popFront {rest : List ObjectPtr} (sound : pool.Sound)
    (leaves : pool.calls thread = some .popFront) (isFree : pool.freelist = p :: rest)
    (once : p ∉ rest) :
    ({ pool with freelist := rest }.goTo thread (some (.pushBack p))).Sound := by
  have unowned := sound.free_unowned p (isFree ▸ List.mem_cons_self)
  have tail := Storage.nodup_unique_tail (isFree ▸ sound.free_unique) once
  rcases sound with ⟨one_allocates, not_held, held_nodup, free_unowned, free_unique, free_nodup,
    listed_owned, listed_once, list_lt, held_lt, allocates_lt, releases_lt, free_lt⟩
  constructor
  case free_unique => exact tail
  all_goals
    simp only [Allocates, list_goTo, freelist_goTo, heap_goTo, held_goTo, calls_goTo] at *
    grind

/-- The object is not in the live list yet, since there it would have to belong to somebody
else. -/
theorem pushBack (sound : pool.Sound) (leaves : pool.calls thread = some (.pushBack p)) :
    ({ pool with list := pool.list ++ [p] }.goTo thread (some (.unique p))).Sound := by
  have notHeld := sound.not_held thread p (.inl leaves)
  have unlisted : (∀ other, pool.calls other ≠ some (.remove p)) → p ∉ pool.list := by
    intro noRemove listed
    rcases sound.listed_owned p listed noRemove with held | ⟨other, isLast⟩
    · exact notHeld held
    · obtain rfl := sound.one_allocates thread other p (.inl leaves) (.inr isLast)
      simp [leaves] at isLast
  rcases sound with ⟨one_allocates, not_held, held_nodup, free_unowned, free_unique, free_nodup,
    listed_owned, listed_once, list_lt, held_lt, allocates_lt, releases_lt, free_lt⟩
  constructor
  all_goals
    simp only [Allocates, list_goTo, freelist_goTo, heap_goTo, held_goTo, calls_goTo] at *
    grind

theorem unique (sound : pool.Sound) (leaves : pool.calls thread = some (.unique p)) :
    ({ pool with list := Storage.unique pool.list, held := p :: pool.held }.goTo thread
      none).Sound := by
  have notHeld := sound.not_held thread p (.inr leaves)
  have count_le := fun q => Storage.count_unique_le q pool.list
  rcases sound with ⟨one_allocates, not_held, held_nodup, free_unowned, free_unique, free_nodup,
    listed_owned, listed_once, list_lt, held_lt, allocates_lt, releases_lt, free_lt⟩
  constructor
  all_goals
    simp only [Allocates, list_goTo, freelist_goTo, heap_goTo, held_goTo, calls_goTo] at *
    grind

theorem find (sound : pool.Sound) (leaves : pool.calls thread = some (.find p)) :
    ({ pool with held := pool.held.erase p }.goTo thread
      (if p ∈ pool.list then some (.remove p) else none)).Sound := by
  rcases sound with ⟨one_allocates, not_held, held_nodup, free_unowned, free_unique, free_nodup,
    listed_owned, listed_once, list_lt, held_lt, allocates_lt, releases_lt, free_lt⟩
  constructor
  all_goals
    simp only [Allocates, list_goTo, freelist_goTo, heap_goTo, held_goTo, calls_goTo] at *
    grind

theorem remove (sound : pool.Sound) (leaves : pool.calls thread = some (.remove p)) :
    ({ pool with list := pool.list.filter (· ≠ p) }.goTo thread (some (.pushBackFree p))).Sound := by
  have removed : (pool.list.filter (· ≠ p)).count p = 0 :=
    List.count_eq_zero.mpr fun mem => by simp at mem
  have count_le := fun q => (List.filter_sublist (p := (· ≠ p)) (l := pool.list)).count_le q
  rcases sound with ⟨one_allocates, not_held, held_nodup, free_unowned, free_unique, free_nodup,
    listed_owned, listed_once, list_lt, held_lt, allocates_lt, releases_lt, free_lt⟩
  constructor
  all_goals
    simp only [Allocates, list_goTo, freelist_goTo, heap_goTo, held_goTo, calls_goTo] at *
    grind

theorem pushBackFree (sound : pool.Sound) (leaves : pool.calls thread = some (.pushBackFree p))
    (notHeld : p ∉ pool.held) (notAllocated : ∀ other, ¬ pool.Allocates other p)
    (isLast : p ∈ pool.freelist → pool.freelist.getLast? = some p) :
    ({ pool with freelist := pool.freelist ++ [p] }.goTo thread (some (.uniqueFree p))).Sound := by
  have appended := Storage.nodup_unique_append sound.free_unique isLast
  rcases sound with ⟨one_allocates, not_held, held_nodup, free_unowned, free_unique, free_nodup,
    listed_owned, listed_once, list_lt, held_lt, allocates_lt, releases_lt, free_lt⟩
  constructor
  case free_unique => exact appended
  case free_nodup => exact fun noUnique => absurd (by simp) (noUnique thread p)
  all_goals
    simp only [Allocates, list_goTo, freelist_goTo, heap_goTo, held_goTo, calls_goTo] at *
    grind

theorem uniqueFree (sound : pool.Sound) (leaves : pool.calls thread = some (.uniqueFree p)) :
    ({ pool with freelist := Storage.unique pool.freelist }.goTo thread none).Sound := by
  rcases sound with ⟨one_allocates, not_held, held_nodup, free_unowned, free_unique, free_nodup,
    listed_owned, listed_once, list_lt, held_lt, allocates_lt, releases_lt, free_lt⟩
  constructor
  all_goals
    simp only [Allocates, list_goTo, freelist_goTo, heap_goTo, held_goTo, calls_goTo] at *
    grind

/-- One list operation of one call, when the free list is dealt with in order. -/
theorem perform {point : Point} (sound : pool.Sound) (leaves : pool.calls thread = some point)
    (orderly : pool.Orderly (.proceed thread)) : (pool.perform thread point).Sound := by
  simp only [Orderly, leaves] at orderly
  cases point with
  | count =>
      simp only [Pool.perform]
      split
      · exact sound.goTo (.inr (.inl rfl)) (.inr leaves)
      · exact sound.create (.inl leaves)
  | popFront =>
      simp only [Pool.perform]
      split
      · exact sound.create (.inr leaves)
      · rename_i p rest isFree
        simp only [isFree, List.head?_cons, Option.mem_some_iff, List.tail_cons] at orderly
        exact sound.popFront leaves isFree (orderly p rfl)
  | pushBack p => exact sound.pushBack leaves
  | unique p => exact sound.unique leaves
  | find p => exact sound.find leaves
  | remove p => exact sound.remove leaves
  | pushBackFree p => exact sound.pushBackFree leaves orderly.1 orderly.2.1 orderly.2.2
  | uniqueFree p => exact sound.uniqueFree leaves

theorem advance {event : Event Thread} (sound : pool.Sound) (orderly : pool.Orderly event)
    (moves : pool.advance event = some next) : next.Sound := by
  cases event with
  | allocate thread =>
      simp only [Pool.advance, Option.ite_none_right_eq_some, Option.some.injEq] at moves
      rcases moves with ⟨idle, rfl⟩
      exact sound.goTo (.inl rfl) (.inl idle)
  | release thread p =>
      simp only [Pool.advance, Option.ite_none_right_eq_some, Option.some.injEq] at moves
      rcases moves with ⟨idle, rfl⟩
      exact sound.goTo (.inr (.inr ⟨p, rfl⟩)) (.inl idle)
  | proceed thread =>
      rcases Option.map_eq_some_iff.mp moves with ⟨point, leaves, rfl⟩
      exact sound.perform leaves orderly

omit [DecidableEq Thread] in
theorem start : (Pool.start : Pool Thread).Sound := by
  constructor <;> simp [Pool.start, Allocates, Storage.unique]

end Sound

/-- In every interleaving that deals with the free list in order, `Allocate` never returns an
object that is handed out, and between the calls the lists are duplicate-free and disjoint. -/
theorem pool_correct {pool : Pool Thread} (reached : (system.restrict Orderly).Reachable pool) :
    pool.Correct := by
  have invariant : ((system : StepSystem (Pool Thread) (Event Thread)).restrict Orderly).Invariant
      Sound :=
    { initial := fun pool isStart => isStart ▸ .start
      step := fun pool event next sound moves => sound.advance moves.1 moves.2 }
  exact (invariant.of_reachable reached).correct

section Runs

variable {Thread : Type}

/-- A whole call of `Allocate` that creates an object. -/
def allocation (thread : Thread) : List (Event Thread) :=
  .allocate thread :: List.replicate 3 (.proceed thread)

/-- A whole call of `Release`. -/
def deallocation (thread : Thread) (p : ObjectPtr) : List (Event Thread) :=
  .release thread p :: List.replicate 4 (.proceed thread)

end Runs

/-- Two threads release the same object, one of them while it is about to be removed by the
other; then it is released once more and the tenth object on the free list makes the next
`Allocate` hand the first one out again. -/
theorem pool_correct_recycled : ∃ pool : Pool (Fin 2),
    (system.restrict Orderly).Reachable pool ∧ pool.Correct ∧
      pool.held = [0] ∧ pool.freelist = [1, 2, 3, 4, 5, 6, 7, 8, 9] ∧ pool.list = [0] := by
  let events : List (Event (Fin 2)) := (List.replicate 10 (allocation 0)).flatten ++
    [.release 0 0, .proceed 0, .release 1 0, .proceed 1, .proceed 1, .proceed 1, .proceed 0,
      .proceed 0, .proceed 0, .proceed 1] ++
    (List.range 9).flatMap (fun i => deallocation 1 (i + 1)) ++
    .allocate 0 :: List.replicate 4 (.proceed 0)
  have ends : (StepSystem.play advance Orderly start events).map (fun pool =>
      (pool.held, pool.freelist, pool.list)) =
        some ([0], [1, 2, 3, 4, 5, 6, 7, 8, 9], [0]) := by
    decide +kernel
  rcases Option.map_eq_some_iff.mp ends with ⟨pool, plays, records⟩
  have reached : (system.restrict Orderly).Reachable pool :=
    StepSystem.reachable_play (.initial rfl) (fun _ _ _ isAllowed moves => ⟨isAllowed, moves⟩) plays
  simp only [Prod.mk.injEq] at records
  exact ⟨pool, reached, pool_correct reached, records⟩

/-- The thread 1 has found the object 0 when the thread 2 releases it and the thread 3 is given it
again. The thread 1 then goes on and puts it on the free list a second time, where the thread 13
finds it. -/
def handedOutTwice : List (Event ℕ) :=
  (List.replicate 10 (allocation 0)).flatten ++ [.release 1 0, .proceed 1] ++ deallocation 2 0 ++
    (List.range 9).flatMap (fun i => deallocation 0 (i + 1)) ++
    (List.range 11).flatMap (fun i => [.allocate (i + 3), .proceed (i + 3)]) ++
    List.replicate 3 (.proceed 3) ++ List.replicate 2 (.proceed 1) ++
    (List.range 9).map (fun i => .proceed (i + 4)) ++ List.replicate 2 (.proceed 13)

/-- The thread 1 is overtaken by a whole release of the same object and by one of another. -/
def repeatedOnFreelist : List (Event (Fin 2)) :=
  allocation 0 ++ allocation 0 ++ [.release 1 0, .proceed 1] ++ deallocation 0 0 ++
    deallocation 0 1 ++ List.replicate 3 (.proceed 1)

/-- `Allocate` returns an object that is handed out, and an object is left on the free list
twice. -/
theorem pool_incorrect :
    (∃ pool : Pool ℕ, system.Reachable pool ∧ pool.calls 13 = some (.unique 0) ∧ 0 ∈ pool.held) ∧
      ∃ pool : Pool (Fin 2), system.Reachable pool ∧ (∀ thread, pool.calls thread = none) ∧
        pool.freelist = [0, 1, 0] := by
  constructor
  · have ends : (StepSystem.play advance (fun _ _ => True) start handedOutTwice).map (fun pool =>
        (pool.calls 13, pool.held)) = some (some (.unique 0), [0]) := by
      decide +kernel
    rcases Option.map_eq_some_iff.mp ends with ⟨pool, plays, records⟩
    simp only [Prod.mk.injEq] at records
    refine ⟨pool, StepSystem.reachable_play (.initial rfl) (fun _ _ _ _ moves => moves) plays,
      records.1, ?_⟩
    simp [records.2]
  · have ends : (StepSystem.play advance (fun _ _ => True) start repeatedOnFreelist).map
        (fun pool => (pool.calls 0, pool.calls 1, pool.freelist)) = some (none, none, [0, 1, 0]) := by
      decide +kernel
    rcases Option.map_eq_some_iff.mp ends with ⟨pool, plays, records⟩
    simp only [Prod.mk.injEq] at records
    refine ⟨pool, StepSystem.reachable_play (.initial rfl) (fun _ _ _ _ moves => moves) plays, ?_,
      records.2.2⟩
    simp [Fin.forall_fin_two, records]

end Pool

end PoETask.AuthServer
