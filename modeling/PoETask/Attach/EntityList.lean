import PoETask.Attach.LinkedLists
import PoETask.Library.GraphSearch

/-!
# The entities of the game

`UpdateEntities` walks the map of the entities in the memory of the game with a queue and collects
the entities of its nodes. The list of the collected ids is searched but never filled. Every entity
is read with `Entity::Update`, which follows the list of its components.
-/

namespace PoETask.Attach

open GraphSearch

structure Entity where
  address : UInt64
  id : UInt32
  deriving DecidableEq

namespace Memory

variable (memory : Memory)

/-- The id at `DATA_OFFSET_ENTITY_ID`. -/
def getID (addr : UInt64) : UInt32 := memory.dword (addr + 0x50)

/-- The entity at an address. -/
def entity (addr : UInt64) : Entity where
  address := addr
  id := memory.getID addr

end Memory

/-- `Entity::Update`, which reads the components first; none when their list does not end within
the turns. -/
def TextMemory.updateEntity (memory : TextMemory) (turns : ℕ) (addr : UInt64) : Option Entity :=
  (memory.getComponents addr turns).map fun _ => memory.entity addr

/-- The variables of the loop. -/
structure Collection where
  hashSet : List UInt64
  queuePtr : List UInt64
  ids : List UInt32
  entityCache : List Entity
  deriving DecidableEq

namespace TextMemory

variable (memory : TextMemory) (listPtr : UInt64)

/-- One turn of the loop, after `nextAddr` was taken from the queue; none when the list of an
entity does not end within the limit. -/
def collectNode (limit : ℕ) (nextAddr : UInt64) (collection : Collection) : Option Collection :=
  if nextAddr ∈ collection.hashSet then some collection
  else
    let collection := { collection with hashSet := collection.hashSet ++ [nextAddr] }
    if nextAddr ≠ listPtr ∧ nextAddr ≠ 0 then
      let collection :=
        { collection with
          queuePtr := collection.queuePtr ++ [memory.previous nextAddr, memory.next nextAddr] }
      let address := memory.pointer (nextAddr + 0x28)
      if address = 0 then some collection
      else if memory.getID address ∈ collection.ids then some collection
      else
        (memory.updateEntity limit address).map fun entity =>
          { collection with entityCache := collection.entityCache ++ [entity] }
    else some collection

/-- The loop; none when it does not end within the turns. -/
def collectEntities (limit : ℕ) : ℕ → Collection → Option Collection
  | 0, _ => none
  | turns + 1, collection =>
      match collection.queuePtr with
      | [] => some collection
      | nextAddr :: queuePtr =>
          (memory.collectNode listPtr limit nextAddr { collection with queuePtr }).bind
            (collectEntities limit turns)

/-- The addresses in `hashSet` and the entities in `entityCache` at the end. -/
def updateEntities (entityListPtr : UInt64) (turns : ℕ) : Option (List UInt64 × List Entity) :=
  if entityListPtr = 0 ∨ memory.pointer entityListPtr = 0 then some ([], [])
  else
    let listPtr := memory.pointer entityListPtr
    (memory.collectEntities listPtr turns turns
      { hashSet := [], queuePtr := [memory.root listPtr], ids := [], entityCache := [] }).map
        fun collection => (collection.hashSet, collection.entityCache)

end TextMemory

namespace Memory

variable (memory : Memory) (listPtr : UInt64)

/-- A node of the map links its two neighbours; the head and the null address link nothing. -/
def Links (node next : UInt64) : Prop :=
  (node ≠ listPtr ∧ node ≠ 0) ∧ (next = memory.previous node ∨ next = memory.next node)

/-- The entity of a node, if it is a node of the map and has one. -/
def entityAt (node : UInt64) : Option Entity :=
  if node ≠ listPtr ∧ node ≠ 0 then
    if memory.pointer (node + 0x28) = 0 then none
    else some (memory.entity (memory.pointer (node + 0x28)))
  else none

/-- The addresses that the links reach from the root. -/
def Reaches (entityListPtr node : UInt64) : Prop :=
  (entityListPtr ≠ 0 ∧ memory.pointer entityListPtr ≠ 0)
    ∧ Relation.ReflTransGen (memory.Links (memory.pointer entityListPtr))
      (memory.root (memory.pointer entityListPtr)) node

/-- A reachable node has an entity with the id. -/
def FoundAt (entityListPtr node : UInt64) (id : UInt32) : Prop :=
  memory.Reaches entityListPtr node
    ∧ ∃ entity, memory.entityAt (memory.pointer entityListPtr) node = some entity ∧ entity.id = id

/-- No id is found at two reachable nodes. -/
def DifferentIds (entityListPtr : UInt64) : Prop :=
  ∀ node other id, memory.FoundAt entityListPtr node id → memory.FoundAt entityListPtr other id →
    node = other

end Memory

namespace TextMemory

variable (memory : TextMemory) (listPtr : UInt64)

/-- The list of the components of the entity of a node ends, if there is one. -/
def EndsAt (node : UInt64) : Prop :=
  ∀ entity, memory.entityAt listPtr node = some entity → memory.ComponentsEnd entity.address

/-- The lists of the components of all entities end. -/
def ListsEnd (entityListPtr : UInt64) : Prop :=
  ∀ node, memory.Reaches entityListPtr node → memory.EndsAt (memory.pointer entityListPtr) node

/-- The walk ends, every reachable address is visited once, and every id that is found is collected
once. -/
def CollectsOnce (entityListPtr : UInt64) : Prop :=
  ∃ hashSet entityCache,
    (∀ turns, 2 ^ 65 + 2 ≤ turns →
      memory.updateEntities entityListPtr turns = some (hashSet, entityCache))
    ∧ (hashSet.Nodup ∧ ∀ node, node ∈ hashSet ↔ memory.Reaches entityListPtr node)
    ∧ (entityCache.map Entity.id).Nodup
    ∧ ∀ id, id ∈ entityCache.map Entity.id ↔ ∃ node, memory.FoundAt entityListPtr node id

end TextMemory

/-- What the loop knows between two turns. -/
structure Collecting (memory : TextMemory) (listPtr : UInt64) (collection : Collection) : Prop where
  queued : Queued (memory.Links listPtr) (memory.root listPtr) collection.queuePtr
    collection.hashSet
  visitedOnce : collection.hashSet.Nodup
  noIds : collection.ids = []
  collected : collection.entityCache = collection.hashSet.filterMap (memory.entityAt listPtr)
  ended : ∀ node ∈ collection.hashSet, memory.EndsAt listPtr node

theorem Collecting.init {memory : TextMemory} {listPtr : UInt64} : Collecting memory listPtr
    { hashSet := [], queuePtr := [memory.root listPtr], ids := [], entityCache := [] } where
  queued := .init
  visitedOnce := .nil
  noIds := rfl
  collected := rfl
  ended _ impossible := absurd impossible List.not_mem_nil

/-- The turns that are left: an address leaves the queue once, and enters it twice at most for each
address that was not visited. -/
def Collection.remaining (collection : Collection) : ℕ :=
  collection.queuePtr.length + 2 * (2 ^ 64 - collection.hashSet.length)

namespace TextMemory

/-- What a turn with a new address makes of the variables. -/
def visited (memory : TextMemory) (listPtr nextAddr : UInt64) (found : List UInt64)
    (collection : Collection) : Collection where
  hashSet := collection.hashSet ++ [nextAddr]
  queuePtr := collection.queuePtr ++ found
  ids := []
  entityCache := collection.entityCache ++ [nextAddr].filterMap (memory.entityAt listPtr)

/-- What a turn does with a new address: it reads the entity there, if there is one. -/
theorem collectNode_new (memory : TextMemory) (listPtr : UInt64) {nextAddr : UInt64}
    (collection : Collection) (isNew : nextAddr ∉ collection.hashSet)
    (noIds : collection.ids = []) :
    ∃ found, (∀ next, memory.Links listPtr nextAddr next ↔ next ∈ found) ∧ found.length ≤ 2 ∧
      ∀ limit, memory.collectNode listPtr limit nextAddr collection =
        (memory.entityAt listPtr nextAddr).elim
          (some (memory.visited listPtr nextAddr found collection)) fun entity =>
            (memory.getComponents entity.address limit).map fun _ =>
              memory.visited listPtr nextAddr found collection := by
  by_cases isNode : nextAddr ≠ listPtr ∧ nextAddr ≠ 0
  · refine ⟨[memory.previous nextAddr, memory.next nextAddr], ?_, le_rfl, ?_⟩
    · intro next
      simp only [Memory.Links, isNode, ne_eq, not_false_eq_true, and_self, true_and,
        List.mem_cons, List.not_mem_nil, or_false]
    · intro limit
      simp only [visited, collectNode, if_neg isNew, if_pos isNode, Memory.entityAt, noIds,
        List.not_mem_nil, if_false, List.filterMap_cons, List.filterMap_nil, updateEntity]
      by_cases noEntity : memory.pointer (nextAddr + 0x28) = 0
      · simp only [if_pos noEntity, List.append_nil, Option.elim_none]
      · simp only [if_neg noEntity, Option.map_map, Option.elim_some]
        rfl
  · refine ⟨[], ?_, Nat.zero_le _, ?_⟩
    · intro next
      simp only [Memory.Links, isNode, false_and, List.not_mem_nil]
    · intro limit
      simp only [visited, collectNode, if_neg isNew, if_neg isNode, Memory.entityAt,
        List.filterMap_cons, List.filterMap_nil, List.append_nil, ← noIds, Option.elim_none]

end TextMemory

namespace Collecting

variable {memory : TextMemory} {listPtr nextAddr : UInt64} {collection : Collection}
  {queuePtr : List UInt64}

/-- A turn keeps what the loop knows, and fewer turns are left; it comes to its end if the list of
the entity does. -/
theorem collectNode (collecting : Collecting memory listPtr collection)
    (isNext : collection.queuePtr = nextAddr :: queuePtr) :
    ∃ later : Collection, later.remaining < collection.remaining ∧
      (memory.EndsAt listPtr nextAddr → Collecting memory listPtr later ∧ ∀ limit, 2 ^ 64 < limit →
        memory.collectNode listPtr limit nextAddr { collection with queuePtr } = some later) ∧
      ∀ limit other,
        memory.collectNode listPtr limit nextAddr { collection with queuePtr } = some other →
          other = later ∧ Collecting memory listPtr later := by
  have queued := collecting.queued
  rw [isNext] at queued
  by_cases isVisited : nextAddr ∈ collection.hashSet
  · have skips : ∀ limit, memory.collectNode listPtr limit nextAddr { collection with queuePtr } =
        some { collection with queuePtr } := fun _ => if_pos isVisited
    have kept : Collecting memory listPtr { collection with queuePtr } :=
      ⟨queued.skip isVisited, collecting.visitedOnce, collecting.noIds, collecting.collected,
        collecting.ended⟩
    refine ⟨{ collection with queuePtr }, ?_, fun _ => ⟨kept, fun limit _ => skips limit⟩, ?_⟩
    · simp only [Collection.remaining, isNext, List.length_cons]
      omega
    · intro limit other isOther
      rw [skips] at isOther
      exact ⟨(Option.some.inj isOther).symm, kept⟩
  · rcases memory.collectNode_new listPtr { collection with queuePtr } isVisited collecting.noIds
      with ⟨found, links, atMost, visits⟩
    have visitedOnce : (collection.hashSet ++ [nextAddr]).Nodup := by
      rw [← List.concat_eq_append]
      exact collecting.visitedOnce.concat isVisited
    have kept : memory.EndsAt listPtr nextAddr → Collecting memory listPtr
        (memory.visited listPtr nextAddr found { collection with queuePtr }) := by
      intro ends
      refine ⟨queued.visit fun {next} => links next, visitedOnce, rfl, ?_, ?_⟩
      · rw [TextMemory.visited, List.filterMap_append, ← collecting.collected]
      · intro node isNode
        rcases List.mem_append.mp isNode with before | isNew
        · exact collecting.ended node before
        · exact List.mem_singleton.mp isNew ▸ ends
    refine ⟨memory.visited listPtr nextAddr found { collection with queuePtr }, ?_, ?_, ?_⟩
    · have inSpace := length_le_of_nodup visitedOnce
      simp only [TextMemory.visited, Collection.remaining, isNext, List.length_cons,
        List.length_append, List.length_nil] at inSpace ⊢
      omega
    · intro ends
      refine ⟨kept ends, fun limit enough => ?_⟩
      rw [visits]
      cases isEntity : memory.entityAt listPtr nextAddr with
      | none => rfl
      | some entity =>
          rcases Option.isSome_iff_exists.mp ((ends entity isEntity).isSome enough) with
            ⟨dictionary, read⟩
          rw [Option.elim_some, read, Option.map_some]
    · intro limit other isOther
      rw [visits] at isOther
      cases isEntity : memory.entityAt listPtr nextAddr with
      | none =>
          rw [isEntity, Option.elim_none] at isOther
          have ends : memory.EndsAt listPtr nextAddr := by
            intro entity impossible
            rw [isEntity] at impossible
            cases impossible
          exact ⟨(Option.some.inj isOther).symm, kept ends⟩
      | some entity =>
          rw [isEntity, Option.elim_some, Option.map_eq_some_iff] at isOther
          rcases isOther with ⟨dictionary, read, same⟩
          have ends : memory.EndsAt listPtr nextAddr := by
            intro same isSame
            rw [isEntity, Option.some.injEq] at isSame
            rw [← isSame]
            exact TextMemory.componentsEnd_of_isSome (Option.isSome_iff_exists.mpr ⟨_, read⟩)
          exact ⟨same.symm, kept ends⟩

/-- With enough turns the loop ends, with an empty queue, if all lists of components end. -/
theorem collectEntities {turns : ℕ} (collecting : Collecting memory listPtr collection)
    (listsEnd : ∀ node, Relation.ReflTransGen (memory.Links listPtr) (memory.root listPtr) node →
      memory.EndsAt listPtr node) (enough : collection.remaining < turns) :
    ∃ final, Collecting memory listPtr final ∧ final.queuePtr = [] ∧
      ∀ limit, 2 ^ 64 < limit → ∀ more, turns ≤ more →
        memory.collectEntities listPtr limit more collection = some final := by
  induction turns generalizing collection with
  | zero => exact absurd enough (Nat.not_lt_zero _)
  | succ turns endsRest =>
      cases isQueue : collection.queuePtr with
      | nil =>
          refine ⟨collection, collecting, isQueue, ?_⟩
          intro limit _ more atLeast
          rcases Nat.exists_eq_add_of_le' atLeast with ⟨rest, rfl⟩
          rw [← Nat.add_assoc, TextMemory.collectEntities, isQueue]
      | cons nextAddr queuePtr =>
          rcases collecting.collectNode isQueue with ⟨later, isLess, ends, -⟩
          have reachable : nextAddr ∈ collection.queuePtr ++ collection.hashSet := by
            rw [isQueue]
            exact List.mem_append_left _ List.mem_cons_self
          rcases ends (listsEnd nextAddr (collecting.queued.reachable reachable)) with
            ⟨collectingLater, turnEnds⟩
          rcases endsRest collectingLater (by omega) with ⟨final, collectingFinal, isEmpty, ends⟩
          refine ⟨final, collectingFinal, isEmpty, ?_⟩
          intro limit isLimit more atLeast
          rcases Nat.exists_eq_add_of_le' atLeast with ⟨rest, rfl⟩
          rw [← Nat.add_assoc, TextMemory.collectEntities, isQueue]
          simp only [turnEnds limit isLimit, Option.bind_some]
          exact ends limit isLimit (rest + turns) (Nat.le_add_left _ _)

/-- When the loop has ended, the queue is empty. -/
theorem of_collectEntities {limit turns : ℕ} {final : Collection}
    (collecting : Collecting memory listPtr collection)
    (ends : memory.collectEntities listPtr limit turns collection = some final) :
    Collecting memory listPtr final ∧ final.queuePtr = [] := by
  induction turns generalizing collection with
  | zero => cases ends
  | succ turns ih =>
      cases isQueue : collection.queuePtr with
      | nil =>
          rw [TextMemory.collectEntities, isQueue] at ends
          cases ends
          exact ⟨collecting, isQueue⟩
      | cons nextAddr queuePtr =>
          rw [TextMemory.collectEntities, isQueue] at ends
          rcases Option.bind_eq_some_iff.mp ends with ⟨other, turnEnds, rest⟩
          rcases collecting.collectNode isQueue with ⟨later, -, -, isLater⟩
          rcases isLater limit other turnEnds with ⟨rfl, kept⟩
          exact ih kept rest

end Collecting

namespace TextMemory

variable {memory : TextMemory} {entityListPtr : UInt64}

/-- If all lists of components end, the walk does, every reachable address is visited once, and the
entities of all of them are collected. -/
theorem updateEntities_visits (listsEnd : memory.ListsEnd entityListPtr) :
    ∃ hashSet : List UInt64,
      (∀ turns, 2 ^ 65 + 2 ≤ turns → memory.updateEntities entityListPtr turns
        = some (hashSet, hashSet.filterMap (memory.entityAt (memory.pointer entityListPtr))))
      ∧ hashSet.Nodup ∧ ∀ node, node ∈ hashSet ↔ memory.Reaches entityListPtr node := by
  by_cases isNull : entityListPtr = 0 ∨ memory.pointer entityListPtr = 0
  · refine ⟨[], ?_, .nil, ?_⟩
    · intro turns _
      exact if_pos isNull
    · intro node
      simp only [List.not_mem_nil, Memory.Reaches, ne_eq, ← not_or, isNull, not_true_eq_false,
        false_and]
  · have enough : (Collection.mk [] [memory.root (memory.pointer entityListPtr)] [] []).remaining
        < 2 ^ 65 + 2 := by
      simp only [Collection.remaining, List.length_cons, List.length_nil]
      omega
    have endsAt := fun node reaches => listsEnd node ⟨not_or.mp isNull, reaches⟩
    rcases Collecting.init.collectEntities endsAt enough with ⟨final, collecting, isEmpty, ends⟩
    refine ⟨final.hashSet, ?_, collecting.visitedOnce, ?_⟩
    · intro turns atLeast
      simp only [updateEntities, if_neg isNull, ends turns (by omega) turns atLeast,
        Option.map_some, collecting.collected]
    · intro node
      have queued := collecting.queued
      rw [isEmpty] at queued
      rw [queued.mem_visited_iff, Memory.Reaches, and_iff_right (not_or.mp isNull)]

/-- When the walk has ended, so have all lists of components. -/
theorem listsEnd_of_updateEntities {turns : ℕ} {result : List UInt64 × List Entity}
    (ends : memory.updateEntities entityListPtr turns = some result) :
    memory.ListsEnd entityListPtr := by
  rintro node ⟨notNull, reaches⟩
  rw [updateEntities, if_neg (not_or.mpr notNull), Option.map_eq_some_iff] at ends
  rcases ends with ⟨final, collected, -⟩
  rcases Collecting.init.of_collectEntities collected with ⟨collecting, isEmpty⟩
  have queued := collecting.queued
  rw [isEmpty] at queued
  exact collecting.ended node (queued.mem_visited_iff.mpr reaches)

/-- The ids of the entities are different exactly if no two addresses have the same. -/
theorem nodup_ids_iff {hashSet : List UInt64} (visitedOnce : hashSet.Nodup)
    (visited : ∀ node, node ∈ hashSet ↔ memory.Reaches entityListPtr node) :
    ((hashSet.filterMap (memory.entityAt (memory.pointer entityListPtr))).map Entity.id).Nodup
      ↔ memory.DifferentIds entityListPtr := by
  rw [List.Nodup, List.pairwise_map, List.pairwise_filterMap]
  constructor
  · rintro different node other id ⟨reaches, entity, isEntity, isId⟩
      ⟨reachesOther, otherEntity, isOtherEntity, isOtherId⟩
    by_contra notEqual
    have symmetric : Std.Symm fun node other => ∀ entity,
        memory.entityAt (memory.pointer entityListPtr) node = some entity → ∀ otherEntity,
        memory.entityAt (memory.pointer entityListPtr) other = some otherEntity →
        entity.id ≠ otherEntity.id :=
      ⟨fun _ _ isPair _ isFirst _ isSecond => (isPair _ isSecond _ isFirst).symm⟩
    have isDifferent := different.forall ((visited node).mpr reaches)
      ((visited other).mpr reachesOther) notEqual
    exact isDifferent entity isEntity otherEntity isOtherEntity (isId.trans isOtherId.symm)
  · intro differentIds
    apply visitedOnce.pairwise_of_forall_ne
    intro node isNode other isOther notEqual entity isEntity otherEntity isOtherEntity sameId
    apply notEqual
    exact differentIds node other entity.id ⟨(visited node).mp isNode, entity, isEntity, rfl⟩
      ⟨(visited other).mp isOther, otherEntity, isOtherEntity, sameId.symm⟩

theorem mem_ids_iff {hashSet : List UInt64}
    (visited : ∀ node, node ∈ hashSet ↔ memory.Reaches entityListPtr node) (id : UInt32) :
    id ∈ (hashSet.filterMap (memory.entityAt (memory.pointer entityListPtr))).map Entity.id
      ↔ ∃ node, memory.FoundAt entityListPtr node id := by
  simp only [List.mem_map, List.mem_filterMap, Memory.FoundAt]
  constructor
  · rintro ⟨entity, ⟨node, isNode, isEntity⟩, isId⟩
    exact ⟨node, (visited node).mp isNode, entity, isEntity, isId⟩
  · rintro ⟨node, reaches, entity, isEntity, isId⟩
    exact ⟨entity, ⟨node, (visited node).mpr reaches, isEntity⟩, isId⟩

theorem CollectsOnce.listsEnd (collectsOnce : memory.CollectsOnce entityListPtr) :
    memory.ListsEnd entityListPtr := by
  rcases collectsOnce with ⟨hashSet, entityCache, ends, -⟩
  exact listsEnd_of_updateEntities (ends _ le_rfl)

theorem CollectsOnce.differentIds (collectsOnce : memory.CollectsOnce entityListPtr) :
    memory.DifferentIds entityListPtr := by
  rcases updateEntities_visits collectsOnce.listsEnd with ⟨_, visits, visitedOnce, visited⟩
  rcases collectsOnce with ⟨hashSet, entityCache, ends, _, different, _⟩
  have isResult := (ends _ le_rfl).symm.trans (visits _ le_rfl)
  simp only [Option.some.injEq, Prod.mk.injEq] at isResult
  rw [isResult.2] at different
  exact (nodup_ids_iff visitedOnce visited).mp different

/-- The ids are collected once exactly when they are different and the lists of components of all
entities end. -/
theorem updateEntities_collectsOnce_iff (memory : TextMemory) (entityListPtr : UInt64) :
    memory.CollectsOnce entityListPtr ↔
      memory.DifferentIds entityListPtr ∧ memory.ListsEnd entityListPtr := by
  constructor
  · exact fun collectsOnce => ⟨collectsOnce.differentIds, collectsOnce.listsEnd⟩
  · rintro ⟨differentIds, listsEnd⟩
    rcases updateEntities_visits listsEnd with ⟨hashSet, visits, visitedOnce, visited⟩
    exact ⟨hashSet, _, visits, ⟨visitedOnce, visited⟩,
      (nodup_ids_iff visitedOnce visited).mpr differentIds, mem_ids_iff visited⟩

end TextMemory

section TwoNodes

/-- The map at 16, which the list at 8 points to, has the nodes 64 and 128; both entities have the
id 7 and an empty list of components at 3200. -/
def twoNodes : TextMemory where
  pointer address :=
    if address = 24 then 64
    else if address = 64 then 128
    else if address = 104 then 1000
    else if address = 168 then 2000
    else if address = 1008 ∨ address = 2008 then 3000
    else if address = 3064 then 3100
    else if address = 3148 ∨ address = 3200 then 3200
    else 16
  byte _ := 0
  dword _ := 7
  slotItem _ :=
    { displayName := [], path := [], itemQuality := 0, stackSize := 0, socketedNames := [],
      itemWidth := 1, itemHeight := 1, xMin := 0, yMin := 0, itemKey := 0 }
  string _ := []

example : (twoNodes.updateEntities 8 10).map (fun result => result.2.map Entity.id)
    = some [7, 7] := by
  decide

theorem twoNodes_collectsTwice : ¬ twoNodes.CollectsOnce 8 := by
  intro collectsOnce
  have reachesFirst : twoNodes.Reaches 8 64 := ⟨by decide, .refl⟩
  have links : twoNodes.Links 16 64 128 := by
    constructor
    · decide
    · exact .inl rfl
  have reachesSecond : twoNodes.Reaches 8 128 := ⟨by decide, .single links⟩
  have isSame := collectsOnce.differentIds 64 128 7 ⟨reachesFirst, ⟨1000, 7⟩, by decide, rfl⟩
    ⟨reachesSecond, ⟨2000, 7⟩, by decide, rfl⟩
  exact absurd isSame (by decide)

end TwoNodes

end PoETask.Attach
