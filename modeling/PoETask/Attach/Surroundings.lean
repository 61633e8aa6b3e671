import PoETask.Attach.EntityList
import PoETask.Attach.EquipItem
import PoETask.Attach.TargetPath
import PoETask.Library.ListSearch

/-!
# What is around the player

`EntityListWrapper::Update` sorts the entities of the game into six lists by what their paths
contain. The local player and monsters without life are left out.

The functions `GetNearest…` search one of the lists for an entity near a point; those for
monsters and for objects by their names are here. They differ in the list and in what they
ask of an entity; among those within the range of the point they take the one nearest to
the player. What `Update` reads of an entity is a field of the memory.
-/

namespace PoETask.Attach

open PoETask.Library

structure ActorSkill where
  name : WString
  id : UInt16

/-- `lowLife` is `hpPercentage < 0.9f` and `lowMana` is `mpPercentage < 0.7f`. -/
structure PlayerData where
  address : UInt64
  id : UInt32
  gridPos : IVector
  curHP : ℤ
  curMana : ℤ
  lowLife : Bool
  lowMana : Bool
  buffs : List WString
  isMoving : Bool
  actorSkills : List ActorSkill

structure NpcData where
  address : UInt64
  id : UInt32
  name : WString

structure MonsterData where
  address : UInt64
  id : UInt32
  path : WString
  name : WString
  curHP : ℤ
  gridPos : IVector
  isTargetable : Bool
  actionID : UInt16
  deriving DecidableEq

structure WorldItemData where
  address : UInt64
  id : UInt32

structure ChestsData where
  address : UInt64
  id : UInt32

structure OtherData where
  address : UInt64
  id : UInt32
  path : WString
  renderName : WString
  gridPos : IVector
  flag1 : UInt8

/-- With what `Update` reads of the entities at the addresses besides the lists of their
components. -/
structure GameMemory extends TextMemory where
  path : UInt64 → WString
  player : UInt64 → PlayerData
  npc : UInt64 → NpcData
  monster : UInt64 → MonsterData
  worldItem : UInt64 → WorldItemData
  chest : UInt64 → ChestsData
  other : UInt64 → OtherData

structure EntityListWrapper where
  localPlayer : PlayerData
  players : List PlayerData
  npcs : List NpcData
  monsters : List MonsterData
  worldItems : List WorldItemData
  chests : List ChestsData
  others : List OtherData

/-- The branches of `Update`. A master is a monster that is listed as an npc. -/
inductive EntityKind where
  | player
  | npc
  | master
  | monster
  | worldItem
  | chest
  | other
  deriving DecidableEq

def entityKind (path : WString) : EntityKind :=
  if finds path "Character" then .player
  else if finds path "NPC" then
    if finds path "Metadata/NPC/Act3/ScionCage" then .other else .npc
  else if finds path "Monster" then
    if finds path "Metadata/Monsters/Masters/Einhar@" ||
        finds path "Metadata/Monsters/Masters/BlightBuilderWild@" then
      .master
    else if path = wide "Metadata/Monsters/IncaShadowBoss/IncaBossSpawner" then .other
    else .monster
  else if finds path "WorldItem" then .worldItem
  else if finds path "Chests" then .chest
  else .other

namespace EntityListWrapper

def clear (localPlayer : PlayerData) : EntityListWrapper where
  localPlayer := localPlayer
  players := []
  npcs := []
  monsters := []
  worldItems := []
  chests := []
  others := []

/-- The addresses of all that is listed. -/
def addresses (entityList : EntityListWrapper) : List UInt64 :=
  entityList.players.map PlayerData.address ++ entityList.npcs.map NpcData.address ++
    entityList.monsters.map MonsterData.address ++
      entityList.worldItems.map WorldItemData.address ++
        entityList.chests.map ChestsData.address ++ entityList.others.map OtherData.address

end EntityListWrapper

namespace GameMemory

variable (memory : GameMemory)

/-- One turn of the loop of `Update`; every `Update` of an entity notes its address. -/
def addEntity (entityList : EntityListWrapper) (entity : Entity) : EntityListWrapper :=
  let address := entity.address
  match entityKind (memory.path address) with
  | .player =>
      let player := { memory.player address with address }
      if player.id ≠ entityList.localPlayer.id then
        { entityList with players := entityList.players ++ [player] }
      else
        entityList
  | .npc =>
      { entityList with npcs := entityList.npcs ++ [{ memory.npc address with address }] }
  | .master =>
      let monster := { memory.monster address with address }
      let npc := { memory.npc address with address, name := monster.name }
      { entityList with npcs := entityList.npcs ++ [npc] }
  | .monster =>
      let monster := { memory.monster address with address }
      if monster.curHP > 0 then
        { entityList with monsters := entityList.monsters ++ [monster] }
      else
        entityList
  | .worldItem =>
      { entityList with
        worldItems := entityList.worldItems ++ [{ memory.worldItem address with address }] }
  | .chest =>
      { entityList with chests := entityList.chests ++ [{ memory.chest address with address }] }
  | .other =>
      { entityList with others := entityList.others ++ [{ memory.other address with address }] }

/-- `Update` with the collected entities. -/
def sortEntities (localPlayer : PlayerData) (entityCache : List Entity) : EntityListWrapper :=
  entityCache.foldl memory.addEntity (.clear localPlayer)

/-- One turn with the `Update` of the entity, which runs `Entity::Update` once more. -/
def readEntity (turns : ℕ) (entityList : EntityListWrapper) (entity : Entity) :
    Option EntityListWrapper :=
  (memory.updateEntity turns entity.address).map fun _ => memory.addEntity entityList entity

/-- `Update`; none when the map of the entities or a list of components does not end within the
turns. -/
def update (localPlayerPtr entityListPtr : UInt64) (turns : ℕ) : Option EntityListWrapper := do
  let _ ← memory.updateEntity turns localPlayerPtr
  let collected ← memory.updateEntities entityListPtr turns
  collected.2.foldlM (memory.readEntity turns)
    (.clear { memory.player localPlayerPtr with address := localPlayerPtr })

/-- An entity that is left out: the local player, or a monster without life. -/
def LeavesOut (localPlayer : PlayerData) (address : UInt64) : Prop :=
  (entityKind (memory.path address) = .player ∧
      (memory.player address).id = localPlayer.id) ∨
    (entityKind (memory.path address) = .monster ∧ (memory.monster address).curHP ≤ 0)

instance (localPlayer : PlayerData) (address : UInt64) :
    Decidable (memory.LeavesOut localPlayer address) := inferInstanceAs (Decidable (_ ∨ _))

/-- What the lists hold once some entities have been sorted into them. -/
structure Sorts (localPlayer : PlayerData) (entities : List Entity)
    (entityList : EntityListWrapper) : Prop where
  localPlayer_eq : entityList.localPlayer = localPlayer
  addresses_perm : entityList.addresses.Perm ((entities.map Entity.address).filter fun address =>
    ¬memory.LeavesOut localPlayer address)
  players : ∀ player ∈ entityList.players,
    entityKind (memory.path player.address) = .player ∧ player.id ≠ localPlayer.id
  npcs : ∀ npc ∈ entityList.npcs, entityKind (memory.path npc.address) = .npc ∨
    entityKind (memory.path npc.address) = .master
  monsters : ∀ monster ∈ entityList.monsters,
    entityKind (memory.path monster.address) = .monster ∧ 0 < monster.curHP
  worldItems : ∀ item ∈ entityList.worldItems,
    entityKind (memory.path item.address) = .worldItem
  chests : ∀ chest ∈ entityList.chests, entityKind (memory.path chest.address) = .chest
  others : ∀ other ∈ entityList.others, entityKind (memory.path other.address) = .other

variable {memory} {localPlayer : PlayerData} {entities : List Entity}
  {entityList : EntityListWrapper}

theorem Sorts.clear : memory.Sorts localPlayer [] (.clear localPlayer) where
  localPlayer_eq := rfl
  addresses_perm := .nil
  players := fun _ impossible => absurd impossible List.not_mem_nil
  npcs := fun _ impossible => absurd impossible List.not_mem_nil
  monsters := fun _ impossible => absurd impossible List.not_mem_nil
  worldItems := fun _ impossible => absurd impossible List.not_mem_nil
  chests := fun _ impossible => absurd impossible List.not_mem_nil
  others := fun _ impossible => absurd impossible List.not_mem_nil

/-- An entity that is left out changes nothing. -/
theorem Sorts.leaveOut (sorts : memory.Sorts localPlayer entities entityList) {entity : Entity}
    (leavesOut : memory.LeavesOut localPlayer entity.address) :
    memory.Sorts localPlayer (entities ++ [entity]) entityList := by
  refine { sorts with addresses_perm := ?_ }
  rw [List.map_append, List.filter_append]
  have skipped : [entity.address].filter (fun address =>
      ¬memory.LeavesOut localPlayer address) = [] :=
    List.filter_cons_of_neg (by simpa using leavesOut)
  rw [List.map_singleton, skipped, List.append_nil]
  exact sorts.addresses_perm

/-- Any other one is listed once more. -/
theorem Sorts.perm_of_count (sorts : memory.Sorts localPlayer entities entityList) {entity : Entity}
    (stays : ¬memory.LeavesOut localPlayer entity.address) {addresses : List UInt64}
    (counts : ∀ address, addresses.count address =
      entityList.addresses.count address + [entity.address].count address) :
    addresses.Perm (((entities ++ [entity]).map Entity.address).filter fun address =>
      ¬memory.LeavesOut localPlayer address) := by
  have listed : addresses.Perm (entityList.addresses ++ [entity.address]) := by
    rw [List.perm_iff_count]
    intro address
    rw [counts, List.count_append]
  rw [List.map_append, List.filter_append]
  have single : [entity.address].filter (fun address =>
      ¬memory.LeavesOut localPlayer address) = [entity.address] :=
    List.filter_cons_of_pos (by simpa using stays)
  rw [List.map_singleton, single]
  exact listed.trans (sorts.addresses_perm.append_right _)

theorem forall_mem_append_singleton {Data : Type*} {listed : List Data} {last : Data}
    {motive : Data → Prop} (earlier : ∀ data ∈ listed, motive data) (holds : motive last) :
    ∀ data ∈ listed ++ [last], motive data := by
  intro data isListed
  rcases List.mem_append.mp isListed with isEarlier | isLast
  · exact earlier data isEarlier
  · exact List.mem_singleton.mp isLast ▸ holds

theorem addEntity_sorts (sorts : memory.Sorts localPlayer entities entityList) (entity : Entity) :
    memory.Sorts localPlayer (entities ++ [entity]) (memory.addEntity entityList entity) := by
  have stays_of : ∀ kind, entityKind (memory.path entity.address) = kind → kind ≠ .player →
      kind ≠ .monster → ¬memory.LeavesOut localPlayer entity.address := by
    rintro kind rfl notPlayer notMonster (⟨isPlayer, -⟩ | ⟨isMonster, -⟩)
    · exact notPlayer isPlayer
    · exact notMonster isMonster
  simp only [addEntity]
  cases kind_eq : entityKind (memory.path entity.address) with
  | player =>
      have sameLocal := sorts.localPlayer_eq
      by_cases isLocal : (memory.player entity.address).id = localPlayer.id
      · rw [if_neg (not_not.mpr (sameLocal ▸ isLocal))]
        exact sorts.leaveOut (.inl ⟨kind_eq, isLocal⟩)
      · have stays : ¬memory.LeavesOut localPlayer entity.address := by
          rintro (⟨-, same⟩ | ⟨isMonster, -⟩)
          · exact isLocal same
          · rw [kind_eq] at isMonster
            cases isMonster
        rw [if_pos (sameLocal ▸ isLocal)]
        refine { sorts with addresses_perm := sorts.perm_of_count stays ?_, players := ?_ }
        · intro address
          simp only [EntityListWrapper.addresses, List.map_append, List.count_append,
            List.map_singleton]
          omega
        · exact forall_mem_append_singleton sorts.players ⟨kind_eq, isLocal⟩
  | npc =>
      refine { sorts with
        addresses_perm := sorts.perm_of_count (stays_of _ kind_eq nofun nofun) ?_, npcs := ?_ }
      · intro address
        simp only [EntityListWrapper.addresses, List.map_append, List.count_append,
          List.map_singleton]
        omega
      · exact forall_mem_append_singleton sorts.npcs (.inl kind_eq)
  | master =>
      refine { sorts with
        addresses_perm := sorts.perm_of_count (stays_of _ kind_eq nofun nofun) ?_, npcs := ?_ }
      · intro address
        simp only [EntityListWrapper.addresses, List.map_append, List.count_append,
          List.map_singleton]
        omega
      · exact forall_mem_append_singleton sorts.npcs (.inr kind_eq)
  | monster =>
      by_cases isAlive : (memory.monster entity.address).curHP > 0
      · have stays : ¬memory.LeavesOut localPlayer entity.address := by
          rintro (⟨isPlayer, -⟩ | ⟨-, isDead⟩)
          · rw [kind_eq] at isPlayer
            cases isPlayer
          · omega
        simp only [isAlive, if_true]
        refine { sorts with addresses_perm := sorts.perm_of_count stays ?_, monsters := ?_ }
        · intro address
          simp only [EntityListWrapper.addresses, List.map_append, List.count_append,
            List.map_singleton]
          omega
        · exact forall_mem_append_singleton sorts.monsters ⟨kind_eq, isAlive⟩
      · simp only [isAlive, if_false]
        exact sorts.leaveOut (.inr ⟨kind_eq, not_lt.mp isAlive⟩)
  | worldItem =>
      refine { sorts with
        addresses_perm := sorts.perm_of_count (stays_of _ kind_eq nofun nofun) ?_
        worldItems := ?_ }
      · intro address
        simp only [EntityListWrapper.addresses, List.map_append, List.count_append,
          List.map_singleton]
        omega
      · exact forall_mem_append_singleton sorts.worldItems kind_eq
  | chest =>
      refine { sorts with
        addresses_perm := sorts.perm_of_count (stays_of _ kind_eq nofun nofun) ?_, chests := ?_ }
      · intro address
        simp only [EntityListWrapper.addresses, List.map_append, List.count_append,
          List.map_singleton]
        omega
      · exact forall_mem_append_singleton sorts.chests kind_eq
  | other =>
      refine { sorts with
        addresses_perm := sorts.perm_of_count (stays_of _ kind_eq nofun nofun) ?_, others := ?_ }
      · intro address
        simp only [EntityListWrapper.addresses, List.map_append, List.count_append,
          List.map_singleton]
        omega
      · exact forall_mem_append_singleton sorts.others kind_eq

theorem sortEntities_sorts (localPlayer : PlayerData) (entityCache : List Entity) :
    memory.Sorts localPlayer entityCache (memory.sortEntities localPlayer entityCache) := by
  induction entityCache using List.reverseRecOn with
  | nil => exact .clear
  | append_singleton entityCache entity ih =>
      rw [sortEntities, List.foldl_append]
      exact addEntity_sorts ih entity

/-- When all of them can be read, the loop sorts the entities. -/
theorem foldlM_readEntity {turns : ℕ}
    (reads : ∀ entity ∈ entities, (memory.updateEntity turns entity.address).isSome) :
    entities.foldlM (memory.readEntity turns) entityList =
      some (entities.foldl memory.addEntity entityList) := by
  induction entities generalizing entityList with
  | nil => rfl
  | cons entity later ih =>
      rw [List.forall_mem_cons] at reads
      rcases Option.isSome_iff_exists.mp reads.1 with ⟨again, read⟩
      rw [List.foldlM_cons, readEntity, read, Option.map_some, Option.bind_eq_bind,
        Option.bind_some, ih reads.2, List.foldl_cons]

/-- The lists of components that `Update` follows end. -/
def ComponentListsEnd (memory : GameMemory) (localPlayerPtr entityListPtr : UInt64) : Prop :=
  memory.ComponentsEnd localPlayerPtr ∧ memory.ListsEnd entityListPtr

/-- When `Update` has ended, so have the lists of components. -/
theorem componentListsEnd_of_update {localPlayerPtr entityListPtr : UInt64} {turns : ℕ}
    (ends : memory.update localPlayerPtr entityListPtr turns = some entityList) :
    memory.ComponentListsEnd localPlayerPtr entityListPtr := by
  rcases Option.bind_eq_some_iff.mp ends with ⟨player, playerRead, rest⟩
  rcases Option.bind_eq_some_iff.mp rest with ⟨collected, collects, -⟩
  rcases Option.map_eq_some_iff.mp playerRead with ⟨dictionary, read, -⟩
  exact ⟨TextMemory.componentsEnd_of_isSome (Option.isSome_iff_exists.mpr ⟨_, read⟩),
    TextMemory.listsEnd_of_updateEntities collects⟩

/-- `Update` ends if and only if the lists of components of the local player and of the entities of
all reachable nodes do, and then every entity of a reachable node is listed once, in the list of
its kind; the local player and monsters without life are the only ones in no list. -/
theorem update_listsOnce (memory : GameMemory) (localPlayerPtr entityListPtr : UInt64) :
    ((∃ turns entityList, memory.update localPlayerPtr entityListPtr turns = some entityList) ↔
        memory.ComponentListsEnd localPlayerPtr entityListPtr) ∧
      (memory.ComponentListsEnd localPlayerPtr entityListPtr →
        ∃ nodes : List UInt64, nodes.Nodup ∧
          (∀ node, node ∈ nodes ↔ memory.Reaches entityListPtr node) ∧
          ∃ entityList,
            (∀ turns, 2 ^ 65 + 2 ≤ turns →
              memory.update localPlayerPtr entityListPtr turns = some entityList) ∧
            memory.Sorts { memory.player localPlayerPtr with address := localPlayerPtr }
              (nodes.filterMap (memory.entityAt (memory.pointer entityListPtr))) entityList) := by
  have sorted : memory.ComponentListsEnd localPlayerPtr entityListPtr →
      ∃ nodes : List UInt64, nodes.Nodup ∧
        (∀ node, node ∈ nodes ↔ memory.Reaches entityListPtr node) ∧
        ∃ entityList,
          (∀ turns, 2 ^ 65 + 2 ≤ turns →
            memory.update localPlayerPtr entityListPtr turns = some entityList) ∧
          memory.Sorts { memory.player localPlayerPtr with address := localPlayerPtr }
            (nodes.filterMap (memory.entityAt (memory.pointer entityListPtr))) entityList := by
    rintro ⟨playerEnds, listsEnd⟩
    rcases TextMemory.updateEntities_visits listsEnd with ⟨nodes, ends, once, visited⟩
    refine ⟨nodes, once, visited, _, fun turns enough => ?_, sortEntities_sorts _ _⟩
    have long : 2 ^ 64 < turns := by omega
    have reads : ∀ address, memory.ComponentsEnd address →
        (memory.updateEntity turns address).isSome := by
      intro address componentsEnd
      rw [TextMemory.updateEntity, Option.isSome_map]
      exact componentsEnd.isSome long
    rcases Option.isSome_iff_exists.mp (reads _ playerEnds) with ⟨player, playerRead⟩
    rw [update, playerRead, Option.bind_eq_bind, Option.bind_some, ends turns enough,
      Option.bind_eq_bind, Option.bind_some]
    apply foldlM_readEntity
    intro entity isEntity
    rcases List.mem_filterMap.mp isEntity with ⟨node, isNode, found⟩
    exact reads _ (listsEnd node ((visited node).mp isNode) entity found)
  refine ⟨⟨?_, ?_⟩, sorted⟩
  · rintro ⟨turns, entityList, ends⟩
    exact componentListsEnd_of_update ends
  · intro listsEnd
    rcases sorted listsEnd with ⟨nodes, -, -, entityList, ends, -⟩
    exact ⟨_, entityList, ends _ le_rfl⟩

end GameMemory

section Searches

variable {Data : Type*} (entityList : EntityListWrapper) (map : BlockMap)

/-- `DIST` is at most the range. -/
def inRange (range : ℤ) (posCenter gridPos : IVector) : Bool :=
  distSquared posCenter gridPos ≤ (10 * range) ^ 2

def isConnectedPoints (pos1 pos2 : IVector) : Bool :=
  map.isConnected (convertPointsToBlock pos1) (convertPointsToBlock pos2)

/-- The search that the functions share. -/
def getNearest (posPlayer posCenter : IVector) (range : ℤ) (gridPos : Data → IVector)
    (isWanted : Data → Bool) (entities : List Data) : Option Data :=
  leastItem (fun entity => isWanted entity && inRange range posCenter (gridPos entity))
    (fun entity => distSquared posPlayer (gridPos entity)) (10 ^ 20) entities

namespace EntityListWrapper

/-- From the player's place. -/
def connects (gridPos : IVector) : Bool :=
  isConnectedPoints map entityList.localPlayer.gridPos gridPos

def getNearestObjectByRender (posCenter : IVector) (range : ℤ) (renderName : WString)
    (checkConnect checkTransition : Bool) : Option OtherData :=
  getNearest entityList.localPlayer.gridPos posCenter range OtherData.gridPos
    (fun other => decide (other.renderName = renderName) &&
      !(checkTransition && decide (other.flag1 ≠ 1)) &&
      !(checkConnect && !entityList.connects map other.gridPos))
    entityList.others

def getNearestSpecialObjectByRenderPath (posCenter : IVector) (range : ℤ)
    (renderName path : WString) (transition : UInt8) : Option OtherData :=
  getNearest entityList.localPlayer.gridPos posCenter range OtherData.gridPos
    (fun other => decide (other.renderName = renderName) && decide (other.path = path) &&
      decide (other.flag1 = transition))
    entityList.others

/-- `g_pFirstAttackMonster`. -/
def firstAttackMonster : List WString := [wide "Vaal Totem"]

/-- The first monster of the first of these names that can be targeted. -/
def getFirstAttackMonster (posCenter : IVector) (range : ℤ) : Option MonsterData :=
  firstAttackMonster.findSome? fun first =>
    entityList.monsters.find? fun monster => decide (monster.name = first) &&
      monster.isTargetable && inRange range posCenter monster.gridPos

/-- What the second loop of `GetNearestMonster` asks of a monster. -/
def wantsMonster (name : WString) (monster : MonsterData) : Bool :=
  (name.isEmpty || decide (monster.name = name)) && monster.isTargetable &&
    !(name.isEmpty && decide (monster.actionID = 0)) && !finds monster.path "League/" &&
    !(name.isEmpty && !entityList.connects map monster.gridPos)

def getNearestMonster (posCenter : IVector) (range : ℤ) (name : WString) : Option MonsterData :=
  match entityList.getFirstAttackMonster posCenter range with
  | some monster => some monster
  | none =>
      getNearest entityList.localPlayer.gridPos posCenter range MonsterData.gridPos
        (entityList.wantsMonster map name) entityList.monsters

end EntityListWrapper

variable {posPlayer posCenter : IVector} {range : ℤ} {gridPos : Data → IVector}
  {isWanted : Data → Bool} {entities : List Data} {entity : Data}

/-- What is found is wanted, in range, and no other such entity is nearer to the player. -/
theorem getNearest_spec
    (found : getNearest posPlayer posCenter range gridPos isWanted entities = some entity) :
    entity ∈ entities ∧ isWanted entity ∧ inRange range posCenter (gridPos entity) ∧
      ∀ other ∈ entities, isWanted other → inRange range posCenter (gridPos other) →
        distSquared posPlayer (gridPos entity) ≤ distSquared posPlayer (gridPos other) := by
  rcases mem_of_leastItem found with ⟨isEntity, isCandidate, -⟩
  rcases Bool.and_eq_true_iff.mp isCandidate with ⟨wanted, inside⟩
  refine ⟨isEntity, wanted, inside, ?_⟩
  intro other isOther otherWanted otherInside
  exact le_of_leastItem found isOther (Bool.and_eq_true_iff.mpr ⟨otherWanted, otherInside⟩)

end Searches

end PoETask.Attach
