import PoETask.Attach.Surroundings
import PoETask.Library.ListSearch
import PoETask.Library.Spacing
import PoETask.Library.StepSystem

/-!
# Battle

The part of `QuestRun` that uses skills, opens doors and attacks monsters. A skill of the list
is used again only after its delay, which is counted in the ticks of the system. A special
door that is passed once is opened once until the player dies. The monsters of a hunt that
wait in rooms of their own are attacked only when the door of their room has been opened.

A call of `Main` brings along what it observes of the game and which of the other handlers
end the call; `delayLeft` is the delay these leave. The system counts its ticks up.
-/

namespace PoETask.Attach

open PoETask.Library

structure DoForwardSkill where
  delay : UInt32
  manaCost : ℤ
  name : WString
  coolTime : UInt64

/-- `isBuff` is 1 for a buff and 2 for an orb. -/
structure DoSkill extends DoForwardSkill where
  isBuff : UInt8
  buffName : WString

/-- `g_pSkillList_Witch`. -/
def skillListWitch : List DoSkill := [
  ⟨⟨5, 0, wide "HeraldOfThunder", 0⟩, 1, wide "herald_of_thunder"⟩,
  ⟨⟨5, 0, wide "BloodstainedBanner", 0⟩, 1, wide "bloodstained_banner_buff_aura"⟩,
  ⟨⟨5, 0, wide "Clarity", 0⟩, 1, wide "player_aura_mana_regen"⟩,
  ⟨⟨50, 8, wide "OrbOfStorms", 0⟩, 2, []⟩,
  ⟨⟨3, 7, wide "ConduitSigil", 0⟩, 0, []⟩,
  ⟨⟨3, 7, wide "FreezingPulse", 0⟩, 0, []⟩,
  ⟨⟨3, 7, wide "Fireball", 0⟩, 0, []⟩,
  ⟨⟨3, 0, wide "PlayerMelee", 0⟩, 0, []⟩]

/-- `g_pForwardSkillList_Witch`. -/
def forwardSkillListWitch : List DoForwardSkill := [⟨50, 13, wide "IceDash", 0⟩]

/-- `isPassed` is 0 for a door that is passed once, 1 when it has been opened. -/
structure SpecialDoor where
  name : WString
  path : WString
  range : ℤ
  transition : UInt8
  isPassed : UInt8
  delay : ℕ

/-- `g_pInfoSpecialDoors`. -/
def infoSpecialDoors : List SpecialDoor := [
  ⟨wide "Arena", wide "Metadata/Terrain/Mountain/Arena/Pit/Objects/PitGateTransition", 1, 2, 0, 0⟩,
  ⟨wide "The Bowels of the Beast",
    wide "Metadata/Terrain/Mountain/Belly/Objects/BellyArenaTransition", 5, 1, 0, 0⟩,
  ⟨wide "Shavronne's Arena",
    wide "Metadata/Terrain/Mountain/Belly/Objects/BellyArenaTransition", 6, 1, 0, 0⟩,
  ⟨wide "Maligaro's Arena",
    wide "Metadata/Terrain/Mountain/Belly/Objects/BellyArenaTransition", 6, 1, 0, 0⟩,
  ⟨wide "Doedre's Arena",
    wide "Metadata/Terrain/Mountain/Belly/Objects/BellyArenaTransition", 6, 1, 0, 0⟩,
  ⟨wide "The Black Heart", wide "Metadata/MiscellaneousObjects/AreaTransition", 5, 0, 3, 0⟩,
  ⟨wide "Highgate", wide "Metadata/QuestObjects/Act4/MalachaiDeathPortal", 5, 1, 2, 0⟩,
  ⟨wide "Lever", wide "Metadata/Terrain/Act4/Area7/Objects/PortalDeviceLever", 5, 1, 2, 60⟩,
  ⟨wide "Oriath Portal",
    wide "Metadata/Terrain/Act4/Area7/Objects/PortalDeviceTransition", 5, 2, 2, 0⟩,
  ⟨wide "Cathedral Apex", wide "Metadata/MiscellaneousObjects/AreaTransition", 5, 0, 3, 0⟩]

structure DoorInfo where
  name : WString
  isConnect : UInt8
  keyItem : WString

/-- `g_pInfoDoors`. -/
def infoDoors : List DoorInfo := [
  ⟨wide "Door", 1, []⟩,
  ⟨wide "Trial of Ascendancy", 1, []⟩,
  ⟨wide "Ancient Seal", 1, []⟩,
  ⟨wide "Crafting Recipe", 1, []⟩,
  ⟨wide "Sewer Grating", 0, wide "Sewer Keys"⟩]

inductive QuestMode where
  | none
  | fullScan
  | interaction
  | hunt
  | interactAndHunt
  | gotoArea
  | reward
  | pickupItem
  | itemsAndWall
  | waypoint
  deriving DecidableEq

/-- The current quest: `name` holds the names of monsters, `szReserve` those of special doors. -/
structure BattleQuest where
  mode : QuestMode
  name : WString
  szReserve : WString

structure SkillElement where
  skillName : WString
  skillid : UInt16

structure Flask where
  displayName : WString
  currentCharges : ℤ
  chargesPerUse : ℤ
  xMin : ℤ

/-- The observations of one call of `Main`. -/
structure BattleFrame where
  now : UInt64
  reachesMain : Bool
  reachesBattle : Bool
  handled : Bool
  delayLeft : ℕ
  memory : GameMemory
  localPlayer : PlayerData
  entityCache : List Entity
  map : BlockMap
  isTown : Bool
  skillBarSkills : List SkillElement
  flasks : List Flask
  mainInventory : List WString
  currentQuest : BattleQuest
  inQuestArea : Bool
  specialProcMonsterPanel : Bool
  stuckAt : Option IVector

/-- `entry` and `door` are places in the lists. An orb goes to where the monster is. -/
inductive BattleCommand where
  | resurrect
  | pressKey (key : ℤ)
  | buffSkill (entry : ℕ) (skillId : UInt16)
  | openSpecialDoor (door : ℕ) (id : UInt32)
  | openDoor (door : ℕ) (id : UInt32)
  | attack (entry : ℕ) (skillId : UInt16) (monster : MonsterData) (isOrb : Bool)
  | killSpecialMonster
  | selectMonster (id : UInt32)
  | forwardSkill (entry : ℕ) (skillId : UInt16) (posTarget : IVector)
  deriving DecidableEq

/-- The commands of a run with the times they were given at, the latest first. -/
abbrev BattleLog := List (UInt64 × BattleCommand)

structure Battle where
  tick : UInt64
  delay : ℕ
  skillList : List DoSkill
  forwardSkillList : List DoForwardSkill
  specialDoors : List SpecialDoor
  log : BattleLog

/-- The parts between the separators; no part follows a separator at the end. -/
def splitWideString (source : WString) (separator : UInt16) : List WString :=
  let parts := source.splitOn separator
  if parts.getLast? = some [] then parts.dropLast else parts

namespace BattleFrame

variable (frame : BattleFrame)

def entityList : EntityListWrapper := frame.memory.sortEntities frame.localPlayer frame.entityCache

def gridPos : IVector := frame.entityList.localPlayer.gridPos

def getNearestMonster (range : ℤ) (name : WString) : Option MonsterData :=
  frame.entityList.getNearestMonster frame.map frame.gridPos range name

def getSkillBarIDByName (skillName : WString) : Option UInt16 :=
  (frame.skillBarSkills.find? fun skill => skill.skillName = skillName).map SkillElement.skillid

def getSkillIndexByName (skillName : WString) (skillID : UInt16) : Option ℕ :=
  frame.localPlayer.actorSkills.findIdx? fun skill =>
    skill.name = skillName ∧ (skillID = 0 ∨ skillID = skill.id)

def isEnableSkill (dwIndex : ℕ) : Bool := dwIndex < frame.localPlayer.actorSkills.length

/-- The skill of the player with a name that is also on the skill bar. -/
def skillOnBar (name : WString) : Option ActorSkill :=
  (frame.getSkillBarIDByName name).bind fun skillID =>
    (frame.getSkillIndexByName name skillID).bind fun dwIndex =>
      if frame.isEnableSkill dwIndex then frame.localPlayer.actorSkills[dwIndex]? else none

/-- `GetMyBuffIndex` finds it. -/
def hasBuff (buffName : WString) : Bool :=
  frame.localPlayer.buffs.any fun name => decide (name = buffName)

/-- What `AttackTarget` and `UseForwardSkill` ask of an entry of their lists. -/
def readySkill (tick : UInt64) (skill : DoForwardSkill) : Option ActorSkill :=
  (frame.skillOnBar skill.name).filter fun _ =>
    frame.localPlayer.curMana ≥ skill.manaCost &&
      tick - skill.coolTime ≥ (skill.delay * 100).toUInt64

/-- What `AttackTarget` asks of a skill: no buff, and no orb on the move. -/
def attackSkill (tick : UInt64) (skill : DoSkill) : Option ActorSkill :=
  if skill.isBuff = 1 then none
  else if skill.isBuff = 2 ∧ frame.localPlayer.isMoving then none
  else frame.readySkill tick skill.toDoForwardSkill

/-- What `UseBuffSkill` asks of a skill. -/
def buffSkill (skill : DoSkill) : Option ActorSkill :=
  if skill.isBuff ≠ 1 then none
  else if frame.hasBuff skill.buffName then none
  else
    (frame.skillOnBar skill.name).filter fun _ =>
      frame.localPlayer.curMana ≥ skill.manaCost

/-- The first flask of a kind with enough charges. -/
def findFlask (kind : String) : Option Flask :=
  frame.flasks.find? fun flask =>
    finds flask.displayName kind && flask.currentCharges ≥ flask.chargesPerUse

/-- `UsePortion` up to the key. -/
def portion : Option Flask :=
  if frame.isTown then none
  else
    let life :=
      if frame.localPlayer.lowLife ∧ frame.hasBuff (wide "flask_effect_life") = false then
        frame.findFlask "Life"
      else none
    let mana :=
      if frame.localPlayer.lowMana ∧ frame.hasBuff (wide "flask_effect_mana") = false then
        frame.findFlask "Mana"
      else none
    let sprint :=
      if frame.hasBuff (wide "flask_utility_sprint") = false ∧ frame.localPlayer.isMoving then
        frame.findFlask "Quicksilver"
      else none
    (life.or mana).or sprint

/-- The object of a special door that is to be opened. -/
def specialDoorObject (door : SpecialDoor) : Option OtherData :=
  if door.isPassed = 1 then none
  else
    frame.entityList.getNearestSpecialObjectByRenderPath frame.gridPos door.range door.name
      door.path door.transition

/-- The object of a door, if there is no need of a key or the key is there. -/
def doorObject (door : DoorInfo) : Option OtherData :=
  let isHeld := frame.mainInventory.any fun name => decide (name = door.keyItem)
  if door.keyItem ≠ [] ∧ isHeld = false then none
  else
    frame.entityList.getNearestObjectByRender frame.map frame.gridPos 5 door.name
      (decide (door.isConnect = 1)) true

def monsterNames : List WString := splitWideString frame.currentQuest.name 64

def enteranceNames : List WString := splitWideString frame.currentQuest.szReserve 64

/-- A monster of the hunt is near. -/
def hasMonsterName : Bool :=
  frame.monsterNames.any fun name => (frame.getNearestMonster 10 name).isSome

/-- `InteractionMonster` up to the selection. -/
def interactionMonster : Option MonsterData :=
  frame.entityList.monsters.find? fun monster =>
    decide (monster.name = frame.currentQuest.name) && monster.isTargetable &&
      inRange 7 frame.gridPos monster.gridPos

end BattleFrame

namespace Battle

/-- Before the first call. -/
def init : Battle where
  tick := 0
  delay := 0
  skillList := skillListWitch
  forwardSkillList := forwardSkillListWitch
  specialDoors := infoSpecialDoors
  log := []

variable (battle : Battle) (frame : BattleFrame)

def issue (command : BattleCommand) (delay : ℕ) : Battle :=
  { battle with delay, log := (battle.tick, command) :: battle.log }

def usePortion : Option Battle :=
  frame.portion.map fun flask => battle.issue (.pressKey (49 + flask.xMin)) 5

def useBuffSkill : Option Battle :=
  if frame.isTown then none
  else
    (firstEntry frame.buffSkill battle.skillList).map fun (entry, skill, actorSkill) =>
      battle.issue (.buffSkill entry actorSkill.id) skill.delay.toNat

/-- Whether there is a skill to use or not, the call ends. -/
def attackTarget (monster : MonsterData) : Battle :=
  match firstEntry (frame.attackSkill battle.tick) battle.skillList with
  | none => battle
  | some (entry, skill, actorSkill) =>
      { battle.issue (.attack entry actorSkill.id monster (decide (skill.isBuff = 2))) 3 with
        skillList := battle.skillList.modify entry fun skill =>
          { skill with coolTime := battle.tick } }

def useForwardSkill (posTarget : IVector) : Option Battle :=
  (firstEntry (frame.readySkill battle.tick) battle.forwardSkillList).map
    fun (entry, _, actorSkill) =>
      { battle.issue (.forwardSkill entry actorSkill.id posTarget) 3 with
        forwardSkillList := battle.forwardSkillList.modify entry fun skill =>
          { skill with coolTime := battle.tick } }

def openSpecialDoors : Option Battle :=
  (firstEntry frame.specialDoorObject battle.specialDoors).map fun (i, door, other) =>
    let delay := if door.isPassed = 3 then 20 else if door.delay ≠ 0 then door.delay else 5
    { battle.issue (.openSpecialDoor i other.id) delay with
      specialDoors := battle.specialDoors.modify i fun door =>
        { door with isPassed := if door.isPassed = 0 then 1 else door.isPassed } }

def isOpenedSpecialDoors (doorName : WString) : Bool :=
  doorName.isEmpty ||
    battle.specialDoors.any fun door => decide (doorName = door.name) && decide (door.isPassed ≠ 0)

def openDoors : Option Battle :=
  (firstEntry frame.doorObject infoDoors).map fun (i, _, other) =>
    battle.issue (.openDoor i other.id) 10

/-- The attack on a monster nearby, unless a monster of the hunt is near. -/
def attackNear : Option Battle :=
  (frame.getNearestMonster 6 []).bind fun monster =>
    if frame.currentQuest.mode = .hunt ∧ frame.hasMonsterName then none
    else some (battle.attackTarget frame monster)

/-- The loop over the entrances; it ends at the index of the monster if its door is open. -/
def enteranceLoop (monsterIdx : ℕ) : List WString → ℕ → Option ℕ
  | [], enteranceIdx => some enteranceIdx
  | name :: later, enteranceIdx =>
      if monsterIdx = enteranceIdx then
        if battle.isOpenedSpecialDoors name then some enteranceIdx else none
      else
        enteranceLoop monsterIdx later (enteranceIdx + 1)

/-- `QM_Hunt`. -/
def hunt : Option Battle :=
  if frame.currentQuest.szReserve = [] then
    (frame.monsterNames.findSome? (frame.getNearestMonster 10)).map (battle.attackTarget frame)
  else
    match frame.monsterNames.findIdx? fun name => (frame.getNearestMonster 10 name).isSome with
    | none => (frame.getNearestMonster 6 []).map (battle.attackTarget frame)
    | some monsterIdx =>
        if battle.enteranceLoop monsterIdx frame.enteranceNames 0 = some monsterIdx then
          (frame.monsterNames[monsterIdx]?.bind (frame.getNearestMonster 10)).map
            (battle.attackTarget frame)
        else
          none

/-- `QM_InteractAndHunt`. -/
def interactAndHunt : Option Battle :=
  match frame.getNearestMonster 6 frame.currentQuest.name with
  | some monster => some (battle.attackTarget frame monster)
  | none =>
      if frame.currentQuest.name = [] then none
      else if frame.specialProcMonsterPanel then
        some (battle.issue .killSpecialMonster battle.delay)
      else
        frame.interactionMonster.map fun monster => battle.issue (.selectMonster monster.id) 10

/-- The quest, in its area. -/
def doQuest : Option Battle :=
  if frame.inQuestArea then
    match frame.currentQuest.mode with
    | .hunt => battle.hunt frame
    | .interactAndHunt => battle.interactAndHunt frame
    | _ => none
  else
    none

def questRun : Battle :=
  (battle.usePortion frame).getD <|
  (battle.useBuffSkill frame).getD <|
  (battle.openSpecialDoors frame).getD <|
  (battle.openDoors frame).getD <|
  (battle.attackNear frame).getD <|
    if frame.handled then { battle with delay := frame.delayLeft }
    else
      (battle.doQuest frame).getD <|
      (frame.stuckAt.bind (battle.useForwardSkill frame)).getD <|
        { battle with delay := frame.delayLeft }

/-- The player has died: the doors that were opened are to be opened again. -/
def die : Battle :=
  { battle.issue .resurrect 30 with
    specialDoors := battle.specialDoors.map fun door =>
      { door with isPassed := if door.isPassed = 1 then 0 else door.isPassed } }

def main : Battle :=
  let ticked := { battle with tick := frame.now }
  if ticked.delay ≠ 0 then { ticked with delay := ticked.delay - 1 }
  else if frame.reachesMain = false then { ticked with delay := frame.delayLeft }
  else if frame.localPlayer.curHP = 0 then ticked.die
  else if frame.reachesBattle = false then { ticked with delay := frame.delayLeft }
  else ticked.questRun frame

/-- `GetTickCount64` never goes back. -/
def system : StepSystem Battle BattleFrame where
  initial battle := battle = init
  step battle frame next := battle.tick ≤ frame.now ∧ next = battle.main frame

end Battle

/-- The commands that change nothing but the log. -/
def BattleCommand.isPlain : BattleCommand → Bool
  | .pressKey _ => true
  | .buffSkill _ _ => true
  | .openDoor _ _ => true
  | .killSpecialMonster => true
  | .selectMonster _ => true
  | _ => false

namespace Battle

variable {battle next : Battle} {frame : BattleFrame} {monster : MonsterData}

/-- How a call comes to attack a monster: as one nearby, as one that is hunted, as one that is
hunted in a room whose door is open, or as the one of a quest that talks to it first. -/
inductive Targets (battle : Battle) (frame : BattleFrame) (monster : MonsterData) : Prop where
  | near (found : frame.getNearestMonster 6 [] = some monster)
      (alone : frame.currentQuest.mode = .hunt → frame.hasMonsterName = false)
  | hunted (isHunt : frame.currentQuest.mode = .hunt)
      (noRooms : frame.currentQuest.szReserve = [])
      (found : frame.monsterNames.findSome? (frame.getNearestMonster 10) = some monster)
  | inRoom (isHunt : frame.currentQuest.mode = .hunt) (monsterIdx : ℕ)
      (isFirst : (frame.monsterNames.findIdx? fun name =>
        (frame.getNearestMonster 10 name).isSome) = some monsterIdx)
      (opened : battle.enteranceLoop monsterIdx frame.enteranceNames 0 = some monsterIdx)
      (found : frame.monsterNames[monsterIdx]?.bind (frame.getNearestMonster 10) = some monster)
  | interacts (isInteract : frame.currentQuest.mode = .interactAndHunt)
      (found : frame.getNearestMonster 6 frame.currentQuest.name = some monster)

/-- There is no flask to use, no buff to cast and no door to open. -/
structure Calm (battle : Battle) (frame : BattleFrame) : Prop where
  noPortion : battle.usePortion frame = none
  noBuff : battle.useBuffSkill frame = none
  noSpecialDoor : battle.openSpecialDoors frame = none
  noDoor : battle.openDoors frame = none

/-- What a call does. -/
inductive Acts (battle : Battle) (frame : BattleFrame) : Battle → Prop where
  | waits (delay : ℕ) : Acts battle frame { battle with delay }
  | issues (command : BattleCommand) (delay : ℕ) (isPlain : command.isPlain = true) :
      Acts battle frame (battle.issue command delay)
  | attacks (monster : MonsterData) (calm : battle.Calm frame)
      (targets : battle.Targets frame monster) :
      Acts battle frame (battle.attackTarget frame monster)
  | jumps {next : Battle} (posTarget : IVector)
      (uses : battle.useForwardSkill frame posTarget = some next) : Acts battle frame next
  | opens {next : Battle} (opens : battle.openSpecialDoors frame = some next) :
      Acts battle frame next
  | dies : Acts battle frame battle.die

theorem acts_getD {handler : Option Battle} {otherwise : Battle}
    (acts : ∀ next, handler = some next → battle.Acts frame next)
    (goesOn : handler = none → battle.Acts frame otherwise) :
    battle.Acts frame (handler.getD otherwise) := by
  cases handler with
  | none => exact goesOn rfl
  | some next => exact acts next rfl

/-- A handler that issues a plain command. -/
theorem acts_of_map {Found : Type*} {search : Option Found} {command : Found → BattleCommand}
    {delay : Found → ℕ} (isPlain : ∀ found, (command found).isPlain = true)
    (handled : search.map (fun found => battle.issue (command found) (delay found)) = some next) :
    battle.Acts frame next := by
  rcases Option.map_eq_some_iff.mp handled with ⟨found, -, rfl⟩
  exact .issues _ _ (isPlain found)

theorem hunt_acts (calm : battle.Calm frame) (isHunt : frame.currentQuest.mode = .hunt)
    (handled : battle.hunt frame = some next) : battle.Acts frame next := by
  simp only [hunt] at handled
  split at handled
  · rename_i noRooms
    rcases Option.map_eq_some_iff.mp handled with ⟨monster, found, rfl⟩
    exact .attacks monster calm (.hunted isHunt noRooms found)
  · split at handled
    · rename_i missed
      rcases Option.map_eq_some_iff.mp handled with ⟨monster, found, rfl⟩
      apply Acts.attacks monster calm
      apply Targets.near found
      intro _
      simpa [BattleFrame.hasMonsterName] using missed
    · rename_i monsterIdx isFirst
      split at handled
      · rename_i opened
        rcases Option.map_eq_some_iff.mp handled with ⟨monster, found, rfl⟩
        exact .attacks monster calm (.inRoom isHunt monsterIdx isFirst opened found)
      · cases handled

theorem interactAndHunt_acts (calm : battle.Calm frame)
    (isInteract : frame.currentQuest.mode = .interactAndHunt)
    (handled : battle.interactAndHunt frame = some next) : battle.Acts frame next := by
  simp only [interactAndHunt] at handled
  split at handled
  · rename_i monster found
    cases handled
    exact .attacks monster calm (.interacts isInteract found)
  · split at handled
    · cases handled
    · split at handled
      · cases handled
        exact .issues _ _ rfl
      · exact acts_of_map (fun _ => rfl) handled

theorem questRun_acts (battle : Battle) (frame : BattleFrame) :
    battle.Acts frame (battle.questRun frame) := by
  simp only [questRun]
  apply acts_getD
  · exact fun next handled => acts_of_map (fun _ => rfl) handled
  intro noPortion
  apply acts_getD
  · intro next handled
    simp only [useBuffSkill] at handled
    split at handled
    · cases handled
    · exact acts_of_map (fun _ => rfl) handled
  intro noBuff
  apply acts_getD
  · exact fun next handled => .opens handled
  intro noSpecialDoor
  apply acts_getD
  · exact fun next handled => acts_of_map (fun _ => rfl) handled
  intro noDoor
  have calm : battle.Calm frame := ⟨noPortion, noBuff, noSpecialDoor, noDoor⟩
  apply acts_getD
  · intro next handled
    rcases Option.bind_eq_some_iff.mp handled with ⟨monster, found, attacks⟩
    split at attacks
    · cases attacks
    · rename_i alone
      cases attacks
      apply Acts.attacks monster calm
      apply Targets.near found
      exact fun isHunt => Bool.eq_false_of_not_eq_true fun hasName => alone ⟨isHunt, hasName⟩
  intro _
  split
  · exact .waits frame.delayLeft
  apply acts_getD
  · intro next handled
    simp only [doQuest] at handled
    split at handled
    · split at handled
      · rename_i isHunt
        exact hunt_acts calm isHunt handled
      · rename_i isInteract
        exact interactAndHunt_acts calm isInteract handled
      · cases handled
    · cases handled
  intro _
  apply acts_getD
  · intro next handled
    rcases Option.bind_eq_some_iff.mp handled with ⟨posTarget, -, uses⟩
    exact .jumps posTarget uses
  exact fun _ => .waits frame.delayLeft

theorem main_acts (battle : Battle) (frame : BattleFrame) :
    ({ battle with tick := frame.now } : Battle).Acts frame (battle.main frame) := by
  simp only [main]
  split
  · exact .waits _
  split
  · exact .waits _
  split
  · exact .dies
  split
  · exact .waits _
  · exact questRun_acts _ frame

end Battle

namespace BattleLog

/-- The times of the commands of a kind, the latest first. -/
def timesOf (isUse : BattleCommand → Bool) (log : BattleLog) : List ℕ :=
  (log.filter fun entry => isUse entry.2).map fun entry => entry.1.toNat

theorem timesOf_cons (isUse : BattleCommand → Bool) (tick : UInt64) (command : BattleCommand)
    (log : BattleLog) : timesOf isUse ((tick, command) :: log) =
      if isUse command then tick.toNat :: timesOf isUse log else timesOf isUse log := by
  simp only [timesOf, List.filter_cons]
  split <;> rfl

end BattleLog

def BattleCommand.usesSkill (entry : ℕ) : BattleCommand → Bool
  | .attack other _ _ _ => other = entry
  | _ => false

def BattleCommand.usesForwardSkill (entry : ℕ) : BattleCommand → Bool
  | .forwardSkill other _ _ => other = entry
  | _ => false

theorem BattleCommand.isPlain_uses {command : BattleCommand} (isPlain : command.isPlain = true)
    (entry : ℕ) : command.usesSkill entry = false ∧ command.usesForwardSkill entry = false := by
  cases command <;> first | exact ⟨rfl, rfl⟩ | cases isPlain

/-- The entry as it stands in the table. -/
def DoForwardSkill.reset (skill : DoForwardSkill) : DoForwardSkill := { skill with coolTime := 0 }

/-- The uses of the skills of a list: they lie a delay apart, and the cool time of a skill is not
before its last use. `times` holds the times of the uses of an entry. -/
structure Cooled (tick : UInt64) (times : ℕ → List ℕ) (table skills : List DoForwardSkill) :
    Prop where
  same : skills.map DoForwardSkill.reset = table
  past : ∀ (entry : ℕ) (skill : DoForwardSkill), skills[entry]? = some skill →
    skill.coolTime ≤ tick
  spaced : ∀ (entry : ℕ) (skill : DoForwardSkill), skills[entry]? = some skill →
    Spaced (100 * skill.delay.toNat) (times entry)
  notAfter : ∀ (entry : ℕ) (skill : DoForwardSkill), skills[entry]? = some skill →
    ∀ time ∈ times entry, time ≤ skill.coolTime.toNat

namespace Cooled

variable {tick : UInt64} {times later : ℕ → List ℕ} {table skills : List DoForwardSkill}
  {entry : ℕ} {skill : DoForwardSkill}

theorem init (started : ∀ skill ∈ table, skill.coolTime = 0) :
    Cooled 0 (fun _ => []) table table where
  same := by
    rw [List.map_congr_left (g := id), List.map_id]
    intro skill isSkill
    rw [DoForwardSkill.reset, ← started skill isSkill]
    rfl
  past := fun entry skill isSkill =>
    UInt64.le_of_eq (started skill (List.mem_of_getElem? isSkill))
  spaced := fun _ _ _ => .nil
  notAfter := fun _ _ _ _ impossible => absurd impossible List.not_mem_nil

theorem mem_table (cooled : Cooled tick times table skills)
    (isSkill : skills[entry]? = some skill) :
    skill.reset ∈ table :=
  cooled.same ▸ List.mem_map_of_mem (List.mem_of_getElem? isSkill)

/-- Time goes by without a use. -/
theorem wait (cooled : Cooled tick times table skills) {now : UInt64} (isLater : tick ≤ now)
    (unused : ∀ entry, later entry = times entry) : Cooled now later table skills where
  same := cooled.same
  past := fun entry skill isSkill => UInt64.le_trans (cooled.past entry skill isSkill) isLater
  spaced := fun entry skill isSkill => unused entry ▸ cooled.spaced entry skill isSkill
  notAfter := fun entry skill isSkill => unused entry ▸ cooled.notAfter entry skill isSkill

/-- When the delay is over, all uses lie that long ago. -/
theorem waited (cooled : Cooled tick times table skills)
    (small : ∀ original ∈ table, 100 * original.delay.toNat < 2 ^ 32)
    (isSkill : skills[entry]? = some skill)
    (isOver : tick - skill.coolTime ≥ (skill.delay * 100).toUInt64) :
    ∀ time ∈ times entry, time + 100 * skill.delay.toNat ≤ tick.toNat := by
  intro time isTime
  have atMost : 100 * skill.delay.toNat < 2 ^ 32 :=
    small skill.reset (cooled.mem_table isSkill)
  have past := cooled.past entry skill isSkill
  have gap_le := UInt64.le_iff_toNat_le.mp isOver
  have gap_eq : (skill.delay * 100).toUInt64.toNat = 100 * skill.delay.toNat := by
    rw [UInt32.toNat_toUInt64, UInt32.toNat_mul, Nat.mul_comm]
    exact Nat.mod_eq_of_lt atMost
  rw [gap_eq, UInt64.toNat_sub_of_le _ _ past] at gap_le
  have past_nat := UInt64.le_iff_toNat_le.mp past
  have notAfter := cooled.notAfter entry skill isSkill time isTime
  omega

/-- A use of an entry whose delay is over. -/
theorem use (cooled : Cooled tick times table skills)
    (small : ∀ original ∈ table, 100 * original.delay.toNat < 2 ^ 32)
    (isSkill : skills[entry]? = some skill)
    (isOver : tick - skill.coolTime ≥ (skill.delay * 100).toUInt64)
    (isUse : later entry = tick.toNat :: times entry)
    (unused : ∀ other, other ≠ entry → later other = times other) :
    Cooled tick later table
      (skills.modify entry fun skill => { skill with coolTime := tick }) := by
  have waited := cooled.waited small isSkill isOver
  constructor
  · have same : (skills.modify entry fun skill => { skill with coolTime := tick }).map
        DoForwardSkill.reset = (skills.map DoForwardSkill.reset).modify entry id :=
      map_modify_entry fun _ => rfl
    rw [same, List.modify_id]
    exact cooled.same
  · intro other otherSkill isOther
    rcases getElem?_modify_cases isSkill isOther with ⟨rfl, rfl⟩ | ⟨-, isOld⟩
    · exact UInt64.le_refl tick
    · exact cooled.past other otherSkill isOld
  · intro other otherSkill isOther
    rcases getElem?_modify_cases isSkill isOther with ⟨rfl, rfl⟩ | ⟨different, isOld⟩
    · rw [isUse]
      exact (cooled.spaced other skill isSkill).cons waited
    · rw [unused other different]
      exact cooled.spaced other otherSkill isOld
  · intro other otherSkill isOther
    rcases getElem?_modify_cases isSkill isOther with ⟨rfl, rfl⟩ | ⟨different, isOld⟩
    · rw [isUse]
      intro time isTime
      rcases List.mem_cons.mp isTime with rfl | isEarlier
      · exact le_rfl
      · exact (Nat.le_add_right _ _).trans (waited time isEarlier)
    · rw [unused other different]
      exact cooled.notAfter other otherSkill isOld

/-- The delays are those of the table. -/
theorem spaced_table (cooled : Cooled tick times table skills) {original : DoForwardSkill}
    (isOriginal : table[entry]? = some original) :
    Spaced (100 * original.delay.toNat) (times entry) := by
  rw [← cooled.same, List.getElem?_map] at isOriginal
  rcases Option.map_eq_some_iff.mp isOriginal with ⟨skill, isSkill, rfl⟩
  exact cooled.spaced entry skill isSkill

end Cooled

theorem BattleFrame.readySkill_spec {frame : BattleFrame} {tick : UInt64} {skill : DoForwardSkill}
    {actorSkill : ActorSkill} (ready : frame.readySkill tick skill = some actorSkill) :
    frame.skillOnBar skill.name = some actorSkill ∧
      frame.localPlayer.curMana ≥ skill.manaCost ∧
        tick - skill.coolTime ≥ (skill.delay * 100).toUInt64 := by
  rcases Option.filter_eq_some_iff.mp ready with ⟨onBar, isReady⟩
  rcases Bool.and_eq_true_iff.mp isReady with ⟨mana, isOver⟩
  exact ⟨onBar, of_decide_eq_true mana, of_decide_eq_true isOver⟩

theorem BattleFrame.attackSkill_spec {frame : BattleFrame} {tick : UInt64} {skill : DoSkill}
    {actorSkill : ActorSkill} (ready : frame.attackSkill tick skill = some actorSkill) :
    skill.isBuff ≠ 1 ∧ (skill.isBuff = 2 → frame.localPlayer.isMoving = false) ∧
      frame.readySkill tick skill.toDoForwardSkill = some actorSkill := by
  simp only [BattleFrame.attackSkill] at ready
  split at ready
  · cases ready
  · rename_i notBuff
    split at ready
    · cases ready
    · rename_i stays
      exact ⟨notBuff, fun isOrb => Bool.eq_false_of_not_eq_true fun moves => stays ⟨isOrb, moves⟩,
        ready⟩

namespace Battle

variable {battle next : Battle} {frame : BattleFrame} {monster : MonsterData}

/-- The entry that an attack uses. -/
def Picks (battle : Battle) (frame : BattleFrame) (entry : ℕ) (skill : DoSkill)
    (actorSkill : ActorSkill) : Prop :=
  firstEntry (frame.attackSkill battle.tick) battle.skillList = some (entry, skill, actorSkill)

theorem attackTarget_cases (battle : Battle) (frame : BattleFrame) (monster : MonsterData) :
    battle.attackTarget frame monster = battle ∨
      ∃ entry skill actorSkill, battle.Picks frame entry skill actorSkill ∧
        battle.attackTarget frame monster =
          { battle.issue (.attack entry actorSkill.id monster (decide (skill.isBuff = 2))) 3 with
            skillList := battle.skillList.modify entry fun skill =>
              { skill with coolTime := battle.tick } } := by
  simp only [attackTarget]
  split
  · exact .inl rfl
  · rename_i entry skill actorSkill picks
    exact .inr ⟨entry, skill, actorSkill, picks, rfl⟩

/-- The times at which an entry of the skill list was used to attack. -/
def attackTimes (battle : Battle) (entry : ℕ) : List ℕ :=
  BattleLog.timesOf (BattleCommand.usesSkill entry) battle.log

def jumpTimes (battle : Battle) (entry : ℕ) : List ℕ :=
  BattleLog.timesOf (BattleCommand.usesForwardSkill entry) battle.log

/-- Both lists cool down. -/
structure Cooling (battle : Battle) : Prop where
  attacks : Cooled battle.tick battle.attackTimes
    (skillListWitch.map DoSkill.toDoForwardSkill) (battle.skillList.map DoSkill.toDoForwardSkill)
  jumps : Cooled battle.tick
    battle.jumpTimes
    forwardSkillListWitch battle.forwardSkillList

theorem Cooling.init : Cooling init where
  attacks := .init (by decide)
  jumps := .init (by decide)

/-- A call that uses no skill of the lists. -/
theorem Cooling.of_same (cooling : battle.Cooling) (isLater : battle.tick ≤ next.tick)
    (sameSkills : next.skillList = battle.skillList)
    (sameForward : next.forwardSkillList = battle.forwardSkillList)
    (sameAttacks : ∀ entry, next.attackTimes entry =
      battle.attackTimes entry)
    (sameJumps : ∀ entry, next.jumpTimes entry =
      battle.jumpTimes entry) : next.Cooling where
  attacks := sameSkills ▸ cooling.attacks.wait isLater sameAttacks
  jumps := sameForward ▸ cooling.jumps.wait isLater sameJumps

theorem Cooling.issue (cooling : battle.Cooling) {command : BattleCommand}
    (notAttack : ∀ entry, command.usesSkill entry = false)
    (notJump : ∀ entry, command.usesForwardSkill entry = false)
    (log_eq : next.log = (battle.tick, command) :: battle.log) (sameTick : next.tick = battle.tick)
    (sameSkills : next.skillList = battle.skillList)
    (sameForward : next.forwardSkillList = battle.forwardSkillList) : next.Cooling := by
  apply cooling.of_same (sameTick ▸ UInt64.le_refl _) sameSkills sameForward
  · intro entry
    rw [attackTimes, log_eq, BattleLog.timesOf_cons, notAttack]
    rfl
  · intro entry
    rw [jumpTimes, log_eq, BattleLog.timesOf_cons, notJump]
    rfl

theorem map_modify_coolTime (skills : List DoSkill) (entry : ℕ) (tick : UInt64) :
    (skills.modify entry fun skill => { skill with coolTime := tick }).map
        DoSkill.toDoForwardSkill =
      (skills.map DoSkill.toDoForwardSkill).modify entry fun skill =>
        { skill with coolTime := tick } :=
  map_modify_entry fun _ => rfl

theorem attackTarget_cooling (cooling : battle.Cooling) (frame : BattleFrame)
    (monster : MonsterData) : (battle.attackTarget frame monster).Cooling := by
  rcases battle.attackTarget_cases frame monster with
    same | ⟨entry, skill, actorSkill, picks, attack_eq⟩
  · exact same.symm ▸ cooling
  · rw [attack_eq]
    rcases firstEntry_spec picks with ⟨isSkill, ready, -⟩
    rcases BattleFrame.attackSkill_spec ready with ⟨-, -, isReady⟩
    rcases BattleFrame.readySkill_spec isReady with ⟨-, -, isOver⟩
    have isEntry : (battle.skillList.map DoSkill.toDoForwardSkill)[entry]? =
        some skill.toDoForwardSkill := by
      rw [List.getElem?_map, isSkill]
      rfl
    constructor
    · simp only [map_modify_coolTime]
      apply cooling.attacks.use (by decide) isEntry isOver
      · exact (BattleLog.timesOf_cons _ _ _ _).trans (if_pos (decide_eq_true (Eq.refl entry)))
      · intro other different
        exact (BattleLog.timesOf_cons _ _ _ _).trans
          (if_neg (by simpa [BattleCommand.usesSkill] using different.symm))
    · apply cooling.jumps.wait (UInt64.le_refl _)
      intro other
      exact (BattleLog.timesOf_cons _ _ _ _).trans (if_neg Bool.false_ne_true)

theorem useForwardSkill_cooling (cooling : battle.Cooling) {posTarget : IVector}
    (uses : battle.useForwardSkill frame posTarget = some next) : next.Cooling := by
  rcases Option.map_eq_some_iff.mp uses with ⟨⟨entry, skill, actorSkill⟩, picks, rfl⟩
  rcases firstEntry_spec picks with ⟨isSkill, ready, -⟩
  rcases BattleFrame.readySkill_spec ready with ⟨-, -, isOver⟩
  constructor
  · apply cooling.attacks.wait (UInt64.le_refl _)
    intro other
    exact (BattleLog.timesOf_cons _ _ _ _).trans (if_neg Bool.false_ne_true)
  · apply cooling.jumps.use (by decide) isSkill isOver
    · exact (BattleLog.timesOf_cons _ _ _ _).trans (if_pos (decide_eq_true (Eq.refl entry)))
    · intro other different
      exact (BattleLog.timesOf_cons _ _ _ _).trans
        (if_neg (by simpa [BattleCommand.usesForwardSkill] using different.symm))

theorem Acts.cooling (acts : battle.Acts frame next) (cooling : battle.Cooling) :
    next.Cooling := by
  cases acts with
  | waits delay => exact ⟨cooling.attacks, cooling.jumps⟩
  | issues command delay isPlain =>
      exact cooling.issue (fun entry => (BattleCommand.isPlain_uses isPlain entry).1)
        (fun entry => (BattleCommand.isPlain_uses isPlain entry).2) rfl rfl rfl rfl
  | attacks monster _ _ => exact attackTarget_cooling cooling frame monster
  | jumps posTarget uses => exact useForwardSkill_cooling cooling uses
  | opens opens =>
      rcases Option.map_eq_some_iff.mp opens with ⟨found, -, rfl⟩
      exact cooling.issue (fun _ => rfl) (fun _ => rfl) rfl rfl rfl rfl
  | dies => exact cooling.issue (fun _ => rfl) (fun _ => rfl) rfl rfl rfl rfl

theorem invariant_cooling : system.Invariant Cooling where
  initial battle starts := by
    obtain rfl : battle = Battle.init := starts
    exact .init
  step battle frame next cooling moves := by
    rcases moves with ⟨isLater, rfl⟩
    apply (battle.main_acts frame).cooling
    exact cooling.of_same isLater rfl rfl (fun _ => rfl) fun _ => rfl

/-- A boss in a room of its own. -/
def shavronne : MonsterData where
  address := 64
  id := 7
  path := wide "Metadata/Monsters/Shavronne"
  name := wide "Shavronne of Umbra"
  curHP := 100
  gridPos := ⟨30, 40⟩
  isTargetable := true
  actionID := 0

/-- The object that leads into the room. -/
def roomEntrance : OtherData where
  address := 128
  id := 8
  path := wide "Metadata/Terrain/Mountain/Belly/Objects/BellyArenaTransition"
  renderName := wide "Shavronne's Arena"
  gridPos := ⟨10, 0⟩
  flag1 := 1

def harvestMemory : GameMemory where
  toTextMemory := twoNodes
  path address := if address = 64 then shavronne.path else roomEntrance.path
  player _ := ⟨0, 1, ⟨0, 0⟩, 100, 10, false, false, [], false, []⟩
  npc _ := ⟨0, 0, []⟩
  monster _ := shavronne
  worldItem _ := ⟨0, 0⟩
  chest _ := ⟨0, 0⟩
  other _ := roomEntrance

/-- A call on the hunt for the boss. The player has one skill, on the skill bar. -/
def harvestFrame (now : UInt64) (entity : Entity) : BattleFrame where
  now := now
  reachesMain := true
  reachesBattle := true
  handled := false
  delayLeft := 2
  memory := harvestMemory
  localPlayer := ⟨0, 1, ⟨0, 0⟩, 100, 10, false, false, [], false, [⟨wide "Fireball", 5⟩]⟩
  entityCache := [entity]
  map := { mapWidth := 0, mapHeight := 0, blockBuffer := [], size := rfl }
  isTown := false
  skillBarSkills := [⟨wide "Fireball", 5⟩]
  flasks := []
  mainInventory := []
  currentQuest := ⟨.hunt, wide "Shavronne of Umbra@Maligaro, The Inquisitor",
    wide "Shavronne's Arena@Maligaro's Arena"⟩
  inQuestArea := true
  specialProcMonsterPanel := false
  stuckAt := none

def entranceFrame : BattleFrame := harvestFrame 1000 ⟨128, 8⟩

def bossFrame : BattleFrame := harvestFrame 2000 ⟨64, 7⟩

/-- The entrance has been selected, and its delay is over. -/
def inRoom : Battle :=
  (((((init.main entranceFrame).main bossFrame).main bossFrame).main bossFrame).main
    bossFrame).main bossFrame

theorem inRoom_reached : system.Reachable inRoom := by
  have selected : system.Reachable (init.main entranceFrame) :=
    .step (.initial rfl) ⟨by decide +kernel, rfl⟩
  have waited : ∀ battle, system.Reachable battle → battle.tick ≤ bossFrame.now →
      system.Reachable (battle.main bossFrame) :=
    fun battle reached isLater => .step reached ⟨isLater, rfl⟩
  apply waited _ _ (by decide +kernel)
  apply waited _ _ (by decide +kernel)
  apply waited _ _ (by decide +kernel)
  apply waited _ _ (by decide +kernel)
  exact waited _ selected (by decide +kernel)

/-- The boss is attacked with the skill, the seventh of the list. -/
theorem inRoom_attacks : (inRoom.main bossFrame).log =
    (2000, .attack 6 5 shavronne false) :: inRoom.log := by decide +kernel

/-- In every run two uses of an attack skill, or of the forward skill, are its delay apart, so in a
window of time it is used at most once for each delay that fits into it and once more. -/
theorem skills_spaced (reached : system.Reachable battle) :
    (∀ entry skill, skillListWitch[entry]? = some skill →
      Spaced (100 * skill.delay.toNat) (battle.attackTimes entry) ∧
        ∀ start width, ((battle.attackTimes entry).filter fun time =>
          start ≤ time ∧ time ≤ start + width).length ≤ width / (100 * skill.delay.toNat) + 1) ∧
      ∀ entry skill, forwardSkillListWitch[entry]? = some skill →
        Spaced (100 * skill.delay.toNat) (battle.jumpTimes entry) ∧
          ∀ start width, ((battle.jumpTimes entry).filter fun time =>
            start ≤ time ∧ time ≤ start + width).length ≤
              width / (100 * skill.delay.toNat) + 1 := by
  rcases invariant_cooling.of_reachable reached with ⟨attacks, jumps⟩
  constructor
  · intro entry skill isSkill
    have positive : ∀ skill ∈ skillListWitch, 0 < 100 * skill.delay.toNat := by decide
    have isEntry : (skillListWitch.map DoSkill.toDoForwardSkill)[entry]? =
        some skill.toDoForwardSkill := by
      rw [List.getElem?_map, isSkill]
      rfl
    have spaced := attacks.spaced_table isEntry
    exact ⟨spaced, spaced.length_window (positive skill (List.mem_of_getElem? isSkill))⟩
  · intro entry skill isSkill
    have positive : ∀ skill ∈ forwardSkillListWitch, 0 < 100 * skill.delay.toNat := by decide
    have spaced := jumps.spaced_table isSkill
    exact ⟨spaced, spaced.length_window (positive skill (List.mem_of_getElem? isSkill))⟩

theorem skills_spaced_inRoom :
    (∀ entry skill, skillListWitch[entry]? = some skill →
      Spaced (100 * skill.delay.toNat) ((inRoom.main bossFrame).attackTimes entry) ∧
        ∀ start width, (((inRoom.main bossFrame).attackTimes entry).filter fun time =>
          start ≤ time ∧ time ≤ start + width).length ≤ width / (100 * skill.delay.toNat) + 1) ∧
      ∀ entry skill, forwardSkillListWitch[entry]? = some skill →
        Spaced (100 * skill.delay.toNat) ((inRoom.main bossFrame).jumpTimes entry) ∧
          ∀ start width, (((inRoom.main bossFrame).jumpTimes entry).filter fun time =>
            start ≤ time ∧ time ≤ start + width).length ≤
              width / (100 * skill.delay.toNat) + 1 :=
  skills_spaced (.step inRoom_reached ⟨by decide +kernel, rfl⟩)

end Battle

end PoETask.Attach
