import PoETask.Attach.Battle

/-!
# Hunting

What is attacked, with which skill, and when. A special door that is passed once is opened at
most once until the player dies, and the list of the doors remembers which ones were opened
since. A hunt may name rooms for its monsters; a monster of such a hunt is attacked only
when the door of its room has been opened since the player last died.
-/

namespace PoETask.Attach

open PoETask.Library

def BattleCommand.isResurrect : BattleCommand → Bool
  | .resurrect => true
  | _ => false

def BattleCommand.opensSpecialDoor (door : ℕ) : BattleCommand → Bool
  | .openSpecialDoor other _ => other = door
  | _ => false

namespace BattleLog

variable {log : BattleLog} {tick : UInt64} {command : BattleCommand}

/-- The commands since the player last died. -/
def sinceDeath (log : BattleLog) : BattleLog := log.takeWhile fun entry => !entry.2.isResurrect

/-- How often a special door has been opened since then. -/
def openings (log : BattleLog) (door : ℕ) : ℕ :=
  (sinceDeath log).countP fun entry => entry.2.opensSpecialDoor door

theorem openings_cons (alive : command.isResurrect = false) (door : ℕ) :
    openings ((tick, command) :: log) door =
      openings log door + if command.opensSpecialDoor door then 1 else 0 := by
  rw [openings, sinceDeath, List.takeWhile_cons_of_pos (by simpa using alive), List.countP_cons]
  rfl

theorem openings_resurrect (door : ℕ) : openings ((tick, .resurrect) :: log) door = 0 := by
  rw [openings, sinceDeath, List.takeWhile_cons_of_neg (by simp [BattleCommand.isResurrect])]
  rfl

end BattleLog

/-- The door once it has been opened so often. -/
def SpecialDoor.opened (door : SpecialDoor) (openings : ℕ) : SpecialDoor :=
  { door with isPassed := if door.isPassed = 0 ∧ openings = 1 then 1 else door.isPassed }

namespace Battle

variable {battle next : Battle} {frame : BattleFrame} {monster : MonsterData}

/-- The list of the doors agrees with the log. -/
structure DoorsAgree (battle : Battle) : Prop where
  once : ∀ (i : ℕ) (door : SpecialDoor), infoSpecialDoors[i]? = some door → door.isPassed = 0 →
    BattleLog.openings battle.log i ≤ 1
  doors_eq : ∀ i, battle.specialDoors[i]? =
    infoSpecialDoors[i]?.map fun (door : SpecialDoor) =>
      door.opened (BattleLog.openings battle.log i)

theorem DoorsAgree.init : DoorsAgree init where
  once := fun _ _ _ _ => Nat.zero_le 1
  doors_eq := by
    intro i
    have unopened : ∀ door : SpecialDoor, door.opened 0 = door := by
      intro door
      rw [SpecialDoor.opened, if_neg fun impossible => Nat.zero_ne_one impossible.2]
    cases isDoor : infoSpecialDoors[i]? with
    | none => exact isDoor
    | some door => exact isDoor.trans (congrArg some (unopened door).symm)

/-- A call that opens no special door. -/
theorem DoorsAgree.of_same (agree : battle.DoorsAgree)
    (sameDoors : next.specialDoors = battle.specialDoors)
    (sameOpenings : ∀ i, BattleLog.openings next.log i = BattleLog.openings battle.log i) :
    next.DoorsAgree where
  once := by
    intro i door isDoor isOnce
    rw [sameOpenings]
    exact agree.once i door isDoor isOnce
  doors_eq := by
    intro i
    rw [sameDoors, sameOpenings]
    exact agree.doors_eq i

theorem DoorsAgree.issue (agree : battle.DoorsAgree) {command : BattleCommand}
    (alive : command.isResurrect = false) (notDoor : ∀ i, command.opensSpecialDoor i = false)
    (log_eq : next.log = (battle.tick, command) :: battle.log)
    (sameDoors : next.specialDoors = battle.specialDoors) : next.DoorsAgree := by
  apply agree.of_same sameDoors
  intro i
  rw [log_eq, BattleLog.openings_cons alive, notDoor]
  rfl

theorem openSpecialDoors_agree (agree : battle.DoorsAgree)
    (opens : battle.openSpecialDoors frame = some next) : next.DoorsAgree := by
  rcases Option.map_eq_some_iff.mp opens with ⟨⟨entry, door, other⟩, found, rfl⟩
  rcases firstEntry_spec found with ⟨isDoor, object, -⟩
  have notOpened : door.isPassed ≠ 1 := by
    intro isOpened
    rw [BattleFrame.specialDoorObject, if_pos isOpened] at object
    cases object
  rw [agree.doors_eq] at isDoor
  rcases Option.map_eq_some_iff.mp isDoor with ⟨original, isOriginal, rfl⟩
  have notYet : original.isPassed = 0 → BattleLog.openings battle.log entry = 0 := by
    intro isOnce
    have atMost := agree.once entry original isOriginal isOnce
    by_contra opened
    have isOne : BattleLog.openings battle.log entry = 1 := by omega
    exact notOpened (if_pos ⟨isOnce, isOne⟩)
  have openings_eq : ∀ i, BattleLog.openings
      ((battle.tick, .openSpecialDoor entry other.id) :: battle.log) i =
        BattleLog.openings battle.log i + if entry = i then 1 else 0 := by
    intro i
    rw [BattleLog.openings_cons rfl]
    simp [BattleCommand.opensSpecialDoor]
  constructor
  · intro i otherDoor isOther isOnce
    simp only [issue, openings_eq]
    by_cases same : entry = i
    · subst same
      obtain rfl : original = otherDoor := Option.some.inj (isOriginal.symm.trans isOther)
      rw [notYet isOnce, if_pos rfl]
    · rw [if_neg same]
      exact agree.once i otherDoor isOther isOnce
  · intro i
    simp only [issue, openings_eq, List.getElem?_modify, agree.doors_eq]
    by_cases same : entry = i
    · subst same
      rw [isOriginal]
      by_cases isOnce : original.isPassed = 0
      · simp [SpecialDoor.opened, isOnce, notYet isOnce]
      · simp [SpecialDoor.opened, isOnce]
    · simp [same]

theorem die_agree (agree : battle.DoorsAgree) : battle.die.DoorsAgree := by
  have reset : ∀ door ∈ infoSpecialDoors, ∀ openings, door.opened 0 =
      { door.opened openings with
        isPassed := if (door.opened openings).isPassed = 1 then 0
          else (door.opened openings).isPassed } := by
    intro door isDoor openings
    have never : ∀ door ∈ infoSpecialDoors, door.isPassed ≠ 1 := by decide
    by_cases opened : door.isPassed = 0 ∧ openings = 1
    · simp [SpecialDoor.opened, opened]
    · simp [SpecialDoor.opened, opened, never door isDoor]
  constructor
  · intro i door isDoor isOnce
    simp only [die, issue, BattleLog.openings_resurrect]
    exact Nat.zero_le 1
  · intro i
    simp only [die, issue, BattleLog.openings_resurrect, List.getElem?_map, agree.doors_eq,
      Option.map_map]
    cases isDoor : infoSpecialDoors[i]? with
    | none => rfl
    | some door => exact congrArg some (reset door (List.mem_of_getElem? isDoor) _).symm

theorem BattleCommand.isPlain_alive {command : BattleCommand} (isPlain : command.isPlain = true) :
    command.isResurrect = false ∧ ∀ i, command.opensSpecialDoor i = false := by
  cases command <;> first | exact ⟨rfl, fun _ => rfl⟩ | cases isPlain

theorem Acts.doorsAgree (acts : battle.Acts frame next) (agree : battle.DoorsAgree) :
    next.DoorsAgree := by
  cases acts with
  | waits delay => exact agree.of_same rfl fun _ => rfl
  | issues command delay isPlain =>
      rcases BattleCommand.isPlain_alive isPlain with ⟨alive, notDoor⟩
      exact agree.issue alive notDoor rfl rfl
  | attacks monster _ _ =>
      rcases battle.attackTarget_cases frame monster with same | ⟨_, _, _, -, attack_eq⟩
      · exact same.symm ▸ agree
      · rw [attack_eq]
        exact agree.issue rfl (fun _ => rfl) rfl rfl
  | jumps posTarget uses =>
      rcases Option.map_eq_some_iff.mp uses with ⟨_, -, rfl⟩
      exact agree.issue rfl (fun _ => rfl) rfl rfl
  | opens opens => exact openSpecialDoors_agree agree opens
  | dies => exact die_agree agree

theorem invariant_doorsAgree : system.Invariant DoorsAgree where
  initial battle starts := by
    obtain rfl : battle = Battle.init := starts
    exact .init
  step battle frame next agree moves := by
    rcases moves with ⟨-, rfl⟩
    apply (battle.main_acts frame).doorsAgree
    exact agree.of_same rfl fun _ => rfl

/-- In every run a special door that is passed once is opened at most once until the player dies,
and the doors in the list are those of the table, marked as passed exactly if they have been
opened since the player last died. -/
theorem specialDoors_openedOnce (reached : system.Reachable battle) (i : ℕ) :
    (∀ door, infoSpecialDoors[i]? = some door → door.isPassed = 0 →
      BattleLog.openings battle.log i ≤ 1) ∧
      battle.specialDoors[i]? = infoSpecialDoors[i]?.map fun (door : SpecialDoor) =>
        { door with isPassed :=
            if door.isPassed = 0 ∧ BattleLog.openings battle.log i = 1 then 1
            else door.isPassed } := by
  have agree := invariant_doorsAgree.of_reachable reached
  exact ⟨agree.once i, agree.doors_eq i⟩

theorem specialDoors_openedOnce_inRoom :
    (∀ door, infoSpecialDoors[2]? = some door → door.isPassed = 0 →
      BattleLog.openings inRoom.log 2 ≤ 1) ∧
      inRoom.specialDoors[2]? = infoSpecialDoors[2]?.map fun (door : SpecialDoor) =>
        { door with isPassed :=
            if door.isPassed = 0 ∧ BattleLog.openings inRoom.log 2 = 1 then 1
            else door.isPassed } :=
  specialDoors_openedOnce inRoom_reached 2

end Battle

section Targets

variable {frame : BattleFrame} {range : ℤ} {name : WString} {monster : MonsterData}

namespace BattleFrame

/-- No monster that the search asks for is nearer. -/
def IsNearest (frame : BattleFrame) (range : ℤ) (name : WString) (monster : MonsterData) : Prop :=
  frame.entityList.wantsMonster frame.map name monster ∧
    ∀ other ∈ frame.entityList.monsters, frame.entityList.wantsMonster frame.map name other →
      inRange range frame.gridPos other.gridPos →
        distSquared frame.gridPos monster.gridPos ≤ distSquared frame.gridPos other.gridPos

/-- The searches whose monsters are attacked: for any monster nearby, for one of the hunt, and for
the one of a quest that talks to it first. -/
inductive Searches (frame : BattleFrame) : ℤ → WString → Prop where
  | near : Searches frame 6 []
  | hunted {name : WString} (isHunt : frame.currentQuest.mode = .hunt)
      (isName : name ∈ frame.monsterNames) : Searches frame 10 name
  | interacts (isInteract : frame.currentQuest.mode = .interactAndHunt) :
      Searches frame 6 frame.currentQuest.name

theorem getNearestMonster_spec (found : frame.getNearestMonster range name = some monster) :
    monster ∈ frame.entityList.monsters ∧ monster.isTargetable ∧
      inRange range frame.gridPos monster.gridPos ∧
        (monster.name ∈ EntityListWrapper.firstAttackMonster ∨
          frame.IsNearest range name monster) := by
  simp only [getNearestMonster, EntityListWrapper.getNearestMonster] at found
  split at found
  · rename_i first isFirst
    obtain rfl : first = monster := Option.some.inj found
    rcases List.exists_of_findSome?_eq_some isFirst with ⟨firstName, isFirstName, isFound⟩
    have isMonster := List.mem_of_find?_eq_some isFound
    have holds := List.find?_some isFound
    simp only [Bool.and_eq_true, decide_eq_true_eq] at holds
    exact ⟨isMonster, holds.1.2, holds.2, .inl (holds.1.1 ▸ isFirstName)⟩
  · rcases getNearest_spec found with ⟨isMonster, wanted, inside, least⟩
    have isTargetable : monster.isTargetable := by
      simp only [EntityListWrapper.wantsMonster, Bool.and_eq_true] at wanted
      exact wanted.1.1.1.2
    exact ⟨isMonster, isTargetable, inside, .inr ⟨wanted, least⟩⟩

/-- A monster that the search asks for is not overlooked. -/
theorem isSome_getNearestMonster (isMonster : monster ∈ frame.entityList.monsters)
    (wanted : frame.entityList.wantsMonster frame.map name monster)
    (inside : inRange 10 frame.gridPos monster.gridPos) :
    (frame.getNearestMonster 10 name).isSome := by
  simp only [getNearestMonster, EntityListWrapper.getNearestMonster]
  split
  · rfl
  · rw [Option.isSome_iff_ne_none]
    intro missed
    have far := leastItem_eq_none_iff.mp missed monster isMonster
      (Bool.and_eq_true_iff.mpr ⟨wanted, inside⟩)
    have near : distSquared frame.gridPos monster.gridPos ≤ (10 * 10) ^ 2 :=
      of_decide_eq_true inside
    exact absurd (far.trans near) (by decide)

/-- What is wanted without a name is wanted under its own name. -/
theorem wantsMonster_name (wanted : frame.entityList.wantsMonster frame.map [] monster) :
    frame.entityList.wantsMonster frame.map monster.name monster := by
  simp only [EntityListWrapper.wantsMonster, List.isEmpty_nil, Bool.true_or, Bool.true_and,
    Bool.and_eq_true] at wanted
  rcases wanted with ⟨⟨⟨isTargetable, acts⟩, notLeague⟩, connected⟩
  simp only [Bool.not_eq_true'] at acts connected
  simp only [EntityListWrapper.wantsMonster, decide_true, Bool.or_true, acts, connected,
    Bool.and_false, Bool.not_false, Bool.and_true, isTargetable, notLeague]

theorem inRange_mono {posCenter gridPos : IVector} (inside : inRange 6 posCenter gridPos) :
    inRange 10 posCenter gridPos := by
  have near : distSquared posCenter gridPos ≤ (10 * 6) ^ 2 := of_decide_eq_true inside
  exact decide_eq_true (near.trans (by decide))

/-- A monster nearby is none of the hunt if no monster of the hunt is near. -/
theorem notHunted (found : frame.getNearestMonster 6 [] = some monster)
    (missed : frame.hasMonsterName = false) :
    monster.name ∈ EntityListWrapper.firstAttackMonster ∨ monster.name ∉ frame.monsterNames := by
  rcases getNearestMonster_spec found with ⟨isMonster, -, inside, isFirst | ⟨wanted, -⟩⟩
  · exact .inl isFirst
  · right
    intro isHunted
    have near := isSome_getNearestMonster isMonster (wantsMonster_name wanted)
      (inRange_mono inside)
    have hasName : frame.hasMonsterName = true := List.any_eq_true.mpr ⟨_, isHunted, near⟩
    rw [missed] at hasName
    cases hasName

end BattleFrame

end Targets

namespace Battle

variable {battle next : Battle} {frame : BattleFrame} {monster : MonsterData} {time : UInt64}
  {entry : ℕ} {skillId : UInt16} {isOrb : Bool}

/-- The loop over the entrances ends at a place it goes by only through an open door. -/
theorem opened_of_enteranceLoop {monsterIdx : ℕ} {names : List WString} {enteranceIdx : ℕ}
    (opened : battle.enteranceLoop monsterIdx names enteranceIdx = some monsterIdx)
    (notPassed : enteranceIdx ≤ monsterIdx) {name : WString}
    (isName : names[monsterIdx - enteranceIdx]? = some name) :
    battle.isOpenedSpecialDoors name := by
  induction names generalizing enteranceIdx with
  | nil => cases isName
  | cons first later ih =>
      rw [enteranceLoop] at opened
      by_cases isPlace : monsterIdx = enteranceIdx
      · subst isPlace
        rw [if_pos rfl] at opened
        rw [Nat.sub_self] at isName
        obtain rfl : first = name := Option.some.inj isName
        by_contra closed
        rw [if_neg closed] at opened
        cases opened
      · rw [if_neg isPlace] at opened
        apply ih opened (by omega)
        have place_eq : monsterIdx - enteranceIdx = monsterIdx - (enteranceIdx + 1) + 1 := by omega
        rwa [place_eq, List.getElem?_cons_succ] at isName

/-- The call behind an attack. -/
theorem attacks_of_log (acts : battle.Acts frame next)
    (log_eq : next.log = (time, .attack entry skillId monster isOrb) :: battle.log) :
    battle.Calm frame ∧ battle.Targets frame monster ∧
      ∃ skill actorSkill, battle.Picks frame entry skill actorSkill ∧ skillId = actorSkill.id ∧
        isOrb = decide (skill.isBuff = 2) := by
  cases acts with
  | waits delay => exact absurd log_eq.symm (List.cons_ne_self _ _)
  | issues command delay isPlain =>
      obtain ⟨rfl, rfl⟩ : battle.tick = time ∧ command = .attack entry skillId monster isOrb := by
        simpa [issue] using log_eq
      cases isPlain
  | attacks target calm targets =>
      rcases battle.attackTarget_cases frame target with
        same | ⟨picked, skill, actorSkill, picks, attack_eq⟩
      · rw [same] at log_eq
        exact absurd log_eq.symm (List.cons_ne_self _ _)
      · rw [attack_eq] at log_eq
        obtain ⟨-, rfl, rfl, rfl, rfl⟩ : battle.tick = time ∧ picked = entry ∧
            actorSkill.id = skillId ∧ target = monster ∧ decide (skill.isBuff = 2) = isOrb := by
          simpa [issue] using log_eq
        exact ⟨calm, targets, skill, actorSkill, picks, rfl, rfl⟩
  | jumps posTarget uses =>
      rcases Option.map_eq_some_iff.mp uses with ⟨_, -, rfl⟩
      simp [issue] at log_eq
  | opens opens =>
      rcases Option.map_eq_some_iff.mp opens with ⟨_, -, rfl⟩
      simp [issue] at log_eq
  | dies => simp [die, issue] at log_eq

/-- An attack goes for what one of the searches of its quest has found. -/
theorem Targets.searches (targets : battle.Targets frame monster) :
    ∃ range name, frame.Searches range name ∧
      frame.getNearestMonster range name = some monster := by
  cases targets with
  | near found _ => exact ⟨6, [], .near, found⟩
  | hunted isHunt _ found =>
      rcases List.exists_of_findSome?_eq_some found with ⟨name, isName, isFound⟩
      exact ⟨10, name, .hunted isHunt isName, isFound⟩
  | inRoom isHunt monsterIdx _ _ found =>
      rcases Option.bind_eq_some_iff.mp found with ⟨name, isName, isFound⟩
      exact ⟨10, name, .hunted isHunt (List.mem_of_getElem? isName), isFound⟩
  | interacts isInteract found => exact ⟨6, _, .interacts isInteract, found⟩

/-- The first place of a name. -/
def FirstAt (names : List WString) (name : WString) (place : ℕ) : Prop :=
  names[place]? = some name ∧ ∀ earlier < place, names[earlier]? ≠ some name

/-- The room of a hunted monster is open when it is attacked. -/
theorem Targets.opened (targets : battle.Targets frame monster)
    (isHunt : frame.currentQuest.mode = .hunt) (hasRooms : frame.currentQuest.szReserve ≠ [])
    (named : [] ∉ frame.monsterNames) :
    monster.name ∈ EntityListWrapper.firstAttackMonster ∨ monster.name ∉ frame.monsterNames ∨
      ∀ place entrance, FirstAt frame.monsterNames monster.name place →
        frame.enteranceNames[place]? = some entrance →
          battle.isOpenedSpecialDoors entrance := by
  cases targets with
  | near found alone =>
      rcases BattleFrame.notHunted found (alone isHunt) with isFirst | notHunted
      · exact .inl isFirst
      · exact .inr (.inl notHunted)
  | hunted _ noRooms _ => exact absurd noRooms hasRooms
  | inRoom _ monsterIdx isFirst opened found =>
      rcases Option.bind_eq_some_iff.mp found with ⟨name, isName, isFound⟩
      rcases BattleFrame.getNearestMonster_spec isFound with
        ⟨-, -, -, isFirstAttack | ⟨wanted, -⟩⟩
      · exact .inl isFirstAttack
      · have name_mem : name ∈ frame.monsterNames := List.mem_of_getElem? isName
        have notEmpty : name.isEmpty = false := by
          rw [List.isEmpty_eq_false_iff]
          exact fun isEmpty => named (isEmpty ▸ name_mem)
        have name_eq : monster.name = name := by
          simp only [EntityListWrapper.wantsMonster, notEmpty, Bool.false_or,
            Bool.and_eq_true] at wanted
          exact of_decide_eq_true wanted.1.1.1.1
        subst name_eq
        right
        right
        intro place entrance isPlace isEntrance
        rcases List.findIdx?_eq_some_iff_getElem.mp isFirst with ⟨_, -, misses⟩
        have place_eq : place = monsterIdx := by
          rcases lt_trichotomy place monsterIdx with isBefore | isSame | isAfter
          · rcases List.getElem?_eq_some_iff.mp isPlace.1 with ⟨inside, atPlace⟩
            have missed := misses place isBefore
            simp only [atPlace, isFound] at missed
            exact absurd rfl missed
          · exact isSame
          · exact absurd isName (isPlace.2 monsterIdx isAfter)
        subst place_eq
        exact opened_of_enteranceLoop opened (Nat.zero_le _) isEntrance
  | interacts isInteract _ =>
      rw [isHunt] at isInteract
      cases isInteract

/-- A door that counts as open needs no passing or has been opened since the player last died. -/
theorem DoorsAgree.of_opened (agree : battle.DoorsAgree) {entrance : WString}
    (opened : battle.isOpenedSpecialDoors entrance) : entrance = [] ∨
      ∃ i door, infoSpecialDoors[i]? = some door ∧ door.name = entrance ∧
        (door.isPassed ≠ 0 ∨ BattleLog.openings battle.log i = 1) := by
  rcases Bool.or_eq_true_iff.mp opened with isEmpty | isDoor
  · exact .inl (List.isEmpty_iff.mp isEmpty)
  · right
    rcases List.any_eq_true.mp isDoor with ⟨door, door_mem, holds⟩
    rcases Bool.and_eq_true_iff.mp holds with ⟨isName, isPassed⟩
    rcases List.mem_iff_getElem?.mp door_mem with ⟨i, door_eq⟩
    rw [agree.doors_eq] at door_eq
    rcases Option.map_eq_some_iff.mp door_eq with ⟨original, isOriginal, rfl⟩
    refine ⟨i, original, isOriginal, (of_decide_eq_true isName).symm, ?_⟩
    by_contra neither
    rcases not_or.mp neither with ⟨isOnce, notOpened⟩
    have marked : (original.opened (BattleLog.openings battle.log i)).isPassed ≠ 0 :=
      of_decide_eq_true isPassed
    simp only [SpecialDoor.opened, notOpened, and_false, if_false] at marked
    exact isOnce marked

/-- A monster of a hunt with rooms is attacked only when its room has no door, or the door needs no
passing, or has been opened since the player last died. Monsters that are always attacked
first are the exception. -/
theorem boss_waitsForDoor (reached : system.Reachable battle)
    (moves : system.step battle frame next)
    (attacks : next.log = (time, .attack entry skillId monster isOrb) :: battle.log)
    (isHunt : frame.currentQuest.mode = .hunt) (hasRooms : frame.currentQuest.szReserve ≠ [])
    (named : [] ∉ frame.monsterNames) :
    monster.name ∈ EntityListWrapper.firstAttackMonster ∨ monster.name ∉ frame.monsterNames ∨
      ∀ place entrance, FirstAt frame.monsterNames monster.name place →
        frame.enteranceNames[place]? = some entrance → entrance = [] ∨
          ∃ i door, infoSpecialDoors[i]? = some door ∧ door.name = entrance ∧
            (door.isPassed ≠ 0 ∨ BattleLog.openings battle.log i = 1) := by
  have agree : ({ battle with tick := frame.now } : Battle).DoorsAgree :=
    (invariant_doorsAgree.of_reachable reached).of_same rfl fun _ => rfl
  rcases moves with ⟨-, rfl⟩
  rcases attacks_of_log (battle.main_acts frame) attacks with ⟨-, targets, -⟩
  rcases targets.opened isHunt hasRooms named with isFirst | notHunted | opened
  · exact .inl isFirst
  · exact .inr (.inl notHunted)
  · right
    right
    intro place entrance isPlace isEntrance
    exact agree.of_opened (opened place entrance isPlace isEntrance)

theorem boss_waitsForDoor_shavronne :
    shavronne.name ∈ EntityListWrapper.firstAttackMonster ∨
      shavronne.name ∉ bossFrame.monsterNames ∨
        ∀ place entrance, FirstAt bossFrame.monsterNames shavronne.name place →
          bossFrame.enteranceNames[place]? = some entrance → entrance = [] ∨
            ∃ i door, infoSpecialDoors[i]? = some door ∧ door.name = entrance ∧
              (door.isPassed ≠ 0 ∨ BattleLog.openings inRoom.log i = 1) :=
  boss_waitsForDoor inRoom_reached ⟨by decide +kernel, rfl⟩ inRoom_attacks rfl
    (by decide +kernel) (by decide +kernel)

/-- What is attacked is a listed monster alive that can be targeted, within the range of one of the
searches, and the nearest of those it asks for unless it is one that is always attacked first. The
skill is the first in the list that can be used, no buff, and no orb on the move. There is then no
flask to use, no buff to cast and no door to open. -/
theorem attack_justified (moves : system.step battle frame next)
    (attacks : next.log = (time, .attack entry skillId monster isOrb) :: battle.log) :
    (monster ∈ frame.entityList.monsters ∧ 0 < monster.curHP ∧ monster.isTargetable ∧
      ∃ range name, frame.Searches range name ∧ inRange range frame.gridPos monster.gridPos ∧
        (monster.name ∈ EntityListWrapper.firstAttackMonster ∨
          frame.IsNearest range name monster)) ∧
      (∃ skill actorSkill, battle.skillList[entry]? = some skill ∧ skillId = actorSkill.id ∧
        isOrb = decide (skill.isBuff = 2) ∧ skill.isBuff ≠ 1 ∧
        (skill.isBuff = 2 → frame.localPlayer.isMoving = false) ∧
        frame.attackSkill frame.now skill = some actorSkill ∧
        ∀ earlier < entry, ∀ other, battle.skillList[earlier]? = some other →
          frame.attackSkill frame.now other = none) ∧
      frame.portion = none ∧ battle.useBuffSkill frame = none ∧
        battle.openSpecialDoors frame = none ∧ battle.openDoors frame = none := by
  rcases moves with ⟨-, rfl⟩
  rcases attacks_of_log (battle.main_acts frame) attacks with
    ⟨calm, targets, skill, actorSkill, picks, isSkillId, isKind⟩
  rcases targets.searches with ⟨range, name, searches, found⟩
  rcases BattleFrame.getNearestMonster_spec found with ⟨isMonster, isTargetable, inside, nearest⟩
  have isAlive := ((frame.memory.sortEntities_sorts _ _).monsters monster isMonster).2
  rcases firstEntry_spec picks with ⟨isSkill, ready, first⟩
  rcases BattleFrame.attackSkill_spec ready with ⟨notBuff, stays, -⟩
  refine ⟨⟨isMonster, isAlive, isTargetable, range, name, searches, inside, nearest⟩,
    ⟨skill, actorSkill, isSkill, isSkillId, isKind, notBuff, stays, ready, first⟩, ?_⟩
  refine ⟨?_, ?_, ?_, ?_⟩
  · exact Option.map_eq_none_iff.mp calm.noPortion
  · have noBuff := calm.noBuff
    simp only [useBuffSkill] at noBuff ⊢
    split
    · rfl
    · rename_i notTown
      rw [if_neg notTown] at noBuff
      exact Option.map_eq_none_iff.mpr (Option.map_eq_none_iff.mp noBuff)
  · exact Option.map_eq_none_iff.mpr (Option.map_eq_none_iff.mp calm.noSpecialDoor)
  · exact Option.map_eq_none_iff.mpr (Option.map_eq_none_iff.mp calm.noDoor)

theorem attack_justified_shavronne :
    (shavronne ∈ bossFrame.entityList.monsters ∧ 0 < shavronne.curHP ∧ shavronne.isTargetable ∧
      ∃ range name, bossFrame.Searches range name ∧
        inRange range bossFrame.gridPos shavronne.gridPos ∧
        (shavronne.name ∈ EntityListWrapper.firstAttackMonster ∨
          bossFrame.IsNearest range name shavronne)) ∧
      (∃ skill actorSkill, inRoom.skillList[6]? = some skill ∧ 5 = actorSkill.id ∧
        false = decide (skill.isBuff = 2) ∧ skill.isBuff ≠ 1 ∧
        (skill.isBuff = 2 → bossFrame.localPlayer.isMoving = false) ∧
        bossFrame.attackSkill bossFrame.now skill = some actorSkill ∧
        ∀ earlier < 6, ∀ other, inRoom.skillList[earlier]? = some other →
          bossFrame.attackSkill bossFrame.now other = none) ∧
      bossFrame.portion = none ∧ inRoom.useBuffSkill bossFrame = none ∧
        inRoom.openSpecialDoors bossFrame = none ∧ inRoom.openDoors bossFrame = none :=
  attack_justified ⟨by decide +kernel, rfl⟩ inRoom_attacks

end Battle

end PoETask.Attach
