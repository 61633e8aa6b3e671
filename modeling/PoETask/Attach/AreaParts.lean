import PoETask.Attach.Geometry
import PoETask.Library.StepSystem
import Mathlib.Data.List.Nodup

/-!
# The parts of an area

Some areas consist of parts that entrances lead between. `LoadObjectCache` notes the
entrances in the order in which they come into sight, entrances at even and exits at odd
places. `QuestRun` keeps the number of the current part, chooses another part to go to and
selects an entrance or an exit that it has noted. When the selected object is out of sight
the part has changed; a part that was searched in vain is left by an exit, and its entrance
is noted as one to be skipped.

A tick brings along what it observes of the game and of the route.
-/

namespace PoETask.Attach

open PoETask.Library

structure IconInfo where
  partIndex : UInt32
  next : UInt8
  unique : Bool
  szIconName : String
  szName : String
  szPath : String

structure SpecialAreaInfo where
  partCount : UInt32
  waypointPartIndex : UInt32
  usePortal : Bool
  minimapIcons : List IconInfo

/-- An object among `others`. -/
structure OtherObject where
  id : UInt32
  renderName : String
  path : String
  gridPos : IVector

/-- `NOINDEX`, for no part. -/
abbrev noPart : UInt32 := 0xFFFFFFFF

/-- `NOINDEX - 1`, for the part before. -/
abbrev backPart : UInt32 := 0xFFFFFFFE

structure AreaParts where
  entranceCache : List UInt32
  skipEntrances : List UInt32
  currentAreaPart : UInt32
  toPartIndex : UInt32
  selectedObjectID : UInt32
  prevEntranceCacheSize : ℕ
  fullPathLoadCount : ℕ
  newMapBlock : Bool
  deriving DecidableEq

/-- The observations of one tick. `nextArea` tells whether the player is on a route, and the name
of the next area on it; `questPart` is the part of the quest if this is its area. -/
structure AreaPartsTick where
  specialArea : Option SpecialAreaInfo
  others : List OtherObject
  gridPos : IVector
  isDead : Bool
  arrived : Bool
  comesThrough : Bool
  uniqueIcon : IconInfo → Bool
  nextArea : Option (Option String)
  takesPortal : Bool
  questPart : Option UInt8
  onFullPath : Bool
  loadTargetPath : IVector → Bool
  waypointArea : Option SpecialAreaInfo

/-- `GetNearestObjectByID` from the player, without a look at the connection. -/
def AreaPartsTick.getNearestObjectByID (tick : AreaPartsTick) (range : ℤ) (id : UInt32) :
    Option OtherObject :=
  tick.others.foldl
    (fun nearest object =>
      if object.id ≠ id then nearest
      else if distSquared tick.gridPos object.gridPos > (10 * range) ^ 2 then nearest
      else
        match nearest with
        | none => some object
        | some other =>
            if distSquared tick.gridPos object.gridPos < distSquared tick.gridPos other.gridPos then
              some object
            else
              nearest)
    none

namespace AreaParts

/-- The special entrances of `LoadObjectCache`. -/
def addEntrance (area : SpecialAreaInfo) (parts : AreaParts) (object : OtherObject) : AreaParts :=
  if object.id ∈ parts.entranceCache then parts
  else if object.id ∈ parts.skipEntrances then parts
  else if area.minimapIcons.any fun icon => (icon.next = 0 ∨ icon.next = 1) ∧
      object.renderName = icon.szName ∧ object.path = icon.szPath then
    { parts with entranceCache := parts.entranceCache ++ [object.id] }
  else parts

def loadObjectCache (parts : AreaParts) (tick : AreaPartsTick) : AreaParts :=
  match tick.specialArea with
  | none => parts
  | some area => tick.others.foldl (addEntrance area) parts

def startMap (parts : AreaParts) : AreaParts :=
  if parts.newMapBlock then
    { parts with newMapBlock := false, prevEntranceCacheSize := 0, fullPathLoadCount := 0 }
  else
    parts

/-- Back from a part that was searched in vain: its entrance is skipped, its exit forgotten. -/
def skipPart (parts : AreaParts) (entrance : UInt32) (earlier : List UInt32) : AreaParts :=
  { parts with
    skipEntrances := parts.skipEntrances ++ [entrance]
    entranceCache := earlier
    currentAreaPart := parts.currentAreaPart - 1 }

def countPart (parts : AreaParts) : AreaParts :=
  if parts.toPartIndex > parts.currentAreaPart then
    { parts with currentAreaPart := parts.currentAreaPart + 1 }
  else if parts.toPartIndex < parts.currentAreaPart then
    { parts with currentAreaPart := parts.currentAreaPart - 1 }
  else
    parts

/-- The part has changed. -/
def enterPart (parts : AreaParts) : AreaParts :=
  let entered :=
    if parts.toPartIndex = backPart then
      match parts.entranceCache.reverse with
      | _exit :: entrance :: earlier => parts.skipPart entrance earlier.reverse
      | _ => parts.countPart
    else
      parts.countPart
  { entered with
    selectedObjectID := 0
    prevEntranceCacheSize := entered.entranceCache.length
    fullPathLoadCount := 0
    toPartIndex := noPart }

def leaveSelected (parts : AreaParts) (tick : AreaPartsTick) : AreaParts :=
  if parts.selectedObjectID ≠ 0 ∧
      (tick.getNearestObjectByID 10 parts.selectedObjectID).isNone then
    parts.enterPart
  else
    parts

def die (parts : AreaParts) (tick : AreaPartsTick) : AreaParts :=
  if tick.isDead then { parts with currentAreaPart := 0 } else parts

/-- The number of the current part, corrected by an entrance that only one part has. -/
def currentPart (parts : AreaParts) (area : SpecialAreaInfo) (tick : AreaPartsTick) : AreaParts :=
  let parts :=
    if parts.currentAreaPart ≥ area.partCount then { parts with currentAreaPart := 0 } else parts
  match area.minimapIcons.find? fun icon => icon.unique && tick.uniqueIcon icon with
  | some icon => { parts with currentAreaPart := icon.partIndex }
  | none => parts

/-- The part to go to within the area of the quest, or on to the next part. -/
def choosePart (parts : AreaParts) (area : SpecialAreaInfo) (tick : AreaPartsTick) : AreaParts :=
  let toPartIndex :=
    match tick.questPart with
    | some areaPartIndex =>
        if parts.fullPathLoadCount ≥ 2 ∧ parts.currentAreaPart > 0 ∧
            parts.prevEntranceCacheSize = parts.entranceCache.length then
          backPart
        else
          areaPartIndex.toUInt32
    | none => parts.currentAreaPart + 1
  { parts with
    toPartIndex :=
      if toPartIndex ≠ backPart ∧ toPartIndex ≥ area.partCount then area.partCount - 1
      else toPartIndex }

/-- The part with the entrance to the next area on the route; none when the tick ends. -/
def routePart (parts : AreaParts) (area : SpecialAreaInfo) (tick : AreaPartsTick)
    (areaName : Option String) : Option AreaParts :=
  areaName.bind fun szName =>
    if area.usePortal ∧ parts.currentAreaPart ≠ area.waypointPartIndex ∧ tick.takesPortal then
      none
    else
      match area.minimapIcons.find? fun icon => icon.next = 2 ∧ icon.szName = szName with
      | some icon => some { parts with toPartIndex := icon.partIndex }
      | none => some parts

/-- Whether an entrance at a place of the cache leads the right way. -/
def leads (parts : AreaParts) (i : ℕ) : Bool :=
  if parts.toPartIndex = backPart then i % 2 ≠ 0
  else ¬(parts.toPartIndex > parts.currentAreaPart ∧ i % 2 = 1) ∧
    ¬(parts.toPartIndex < parts.currentAreaPart ∧ i % 2 = 0)

/-- The loop over the entrances: whether it ends the tick, and the object that it selects. -/
def selectLoop (parts : AreaParts) (tick : AreaPartsTick) :
    List (UInt32 × ℕ) → Option (Option UInt32)
  | [] => none
  | (id, i) :: rest =>
      if parts.leads i then
        match tick.getNearestObjectByID 100 id with
        | none => selectLoop parts tick rest
        | some object =>
            if tick.onFullPath ∧ tick.loadTargetPath object.gridPos then
              some none
            else if distSquared tick.gridPos object.gridPos < (10 * 5) ^ 2 then
              some (some object.id)
            else
              selectLoop parts tick rest
      else
        selectLoop parts tick rest

def selectEntrance (parts : AreaParts) (tick : AreaPartsTick) : Option (Option UInt32) :=
  if parts.toPartIndex ≠ noPart ∧ parts.toPartIndex ≠ parts.currentAreaPart then
    parts.selectLoop tick parts.entranceCache.zipIdx
  else
    none

/-- In an area of parts: the state, whether the tick has ended, and what was selected. -/
def moveParts (parts : AreaParts) (area : SpecialAreaInfo) (tick : AreaPartsTick) :
    AreaParts × Option (Option UInt32) :=
  let parts := parts.currentPart area tick
  if parts.currentAreaPart = noPart then
    (parts, none)
  else
    let chosen :=
      match tick.nextArea with
      | some areaName => parts.routePart area tick areaName
      | none => some (parts.choosePart area tick)
    match chosen with
    | none => (parts, some none)
    | some parts =>
        match parts.selectEntrance tick with
        | some (some id) => ({ parts with selectedObjectID := id }, some (some id))
        | ended => (parts, ended)

/-- A journey by waypoint to another area of parts. -/
def takeWaypoint (parts : AreaParts) (tick : AreaPartsTick) : AreaParts :=
  match tick.waypointArea with
  | some area => { parts with currentAreaPart := area.waypointPartIndex }
  | none => parts

/-- One tick of `QuestRun`, with the object that it selects. -/
def questRun (parts : AreaParts) (tick : AreaPartsTick) : AreaParts × Option UInt32 :=
  let parts := (((parts.loadObjectCache tick).startMap).leaveSelected tick).die tick
  if tick.arrived then
    ({ parts with fullPathLoadCount := parts.fullPathLoadCount + 1 }, none)
  else if tick.comesThrough = false then
    (parts, none)
  else
    match tick.specialArea with
    | none => (parts.takeWaypoint tick, none)
    | some area =>
        match parts.moveParts area tick with
        | (parts, some selected) => (parts, selected)
        | (parts, none) => (parts.takeWaypoint tick, none)

/-- `ReadMapBlock` with a new map. -/
def readMapBlock (parts : AreaParts) : AreaParts :=
  { parts with entranceCache := [], skipEntrances := [], newMapBlock := true }

def init : AreaParts where
  entranceCache := []
  skipEntrances := []
  currentAreaPart := 0
  toPartIndex := 0
  selectedObjectID := 0
  prevEntranceCacheSize := 0
  fullPathLoadCount := 0
  newMapBlock := false

end AreaParts

/-- The state with all that was selected so far. -/
structure Exploration where
  parts : AreaParts
  selections : List UInt32

/-- A death has the path loaded anew; entering the game starts over. -/
inductive ExplorationEvent where
  | questRun (tick : AreaPartsTick)
  | readMapBlock
  | die
  | enterGame

namespace Exploration

def advance (exploration : Exploration) (tick : AreaPartsTick) : Exploration where
  parts := (exploration.parts.questRun tick).1
  selections := exploration.selections ++ (exploration.parts.questRun tick).2.toList

def system : StepSystem Exploration ExplorationEvent where
  initial exploration := exploration = { parts := .init, selections := [] }
  step exploration event next :=
    match event with
    | .questRun tick => next = exploration.advance tick
    | .readMapBlock => next = { exploration with parts := exploration.parts.readMapBlock }
    | .die => next = { exploration with parts := { exploration.parts with newMapBlock := true } }
    | .enterGame => next = { exploration with parts := .init }

/-- Nothing has made the program forget the map. -/
def OnMap : ExplorationEvent → Prop
  | .questRun _ => True
  | .die => True
  | .readMapBlock => False
  | .enterGame => False

end Exploration

namespace AreaParts

variable {parts next : AreaParts} {tick : AreaPartsTick} {area : SpecialAreaInfo}

/-- No object is noted twice, neither as an entrance nor as one to be skipped. -/
def Distinct (parts : AreaParts) : Prop := (parts.entranceCache ++ parts.skipEntrances).Nodup

/-- The notes about entrances are the same. -/
def SameNotes (parts next : AreaParts) : Prop :=
  next.entranceCache = parts.entranceCache ∧ next.skipEntrances = parts.skipEntrances

theorem SameNotes.refl (parts : AreaParts) : SameNotes parts parts := ⟨rfl, rfl⟩

theorem SameNotes.trans {later : AreaParts} (same : SameNotes parts next)
    (sameLater : SameNotes next later) : SameNotes parts later :=
  ⟨sameLater.1.trans same.1, sameLater.2.trans same.2⟩

theorem SameNotes.distinct (same : SameNotes parts next) (distinct : parts.Distinct) :
    next.Distinct := by
  rw [Distinct, same.1, same.2]
  exact distinct

theorem addEntrance_distinct (distinct : parts.Distinct) (object : OtherObject) :
    (addEntrance area parts object).Distinct := by
  simp only [addEntrance]
  split
  · exact distinct
  · rename_i notCached
    split
    · exact distinct
    · rename_i notSkipped
      split
      · have isNew : object.id ∉ parts.entranceCache ++ parts.skipEntrances := by
          intro mem
          rcases List.mem_append.mp mem with cached | skipped
          · exact notCached cached
          · exact notSkipped skipped
        simp only [Distinct, List.append_assoc, List.singleton_append]
        exact (List.perm_middle.nodup_iff).mpr (List.nodup_cons.mpr ⟨isNew, distinct⟩)
      · exact distinct

theorem addEntrance_skipEntrances (object : OtherObject) :
    (addEntrance area parts object).skipEntrances = parts.skipEntrances := by
  simp only [addEntrance]
  split
  · rfl
  · split
    · rfl
    · split <;> rfl

theorem loadObjectCache_spec (distinct : parts.Distinct) (tick : AreaPartsTick) :
    (parts.loadObjectCache tick).Distinct ∧
      (parts.loadObjectCache tick).skipEntrances = parts.skipEntrances := by
  simp only [loadObjectCache]
  split
  · exact ⟨distinct, rfl⟩
  · rename_i area _
    induction tick.others generalizing parts with
    | nil => exact ⟨distinct, rfl⟩
    | cons object others ih =>
        rcases ih (addEntrance_distinct distinct object) with ⟨nextDistinct, same⟩
        exact ⟨nextDistinct, same.trans (addEntrance_skipEntrances object)⟩

theorem startMap_same (parts : AreaParts) : SameNotes parts parts.startMap := by
  simp only [startMap]
  split <;> exact ⟨rfl, rfl⟩

theorem countPart_same (parts : AreaParts) : SameNotes parts parts.countPart := by
  simp only [countPart]
  split
  · exact ⟨rfl, rfl⟩
  · split <;> exact ⟨rfl, rfl⟩

/-- The entrance of the part that is left moves from the one list to the other. -/
theorem enterPart_spec (distinct : parts.Distinct) :
    parts.enterPart.Distinct ∧ parts.skipEntrances <+: parts.enterPart.skipEntrances := by
  have counted : parts.countPart.Distinct ∧
      parts.skipEntrances <+: parts.countPart.skipEntrances := by
    refine ⟨(countPart_same parts).distinct distinct, ?_⟩
    exact (countPart_same parts).2 ▸ List.prefix_rfl
  simp only [enterPart]
  split
  · split
    · rename_i exit entrance earlier reverse_eq
      have cache_eq : parts.entranceCache = earlier.reverse ++ [entrance, exit] := by
        rw [← List.reverse_reverse parts.entranceCache, reverse_eq]
        simp
      refine ⟨?_, List.prefix_append _ _⟩
      simp only [Distinct, skipPart]
      have moved : (earlier.reverse ++ ([entrance] ++ parts.skipEntrances)).Nodup := by
        apply List.Nodup.sublist _ distinct
        rw [cache_eq, List.append_assoc]
        apply List.Sublist.append_left
        exact (List.sublist_cons_self exit _).cons_cons entrance
      exact (List.perm_append_comm.append_left _).nodup_iff.mp moved
    · exact counted
  · exact counted

theorem leaveSelected_spec (distinct : parts.Distinct) (tick : AreaPartsTick) :
    (parts.leaveSelected tick).Distinct ∧
      parts.skipEntrances <+: (parts.leaveSelected tick).skipEntrances := by
  simp only [leaveSelected]
  split
  · exact enterPart_spec distinct
  · exact ⟨distinct, List.prefix_rfl⟩

theorem die_same (parts : AreaParts) (tick : AreaPartsTick) : SameNotes parts (parts.die tick) := by
  simp only [die]
  split <;> exact ⟨rfl, rfl⟩

theorem takeWaypoint_same (parts : AreaParts) (tick : AreaPartsTick) :
    SameNotes parts (parts.takeWaypoint tick) := by
  simp only [takeWaypoint]
  split <;> exact ⟨rfl, rfl⟩

theorem currentPart_same (parts : AreaParts) (area : SpecialAreaInfo) (tick : AreaPartsTick) :
    SameNotes parts (parts.currentPart area tick) := by
  simp only [currentPart]
  split
  · split <;> exact ⟨rfl, rfl⟩
  · split <;> exact ⟨rfl, rfl⟩

theorem routePart_same {areaName : Option String}
    (chosen : parts.routePart area tick areaName = some next) : SameNotes parts next := by
  rcases Option.bind_eq_some_iff.mp chosen with ⟨szName, -, found⟩
  split at found
  · cases found
  · split at found
    · cases found
      exact ⟨rfl, rfl⟩
    · cases found
      exact ⟨rfl, rfl⟩

theorem id_of_getNearestObjectByID {range : ℤ} {id : UInt32} {object : OtherObject}
    (found : tick.getNearestObjectByID range id = some object) : object.id = id := by
  have all : ∀ (others : List OtherObject) (nearest : Option OtherObject),
      (∀ other ∈ nearest, other.id = id) → ∀ other ∈ others.foldl
        (fun nearest object =>
          if object.id ≠ id then nearest
          else if distSquared tick.gridPos object.gridPos > (10 * range) ^ 2 then nearest
          else
            match nearest with
            | none => some object
            | some other =>
                if distSquared tick.gridPos object.gridPos <
                    distSquared tick.gridPos other.gridPos then
                  some object
                else
                  nearest) nearest, other.id = id := by
    intro others
    induction others with
    | nil => exact fun nearest nearest_id => nearest_id
    | cons head others ih =>
        intro nearest nearest_id
        apply ih
        intro other other_mem
        simp only at other_mem
        split at other_mem
        · exact nearest_id other other_mem
        · rename_i sameId
          split at other_mem
          · exact nearest_id other other_mem
          · split at other_mem
            · cases other_mem
              exact Decidable.not_not.mp sameId
            · split at other_mem
              · cases other_mem
                exact Decidable.not_not.mp sameId
              · exact nearest_id other other_mem
  exact all tick.others none (fun other impossible => by cases impossible) object found

theorem selectLoop_mem {entries : List (UInt32 × ℕ)} {id : UInt32}
    (selected : parts.selectLoop tick entries = some (some id)) :
    id ∈ entries.map Prod.fst := by
  induction entries with
  | nil => cases selected
  | cons entry rest ih =>
      rcases entry with ⟨entranceId, i⟩
      rw [List.map_cons]
      simp only [selectLoop] at selected
      split at selected
      · split at selected
        · exact List.mem_cons_of_mem _ (ih selected)
        · rename_i object found
          split at selected
          · cases selected
          · split at selected
            · cases selected
              rw [id_of_getNearestObjectByID found]
              exact List.mem_cons_self
            · exact List.mem_cons_of_mem _ (ih selected)
      · exact List.mem_cons_of_mem _ (ih selected)

theorem moveParts_spec (parts : AreaParts) (area : SpecialAreaInfo) (tick : AreaPartsTick) :
    SameNotes parts (parts.moveParts area tick).1 ∧
      ∀ id, (parts.moveParts area tick).2 = some (some id) → id ∈ parts.entranceCache := by
  have current := currentPart_same parts area tick
  simp only [moveParts]
  generalize parts.currentPart area tick = now at current ⊢
  split
  · exact ⟨current, fun id impossible => by cases impossible⟩
  · cases chosen_eq : (match tick.nextArea with
      | some areaName => now.routePart area tick areaName
      | none => some (now.choosePart area tick)) with
    | none => exact ⟨current, fun id impossible => by cases impossible⟩
    | some chosen =>
        have chosen_same : SameNotes now chosen := by
          split at chosen_eq
          · exact routePart_same chosen_eq
          · cases chosen_eq
            exact ⟨rfl, rfl⟩
        have same := current.trans chosen_same
        simp only
        split
        · rename_i id selected
          refine ⟨same, fun other other_eq => ?_⟩
          cases other_eq
          simp only [selectEntrance] at selected
          split at selected
          · have mem := selectLoop_mem selected
            rw [List.zipIdx_map_fst] at mem
            rwa [← same.1]
          · cases selected
        · rename_i ended notSelected
          refine ⟨same, fun id id_eq => ?_⟩
          exact (notSelected id id_eq).elim

/-- What a tick does to the notes, and where what it selects comes from. -/
theorem questRun_spec (distinct : parts.Distinct) (tick : AreaPartsTick) :
    (parts.questRun tick).1.Distinct ∧
      parts.skipEntrances <+: (parts.questRun tick).1.skipEntrances ∧
      ∀ id ∈ (parts.questRun tick).2, id ∈ (parts.questRun tick).1.entranceCache := by
  rcases loadObjectCache_spec distinct tick with ⟨loadedDistinct, loaded_eq⟩
  have started := startMap_same (parts.loadObjectCache tick)
  rcases leaveSelected_spec (started.distinct loadedDistinct) tick with ⟨leftDistinct, grows⟩
  have died := die_same ((parts.loadObjectCache tick).startMap.leaveSelected tick) tick
  rw [started.2, loaded_eq, ← died.2] at grows
  have nowDistinct := died.distinct leftDistinct
  simp only [questRun]
  generalize (((parts.loadObjectCache tick).startMap).leaveSelected tick).die tick = now
    at grows nowDistinct ⊢
  split
  · exact ⟨nowDistinct, grows, fun id impossible => by cases impossible⟩
  · split
    · exact ⟨nowDistinct, grows, fun id impossible => by cases impossible⟩
    · have travelled : (now.takeWaypoint tick).Distinct ∧
          parts.skipEntrances <+: (now.takeWaypoint tick).skipEntrances := by
        rw [(takeWaypoint_same now tick).2]
        exact ⟨(takeWaypoint_same now tick).distinct nowDistinct, grows⟩
      split
      · exact ⟨travelled.1, travelled.2, fun id impossible => by cases impossible⟩
      · rename_i area _
        have moved := moveParts_spec now area tick
        generalize now.moveParts area tick = result at moved ⊢
        rcases result with ⟨next, ended⟩
        rcases moved with ⟨same, selects⟩
        cases ended with
        | none =>
            have travels := takeWaypoint_same next tick
            simp only
            rw [travels.2, same.2]
            exact ⟨(same.trans travels).distinct nowDistinct, grows,
              fun id impossible => by cases impossible⟩
        | some selected =>
            simp only
            rw [same.2, same.1]
            refine ⟨same.distinct nowDistinct, grows, fun id selected_eq => selects id ?_⟩
            rw [Option.mem_def] at selected_eq
            rw [selected_eq]

end AreaParts

namespace Exploration

variable {exploration last : Exploration}

theorem distinct_invariant : system.Invariant fun exploration => exploration.parts.Distinct where
  initial exploration starts := by
    rw [show exploration = _ from starts]
    exact List.nodup_nil
  step exploration event next distinct moves := by
    cases event with
    | questRun tick =>
        rw [show next = _ from moves]
        exact (AreaParts.questRun_spec distinct tick).1
    | readMapBlock =>
        rw [show next = _ from moves]
        exact List.nodup_nil
    | die =>
        rw [show next = _ from moves]
        exact distinct
    | enterGame =>
        rw [show next = _ from moves]
        exact List.nodup_nil

/-- On one map no object is noted twice among the entrances and those to be skipped, and an entrance
that was searched in vain stays on the list of those to be skipped and is never selected again. -/
theorem skipped_neverSelected (reached : system.Reachable exploration)
    (run : (system.restrict fun _ event => OnMap event).Run exploration last) :
    last.parts.Distinct ∧
      exploration.parts.skipEntrances <+: last.parts.skipEntrances ∧
      ∃ later, last.selections = exploration.selections ++ later ∧
        ∀ id ∈ exploration.parts.skipEntrances, id ∉ later := by
  have distinct := distinct_invariant.of_reachable reached
  induction run with
  | refl =>
      exact ⟨distinct, List.prefix_rfl, [], (List.append_nil _).symm,
        fun id _ => List.not_mem_nil⟩
  | @step mid last event run moves ih =>
      rcases ih with ⟨midDistinct, grows, later, selections_eq, unselected⟩
      rcases moves with ⟨onMap, moves⟩
      cases event with
      | readMapBlock => cases onMap
      | enterGame => cases onMap
      | die =>
          rw [show last = _ from moves]
          exact ⟨midDistinct, grows, later, selections_eq, unselected⟩
      | questRun tick =>
          rw [show last = _ from moves]
          rcases AreaParts.questRun_spec midDistinct tick with ⟨nextDistinct, nextGrows, selects⟩
          refine ⟨nextDistinct, grows.trans nextGrows,
            later ++ (mid.parts.questRun tick).2.toList, ?_, ?_⟩
          · simp only [advance, selections_eq, List.append_assoc]
          · intro id skipped mem
            rcases List.mem_append.mp mem with before | now
            · exact unselected id skipped before
            · have cached := selects id (Option.mem_toList.mp now)
              have still := (grows.trans nextGrows).subset skipped
              exact List.disjoint_of_nodup_append nextDistinct cached still

/-- An area of two parts, with an entrance and an exit. -/
def pyramid : SpecialAreaInfo where
  partCount := 2
  waypointPartIndex := 0
  usePortal := false
  minimapIcons :=
    [{ partIndex := 0, next := 1, unique := false, szIconName := "", szName := "Up", szPath := "" },
      { partIndex := 1, next := 0, unique := false, szIconName := "", szName := "Down",
        szPath := "" }]

def stairs (id : UInt32) (renderName : String) : OtherObject where
  id := id
  renderName := renderName
  path := ""
  gridPos := ⟨0, 0⟩

def pyramidTick (others : List OtherObject) (arrived : Bool) (questPart : Option UInt8) :
    AreaPartsTick where
  specialArea := some pyramid
  others := others
  gridPos := ⟨0, 0⟩
  isDead := false
  arrived := arrived
  comesThrough := true
  uniqueIcon := fun _ => false
  nextArea := none
  takesPortal := false
  questPart := questPart
  onFullPath := false
  loadTargetPath := fun _ => false
  waypointArea := none

theorem reachable_advance (reached : system.Reachable exploration) (tick : AreaPartsTick) :
    system.Reachable (exploration.advance tick) := by
  have moves : system.step exploration (.questRun tick) (exploration.advance tick) := rfl
  exact .step reached moves

/-- Up the stairs, twice along the path of the upper part, and down again. -/
def searchedUpstairs : Exploration :=
  ((((((⟨.init, []⟩ : Exploration).advance
    (pyramidTick [stairs 5 "Up", stairs 6 "Down"] true none)).advance
      (pyramidTick [stairs 5 "Up"] false none)).advance (pyramidTick [] true none)).advance
        (pyramidTick [] true none)).advance (pyramidTick [stairs 6 "Down"] false (some 0))).advance
          (pyramidTick [] false (some 0))

theorem skipped_neverSelected_upstairs :
    searchedUpstairs.parts.skipEntrances = [5] ∧
      ∃ later, (searchedUpstairs.advance (pyramidTick [stairs 5 "Up"] false none)).selections =
          searchedUpstairs.selections ++ later ∧
        ∀ id ∈ searchedUpstairs.parts.skipEntrances, id ∉ later := by
  have reached : system.Reachable searchedUpstairs := by
    iterate 6 apply reachable_advance
    exact .initial rfl
  have moves : (system.restrict fun _ event => OnMap event).step searchedUpstairs
      (.questRun (pyramidTick [stairs 5 "Up"] false none))
      (searchedUpstairs.advance (pyramidTick [stairs 5 "Up"] false none)) := ⟨trivial, rfl⟩
  exact ⟨by decide +kernel, (skipped_neverSelected reached (.single moves)).2.2⟩

end Exploration

end PoETask.Attach
