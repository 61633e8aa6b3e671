import PoETask.Attach.QuestPath
import Mathlib.Data.List.Infix
import Mathlib.Data.List.Enum

/-!
# The main loop

`GameLogic::Main` is called on a timer. It counts a delay down, waits until it may run,
and then does one step of the status it is in: enter account and password, choose the
character, follow the quests, or sell, purchase or deposit items and go back.

A tick brings along what it observes of the game, among it what the functions that only
act on the game have found to do. `QuestRun` is the walker of the quest path with what
else it may do to the loop: begin an errand in town, set a delay, stop. A read behind the
path ends the process. `actions` is the history of what was sent to the game.

The path arrays are allocated anew when a map block is read, while `_currentPath` still
points into the old ones; `stale` says so.
-/

namespace PoETask.Attach

open PoETask.Library

abbrev GameText := List UInt16

inductive MainStatus where
  | first
  | login
  | characterSelect
  | main
  | npcSell
  | npcPurchase
  | stashDeposit
  | stashWithdraw
  deriving DecidableEq

inductive GameKey where
  | vkReturn
  | vkEscape
  | letter (wKey : UInt16)

/-- What the loop sends to the game. -/
inductive GameAction where
  | click (x y : ℕ)
  | settingGameAccount (account : GameText)
  | inputGameAccount (index : ℕ) (char : UInt8)
  | inputGamePassword (index : ℕ) (char : UInt8)
  | pressKeyAlternate (key : GameKey)
  | playGame (name : GameText) (dwCharNo : ℕ)
  | resurrect
  | sellItemToNpc
  | purchaseItem
  | storeInvenItems

/-- `GAMESETTING`, as far as the loop reads it. -/
structure GameSetting where
  szGameID : GameText
  szGamePW : GameText
  dwCharNo : ℕ

/-- The errands that `ProcessInTown` begins. -/
inductive TownErrand where
  | sell
  | purchase
  | deposit

def TownErrand.status : TownErrand → MainStatus
  | sell => .npcSell
  | purchase => .npcPurchase
  | deposit => .stashDeposit

theorem TownErrand.status_ne (errand : TownErrand) : errand.status ≠ .first ∧
    errand.status ≠ .login ∧ errand.status ≠ .characterSelect ∧ errand.status ≠ .main := by
  cases errand <;> decide

/-- What a function that acts on the game does to the loop. -/
structure Outcome where
  delay : Option ℕ
  stops : Bool

/-- The observations of one tick of the loop; the handlers that return whether they have acted
report what they do if so, and `QuestRun` whether it selects the waypoint to register it. -/
structure Frame where
  loginStatePtr : Bool
  isLoading : Bool
  isLoginState : Bool
  isSelectCharacterState : Bool
  isInGameState : Bool
  loginedAccount : GameText
  lstCharInfo : List GameText
  mapBlock : Option (ℤ × ℤ)
  areaName : GameText
  curHP : ℤ
  gridPos : IVector
  worldmapVisible : Bool
  interactionVisible : Bool
  interactionChildCount : ℕ
  sellItemVisible : Bool
  purchaseItemVisible : Bool
  stashVisible : Bool
  continueDialog : Option Outcome
  processReward : Option Outcome
  sellItems : Option (List Outcome)
  purchaseItem : Option Outcome
  storeInvenItems : Option Outcome
  questTick : Tick
  questErrand : Option TownErrand
  registersWaypoint : Bool
  questOutcome : Outcome

structure GameLogic where
  status : MainStatus
  subStatus : ℕ
  prevStatus : MainStatus
  prevSubStatus : ℕ
  delay : ℕ
  isRun : Bool
  tick : ℕ
  newMapBlock : Bool
  deadPos : Option IVector
  firstOpenedWorldMap : ℕ
  map : ℤ × ℤ × GameText
  walker : Walker
  stale : Bool
  actions : List GameAction

namespace GameLogic

/-- `Initialize`, outside the test build. -/
def initialLogic : GameLogic where
  status := .first
  subStatus := 0
  prevStatus := .first
  prevSubStatus := 0
  delay := 0
  isRun := true
  tick := 0
  newMapBlock := false
  deadPos := none
  firstOpenedWorldMap := 0
  map := (0, 0, [])
  walker := Walker.init
  stale := false
  actions := []

def setDelay (logic : GameLogic) (delay : ℕ) : GameLogic := { logic with delay }

def setStatus (logic : GameLogic) (status : MainStatus) (subStatus delay : ℕ) : GameLogic :=
  { logic with status, subStatus, delay }

/-- `SetStatus` with `prevSet`. -/
def beginErrand (logic : GameLogic) (status : MainStatus) : GameLogic :=
  { logic with prevStatus := logic.status, prevSubStatus := logic.subStatus }.setStatus status 0 0

def setTick (logic : GameLogic) (tick : ℕ) : GameLogic := { logic with tick }

/-- A new start counts the time without a move from the last tick on. -/
def toggleRun (logic : GameLogic) (isRun : Bool) : GameLogic :=
  if isRun then
    if logic.isRun = false then
      { logic with isRun := true, walker := { logic.walker with prevMoveTick := logic.tick } }
    else
      logic
  else
    { logic with isRun := false }

def act (logic : GameLogic) (actions : List GameAction) : GameLogic :=
  { logic with actions := logic.actions ++ actions }

/-- The effect of a handler on the loop. -/
def after (logic : GameLogic) (outcome : Outcome) : GameLogic :=
  { logic with
    delay := outcome.delay.getD logic.delay
    isRun := logic.isRun && !outcome.stops }

/-- The inputs of the account, one character each. -/
def accountInputs (setting : GameSetting) : List GameAction :=
  setting.szGameID.mapIdx fun index char => .inputGameAccount index char.toUInt8

def passwordInputs (setting : GameSetting) : List GameAction :=
  setting.szGamePW.mapIdx fun index char => .inputGamePassword index char.toUInt8

def runFirst (logic : GameLogic) (frame : Frame) : GameLogic :=
  if frame.isLoginState then
    (logic.act [.click 10 10]).setStatus .login 0 10
  else
    logic

def runLogin (logic : GameLogic) (setting : GameSetting) (frame : Frame) : GameLogic :=
  if frame.isSelectCharacterState then
    logic.setStatus .characterSelect 0 30
  else
    let stepped :=
      match logic.subStatus with
      | 0 =>
          (logic.act
            ((if frame.loginedAccount = [] then [] else [GameAction.settingGameAccount []]) ++
              accountInputs setting)).setStatus .login 1 0
      | 1 => (logic.act (passwordInputs setting)).setStatus .login 2 0
      | 2 => (logic.act [.pressKeyAlternate .vkReturn]).setStatus .login 3 0
      | _ => logic
    stepped.setDelay 10

def runCharacterSelect (logic : GameLogic) (setting : GameSetting) (frame : Frame) : GameLogic :=
  if frame.isInGameState then
    { logic with
      newMapBlock := false
      deadPos := none
      firstOpenedWorldMap := 0
      map := (0, 0, [])
      walker := { logic.walker with
        targetPathType := .none, prevMovePos := ⟨0, 0⟩, prevMoveTick := 0 } }.setStatus .main 0 50
  else
    let played :=
      match frame.lstCharInfo[setting.dwCharNo]? with
      | some name => logic.act [.playGame name setting.dwCharNo]
      | none => logic
    played.setDelay 10

/-- The arrays are allocated anew for a new map. -/
def readMapBlock (logic : GameLogic) (frame : Frame) : GameLogic :=
  match frame.mapBlock with
  | none => logic
  | some (curMapWidth, curMapHeight) =>
      if logic.map = (curMapWidth, curMapHeight, frame.areaName) then
        logic
      else
        { logic with
          map := (curMapWidth, curMapHeight, frame.areaName)
          newMapBlock := true
          walker := { logic.walker with fullPathSize := 0, targetPathSize := 0 }
          stale := logic.walker.currentPath.isSome }

/-- The tick as `QuestRun` meets it. -/
def questTick (logic : GameLogic) (frame : Frame) : Tick :=
  { frame.questTick with
    gridPos := frame.gridPos, newMapBlock := logic.newMapBlock, posDead := logic.deadPos }

/-- The path is still the one into the old arrays when `QuestRun` begins to read it. -/
def readsStale (logic : GameLogic) (frame : Frame) : Bool :=
  logic.stale && !((logic.questTick frame).newMapBlock || (logic.questTick frame).leftAreaPart)

/-- The walker's part of `QuestRun`. -/
def walk (logic : GameLogic) (frame : Frame) : Option Walker :=
  let tick := logic.questTick frame
  match (logic.walker.chooseStep tick).andThen fun walker => walker.move tick with
  | .fault => none
  | .returned walker => some walker
  | .goesOn walker => some walker

/-- The world map that opens at the waypoint is to be closed again. -/
def questRun (logic : GameLogic) (frame : Frame) : Option GameLogic :=
  (logic.walk frame).map fun walker =>
    let walked := { logic with
      walker, newMapBlock := false, deadPos := none, stale := logic.readsStale frame
      firstOpenedWorldMap := if frame.registersWaypoint then 2 else logic.firstOpenedWorldMap }
    match frame.questErrand with
    | some errand => walked.beginErrand errand.status
    | none => walked.after frame.questOutcome

def runMain (logic : GameLogic) (frame : Frame) : Option GameLogic :=
  let logic := logic.readMapBlock frame
  if frame.curHP = 0 then
    some (({ logic with deadPos := some frame.gridPos, newMapBlock := true }.act
      [.resurrect]).setDelay 30)
  else if logic.firstOpenedWorldMap = 0 ∧ frame.worldmapVisible = false then
    some ((logic.act [.pressKeyAlternate (.letter 85)]).setDelay 10)
  else if (logic.firstOpenedWorldMap = 0 ∨ logic.firstOpenedWorldMap = 2) ∧
      frame.worldmapVisible = true then
    some (({ logic with firstOpenedWorldMap := 1 }.act
      [.pressKeyAlternate (.letter 85)]).setDelay 10)
  else
    logic.questRun frame

/-- Close the dialogue of an npc, or go on. -/
def closeInteraction (logic : GameLogic) (frame : Frame) (next : GameLogic) : GameLogic :=
  if frame.interactionVisible ∧ frame.interactionChildCount = 2 then
    (logic.act [.pressKeyAlternate .vkEscape]).setDelay 10
  else
    next

/-- The window is closed first. -/
def closeWindow (logic : GameLogic) (isVisible : Bool) (next : GameLogic) : GameLogic :=
  if isVisible then
    (logic.act [.pressKeyAlternate .vkEscape]).setDelay 10
  else
    next

def goBack (logic : GameLogic) : GameLogic :=
  logic.setStatus logic.prevStatus logic.prevSubStatus 0

/-- The two kinds of trade with an npc differ in the deal and the window. -/
def trade (logic : GameLogic) (frame : Frame) (deal : Option GameLogic) (isVisible : Bool) :
    GameLogic :=
  match logic.subStatus with
  | 0 => logic.closeInteraction frame (logic.setStatus logic.status 1 0)
  | 1 =>
      match frame.continueDialog, frame.processReward with
      | some outcome, _ => logic.after outcome
      | none, some outcome => logic.after outcome
      | none, none => deal.getD (logic.setStatus logic.status 2 0)
  | 2 => logic.closeWindow isVisible (logic.closeInteraction frame logic.goBack)
  | _ => logic

/-- Every trader nearby is sold to in turn. -/
def runNpcSell (logic : GameLogic) (frame : Frame) : GameLogic :=
  logic.trade frame
    (frame.sellItems.map fun outcomes =>
      outcomes.foldl (fun logic outcome => (logic.act [.sellItemToNpc]).after outcome) logic)
    frame.sellItemVisible

def runNpcPurchase (logic : GameLogic) (frame : Frame) : GameLogic :=
  logic.trade frame
    (frame.purchaseItem.map fun outcome => (logic.act [.purchaseItem]).after outcome)
    frame.purchaseItemVisible

def runStashDeposit (logic : GameLogic) (frame : Frame) : GameLogic :=
  match logic.subStatus with
  | 0 =>
      match frame.storeInvenItems with
      | some outcome => (logic.act [.storeInvenItems]).after outcome
      | none => logic.setStatus logic.status 1 0
  | 1 => logic.closeWindow frame.stashVisible logic.goBack
  | _ => logic

/-- `Main`; there is no result if a read behind the path ends the process. -/
def main (logic : GameLogic) (setting : GameSetting) (frame : Frame) : Option GameLogic :=
  let logic := logic.setTick frame.questTick.now
  if logic.delay ≠ 0 then
    some (logic.setDelay (logic.delay - 1))
  else if logic.isRun = false then
    some logic
  else if frame.loginStatePtr = false then
    some (logic.setDelay 10)
  else if frame.isLoading then
    some (logic.setDelay 30)
  else
    match logic.status with
    | .first => some (logic.runFirst frame)
    | .login => some (logic.runLogin setting frame)
    | .characterSelect => some (logic.runCharacterSelect setting frame)
    | .main => logic.runMain frame
    | .npcSell => some (logic.runNpcSell frame)
    | .npcPurchase => some (logic.runNpcPurchase frame)
    | .stashDeposit => some (logic.runStashDeposit frame)
    | .stashWithdraw => some logic

inductive Event where
  | main (frame : Frame)
  | toggleRun (isRun : Bool)

/-- The loop under any observations, with the user starting and stopping it at any time. -/
def system (setting : GameSetting) : StepSystem GameLogic Event where
  initial logic := logic = initialLogic
  step logic event next :=
    match event with
    | .main frame => logic.main setting frame = some next
    | .toggleRun isRun => next = logic.toggleRun isRun

/-- The inputs of characters of account and password. -/
def credentials (actions : List GameAction) : List GameAction :=
  actions.filter fun action =>
    match action with
    | .inputGameAccount _ _ => true
    | .inputGamePassword _ _ => true
    | _ => false

/-- What has been entered of account and password. -/
def entered (logic : GameLogic) : List GameAction := credentials logic.actions

/-- The status, its step, and the status to go back to. -/
def place (logic : GameLogic) : MainStatus × ℕ × MainStatus × ℕ :=
  (logic.status, logic.subStatus, logic.prevStatus, logic.prevSubStatus)

/-- What a tick can do to status and inputs. -/
inductive Passes (setting : GameSetting) (logic next : GameLogic) : Prop where
  | stays (place_eq : next.place = logic.place) (entered_eq : next.entered = logic.entered)
  | clicks (status_eq : logic.status = .first)
      (place_eq : next.place = (.login, 0, logic.prevStatus, logic.prevSubStatus))
      (entered_eq : next.entered = logic.entered)
  | account (status_eq : logic.status = .login) (subStatus_eq : logic.subStatus = 0)
      (place_eq : next.place = (.login, 1, logic.prevStatus, logic.prevSubStatus))
      (entered_eq : next.entered = logic.entered ++ accountInputs setting)
  | password (status_eq : logic.status = .login) (subStatus_eq : logic.subStatus = 1)
      (place_eq : next.place = (.login, 2, logic.prevStatus, logic.prevSubStatus))
      (entered_eq : next.entered = logic.entered ++ passwordInputs setting)
  | confirms (status_eq : logic.status = .login) (subStatus_eq : logic.subStatus = 2)
      (place_eq : next.place = (.login, 3, logic.prevStatus, logic.prevSubStatus))
      (entered_eq : next.entered = logic.entered)
  | selects (status_eq : logic.status = .login)
      (place_eq : next.place = (.characterSelect, 0, logic.prevStatus, logic.prevSubStatus))
      (entered_eq : next.entered = logic.entered)
  | plays (status_eq : logic.status = .characterSelect)
      (place_eq : next.place = (.main, 0, logic.prevStatus, logic.prevSubStatus))
      (entered_eq : next.entered = logic.entered)
  | begins (errand : TownErrand) (status_eq : logic.status = .main)
      (place_eq : next.place = (errand.status, 0, .main, logic.subStatus))
      (entered_eq : next.entered = logic.entered)
  | proceeds (errand : TownErrand) (subStatus : ℕ) (status_eq : logic.status = errand.status)
      (place_eq : next.place =
        (errand.status, subStatus, logic.prevStatus, logic.prevSubStatus))
      (entered_eq : next.entered = logic.entered)
  | returns (errand : TownErrand) (status_eq : logic.status = errand.status)
      (place_eq : next.place =
        (logic.prevStatus, logic.prevSubStatus, logic.prevStatus, logic.prevSubStatus))
      (entered_eq : next.entered = logic.entered)

/-- An account of one character with a password of two. -/
def shortSetting : GameSetting where
  szGameID := [97]
  szGamePW := [98, 99]
  dwCharNo := 0

/-- A tick at the login screen. -/
def loginFrame : Frame where
  loginStatePtr := true
  isLoading := false
  isLoginState := true
  isSelectCharacterState := false
  isInGameState := false
  loginedAccount := []
  lstCharInfo := []
  mapBlock := none
  areaName := []
  curHP := 100
  gridPos := ⟨0, 0⟩
  worldmapVisible := true
  interactionVisible := false
  interactionChildCount := 0
  sellItemVisible := false
  purchaseItemVisible := false
  stashVisible := false
  continueDialog := none
  processReward := none
  sellItems := none
  purchaseItem := none
  storeInvenItems := none
  questTick :=
    { now := 1, gridPos := ⟨0, 0⟩, newMapBlock := false, leftAreaPart := false
      findFullPath := some [⟨0, 0⟩], findTargetPath := fun _ => { points := none, found := false }
      iconsCache := [], posDead := none, questFound := true, areaPathFound := true, errands := []
      useForwardSkill := false }
  questErrand := none
  registersWaypoint := false
  questOutcome := { delay := none, stops := false }

def countdown (frame : Frame) (ticks : ℕ) : List Event := List.replicate ticks (.main frame)

/-- Account and password are entered, the character is chosen, and the game begins. -/
def loginEvents : List Event :=
  countdown loginFrame 34 ++
    countdown { loginFrame with isSelectCharacterState := true, lstCharInfo := [[65]] } 50 ++
    countdown { loginFrame with isInGameState := true } 12

/-- The first map is read, its path is walked, and an errand is begun. -/
def sellEvents : List Event :=
  loginEvents ++ countdown { loginFrame with mapBlock := some (40, 1) } 62 ++
    [.main { loginFrame with mapBlock := some (80, 1), curHP := 0 }] ++
    countdown { loginFrame with mapBlock := some (80, 1), questErrand := some .sell } 31

/-- The state after a list of events. -/
def ran (setting : GameSetting) (logic : GameLogic) : List Event → Option GameLogic
  | [] => some logic
  | .main frame :: later => (logic.main setting frame).bind fun next => ran setting next later
  | .toggleRun isRun :: later => ran setting (logic.toggleRun isRun) later

theorem reachable_of_ran {setting : GameSetting} {logic last : GameLogic} {events : List Event}
    (reached : (system setting).Reachable logic) (ran_eq : ran setting logic events = some last) :
    (system setting).Reachable last := by
  induction events generalizing logic with
  | nil =>
      obtain rfl : logic = last := Option.some.inj ran_eq
      exact reached
  | cons event later ih =>
      cases event with
      | main frame =>
          rcases Option.bind_eq_some_iff.mp ran_eq with ⟨next, stepped, later_eq⟩
          have moves : (system setting).step logic (.main frame) next := stepped
          exact ih (.step reached moves) later_eq
      | toggleRun isRun =>
          have moves : (system setting).step logic (.toggleRun isRun) (logic.toggleRun isRun) := rfl
          exact ih (.step reached moves) ran_eq

/-- Where the short account is after a list of events. -/
def arrived (events : List Event) : GameLogic :=
  (ran shortSetting initialLogic events).getD initialLogic

theorem reachable_arrived {events : List Event}
    (goesOn : (ran shortSetting initialLogic events).isSome) :
    (system shortSetting).Reachable (arrived events) := by
  rcases Option.isSome_iff_exists.mp goesOn with ⟨last, ran_eq⟩
  have arrived_eq : arrived events = last := by
    simp only [arrived, ran_eq, Option.getD_some]
  rw [arrived_eq]
  exact reachable_of_ran (.initial rfl) ran_eq

section Logins

variable {logic next : GameLogic} {setting : GameSetting} {frame : Frame}

theorem entered_act (actions : List GameAction) :
    (logic.act actions).entered = logic.entered ++ credentials actions :=
  List.filter_append _ _

theorem credentials_accountInputs (setting : GameSetting) :
    credentials (accountInputs setting) = accountInputs setting := by
  apply List.filter_eq_self.mpr
  intro action action_mem
  rcases List.mem_mapIdx.mp action_mem with ⟨index, bound, rfl⟩
  rfl

theorem credentials_passwordInputs (setting : GameSetting) :
    credentials (passwordInputs setting) = passwordInputs setting := by
  apply List.filter_eq_self.mpr
  intro action action_mem
  rcases List.mem_mapIdx.mp action_mem with ⟨index, bound, rfl⟩
  rfl

/-- Other actions enter nothing. -/
theorem entered_act_of_nil {actions : List GameAction} (quiet : credentials actions = []) :
    (logic.act actions).entered = logic.entered := by
  rw [entered_act, quiet, List.append_nil]

theorem passes_runFirst (status_eq : logic.status = .first) :
    Passes setting logic (logic.runFirst frame) := by
  simp only [runFirst]
  split
  · exact .clicks status_eq rfl (entered_act_of_nil rfl)
  · exact .stays rfl rfl

theorem passes_runLogin (status_eq : logic.status = .login) :
    Passes setting logic (logic.runLogin setting frame) := by
  simp only [runLogin]
  split
  · exact .selects status_eq rfl rfl
  · split
    · rename_i subStatus_eq
      refine .account status_eq subStatus_eq rfl ?_
      change (logic.act _).entered = _
      rw [entered_act, credentials, List.filter_append]
      change _ ++ (_ ++ credentials (accountInputs setting)) = _
      rw [credentials_accountInputs]
      split
      · rfl
      · rfl
    · rename_i subStatus_eq
      refine .password status_eq subStatus_eq rfl ?_
      change (logic.act _).entered = _
      rw [entered_act, credentials_passwordInputs]
    · rename_i subStatus_eq
      exact .confirms status_eq subStatus_eq rfl (entered_act_of_nil rfl)
    · exact .stays rfl rfl

theorem passes_runCharacterSelect (status_eq : logic.status = .characterSelect) :
    Passes setting logic (logic.runCharacterSelect setting frame) := by
  simp only [runCharacterSelect]
  split
  · exact .plays status_eq rfl rfl
  · split
    · exact .stays rfl (entered_act_of_nil rfl)
    · exact .stays rfl rfl

theorem place_readMapBlock (logic : GameLogic) (frame : Frame) :
    (logic.readMapBlock frame).place = logic.place ∧
      (logic.readMapBlock frame).actions = logic.actions := by
  simp only [readMapBlock]
  split
  · exact ⟨rfl, rfl⟩
  · split
    · exact ⟨rfl, rfl⟩
    · exact ⟨rfl, rfl⟩

theorem passes_runMain (status_eq : logic.status = .main)
    (ran : logic.runMain frame = some next) : Passes setting logic next := by
  rcases logic.place_readMapBlock frame with ⟨place_eq, actions_eq⟩
  have entered_eq : (logic.readMapBlock frame).entered = logic.entered := by
    simp only [entered, actions_eq]
  simp only [runMain] at ran
  split at ran
  · cases ran
    exact .stays place_eq ((entered_act_of_nil rfl).trans entered_eq)
  · split at ran
    · cases ran
      exact .stays place_eq ((entered_act_of_nil rfl).trans entered_eq)
    · split at ran
      · cases ran
        exact .stays place_eq ((entered_act_of_nil rfl).trans entered_eq)
      · simp only [questRun, Option.map_eq_some_iff] at ran
        rcases ran with ⟨walker, -, rfl⟩
        simp only [place, Prod.mk.injEq] at place_eq
        rcases place_eq with ⟨status_same, subStatus_same, prev_same, prevSub_same⟩
        split
        · rename_i errand _
          refine .begins errand status_eq ?_ entered_eq
          simp [place, beginErrand, setStatus, status_same, subStatus_same, status_eq]
        · refine .stays ?_ entered_eq
          simp [place, after, status_same, subStatus_same, prev_same, prevSub_same]

/-- Closing a dialogue or a window first keeps the place. -/
theorem passes_closeInteraction (passes : Passes setting logic next) :
    Passes setting logic (logic.closeInteraction frame next) := by
  simp only [closeInteraction]
  split
  · exact .stays rfl (entered_act_of_nil rfl)
  · exact passes

theorem passes_closeWindow {isVisible : Bool} (passes : Passes setting logic next) :
    Passes setting logic (logic.closeWindow isVisible next) := by
  simp only [closeWindow]
  split
  · exact .stays rfl (entered_act_of_nil rfl)
  · exact passes

theorem passes_trade {deal : Option GameLogic} {isVisible : Bool} (errand : TownErrand)
    (status_eq : logic.status = errand.status)
    (deals : ∀ dealt ∈ deal, dealt.place = logic.place ∧ dealt.entered = logic.entered) :
    Passes setting logic (logic.trade frame deal isVisible) := by
  have proceeds : ∀ subStatus,
      Passes setting logic (logic.setStatus logic.status subStatus 0) := by
    intro subStatus
    refine .proceeds errand subStatus status_eq ?_ rfl
    rw [← status_eq]
    rfl
  simp only [trade]
  split
  · exact passes_closeInteraction (proceeds 1)
  · split
    · exact .stays rfl rfl
    · exact .stays rfl rfl
    · cases dealt : deal with
      | none => exact proceeds 2
      | some logic' =>
          rcases deals logic' dealt with ⟨place_eq, entered_eq⟩
          exact .stays place_eq entered_eq
  · exact passes_closeWindow (passes_closeInteraction (.returns errand status_eq rfl rfl))
  · exact .stays rfl rfl

theorem passes_runNpcSell (status_eq : logic.status = .npcSell) :
    Passes setting logic (logic.runNpcSell frame) := by
  apply passes_trade .sell status_eq
  intro dealt dealt_mem
  rcases Option.map_eq_some_iff.mp dealt_mem with ⟨outcomes, -, rfl⟩
  clear dealt_mem status_eq
  induction outcomes generalizing logic with
  | nil => exact ⟨rfl, rfl⟩
  | cons outcome rest ih =>
      rcases @ih ((logic.act [.sellItemToNpc]).after outcome) with ⟨place_eq, entered_eq⟩
      exact ⟨place_eq, entered_eq.trans (entered_act_of_nil rfl)⟩

theorem passes_runNpcPurchase (status_eq : logic.status = .npcPurchase) :
    Passes setting logic (logic.runNpcPurchase frame) := by
  apply passes_trade .purchase status_eq
  intro dealt dealt_mem
  rcases Option.map_eq_some_iff.mp dealt_mem with ⟨outcome, -, rfl⟩
  exact ⟨rfl, entered_act_of_nil rfl⟩

theorem passes_runStashDeposit (status_eq : logic.status = .stashDeposit) :
    Passes setting logic (logic.runStashDeposit frame) := by
  simp only [runStashDeposit]
  split
  · split
    · exact .stays rfl (entered_act_of_nil rfl)
    · refine .proceeds .deposit 1 status_eq ?_ rfl
      simp [place, setStatus, status_eq, TownErrand.status]
  · exact passes_closeWindow (.returns .deposit status_eq rfl rfl)
  · exact .stays rfl rfl

/-- The time of the tick is no matter of place and inputs. -/
theorem Passes.of_tick (tick : ℕ) (passes : Passes setting (logic.setTick tick) next) :
    Passes setting logic next := by
  cases passes with
  | stays place_eq entered_eq => exact .stays place_eq entered_eq
  | clicks status_eq place_eq entered_eq => exact .clicks status_eq place_eq entered_eq
  | account status_eq subStatus_eq place_eq entered_eq =>
      exact .account status_eq subStatus_eq place_eq entered_eq
  | password status_eq subStatus_eq place_eq entered_eq =>
      exact .password status_eq subStatus_eq place_eq entered_eq
  | confirms status_eq subStatus_eq place_eq entered_eq =>
      exact .confirms status_eq subStatus_eq place_eq entered_eq
  | selects status_eq place_eq entered_eq => exact .selects status_eq place_eq entered_eq
  | plays status_eq place_eq entered_eq => exact .plays status_eq place_eq entered_eq
  | begins errand status_eq place_eq entered_eq =>
      exact .begins errand status_eq place_eq entered_eq
  | proceeds errand subStatus status_eq place_eq entered_eq =>
      exact .proceeds errand subStatus status_eq place_eq entered_eq
  | returns errand status_eq place_eq entered_eq =>
      exact .returns errand status_eq place_eq entered_eq

/-- Every tick passes from place to place in one of these ways. -/
theorem passes_main (ran : logic.main setting frame = some next) : Passes setting logic next := by
  refine Passes.of_tick frame.questTick.now ?_
  simp only [main] at ran
  generalize logic.setTick frame.questTick.now = timed at ran ⊢
  split at ran
  · cases ran
    exact .stays rfl rfl
  · split at ran
    · cases ran
      exact .stays rfl rfl
    · split at ran
      · cases ran
        exact .stays rfl rfl
      · split at ran
        · cases ran
          exact .stays rfl rfl
        · cases status_eq : timed.status with
          | first =>
              rw [status_eq] at ran
              cases ran
              exact passes_runFirst status_eq
          | login =>
              rw [status_eq] at ran
              cases ran
              exact passes_runLogin status_eq
          | characterSelect =>
              rw [status_eq] at ran
              cases ran
              exact passes_runCharacterSelect status_eq
          | main =>
              rw [status_eq] at ran
              exact passes_runMain status_eq ran
          | npcSell =>
              rw [status_eq] at ran
              cases ran
              exact passes_runNpcSell status_eq
          | npcPurchase =>
              rw [status_eq] at ran
              cases ran
              exact passes_runNpcPurchase status_eq
          | stashDeposit =>
              rw [status_eq] at ran
              cases ran
              exact passes_runStashDeposit status_eq
          | stashWithdraw =>
              rw [status_eq] at ran
              cases ran
              exact .stays rfl rfl

/-- In the game: following the quests, or on an errand that leads back to them. -/
def InGame (logic : GameLogic) : Prop :=
  logic.status = .main ∧ logic.subStatus = 0 ∨
    ∃ errand : TownErrand, logic.status = errand.status ∧ logic.prevStatus = .main ∧
      logic.prevSubStatus = 0

/-- What has been entered is nothing, the account, or the account and then the password. -/
def EnteredOnce (setting : GameSetting) (logic : GameLogic) : Prop :=
  logic.entered = [] ∨ logic.entered = accountInputs setting ∨
    logic.entered = accountInputs setting ++ passwordInputs setting

/-- Where the loop can be, and how much has been entered there. -/
inductive Sound (setting : GameSetting) (logic : GameLogic) : Prop where
  | first (status_eq : logic.status = .first) (entered_eq : logic.entered = [])
  | account (status_eq : logic.status = .login) (subStatus_eq : logic.subStatus = 0)
      (entered_eq : logic.entered = [])
  | password (status_eq : logic.status = .login) (subStatus_eq : logic.subStatus = 1)
      (entered_eq : logic.entered = accountInputs setting)
  | confirm (status_eq : logic.status = .login)
      (subStatus_eq : logic.subStatus = 2 ∨ logic.subStatus = 3)
      (entered_eq : logic.entered = accountInputs setting ++ passwordInputs setting)
  | select (status_eq : logic.status = .characterSelect) (once : logic.EnteredOnce setting)
  | inGame (inGame : logic.InGame) (once : logic.EnteredOnce setting)

theorem Sound.once (sound : logic.Sound setting) : logic.EnteredOnce setting := by
  cases sound with
  | first status_eq entered_eq => exact .inl entered_eq
  | account status_eq subStatus_eq entered_eq => exact .inl entered_eq
  | password status_eq subStatus_eq entered_eq => exact .inr (.inl entered_eq)
  | confirm status_eq subStatus_eq entered_eq => exact .inr (.inr entered_eq)
  | select status_eq once => exact once
  | inGame inGame once => exact once

/-- The statuses of the game are none of those before it. -/
theorem InGame.status_ne (inGame : logic.InGame) : logic.status ≠ .first ∧
    logic.status ≠ .login ∧ logic.status ≠ .characterSelect := by
  rcases inGame with ⟨status_eq, -⟩ | ⟨errand, status_eq, -⟩
  · rw [status_eq]
    decide
  · rw [status_eq]
    exact ⟨errand.status_ne.1, errand.status_ne.2.1, errand.status_ne.2.2.1⟩

/-- A status of the game is reached only in the game. -/
theorem Sound.inGame_of_ne (sound : logic.Sound setting) (notFirst : logic.status ≠ .first)
    (notLogin : logic.status ≠ .login) (notSelect : logic.status ≠ .characterSelect) :
    logic.InGame := by
  cases sound with
  | first status_eq entered_eq => exact absurd status_eq notFirst
  | account status_eq subStatus_eq entered_eq => exact absurd status_eq notLogin
  | password status_eq subStatus_eq entered_eq => exact absurd status_eq notLogin
  | confirm status_eq subStatus_eq entered_eq => exact absurd status_eq notLogin
  | select status_eq once => exact absurd status_eq notSelect
  | inGame inGame once => exact inGame

theorem InGame.back_of_errand (inGame : logic.InGame) {errand : TownErrand}
    (status_eq : logic.status = errand.status) :
    logic.prevStatus = .main ∧ logic.prevSubStatus = 0 := by
  rcases inGame with ⟨isMain, -⟩ | ⟨other, -, back⟩
  · exact absurd (status_eq.symm.trans isMain) errand.status_ne.2.2.2
  · exact back

theorem InGame.subStatus_of_main (inGame : logic.InGame) (status_eq : logic.status = .main) :
    logic.subStatus = 0 := by
  rcases inGame with ⟨-, subStatus_eq⟩ | ⟨errand, errand_eq, -⟩
  · exact subStatus_eq
  · exact absurd (errand_eq.symm.trans status_eq) errand.status_ne.2.2.2

theorem place_eq_iff {status prevStatus : MainStatus} {subStatus prevSubStatus : ℕ} :
    logic.place = (status, subStatus, prevStatus, prevSubStatus) ↔
      logic.status = status ∧ logic.subStatus = subStatus ∧ logic.prevStatus = prevStatus ∧
        logic.prevSubStatus = prevSubStatus := by
  simp only [place, Prod.mk.injEq]

/-- A run that is in the game stays there. -/
theorem Passes.inGame (passes : Passes setting logic next) (inGame : logic.InGame) :
    next.InGame ∧ next.entered = logic.entered := by
  rcases inGame.status_ne with ⟨notFirst, notLogin, notSelect⟩
  cases passes with
  | stays place_eq entered_eq =>
      rcases place_eq_iff.mp place_eq with ⟨status_same, sub_same, prev_same, prevSub_same⟩
      refine ⟨?_, entered_eq⟩
      simp only [InGame, status_same, sub_same, prev_same, prevSub_same]
      exact inGame
  | begins errand status_eq place_eq entered_eq =>
      rcases place_eq_iff.mp place_eq with ⟨status_new, -, prev_new, prevSub_new⟩
      refine ⟨.inr ⟨errand, status_new, prev_new, ?_⟩, entered_eq⟩
      rw [prevSub_new]
      exact inGame.subStatus_of_main status_eq
  | proceeds errand subStatus status_eq place_eq entered_eq =>
      rcases place_eq_iff.mp place_eq with ⟨status_new, -, prev_same, prevSub_same⟩
      rcases inGame.back_of_errand status_eq with ⟨prev_eq, prevSub_eq⟩
      exact ⟨.inr ⟨errand, status_new, prev_same.trans prev_eq, prevSub_same.trans prevSub_eq⟩,
        entered_eq⟩
  | returns errand status_eq place_eq entered_eq =>
      rcases place_eq_iff.mp place_eq with ⟨status_new, sub_new, -, -⟩
      rcases inGame.back_of_errand status_eq with ⟨prev_eq, prevSub_eq⟩
      exact ⟨.inl ⟨status_new.trans prev_eq, sub_new.trans prevSub_eq⟩, entered_eq⟩
  | clicks status_eq place_eq entered_eq => exact absurd status_eq notFirst
  | account status_eq subStatus_eq place_eq entered_eq => exact absurd status_eq notLogin
  | password status_eq subStatus_eq place_eq entered_eq => exact absurd status_eq notLogin
  | confirms status_eq subStatus_eq place_eq entered_eq => exact absurd status_eq notLogin
  | selects status_eq place_eq entered_eq => exact absurd status_eq notLogin
  | plays status_eq place_eq entered_eq => exact absurd status_eq notSelect

theorem Sound.entered_of_first (sound : logic.Sound setting) (status_eq : logic.status = .first) :
    logic.entered = [] := by
  cases sound with
  | first _ entered_eq => exact entered_eq
  | account isLogin _ _ => cases isLogin.symm.trans status_eq
  | password isLogin _ _ => cases isLogin.symm.trans status_eq
  | confirm isLogin _ _ => cases isLogin.symm.trans status_eq
  | select isSelect _ => cases isSelect.symm.trans status_eq
  | inGame inGame _ => exact absurd status_eq inGame.status_ne.1

theorem Sound.entered_of_login (sound : logic.Sound setting) (status_eq : logic.status = .login) :
    (logic.subStatus = 0 → logic.entered = []) ∧
      (logic.subStatus = 1 → logic.entered = accountInputs setting) ∧
      (logic.subStatus = 2 →
        logic.entered = accountInputs setting ++ passwordInputs setting) := by
  cases sound with
  | first isFirst _ => cases isFirst.symm.trans status_eq
  | account _ subStatus_eq entered_eq =>
      exact ⟨fun _ => entered_eq, by omega, by omega⟩
  | password _ subStatus_eq entered_eq =>
      exact ⟨by omega, fun _ => entered_eq, by omega⟩
  | confirm _ subStatus_eq entered_eq =>
      exact ⟨by omega, by omega, fun _ => entered_eq⟩
  | select isSelect _ => cases isSelect.symm.trans status_eq
  | inGame inGame _ => exact absurd status_eq inGame.status_ne.2.1

/-- Outside the game a tick stays where it is with what has been entered. -/
theorem Sound.stays (sound : logic.Sound setting) (place_eq : next.place = logic.place)
    (entered_eq : next.entered = logic.entered) : next.Sound setting := by
  rcases place_eq_iff.mp place_eq with ⟨status_same, sub_same, prev_same, prevSub_same⟩
  cases sound with
  | first status_eq empty =>
      exact .first (status_same.trans status_eq) (entered_eq.trans empty)
  | account status_eq subStatus_eq empty =>
      exact .account (status_same.trans status_eq) (sub_same.trans subStatus_eq)
        (entered_eq.trans empty)
  | password status_eq subStatus_eq account =>
      exact .password (status_same.trans status_eq) (sub_same.trans subStatus_eq)
        (entered_eq.trans account)
  | confirm status_eq subStatus_eq both =>
      exact .confirm (status_same.trans status_eq) (sub_same ▸ subStatus_eq)
        (entered_eq.trans both)
  | select status_eq once =>
      exact .select (status_same.trans status_eq) (by rwa [EnteredOnce, entered_eq])
  | inGame inGame once =>
      refine .inGame ?_ (by rwa [EnteredOnce, entered_eq])
      simp only [InGame, status_same, sub_same, prev_same, prevSub_same]
      exact inGame

/-- Every tick leads to a place where the right inputs have been made. -/
theorem Passes.sound (passes : Passes setting logic next) (sound : logic.Sound setting) :
    next.Sound setting := by
  by_cases inGame : logic.InGame
  · rcases passes.inGame inGame with ⟨nextInGame, entered_eq⟩
    refine .inGame nextInGame ?_
    rw [EnteredOnce, entered_eq]
    exact sound.once
  · cases passes with
    | stays place_eq entered_eq => exact sound.stays place_eq entered_eq
    | clicks status_eq place_eq entered_eq =>
        rcases place_eq_iff.mp place_eq with ⟨status_new, sub_new, -, -⟩
        exact .account status_new sub_new (entered_eq.trans (sound.entered_of_first status_eq))
    | account status_eq subStatus_eq place_eq entered_eq =>
        rcases place_eq_iff.mp place_eq with ⟨status_new, sub_new, -, -⟩
        refine .password status_new sub_new ?_
        rw [entered_eq, (sound.entered_of_login status_eq).1 subStatus_eq, List.nil_append]
    | password status_eq subStatus_eq place_eq entered_eq =>
        rcases place_eq_iff.mp place_eq with ⟨status_new, sub_new, -, -⟩
        refine .confirm status_new (.inl sub_new) ?_
        rw [entered_eq, (sound.entered_of_login status_eq).2.1 subStatus_eq]
    | confirms status_eq subStatus_eq place_eq entered_eq =>
        rcases place_eq_iff.mp place_eq with ⟨status_new, sub_new, -, -⟩
        refine .confirm status_new (.inr sub_new) ?_
        exact entered_eq.trans ((sound.entered_of_login status_eq).2.2 subStatus_eq)
    | selects status_eq place_eq entered_eq =>
        rcases place_eq_iff.mp place_eq with ⟨status_new, -, -, -⟩
        refine .select status_new ?_
        rw [EnteredOnce, entered_eq]
        exact sound.once
    | plays status_eq place_eq entered_eq =>
        rcases place_eq_iff.mp place_eq with ⟨status_new, sub_new, -, -⟩
        refine .inGame (.inl ⟨status_new, sub_new⟩) ?_
        rw [EnteredOnce, entered_eq]
        exact sound.once
    | begins errand status_eq place_eq entered_eq =>
        refine absurd (sound.inGame_of_ne ?_ ?_ ?_) inGame
        all_goals simp [status_eq]
    | proceeds errand subStatus status_eq place_eq entered_eq =>
        exact absurd (sound.inGame_of_ne (status_eq ▸ errand.status_ne.1)
          (status_eq ▸ errand.status_ne.2.1) (status_eq ▸ errand.status_ne.2.2.1)) inGame
    | returns errand status_eq place_eq entered_eq =>
        exact absurd (sound.inGame_of_ne (status_eq ▸ errand.status_ne.1)
          (status_eq ▸ errand.status_ne.2.1) (status_eq ▸ errand.status_ne.2.2.1)) inGame

/-- The selection of a character is left only for the game. -/
theorem Passes.of_select (passes : Passes setting logic next)
    (isSelect : logic.status = .characterSelect) :
    next.entered = logic.entered ∧ next.status ≠ .first ∧ next.status ≠ .login := by
  cases passes with
  | stays place_eq entered_eq =>
      rcases place_eq_iff.mp place_eq with ⟨status_same, -, -, -⟩
      refine ⟨entered_eq, ?_, ?_⟩
      all_goals simp [status_same, isSelect]
  | plays status_eq place_eq entered_eq =>
      rcases place_eq_iff.mp place_eq with ⟨status_new, -, -, -⟩
      refine ⟨entered_eq, ?_, ?_⟩
      all_goals simp [status_new]
  | clicks status_eq _ _ => cases isSelect.symm.trans status_eq
  | account status_eq _ _ _ => cases isSelect.symm.trans status_eq
  | password status_eq _ _ _ => cases isSelect.symm.trans status_eq
  | confirms status_eq _ _ _ => cases isSelect.symm.trans status_eq
  | selects status_eq _ _ => cases isSelect.symm.trans status_eq
  | begins errand status_eq _ _ => cases isSelect.symm.trans status_eq
  | proceeds errand _ status_eq _ _ =>
      exact absurd (status_eq.symm.trans isSelect) errand.status_ne.2.2.1
  | returns errand status_eq _ _ =>
      exact absurd (status_eq.symm.trans isSelect) errand.status_ne.2.2.1

/-- An errand goes on, or back to the quests. -/
theorem Passes.of_errand (passes : Passes setting logic next) (inGame : logic.InGame)
    {errand : TownErrand} (isErrand : logic.status = errand.status) :
    next.status = errand.status ∨ next.status = .main ∧ next.subStatus = 0 := by
  rcases errand.status_ne with ⟨notFirst, notLogin, notSelect, notMain⟩
  cases passes with
  | stays place_eq entered_eq =>
      rcases place_eq_iff.mp place_eq with ⟨status_same, -, -, -⟩
      exact .inl (status_same.trans isErrand)
  | proceeds other subStatus status_eq place_eq entered_eq =>
      rcases place_eq_iff.mp place_eq with ⟨status_new, -, -, -⟩
      exact .inl (status_new.trans (status_eq.symm.trans isErrand))
  | returns other status_eq place_eq entered_eq =>
      rcases place_eq_iff.mp place_eq with ⟨status_new, sub_new, -, -⟩
      rcases inGame.back_of_errand isErrand with ⟨prev_eq, prevSub_eq⟩
      exact .inr ⟨status_new.trans prev_eq, sub_new.trans prevSub_eq⟩
  | clicks status_eq _ _ => exact absurd (isErrand.symm.trans status_eq) notFirst
  | account status_eq _ _ _ => exact absurd (isErrand.symm.trans status_eq) notLogin
  | password status_eq _ _ _ => exact absurd (isErrand.symm.trans status_eq) notLogin
  | confirms status_eq _ _ _ => exact absurd (isErrand.symm.trans status_eq) notLogin
  | selects status_eq _ _ => exact absurd (isErrand.symm.trans status_eq) notLogin
  | plays status_eq _ _ => exact absurd (isErrand.symm.trans status_eq) notSelect
  | begins other status_eq _ _ => exact absurd (isErrand.symm.trans status_eq) notMain

theorem place_toggleRun (logic : GameLogic) (isRun : Bool) :
    (logic.toggleRun isRun).place = logic.place ∧
      (logic.toggleRun isRun).actions = logic.actions := by
  simp only [toggleRun]
  split
  · split
    · exact ⟨rfl, rfl⟩
    · exact ⟨rfl, rfl⟩
  · exact ⟨rfl, rfl⟩

theorem passes_step {event : Event} (moves : (system setting).step logic event next) :
    Passes setting logic next := by
  cases event with
  | main frame => exact passes_main moves
  | toggleRun isRun =>
      obtain rfl : next = logic.toggleRun isRun := moves
      rcases logic.place_toggleRun isRun with ⟨place_eq, actions_eq⟩
      exact .stays place_eq (congrArg credentials actions_eq)

theorem invariant_sound (setting : GameSetting) : (system setting).Invariant (Sound setting) where
  initial logic isInitial := by
    obtain rfl : logic = initialLogic := isInitial
    exact .first rfl rfl
  step logic event next sound moves := (passes_step moves).sound sound

/-- Account and password are entered at most once each in a whole run, every character of one
before the other begins; and once the character is to be selected nothing of them is entered any
more. -/
theorem credentials_entered_once (reached : (system setting).Reachable logic) :
    logic.EnteredOnce setting ∧
      (logic.status ≠ .first → logic.status ≠ .login → ∀ last,
        (system setting).Run logic last → last.entered = logic.entered) := by
  have sound := (invariant_sound setting).of_reachable reached
  refine ⟨sound.once, ?_⟩
  intro notFirst notLogin last run
  have kept : last.entered = logic.entered ∧ last.status ≠ .first ∧ last.status ≠ .login := by
    induction run with
    | refl => exact ⟨rfl, notFirst, notLogin⟩
    | @step next last event run moves ih =>
        rcases ih with ⟨entered_eq, nextNotFirst, nextNotLogin⟩
        have passes := passes_step moves
        by_cases selects : next.status = .characterSelect
        · rcases passes.of_select selects with ⟨last_entered, lastNotFirst, lastNotLogin⟩
          exact ⟨last_entered.trans entered_eq, lastNotFirst, lastNotLogin⟩
        · have nextSound := (invariant_sound setting).of_reachable (reached.run run)
          have inGame := nextSound.inGame_of_ne nextNotFirst nextNotLogin selects
          rcases passes.inGame inGame with ⟨lastInGame, last_entered⟩
          exact ⟨last_entered.trans entered_eq, lastInGame.status_ne.1, lastInGame.status_ne.2.1⟩
  exact kept.1

theorem credentials_entered_once_short :
    (arrived loginEvents).EnteredOnce shortSetting ∧
      ((arrived loginEvents).status ≠ .first → (arrived loginEvents).status ≠ .login → ∀ last,
        (system shortSetting).Run (arrived loginEvents) last →
          last.entered = (arrived loginEvents).entered) :=
  credentials_entered_once (reachable_arrived (by decide +kernel))

/-- In the game the loop follows the quests or is on an errand that goes back to them: it stays so
in every continuation, and an errand is left only for the quests. -/
theorem errands_goBack (reached : (system setting).Reachable logic)
    (notFirst : logic.status ≠ .first) (notLogin : logic.status ≠ .login)
    (notSelect : logic.status ≠ .characterSelect) :
    (∀ last, (system setting).Run logic last → last.InGame) ∧
      ∀ (errand : TownErrand) event next, logic.status = errand.status →
        (system setting).step logic event next →
        next.status = errand.status ∨ next.status = .main ∧ next.subStatus = 0 := by
  have inGame := ((invariant_sound setting).of_reachable reached).inGame_of_ne notFirst notLogin
    notSelect
  refine ⟨?_, ?_⟩
  · intro last run
    induction run with
    | refl => exact inGame
    | step _ moves ih => exact ((passes_step moves).inGame ih).1
  · intro errand event next status_eq moves
    exact (passes_step moves).of_errand inGame status_eq

theorem errands_goBack_sell :
    (∀ last, (system shortSetting).Run (arrived sellEvents) last → last.InGame) ∧
      ∀ (errand : TownErrand) event next, (arrived sellEvents).status = errand.status →
        (system shortSetting).step (arrived sellEvents) event next →
        next.status = errand.status ∨ next.status = .main ∧ next.subStatus = 0 :=
  errands_goBack (reachable_arrived (by decide +kernel)) (by decide +kernel) (by decide +kernel)
    (by decide +kernel)

/-- Whether the path leads into freed arrays, and whether a new map block waits for `QuestRun`. -/
def mapState (logic : GameLogic) : Bool × Bool := (logic.stale, logic.newMapBlock)

/-- The path leads into freed arrays only while a new map block is waiting for `QuestRun`. -/
def Fresh (logic : GameLogic) : Prop := logic.stale = true → logic.newMapBlock = true

theorem Fresh.of_eq (fresh : logic.Fresh) (same : next.mapState = logic.mapState) :
    next.Fresh := by
  rcases Prod.mk.inj same with ⟨stale_eq, newMapBlock_eq⟩
  intro isStale
  exact newMapBlock_eq.trans (fresh (stale_eq.symm.trans isStale))

theorem readMapBlock_fresh (fresh : logic.Fresh) (frame : Frame) :
    (logic.readMapBlock frame).Fresh := by
  simp only [readMapBlock]
  split
  · exact fresh
  · split
    · exact fresh
    · exact fun _ => rfl

/-- When `QuestRun` comes to read the path, it is one into the current arrays. -/
theorem not_readsStale (fresh : logic.Fresh) (frame : Frame) : logic.readsStale frame = false := by
  simp only [readsStale]
  by_cases isStale : logic.stale = true
  · have isNew : (logic.questTick frame).newMapBlock = true := fresh isStale
    simp [isNew]
  · simp [isStale]

theorem mapState_toggleRun {isRun : Bool} : (logic.toggleRun isRun).mapState = logic.mapState := by
  simp only [toggleRun]
  split
  · split
    · rfl
    · rfl
  · rfl

theorem mapState_runFirst : (logic.runFirst frame).mapState = logic.mapState := by
  simp only [runFirst]
  split
  · rfl
  · rfl

theorem mapState_runLogin : (logic.runLogin setting frame).mapState = logic.mapState := by
  simp only [runLogin]
  split
  · rfl
  · split
    · rfl
    · rfl
    · rfl
    · rfl

theorem mapState_closeInteraction (same : next.mapState = logic.mapState) :
    (logic.closeInteraction frame next).mapState = logic.mapState := by
  simp only [closeInteraction]
  split
  · rfl
  · exact same

theorem mapState_closeWindow {isVisible : Bool} (same : next.mapState = logic.mapState) :
    (logic.closeWindow isVisible next).mapState = logic.mapState := by
  simp only [closeWindow]
  split
  · rfl
  · exact same

theorem mapState_trade {deal : Option GameLogic} {isVisible : Bool}
    (deals : ∀ dealt ∈ deal, dealt.mapState = logic.mapState) :
    (logic.trade frame deal isVisible).mapState = logic.mapState := by
  simp only [trade]
  split
  · exact mapState_closeInteraction rfl
  · split
    · rfl
    · rfl
    · cases dealt : deal with
      | none => rfl
      | some logic' => exact deals logic' dealt
  · exact mapState_closeWindow (mapState_closeInteraction rfl)
  · rfl

theorem mapState_runNpcSell : (logic.runNpcSell frame).mapState = logic.mapState := by
  apply mapState_trade
  intro dealt dealt_mem
  rcases Option.map_eq_some_iff.mp dealt_mem with ⟨outcomes, -, rfl⟩
  clear dealt_mem
  induction outcomes generalizing logic with
  | nil => rfl
  | cons outcome rest ih => exact @ih ((logic.act [.sellItemToNpc]).after outcome)

theorem mapState_runNpcPurchase : (logic.runNpcPurchase frame).mapState = logic.mapState := by
  apply mapState_trade
  intro dealt dealt_mem
  rcases Option.map_eq_some_iff.mp dealt_mem with ⟨outcome, -, rfl⟩
  rfl

theorem mapState_runStashDeposit : (logic.runStashDeposit frame).mapState = logic.mapState := by
  simp only [runStashDeposit]
  split
  · split
    · rfl
    · rfl
  · exact mapState_closeWindow rfl
  · rfl

/-- Following the quests leaves no path into freed arrays behind. -/
theorem fresh_runMain (fresh : logic.Fresh) (ran : logic.runMain frame = some next) :
    next.Fresh := by
  have readFresh := readMapBlock_fresh fresh frame
  simp only [runMain] at ran
  split at ran
  · cases ran
    exact fun _ => rfl
  · split at ran
    · cases ran
      exact readFresh.of_eq rfl
    · split at ran
      · cases ran
        exact readFresh.of_eq rfl
      · simp only [questRun, Option.map_eq_some_iff, not_readsStale readFresh] at ran
        rcases ran with ⟨walker, -, rfl⟩
        intro isStale
        split at isStale
        · cases isStale
        · cases isStale

theorem stale_runCharacterSelect :
    (logic.runCharacterSelect setting frame).stale = logic.stale := by
  simp only [runCharacterSelect]
  split
  · rfl
  · split
    · rfl
    · rfl

/-- The path is the business of the quests and of their beginning. -/
theorem mapState_main (ran : logic.main setting frame = some next)
    (notSelect : logic.status ≠ .characterSelect) (notMain : logic.status ≠ .main) :
    next.mapState = logic.mapState := by
  change next.mapState = (logic.setTick frame.questTick.now).mapState
  change (logic.setTick frame.questTick.now).status ≠ _ at notSelect notMain
  simp only [main] at ran
  generalize logic.setTick frame.questTick.now = timed at ran notSelect notMain ⊢
  split at ran
  · cases ran
    rfl
  · split at ran
    · cases ran
      rfl
    · split at ran
      · cases ran
        rfl
      · split at ran
        · cases ran
          rfl
        · cases status_eq : timed.status with
          | first =>
              rw [status_eq] at ran
              cases ran
              exact mapState_runFirst
          | login =>
              rw [status_eq] at ran
              cases ran
              exact mapState_runLogin
          | characterSelect => exact absurd status_eq notSelect
          | main => exact absurd status_eq notMain
          | npcSell =>
              rw [status_eq] at ran
              cases ran
              exact mapState_runNpcSell
          | npcPurchase =>
              rw [status_eq] at ran
              cases ran
              exact mapState_runNpcPurchase
          | stashDeposit =>
              rw [status_eq] at ran
              cases ran
              exact mapState_runStashDeposit
          | stashWithdraw =>
              rw [status_eq] at ran
              cases ran
              rfl

/-- A tick in the selection of a character or in the game either keeps the state of the map or is
the business of these statuses. -/
theorem main_of_running (ran : logic.main setting frame = some next) :
    next.mapState = logic.mapState ∨
      (logic.status = .characterSelect →
          next = (logic.setTick frame.questTick.now).runCharacterSelect setting frame) ∧
        (logic.status = .main →
          (logic.setTick frame.questTick.now).runMain frame = some next) := by
  change next.mapState = (logic.setTick frame.questTick.now).mapState ∨
    ((logic.setTick frame.questTick.now).status = _ → _) ∧
      ((logic.setTick frame.questTick.now).status = _ → _)
  simp only [main] at ran
  generalize logic.setTick frame.questTick.now = timed at ran ⊢
  split at ran
  · cases ran
    exact .inl rfl
  · split at ran
    · cases ran
      exact .inl rfl
    · split at ran
      · cases ran
        exact .inl rfl
      · split at ran
        · cases ran
          exact .inl rfl
        · refine .inr ⟨?_, ?_⟩
          · intro isSelect
            rw [isSelect] at ran
            exact (Option.some.inj ran).symm
          · intro isMain
            rwa [isMain] at ran

/-- A path into freed arrays waits for a new map block to be noticed, and only in the game. -/
structure Tracked (setting : GameSetting) (logic : GameLogic) : Prop where
  sound : logic.Sound setting
  fresh : logic.Fresh
  inGame : logic.stale = true → logic.InGame

theorem Tracked.stale_of_select (tracked : logic.Tracked setting)
    (isSelect : logic.status = .characterSelect) : logic.stale = false := by
  by_contra isStale
  exact (tracked.inGame (Bool.eq_true_of_not_eq_false isStale)).status_ne.2.2 isSelect

theorem Tracked.inGame_of_main (tracked : logic.Tracked setting)
    (isMain : logic.status = .main) : logic.InGame := by
  apply tracked.sound.inGame_of_ne
  all_goals simp [isMain]

theorem Tracked.fresh_main (tracked : logic.Tracked setting)
    (ran : logic.main setting frame = some next) : next.Fresh := by
  by_cases isSelect : logic.status = .characterSelect
  · rcases main_of_running ran with same | ⟨selects, -⟩
    · exact tracked.fresh.of_eq same
    · intro isStale
      rw [selects isSelect, stale_runCharacterSelect] at isStale
      cases (tracked.stale_of_select isSelect).symm.trans isStale
  · by_cases isMain : logic.status = .main
    · rcases main_of_running ran with same | ⟨-, follows⟩
      · exact tracked.fresh.of_eq same
      · have timedFresh : (logic.setTick frame.questTick.now).Fresh := tracked.fresh
        exact fresh_runMain timedFresh (follows isMain)
    · exact tracked.fresh.of_eq (mapState_main ran isSelect isMain)

theorem Tracked.inGame_main (tracked : logic.Tracked setting)
    (ran : logic.main setting frame = some next) (isStale : next.stale = true) : next.InGame := by
  have stays : logic.InGame → next.InGame := fun inGame => ((passes_main ran).inGame inGame).1
  by_cases isSelect : logic.status = .characterSelect
  · have unread := tracked.stale_of_select isSelect
    rcases main_of_running ran with same | ⟨selects, -⟩
    · exact stays (tracked.inGame ((congrArg Prod.fst same).symm.trans isStale))
    · rw [selects isSelect, stale_runCharacterSelect] at isStale
      cases unread.symm.trans isStale
  · by_cases isMain : logic.status = .main
    · exact stays (tracked.inGame_of_main isMain)
    · have same := mapState_main ran isSelect isMain
      exact stays (tracked.inGame ((congrArg Prod.fst same).symm.trans isStale))

theorem invariant_tracked (setting : GameSetting) :
    (system setting).Invariant (Tracked setting) where
  initial logic isInitial := by
    obtain rfl : logic = initialLogic := isInitial
    exact ⟨.first rfl rfl, nofun, nofun⟩
  step logic event next tracked moves := by
    have sound := (passes_step moves).sound tracked.sound
    cases event with
    | main frame => exact ⟨sound, tracked.fresh_main moves, tracked.inGame_main moves⟩
    | toggleRun isRun =>
        have same : next.mapState = logic.mapState := moves ▸ mapState_toggleRun
        refine ⟨sound, tracked.fresh.of_eq same, ?_⟩
        intro isStale
        have inGame := tracked.inGame ((congrArg Prod.fst same).symm.trans isStale)
        exact ((passes_step moves).inGame inGame).1

/-- The path arrays are replaced whenever a new map block is read, and the walker may still be on a
path in the old ones; but no tick of any run reads that path: `QuestRun` begins its reads with a
path into the arrays of the map just read, whatever statuses, errands, deaths and stops lie between
the allocation and its next turn. -/
theorem path_read_fresh (reached : (system setting).Reachable logic) (frame : Frame) :
    (logic.readMapBlock frame).readsStale frame = false ∧
      ∀ event next, (system setting).step logic event next → next.stale = true →
        next.newMapBlock = true ∧ next.InGame := by
  have tracked := (invariant_tracked setting).of_reachable reached
  refine ⟨not_readsStale (readMapBlock_fresh tracked.fresh frame) frame, ?_⟩
  intro event next moves isStale
  have nextTracked := (invariant_tracked setting).step logic event next tracked moves
  exact ⟨nextTracked.fresh isStale, nextTracked.inGame isStale⟩

theorem path_read_fresh_dead :
    ((arrived (sellEvents.take 159)).readMapBlock loginFrame).readsStale loginFrame = false ∧
      ∀ event next, (system shortSetting).step (arrived (sellEvents.take 159)) event next →
        next.stale = true → next.newMapBlock = true ∧ next.InGame :=
  path_read_fresh (reachable_arrived (by decide +kernel)) loginFrame

end Logins

end GameLogic

end PoETask.Attach
