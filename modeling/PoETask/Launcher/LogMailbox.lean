import Mathlib.Data.List.Basic
import Mathlib.Logic.Function.Basic
import PoETask.Library.StepSystem

/-!
# The log mailbox

The attached game and the launcher share one text per account, `szLog`, and two
auto-reset events. `Log` waits for the answer event, copies its text and sets the notify
event; `CommThread` waits for the notify event, shows the text and sets the answer event.
`InitPCI` creates the answer event set and the notify event unset, so one permission to
touch `szLog` goes round.

`Log` may run on several threads of the game. They all format into `g_szBuffer` first,
before they wait. The launcher may terminate the game at any time. Four fields are
histories: the texts logged, copied and delivered, and the lines inserted in the list.
-/

namespace PoETask.Launcher

open PoETask.Library

/-- The characters of a text, up to its terminator. -/
abbrev LogText := List UInt16

/-- `L"Init"`. -/
def initText : LogText := [73, 110, 105, 116]

/-- Where a thread is inside `Log`. -/
inductive WriterPc where
  | outside
  | comparing
  | waiting
  | copying
  | notifying
  | writing
  deriving DecidableEq

/-- Where `CommThread` is. -/
inductive ReaderPc where
  | waiting
  | showing
  | answering
  deriving DecidableEq

/-- A thread is between its wait and its `SetEvent`. -/
def WriterPc.Holds (pc : WriterPc) : Prop := pc = .copying ∨ pc = .notifying

instance : DecidablePred WriterPc.Holds := fun _ => inferInstanceAs (Decidable (_ ∨ _))

theorem WriterPc.not_holds_outside : ¬ WriterPc.outside.Holds := by decide

/-- `CommThread` is between its wait and its `SetEvent`. -/
def ReaderPc.Holds (pc : ReaderPc) : Prop := pc = .showing ∨ pc = .answering

/-- A line of the list control: from the game, or from the launcher itself. -/
inductive LogLine where
  | game (text : LogText)
  | own (text : LogText)

namespace LogLine

def text : LogLine → LogText
  | game text => text
  | own text => text

def game? : LogLine → Option LogText
  | game text => some text
  | own _ => none

end LogLine

structure Mailbox where
  szBuffer : LogText
  szLog : LogText
  notify : Bool
  answer : Bool
  writer : ℕ → WriterPc
  reader : ReaderPc
  list : List LogText
  file : List LogText
  logged : List LogText
  copied : List (LogText × LogText)
  delivered : List LogText
  inserted : List LogLine
  lost : Bool

/-- What `swprintf` puts into `szLog`; an empty text has no time in front. -/
def stamped (copy : LogText × LogText) : LogText :=
  if copy.2 = [] then [] else copy.1 ++ copy.2

namespace Mailbox

/-- What `InitPCI` of the launcher sets up. -/
def initPCI : Mailbox where
  szBuffer := []
  szLog := []
  notify := false
  answer := true
  writer _ := .outside
  reader := .waiting
  list := []
  file := []
  logged := []
  copied := []
  delivered := []
  inserted := []
  lost := false

def goto (mailbox : Mailbox) (thread : ℕ) (pc : WriterPc) : Mailbox :=
  { mailbox with writer := Function.update mailbox.writer thread pc }

/-- `LogUI`: the list keeps at most 2001 lines. -/
def logUI (mailbox : Mailbox) (line : LogLine) : Mailbox :=
  { mailbox with
    list := (if mailbox.list.length > 2000 then mailbox.list.tail else mailbox.list) ++ [line.text]
    inserted := mailbox.inserted ++ [line] }

/-- `UpdateLog`, which shows at most 4095 characters and no empty text. -/
def updateLog (mailbox : Mailbox) : Mailbox :=
  let szLog := mailbox.szLog.take 0xFFF
  if szLog = [] then
    { mailbox with szLog }
  else
    { mailbox with szLog }.logUI (.game szLog)

inductive Event where
  | vswprintf (thread : ℕ) (text : LogText)
  | compare (thread : ℕ)
  | waitAnswer (thread : ℕ)
  | swprintf (thread : ℕ) (time : LogText)
  | setNotify (thread : ℕ)
  | writeFile (thread : ℕ) (opens : Bool)
  | waitNotify
  | sendMessage
  | setAnswer
  | logUI (text : LogText)
  | terminate
  | attach

/-- One step of a thread of the game, of `CommThread` or of the launcher. -/
inductive Step (mailbox : Mailbox) : Event → Mailbox → Prop where
  | vswprintf (thread : ℕ) (text : LogText) (at_pc : mailbox.writer thread = .outside) :
      Step mailbox (.vswprintf thread text) { mailbox.goto thread .comparing with
        szBuffer := text, logged := mailbox.logged ++ [text] }
  | compare (thread : ℕ) (at_pc : mailbox.writer thread = .comparing) :
      Step mailbox (.compare thread)
        (mailbox.goto thread (if mailbox.szBuffer = initText then .writing else .waiting))
  | waitAnswer (thread : ℕ) (at_pc : mailbox.writer thread = .waiting)
      (signaled : mailbox.answer = true) :
      Step mailbox (.waitAnswer thread) { mailbox.goto thread .copying with answer := false }
  | swprintf (thread : ℕ) (time : LogText) (at_pc : mailbox.writer thread = .copying) :
      Step mailbox (.swprintf thread time) { mailbox.goto thread .notifying with
        szLog := stamped (time, mailbox.szBuffer)
        copied := mailbox.copied ++ [(time, mailbox.szBuffer)] }
  | setNotify (thread : ℕ) (at_pc : mailbox.writer thread = .notifying) :
      Step mailbox (.setNotify thread) { mailbox.goto thread .writing with notify := true }
  | writeFile (thread : ℕ) (opens : Bool) (at_pc : mailbox.writer thread = .writing) :
      Step mailbox (.writeFile thread opens) { mailbox.goto thread .outside with
        file :=
          if mailbox.szBuffer = [] ∨ opens = false then mailbox.file
          else if mailbox.szBuffer = initText then []
          else mailbox.file ++ [mailbox.szBuffer] }
  | waitNotify (at_pc : mailbox.reader = .waiting) (signaled : mailbox.notify = true) :
      Step mailbox .waitNotify { mailbox with notify := false, reader := .showing }
  | sendMessage (at_pc : mailbox.reader = .showing) :
      Step mailbox .sendMessage { mailbox.updateLog with
        reader := .answering, delivered := mailbox.delivered ++ [mailbox.szLog] }
  | setAnswer (at_pc : mailbox.reader = .answering) :
      Step mailbox .setAnswer { mailbox with answer := true, reader := .waiting }
  | logUI (text : LogText) : Step mailbox (.logUI text) (mailbox.logUI (.own text))
  | terminate (lost : Bool) (lost_iff : lost = true ↔
        mailbox.lost = true ∨ ∃ thread, (mailbox.writer thread).Holds) :
      Step mailbox .terminate { mailbox with writer := fun _ => .outside, lost }
  | attach (fresh : ∀ thread, mailbox.writer thread = .outside) :
      Step mailbox .attach { mailbox with szLog := [] }

/-- The mailbox under any interleaving. -/
def system : StepSystem Mailbox Event where
  initial mailbox := mailbox = initPCI
  step := Step

/-- Where the permission to touch `szLog` is. -/
inductive Place where
  | answer
  | writer (thread : ℕ)
  | notify
  | reader
  | nowhere

/-- Where a step takes the permission. -/
def Event.moves : Event → Place → Place
  | .waitAnswer thread, _ => .writer thread
  | .setNotify _, _ => .notify
  | .waitNotify, _ => .reader
  | .setAnswer, _ => .answer
  | .terminate, .writer _ => .nowhere
  | _, place => place

/-- Something in the mailbox says that the permission is in a place. -/
def Claims (mailbox : Mailbox) : Place → Prop
  | .answer => mailbox.answer = true
  | .writer thread => (mailbox.writer thread).Holds
  | .notify => mailbox.notify = true
  | .reader => mailbox.reader.Holds
  | .nowhere => mailbox.lost = true

/-- The permission is in one place, and nothing says that it is in another one. -/
def At (mailbox : Mailbox) (place : Place) : Prop := ∀ other, mailbox.Claims other ↔ other = place

section Steps

variable {mailbox next : Mailbox} {place : Place} {event : Event}

theorem at_initPCI : initPCI.At .answer := by
  intro other
  cases other <;> simp [Claims, initPCI, WriterPc.Holds, ReaderPc.Holds]

theorem At.stay (isAt : mailbox.At place)
    (claims : ∀ other, next.Claims other ↔ mailbox.Claims other) : next.At place :=
  fun other => (claims other).trans (isAt other)

theorem At.move {target : Place} (isAt : mailbox.At place)
    (claims : ∀ other, next.Claims other ↔
      other = target ∨ mailbox.Claims other ∧ other ≠ place) : next.At target := by
  intro other
  rw [claims, isAt other]
  simp

theorem At.unique (isAt : mailbox.At place) (target : Place) (claims : mailbox.Claims target) :
    target = place :=
  (isAt target).mp claims

/-- Only one thread moves; the others claim what they claimed. -/
theorem holds_update (writer : ℕ → WriterPc) (thread other : ℕ) (pc : WriterPc) :
    (Function.update writer thread pc other).Holds ↔
      if other = thread then pc.Holds else (writer other).Holds := by
  by_cases same : other = thread
  · simp [same]
  · simp [same]

/-- A thread that holds the permission before and after, or neither time, moves on. -/
theorem At.goto {pc : WriterPc} (isAt : mailbox.At place) (thread : ℕ)
    (same : pc.Holds ↔ (mailbox.writer thread).Holds) (answer_eq : next.answer = mailbox.answer)
    (notify_eq : next.notify = mailbox.notify) (reader_eq : next.reader = mailbox.reader)
    (lost_eq : next.lost = mailbox.lost)
    (writer_eq : next.writer = Function.update mailbox.writer thread pc) : next.At place := by
  apply isAt.stay
  intro other
  cases other with
  | writer other =>
      simp only [Claims, writer_eq, holds_update]
      split
      · rename_i isThread
        rw [isThread]
        exact same
      · rfl
  | answer => simp only [Claims, answer_eq]
  | notify => simp only [Claims, notify_eq]
  | reader => simp only [Claims, reader_eq]
  | nowhere => simp only [Claims, lost_eq]

theorem updateLog_frame (mailbox : Mailbox) :
    mailbox.updateLog.answer = mailbox.answer ∧ mailbox.updateLog.notify = mailbox.notify ∧
      mailbox.updateLog.writer = mailbox.writer ∧ mailbox.updateLog.lost = mailbox.lost ∧
      mailbox.updateLog.copied = mailbox.copied := by
  simp only [updateLog]
  split
  · exact ⟨rfl, rfl, rfl, rfl, rfl⟩
  · exact ⟨rfl, rfl, rfl, rfl, rfl⟩

/-- With the game the permission is lost exactly when one of its threads holds it. -/
theorem At.terminate (isAt : mailbox.At place) {lost : Bool}
    (lost_iff : lost = true ↔ mailbox.lost = true ∨ ∃ thread, (mailbox.writer thread).Holds) :
    ({ mailbox with writer := fun _ => .outside, lost } : Mailbox).At
      (Event.terminate.moves place) := by
  cases place with
  | writer thread =>
      apply isAt.move
      intro other
      cases other with
      | writer other =>
          have holder := isAt (.writer other)
          simp only [Claims] at holder
          simp [Claims, WriterPc.not_holds_outside, Event.moves, holder]
      | nowhere =>
          have holds : (mailbox.writer thread).Holds := (isAt (.writer thread)).mpr rfl
          simp only [Claims, lost_iff, Event.moves, true_or, iff_true]
          exact .inr ⟨thread, holds⟩
      | _ => simp [Claims, Event.moves]
  | _ =>
      apply isAt.stay
      have noHolder : ∀ thread, ¬ (mailbox.writer thread).Holds := by
        intro thread holds
        cases isAt.unique (.writer thread) holds
      intro other
      cases other with
      | writer other => simp [Claims, WriterPc.not_holds_outside, noHolder other]
      | nowhere => simp [Claims, lost_iff, noHolder]
      | _ => rfl

/-- Every step takes the permission where it says. -/
theorem At.step (isAt : mailbox.At place) (step : Step mailbox event next) :
    next.At (event.moves place) := by
  cases step with
  | vswprintf thread text at_pc =>
      exact isAt.goto thread (by simp [at_pc, WriterPc.Holds]) rfl rfl rfl rfl rfl
  | compare thread at_pc =>
      refine isAt.goto thread ?_ rfl rfl rfl rfl rfl
      split <;> simp [at_pc, WriterPc.Holds]
  | waitAnswer thread at_pc signaled =>
      obtain rfl := isAt.unique .answer signaled
      apply isAt.move
      intro other
      cases other with
      | writer other =>
          simp only [Claims, Mailbox.goto, holds_update]
          by_cases same : other = thread
          · simp [same, WriterPc.Holds, Event.moves]
          · simp [same, Event.moves]
      | _ => simp [Claims, Mailbox.goto, Event.moves]
  | swprintf thread time at_pc =>
      exact isAt.goto thread (by simp [at_pc, WriterPc.Holds]) rfl rfl rfl rfl rfl
  | setNotify thread at_pc =>
      obtain rfl := isAt.unique (.writer thread) (.inr at_pc)
      apply isAt.move
      intro other
      cases other with
      | writer other =>
          simp only [Claims, Mailbox.goto, holds_update]
          by_cases same : other = thread
          · simp [same, WriterPc.Holds, Event.moves]
          · simp [same, Event.moves]
      | _ => simp [Claims, Mailbox.goto, Event.moves]
  | writeFile thread opens at_pc =>
      exact isAt.goto thread (by simp [at_pc, WriterPc.Holds]) rfl rfl rfl rfl rfl
  | waitNotify at_pc signaled =>
      obtain rfl := isAt.unique .notify signaled
      apply isAt.move
      intro other
      cases other <;> simp [Claims, Event.moves, ReaderPc.Holds, at_pc]
  | sendMessage at_pc =>
      rcases mailbox.updateLog_frame with ⟨answer_eq, notify_eq, writer_eq, lost_eq, -⟩
      apply isAt.stay
      intro other
      cases other <;>
        simp [Claims, ReaderPc.Holds, at_pc, answer_eq, notify_eq, writer_eq, lost_eq]
  | setAnswer at_pc =>
      obtain rfl := isAt.unique .reader (.inr at_pc)
      apply isAt.move
      intro other
      cases other <;> simp [Claims, Event.moves, ReaderPc.Holds]
  | logUI text => exact isAt.stay fun other => by cases other <;> rfl
  | terminate lost lost_iff => exact isAt.terminate lost_iff
  | attach fresh => exact isAt.stay fun other => by cases other <;> rfl

/-- In every run the permission is in exactly one place. -/
theorem at_of_reachable (reached : system.Reachable mailbox) : ∃ place, mailbox.At place := by
  induction reached with
  | initial starts => exact ⟨_, starts ▸ at_initPCI⟩
  | step _ moves ih =>
      rcases ih with ⟨place, isAt⟩
      exact ⟨_, isAt.step moves⟩

/-- The text in `szLog` that has not been delivered yet. -/
def pending (mailbox : Mailbox) : Place → List LogText
  | .notify => [mailbox.szLog]
  | .writer thread => if mailbox.writer thread = .notifying then [mailbox.szLog] else []
  | .reader => if mailbox.reader = .showing then [mailbox.szLog] else []
  | _ => []

/-- The game process ends or another one begins. -/
def Event.changesGame : Event → Bool
  | .terminate => true
  | .attach => true
  | _ => false

/-- The thread an event belongs to, if it is one of the game. -/
def Event.thread? : Event → Option ℕ
  | .vswprintf thread _ => some thread
  | .compare thread => some thread
  | .waitAnswer thread => some thread
  | .swprintf thread _ => some thread
  | .setNotify thread => some thread
  | .writeFile thread _ => some thread
  | _ => none

/-- One game process. -/
def OneGame (_mailbox : Mailbox) (event : Event) : Prop := event.changesGame = false

/-- One game process in which one thread logs. -/
def OneThread (thread : ℕ) (_mailbox : Mailbox) (event : Event) : Prop :=
  event.changesGame = false ∧ (event.thread? = none ∨ event.thread? = some thread)

instance (thread : ℕ) (mailbox : Mailbox) (event : Event) :
    Decidable (OneThread thread mailbox event) :=
  inferInstanceAs (Decidable (_ ∧ (_ ∨ _)))

/-- What has been copied is what has been delivered and what is on its way. -/
structure Delivers (mailbox : Mailbox) (place : Place) : Prop where
  isAt : mailbox.At place
  found : mailbox.lost = false
  copied_eq : mailbox.copied.map stamped = mailbox.delivered ++ mailbox.pending place

/-- A thread that is not the holder moves without effect on what is on its way. -/
theorem pending_goto (isAt : mailbox.At place) (thread : ℕ) (pc : WriterPc)
    (before : ¬ (mailbox.writer thread).Holds) :
    (mailbox.goto thread pc).pending place = mailbox.pending place := by
  cases place with
  | writer holder =>
      have different : holder ≠ thread := by
        rintro rfl
        exact before ((isAt (.writer holder)).mpr rfl)
      simp only [pending, goto, Function.update_of_ne different]
  | _ => rfl

theorem Delivers.step (delivers : mailbox.Delivers place) (oneGame : OneGame mailbox event)
    (step : Step mailbox event next) : next.Delivers (event.moves place) := by
  have isAt := delivers.isAt
  have copied_eq := delivers.copied_eq
  refine ⟨isAt.step step, ?_, ?_⟩
  · cases step with
    | sendMessage at_pc =>
        rw [show _ = mailbox.lost from mailbox.updateLog_frame.2.2.2.1]
        exact delivers.found
    | terminate lost lost_iff => cases oneGame
    | _ => exact delivers.found
  · cases step with
    | vswprintf thread text at_pc =>
        have same := pending_goto isAt thread .comparing
          (by simp [at_pc, WriterPc.Holds])
        exact copied_eq.trans (congrArg _ same.symm)
    | compare thread at_pc =>
        have same := pending_goto isAt thread
          (if mailbox.szBuffer = initText then .writing else .waiting)
          (by simp [at_pc, WriterPc.Holds])
        exact copied_eq.trans (congrArg _ same.symm)
    | waitAnswer thread at_pc signaled =>
        obtain rfl := isAt.unique .answer signaled
        simpa [pending, Event.moves, goto] using copied_eq
    | swprintf thread time at_pc =>
        obtain rfl := isAt.unique (.writer thread) (.inl at_pc)
        simp only [pending, at_pc, reduceCtorEq, if_false, List.append_nil] at copied_eq
        simp [pending, Event.moves, goto, copied_eq]
    | setNotify thread at_pc =>
        obtain rfl := isAt.unique (.writer thread) (.inr at_pc)
        simpa [pending, Event.moves, goto, at_pc] using copied_eq
    | writeFile thread opens at_pc =>
        have same := pending_goto isAt thread .outside
          (by simp [at_pc, WriterPc.Holds])
        exact copied_eq.trans (congrArg _ same.symm)
    | waitNotify at_pc signaled =>
        obtain rfl := isAt.unique .notify signaled
        simpa [pending, Event.moves] using copied_eq
    | sendMessage at_pc =>
        obtain rfl := isAt.unique .reader (.inl at_pc)
        have copied_same := mailbox.updateLog_frame.2.2.2.2
        simpa [pending, Event.moves, at_pc, copied_same] using copied_eq
    | setAnswer at_pc =>
        obtain rfl := isAt.unique .reader (.inr at_pc)
        simpa [pending, Event.moves, at_pc] using copied_eq
    | logUI text =>
        cases place <;> exact copied_eq
    | terminate lost lost_iff => cases oneGame
    | attach fresh => cases oneGame

theorem delivers_of_reachable (reached : (system.restrict OneGame).Reachable mailbox) :
    ∃ place, mailbox.Delivers place := by
  induction reached with
  | initial starts =>
      cases starts
      exact ⟨.answer, at_initPCI, rfl, rfl⟩
  | step _ moves ih =>
      rcases ih with ⟨place, delivers⟩
      exact ⟨_, delivers.step moves.1 moves.2⟩

/-- The list shows the latest lines inserted, and the game's lines are the texts delivered. -/
structure Lists (mailbox : Mailbox) : Prop where
  list_eq : mailbox.list = (mailbox.inserted.map LogLine.text).drop (mailbox.inserted.length - 2001)
  game_eq : mailbox.inserted.filterMap LogLine.game? =
    (mailbox.delivered.map fun text => text.take 0xFFF).filter (· ≠ [])

/-- Dropping the first line of a full list keeps the latest ones. -/
theorem latest_append (limit : ℕ) (lines : List LogText) (line : LogText) :
    (if (lines.drop (lines.length - (limit + 1))).length > limit then
      (lines.drop (lines.length - (limit + 1))).tail
    else
      lines.drop (lines.length - (limit + 1))) ++ [line] =
      (lines ++ [line]).drop ((lines ++ [line]).length - (limit + 1)) := by
  rw [List.drop_append_of_le_length (by simp), List.length_append, List.length_singleton,
    List.length_drop]
  split
  · rw [List.tail_drop]
    congr 2
    omega
  · congr 2
    omega

theorem list_logUI (line : LogLine) (list_eq : mailbox.list =
    (mailbox.inserted.map LogLine.text).drop (mailbox.inserted.length - 2001)) :
    (mailbox.logUI line).list = ((mailbox.logUI line).inserted.map LogLine.text).drop
      ((mailbox.logUI line).inserted.length - 2001) := by
  have latest := latest_append 2000 (mailbox.inserted.map LogLine.text) line.text
  simp only [List.length_map, ← list_eq] at latest
  simp only [logUI, latest, List.map_append, List.map_cons, List.map_nil, List.length_append,
    List.length_map, List.length_singleton]

theorem Lists.step (lists : mailbox.Lists) (step : Step mailbox event next) : next.Lists := by
  cases step with
  | sendMessage at_pc =>
      by_cases empty : mailbox.szLog.take 0xFFF = []
      · refine ⟨?_, ?_⟩
        · simpa [updateLog, empty] using lists.list_eq
        · simpa [updateLog, empty] using lists.game_eq
      · refine ⟨?_, ?_⟩
        · simp only [updateLog, if_neg empty]
          apply list_logUI
          exact lists.list_eq
        · simp only [updateLog, if_neg empty, logUI, List.filterMap_append, lists.game_eq,
            List.map_append, List.filter_append]
          simp [LogLine.game?, empty]
  | logUI text =>
      refine ⟨list_logUI _ lists.list_eq, ?_⟩
      simp only [logUI, List.filterMap_append, lists.game_eq]
      simp [LogLine.game?]
  | _ => exact ⟨lists.list_eq, lists.game_eq⟩

theorem lists_of_reachable (reached : system.Reachable mailbox) : mailbox.Lists := by
  induction reached with
  | initial starts =>
      cases starts
      exact ⟨rfl, rfl⟩
  | step _ moves ih => exact ih.step moves

/-- While one game runs, any number of its threads may log: at most one thread, of the game or of
the launcher, is at `szLog`; the texts copied are delivered once each and in order, with at most
one on its way; and the list shows the latest 2001 lines, those of the game being the texts
delivered, cut to 4095 characters. -/
theorem log_delivered (reached : (system.restrict OneGame).Reachable mailbox) :
    (∀ thread other, (mailbox.writer thread).Holds → (mailbox.writer other).Holds →
        thread = other) ∧
      (∀ thread, (mailbox.writer thread).Holds → ¬ mailbox.reader.Holds) ∧
      (∃ onItsWay, mailbox.copied.map stamped = mailbox.delivered ++ onItsWay ∧
        onItsWay.length ≤ 1 ∧ (mailbox.answer = true → onItsWay = [])) ∧
      mailbox.inserted.filterMap LogLine.game? =
        (mailbox.delivered.map fun text => text.take 0xFFF).filter (· ≠ []) ∧
      mailbox.list =
        (mailbox.inserted.map LogLine.text).drop (mailbox.inserted.length - 2001) := by
  rcases delivers_of_reachable reached with ⟨place, isAt, -, copied_eq⟩
  have lists := lists_of_reachable reached.of_restrict
  refine ⟨?_, ?_, ⟨mailbox.pending place, copied_eq, ?_, ?_⟩, lists.game_eq, lists.list_eq⟩
  · intro thread other holds otherHolds
    have first := isAt.unique (.writer thread) holds
    have second := isAt.unique (.writer other) otherHolds
    exact Place.writer.inj (first.trans second.symm)
  · intro thread holds readerHolds
    have first := isAt.unique (.writer thread) holds
    have second := isAt.unique .reader readerHolds
    cases first.trans second.symm
  · cases place with
    | writer thread =>
        simp only [pending]
        split <;> simp
    | reader =>
        simp only [pending]
        split <;> simp
    | _ => simp [pending]
  · intro signaled
    obtain rfl := isAt.unique .answer signaled
    rfl

/-- One thread has logged `A` at time `0`, and the launcher has shown it. -/
theorem reachable_shown (allowed : Mailbox → Event → Prop)
    (allows : ∀ mailbox event, OneThread 0 mailbox event → allowed mailbox event) :
    ∃ mailbox, (system.restrict allowed).Reachable mailbox ∧ mailbox.writer 0 = .outside ∧
      mailbox.answer = true ∧ mailbox.inserted = [.game [48, 65]] ∧
      mailbox.delivered = [[48, 65]] := by
  have formatted : (system.restrict allowed).Reachable _ :=
    .step (.initial rfl) ⟨allows _ _ (by decide), .vswprintf 0 [65] rfl⟩
  have compared := formatted.step ⟨allows _ _ (by decide), .compare 0 rfl⟩
  have taken := compared.step ⟨allows _ _ (by decide), .waitAnswer 0 rfl rfl⟩
  have copied := taken.step ⟨allows _ _ (by decide), .swprintf 0 [48] rfl⟩
  have notified := copied.step ⟨allows _ _ (by decide), .setNotify 0 rfl⟩
  have written := notified.step ⟨allows _ _ (by decide), .writeFile 0 true rfl⟩
  have woken := written.step ⟨allows _ _ (by decide), .waitNotify rfl rfl⟩
  have shown := woken.step ⟨allows _ _ (by decide), .sendMessage rfl⟩
  have answered := shown.step ⟨allows _ _ (by decide), .setAnswer rfl⟩
  exact ⟨_, answered, rfl, rfl, rfl, rfl⟩

/-- The text logged by one thread has been delivered. -/
theorem log_delivered_one : ∃ mailbox, (system.restrict OneGame).Reachable mailbox ∧
    mailbox.inserted.filterMap LogLine.game? = [[48, 65]] := by
  rcases reachable_shown OneGame fun _ _ oneThread => oneThread.1 with
    ⟨mailbox, reached, -, -, -, delivered_eq⟩
  refine ⟨mailbox, reached, ?_⟩
  rw [(log_delivered reached).2.2.2.1, delivered_eq]
  decide

/-- The text that the only thread has logged and not copied yet. -/
def uncopied (mailbox : Mailbox) (thread : ℕ) : List LogText :=
  match mailbox.writer thread with
  | .comparing => [mailbox.szBuffer].filter (· ≠ initText)
  | .waiting => [mailbox.szBuffer]
  | .copying => [mailbox.szBuffer]
  | _ => []

theorem copied_of_oneThread {thread : ℕ}
    (reached : (system.restrict (OneThread thread)).Reachable mailbox) :
    mailbox.logged.filter (· ≠ initText) =
      mailbox.copied.map Prod.snd ++ mailbox.uncopied thread := by
  induction reached with
  | initial starts =>
      cases starts
      rfl
  | @step mailbox next event _ moves ih =>
      rcases moves with ⟨⟨oneGame, onThread⟩, step⟩
      cases step with
      | vswprintf other text at_pc =>
          obtain rfl : other = thread := by simpa [Event.thread?] using onThread
          simp only [uncopied, at_pc, List.append_nil] at ih
          simpa [uncopied, goto, List.filter_append] using ih
      | compare other at_pc =>
          obtain rfl : other = thread := by simpa [Event.thread?] using onThread
          simp only [uncopied, at_pc] at ih
          by_cases isInit : mailbox.szBuffer = initText
          · simpa [uncopied, goto, isInit] using ih
          · simpa [uncopied, goto, isInit] using ih
      | waitAnswer other at_pc signaled =>
          obtain rfl : other = thread := by simpa [Event.thread?] using onThread
          simpa [uncopied, goto, at_pc] using ih
      | swprintf other time at_pc =>
          obtain rfl : other = thread := by simpa [Event.thread?] using onThread
          simpa [uncopied, goto, at_pc] using ih
      | setNotify other at_pc =>
          obtain rfl : other = thread := by simpa [Event.thread?] using onThread
          simpa [uncopied, goto, at_pc] using ih
      | writeFile other opens at_pc =>
          obtain rfl : other = thread := by simpa [Event.thread?] using onThread
          simpa [uncopied, goto, at_pc] using ih
      | sendMessage at_pc =>
          simp only [updateLog]
          split
          · exact ih
          · exact ih
      | terminate lost lost_iff => cases oneGame
      | _ => exact ih

/-- When the only thread that logs is outside `Log` and the answer event is set, the list has been
given every text logged, apart from `Init`, once and in order, with its time in front. -/
theorem log_shown {thread : ℕ} (reached : (system.restrict (OneThread thread)).Reachable mailbox)
    (outside : mailbox.writer thread = .outside) (signaled : mailbox.answer = true) :
    mailbox.copied.map Prod.snd = mailbox.logged.filter (· ≠ initText) ∧
      mailbox.inserted.filterMap LogLine.game? =
        ((mailbox.copied.map stamped).map fun text => text.take 0xFFF).filter (· ≠ []) := by
  have oneGame : (system.restrict OneGame).Reachable mailbox := by
    clear outside signaled
    induction reached with
    | initial starts => exact .initial starts
    | step _ moves ih => exact .step ih ⟨moves.1.1, moves.2⟩
  rcases delivers_of_reachable oneGame with ⟨place, isAt, -, copied_eq⟩
  obtain rfl := isAt.unique .answer signaled
  have logged_eq := copied_of_oneThread reached
  simp only [uncopied, outside, List.append_nil] at logged_eq
  simp only [pending, List.append_nil] at copied_eq
  refine ⟨logged_eq.symm, ?_⟩
  rw [copied_eq]
  exact (lists_of_reachable reached.of_restrict).game_eq

/-- The text logged by one thread is shown with its time. -/
theorem log_shown_one : ∃ mailbox, (system.restrict (OneThread 0)).Reachable mailbox ∧
    mailbox.delivered = [[48, 65]] ∧
    mailbox.copied.map Prod.snd = mailbox.logged.filter (· ≠ initText) := by
  rcases reachable_shown (OneThread 0) fun _ _ oneThread => oneThread with
    ⟨mailbox, reached, outside, signaled, -, delivered_eq⟩
  exact ⟨mailbox, reached, delivered_eq, (log_shown reached outside signaled).1⟩

section Waiting

variable {thread : ℕ}

theorem exists_run_of_answer (isAt : mailbox.At .answer)
    (waits : mailbox.writer thread = .waiting) :
    ∃ last, system.Run mailbox last ∧ (last.writer thread).Holds := by
  have signaled : mailbox.answer = true := (isAt .answer).mpr rfl
  refine ⟨_, .single (.waitAnswer thread waits signaled), ?_⟩
  simp [goto, WriterPc.Holds]

theorem exists_run_of_reader (isAt : mailbox.At .reader)
    (waits : mailbox.writer thread = .waiting) :
    ∃ last, system.Run mailbox last ∧ (last.writer thread).Holds := by
  have answering : ∀ mailbox : Mailbox, mailbox.At .reader → mailbox.reader = .answering →
      mailbox.writer thread = .waiting →
      ∃ last, system.Run mailbox last ∧ (last.writer thread).Holds := by
    intro mailbox isAt at_pc waits
    have moves : system.step mailbox .setAnswer _ := .setAnswer at_pc
    rcases exists_run_of_answer (isAt.step moves) waits with ⟨last, run, holds⟩
    exact ⟨last, (StepSystem.Run.single moves).trans run, holds⟩
  have busy : mailbox.reader.Holds := (isAt .reader).mpr rfl
  rcases busy with at_pc | at_pc
  · have moves : system.step mailbox .sendMessage _ := .sendMessage at_pc
    have still : mailbox.updateLog.writer thread = .waiting := by
      rw [mailbox.updateLog_frame.2.2.1]
      exact waits
    rcases answering _ (isAt.step moves) rfl still with ⟨last, run, holds⟩
    exact ⟨last, (StepSystem.Run.single moves).trans run, holds⟩
  · exact answering mailbox isAt at_pc waits

theorem exists_run_of_notify (isAt : mailbox.At .notify)
    (waits : mailbox.writer thread = .waiting) :
    ∃ last, system.Run mailbox last ∧ (last.writer thread).Holds := by
  have signaled : mailbox.notify = true := (isAt .notify).mpr rfl
  have at_pc : mailbox.reader = .waiting := by
    cases pc : mailbox.reader with
    | waiting => rfl
    | showing => cases isAt.unique .reader (.inl pc)
    | answering => cases isAt.unique .reader (.inr pc)
  have moves : system.step mailbox .waitNotify _ := .waitNotify at_pc signaled
  rcases exists_run_of_reader (isAt.step moves) waits with ⟨last, run, holds⟩
  exact ⟨last, (StepSystem.Run.single moves).trans run, holds⟩

theorem exists_run_of_writer {holder : ℕ} (isAt : mailbox.At (.writer holder))
    (waits : mailbox.writer thread = .waiting) :
    ∃ last, system.Run mailbox last ∧ (last.writer thread).Holds := by
  have notifying : ∀ mailbox : Mailbox, mailbox.At (.writer holder) →
      mailbox.writer holder = .notifying → mailbox.writer thread = .waiting →
      ∃ last, system.Run mailbox last ∧ (last.writer thread).Holds := by
    intro mailbox isAt at_pc waits
    have different : thread ≠ holder := by
      rintro rfl
      rw [waits] at at_pc
      cases at_pc
    have moves : system.step mailbox (.setNotify holder) _ := .setNotify holder at_pc
    have still : Function.update mailbox.writer holder .writing thread = .waiting := by
      simpa [different] using waits
    rcases exists_run_of_notify (isAt.step moves) still with ⟨last, run, holds⟩
    exact ⟨last, (StepSystem.Run.single moves).trans run, holds⟩
  have busy : (mailbox.writer holder).Holds := (isAt (.writer holder)).mpr rfl
  rcases busy with at_pc | at_pc
  · have different : thread ≠ holder := by
      rintro rfl
      rw [waits] at at_pc
      cases at_pc
    have moves : system.step mailbox (.swprintf holder []) _ := .swprintf holder [] at_pc
    rcases notifying _ (isAt.step moves) (by simp [goto])
      (by simpa [goto, different] using waits) with ⟨last, run, holds⟩
    exact ⟨last, (StepSystem.Run.single moves).trans run, holds⟩
  · exact notifying mailbox isAt at_pc waits

/-- Once the permission is lost it stays lost, and nothing is delivered any more. -/
theorem lost_run {last : Mailbox} (isAt : mailbox.At .nowhere) (run : system.Run mailbox last) :
    last.At .nowhere ∧ last.delivered = mailbox.delivered := by
  induction run with
  | refl => exact ⟨isAt, rfl⟩
  | @step next last event _ moves ih =>
      rcases ih with ⟨isAt, delivered_eq⟩
      have stays := isAt.step moves
      cases moves with
      | waitAnswer other at_pc signaled => cases isAt.unique .answer signaled
      | setNotify other at_pc => cases isAt.unique (.writer other) (.inr at_pc)
      | waitNotify at_pc signaled => cases isAt.unique .notify signaled
      | sendMessage at_pc => cases isAt.unique .reader (.inl at_pc)
      | setAnswer at_pc => cases isAt.unique .reader (.inr at_pc)
      | _ => exact ⟨stays, delivered_eq⟩

/-- A thread that waits in `Log` can still get through exactly when no game was terminated between
a wait and the `SetEvent` behind it. After such a termination no thread of any later game gets
through, and nothing is delivered any more. -/
theorem log_goesOn_iff (reached : system.Reachable mailbox)
    (waits : mailbox.writer thread = .waiting) :
    ((∃ last, system.Run mailbox last ∧ (last.writer thread).Holds) ↔ mailbox.lost = false) ∧
      (mailbox.lost = true → ∀ last, system.Run mailbox last →
        last.delivered = mailbox.delivered ∧ ∀ other, ¬ (last.writer other).Holds) := by
  rcases at_of_reachable reached with ⟨place, isAt⟩
  have stuck : mailbox.lost = true → ∀ last, system.Run mailbox last →
      last.delivered = mailbox.delivered ∧ ∀ other, ¬ (last.writer other).Holds := by
    intro lost last run
    obtain rfl := isAt.unique .nowhere lost
    rcases lost_run isAt run with ⟨lastAt, delivered_eq⟩
    refine ⟨delivered_eq, ?_⟩
    intro other holds
    cases lastAt.unique (.writer other) holds
  refine ⟨⟨?_, ?_⟩, stuck⟩
  · rintro ⟨last, run, holds⟩
    by_contra lost
    exact (stuck (by simpa using lost) last run).2 thread holds
  · intro found
    cases place with
    | answer => exact exists_run_of_answer isAt waits
    | writer holder => exact exists_run_of_writer isAt waits
    | notify => exact exists_run_of_notify isAt waits
    | reader => exact exists_run_of_reader isAt waits
    | nowhere =>
        have lost : mailbox.lost = true := (isAt .nowhere).mpr rfl
        rw [found] at lost
        cases lost

/-- A game is terminated while it copies a text; the next one waits for ever. -/
theorem log_goesOn_iff_terminated : ∃ mailbox, system.Reachable mailbox ∧
    mailbox.writer 1 = .waiting ∧
    ∀ last, system.Run mailbox last → ¬ (last.writer 1).Holds := by
  have formatted : system.Reachable _ := .step (.initial rfl) (.vswprintf 0 [65] rfl)
  have compared := formatted.step (.compare 0 rfl)
  have taken := compared.step (.waitAnswer 0 rfl rfl)
  have terminated := taken.step
    (.terminate true ⟨fun _ => .inr ⟨0, .inl rfl⟩, fun _ => rfl⟩)
  have attached := terminated.step (.attach fun _ => rfl)
  have again := attached.step (.vswprintf 1 [66] rfl)
  have waiting := again.step (.compare 1 rfl)
  have stuck : ∃ mailbox, system.Reachable mailbox ∧ mailbox.writer 1 = .waiting ∧
      mailbox.lost = true := ⟨_, waiting, rfl, rfl⟩
  rcases stuck with ⟨mailbox, reached, waits, lost⟩
  refine ⟨mailbox, reached, waits, ?_⟩
  intro last run
  exact ((log_goesOn_iff reached waits).2 lost last run).2 1

end Waiting

end Steps

end Mailbox

end PoETask.Launcher
