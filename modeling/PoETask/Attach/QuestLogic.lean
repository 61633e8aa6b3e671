import PoETask.Attach.BlockMap

/-!
# The current quest

`GameLogic::GetCurrentQuestIndex`: the row of the quest table that is worked on. The first pass
skips a row while a quest before it is unfinished; the loop over the earlier rows returns or breaks
in its first turn, so it looks at the first row of the table only. A second pass takes the rows of
finished quests.
-/

namespace PoETask.Attach

/-- A row of `g_pInfoQuest`. -/
structure QuestInfo where
  questKey : ℤ
  questStep : ℤ
  areaName : String
  preQuestKey : BYTE

structure Quest where
  key : ℤ
  step : ℤ
  isCompleted : Bool

/-- What the choice of the quest reads; `worldArea` is the name of the current area. -/
structure QuestLogic where
  infoQuest : List QuestInfo
  questsDone : List ℤ
  worldArea : String
  quests : List Quest

namespace QuestInfo

/-- The row's quest lies in the range of the quests before `row`. -/
def precedes (earlier row : QuestInfo) : Bool :=
  row.preQuestKey ≤ earlier.preQuestKey && (earlier.preQuestKey.toNat : ℤ) < row.questKey

/-- The quest state holds the row's quest, and it is not completed. -/
def unfinished (row : QuestInfo) (quests : List Quest) : Bool :=
  quests.any fun quest => row.questKey = quest.key && !quest.isCompleted

def isEntry (row : QuestInfo) (quest : Quest) : Bool :=
  row.questKey = quest.key && row.questStep = quest.step

end QuestInfo

namespace QuestLogic

variable (logic : QuestLogic)

/-- The loop over the earlier rows: whether it returns the row's index. -/
def prequestLoop (row : QuestInfo) : List QuestInfo → Bool → Bool
  | [], _ => false
  | earlier :: rest, flagPrequestDone =>
      let inRange := earlier.precedes row
      let flag := if inRange && earlier.unfinished logic.quests then false else flagPrequestDone
      if inRange && !flag then false
      else if flag then true
      else prequestLoop row rest flag

/-- The loop over the quest state: whether it returns the row's index. -/
def questLoop (row : QuestInfo) (earlier : List QuestInfo) : List Quest → Bool
  | [] => false
  | quest :: rest =>
      if row.isEntry quest then
        if row.preQuestKey ≠ 0 then
          if logic.prequestLoop row earlier true then true else questLoop row earlier rest
        else true
      else questLoop row earlier rest

/-- `questsDone` holds signed numbers, and the index is unsigned. -/
def isDone (i : ℕ) : Bool := logic.questsDone.any fun done => done % 2 ^ 32 = i

/-- The checks before the loop over the quest state; `finished` says which steps the pass takes. -/
def isVisited (finished checkArea : Bool) (i : ℕ) (row : QuestInfo) : Bool :=
  !logic.isDone i && (decide (row.questStep = 0 ∨ row.questStep = -1) == finished)
    && !(checkArea && logic.worldArea ≠ row.areaName)

/-- The first index at which the body of the loop returns. -/
def firstPass (checkArea : Bool) : Option ℕ :=
  (List.range logic.infoQuest.length).find? fun i =>
    logic.infoQuest[i]?.any fun row =>
      logic.isVisited false checkArea i row
        && logic.questLoop row (logic.infoQuest.take i) logic.quests

def secondPass (checkArea : Bool) : Option ℕ :=
  (List.range logic.infoQuest.length).find? fun i =>
    logic.infoQuest[i]?.any fun row =>
      logic.isVisited true checkArea i row && logic.quests.any row.isEntry

def getCurrentQuestIndex (checkArea : Bool) : Option ℕ :=
  match logic.firstPass checkArea with
  | some i => some i
  | none => if checkArea then none else logic.secondPass checkArea

/-- A row that is not done, has a step to do, lies in the area that is asked for, and matches an
entry of the quest state. -/
def Candidate (checkArea : Bool) (i : ℕ) (row : QuestInfo) : Prop :=
  logic.infoQuest[i]? = some row ∧ logic.isVisited false checkArea i row = true
    ∧ ∃ quest ∈ logic.quests, row.isEntry quest = true

/-- An earlier row in the range of the quests before row `i`, whose quest is not finished. -/
def UnfinishedBefore (l i : ℕ) (row : QuestInfo) : Prop :=
  l < i ∧ ∃ earlier, logic.infoQuest[l]? = some earlier ∧ earlier.precedes row = true
    ∧ earlier.unfinished logic.quests = true

/-- A candidate without an unfinished quest before it. -/
def Selectable (checkArea : Bool) (i : ℕ) : Prop :=
  ∃ row, logic.Candidate checkArea i row
    ∧ (row.preQuestKey = 0 ∨ ∀ l, ¬ logic.UnfinishedBefore l i row)

/-- What the code tests instead: of the earlier rows it looks at the first one. -/
def Tested (checkArea : Bool) (i : ℕ) : Prop :=
  ∃ row, logic.Candidate checkArea i row
    ∧ (row.preQuestKey = 0 ∨ 0 < i ∧ ¬ logic.UnfinishedBefore 0 i row)

/-- What the second pass takes: a row of a finished step that matches an entry. -/
def Finished (checkArea : Bool) (i : ℕ) : Prop :=
  ∃ row, logic.infoQuest[i]? = some row ∧ logic.isVisited true checkArea i row = true
    ∧ ∃ quest ∈ logic.quests, row.isEntry quest = true

/-- The first row that meets a condition, if there is one. -/
def IsFirst (meets : ℕ → Prop) : Option ℕ → Prop
  | some i => meets i ∧ ∀ j < i, ¬ meets j
  | none => ∀ i, ¬ meets i

variable {logic}

theorem prequestLoop_eq_true (row : QuestInfo) (rows : List QuestInfo) :
    logic.prequestLoop row rows true = true
      ↔ ∃ first ∈ rows.head?, ¬ (first.precedes row = true
        ∧ first.unfinished logic.quests = true) := by
  cases rows with
  | nil => simp [prequestLoop]
  | cons first rest =>
      simp only [prequestLoop, List.head?_cons, Option.mem_def, Option.some_inj, exists_eq_left']
      cases first.precedes row <;> cases first.unfinished logic.quests <;> simp

theorem questLoop_eq_true (row : QuestInfo) (earlier : List QuestInfo) (quests : List Quest) :
    logic.questLoop row earlier quests = true
      ↔ (∃ quest ∈ quests, row.isEntry quest = true)
        ∧ (row.preQuestKey = 0 ∨ logic.prequestLoop row earlier true = true) := by
  induction quests with
  | nil => simp [questLoop]
  | cons quest rest loopRest =>
      simp only [questLoop, List.mem_cons, exists_eq_or_imp]
      split_ifs with isEntry hasPrequest isReady
      · simp [isEntry, isReady]
      · simp only [ne_eq] at hasPrequest
        rw [loopRest]
        simp [hasPrequest, isReady]
      · simp only [ne_eq, not_not] at hasPrequest
        simp [isEntry, hasPrequest]
      · rw [loopRest]
        simp [isEntry]

theorem unfinishedBefore_zero_iff {i : ℕ} {row : QuestInfo} (later : 0 < i) :
    logic.UnfinishedBefore 0 i row
      ↔ ∃ first ∈ (logic.infoQuest.take i).head?, first.precedes row = true
        ∧ first.unfinished logic.quests = true := by
  simp only [UnfinishedBefore, later, true_and, Option.mem_def, List.head?_eq_getElem?,
    List.getElem?_take_of_lt later]

theorem firstPass_body_iff {checkArea : Bool} {i : ℕ} :
    (logic.infoQuest[i]?.any fun row =>
        logic.isVisited false checkArea i row
          && logic.questLoop row (logic.infoQuest.take i) logic.quests) = true
      ↔ logic.Tested checkArea i := by
  simp only [Option.any_eq_true, Bool.and_eq_true, questLoop_eq_true, prequestLoop_eq_true, Tested,
    Candidate]
  apply exists_congr
  intro row
  have asked : logic.infoQuest[i]? = some row →
      ((∃ first ∈ (logic.infoQuest.take i).head?,
          ¬ (first.precedes row = true ∧ first.unfinished logic.quests = true))
        ↔ 0 < i ∧ ¬ logic.UnfinishedBefore 0 i row) := by
    intro isRow
    rcases Nat.eq_zero_or_pos i with isFirst | later
    · simp [isFirst]
    · have inTable : i < logic.infoQuest.length := (List.getElem?_eq_some_iff.mp isRow).1
      have nonempty : 0 < logic.infoQuest.length := by omega
      rw [unfinishedBefore_zero_iff later]
      simp [later, List.head?_eq_getElem?, List.getElem?_eq_getElem nonempty]
  constructor
  · rintro ⟨isRow, visited, isEntry, ready⟩
    rw [asked isRow] at ready
    exact ⟨⟨isRow, visited, isEntry⟩, ready⟩
  · rintro ⟨⟨isRow, visited, isEntry⟩, ready⟩
    rw [← asked isRow] at ready
    exact ⟨isRow, visited, isEntry, ready⟩

/-- A search through the indices finds the first one that meets the condition it tests. -/
theorem isFirst_find? {meets : ℕ → Prop} {test : ℕ → Bool} {n : ℕ}
    (tests : ∀ i, test i = true ↔ meets i) (inTable : ∀ i, meets i → i < n) :
    IsFirst meets ((List.range n).find? test) := by
  cases isFound : (List.range n).find? test with
  | none =>
      intro i isMet
      rw [List.find?_range_eq_none] at isFound
      have notTested := isFound i (inTable i isMet)
      rw [(tests i).mpr isMet] at notTested
      exact absurd notTested (by decide)
  | some i =>
      rw [List.find?_range_eq_some] at isFound
      rcases isFound with ⟨isTested, _, earlier⟩
      refine ⟨(tests i).mp isTested, ?_⟩
      intro j isLess isMet
      have notTested := earlier j isLess
      rw [(tests j).mpr isMet] at notTested
      exact absurd notTested (by decide)

theorem lt_length_of_row {i : ℕ} {row : QuestInfo} (isRow : logic.infoQuest[i]? = some row) :
    i < logic.infoQuest.length :=
  (List.getElem?_eq_some_iff.mp isRow).1

/-- The first pass finds the first row that its own test lets through. -/
theorem firstPass_isFirst (logic : QuestLogic) (checkArea : Bool) :
    IsFirst (logic.Tested checkArea) (logic.firstPass checkArea) := by
  apply isFirst_find? fun _ => firstPass_body_iff
  rintro i ⟨row, ⟨isRow, _⟩, _⟩
  exact lt_length_of_row isRow

/-- The second pass finds the first row of a finished step that matches an entry. -/
theorem secondPass_isFirst (logic : QuestLogic) (checkArea : Bool) :
    IsFirst (logic.Finished checkArea) (logic.secondPass checkArea) := by
  apply isFirst_find?
  · intro i
    simp only [Option.any_eq_true, Bool.and_eq_true, List.any_eq_true, Finished]
  · rintro i ⟨row, isRow, _⟩
    exact lt_length_of_row isRow

/-- The first pass decides; only where it finds nothing and the area is not asked for, the second
one does. -/
theorem getCurrentQuestIndex_isFirst (logic : QuestLogic) (checkArea : Bool) :
    IsFirst (logic.Tested checkArea) (logic.getCurrentQuestIndex checkArea)
      ∨ checkArea = false ∧ (∀ i, ¬ logic.Tested checkArea i)
        ∧ IsFirst (logic.Finished checkArea) (logic.getCurrentQuestIndex checkArea) := by
  have isFirst := logic.firstPass_isFirst checkArea
  cases isFound : logic.firstPass checkArea with
  | some i =>
      rw [isFound] at isFirst
      exact .inl (by simpa only [getCurrentQuestIndex, isFound] using isFirst)
  | none =>
      rw [isFound] at isFirst
      cases checkArea with
      | true => exact .inl (by simpa only [getCurrentQuestIndex, isFound, if_pos] using isFirst)
      | false =>
          have isSecond := logic.secondPass_isFirst false
          refine .inr ⟨rfl, isFirst, ?_⟩
          simpa [getCurrentQuestIndex, isFound] using isSecond

/-- The first row of one kind is the first one of another exactly when the two agree on the first
row that is of either kind. -/
theorem IsFirst.iff {p q : ℕ → Prop} {found : Option ℕ} (isFirst : IsFirst p found) :
    IsFirst q found ↔ ∀ i, (∀ j < i, ¬ p j ∧ ¬ q j) → (p i ↔ q i) := by
  cases found with
  | none =>
      constructor
      · intro isFirst' i _
        exact iff_of_false (isFirst i) (isFirst' i)
      · intro agree i
        induction i using Nat.strong_induction_on with
        | _ i none =>
            rw [← agree i fun j isLess => ⟨isFirst j, none j isLess⟩]
            exact isFirst i
  | some found =>
      rcases isFirst with ⟨meets, earlier⟩
      constructor
      · rintro ⟨meets', earlier'⟩ i before
        rcases lt_trichotomy i found with isLess | same | isGreater
        · exact iff_of_false (earlier i isLess) (earlier' i isLess)
        · exact same ▸ iff_of_true meets meets'
        · exact absurd meets (before found isGreater).1
      · intro agree
        have earlier' : ∀ i, i < found → ¬ q i := by
          intro i
          induction i using Nat.strong_induction_on with
          | _ i none =>
              intro isLess
              rw [← agree i fun j jLess =>
                ⟨earlier j (jLess.trans isLess), none j jLess (jLess.trans isLess)⟩]
              exact earlier i isLess
        refine ⟨?_, earlier'⟩
        exact (agree found fun j isLess => ⟨earlier j isLess, earlier' j isLess⟩).mp meets

theorem tested_iff_selectable {checkArea : Bool} {i : ℕ} :
    (logic.Tested checkArea i ↔ logic.Selectable checkArea i)
      ↔ ∀ row, logic.Candidate checkArea i row → row.preQuestKey ≠ 0 →
        0 < i ∧ (logic.UnfinishedBefore 0 i row ∨ ∀ l, ¬ logic.UnfinishedBefore l i row) := by
  constructor
  · intro agree row candidate hasPrequest
    have atRow : ∀ row', logic.Candidate checkArea i row' → row' = row :=
      fun row' candidate' => Option.some_inj.mp (candidate'.1.symm.trans candidate.1)
    by_cases noneBefore : ∀ l, ¬ logic.UnfinishedBefore l i row
    · rcases agree.mpr ⟨row, candidate, .inr noneBefore⟩ with
        ⟨row', candidate', noPrequest | ⟨later, _⟩⟩
      · exact absurd (atRow row' candidate' ▸ noPrequest) hasPrequest
      · exact ⟨later, .inr noneBefore⟩
    · have later : 0 < i := by
        push Not at noneBefore
        rcases noneBefore with ⟨l, isLess, _⟩
        exact (Nat.zero_le l).trans_lt isLess
      refine ⟨later, .inl ?_⟩
      by_contra notFirst
      rcases agree.mp ⟨row, candidate, .inr ⟨later, notFirst⟩⟩ with
        ⟨row', candidate', noPrequest | noneBefore'⟩
      · exact hasPrequest (atRow row' candidate' ▸ noPrequest)
      · exact noneBefore (atRow row' candidate' ▸ noneBefore')
  · intro explicit
    constructor
    · rintro ⟨row, candidate, ready⟩
      refine ⟨row, candidate, ?_⟩
      by_cases noPrequest : row.preQuestKey = 0
      · exact .inl noPrequest
      · rcases explicit row candidate noPrequest with ⟨_, isFirst | noneBefore⟩
        · exact absurd isFirst (ready.resolve_left noPrequest).2
        · exact .inr noneBefore
    · rintro ⟨row, candidate, ready⟩
      refine ⟨row, candidate, ?_⟩
      by_cases noPrequest : row.preQuestKey = 0
      · exact .inl noPrequest
      · exact .inr ⟨(explicit row candidate noPrequest).1, ready.resolve_left noPrequest 0⟩

/-- The first pass finds the first row without an unfinished quest before it exactly when no row
misleads it: a candidate with quests before it, reached while nothing is selected, is not the first
row, and has no unfinished quest before it unless that of the first row is one. -/
theorem firstPass_respects_iff (logic : QuestLogic) (checkArea : Bool) :
    IsFirst (logic.Selectable checkArea) (logic.firstPass checkArea)
      ↔ ∀ i row, logic.Candidate checkArea i row → row.preQuestKey ≠ 0 →
        (∀ j < i, ¬ logic.Tested checkArea j ∧ ¬ logic.Selectable checkArea j) →
        0 < i ∧ (logic.UnfinishedBefore 0 i row ∨ ∀ l, ¬ logic.UnfinishedBefore l i row) := by
  rw [(logic.firstPass_isFirst checkArea).iff]
  simp only [tested_iff_selectable]
  constructor
  · exact fun agree i row candidate hasPrequest before =>
      agree i before row candidate hasPrequest
  · exact fun explicit i before row candidate hasPrequest =>
      explicit i row candidate hasPrequest before

/-- The quest of the third row comes before that of the fourth, and is not finished. -/
def earlyQuest : QuestLogic where
  infoQuest := [⟨1, 5, "The Coast", 0⟩, ⟨2, 4, "The Coast", 0⟩, ⟨3, 6, "The Mud Flats", 2⟩,
    ⟨4, 7, "The Mud Flats", 2⟩]
  questsDone := [0, 1]
  worldArea := "The Mud Flats"
  quests := [⟨3, 2, false⟩, ⟨4, 7, false⟩]

/-- The fourth row is found all the same. -/
theorem firstPass_early :
    ¬ ∀ (logic : QuestLogic) (checkArea : Bool),
      IsFirst (logic.Selectable checkArea) (logic.firstPass checkArea) := by
  intro claimed
  have isFound : earlyQuest.firstPass false = some 3 := by decide +kernel
  have isFirst := claimed earlyQuest false
  rw [isFound] at isFirst
  rcases isFirst.1 with ⟨row, ⟨isRow, _⟩, noPrequest | noneBefore⟩
  · rw [← Option.some_inj.mp isRow] at noPrequest
    exact absurd noPrequest (by decide)
  · apply noneBefore 2
    rw [← Option.some_inj.mp isRow]
    exact ⟨by decide, _, rfl, by decide, by decide⟩

end QuestLogic

end PoETask.Attach
