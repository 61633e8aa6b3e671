import PoETask.Attach.EquipItem
import Mathlib.Data.Prod.Lex

/-!
# Comparing items of one kind

Among items of one kind `CompareItem` goes by a linear order, but it compares two flasks only when
a test lets it, and the test does not treat its two arguments alike: it takes the length of the
first path, and looks for `Life` in the first name and for `Mana` in the second.
-/

namespace PoETask.Attach

def codeUnits (text : WString) : List ℤ := text.map fun unit => (unit.toNat : ℤ)

theorem codeUnits_lt_iff (text1 text2 : WString) :
    codeUnits text1 < codeUnits text2 ↔ text1 < text2 := by
  induction text1 generalizing text2 with
  | nil => cases text2 <;> simp [codeUnits]
  | cons unit1 rest1 ltRest =>
      cases text2 with
      | nil => simp [codeUnits]
      | cons unit2 rest2 =>
          have ltIff := ltRest rest2
          simp only [codeUnits] at ltIff ⊢
          rw [List.map_cons, List.map_cons, List.cons_lt_cons_iff, List.cons_lt_cons_iff, ltIff,
            Int.ofNat_lt, Int.ofNat_inj, UInt16.lt_iff_toNat_lt, UInt16.toNat_inj]

theorem codeUnits_inj {text1 text2 : WString} :
    codeUnits text1 = codeUnits text2 ↔ text1 = text2 := by
  apply List.map_inj_right
  intro unit1 unit2 same
  exact UInt16.toNat_inj.mp (Int.ofNat_inj.mp same)

/-- What items of one kind are ordered by: flasks by their paths first, and every kind by its
grade. -/
def rank (itemData : ItemData) : Lex (List ℤ × List ℤ) :=
  toLex (if itemData.equipType = some .flask1 then codeUnits itemData.path else [], grade itemData)

/-- The test for two flasks: the second path continues the first one without its last two letters,
and the first one restores life or the second one mana. -/
def ComparableFlasks (item1 item2 : ItemData) : Prop :=
  item1.path.take (item1.path.length - 2) = item2.path.take (item1.path.length - 2)
    ∧ (finds item1.displayName "Life" ∨ finds item2.displayName "Mana")

instance (item1 item2 : ItemData) : Decidable (ComparableFlasks item1 item2) :=
  inferInstanceAs (Decidable (_ ∧ (_ ∨ _)))

/-- Items that are compared at all, among items of one kind. -/
def Comparable (item1 item2 : ItemData) : Prop :=
  item1.equipType ≠ none
    ∧ (item1.equipType = some .flask1 → ComparableFlasks item1 item2)

section Grades

variable {item1 item2 : ItemData}

theorem compareSums_neg (stats : List ItemStatsInfo) :
    compareSums item1 item2 stats = -compareSums item2 item1 stats := by
  induction stats with
  | nil => rfl
  | cons first rest negRest =>
      simp only [compareSums, negRest]
      split_ifs <;> omega

/-- One step of the comparison: `next` decides between items that are alike in it. -/
def byGrade {α : Type*} [LinearOrder α] (first second : α) (next : ℤ) : ℤ :=
  if first > second then 1 else if first = second then next else -1

theorem byGrade_neg {α : Type*} [LinearOrder α] (first second : α) (next : ℤ) :
    byGrade first second next = -byGrade second first (-next) := by
  simp only [byGrade]
  rcases lt_trichotomy first second with less | same | greater
  · simp [less, less.not_gt, less.ne]
  · simp [same]
  · simp [greater, greater.not_gt, greater.ne]

theorem byGrade_mem {α : Type*} [LinearOrder α] (first second : α) {next : ℤ}
    (isSign : next = 1 ∨ next = 0 ∨ next = -1) :
    byGrade first second next = 1 ∨ byGrade first second next = 0
      ∨ byGrade first second next = -1 := by
  simp only [byGrade]
  split_ifs
  · exact .inl rfl
  · exact isSign
  · exact .inr (.inr rfl)

section Order

variable {α β : Type*} [LinearOrder α] [LinearOrder β] {first second : α}

theorem byGrade_of_gt (greater : second < first) {next : ℤ} : byGrade first second next = 1 :=
  if_pos greater

theorem byGrade_of_lt (less : first < second) {next : ℤ} : byGrade first second next = -1 := by
  rw [byGrade, if_neg less.not_gt, if_neg less.ne]

theorem byGrade_eq_one_iff : byGrade first second 0 = 1 ↔ second < first := by
  rcases lt_trichotomy first second with less | rfl | greater
  · rw [byGrade_of_lt less]
    exact iff_of_false (by decide) less.not_gt
  · simp [byGrade]
  · exact iff_of_true (byGrade_of_gt greater) greater

theorem byGrade_eq_neg_one_iff : byGrade first second 0 = -1 ↔ first < second := by
  rw [byGrade_neg, neg_zero, neg_inj, byGrade_eq_one_iff]

/-- Two orders that agree on the items compare them alike. -/
theorem byGrade_congr {first' second' : β} (less : first < second ↔ first' < second')
    (greater : second < first ↔ second' < first') :
    byGrade first second 0 = byGrade first' second' 0 := by
  rcases lt_trichotomy first second with isLess | same | isGreater
  · rw [byGrade_of_lt isLess, byGrade_of_lt (less.mp isLess)]
  · have same' : first' = second' := by
      apply le_antisymm
      · exact not_lt.mp fun isGreater => (greater.mpr isGreater).ne same.symm
      · exact not_lt.mp fun isLess => (less.mpr isLess).ne same
    simp [byGrade, same, same']
  · rw [byGrade_of_gt isGreater, byGrade_of_gt (greater.mp isGreater)]

end Order

theorem compareGrades_eq_byGrade (item1 item2 : ItemData) :
    compareGrades item1 item2
      = byGrade (getNeedSocketCount item1) (getNeedSocketCount item2)
          (byGrade (compareStats item1 item2) 0
            (byGrade item1.nItemRarity item2.nItemRarity
              (byGrade item1.nItemLevel item2.nItemLevel
                (byGrade item1.itemQuality item2.itemQuality 0)))) :=
  rfl

theorem compareGrades_neg (same : item1.equipType = item2.equipType) :
    compareGrades item1 item2 = -compareGrades item2 item1 := by
  have stats : ∀ next, byGrade (compareStats item1 item2) 0 next
      = -byGrade (compareStats item2 item1) 0 (-next) := by
    intro next
    have opposite : compareStats item1 item2 = -compareStats item2 item1 := by
      rw [compareStats, compareStats, ← same, compareSums_neg]
    simp only [opposite, byGrade]
    split_ifs <;> omega
  rw [compareGrades_eq_byGrade, compareGrades_eq_byGrade, byGrade_neg, stats,
    byGrade_neg item1.nItemRarity, byGrade_neg item1.nItemLevel, byGrade_neg item1.itemQuality]
  simp only [neg_neg, neg_zero]

theorem compareGrades_mem (item1 item2 : ItemData) :
    compareGrades item1 item2 = 1 ∨ compareGrades item1 item2 = 0
      ∨ compareGrades item1 item2 = -1 := by
  rw [compareGrades_eq_byGrade]
  exact byGrade_mem _ _ (byGrade_mem _ _ (byGrade_mem _ _ (byGrade_mem _ _
    (byGrade_mem _ _ (.inr (.inl rfl))))))

theorem compareGrades_eq_one_iff (same : item1.equipType = item2.equipType) :
    compareGrades item1 item2 = 1 ↔ grade item2 < grade item1 := by
  rw [← compareGrades_pos_iff same]
  have := compareGrades_mem item1 item2
  omega

theorem compareGrades_eq_grade (same : item1.equipType = item2.equipType) :
    compareGrades item1 item2 = byGrade (grade item1) (grade item2) 0 := by
  have sign := compareGrades_mem item1 item2
  have sign' := byGrade_mem (grade item1) (grade item2) (.inr (.inl rfl))
  have greater := compareGrades_eq_one_iff same
  have less := compareGrades_eq_one_iff same.symm
  rw [compareGrades_neg same.symm] at less
  rw [← byGrade_eq_one_iff] at greater
  rw [← byGrade_eq_neg_one_iff] at less
  omega

end Grades

section Kinds

variable {item1 item2 item3 : ItemData}

theorem rank_lt_iff_of_notFlask (same : item1.equipType = item2.equipType)
    (notFlask : item1.equipType ≠ some .flask1) :
    rank item1 < rank item2 ↔ grade item1 < grade item2 := by
  simp [rank, Prod.Lex.toLex_lt_toLex, ← same, notFlask]

theorem rank_lt_iff_of_flask (isFlask : item1.equipType = some .flask1)
    (isFlask' : item2.equipType = some .flask1) :
    rank item1 < rank item2
      ↔ item1.path < item2.path ∨ item1.path = item2.path ∧ grade item1 < grade item2 := by
  simp [rank, Prod.Lex.toLex_lt_toLex, isFlask, isFlask', codeUnits_lt_iff, codeUnits_inj]

theorem compareItem_of_notFlask (same : item1.equipType = item2.equipType)
    (known : item1.equipType ≠ none) (notFlask : item1.equipType ≠ some .flask1) :
    compareItem item1 item2 = compareGrades item1 item2 := by
  have sameHand : ¬ (item1.equipType = some .weapon1 ∧ item2.equipType = some .offhand1) := by
    rintro ⟨isWeapon, isShield⟩
    rw [← same, isWeapon] at isShield
    exact absurd isShield (by decide)
  have alike : ¬ (item1.equipType ≠ item2.equipType ∨ item1.equipType = none) := by
    rintro (different | unknown)
    · exact different same
    · exact known unknown
  simp only [compareItem, if_neg sameHand, if_neg alike, notFlask, false_and, if_false]

theorem compareItem_of_flask (isFlask : item1.equipType = some .flask1)
    (isFlask' : item2.equipType = some .flask1) :
    compareItem item1 item2
      = if ComparableFlasks item1 item2 then
          if item2.path < item1.path then 1
          else if item1.path < item2.path then -1 else compareGrades item1 item2
        else 0 := by
  have notWeapon : ¬ (some Inventories.flask1 = some .weapon1
      ∧ some Inventories.flask1 = some .offhand1) := by
    decide
  simp only [compareItem, isFlask, isFlask', if_neg notWeapon, ne_eq, not_true, true_and,
    reduceCtorEq, or_self, if_false, ComparableFlasks]
  by_cases samePath : item1.path.take (item1.path.length - 2)
      = item2.path.take (item1.path.length - 2)
  · by_cases isLife : finds item1.displayName "Life" = true
    · simp only [samePath, isLife, not_true, false_and, if_false, true_or, and_self, if_true]
    · by_cases isMana : finds item2.displayName "Mana" = true
      · simp only [samePath, isMana, not_true, and_false, if_false, or_true, and_self, if_true]
      · simp [samePath, isLife, isMana]
  · simp only [samePath, not_false_iff, if_true, false_and, if_false]

theorem compareItem_unknown (same : item1.equipType = item2.equipType)
    (unknown : item1.equipType = none) : compareItem item1 item2 = 0 := by
  simp [compareItem, ← same, unknown]

theorem compareItem_of_not_comparable (same : item1.equipType = item2.equipType)
    (notComparable : ¬ Comparable item1 item2) : compareItem item1 item2 = 0 := by
  by_cases unknown : item1.equipType = none
  · exact compareItem_unknown same unknown
  · have isFlask : item1.equipType = some .flask1 := by
      by_contra notFlask
      exact notComparable ⟨unknown, fun isFlask => absurd isFlask notFlask⟩
    have fails : ¬ ComparableFlasks item1 item2 :=
      fun passes => notComparable ⟨unknown, fun _ => passes⟩
    rw [compareItem_of_flask isFlask (same ▸ isFlask), if_neg fails]

/-- Items of one kind are compared by their ranks, if at all. -/
theorem compareItem_of_comparable (same : item1.equipType = item2.equipType)
    (comparable : Comparable item1 item2) :
    compareItem item1 item2 = byGrade (rank item1) (rank item2) 0 := by
  by_cases isFlask : item1.equipType = some .flask1
  · have isFlask' := same ▸ isFlask
    rw [compareItem_of_flask isFlask isFlask', if_pos (comparable.2 isFlask)]
    rcases lt_trichotomy (codeUnits item1.path) (codeUnits item2.path) with less | alike | greater
    · have isLess : rank item1 < rank item2 :=
        (rank_lt_iff_of_flask isFlask isFlask').mpr (.inl ((codeUnits_lt_iff _ _).mp less))
      rw [byGrade_of_lt isLess, if_neg, if_pos ((codeUnits_lt_iff _ _).mp less)]
      rw [← codeUnits_lt_iff]
      exact less.not_gt
    · have samePath := codeUnits_inj.mp alike
      have notLess : ¬ item1.path < item2.path := by
        rw [← codeUnits_lt_iff, alike]
        exact lt_irrefl _
      rw [if_neg (samePath ▸ notLess), if_neg notLess, compareGrades_eq_grade same]
      apply byGrade_congr
      · simp [rank_lt_iff_of_flask isFlask isFlask', samePath]
      · simp [rank_lt_iff_of_flask isFlask' isFlask, samePath]
    · have isGreater : rank item2 < rank item1 :=
        (rank_lt_iff_of_flask isFlask' isFlask).mpr (.inl ((codeUnits_lt_iff _ _).mp greater))
      rw [byGrade_of_gt isGreater, if_pos ((codeUnits_lt_iff _ _).mp greater)]
  · rw [compareItem_of_notFlask same comparable.1 isFlask, compareGrades_eq_grade same]
    apply byGrade_congr
    · rw [rank_lt_iff_of_notFlask same isFlask]
    · rw [rank_lt_iff_of_notFlask same.symm (same ▸ isFlask)]

theorem compareItem_mem (same : item1.equipType = item2.equipType) :
    compareItem item1 item2 = 1 ∨ compareItem item1 item2 = 0 ∨ compareItem item1 item2 = -1 := by
  by_cases comparable : Comparable item1 item2
  · rw [compareItem_of_comparable same comparable]
    exact byGrade_mem _ _ (.inr (.inl rfl))
  · exact .inr (.inl (compareItem_of_not_comparable same comparable))

theorem compareItem_eq_one_iff (same : item1.equipType = item2.equipType) :
    compareItem item1 item2 = 1 ↔ Comparable item1 item2 ∧ rank item2 < rank item1 := by
  by_cases comparable : Comparable item1 item2
  · rw [compareItem_of_comparable same comparable, byGrade_eq_one_iff, and_iff_right comparable]
  · rw [compareItem_of_not_comparable same comparable]
    exact iff_of_false (by decide) fun claimed => comparable claimed.1

theorem compareItem_eq_neg_one_iff (same : item1.equipType = item2.equipType) :
    compareItem item1 item2 = -1 ↔ Comparable item1 item2 ∧ rank item1 < rank item2 := by
  by_cases comparable : Comparable item1 item2
  · rw [compareItem_of_comparable same comparable, byGrade_eq_neg_one_iff,
      and_iff_right comparable]
  · rw [compareItem_of_not_comparable same comparable]
    exact iff_of_false (by decide) fun claimed => comparable claimed.1

/-- Exchanging two items negates the result exactly when both orders pass the test, or neither, or
the items have the same rank. -/
theorem compareItem_neg_iff (same : item1.equipType = item2.equipType) :
    compareItem item1 item2 = -compareItem item2 item1
      ↔ (Comparable item1 item2 ↔ Comparable item2 item1) ∨ rank item1 = rank item2 := by
  have better := compareItem_eq_one_iff same
  have worse := compareItem_eq_neg_one_iff same
  have better' := compareItem_eq_one_iff same.symm
  have worse' := compareItem_eq_neg_one_iff same.symm
  have sign := compareItem_mem same
  have sign' := compareItem_mem same.symm
  generalize compareItem item1 item2 = result at better worse sign ⊢
  generalize compareItem item2 item1 = result' at better' worse' sign' ⊢
  rcases lt_trichotomy (rank item1) (rank item2) with less | sameRank | greater
  · simp only [less, less.not_gt, and_true, and_false, iff_false] at better worse better' worse'
    simp only [less.ne, or_false, ← worse, ← better']
    omega
  · simp only [sameRank, lt_irrefl, and_false, iff_false] at better worse better' worse'
    simp only [sameRank, or_true, iff_true]
    omega
  · simp only [greater, greater.not_gt, and_true, and_false, iff_false] at better worse better' worse'
    simp only [greater.ne', or_false, ← worse', ← better]
    omega

/-- Within one kind the comparison is consistent exactly when its test for flasks is: it answers
alike in both orders, except for items of the same rank, and passes on down the ranks. -/
theorem compareItem_consistent_iff (same12 : item1.equipType = item2.equipType)
    (same23 : item2.equipType = item3.equipType) :
    (compareItem item1 item2 = -compareItem item2 item1
        ∧ (compareItem item1 item2 = 1 → compareItem item2 item3 = 1 → compareItem item1 item3 = 1))
      ↔ ((Comparable item1 item2 ↔ Comparable item2 item1) ∨ rank item1 = rank item2)
        ∧ (rank item2 < rank item1 → rank item3 < rank item2 → Comparable item1 item2 →
          Comparable item2 item3 → Comparable item1 item3) := by
  rw [compareItem_neg_iff same12, compareItem_eq_one_iff same12, compareItem_eq_one_iff same23,
    compareItem_eq_one_iff (same12.trans same23)]
  apply and_congr_right
  intro _
  constructor
  · intro passes less12 less23 comparable12 comparable23
    exact (passes ⟨comparable12, less12⟩ ⟨comparable23, less23⟩).1
  · rintro passes ⟨comparable12, less12⟩ ⟨comparable23, less23⟩
    exact ⟨passes less12 less23 comparable12 comparable23, less23.trans less12⟩

end Kinds

/-- A flask with nothing but its path and its name. -/
def plainFlask (path displayName : String) : ItemData where
  path := wide path
  displayName := wide displayName
  implicitMods := []
  socketColors := []
  lstSocketLinkInfo := []
  nItemRarity := 0
  nItemLevel := 0
  nItemRequireLevel := 0
  strength := 0
  dexterity := 0
  intelligence := 0
  itemQuality := 0

def mediumFlask : ItemData := plainFlask "Metadata/Items/Flasks/FlaskLife2" "Medium Life Flask"

def smallFlask : ItemData := plainFlask "Metadata/Items/Flasks/FlaskLife1" "Small Flask"

theorem mediumFlask_equipType : mediumFlask.equipType = some .flask1 := by decide +kernel

theorem smallFlask_equipType : smallFlask.equipType = some .flask1 := by decide +kernel

theorem compareItem_consistent_flasks :
    (compareItem mediumFlask smallFlask = -compareItem smallFlask mediumFlask
        ∧ (compareItem mediumFlask smallFlask = 1 → compareItem smallFlask mediumFlask = 1 →
          compareItem mediumFlask mediumFlask = 1))
      ↔ ((Comparable mediumFlask smallFlask ↔ Comparable smallFlask mediumFlask)
          ∨ rank mediumFlask = rank smallFlask)
        ∧ (rank smallFlask < rank mediumFlask → rank mediumFlask < rank smallFlask →
          Comparable mediumFlask smallFlask → Comparable smallFlask mediumFlask →
          Comparable mediumFlask mediumFlask) :=
  compareItem_consistent_iff (mediumFlask_equipType.trans smallFlask_equipType.symm)
    (smallFlask_equipType.trans mediumFlask_equipType.symm)

/-- The medium flask is better than the small one, and the small one as good as the medium. -/
theorem compareItem_inconsistent :
    ¬ ∀ item1 item2 item3 : ItemData, item1.equipType = item2.equipType →
      item2.equipType = item3.equipType →
      compareItem item1 item2 = -compareItem item2 item1
        ∧ (compareItem item1 item2 = 1 → compareItem item2 item3 = 1 →
          compareItem item1 item3 = 1) := by
  intro claimed
  have isBetter : compareItem mediumFlask smallFlask = 1 := by decide +kernel
  have isSame : compareItem smallFlask mediumFlask = 0 := by decide +kernel
  have opposite := (claimed mediumFlask smallFlask smallFlask
    (mediumFlask_equipType.trans smallFlask_equipType.symm) rfl).1
  rw [isBetter, isSame] at opposite
  exact absurd opposite (by decide)

end PoETask.Attach
