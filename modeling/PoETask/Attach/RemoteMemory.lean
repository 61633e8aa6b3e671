import PoETask.Attach.Inventory
import Mathlib.Algebra.Order.Ring.Int
import Mathlib.Tactic.Linarith

/-!
# The memory of the game

What is read at its addresses, and the readers of arrays. `ReadStructsArray`,
`ReadPassiveSkillIdArray` and `ReadMinimapIconArray` check the length of an array on a difference
that is cut to 32 bits, and their loops run over the addresses themselves.
-/

namespace PoETask.Attach

/-- Addresses, bytes and numbers, and the items that `InvenSlotItem::Update` reads; it is taken to
return, so that the list of an item's components ends. -/
structure Memory where
  pointer : UInt64 → UInt64
  byte : UInt64 → UInt8
  dword : UInt64 → UInt32
  slotItem : UInt64 → InvenSlotItem

namespace Memory

variable (memory : Memory)

/-! The links of a node of a map of the game. -/

def previous (node : UInt64) : UInt64 := memory.pointer node

def root (node : UInt64) : UInt64 := memory.pointer (node + 0x8)

def next (node : UInt64) : UInt64 := memory.pointer (node + 0x10)

end Memory

/-- The conversion of an address to `int`. -/
def toInt (address : UInt64) : ℤ := Int.bmod address.toNat 0x100000000

/-- The addresses that the loop visits in its first turns. -/
def visits (endAddress structSize : UInt64) : ℕ → UInt64 → List UInt64
  | 0, _ => []
  | turns + 1, addr =>
      if addr < endAddress then addr :: visits endAddress structSize turns (addr + structSize)
      else []

/-- The loop behind the check of the range. -/
def guardedVisits (limit structSize : ℤ) (startAddress endAddress : UInt64) (turns : ℕ) :
    List UInt64 :=
  let range := toInt (endAddress - startAddress)
  if range ≤ 0 ∨ range > limit then []
  else visits endAddress (.ofInt structSize) turns startAddress

section Readers

variable (startAddress endAddress : UInt64) (structSize maxCountLimit : ℤ) (turns : ℕ)

/-- The elements of the result are the addresses that are visited. -/
def readStructsArray : List UInt64 :=
  guardedVisits (structSize * maxCountLimit) structSize startAddress endAddress turns

def passiveSkillAddresses : List UInt64 := guardedVisits 500 2 startAddress endAddress turns

def readPassiveSkillIdArray (skillId : UInt64 → UInt16) : List UInt16 :=
  (passiveSkillAddresses startAddress endAddress turns).map skillId

def minimapIconAddresses : List UInt64 :=
  guardedVisits (structSize * maxCountLimit) structSize startAddress endAddress turns

/-- An icon is added when its `Update` succeeds. -/
def readMinimapIconArray {MinimapIcon : Type*} (update : UInt64 → Option MinimapIcon) :
    List MinimapIcon :=
  (minimapIconAddresses startAddress endAddress structSize maxCountLimit turns).filterMap update

end Readers

/-- However many turns are made, at most `count` addresses are visited, and all lie in the array. -/
def StaysInArray (startAddress endAddress : UInt64) (count : ℕ) (visited : ℕ → List UInt64) :
    Prop :=
  ∀ turns, (visited turns).length ≤ count
    ∧ ∀ addr ∈ visited turns, startAddress ≤ addr ∧ addr < endAddress

/-- The end of the last element of an array. -/
def lastEnd (startAddress endAddress structSize : ℕ) : ℕ :=
  startAddress + (endAddress - startAddress + structSize - 1) / structSize * structSize

/-- The check refuses the addresses, they are in the wrong order, or nothing is cut off their
difference and the last step stays below the end of the address space. -/
def Harmless (limit : ℤ) (structSize : ℕ) (startAddress endAddress : UInt64) : Prop :=
  toInt (endAddress - startAddress) ≤ 0 ∨ limit < toInt (endAddress - startAddress)
    ∨ endAddress ≤ startAddress
    ∨ endAddress.toNat - startAddress.toNat < 0x80000000
      ∧ lastEnd startAddress.toNat endAddress.toNat structSize < 0x10000000000000000

section Visits

variable {startAddress endAddress structSize : UInt64} {turns : ℕ}

theorem toNat_step (startAddress structSize : UInt64) (i : ℕ) :
    (startAddress + .ofNat i * structSize).toNat
      = (startAddress.toNat + i * structSize.toNat) % 2 ^ 64 := by
  simp [UInt64.toNat_add, UInt64.toNat_mul]

theorem step_succ (startAddress structSize : UInt64) (i : ℕ) :
    startAddress + structSize + .ofNat i * structSize
      = startAddress + .ofNat (i + 1) * structSize := by
  rw [UInt64.ofNat_add, UInt64.add_mul, UInt64.add_assoc, UInt64.add_comm structSize]
  simp

/-- As long as the end is not reached, every turn visits one more address. -/
theorem visits_eq_map (before : ∀ i < turns, startAddress + .ofNat i * structSize < endAddress) :
    visits endAddress structSize turns startAddress
      = (List.range turns).map fun i => startAddress + .ofNat i * structSize := by
  induction turns generalizing startAddress with
  | zero => rfl
  | succ turns mapRest =>
      have isFirst : startAddress + .ofNat 0 * structSize = startAddress := by simp
      have notEnded := before 0 (Nat.succ_pos turns)
      rw [isFirst] at notEnded
      have beforeRest : ∀ i < turns, startAddress + structSize + .ofNat i * structSize
          < endAddress := by
        intro i isLess
        rw [step_succ]
        exact before (i + 1) (Nat.succ_lt_succ isLess)
      simp only [visits, if_pos notEnded, mapRest beforeRest, step_succ, List.range_succ_eq_map,
        List.map_cons, isFirst, List.map_map, Function.comp_def, Nat.succ_eq_add_one]

/-- Without a wrap-around the visits stay between the start and the end. -/
theorem visits_inArray {addr : UInt64} {count k : ℕ}
    (noWrap : startAddress.toNat + count * structSize.toNat < 2 ^ 64)
    (reaches : endAddress.toNat ≤ startAddress.toNat + count * structSize.toNat)
    (isAddr : addr.toNat = startAddress.toNat + k * structSize.toNat) (atMost : k ≤ count) :
    (visits endAddress structSize turns addr).length ≤ count - k
      ∧ ∀ visited ∈ visits endAddress structSize turns addr,
        startAddress ≤ visited ∧ visited < endAddress := by
  induction turns generalizing addr k with
  | zero => exact ⟨Nat.zero_le _, fun _ isVisited => absurd isVisited List.not_mem_nil⟩
  | succ turns inArrayRest =>
      simp only [visits]
      split_ifs with notEnded
      · have isBelow : addr.toNat < endAddress.toNat := notEnded
        have isLess : k < count := by
          by_contra isLast
          have isCount : k = count := by omega
          rw [isCount] at isAddr
          omega
        have above : (k + 1) * structSize.toNat ≤ count * structSize.toNat :=
          Nat.mul_le_mul_right _ isLess
        have isNext : (addr + structSize).toNat
            = startAddress.toNat + (k + 1) * structSize.toNat := by
          rw [UInt64.toNat_add, isAddr, Nat.add_assoc, ← Nat.succ_mul, Nat.mod_eq_of_lt]
          exact Nat.lt_of_le_of_lt (Nat.add_le_add_left above _) noWrap
        rcases inArrayRest isNext isLess with ⟨length, inside⟩
        constructor
        · rw [List.length_cons]
          omega
        · intro visited isVisited
          rcases List.mem_cons.mp isVisited with isFirst | isLater
          · rw [isFirst]
            exact ⟨UInt64.le_iff_toNat_le.mpr (by omega), notEnded⟩
          · exact inside visited isLater
      · exact ⟨Nat.zero_le _, fun _ isVisited => absurd isVisited List.not_mem_nil⟩

end Visits

section Range

variable {startAddress endAddress : UInt64}

theorem toInt_cases (address : UInt64) :
    toInt address = address.toNat % 0x100000000 ∧ (address.toNat : ℤ) % 0x100000000 < 0x80000000
      ∨ toInt address < 0 ∧ 0x80000000 ≤ (address.toNat : ℤ) % 0x100000000 := by
  unfold toInt
  rw [Int.bmod_def]
  split_ifs <;> omega

theorem toNat_sub_of_lt (forward : startAddress < endAddress) :
    (endAddress - startAddress).toNat = endAddress.toNat - startAddress.toNat :=
  UInt64.toNat_sub_of_le _ _ (UInt64.le_of_lt forward)

end Range

section Elements

variable {size elements : ℕ}

theorem elements_mul_lt (positive : 0 < size) (d : ℕ) :
    (d + size - 1) / size * size < d + size ∧ d ≤ (d + size - 1) / size * size := by
  have isDivision := Nat.div_add_mod (d + size - 1) size
  have isLess := Nat.mod_lt (d + size - 1) positive
  rw [Nat.mul_comm] at isDivision
  omega

theorem elements_le {d : ℕ} (positive : 0 < size) (atMost : d ≤ size * elements) :
    (d + size - 1) / size ≤ elements := by
  apply Nat.le_of_lt_succ
  apply (Nat.div_lt_iff_lt_mul positive).mpr
  rw [Nat.succ_mul, Nat.mul_comm]
  omega

theorem before_last {d i : ℕ} (positive : 0 < size) (isLess : i < (d + size - 1) / size) :
    i * size < d := by
  have below := elements_mul_lt positive d
  have next := Nat.mul_le_mul_right size (Nat.succ_le_of_lt isLess)
  rw [Nat.succ_mul] at next
  omega

end Elements

section Loop

variable {startAddress endAddress structSize : UInt64} {count : ℕ}

theorem visits_stay (positive : 0 < structSize.toNat) (forward : startAddress < endAddress)
    (atMost : endAddress.toNat - startAddress.toNat ≤ structSize.toNat * count)
    (noWrap : lastEnd startAddress.toNat endAddress.toNat structSize.toNat < 0x10000000000000000) :
    StaysInArray startAddress endAddress count
      (fun turns => visits endAddress structSize turns startAddress) := by
  intro turns
  have isForward : startAddress.toNat < endAddress.toNat := forward
  have reaches := (elements_mul_lt positive (endAddress.toNat - startAddress.toNat)).2
  have elements := elements_le positive atMost
  rw [lastEnd] at noWrap
  have isEnd : endAddress.toNat ≤ startAddress.toNat
      + (endAddress.toNat - startAddress.toNat + structSize.toNat - 1) / structSize.toNat
        * structSize.toNat := by
    omega
  have isStart : startAddress.toNat = startAddress.toNat + 0 * structSize.toNat := by
    rw [Nat.zero_mul, Nat.add_zero]
  rcases visits_inArray noWrap isEnd isStart (Nat.zero_le _) with ⟨length, inside⟩
  exact ⟨length.trans elements, inside⟩

/-- An array that is longer than the limit is read beyond it. -/
theorem not_stay_of_long
    (isLong : startAddress.toNat + count * structSize.toNat < endAddress.toNat) :
    ¬ StaysInArray startAddress endAddress count
      (fun turns => visits endAddress structSize turns startAddress) := by
  intro stays
  have before : ∀ i < count + 1, startAddress + .ofNat i * structSize < endAddress := by
    intro i isLess
    have below := Nat.mul_le_mul_right structSize.toNat (Nat.le_of_lt_succ isLess)
    have inSpace := endAddress.toNat_lt
    rw [UInt64.lt_iff_toNat_lt, toNat_step, Nat.mod_eq_of_lt (by omega)]
    omega
  have length := (stays (count + 1)).1
  simp only [visits_eq_map before, List.length_map, List.length_range] at length
  omega

/-- A last step beyond the end of the address space leads before the start. -/
theorem not_stay_of_wrap (positive : 0 < structSize.toNat) (forward : startAddress < endAddress)
    (isShort : endAddress.toNat - startAddress.toNat + structSize.toNat < 0x10000000000000000)
    (wraps : 0x10000000000000000
      ≤ lastEnd startAddress.toNat endAddress.toNat structSize.toNat) :
    ¬ StaysInArray startAddress endAddress count
      (fun turns => visits endAddress structSize turns startAddress) := by
  intro stays
  have isForward : startAddress.toNat < endAddress.toNat := forward
  have inSpace := endAddress.toNat_lt
  have last := (elements_mul_lt positive (endAddress.toNat - startAddress.toNat)).1
  rw [lastEnd] at wraps
  have notLast : ∀ i < (endAddress.toNat - startAddress.toNat + structSize.toNat - 1)
      / structSize.toNat, i * structSize.toNat < endAddress.toNat - startAddress.toNat :=
    fun i isLess => before_last positive isLess
  generalize (endAddress.toNat - startAddress.toNat + structSize.toNat - 1)
    / structSize.toNat = n at wraps last notLast
  have isBack : (startAddress + .ofNat n * structSize).toNat < startAddress.toNat := by
    rw [toNat_step]
    omega
  have before : ∀ i < n + 1, startAddress + .ofNat i * structSize < endAddress := by
    intro i isLess
    rw [UInt64.lt_iff_toNat_lt]
    rcases Nat.lt_succ_iff_lt_or_eq.mp isLess with earlier | isLast
    · have below := notLast i earlier
      rw [toNat_step, Nat.mod_eq_of_lt (by omega)]
      omega
    · rw [isLast]
      omega
  have isVisited : startAddress + .ofNat n * structSize
      ∈ visits endAddress structSize (n + 1) startAddress := by
    rw [visits_eq_map before]
    exact List.mem_map_of_mem (List.mem_range.mpr (Nat.lt_succ_self n))
  have atLeast := UInt64.le_iff_toNat_le.mp ((stays (n + 1)).2 _ isVisited).1
  omega

theorem staysInArray_of_empty {visited : ℕ → List UInt64} (isEmpty : ∀ turns, visited turns = []) :
    StaysInArray startAddress endAddress count visited := by
  intro turns
  rw [isEmpty]
  exact ⟨Nat.zero_le _, fun _ isVisited => absurd isVisited List.not_mem_nil⟩

theorem visits_of_not_forward (notForward : ¬ startAddress < endAddress) (turns : ℕ) :
    visits endAddress structSize turns startAddress = [] := by
  cases turns with
  | zero => rfl
  | succ turns => rw [visits, if_neg notForward]

/-- Behind the check, the loop stays in the array exactly if nothing was cut off and the last step
does not wrap around. -/
theorem visits_stay_iff (positive : 0 < structSize.toNat) (forward : startAddress < endAddress)
    (small : structSize.toNat * count < 0x80000000) (notEmpty : 0 < count)
    (accepted : toInt (endAddress - startAddress) ≤ structSize.toNat * count) :
    StaysInArray startAddress endAddress count
        (fun turns => visits endAddress structSize turns startAddress)
      ↔ endAddress.toNat - startAddress.toNat < 0x80000000
        ∧ lastEnd startAddress.toNat endAddress.toNat structSize.toNat < 0x10000000000000000 := by
  have isForward : startAddress.toNat < endAddress.toNat := forward
  have inSpace := endAddress.toNat_lt
  have sizeSmall : structSize.toNat < 0x80000000 :=
    (Nat.le_mul_of_pos_right structSize.toNat notEmpty).trans_lt small
  have isRange := toInt_cases (endAddress - startAddress)
  rw [toNat_sub_of_lt forward] at isRange
  constructor
  · intro stays
    by_contra notHarmless
    by_cases isShort : endAddress.toNat - startAddress.toNat < 0x80000000
    · exact not_stay_of_wrap positive forward (by omega) (by omega) stays
    · apply not_stay_of_long _ stays
      rw [Nat.mul_comm]
      omega
  · rintro ⟨isShort, noWrap⟩
    apply visits_stay positive forward _ noWrap
    push_cast at *
    omega

end Loop

/-- The guarded loop stays in the array exactly if the addresses are harmless. -/
theorem guardedVisits_staysInArray_iff (startAddress endAddress : UInt64) {structSize : ℤ}
    {count : ℕ} (positive : 0 < structSize) (notEmpty : 0 < count)
    (small : structSize * count < 0x80000000) :
    StaysInArray startAddress endAddress count
        (guardedVisits (structSize * count) structSize startAddress endAddress)
      ↔ Harmless (structSize * count) structSize.toNat startAddress endAddress := by
  rcases Int.eq_ofNat_of_zero_le positive.le with ⟨size, rfl⟩
  have isPositive : 0 < size := by exact_mod_cast positive
  have isSmall : size * count < 0x80000000 := by exact_mod_cast small
  have isSize : (UInt64.ofInt size).toNat = size := by
    have sizeSmall := (Nat.le_mul_of_pos_right size notEmpty).trans_lt isSmall
    rw [UInt64.ofInt, UInt64.toNat_ofNat']
    omega
  by_cases refused : toInt (endAddress - startAddress) ≤ 0
      ∨ toInt (endAddress - startAddress) > size * count
  · apply iff_of_true
    · apply staysInArray_of_empty
      intro turns
      simp only [guardedVisits, if_pos refused]
    · rcases refused with notPositive | isLarge
      · exact .inl notPositive
      · exact .inr (.inl isLarge)
  · have isAccepted : guardedVisits (size * count) size startAddress endAddress
        = fun turns => visits endAddress (.ofInt size) turns startAddress := by
      funext turns
      simp only [guardedVisits, if_neg refused]
    rw [isAccepted, Int.toNat_natCast]
    by_cases forward : startAddress < endAddress
    · simp only [not_or, not_le, not_lt] at refused
      rw [visits_stay_iff (by rwa [isSize]) forward (by rwa [isSize]) notEmpty
        (by rw [isSize]; exact refused.2), isSize]
      simp only [Harmless, not_le.mpr refused.1, not_lt.mpr refused.2, UInt64.not_le.mpr forward,
        false_or]
    · apply iff_of_true
      · exact staysInArray_of_empty (visits_of_not_forward forward)
      · exact .inr (.inr (.inl (UInt64.not_lt.mp forward)))

/-- What comes from addresses that stay in an array is no more than its elements. -/
theorem StaysInArray.filterMap {startAddress endAddress : UInt64} {count : ℕ}
    {visited : ℕ → List UInt64} (stays : StaysInArray startAddress endAddress count visited)
    {Element : Type*} (read : UInt64 → Option Element) (turns : ℕ) :
    ((visited turns).filterMap read).length ≤ count
      ∧ ∀ element ∈ (visited turns).filterMap read,
        ∃ addr, startAddress ≤ addr ∧ addr < endAddress ∧ read addr = some element := by
  refine ⟨(List.length_filterMap_le read _).trans (stays turns).1, ?_⟩
  intro element isRead
  rcases List.mem_filterMap.mp isRead with ⟨addr, isVisited, isElement⟩
  rcases (stays turns).2 addr isVisited with ⟨fromStart, beforeEnd⟩
  exact ⟨addr, fromStart, beforeEnd, isElement⟩

/-- At harmless addresses every icon is one of the array. -/
theorem readMinimapIconArray_fromArray {MinimapIcon : Type*}
    (update : UInt64 → Option MinimapIcon) {startAddress endAddress : UInt64}
    {structSize maxCountLimit : ℤ} (positive : 0 < structSize) (notEmpty : 0 < maxCountLimit)
    (small : structSize * maxCountLimit < 0x80000000)
    (harmless : Harmless (structSize * maxCountLimit) structSize.toNat startAddress endAddress)
    (turns : ℕ) :
    (readMinimapIconArray startAddress endAddress structSize maxCountLimit turns update).length
        ≤ maxCountLimit.toNat
      ∧ ∀ icon ∈ readMinimapIconArray startAddress endAddress structSize maxCountLimit turns update,
        ∃ addr, startAddress ≤ addr ∧ addr < endAddress ∧ update addr = some icon := by
  rcases Int.eq_ofNat_of_zero_le notEmpty.le with ⟨count, rfl⟩
  have isPositive : 0 < count := by exact_mod_cast notEmpty
  have stays := (guardedVisits_staysInArray_iff startAddress endAddress positive isPositive
    small).mpr harmless
  exact stays.filterMap update turns

/-- At harmless addresses every identifier of a passive skill is one of the array. -/
theorem readPassiveSkillIdArray_fromArray (skillId : UInt64 → UInt16)
    {startAddress endAddress : UInt64} (harmless : Harmless 500 2 startAddress endAddress)
    (turns : ℕ) :
    (readPassiveSkillIdArray startAddress endAddress turns skillId).length ≤ 250
      ∧ ∀ id ∈ readPassiveSkillIdArray startAddress endAddress turns skillId,
        ∃ addr, startAddress ≤ addr ∧ addr < endAddress ∧ skillId addr = id := by
  have stays : StaysInArray startAddress endAddress 250
      (guardedVisits (2 * (250 : ℕ)) 2 startAddress endAddress) :=
    (guardedVisits_staysInArray_iff startAddress endAddress (by decide) (by decide)
      (by decide)).mpr harmless
  have isMap : readPassiveSkillIdArray startAddress endAddress turns skillId
      = (guardedVisits (2 * (250 : ℕ)) 2 startAddress endAddress turns).filterMap
        (some ∘ skillId) := by
    rw [List.filterMap_eq_map]
    rfl
  rw [isMap]
  simpa only [Function.comp_apply, Option.some_inj] using stays.filterMap (some ∘ skillId) turns

/-- The three readers visit the elements of the array only, exactly if the addresses are
harmless. -/
theorem readArrays_stayInArray_iff (startAddress endAddress : UInt64)
    {structSize maxCountLimit : ℤ} (positive : 0 < structSize) (notEmpty : 0 < maxCountLimit)
    (small : structSize * maxCountLimit < 0x80000000) :
    (StaysInArray startAddress endAddress maxCountLimit.toNat
        (readStructsArray startAddress endAddress structSize maxCountLimit)
      ↔ Harmless (structSize * maxCountLimit) structSize.toNat startAddress endAddress)
    ∧ (StaysInArray startAddress endAddress maxCountLimit.toNat
        (minimapIconAddresses startAddress endAddress structSize maxCountLimit)
      ↔ Harmless (structSize * maxCountLimit) structSize.toNat startAddress endAddress)
    ∧ (StaysInArray startAddress endAddress 250 (passiveSkillAddresses startAddress endAddress)
      ↔ Harmless 500 2 startAddress endAddress) := by
  rcases Int.eq_ofNat_of_zero_le notEmpty.le with ⟨count, rfl⟩
  have isPositive : 0 < count := by exact_mod_cast notEmpty
  have structs := guardedVisits_staysInArray_iff startAddress endAddress positive isPositive small
  have skills : StaysInArray startAddress endAddress 250
      (guardedVisits (2 * (250 : ℕ)) 2 startAddress endAddress)
      ↔ Harmless (2 * (250 : ℕ)) (2 : ℤ).toNat startAddress endAddress :=
    guardedVisits_staysInArray_iff startAddress endAddress (by decide) (by decide) (by decide)
  exact ⟨structs, structs, skills⟩

/-- An array of three elements from 1000 on. -/
theorem smallArray_stays :
    StaysInArray 1000 1024 3 (readStructsArray 1000 1024 8 3) := by
  apply (readArrays_stayInArray_iff 1000 1024 (by decide : (0 : ℤ) < 8) (by decide : (0 : ℤ) < 3)
    (by decide)).1.mpr
  exact .inr (.inr (.inr ⟨by decide, by decide⟩))

/-- With a torn end address two elements are visited under a limit of one. -/
theorem readStructsArray_tornEnd :
    ¬ ∀ (startAddress endAddress : UInt64) (structSize maxCountLimit : ℤ), 0 < structSize →
      0 < maxCountLimit → structSize * maxCountLimit < 0x80000000 →
      StaysInArray startAddress endAddress maxCountLimit.toNat
          (readStructsArray startAddress endAddress structSize maxCountLimit)
        ∧ StaysInArray startAddress endAddress maxCountLimit.toNat
          (minimapIconAddresses startAddress endAddress structSize maxCountLimit)
        ∧ StaysInArray startAddress endAddress 250
          (passiveSkillAddresses startAddress endAddress) := by
  intro claimed
  have stays := (claimed 0 0x100000008 8 1 (by decide) (by decide) (by decide)).1
  exact absurd (stays 2).1 (by decide)

end PoETask.Attach
