import PoETask.Attach.Geometry
import PoETask.Library.Erasing
import PoETask.Library.StepSystem
import Mathlib.Data.List.Nodup

/-!
# The cache of minimap icons

`LoadObjectCache` brings the cache in line with the icons that the server lists. An icon
of the cache is known by its icon name and its position. Icons that are no longer listed
are erased, the others take over what was read, and new ones are appended.

The ledger says what the cache is for: it has for each listed icon the flag that was set
for it and the last name and path that were read for it and not empty.

Erasing assigns to slots, and the assignment of icons takes over neither the flag nor
an empty text. So an icon that moves up has the flag of the slot it moves to, and may
have a text of one of the icons that it passes.
-/

namespace PoETask.Attach

open PoETask.Library

structure MinimapIcon where
  address : ℕ
  iconName : String
  isValid : UInt8
  gridPos : IVector
  name : String
  path : String
  canGoto : UInt8
  deriving DecidableEq

namespace MinimapIcon

/-- `operator =`. -/
def assign (this other : MinimapIcon) : MinimapIcon where
  address := other.address
  iconName := other.iconName
  isValid := other.isValid
  gridPos := other.gridPos
  name := if other.name = "" then this.name else other.name
  path := if other.path = "" then this.path else other.path
  canGoto := this.canGoto

def key (icon : MinimapIcon) : String × IVector := (icon.iconName, icon.gridPos)

instance : Std.Associative assign where
  assoc a b c := by
    simp only [assign, mk.injEq, true_and, and_true]
    split_ifs <;> simp

instance : Std.IdempotentOp assign where
  idempotent a := by
    simp only [assign, ite_self]

end MinimapIcon

def isListed (minimapIcons : List MinimapIcon) (cached : MinimapIcon) : Bool :=
  minimapIcons.any fun icon => cached.iconName = icon.iconName ∧ cached.gridPos = icon.gridPos

/-- The second loop for one icon: assign it to the entry with its key, or append it. -/
def cacheIcon (icon : MinimapIcon) : List MinimapIcon → List MinimapIcon
  | [] => [icon]
  | cached :: rest =>
      if cached.iconName = icon.iconName ∧ cached.gridPos = icon.gridPos then
        cached.assign icon :: rest
      else
        cached :: cacheIcon icon rest

def loadObjectCache (iconsCache minimapIcons : List MinimapIcon) : List MinimapIcon :=
  minimapIcons.foldl (fun iconsCache icon => cacheIcon icon iconsCache)
    (eraseLoop MinimapIcon.assign (isListed minimapIcons) iconsCache.length iconsCache)

/-- What the cache is to remember of an icon. -/
structure IconRecord where
  name : String
  path : String
  canGoto : UInt8
  deriving DecidableEq

def MinimapIcon.record (icon : MinimapIcon) : IconRecord where
  name := icon.name
  path := icon.path
  canGoto := icon.canGoto

/-- The icons that are to be known, by icon name and position. -/
abbrev Ledger := String × IVector → Option IconRecord

namespace Ledger

/-- Another reading of an icon: a text that is not empty replaces the old one. -/
def read (entry : Option IconRecord) (icon : MinimapIcon) : Option IconRecord :=
  match entry with
  | none => some { name := icon.name, path := icon.path, canGoto := 1 }
  | some record => some
      { name := if icon.name = "" then record.name else icon.name
        path := if icon.path = "" then record.path else icon.path
        canGoto := record.canGoto }

def load (ledger : Ledger) (minimapIcons : List MinimapIcon) : Ledger := fun key =>
  if key ∈ minimapIcons.map MinimapIcon.key then
    (minimapIcons.filter (·.key = key)).foldl read (ledger key)
  else
    none

def setCanGoto (ledger : Ledger) (key : String × IVector) (canGoto : UInt8) : Ledger :=
  Function.update ledger key ((ledger key).map fun record => { record with canGoto })

end Ledger

def lookup (iconsCache : List MinimapIcon) (key : String × IVector) : Option MinimapIcon :=
  iconsCache.find? (·.key = key)

/-- The cache has each icon of the ledger once, with its record, and no other. -/
structure Agrees (iconsCache : List MinimapIcon) (ledger : Ledger) : Prop where
  once : (iconsCache.map MinimapIcon.key).Nodup
  record_eq : ∀ key, (lookup iconsCache key).map MinimapIcon.record = ledger key

/-- The icons from the place that the icon at `s` moves to up to that icon. -/
def passed (iconsCache minimapIcons : List MinimapIcon) (s : ℕ) : List MinimapIcon :=
  let place := (iconsCache.take s).countP (isListed minimapIcons)
  (iconsCache.drop place).take (s - place)

/-- A text of a cached icon is not replaced by that of an icon that it passes. -/
def KeepsText (text : MinimapIcon → String) (passed minimapIcons : List MinimapIcon)
    (cached : MinimapIcon) : Prop :=
  text cached ≠ "" ∨ (∃ icon ∈ minimapIcons, icon.key = cached.key ∧ text icon ≠ "") ∨
    ∀ icon ∈ passed, text icon = ""

/-- Every icon that stays finds its own flag where it moves to and no text of another icon. -/
def Undisturbed (iconsCache minimapIcons : List MinimapIcon) : Prop :=
  ∀ s (inside : s < iconsCache.length), isListed minimapIcons iconsCache[s] →
    (∀ icon ∈ (passed iconsCache minimapIcons s).head?, icon.canGoto = iconsCache[s].canGoto) ∧
      KeepsText MinimapIcon.name (passed iconsCache minimapIcons s) minimapIcons iconsCache[s] ∧
        KeepsText MinimapIcon.path (passed iconsCache minimapIcons s) minimapIcons iconsCache[s]

instance (text : MinimapIcon → String) (passed minimapIcons : List MinimapIcon)
    (cached : MinimapIcon) : Decidable (KeepsText text passed minimapIcons cached) :=
  inferInstanceAs (Decidable (_ ∨ (∃ icon ∈ minimapIcons, _ ∧ _) ∨ ∀ icon ∈ passed, _))

instance (iconsCache minimapIcons : List MinimapIcon) :
    Decidable (Undisturbed iconsCache minimapIcons) :=
  inferInstanceAs (Decidable (∀ s (inside : s < iconsCache.length),
    isListed minimapIcons iconsCache[s] →
      (∀ icon ∈ (passed iconsCache minimapIcons s).head?, icon.canGoto = _) ∧
        KeepsText _ _ _ _ ∧ KeepsText _ _ _ _))

section Lookups

variable {iconsCache minimapIcons : List MinimapIcon} {icon : MinimapIcon}
  {key : String × IVector}

theorem key_eq_iff (cached icon : MinimapIcon) :
    cached.iconName = icon.iconName ∧ cached.gridPos = icon.gridPos ↔ cached.key = icon.key :=
  Prod.mk_inj.symm

theorem isListed_iff (cached : MinimapIcon) :
    isListed minimapIcons cached ↔ cached.key ∈ minimapIcons.map MinimapIcon.key := by
  simp only [isListed, List.any_eq_true, decide_eq_true_eq, key_eq_iff, List.mem_map]
  exact exists_congr fun icon => and_congr_right fun _ => eq_comm

theorem key_assign (this other : MinimapIcon) : (this.assign other).key = other.key := rfl

theorem isListed_assign (this other : MinimapIcon) :
    isListed minimapIcons (this.assign other) = isListed minimapIcons other := rfl

theorem lookup_eq_none : lookup iconsCache key = none ↔ key ∉ iconsCache.map MinimapIcon.key := by
  simp [lookup, List.find?_eq_none]

theorem lookup_getElem (once : (iconsCache.map MinimapIcon.key).Nodup) {s : ℕ}
    (inside : s < iconsCache.length) :
    lookup iconsCache iconsCache[s].key = some iconsCache[s] := by
  induction iconsCache generalizing s with
  | nil => cases inside
  | cons cached rest ih =>
      rw [List.map_cons, List.nodup_cons] at once
      cases s with
      | zero => simp [lookup]
      | succ s =>
          have inRest : s < rest.length := Nat.lt_of_succ_lt_succ inside
          have different : cached.key ≠ rest[s].key := fun same =>
            once.1 (same ▸ List.mem_map_of_mem (List.getElem_mem inRest))
          simp only [List.getElem_cons_succ, lookup, List.find?_cons, different, decide_false]
          exact ih once.2 inRest

theorem lookup_cacheIcon (iconsCache : List MinimapIcon) (icon : MinimapIcon)
    (key : String × IVector) : lookup (cacheIcon icon iconsCache) key =
      if icon.key = key then
        some ((lookup iconsCache key).elim icon fun cached => cached.assign icon)
      else
        lookup iconsCache key := by
  induction iconsCache with
  | nil => by_cases same : icon.key = key <;> simp [cacheIcon, lookup, same]
  | cons cached rest ih =>
      simp only [cacheIcon, key_eq_iff]
      by_cases here : cached.key = icon.key
      · by_cases same : icon.key = key <;> simp [lookup, key_assign, here, same]
      · simp only [if_neg here, lookup, List.find?_cons] at ih ⊢
        by_cases same : icon.key = key
        · subst same
          simp only [decide_eq_false here, ih]
        · by_cases found : cached.key = key
          · simp [found, same]
          · simp only [decide_eq_false found, ih]

theorem keys_cacheIcon (iconsCache : List MinimapIcon) (icon : MinimapIcon) :
    (cacheIcon icon iconsCache).map MinimapIcon.key =
      if icon.key ∈ iconsCache.map MinimapIcon.key then iconsCache.map MinimapIcon.key
      else iconsCache.map MinimapIcon.key ++ [icon.key] := by
  induction iconsCache with
  | nil => simp [cacheIcon]
  | cons cached rest ih =>
      simp only [cacheIcon, key_eq_iff]
      by_cases here : cached.key = icon.key
      · simp [key_assign, here]
      · have other : icon.key ≠ cached.key := fun same => here same.symm
        simp only [if_neg here, List.map_cons, ih, List.mem_cons, other, false_or]
        split <;> rfl

theorem once_cacheIcon (once : (iconsCache.map MinimapIcon.key).Nodup) (icon : MinimapIcon) :
    ((cacheIcon icon iconsCache).map MinimapIcon.key).Nodup := by
  rw [keys_cacheIcon]
  split
  · exact once
  · rename_i isNew
    exact List.nodup_append.mpr ⟨once, List.nodup_singleton _, fun old isOld new isNew' same =>
      isNew (List.mem_singleton.mp isNew' ▸ same ▸ isOld)⟩

theorem once_foldl_cacheIcon (once : (iconsCache.map MinimapIcon.key).Nodup)
    (minimapIcons : List MinimapIcon) :
    ((minimapIcons.foldl (fun iconsCache icon => cacheIcon icon iconsCache) iconsCache).map
      MinimapIcon.key).Nodup := by
  induction minimapIcons generalizing iconsCache with
  | nil => exact once
  | cons icon rest ih => exact ih (once_cacheIcon once icon)

/-- The second loop reads every icon into the record of its key. -/
theorem record_foldl_cacheIcon (fresh : ∀ icon ∈ minimapIcons, icon.canGoto = 1)
    (iconsCache : List MinimapIcon) (key : String × IVector) :
    (lookup (minimapIcons.foldl (fun iconsCache icon => cacheIcon icon iconsCache) iconsCache)
        key).map MinimapIcon.record =
      (minimapIcons.filter (·.key = key)).foldl Ledger.read
        ((lookup iconsCache key).map MinimapIcon.record) := by
  induction minimapIcons generalizing iconsCache with
  | nil => rfl
  | cons icon rest ih =>
      rw [List.forall_mem_cons] at fresh
      rw [List.foldl_cons, ih fresh.2, lookup_cacheIcon, List.filter_cons]
      by_cases same : icon.key = key
      · simp only [if_pos same, decide_eq_true same, if_true, List.foldl_cons]
        congr 1
        cases lookup iconsCache key with
        | none => simp [Ledger.read, MinimapIcon.record, fresh.1]
        | some cached => rfl
      · simp only [if_neg same, decide_eq_false same, Bool.false_eq_true, if_false]

end Lookups

section Erasing

variable {iconsCache minimapIcons : List MinimapIcon} {key : String × IVector}

theorem keys_eraseLoop (iconsCache minimapIcons : List MinimapIcon) :
    (eraseLoop MinimapIcon.assign (isListed minimapIcons) iconsCache.length iconsCache).map
        MinimapIcon.key =
      (iconsCache.map MinimapIcon.key).filter (· ∈ minimapIcons.map MinimapIcon.key) := by
  refine map_eraseLoop key_assign (fun cached => ?_) iconsCache
  rw [Bool.eq_iff_iff, isListed_iff, decide_eq_true_eq]

theorem once_eraseLoop (once : (iconsCache.map MinimapIcon.key).Nodup)
    (minimapIcons : List MinimapIcon) :
    ((eraseLoop MinimapIcon.assign (isListed minimapIcons) iconsCache.length iconsCache).map
      MinimapIcon.key).Nodup := by
  rw [keys_eraseLoop]
  exact once.filter _

/-- An icon that stays is merged with the icons that it passes. -/
theorem lookup_eraseLoop (once : (iconsCache.map MinimapIcon.key).Nodup) {s : ℕ}
    (inside : s < iconsCache.length) (stays : isListed minimapIcons iconsCache[s]) :
    ∃ merged, blend MinimapIcon.assign (passed iconsCache minimapIcons s ++ [iconsCache[s]]) =
        some merged ∧
      lookup (eraseLoop MinimapIcon.assign (isListed minimapIcons) iconsCache.length iconsCache)
        iconsCache[s].key = some merged := by
  have place_le : (iconsCache.take s).countP (isListed minimapIcons) ≤ s :=
    List.countP_le_length.trans (List.length_take_le s iconsCache)
  have inShifted : 0 + s < iconsCache.length := by omega
  have shiftedStays : isListed minimapIcons iconsCache[0 + s] := by
    simpa only [Nat.zero_add] using stays
  have left := (Shifted.self MinimapIcon.assign iconsCache).getElem?_eraseLoop isListed_assign
    inShifted shiftedStays rfl
  simp only [List.drop_zero, Nat.zero_add] at left
  have window_eq : (iconsCache.drop ((iconsCache.take s).countP (isListed minimapIcons))).take
        (s + 1 - (iconsCache.take s).countP (isListed minimapIcons)) =
      passed iconsCache minimapIcons s ++ [iconsCache[s]] := by
    have bound : s - (iconsCache.take s).countP (isListed minimapIcons) <
        (iconsCache.drop ((iconsCache.take s).countP (isListed minimapIcons))).length := by
      rw [List.length_drop]
      omega
    rw [Nat.succ_sub place_le, List.take_succ_eq_append_getElem bound, passed, List.getElem_drop]
    simp only [Nat.add_sub_cancel' place_le]
  rw [window_eq] at left
  have notEmpty : passed iconsCache minimapIcons s ++ [iconsCache[s]] ≠ [] :=
    List.append_ne_nil_of_right_ne_nil _ (List.cons_ne_nil _ [])
  rcases blend_isSome MinimapIcon.assign notEmpty with ⟨merged, isMerged⟩
  refine ⟨merged, isMerged, ?_⟩
  rw [isMerged] at left
  rcases List.getElem?_eq_some_iff.mp left with ⟨inKept, merged_eq⟩
  have key_eq := copied_blend key_assign isMerged
  rw [List.getLast?_concat, Option.map_some, Option.some.injEq] at key_eq
  rw [key_eq, ← merged_eq]
  exact lookup_getElem (once_eraseLoop once minimapIcons) inKept

theorem lookup_eraseLoop_of_not_listed (notListed : key ∉ minimapIcons.map MinimapIcon.key) :
    lookup (eraseLoop MinimapIcon.assign (isListed minimapIcons) iconsCache.length iconsCache)
      key = none := by
  rw [lookup_eq_none, keys_eraseLoop]
  intro isKept
  exact notListed (of_decide_eq_true (List.mem_filter.mp isKept).2)

theorem lookup_eraseLoop_of_not_cached (notCached : key ∉ iconsCache.map MinimapIcon.key) :
    lookup (eraseLoop MinimapIcon.assign (isListed minimapIcons) iconsCache.length iconsCache)
      key = none := by
  rw [lookup_eq_none, keys_eraseLoop]
  intro isKept
  exact notCached (List.mem_of_mem_filter isKept)

end Erasing

section Readings

/-- Two records that read the same icons come out the same if their flags are the same and their
texts are, or are replaced. -/
theorem foldl_read_eq_iff (icons : List MinimapIcon) (left right : IconRecord) :
    icons.foldl Ledger.read (some left) = icons.foldl Ledger.read (some right) ↔
      left.canGoto = right.canGoto ∧
        (left.name = right.name ∨ ∃ icon ∈ icons, icon.name ≠ "") ∧
          (left.path = right.path ∨ ∃ icon ∈ icons, icon.path ≠ "") := by
  induction icons generalizing left right with
  | nil =>
      rcases left with ⟨_, _, _⟩
      rcases right with ⟨_, _, _⟩
      simp only [List.foldl_nil, Option.some.injEq, IconRecord.mk.injEq, List.not_mem_nil,
        false_and, exists_false, or_false]
      exact ⟨fun ⟨name, path, flag⟩ => ⟨flag, name, path⟩,
        fun ⟨flag, name, path⟩ => ⟨name, path, flag⟩⟩
  | cons icon rest ih =>
      simp only [List.foldl_cons, Ledger.read, ih, List.exists_mem_cons_iff]
      refine and_congr_right fun _ => and_congr ?_ ?_
      · by_cases isEmpty : icon.name = "" <;> simp [isEmpty]
      · by_cases isEmpty : icon.path = "" <;> simp [isEmpty]

end Readings

section Loading

variable {iconsCache minimapIcons : List MinimapIcon} {ledger : Ledger}

theorem canGoto_blend_iff {front : List MinimapIcon} {cached merged : MinimapIcon}
    (isMerged : blend MinimapIcon.assign (front ++ [cached]) = some merged) :
    merged.canGoto = cached.canGoto ↔ ∀ icon ∈ front.head?, icon.canGoto = cached.canGoto := by
  have flag_assign : ∀ this other : MinimapIcon, (this.assign other).canGoto = this.canGoto :=
    fun _ _ => rfl
  have first := kept_blend flag_assign isMerged
  cases front with
  | nil => simpa using first.symm
  | cons icon rest =>
      rw [List.cons_append, List.head?_cons, Option.map_some, Option.some.injEq] at first
      simp [← first]

theorem keepsText_iff (text : MinimapIcon → String)
    (overridden : ∀ this other : MinimapIcon,
      text (this.assign other) = if text other = "" then text this else text other)
    {front : List MinimapIcon} {cached merged : MinimapIcon}
    (isMerged : blend MinimapIcon.assign (front ++ [cached]) = some merged) :
    (text merged = text cached ∨
        ∃ icon ∈ minimapIcons.filter (·.key = cached.key), text icon ≠ "") ↔
      KeepsText text front minimapIcons cached := by
  rw [overridden_blend overridden isMerged, KeepsText]
  simp only [List.mem_filter, decide_eq_true_eq, and_assoc]
  rw [or_assoc]
  exact or_congr_right or_comm

/-- For an icon that stays, the record that the load leaves is the one in the ledger exactly if
moving up does it no harm. -/
theorem record_stays_iff (agrees : Agrees iconsCache ledger)
    (fresh : ∀ icon ∈ minimapIcons, icon.canGoto = 1) {s : ℕ} (inside : s < iconsCache.length)
    (stays : isListed minimapIcons iconsCache[s]) :
    (lookup (loadObjectCache iconsCache minimapIcons) iconsCache[s].key).map MinimapIcon.record =
        ledger.load minimapIcons iconsCache[s].key ↔
      (∀ icon ∈ (passed iconsCache minimapIcons s).head?,
          icon.canGoto = iconsCache[s].canGoto) ∧
        KeepsText MinimapIcon.name (passed iconsCache minimapIcons s) minimapIcons iconsCache[s] ∧
          KeepsText MinimapIcon.path (passed iconsCache minimapIcons s) minimapIcons
            iconsCache[s] := by
  rcases lookup_eraseLoop agrees.once inside stays with ⟨merged, isMerged, found⟩
  rw [loadObjectCache, record_foldl_cacheIcon fresh, found, Ledger.load,
    if_pos ((isListed_iff _).mp stays), ← agrees.record_eq, lookup_getElem agrees.once inside,
    Option.map_some, Option.map_some, foldl_read_eq_iff]
  refine and_congr (canGoto_blend_iff isMerged) (and_congr ?_ ?_)
  · exact keepsText_iff MinimapIcon.name (fun _ _ => rfl) isMerged
  · exact keepsText_iff MinimapIcon.path (fun _ _ => rfl) isMerged

theorem record_of_new (agrees : Agrees iconsCache ledger)
    (fresh : ∀ icon ∈ minimapIcons, icon.canGoto = 1) {key : String × IVector}
    (notStays : key ∉ minimapIcons.map MinimapIcon.key ∨
      key ∉ iconsCache.map MinimapIcon.key) :
    (lookup (loadObjectCache iconsCache minimapIcons) key).map MinimapIcon.record =
      ledger.load minimapIcons key := by
  rw [loadObjectCache, record_foldl_cacheIcon fresh, Ledger.load]
  by_cases listed : key ∈ minimapIcons.map MinimapIcon.key
  · have notCached := notStays.resolve_left (not_not.mpr listed)
    rw [if_pos listed, lookup_eraseLoop_of_not_cached notCached, ← agrees.record_eq,
      lookup_eq_none.mpr notCached]
  · have noReadings : minimapIcons.filter (·.key = key) = [] := by
      refine List.filter_eq_nil_iff.mpr fun icon isIcon => ?_
      rw [decide_eq_true_eq]
      exact fun same => listed (same ▸ List.mem_map_of_mem isIcon)
    rw [if_neg listed, lookup_eraseLoop_of_not_listed listed, noReadings]
    rfl

/-- A load does what it is for exactly if no icon that stays is disturbed by moving up. -/
theorem agrees_load_iff (agrees : Agrees iconsCache ledger)
    (fresh : ∀ icon ∈ minimapIcons, icon.canGoto = 1) :
    Agrees (loadObjectCache iconsCache minimapIcons) (ledger.load minimapIcons) ↔
      Undisturbed iconsCache minimapIcons := by
  constructor
  · intro agreesAfter s inside stays
    exact (record_stays_iff agrees fresh inside stays).mp (agreesAfter.record_eq _)
  · intro undisturbed
    refine ⟨once_foldl_cacheIcon (once_eraseLoop agrees.once minimapIcons) minimapIcons, ?_⟩
    intro key
    by_cases stays : key ∈ minimapIcons.map MinimapIcon.key ∧ key ∈ iconsCache.map MinimapIcon.key
    · rcases stays with ⟨listed, isCached⟩
      rcases List.mem_map.mp isCached with ⟨cached, inCache, rfl⟩
      rcases List.getElem_of_mem inCache with ⟨s, inside, rfl⟩
      have stays := (isListed_iff iconsCache[s]).mpr listed
      exact (record_stays_iff agrees fresh inside stays).mpr (undisturbed s inside stays)
    · exact record_of_new agrees fresh (not_and_or.mp stays)

end Loading

/-- The cache, the icons it was last loaded with and the ledger. -/
structure CacheState where
  iconsCache : List MinimapIcon
  minimapIcons : List MinimapIcon
  ledger : Ledger

inductive CacheEvent where
  | loadObjectCache (minimapIcons : List MinimapIcon)
  | setCanGoto (dwIndex : ℕ) (canGoto : UInt8)
  | init

namespace CacheState

def start : CacheState where
  iconsCache := []
  minimapIcons := []
  ledger _ := none

/-- The icons of the server are constructed when they are read, so their flags are those of the
constructor. -/
def advance (state : CacheState) : CacheEvent → Option CacheState
  | .loadObjectCache minimapIcons =>
      if ∀ icon ∈ minimapIcons, icon.canGoto = 1 then
        some
          { iconsCache := loadObjectCache state.iconsCache minimapIcons
            minimapIcons
            ledger := state.ledger.load minimapIcons }
      else
        none
  | .setCanGoto dwIndex canGoto =>
      state.iconsCache[dwIndex]?.map fun icon =>
        { state with
          iconsCache := state.iconsCache.set dwIndex { icon with canGoto }
          ledger := state.ledger.setCanGoto icon.key canGoto }
  | .init => some start

def system : StepSystem CacheState CacheEvent where
  initial state := state = start
  step state event next := state.advance event = some next

/-- The condition under which a load does what it is for. -/
def Undisturbed (state : CacheState) : CacheEvent → Prop
  | .loadObjectCache minimapIcons => Attach.Undisturbed state.iconsCache minimapIcons
  | .setCanGoto _ _ => True
  | .init => True

/-- The keys of the cache are those of the last list, each once. -/
structure Keyed (state : CacheState) : Prop where
  once : (state.iconsCache.map MinimapIcon.key).Nodup
  keys : ∀ key, key ∈ state.iconsCache.map MinimapIcon.key ↔
    key ∈ state.minimapIcons.map MinimapIcon.key

/-- The cache has the icons of the last list, each once, with the flag that was set for it and the
last texts that were read for it. -/
structure Synchronised (state : CacheState) : Prop where
  keyed : state.Keyed
  records : ∀ icon ∈ state.iconsCache, state.ledger icon.key = some icon.record

end CacheState

section SettingFlags

variable {iconsCache : List MinimapIcon} {icon : MinimapIcon} {dwIndex : ℕ}

theorem keys_set (found : iconsCache[dwIndex]? = some icon) (canGoto : UInt8) :
    (iconsCache.set dwIndex { icon with canGoto }).map MinimapIcon.key =
      iconsCache.map MinimapIcon.key := by
  rcases List.getElem?_eq_some_iff.mp found with ⟨inside, rfl⟩
  have inKeys : dwIndex < (iconsCache.map MinimapIcon.key).length := by simpa using inside
  have key_eq : MinimapIcon.key { iconsCache[dwIndex] with canGoto } =
      (iconsCache.map MinimapIcon.key)[dwIndex] := by
    rw [List.getElem_map]
    rfl
  rw [List.map_set, key_eq, List.set_getElem_self]

theorem lookup_set (once : (iconsCache.map MinimapIcon.key).Nodup)
    (found : iconsCache[dwIndex]? = some icon) (canGoto : UInt8) (key : String × IVector) :
    lookup (iconsCache.set dwIndex { icon with canGoto }) key =
      if icon.key = key then some { icon with canGoto } else lookup iconsCache key := by
  induction iconsCache generalizing dwIndex with
  | nil => cases found
  | cons cached rest ih =>
      rw [List.map_cons, List.nodup_cons] at once
      cases dwIndex with
      | zero =>
          cases Option.some.inj found
          have key_eq : MinimapIcon.key { icon with canGoto } = icon.key := rfl
          simp only [List.set_cons_zero, lookup, List.find?_cons, key_eq]
          by_cases same : icon.key = key <;> simp [same]
      | succ dwIndex =>
          rw [List.getElem?_cons_succ] at found
          have different : cached.key ≠ icon.key := fun same =>
            once.1 (same ▸ List.mem_map_of_mem (List.mem_of_getElem? found))
          have behind := ih once.2 found
          simp only [List.set_cons_succ, lookup, List.find?_cons] at behind ⊢
          by_cases here : cached.key = key
          · have other : icon.key ≠ key := fun same => different (here.trans same.symm)
            simp only [here, decide_true, if_neg other]
          · simp only [decide_eq_false here, behind]

theorem Agrees.setCanGoto {ledger : Ledger} (agrees : Agrees iconsCache ledger)
    (found : iconsCache[dwIndex]? = some icon) (canGoto : UInt8) :
    Agrees (iconsCache.set dwIndex { icon with canGoto })
      (ledger.setCanGoto icon.key canGoto) where
  once := by
    rw [keys_set found]
    exact agrees.once
  record_eq key := by
    rw [lookup_set agrees.once found, Ledger.setCanGoto]
    by_cases same : icon.key = key
    · subst same
      rcases List.getElem?_eq_some_iff.mp found with ⟨inside, rfl⟩
      rw [if_pos rfl, Function.update_self, ← agrees.record_eq, lookup_getElem agrees.once inside]
      rfl
    · rw [if_neg same, Function.update_of_ne (Ne.symm same), agrees.record_eq]

end SettingFlags

namespace CacheState

variable {state next : CacheState} {event : CacheEvent}

theorem keys_load (iconsCache minimapIcons : List MinimapIcon) (key : String × IVector) :
    key ∈ (loadObjectCache iconsCache minimapIcons).map MinimapIcon.key ↔
      key ∈ minimapIcons.map MinimapIcon.key := by
  have behind : ∀ kept : List MinimapIcon,
      key ∈ (minimapIcons.foldl (fun iconsCache icon => cacheIcon icon iconsCache) kept).map
          MinimapIcon.key ↔
        key ∈ kept.map MinimapIcon.key ∨ key ∈ minimapIcons.map MinimapIcon.key := by
    induction minimapIcons with
    | nil => simp
    | cons icon rest ih =>
        intro kept
        rw [List.foldl_cons, ih, keys_cacheIcon, List.map_cons, List.mem_cons]
        split
        · rename_i isOld
          refine ⟨fun isKey => isKey.imp_right .inr, ?_⟩
          rintro (old | rfl | new)
          · exact .inl old
          · exact .inl isOld
          · exact .inr new
        · rw [List.mem_append, List.mem_singleton, or_assoc]
  rw [loadObjectCache, behind, keys_eraseLoop, List.mem_filter, decide_eq_true_eq]
  exact or_iff_right_of_imp And.right

theorem Keyed.advance (keyed : state.Keyed) (moves : state.advance event = some next) :
    next.Keyed := by
  cases event with
  | loadObjectCache minimapIcons =>
      simp only [CacheState.advance, Option.ite_none_right_eq_some] at moves
      rcases moves with ⟨-, moves⟩
      cases moves
      exact ⟨once_foldl_cacheIcon (once_eraseLoop keyed.once minimapIcons) minimapIcons,
        keys_load state.iconsCache minimapIcons⟩
  | setCanGoto dwIndex canGoto =>
      rcases Option.map_eq_some_iff.mp moves with ⟨icon, found, rfl⟩
      constructor
      · simp only [keys_set found]
        exact keyed.once
      · simp only [keys_set found]
        exact keyed.keys
  | init =>
      cases moves
      exact ⟨List.nodup_nil, fun _ => Iff.rfl⟩

/-- The keys are right in every run, disturbed or not. -/
theorem keyed_of_reachable (reached : system.Reachable state) : state.Keyed := by
  have invariant : system.Invariant Keyed :=
    { initial := by
        rintro _ rfl
        exact ⟨List.nodup_nil, fun _ => Iff.rfl⟩
      step := fun _ _ _ keyed moves => keyed.advance moves }
  exact invariant.of_reachable reached

theorem agrees_advance (agrees : Agrees state.iconsCache state.ledger)
    (undisturbed : state.Undisturbed event) (moves : state.advance event = some next) :
    Agrees next.iconsCache next.ledger := by
  cases event with
  | loadObjectCache minimapIcons =>
      simp only [advance, Option.ite_none_right_eq_some] at moves
      rcases moves with ⟨fresh, moves⟩
      cases moves
      exact (agrees_load_iff agrees fresh).mpr undisturbed
  | setCanGoto dwIndex canGoto =>
      rcases Option.map_eq_some_iff.mp moves with ⟨icon, found, rfl⟩
      exact agrees.setCanGoto found canGoto
  | init =>
      cases moves
      exact ⟨List.nodup_nil, fun _ => rfl⟩

theorem Agrees.records {iconsCache : List MinimapIcon} {ledger : Ledger}
    (agrees : Agrees iconsCache ledger) : ∀ icon ∈ iconsCache, ledger icon.key = some icon.record := by
  intro icon inCache
  rcases List.getElem_of_mem inCache with ⟨s, inside, rfl⟩
  rw [← agrees.record_eq, lookup_getElem agrees.once inside, Option.map_some]

/-- In a run whose loads are all undisturbed the cache stays what it is for. -/
theorem cache_synchronised (reached : (system.restrict Undisturbed).Reachable state) :
    state.Synchronised := by
  have invariant : (system.restrict Undisturbed).Invariant fun state =>
      Agrees state.iconsCache state.ledger :=
    { initial := by
        rintro _ rfl
        exact ⟨List.nodup_nil, fun _ => rfl⟩
      step := fun _ _ _ agrees moves => agrees_advance agrees moves.1 moves.2 }
  exact ⟨keyed_of_reachable reached.of_restrict,
    Agrees.records (invariant.of_reachable reached)⟩

instance (state : CacheState) (event : CacheEvent) : Decidable (state.Undisturbed event) :=
  match event with
  | .loadObjectCache minimapIcons =>
      inferInstanceAs (Decidable (Attach.Undisturbed state.iconsCache minimapIcons))
  | .setCanGoto _ _ | .init => .isTrue trivial

/-- An icon as it is read, at some column. -/
def sampleIcon (name : String) (column : ℤ) : MinimapIcon where
  address := 0
  iconName := "Entrance"
  isValid := 1
  gridPos := ⟨column, 0⟩
  name := name
  path := "path"
  canGoto := 1

/-- Three named entrances; the first one disappears and the last one turns out to be blocked. -/
theorem cache_synchronised_named : ∃ state : CacheState, state.Synchronised ∧
    state.iconsCache.map (fun icon => (icon.name, icon.canGoto)) = [("Cave", 1), ("Den", 0)] := by
  have ends : (StepSystem.play advance Undisturbed start
      [.loadObjectCache [sampleIcon "Mine" 0, sampleIcon "Cave" 1],
        .loadObjectCache [sampleIcon "Cave" 1, sampleIcon "Den" 2], .setCanGoto 1 0]).map
      (fun state => state.iconsCache.map fun icon => (icon.name, icon.canGoto)) =
        some [("Cave", 1), ("Den", 0)] := by
    decide +kernel
  rcases Option.map_eq_some_iff.mp ends with ⟨state, plays, measured⟩
  have reached : (system.restrict Undisturbed).Reachable state :=
    StepSystem.reachable_play (.initial rfl) (fun _ _ _ isAllowed moves => ⟨isAllowed, moves⟩)
      plays
  exact ⟨state, cache_synchronised reached, measured⟩

/-- An entrance whose name was not read gets the name and the flag of one that disappears. -/
theorem cache_not_synchronised : ¬ ∀ state, system.Reachable state → state.Synchronised := by
  intro claimed
  have ends : (StepSystem.play advance (fun _ _ => True) start
      [.loadObjectCache [sampleIcon "Mine" 0, sampleIcon "" 1], .setCanGoto 0 0,
        .loadObjectCache [sampleIcon "" 1]]).map
      (fun state => state.iconsCache.all fun icon => state.ledger icon.key = some icon.record) =
        some false := by
    decide +kernel
  rcases Option.map_eq_some_iff.mp ends with ⟨state, plays, different⟩
  have reached : system.Reachable state :=
    StepSystem.reachable_play (.initial rfl) (fun _ _ _ _ moves => moves) plays
  refine absurd ?_ (Bool.eq_false_iff.mp different)
  simp only [List.all_eq_true, decide_eq_true_eq]
  exact (claimed state reached).records

end CacheState

end PoETask.Attach
