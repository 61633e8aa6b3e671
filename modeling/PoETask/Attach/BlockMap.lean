import PoETask.Attach.Geometry
import Mathlib.Data.List.Count
import Mathlib.Data.List.GetD
import Mathlib.Logic.Relation
import Mathlib.Tactic.Linarith

/-!
# The block map

The walkability map of an area, a byte a cell in rows of `width` cells. Reads beyond the
buffer count as blocked: the scans of the path functions admit the row after the last one.
-/

namespace PoETask.Attach

abbrev BYTE := UInt8

/-- The byte of a blocked cell (`nBk`): every caller passes 255. -/
def blocked : BYTE := 255

structure BlockMap where
  mapWidth : ℕ
  mapHeight : ℕ
  blockBuffer : List BYTE
  size : blockBuffer.length = mapWidth * mapHeight

def readByte (buffer : List BYTE) (index : ℤ) : BYTE :=
  buffer.getD index.toNat blocked

namespace BlockMap

variable (map : BlockMap)

def index (c : IVector) : ℤ :=
  c.y * map.mapWidth + c.x

def cell (c : IVector) : BYTE :=
  readByte map.blockBuffer (map.index c)

def Inside (c : IVector) : Prop :=
  0 ≤ c.x ∧ c.x < map.mapWidth ∧ 0 ≤ c.y ∧ c.y < map.mapHeight

instance (c : IVector) : Decidable (map.Inside c) :=
  inferInstanceAs (Decidable (_ ∧ _ ∧ _ ∧ _))

def Passable (c : IVector) : Prop :=
  map.Inside c ∧ map.cell c = 0

instance (c : IVector) : Decidable (map.Passable c) :=
  inferInstanceAs (Decidable (_ ∧ _))

/-- A cell that is not blocked, whatever its byte. -/
def Open (c : IVector) : Prop :=
  map.Inside c ∧ map.cell c ≠ blocked

instance (c : IVector) : Decidable (map.Open c) :=
  inferInstanceAs (Decidable (_ ∧ _))

end BlockMap

/-- Two different cells that touch by an edge or a corner. -/
def Neighbours (u v : IVector) : Prop :=
  u ≠ v ∧ |v.x - u.x| ≤ 1 ∧ |v.y - u.y| ≤ 1

instance (u v : IVector) : Decidable (Neighbours u v) :=
  inferInstanceAs (Decidable (_ ∧ _ ∧ _))

namespace BlockMap

variable (map : BlockMap)

/-- A step from a passable cell to a passable neighbour. -/
def Walks (u v : IVector) : Prop :=
  map.Passable u ∧ map.Passable v ∧ Neighbours u v

def Connected (u v : IVector) : Prop :=
  Relation.ReflTransGen map.Walks u v

variable {map}

theorem Connected.passable {u v : IVector} (connected : map.Connected u v)
    (isPassable : map.Passable u) : map.Passable v := by
  cases connected with
  | refl => exact isPassable
  | tail _ walks => exact walks.2.1

theorem index_inj {u v : IVector} (uLeft : 0 ≤ u.x) (uRight : u.x < map.mapWidth)
    (vLeft : 0 ≤ v.x) (vRight : v.x < map.mapWidth)
    (sameIndex : map.index u = map.index v) : u = v := by
  have sameRow : u.y = v.y := by
    simp only [index] at sameIndex
    rcases lt_trichotomy u.y v.y with below | same | above
    · have := mul_le_mul_of_nonneg_right (Int.add_one_le_iff.mpr below)
        (Int.natCast_nonneg map.mapWidth)
      linarith
    · exact same
    · have := mul_le_mul_of_nonneg_right (Int.add_one_le_iff.mpr above)
        (Int.natCast_nonneg map.mapWidth)
      linarith
  have sameColumn : u.x = v.x := by
    simp only [index, sameRow] at sameIndex
    linarith
  cases u
  cases v
  simp only [IVector.mk.injEq]
  exact ⟨sameColumn, sameRow⟩

theorem index_nonneg {c : IVector} (left : 0 ≤ c.x) (bottom : 0 ≤ c.y) : 0 ≤ map.index c :=
  add_nonneg (mul_nonneg bottom (Int.natCast_nonneg _)) left

theorem Passable.notBlocked {c : IVector} (isPassable : map.Passable c) :
    map.cell c ≠ blocked := by
  simp only [isPassable.2]
  decide

theorem Inside.notEmpty {c : IVector} (inside : map.Inside c) :
    ¬ (map.mapWidth = 0 ∨ map.mapHeight = 0) := by
  rcases inside with ⟨left, right, bottom, top⟩
  omega

theorem inside_natCast {x y : ℕ} (column : x < map.mapWidth) (row : y < map.mapHeight) :
    map.Inside ⟨x, y⟩ := by
  refine ⟨?_, ?_, ?_, ?_⟩ <;> dsimp only <;> omega

theorem toNat_index_natCast (map : BlockMap) (x y : ℕ) :
    (map.index ⟨x, y⟩).toNat = y * map.mapWidth + x := by
  simp only [index]
  norm_cast

theorem Inside.index_nonneg {c : IVector} (inside : map.Inside c) : 0 ≤ map.index c :=
  BlockMap.index_nonneg inside.1 inside.2.2.1

theorem Inside.index_lt {c : IVector} (inside : map.Inside c) :
    (map.index c).toNat < map.blockBuffer.length := by
  have rows := mul_le_mul_of_nonneg_right (Int.add_one_le_iff.mpr inside.2.2.2)
    (Int.natCast_nonneg map.mapWidth)
  have small : map.index c < (map.mapWidth * map.mapHeight : ℕ) := by
    push_cast
    simp only [index]
    linarith [inside.2.1]
  have := inside.index_nonneg
  have := map.size
  omega

theorem Inside.decode {c : IVector} (inside : map.Inside c) :
    (⟨(map.index c).tmod map.mapWidth, (map.index c).tdiv map.mapWidth⟩ : IVector) = c := by
  have column : map.index c % map.mapWidth = c.x := by
    simp only [index, Int.mul_add_emod_self_right]
    exact Int.emod_eq_of_lt inside.1 inside.2.1
  have row : map.index c / map.mapWidth = c.y := by
    have positive : (map.mapWidth : ℤ) ≠ 0 := by
      have := inside.1
      have := inside.2.1
      omega
    rw [index, add_comm, Int.add_mul_ediv_right _ _ positive,
      Int.ediv_eq_zero_of_lt inside.1 inside.2.1, zero_add]
  rw [Int.tmod_eq_emod_of_nonneg inside.index_nonneg, column,
    Int.tdiv_eq_ediv_of_nonneg inside.index_nonneg, row]

/-- The rows above the map lie behind the buffer. -/
theorem length_le_index {c : IVector} (left : 0 ≤ c.x) (above : (map.mapHeight : ℤ) ≤ c.y) :
    map.blockBuffer.length ≤ (map.index c).toNat := by
  have rows := mul_le_mul_of_nonneg_right above (Int.natCast_nonneg map.mapWidth)
  have large : ((map.mapWidth * map.mapHeight : ℕ) : ℤ) ≤ map.index c := by
    push_cast
    simp only [index]
    linarith
  have := map.size
  omega

/-- A byte other than `blocked` at a column of the map is inside the map. -/
theorem inside_of_cell {c : IVector} (left : 0 ≤ c.x) (right : c.x < map.mapWidth)
    (bottom : 0 ≤ c.y) (open' : map.cell c ≠ blocked) : map.Inside c := by
  refine ⟨left, right, bottom, ?_⟩
  by_contra above
  apply open'
  exact List.getD_eq_default _ _ (length_le_index left (not_lt.mp above))

end BlockMap

theorem readByte_set {buffer : List BYTE} {written index : ℤ} (nonneg : 0 ≤ written)
    (indexNonneg : 0 ≤ index) (inBuffer : written.toNat < buffer.length) (byte : BYTE) :
    readByte (buffer.set written.toNat byte) index
      = if index = written then byte else readByte buffer index := by
  simp only [readByte, List.getD_eq_getElem?_getD, List.getElem?_set]
  by_cases same : index = written
  · simp [same, inBuffer]
  · have different : written.toNat ≠ index.toNat := by omega
    simp [same, different]

end PoETask.Attach
