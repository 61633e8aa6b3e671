import PoETask.Attach.Dijkstra
import PoETask.Attach.QuestLogic
import PoETask.Attach.RemoteMemory
import PoETask.Library.PointerChain

/-!
# The lists in the memory of the game

`Entity::GetComponents` and `QuestData::Update` follow a list of nodes, and
`Element::IsVisibleElement` the parents of an element. None of the loops counts its turns:
whether it ends is up to the links.
-/

namespace PoETask.Attach

open PoETask.Library

/-- With the strings at the addresses, up to their terminators. -/
structure TextMemory extends Memory where
  string : UInt64 → List UInt8

theorem length_le_of_nodup {addresses : List UInt64} (different : addresses.Nodup) :
    addresses.length ≤ 2 ^ 64 := by
  have differentNumbers : (addresses.map UInt64.toNat).Nodup :=
    different.map fun _ _ => UInt64.toNat_inj.mp
  have inRange : addresses.map UInt64.toNat ⊆ List.range (2 ^ 64) := by
    intro number isNumber
    rcases List.mem_map.mp isNumber with ⟨address, _, rfl⟩
    exact List.mem_range.mpr address.toNat_lt
  have atMost := (differentNumbers.subperm inRange).length_le
  rwa [List.length_map, List.length_range] at atMost

instance finite_uint64 : Finite UInt64 := Finite.of_injective UInt64.toFin fun _ _ => UInt64.toFin_inj.mp

namespace TextMemory

variable (memory : TextMemory) (address : UInt64)

def readString (addr : UInt64) : List UInt8 := if addr ≠ 0 then memory.string addr else []

def nameAt (addr : UInt64) : List UInt8 := memory.readString (memory.pointer (addr + 0x10))

def componentList : UInt64 := memory.pointer (address + 0x8 + 0x8)

/-- The index is an `int`, and so is its product with the size of a pointer. -/
def componentAddress (addr : UInt64) : UInt64 :=
  let index := (memory.dword (addr + 0x18)).toInt32.toInt
  memory.pointer (memory.componentList address + .ofInt (Int.bmod (index * 8) 0x100000000))

def componentLookup : UInt64 :=
  memory.pointer (memory.pointer (memory.pointer (address + 0x8) + 0x40) + 0x30)

/-- One node of the list; the first component of a name stays. -/
def addComponent (addr : UInt64) (dictionary : List (List UInt8 × UInt64)) :
    List (List UInt8 × UInt64) :=
  let name := memory.nameAt addr
  if dictionary.lookup name = none ∧ name ≠ [] then
    dictionary ++ [(name, memory.componentAddress address addr)]
  else
    dictionary

def componentLoop : ℕ → UInt64 → List (List UInt8 × UInt64) → Option (List (List UInt8 × UInt64))
  | 0, _, _ => none
  | turns + 1, addr, dictionary =>
      if addr ≠ memory.componentLookup address ∧ addr ≠ 0 ∧ addr ≠ 0xFFFFFFFFFFFFFFFF then
        if memory.componentList address = 0 then
          some dictionary
        else
          componentLoop turns (memory.pointer addr) (memory.addComponent address addr dictionary)
      else
        some dictionary

/-- `GetComponents`; none when the loop does not end within the turns. -/
def getComponents (turns : ℕ) : Option (List (List UInt8 × UInt64)) :=
  if address = 0 ∨ memory.pointer (address + 0x8) = 0 ∨
      memory.pointer (memory.pointer (address + 0x8) + 0x40) = 0 then
    some []
  else if memory.componentLookup address = 0 then
    some []
  else
    memory.componentLoop address turns (memory.pointer (memory.componentLookup address)) []

/-- There is a list to be followed, and a table for its components. -/
def HasComponents : Prop :=
  address ≠ 0 ∧ memory.pointer (address + 0x8) ≠ 0 ∧
    memory.pointer (memory.pointer (address + 0x8) + 0x40) ≠ 0 ∧
      memory.componentLookup address ≠ 0 ∧ memory.componentList address ≠ 0

def EndsList (addr : UInt64) : Prop :=
  addr = memory.componentLookup address ∨ addr = 0 ∨ addr = 0xFFFFFFFFFFFFFFFF

instance (addr : UInt64) : Decidable (memory.EndsList address addr) :=
  inferInstanceAs (Decidable (_ ∨ _ ∨ _))

/-- The nodes of the list. -/
def Listed (nodes : List UInt64) : Prop :=
  Chain memory.pointer (memory.EndsList address)
    (memory.pointer (memory.componentLookup address)) nodes

/-- What a name stands for: the component of the first node with the name. -/
def firstListed (nodes : List UInt64) (name : List UInt8) : Option UInt64 :=
  if name = [] then none
  else (nodes.find? fun addr => memory.nameAt addr = name).map (memory.componentAddress address)

variable {memory address}

theorem firstListed_cons (addr : UInt64) (nodes : List UInt64) (name : List UInt8) :
    memory.firstListed address (addr :: nodes) name =
      (memory.firstListed address [addr] name).or (memory.firstListed address nodes name) := by
  simp only [firstListed]
  split
  · rfl
  · by_cases named : memory.nameAt addr = name
    · simp [named]
    · simp [named]

theorem lookup_addComponent (addr : UInt64) (dictionary : List (List UInt8 × UInt64))
    (name : List UInt8) :
    (memory.addComponent address addr dictionary).lookup name =
      (dictionary.lookup name).or (memory.firstListed address [addr] name) := by
  simp only [addComponent, firstListed]
  by_cases named : memory.nameAt addr = name
  · rw [← named]
    cases found : dictionary.lookup (memory.nameAt addr) with
    | some value => simp [found]
    | none =>
        by_cases empty : memory.nameAt addr = []
        · simp [empty, ← empty ▸ found]
        · simp [empty, List.lookup_append, found]
  · have other : name ≠ memory.nameAt addr := fun same => named same.symm
    have single : List.lookup name [(memory.nameAt addr, memory.componentAddress address addr)] =
        none := by
      simp [other]
    split
    · simp [List.lookup_append, single, named]
    · simp [named]

theorem lookup_foldl (nodes : List UInt64) (dictionary : List (List UInt8 × UInt64))
    (name : List UInt8) :
    (nodes.foldl (fun dictionary addr => memory.addComponent address addr dictionary)
      dictionary).lookup name =
        (dictionary.lookup name).or (memory.firstListed address nodes name) := by
  induction nodes generalizing dictionary with
  | nil => simp [firstListed]
  | cons addr nodes ih =>
      rw [List.foldl_cons, ih, lookup_addComponent, firstListed_cons addr nodes, Option.or_assoc]

theorem componentLoop_eq_walk (hasList : memory.componentList address ≠ 0) (turns : ℕ)
    (addr : UInt64) (dictionary : List (List UInt8 × UInt64)) :
    memory.componentLoop address turns addr dictionary =
      walk memory.pointer (memory.EndsList address) (memory.addComponent address) turns addr
        dictionary := by
  induction turns generalizing addr dictionary with
  | zero => rfl
  | succ turns ih =>
      rw [componentLoop, walk, if_neg hasList, ih]
      by_cases ends : memory.EndsList address addr
      · rw [if_pos ends, if_neg]
        rintro ⟨notLookup, notZero, notLast⟩
        rcases ends with same | same | same
        · exact notLookup same
        · exact notZero same
        · exact notLast same
      · rw [if_neg ends, if_pos]
        exact ⟨fun same => ends (.inl same), fun same => ends (.inr (.inl same)),
          fun same => ends (.inr (.inr same))⟩

theorem getComponents_of_not_hasComponents (nothing : ¬memory.HasComponents address) {turns : ℕ}
    (positive : 0 < turns) : memory.getComponents address turns = some [] := by
  rcases Nat.exists_eq_add_of_le' positive with ⟨turns, rfl⟩
  rw [getComponents]
  split
  · rfl
  · rename_i pointers
    split
    · rfl
    · rename_i lookup
      have noList : memory.componentList address = 0 := by
        by_contra hasList
        apply nothing
        exact ⟨fun same => pointers (.inl same), fun same => pointers (.inr (.inl same)),
          fun same => pointers (.inr (.inr same)), lookup, hasList⟩
      rw [componentLoop, if_pos noList, ite_self]

theorem getComponents_of_hasComponents (has : memory.HasComponents address) (turns : ℕ) :
    memory.getComponents address turns =
      walk memory.pointer (memory.EndsList address) (memory.addComponent address) turns
        (memory.pointer (memory.componentLookup address)) [] := by
  rcases has with ⟨notNull, first, second, lookup, hasList⟩
  rw [getComponents, if_neg, if_neg lookup, componentLoop_eq_walk hasList]
  rintro (same | same | same)
  · exact notNull same
  · exact first same
  · exact second same

/-- A list that ends is followed to its end, and a name stands for its first component. -/
theorem getComponents_of_listed (has : memory.HasComponents address) {nodes : List UInt64}
    (listed : memory.Listed address nodes) {turns : ℕ} (enough : nodes.length < turns) :
    ∃ dictionary, memory.getComponents address turns = some dictionary ∧
      ∀ name, dictionary.lookup name = memory.firstListed address nodes name := by
  rw [getComponents_of_hasComponents has, walk_of_chain listed [] enough]
  refine ⟨_, rfl, fun name => ?_⟩
  rw [lookup_foldl]
  rfl

theorem exists_listed_of_isSome (has : memory.HasComponents address) {turns : ℕ}
    (isSome : (memory.getComponents address turns).isSome) :
    ∃ nodes, memory.Listed address nodes := by
  rw [getComponents_of_hasComponents has] at isSome
  rcases Option.isSome_iff_exists.mp isSome with ⟨last, walks⟩
  exact chain_of_walk walks

/-- A name stands for the component that is listed first, and only a list that leads back to a
node before its end keeps the loop from ending. -/
theorem getComponents_firstListed (memory : TextMemory) (address : UInt64) :
    (¬memory.HasComponents address → ∀ turns, 0 < turns →
        memory.getComponents address turns = some []) ∧
      (memory.HasComponents address →
        (∀ nodes, memory.Listed address nodes → nodes.Nodup ∧ ∀ turns, 2 ^ 64 < turns →
          ∃ dictionary, memory.getComponents address turns = some dictionary ∧
            ∀ name, dictionary.lookup name = memory.firstListed address nodes name) ∧
        ((∀ turns, memory.getComponents address turns = none) ↔
          ComesBack memory.pointer (memory.EndsList address)
            (memory.pointer (memory.componentLookup address)))) := by
  refine ⟨fun nothing turns positive => getComponents_of_not_hasComponents nothing positive,
    fun has => ⟨fun nodes listed => ⟨listed.nodup, fun turns enough => ?_⟩, ?_⟩⟩
  · have short := length_le_of_nodup listed.nodup
    exact getComponents_of_listed has listed (short.trans_lt enough)
  · rw [← not_ends_iff]
    constructor
    · rintro none_eq ⟨nodes, listed⟩
      rcases getComponents_of_listed has listed (Nat.lt_succ_self nodes.length) with
        ⟨dictionary, dictionary_eq, -⟩
      cases (none_eq _).symm.trans dictionary_eq
    · intro endless turns
      by_contra ends
      exact endless (exists_listed_of_isSome has (Option.isSome_iff_ne_none.mpr ends))

/-- The list is not followed, or it ends. -/
def ComponentsEnd (memory : TextMemory) (address : UInt64) : Prop :=
  memory.HasComponents address → ∃ nodes, memory.Listed address nodes

/-- A list that ends does so within as many turns as there are addresses. -/
theorem ComponentsEnd.isSome (ends : memory.ComponentsEnd address) {turns : ℕ}
    (enough : 2 ^ 64 < turns) : (memory.getComponents address turns).isSome := by
  by_cases has : memory.HasComponents address
  · rcases ends has with ⟨nodes, listed⟩
    have short := length_le_of_nodup listed.nodup
    rcases getComponents_of_listed has listed (short.trans_lt enough) with
      ⟨dictionary, dictionary_eq, -⟩
    rw [dictionary_eq, Option.isSome_some]
  · rw [getComponents_of_not_hasComponents has (by omega), Option.isSome_some]

theorem componentsEnd_of_isSome {turns : ℕ}
    (isSome : (memory.getComponents address turns).isSome) : memory.ComponentsEnd address :=
  fun has => exists_listed_of_isSome has isSome

end TextMemory

namespace Memory

variable (memory : Memory)

/-! The elements of the user interface. -/

def isVisibleLocal (addr : UInt64) : Bool := memory.byte (addr + 0x111) &&& 4 = 4

def parent (addr : UInt64) : UInt64 := memory.pointer (addr + 0x90)

/-- The loop over the parents; the topmost element is its own parent. -/
def isVisibleElement : ℕ → UInt64 → Option Bool
  | 0, _ => none
  | turns + 1, addr =>
      if addr = 0 then
        some true
      else if memory.isVisibleLocal addr = false then
        some false
      else if memory.parent addr = addr then
        some true
      else if memory.parent addr = 0 then
        some true
      else
        isVisibleElement turns (memory.parent addr)

/-- The assignment of `isVisible` in `Update`; of a hidden element the parents are not asked. -/
def isVisible (address : UInt64) (turns : ℕ) : Option Bool :=
  if memory.isVisibleLocal address then
    memory.isVisibleElement turns (memory.parent address)
  else
    some false

def EndsParents (addr : UInt64) : Prop :=
  addr = 0 ∨ memory.isVisibleLocal addr = false ∨ memory.parent addr = addr

/-- The ancestors of an element, from its parent on. -/
def ancestor (address : UInt64) (i : ℕ) : UInt64 := memory.parent^[i] (memory.parent address)

variable {memory} {addr address : UInt64} {nodes : List UInt64}

theorem isVisibleElement_of_chain (chain : Chain memory.parent memory.EndsParents addr nodes)
    {turns : ℕ} (enough : nodes.length < turns) :
    memory.isVisibleElement turns addr =
      some (decide (memory.parent^[nodes.length] addr = 0 ∨
        memory.isVisibleLocal (memory.parent^[nodes.length] addr) = true)) := by
  induction chain generalizing turns with
  | @stop addr stops =>
      rcases Nat.exists_eq_add_of_le' (Nat.zero_lt_of_lt enough) with ⟨turns, rfl⟩
      simp only [isVisibleElement, List.length_nil, Function.iterate_zero, id_eq]
      rcases stops with isNull | hidden | isTop
      · simp [isNull]
      · by_cases isNull : addr = 0
        · simp [isNull]
        · simp [isNull, hidden]
      · by_cases isNull : addr = 0
        · simp [isNull]
        · by_cases visible : memory.isVisibleLocal addr = true
          · simp [isNull, visible, isTop]
          · simp [isNull, visible]
  | @step addr nodes goesOn rest ih =>
      rcases Nat.exists_eq_add_of_le' (Nat.zero_lt_of_lt enough) with ⟨turns, rfl⟩
      have notNull : addr ≠ 0 := fun same => goesOn (.inl same)
      have visible : ¬memory.isVisibleLocal addr = false := fun same => goesOn (.inr (.inl same))
      have notTop : memory.parent addr ≠ addr := fun same => goesOn (.inr (.inr same))
      have isRest := ih (Nat.lt_of_succ_lt_succ enough)
      rw [isVisibleElement, if_neg notNull, if_neg visible, if_neg notTop, List.length_cons,
        Function.iterate_succ_apply]
      split
      · rename_i isNull
        rw [← isRest, isNull]
        rcases Nat.exists_eq_add_of_le' (Nat.zero_lt_of_lt (Nat.lt_of_succ_lt_succ enough)) with
          ⟨turns, rfl⟩
        rw [isVisibleElement, if_pos rfl]
      · exact isRest

theorem ends_of_isVisibleElement {turns : ℕ} {visible : Bool}
    (ends : memory.isVisibleElement turns addr = some visible) :
    Ends memory.parent memory.EndsParents addr := by
  induction turns generalizing addr with
  | zero => cases ends
  | succ turns ih =>
      by_cases stops : memory.EndsParents addr
      · exact ⟨[], .stop stops⟩
      · have notNull : addr ≠ 0 := fun same => stops (.inl same)
        have shown : ¬memory.isVisibleLocal addr = false := fun same => stops (.inr (.inl same))
        have notTop : memory.parent addr ≠ addr := fun same => stops (.inr (.inr same))
        rw [isVisibleElement, if_neg notNull, if_neg shown, if_neg notTop] at ends
        split at ends
        · rename_i isNull
          exact ⟨[addr], .step stops (.stop (.inl isNull))⟩
        · rcases ih ends with ⟨nodes, rest⟩
          exact ⟨addr :: nodes, .step stops rest⟩

/-- More turns change nothing once the loop has ended. -/
theorem isVisibleElement_more {turns : ℕ} {visible : Bool} (more : ℕ)
    (ends : memory.isVisibleElement turns addr = some visible) :
    memory.isVisibleElement (turns + more) addr = some visible := by
  induction turns generalizing addr with
  | zero => cases ends
  | succ turns ih =>
      rw [Nat.succ_add]
      rw [isVisibleElement] at ends ⊢
      split at ends
      · rename_i isNull
        rwa [if_pos isNull]
      · rename_i notNull
        rw [if_neg notNull]
        split at ends
        · rename_i hidden
          rwa [if_pos hidden]
        · rename_i shown
          rw [if_neg shown]
          split at ends
          · rename_i isTop
            rwa [if_pos isTop]
          · rename_i notTop
            rw [if_neg notTop]
            split at ends
            · rename_i isNull
              rwa [if_pos isNull]
            · rename_i notNull
              rw [if_neg notNull]
              exact ih ends

/-- What the loop says at its end is true of all ancestors. -/
theorem visible_at_end_iff (chain : Chain memory.parent memory.EndsParents addr nodes) :
    (memory.parent^[nodes.length] addr = 0 ∨
        memory.isVisibleLocal (memory.parent^[nodes.length] addr) = true) ↔
      ∀ i, (∀ j ≤ i, memory.parent^[j] addr ≠ 0) →
        memory.isVisibleLocal (memory.parent^[i] addr) = true := by
  rcases chain.iterate with ⟨stops, nodes_eq⟩
  have before : ∀ i < nodes.length, ¬memory.EndsParents (memory.parent^[i] addr) := by
    intro i i_lt
    apply chain.not_stops
    rw [nodes_eq]
    exact List.mem_map_of_mem (List.mem_range.mpr i_lt)
  constructor
  · intro atEnd i notNull
    by_cases i_lt : i < nodes.length
    · exact Bool.eq_true_of_not_eq_false fun hidden => before i i_lt (.inr (.inl hidden))
    · have endNotNull := notNull nodes.length (by omega)
      have endVisible := atEnd.resolve_left endNotNull
      rcases stops with isNull | hidden | isTop
      · exact absurd isNull endNotNull
      · rw [hidden] at endVisible
        cases endVisible
      · have fixed : memory.parent^[i] addr = memory.parent^[nodes.length] addr := by
          rw [← Nat.sub_add_cancel (Nat.le_of_not_lt i_lt), Function.iterate_add_apply,
            Function.iterate_fixed isTop]
        rwa [fixed]
  · intro allVisible
    by_cases isNull : memory.parent^[nodes.length] addr = 0
    · exact .inl isNull
    · refine .inr (allVisible nodes.length fun j j_le same => ?_)
      rcases Nat.lt_or_eq_of_le j_le with less | isEnd
      · exact before j less (.inl same)
      · exact isNull (isEnd ▸ same)

/-- An element is visible when it and all its ancestors are; the loop ends unless the ancestors of
an element that is itself visible lead back to one of them that is not its own parent, all of them
visible. -/
theorem isVisible_iff (memory : Memory) (address : UInt64) :
    (∀ turns visible, memory.isVisible address turns = some visible →
      (visible = true ↔ memory.isVisibleLocal address = true ∧
        ∀ i, (∀ j ≤ i, memory.ancestor address j ≠ 0) →
          memory.isVisibleLocal (memory.ancestor address i) = true)) ∧
      ((∀ turns, 2 ^ 64 < turns → ∃ visible, memory.isVisible address turns = some visible) ∨
        memory.isVisibleLocal address = true ∧
          ComesBack memory.parent memory.EndsParents (memory.parent address) ∧
            ∀ turns, memory.isVisible address turns = none) := by
  by_cases isLocal : memory.isVisibleLocal address = true
  · simp only [isVisible, isLocal, if_true, true_and]
    constructor
    · intro turns visible above_eq
      rcases ends_of_isVisibleElement above_eq with ⟨nodes, chain⟩
      have later := isVisibleElement_more (nodes.length + 1) above_eq
      rw [isVisibleElement_of_chain chain (by omega)] at later
      rw [← Option.some.inj later, decide_eq_true_iff, visible_at_end_iff chain]
      rfl
    · by_cases ends : Ends memory.parent memory.EndsParents (memory.parent address)
      · rcases ends with ⟨nodes, chain⟩
        refine .inl fun turns enough => ?_
        have short := length_le_of_nodup chain.nodup
        rw [isVisibleElement_of_chain chain (short.trans_lt enough)]
        exact ⟨_, rfl⟩
      · refine .inr ⟨not_ends_iff.mp ends, fun turns => ?_⟩
        by_contra isSome
        rcases Option.ne_none_iff_exists'.mp isSome with ⟨visible, visible_eq⟩
        exact ends (ends_of_isVisibleElement visible_eq)
  · have hidden : ∀ turns, memory.isVisible address turns = some false := fun _ => if_neg isLocal
    constructor
    · intro turns visible isVisible_eq
      obtain rfl : false = visible := Option.some.inj ((hidden turns).symm.trans isVisible_eq)
      exact iff_of_false Bool.false_ne_true fun shown => isLocal shown.1
    · exact .inl fun turns _ => ⟨false, hidden turns⟩

/-! The quests. -/

/-- The nodes of the list up to the last one. -/
def questLoop (memory : Memory) (last : UInt64) : ℕ → UInt64 → List UInt64 → Option (List UInt64)
  | 0, _, _ => none
  | turns + 1, addr, quests =>
      if addr ≠ 0 then
        let quests := quests ++ [addr]
        if addr = last then some quests
        else questLoop memory last turns (memory.pointer addr) quests
      else
        some quests

/-- `QuestData::Update`: what is read at the nodes, sorted by `CompareQuestResource`. -/
def questData (memory : Memory) (std : StdAlgorithms Quest ℤ) (readQuest : UInt64 → Quest)
    (address : UInt64) (quests : List Quest) (turns : ℕ) : Option (List Quest) :=
  if address = 0 then
    some quests
  else
    (memory.questLoop (memory.pointer (address + 0x8)) turns (memory.pointer address) []).map
      fun addrs => std.sort (fun quest => quest.key) (addrs.map readQuest)

/-- The node after the last one does not count. -/
def nextQuest (memory : Memory) (last addr : UInt64) : UInt64 :=
  if addr = last then 0 else memory.pointer addr

/-- The nodes with the quests. -/
def QuestNodes (memory : Memory) (address : UInt64) (nodes : List UInt64) : Prop :=
  Chain (memory.nextQuest (memory.pointer (address + 0x8))) (· = 0) (memory.pointer address) nodes

theorem questLoop_of_chain {last : UInt64}
    (chain : Chain (memory.nextQuest last) (· = 0) addr nodes)
    (quests : List UInt64) {turns : ℕ} (enough : nodes.length < turns) :
    memory.questLoop last turns addr quests = some (quests ++ nodes) := by
  induction chain generalizing quests turns with
  | @stop addr isNull =>
      rcases Nat.exists_eq_add_of_le' (Nat.zero_lt_of_lt enough) with ⟨turns, rfl⟩
      rw [questLoop, if_neg (not_not.mpr isNull), List.append_nil]
  | @step addr nodes notNull rest ih =>
      rcases Nat.exists_eq_add_of_le' (Nat.zero_lt_of_lt enough) with ⟨turns, rfl⟩
      have isRest := ih (quests ++ [addr]) (Nat.lt_of_succ_lt_succ enough)
      rw [questLoop, if_pos notNull]
      by_cases isLast : addr = last
      · simp only [nextQuest, if_pos isLast] at rest
        cases rest with
        | stop => rw [if_pos isLast]
        | step notZero => exact absurd rfl notZero
      · rw [nextQuest, if_neg isLast] at isRest
        rw [if_neg isLast, isRest, List.append_assoc]
        rfl

theorem ends_of_questLoop {last : UInt64} {quests found : List UInt64} {turns : ℕ}
    (ends : memory.questLoop last turns addr quests = some found) :
    Ends (memory.nextQuest last) (· = 0) addr := by
  induction turns generalizing addr quests with
  | zero => cases ends
  | succ turns ih =>
      rw [questLoop] at ends
      split at ends
      · rename_i notNull
        by_cases isLast : addr = last
        · have stops : memory.nextQuest last addr = 0 := if_pos isLast
          exact ⟨[addr], .step notNull (.stop stops)⟩
        · simp only [if_neg isLast] at ends
          have next_eq : memory.nextQuest last addr = memory.pointer addr := if_neg isLast
          rcases ih ends with ⟨nodes, rest⟩
          rw [← next_eq] at rest
          exact ⟨addr :: nodes, .step notNull rest⟩
      · rename_i isNull
        exact ⟨[], .stop (Decidable.not_not.mp isNull)⟩

/-- Every node up to the last one gives one quest, and the quests are sorted by their keys; only a
list that leads back to a node before the last one keeps the loop from ending. -/
theorem questData_sorted (memory : Memory) (std : StdAlgorithms Quest ℤ)
    (readQuest : UInt64 → Quest) (address : UInt64) (quests : List Quest) :
    (address = 0 → ∀ turns, memory.questData std readQuest address quests turns = some quests) ∧
      (address ≠ 0 →
        (∃ nodes, nodes.Nodup ∧ memory.QuestNodes address nodes ∧ ∀ turns, 2 ^ 64 < turns →
          ∃ sorted, memory.questData std readQuest address quests turns = some sorted ∧
            sorted.Perm (nodes.map readQuest) ∧
              sorted.Pairwise fun first second => first.key ≤ second.key) ∨
        ComesBack (memory.nextQuest (memory.pointer (address + 0x8))) (· = 0)
            (memory.pointer address) ∧
          ∀ turns, memory.questData std readQuest address quests turns = none) := by
  refine ⟨fun isNull turns => if_pos isNull, fun notNull => ?_⟩
  by_cases ends : Ends (memory.nextQuest (memory.pointer (address + 0x8))) (· = 0)
      (memory.pointer address)
  · rcases ends with ⟨nodes, chain⟩
    refine .inl ⟨nodes, chain.nodup, chain, fun turns enough => ?_⟩
    have short := length_le_of_nodup chain.nodup
    have sorted := std.sort_sorted (fun quest : Quest => (quest.key : WithTop ℤ))
      (nodes.map readQuest)
    rw [questData, if_neg notNull, questLoop_of_chain chain [] (short.trans_lt enough)]
    exact ⟨_, rfl, std.sort_perm _ _, sorted.imp fun le => WithTop.coe_le_coe.mp le⟩
  · refine .inr ⟨not_ends_iff.mp ends, fun turns => ?_⟩
    rw [questData, if_neg notNull, Option.map_eq_none_iff]
    by_contra isSome
    rcases Option.ne_none_iff_exists'.mp isSome with ⟨found, found_eq⟩
    exact ends (ends_of_questLoop found_eq)

end Memory

end PoETask.Attach
