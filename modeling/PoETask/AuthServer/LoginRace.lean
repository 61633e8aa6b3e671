import PoETask.AuthServer.Consistency

/-!
# Two logins at once

Packets of different sessions are handled on several threads, and only the single
operations on the map and on a vector of ids are guarded. This file models two runs of
`HandleLogin` step by step, one operation on the map, one operation on a vector or one
check for emptiness at a time, and finds out which interleavings keep the promise of
`CheckAnotherLogin` that an account is held by one session.

The accounts of a run are those that the database lets in. Dereferencing `NULL`, a range of
two vectors and an iterator into a vector that has changed since are faults.
-/

namespace PoETask.AuthServer

open PoETask.Library

/-- The two runs. -/
inductive Side where
  | first
  | second
  deriving DecidableEq

def Side.other : Side → Side
  | first => second
  | second => first

/-- An iterator: the session whose vector it points into, and the vector at that time. -/
structure Range where
  vector : SessionPtr
  contents : List AccountId
  deriving DecidableEq

/-- The next operation of a run, with the values it holds. -/
inductive Pc where
  | empty
  | next
  | find (nId : AccountId)
  | compare (nId : AccountId)
  | relogin (nId : AccountId)
  | duplicate (nId : AccountId)
  | send (nId : AccountId)
  | rangeBegin (nId : AccountId)
  | rangeEnd (nId : AccountId) (range : Range)
  | search (nId : AccountId) (range last : Range)
  | endRead (nId : AccountId) (range : Range) (pos : ℕ)
  | checkEnd (nId : AccountId) (range : Range) (pos : ℕ) (session : SessionPtr)
  | eraseRead (nId : AccountId) (range : Range) (pos : ℕ)
  | erase (nId : AccountId) (range : Range) (pos : ℕ) (session : SessionPtr)
  | remove (nId : AccountId)
  | pushBack (nId : AccountId)
  | setAt (nId : AccountId)
  | finished
  deriving DecidableEq

/-- A run of `HandleLogin`: the accounts still to come and those already acknowledged. -/
structure Run where
  session : SessionPtr
  accounts : List AccountId
  acknowledged : List AccountId
  pc : Pc

structure Race where
  sessionmap : AccountId → Option SessionPtr
  ids : SessionPtr → List AccountId
  run : Side → Run

namespace Race

def set (race : Race) (side : Side) (run : Run) : Race :=
  { race with run := Function.update race.run side run }

def goto (race : Race) (side : Side) (pc : Pc) : Race :=
  race.set side { race.run side with pc := pc }

/-- An operation that dereferences `sessionmap[nId]`. -/
def deref (race : Race) (nId : AccountId) (goOn : SessionPtr → Race) : Option Race :=
  (race.sessionmap nId).map goOn

/-- One operation of a run; `none` is a fault. -/
def step (race : Race) (side : Side) : Option Race :=
  let run := race.run side
  match run.pc with
  | .empty => some (race.goto side (if race.ids run.session = [] then .next else .finished))
  | .next =>
      match run.accounts with
      | [] => some (race.goto side .finished)
      | nId :: later =>
          some (race.set side { run with accounts := later, pc := .find nId })
  | .find nId =>
      some (race.goto side (if race.sessionmap nId = none then .pushBack nId else .compare nId))
  | .compare nId =>
      some (race.goto side
        (if race.sessionmap nId = some run.session then .relogin nId else .duplicate nId))
  | .relogin nId => race.deref nId fun _ => race.goto side (.pushBack nId)
  | .duplicate nId => race.deref nId fun _ => race.goto side (.send nId)
  | .send nId => some (race.goto side (.rangeBegin nId))
  | .rangeBegin nId =>
      race.deref nId fun session => race.goto side (.rangeEnd nId ⟨session, race.ids session⟩)
  | .rangeEnd nId range =>
      race.deref nId fun session => race.goto side (.search nId range ⟨session, race.ids session⟩)
  | .search nId range last =>
      if range = last ∧ range.contents = race.ids range.vector then
        some (race.goto side (.endRead nId range (range.contents.idxOf nId)))
      else none
  | .endRead nId range pos =>
      race.deref nId fun session => race.goto side (.checkEnd nId range pos session)
  | .checkEnd nId range pos session =>
      if session = range.vector ∧ range.contents = race.ids session then
        some (race.goto side
          (if pos = (race.ids session).length then .remove nId else .eraseRead nId range pos))
      else none
  | .eraseRead nId range pos =>
      race.deref nId fun session => race.goto side (.erase nId range pos session)
  | .erase nId range pos session =>
      if session = range.vector ∧ range.contents = race.ids session then
        some { race.goto side (.remove nId) with
          ids := Function.update race.ids session ((race.ids session).eraseIdx pos) }
      else none
  | .remove nId =>
      some { race.goto side (.pushBack nId) with
        sessionmap := Function.update race.sessionmap nId none }
  | .pushBack nId =>
      some { race.goto side (.setAt nId) with
        ids := Function.update race.ids run.session (race.ids run.session ++ [nId]) }
  | .setAt nId =>
      some { race.set side { run with acknowledged := run.acknowledged ++ [nId], pc := .next } with
        sessionmap := Function.update race.sessionmap nId (some run.session) }
  | .finished => some race

end Race

inductive Stage where
  | running (race : Race)
  | faulted

def Stage.advance (stage : Stage) (side : Side) : Stage :=
  match stage with
  | .faulted => .faulted
  | .running race =>
      match race.step side with
      | some next => .running next
      | none => .faulted

def Race.Starts (race : Race) : Prop :=
  ∃ server, Server.system.Reachable server ∧ race.sessionmap = server.sessionmap ∧
    race.ids = server.idsOf ∧
    (race.run .first).session ≠ (race.run .second).session ∧
    ∀ side, (race.run side).session ∈ server.storage.list ∧ (race.run side).pc = .empty ∧
      (race.run side).acknowledged = []

def loginRace : StepSystem Stage Side where
  initial stage := ∃ race, stage = .running race ∧ race.Starts
  step stage side next := next = stage.advance side

namespace Race

/-- The account is held by exactly one of the two sessions, and the map leads to that one. -/
def HeldByOne (race : Race) (nId : AccountId) : Prop :=
  ∃ side, race.sessionmap nId = some (race.run side).session ∧
    nId ∈ race.ids (race.run side).session ∧ nId ∉ race.ids (race.run side.other).session

def BothLoggedIn (race : Race) (nId : AccountId) : Prop :=
  ∀ side, (race.run side).pc = .finished ∧ nId ∈ (race.run side).acknowledged

end Race

namespace Pc

/-- Between the successful search in the map and the eviction. -/
def Looking (nId : AccountId) : Pc → Prop
  | compare other | duplicate other | send other | rangeBegin other => other = nId
  | _ => False

/-- From the beginning of the eviction to the removal from the map. -/
def Evicting (nId : AccountId) : Pc → Prop
  | rangeEnd other _ | search other _ _ | endRead other _ _ | checkEnd other _ _ _
  | eraseRead other _ _ | erase other _ _ _ | remove other => other = nId
  | _ => False

/-- From the removal, or the search that found nothing, to the insertion. -/
def Cleared (nId : AccountId) : Pc → Prop
  | pushBack other | setAt other => other = nId
  | _ => False

def Core (nId : AccountId) (pc : Pc) : Prop :=
  pc.Evicting nId ∨ pc.Cleared nId

/-- Before the first read of an eviction, or after an insertion. -/
def Outside : Pc → Prop
  | rangeEnd _ _ | search _ _ _ | endRead _ _ _ | checkEnd _ _ _ _ | eraseRead _ _ _
  | erase _ _ _ _ | remove _ | pushBack _ | setAt _ => False
  | _ => True

theorem Outside.not_core {pc : Pc} (outside : pc.Outside) (nId : AccountId) :
    ¬ pc.Core nId := by
  cases pc <;> simp_all [Outside, Core, Evicting, Cleared]

def range : Pc → Option Range
  | rangeEnd _ range | search _ range _ | endRead _ range _ | checkEnd _ range _ _
  | eraseRead _ range _ | erase _ range _ _ => some range
  | _ => none

end Pc

/-- The condition on an operation: it does not look an account up while the other run has
removed it and not yet inserted it, does not find its own session, does not begin an eviction
while the other run is in its own, and leaves alone the vectors that the other run iterates. -/
def Race.Calm (race : Race) (side : Side) : Prop :=
  let rival := (race.run side.other).pc
  match (race.run side).pc with
  | .find nId => ¬ rival.Cleared nId
  | .compare nId => race.sessionmap nId ≠ some (race.run side).session
  | .duplicate nId => ¬ rival.Cleared nId
  | .rangeBegin nId => ¬ rival.Core nId
  | .erase _ _ _ session => rival.range.map Range.vector ≠ some session
  | .pushBack _ => rival.range.map Range.vector ≠ some (race.run side).session
  | _ => True

def Stage.Calm : Stage → Side → Prop
  | .running race, side => race.Calm side
  | .faulted, _ => True

def Settled (sessionmap : AccountId → Option SessionPtr) (ids : SessionPtr → List AccountId)
    (nId : AccountId) : Prop :=
  ∀ session, sessionmap nId = some session ↔ nId ∈ ids session

/-- An iterator into the vector of the session that holds the account. -/
structure Evicts (sessionmap : AccountId → Option SessionPtr) (ids : SessionPtr → List AccountId)
    (nId : AccountId) (range : Range) : Prop where
  settled : Settled sessionmap ids nId
  found : sessionmap nId = some range.vector
  current : range.contents = ids range.vector

/-- What holds of map and vectors where a run is. -/
def Pc.Local (pc : Pc) (sessionmap : AccountId → Option SessionPtr)
    (ids : SessionPtr → List AccountId) (session : SessionPtr) (rival : Pc) : Prop :=
  match pc with
  | compare nId | duplicate nId | send nId | rangeBegin nId =>
      sessionmap nId ≠ none ∨ rival.Cleared nId
  | relogin _ => False
  | rangeEnd nId range => Evicts sessionmap ids nId range
  | search nId range last => Evicts sessionmap ids nId range ∧ last = range
  | endRead nId range pos | eraseRead nId range pos =>
      Evicts sessionmap ids nId range ∧ pos = range.contents.idxOf nId
  | checkEnd nId range pos found | erase nId range pos found =>
      Evicts sessionmap ids nId range ∧ pos = range.contents.idxOf nId ∧ found = range.vector
  | remove nId => sessionmap nId ≠ none ∧ ∀ holder, nId ∉ ids holder
  | pushBack nId => sessionmap nId = none ∧ ∀ holder, nId ∉ ids holder
  | setAt nId => sessionmap nId = none ∧ ∀ holder, nId ∈ ids holder ↔ holder = session
  | empty | next | find _ | finished => True

/-- The invariant of the calm interleavings. -/
structure Race.Orderly (race : Race) : Prop where
  distinct : ∀ side : Side, (race.run side).session ≠ (race.run side.other).session
  nodup : ∀ session, (race.ids session).Nodup
  exclusive : ∀ side nId, (race.run side).pc.Core nId → ¬ (race.run side.other).pc.Core nId
  settled : ∀ nId, (∀ side, ¬ (race.run side).pc.Core nId) →
    Settled race.sessionmap race.ids nId
  held : ∀ side nId, nId ∈ (race.run side).acknowledged →
    (∃ owner, race.sessionmap nId = some (race.run owner).session)
      ∨ ∃ owner, (race.run owner).pc.Core nId
  atPc : ∀ side, (race.run side).pc.Local race.sessionmap race.ids (race.run side).session
    (race.run side.other).pc

section Frame

variable {sessionmap sessionmap' : AccountId → Option SessionPtr}
variable {ids ids' : SessionPtr → List AccountId} {nId : AccountId}

theorem Settled.congr (settled : Settled sessionmap ids nId)
    (sameMap : sessionmap' nId = sessionmap nId)
    (sameIds : ∀ session, nId ∈ ids' session ↔ nId ∈ ids session) :
    Settled sessionmap' ids' nId := by
  intro session
  simp only [sameMap, sameIds]
  exact settled session

theorem Evicts.congr {range : Range} (evicts : Evicts sessionmap ids nId range)
    (sameMap : sessionmap' nId = sessionmap nId)
    (sameIds : ∀ session, nId ∈ ids' session ↔ nId ∈ ids session)
    (sameRange : ids' range.vector = ids range.vector) : Evicts sessionmap' ids' nId range where
  settled := evicts.settled.congr sameMap sameIds
  found := sameMap.trans evicts.found
  current := evicts.current.trans sameRange.symm

/-- What a run knows survives the operations of the other one. -/
theorem Pc.Local.frame {pc rival rival' : Pc} {session : SessionPtr}
    (holds : pc.Local sessionmap ids session rival)
    (sameMap : ∀ nId, pc.Core nId → sessionmap' nId = sessionmap nId)
    (sameIds : ∀ nId, pc.Core nId → ∀ holder, nId ∈ ids' holder ↔ nId ∈ ids holder)
    (sameRange : ∀ range, pc.range = some range → ids' range.vector = ids range.vector)
    (looking : ∀ nId, sessionmap nId ≠ none ∨ rival.Cleared nId → pc.Looking nId →
      sessionmap' nId ≠ none ∨ rival'.Cleared nId) :
    pc.Local sessionmap' ids' session rival' := by
  cases pc with
  | compare nId | duplicate nId | send nId | rangeBegin nId => exact looking nId holds rfl
  | relogin nId => exact holds.elim
  | rangeEnd nId range =>
      exact holds.congr (sameMap nId (.inl rfl)) (sameIds nId (.inl rfl)) (sameRange range rfl)
  | search nId range last | endRead nId range pos | checkEnd nId range pos found
  | eraseRead nId range pos | erase nId range pos found =>
      exact holds.imp_left fun evicts =>
        evicts.congr (sameMap nId (.inl rfl)) (sameIds nId (.inl rfl)) (sameRange range rfl)
  | remove nId =>
      simp only [Pc.Local, sameMap nId (.inl rfl), sameIds nId (.inl rfl)]
      exact holds
  | pushBack nId | setAt nId =>
      simp only [Pc.Local, sameMap nId (.inr rfl), sameIds nId (.inr rfl)]
      exact holds
  | empty | next | find nId | finished => exact trivial

end Frame

namespace Side

@[simp] theorem other_other (side : Side) : side.other.other = side := by
  cases side <;> rfl

@[simp] theorem other_ne (side : Side) : side.other ≠ side := by
  cases side <;> decide

theorem eq_or_eq_other (side owner : Side) : owner = side ∨ owner = side.other := by
  cases side <;> cases owner <;> decide

end Side

namespace Race

variable {race : Race} {side : Side} {pc : Pc}

@[simp] theorem set_run (race : Race) (side : Side) (run : Run) :
    (race.set side run).run side = run :=
  Function.update_self _ _ _

@[simp] theorem set_run_other (race : Race) (side : Side) (run : Run) :
    (race.set side run).run side.other = race.run side.other :=
  Function.update_of_ne side.other_ne _ _

/-- The invariant after an operation of a run, from what the operation does to map and vectors. -/
theorem Orderly.operate (orderly : race.Orderly) (side : Side) {next : Race}
    (session : (next.run side).session = (race.run side).session)
    (rival : next.run side.other = race.run side.other)
    (nodup : ∀ holder, (next.ids holder).Nodup)
    (exclusive : ∀ nId, (next.run side).pc.Core nId → ¬ (race.run side.other).pc.Core nId)
    (settled : ∀ nId, ¬ (next.run side).pc.Core nId → ¬ (race.run side.other).pc.Core nId →
      Settled next.sessionmap next.ids nId)
    (held : ∀ owner nId, nId ∈ (next.run owner).acknowledged →
      (∃ owner, next.sessionmap nId = some (race.run owner).session)
        ∨ ∃ owner, (next.run owner).pc.Core nId)
    (atPc : (next.run side).pc.Local next.sessionmap next.ids (race.run side).session
      (race.run side.other).pc)
    (atRival : (race.run side.other).pc.Local next.sessionmap next.ids
      (race.run side.other).session (next.run side).pc) : next.Orderly := by
  have sameSession : ∀ owner, (next.run owner).session = (race.run owner).session := by
    intro owner
    rcases side.eq_or_eq_other owner with isSide | isOther
    · simp only [isSide, session]
    · simp only [isOther, rival]
  constructor
  case distinct =>
    intro owner
    rw [sameSession, sameSession]
    exact orderly.distinct owner
  case nodup => exact nodup
  case exclusive =>
    intro owner nId isCore
    rcases side.eq_or_eq_other owner with isSide | isOther
    · simp only [isSide, rival]
      simp only [isSide] at isCore
      exact exclusive nId isCore
    · simp only [isOther, Side.other_other]
      simp only [isOther, rival] at isCore
      exact fun isCore' => exclusive nId isCore' isCore
  case settled =>
    intro nId noCore
    apply settled nId (noCore side)
    rw [← rival]
    exact noCore side.other
  case held =>
    intro owner nId isAcknowledged
    rcases held owner nId isAcknowledged with ⟨holder, isHeld⟩ | isCore
    · exact .inl ⟨holder, by rw [sameSession, isHeld]⟩
    · exact .inr isCore
  case atPc =>
    intro owner
    simp only [sameSession]
    rcases side.eq_or_eq_other owner with isSide | isOther
    · simp only [isSide, rival]
      exact atPc
    · simp only [isOther, Side.other_other, rival]
      exact atRival

/-- An operation that only reads. -/
theorem Orderly.read (orderly : race.Orderly) {run : Run}
    (sameSession : run.session = (race.run side).session)
    (sameAcknowledged : run.acknowledged = (race.run side).acknowledged)
    (notCleared : ∀ nId, ¬ (race.run side).pc.Cleared nId)
    (keepsCore : ∀ nId, (race.run side).pc.Core nId → run.pc.Core nId)
    (exclusive : ∀ nId, run.pc.Core nId → ¬ (race.run side.other).pc.Core nId)
    (atPc : run.pc.Local race.sessionmap race.ids (race.run side).session
      (race.run side.other).pc) : (race.set side run).Orderly := by
  have staysCore : ∀ owner nId, (race.run owner).pc.Core nId →
      ((race.set side run).run owner).pc.Core nId := by
    intro owner nId isCore
    rcases side.eq_or_eq_other owner with isSide | isOther
    · simp only [isSide] at isCore ⊢
      simp only [set_run]
      exact keepsCore nId isCore
    · simp only [isOther, set_run_other]
      exact isOther ▸ isCore
  apply orderly.operate side
  · simp only [set_run, sameSession]
  · simp only [set_run_other]
  · exact orderly.nodup
  · simp only [set_run]
    exact exclusive
  · intro nId notCore rivalNotCore
    apply orderly.settled
    intro owner isCore
    rcases side.eq_or_eq_other owner with isSide | isOther
    · exact notCore (isSide ▸ staysCore owner nId isCore)
    · exact rivalNotCore (isOther ▸ isCore)
  · intro owner nId isAcknowledged
    have wasAcknowledged : nId ∈ (race.run owner).acknowledged := by
      rcases side.eq_or_eq_other owner with isSide | isOther
      · simp only [isSide, set_run, sameAcknowledged] at isAcknowledged
        exact isSide ▸ isAcknowledged
      · simp only [isOther, set_run_other] at isAcknowledged
        exact isOther ▸ isAcknowledged
    rcases orderly.held owner nId wasAcknowledged with isHeld | ⟨holder, isCore⟩
    · exact .inl isHeld
    · exact .inr ⟨holder, staysCore holder nId isCore⟩
  · simp only [set_run]
    exact atPc
  · have atRival := orderly.atPc side.other
    simp only [Side.other_other] at atRival
    apply atRival.frame
    · exact fun _ _ => rfl
    · exact fun _ _ _ => Iff.rfl
    · exact fun _ _ => rfl
    · intro nId notNone _
      exact .inl (notNone.resolve_right (notCleared nId))

theorem Pc.Core.unique {pc : Pc} {nId other : AccountId} (isCore : pc.Core nId)
    (isCore' : pc.Core other) : nId = other := by
  cases pc <;> simp_all [Pc.Core, Pc.Evicting, Pc.Cleared]

/-- An operation that writes, on the account that the run has for itself. -/
theorem Orderly.write (orderly : race.Orderly) {nId : AccountId}
    (isCore : (race.run side).pc.Core nId) {run : Run}
    {sessionmap : AccountId → Option SessionPtr} {ids : SessionPtr → List AccountId}
    (sameSession : run.session = (race.run side).session)
    (sameMap : ∀ other, other ≠ nId → sessionmap other = race.sessionmap other)
    (sameIds : ∀ other, other ≠ nId → ∀ holder, other ∈ ids holder ↔ other ∈ race.ids holder)
    (sameRange : ∀ range, (race.run side.other).pc.range = some range →
      ids range.vector = race.ids range.vector)
    (nodup : ∀ holder, (ids holder).Nodup)
    (onlyCore : ∀ other, run.pc.Core other → other = nId)
    (leaves : ¬ run.pc.Core nId →
      sessionmap nId = some (race.run side).session ∧ Settled sessionmap ids nId)
    (acknowledged : ∀ other ∈ run.acknowledged,
      other ∈ (race.run side).acknowledged ∨ other = nId)
    (looking : sessionmap nId ≠ none ∨ run.pc.Cleared nId)
    (atPc : run.pc.Local sessionmap ids (race.run side).session (race.run side.other).pc) :
    Orderly { race.set side run with sessionmap := sessionmap, ids := ids } := by
  have rivalNotCore : ∀ other, (race.run side.other).pc.Core other → other ≠ nId := by
    intro other rivalCore isSame
    exact orderly.exclusive side nId isCore (isSame ▸ rivalCore)
  have run_eq : (race.set side run).run side = run := set_run race side run
  have rival_eq : (race.set side run).run side.other = race.run side.other :=
    set_run_other race side run
  apply orderly.operate side
  · simp only [run_eq, sameSession]
  · exact rival_eq
  · exact nodup
  · simp only [run_eq]
    intro other isCore' rivalCore
    exact rivalNotCore other rivalCore (onlyCore other isCore')
  · simp only [run_eq]
    intro other notCore noRival
    by_cases isSame : other = nId
    · subst isSame
      exact (leaves notCore).2
    · apply Settled.congr _ (sameMap other isSame) (sameIds other isSame)
      apply orderly.settled
      intro owner isCore'
      rcases side.eq_or_eq_other owner with isSide | isOther
      · exact isSame (Pc.Core.unique (isSide ▸ isCore') isCore)
      · exact noRival (isOther ▸ isCore')
  · intro owner other isAcknowledged
    by_cases isSame : other = nId
    · subst isSame
      by_cases staysCore : run.pc.Core other
      · exact .inr ⟨side, by rw [run_eq]; exact staysCore⟩
      · exact .inl ⟨side, (leaves staysCore).1⟩
    · have wasAcknowledged : other ∈ (race.run owner).acknowledged := by
        rcases side.eq_or_eq_other owner with isSide | isOther
        · simp only [isSide, run_eq] at isAcknowledged
          exact isSide ▸ (acknowledged other isAcknowledged).resolve_right isSame
        · simp only [isOther, rival_eq] at isAcknowledged
          exact isOther ▸ isAcknowledged
      rcases orderly.held owner other wasAcknowledged with ⟨holder, isHeld⟩ | ⟨holder, isCore'⟩
      · exact .inl ⟨holder, (sameMap other isSame).trans isHeld⟩
      · right
        rcases side.eq_or_eq_other holder with isSide | isOther
        · exact absurd (Pc.Core.unique (isSide ▸ isCore') isCore) isSame
        · exact ⟨side.other, by rw [rival_eq]; exact isOther ▸ isCore'⟩
  · simp only [run_eq]
    exact atPc
  · have atRival := orderly.atPc side.other
    simp only [Side.other_other] at atRival
    simp only [run_eq]
    apply atRival.frame
    · exact fun other rivalCore => sameMap other (rivalNotCore other rivalCore)
    · exact fun other rivalCore => sameIds other (rivalNotCore other rivalCore)
    · exact sameRange
    · intro other notNone _
      by_cases isSame : other = nId
      · subst isSame
        exact looking
      · left
        intro isNone
        apply notNone.resolve_right _ ((sameMap other isSame).symm.trans isNone)
        intro isCleared
        exact isSame (Pc.Core.unique (.inr isCleared) isCore)

theorem Orderly.pass (orderly : race.Orderly) {run : Run}
    (sameSession : run.session = (race.run side).session)
    (sameAcknowledged : run.acknowledged = (race.run side).acknowledged)
    (outside : (race.run side).pc.Outside) (outside' : run.pc.Outside)
    (atPc : run.pc.Local race.sessionmap race.ids (race.run side).session
      (race.run side.other).pc) : (race.set side run).Orderly :=
  orderly.read sameSession sameAcknowledged
    (fun nId isCleared => outside.not_core nId (.inr isCleared))
    (fun nId isCore => absurd isCore (outside.not_core nId))
    (fun nId isCore => absurd isCore (outside'.not_core nId)) atPc

theorem Orderly.iterate (orderly : race.Orderly) {nId : AccountId}
    (evicting : (race.run side).pc.Evicting nId) (evicting' : pc.Evicting nId)
    (atPc : pc.Local race.sessionmap race.ids (race.run side).session
      (race.run side.other).pc) : (race.goto side pc).Orderly := by
  refine orderly.read rfl rfl ?_ ?_ ?_ ?_
  · intro other isCleared
    cases isPc : (race.run side).pc <;> simp_all [Pc.Evicting, Pc.Cleared]
  · intro other isCore
    rw [← Pc.Core.unique (.inl evicting) isCore]
    exact .inl evicting'
  · intro other isCore
    rw [← Pc.Core.unique (.inl evicting') isCore]
    exact orderly.exclusive side nId (.inl evicting)
  · exact atPc

/-- The first read of an eviction, or the search that finds nothing. -/
theorem Orderly.enter (orderly : race.Orderly) {nId : AccountId}
    (outside : (race.run side).pc.Outside) (isCore : pc.Core nId)
    (noRival : ¬ (race.run side.other).pc.Core nId)
    (atPc : pc.Local race.sessionmap race.ids (race.run side).session
      (race.run side.other).pc) : (race.goto side pc).Orderly := by
  refine orderly.read rfl rfl ?_ ?_ ?_ ?_
  · exact fun other isCleared => outside.not_core other (.inr isCleared)
  · exact fun other isCore' => absurd isCore' (outside.not_core other)
  · intro other isCore'
    rw [← Pc.Core.unique isCore isCore']
    exact noRival
  · exact atPc

theorem Orderly.settled_of_not_core (orderly : race.Orderly) {nId : AccountId}
    (notCore : ¬ (race.run side).pc.Core nId) (noRival : ¬ (race.run side.other).pc.Core nId) :
    Settled race.sessionmap race.ids nId := by
  apply orderly.settled
  intro owner
  rcases side.eq_or_eq_other owner with isSide | isOther
  · exact isSide ▸ notCore
  · exact isOther ▸ noRival

/-- While the rival evicts an account, the map still leads to its holder. -/
theorem Orderly.found_of_evicting (orderly : race.Orderly) {nId : AccountId}
    (evicting : (race.run side).pc.Evicting nId) : race.sessionmap nId ≠ none := by
  have atPc := orderly.atPc side
  cases isPc : (race.run side).pc with
  | rangeEnd other range =>
      simp only [isPc, Pc.Evicting] at evicting
      simp only [isPc, Pc.Local, evicting] at atPc
      simp only [atPc.found]
      exact Option.some_ne_none _
  | search other range last | endRead other range pos | checkEnd other range pos found
  | eraseRead other range pos | erase other range pos found =>
      simp only [isPc, Pc.Evicting] at evicting
      simp only [isPc, Pc.Local, evicting] at atPc
      simp only [atPc.1.found]
      exact Option.some_ne_none _
  | remove other =>
      simp only [isPc, Pc.Evicting] at evicting
      simp only [isPc, Pc.Local, evicting] at atPc
      exact atPc.1
  | _ => simp [isPc, Pc.Evicting] at evicting

theorem Orderly.step_erase (orderly : race.Orderly) {nId : AccountId} {range : Range} {pos : ℕ}
    {session : SessionPtr}
    (isPc : (race.run side).pc = .erase nId range pos session) (calm : race.Calm side) :
    ∃ next, race.step side = some next ∧ next.Orderly := by
  have atPc := orderly.atPc side
  have isCore : (race.run side).pc.Core nId := by rw [isPc]; exact .inl rfl
  simp only [Race.Calm, isPc] at calm
  simp only [isPc] at atPc
  rcases atPc with ⟨evicts, isPos, rfl⟩
  have erased : (race.ids range.vector).eraseIdx pos = (race.ids range.vector).erase nId := by
    simp only [isPos, evicts.current, List.eraseIdx_idxOf_eq_erase]
  have isFound : race.sessionmap nId ≠ none := by
    simp only [evicts.found]
    exact Option.some_ne_none _
  simp only [Race.step, isPc]
  rw [if_pos ⟨trivial, evicts.current⟩, erased]
  refine ⟨_, rfl, orderly.write isCore rfl (fun _ _ => rfl) ?_ ?_ ?_ ?_ ?_ ?_ ?_ ?_⟩
  · intro other isOther holder
    by_cases isVector : holder = range.vector
    · simp only [isVector, Function.update_self, List.mem_erase_of_ne isOther]
    · simp only [Function.update_of_ne isVector]
  · intro rivalRange isRange
    simp only [isRange, Option.map_some, ne_eq, Option.some_inj] at calm
    exact Function.update_of_ne calm _ _
  · intro holder
    by_cases isVector : holder = range.vector
    · simp only [isVector, Function.update_self]
      exact (orderly.nodup _).erase _
    · simp only [Function.update_of_ne isVector]
      exact orderly.nodup _
  · simp [Pc.Core, Pc.Evicting, Pc.Cleared]
  · simp [Pc.Core, Pc.Evicting, Pc.Cleared]
  · exact fun other isAcknowledged => .inl isAcknowledged
  · exact .inl isFound
  · refine ⟨isFound, ?_⟩
    intro holder isHeld
    by_cases isVector : holder = range.vector
    · simp only [isVector, Function.update_self] at isHeld
      exact (orderly.nodup _).not_mem_erase isHeld
    · rw [Function.update_of_ne isVector, ← evicts.settled holder, evicts.found] at isHeld
      exact isVector (Option.some_inj.mp isHeld).symm

theorem Orderly.step_remove (orderly : race.Orderly) {nId : AccountId}
    (isPc : (race.run side).pc = .remove nId) :
    ∃ next, race.step side = some next ∧ next.Orderly := by
  have atPc := orderly.atPc side
  have isCore : (race.run side).pc.Core nId := by rw [isPc]; exact .inl rfl
  simp only [isPc] at atPc
  simp only [Race.step, isPc]
  refine ⟨_, rfl, orderly.write isCore rfl ?_ (fun _ _ _ => Iff.rfl) (fun _ _ => rfl)
    orderly.nodup ?_ ?_ ?_ (.inr rfl) ⟨Function.update_self _ _ _, atPc.2⟩⟩
  · exact fun other isOther => Function.update_of_ne isOther _ _
  · simp [Pc.Core, Pc.Evicting, Pc.Cleared]
  · simp [Pc.Core, Pc.Evicting, Pc.Cleared]
  · exact fun other isAcknowledged => .inl isAcknowledged

theorem Orderly.step_pushBack (orderly : race.Orderly) {nId : AccountId}
    (isPc : (race.run side).pc = .pushBack nId) (calm : race.Calm side) :
    ∃ next, race.step side = some next ∧ next.Orderly := by
  have atPc := orderly.atPc side
  have isCore : (race.run side).pc.Core nId := by rw [isPc]; exact .inr rfl
  simp only [Race.Calm, isPc] at calm
  simp only [isPc] at atPc
  simp only [Race.step, isPc]
  refine ⟨_, rfl, orderly.write isCore rfl (fun _ _ => rfl) ?_ ?_ ?_ ?_ ?_ ?_ (.inr rfl)
    ⟨atPc.1, ?_⟩⟩
  · intro other isOther holder
    by_cases isOwn : holder = (race.run side).session
    · simp only [isOwn, Function.update_self]
      simp [isOther]
    · simp only [Function.update_of_ne isOwn]
  · intro rivalRange isRange
    simp only [isRange, Option.map_some, ne_eq, Option.some_inj] at calm
    exact Function.update_of_ne calm _ _
  · intro holder
    by_cases isOwn : holder = (race.run side).session
    · simp only [isOwn, Function.update_self]
      rw [← List.concat_eq_append]
      exact (orderly.nodup _).concat (atPc.2 _)
    · simp only [Function.update_of_ne isOwn]
      exact orderly.nodup _
  · simp [Pc.Core, Pc.Evicting, Pc.Cleared]
  · simp [Pc.Core, Pc.Evicting, Pc.Cleared]
  · exact fun other isAcknowledged => .inl isAcknowledged
  · intro holder
    by_cases isOwn : holder = (race.run side).session
    · simp only [isOwn, Function.update_self]
      simp
    · simp only [Function.update_of_ne isOwn]
      exact iff_of_false (atPc.2 holder) isOwn

theorem Orderly.step_setAt (orderly : race.Orderly) {nId : AccountId}
    (isPc : (race.run side).pc = .setAt nId) :
    ∃ next, race.step side = some next ∧ next.Orderly := by
  have atPc := orderly.atPc side
  have isCore : (race.run side).pc.Core nId := by rw [isPc]; exact .inr rfl
  simp only [isPc] at atPc
  simp only [Race.step, isPc]
  refine ⟨_, rfl, orderly.write isCore rfl ?_ (fun _ _ _ => Iff.rfl) (fun _ _ => rfl)
    orderly.nodup ?_ ?_ ?_ ?_ trivial⟩
  · exact fun other isOther => Function.update_of_ne isOther _ _
  · simp [Pc.Core, Pc.Evicting, Pc.Cleared]
  · intro _
    refine ⟨Function.update_self _ _ _, ?_⟩
    intro holder
    simp only [Function.update_self, Option.some_inj, eq_comm]
    exact (atPc.2 holder).symm
  · intro other isAcknowledged
    rcases List.mem_append.mp isAcknowledged with old | isNew
    · exact .inl old
    · exact .inr (List.mem_singleton.mp isNew)
  · simp only [Function.update_self]
    exact .inl (Option.some_ne_none _)

/-- A calm operation is no fault and keeps the invariant. -/
theorem Orderly.step (orderly : race.Orderly) (calm : race.Calm side) :
    ∃ next, race.step side = some next ∧ next.Orderly := by
  have atPc := orderly.atPc side
  cases isPc : (race.run side).pc with
  | empty =>
      have outside : (race.run side).pc.Outside := by rw [isPc]; trivial
      simp only [Race.step, isPc]
      split_ifs
      · exact ⟨_, rfl, orderly.pass rfl rfl outside trivial trivial⟩
      · exact ⟨_, rfl, orderly.pass rfl rfl outside trivial trivial⟩
  | next =>
      have outside : (race.run side).pc.Outside := by rw [isPc]; trivial
      simp only [Race.step, isPc]
      cases (race.run side).accounts with
      | nil =>
          exact ⟨_, rfl, orderly.pass rfl rfl outside trivial trivial⟩
      | cons nId later =>
          exact ⟨_, rfl, orderly.pass rfl rfl outside trivial trivial⟩
  | find nId =>
      have outside : (race.run side).pc.Outside := by rw [isPc]; trivial
      simp only [Race.Calm, isPc] at calm
      simp only [Race.step, isPc]
      split_ifs with isNone
      · have noRival : ¬ (race.run side.other).pc.Core nId := by
          rintro (evicting | isCleared)
          · exact orderly.found_of_evicting evicting isNone
          · exact calm isCleared
        have settled := orderly.settled_of_not_core (outside.not_core nId) noRival
        refine ⟨_, rfl, orderly.enter outside (.inr rfl) noRival ⟨isNone, ?_⟩⟩
        intro holder isHeld
        simp only [(settled holder).mpr isHeld] at isNone
        exact Option.some_ne_none _ isNone
      · exact ⟨_, rfl, orderly.pass rfl rfl outside trivial (.inl isNone)⟩
  | compare nId =>
      have outside : (race.run side).pc.Outside := by rw [isPc]; trivial
      simp only [Race.Calm, isPc] at calm
      simp only [Race.step, isPc, if_neg calm]
      simp only [isPc] at atPc
      exact ⟨_, rfl, orderly.pass rfl rfl outside trivial atPc⟩
  | relogin nId =>
      simp only [isPc] at atPc
      exact atPc.elim
  | duplicate nId =>
      have outside : (race.run side).pc.Outside := by rw [isPc]; trivial
      simp only [Race.Calm, isPc] at calm
      simp only [isPc] at atPc
      rcases Option.ne_none_iff_exists'.mp (atPc.resolve_right calm) with ⟨session, isFound⟩
      simp only [Race.step, isPc, deref, isFound, Option.map_some]
      exact ⟨_, rfl, orderly.pass rfl rfl outside trivial atPc⟩
  | send nId =>
      have outside : (race.run side).pc.Outside := by rw [isPc]; trivial
      simp only [isPc] at atPc
      simp only [Race.step, isPc]
      exact ⟨_, rfl, orderly.pass rfl rfl outside trivial atPc⟩
  | rangeBegin nId =>
      have outside : (race.run side).pc.Outside := by rw [isPc]; trivial
      simp only [Race.Calm, isPc] at calm
      simp only [isPc] at atPc
      rcases Option.ne_none_iff_exists'.mp (atPc.resolve_right fun isCleared =>
        calm (.inr isCleared)) with ⟨session, isFound⟩
      simp only [Race.step, isPc, deref, isFound, Option.map_some]
      have settled := orderly.settled_of_not_core (outside.not_core nId) calm
      exact ⟨_, rfl, orderly.enter outside (.inl rfl) calm ⟨settled, isFound, rfl⟩⟩
  | rangeEnd nId range =>
      have evicting : (race.run side).pc.Evicting nId := by rw [isPc]; rfl
      simp only [isPc] at atPc
      simp only [Race.step, isPc, deref, atPc.found, Option.map_some]
      refine ⟨_, rfl, orderly.iterate evicting rfl ⟨atPc, ?_⟩⟩
      rw [← atPc.current]
  | search nId range last =>
      have evicting : (race.run side).pc.Evicting nId := by rw [isPc]; rfl
      simp only [isPc] at atPc
      simp only [Race.step, isPc]
      rw [if_pos ⟨atPc.2.symm, atPc.1.current⟩]
      exact ⟨_, rfl, orderly.iterate evicting rfl ⟨atPc.1, rfl⟩⟩
  | endRead nId range pos =>
      have evicting : (race.run side).pc.Evicting nId := by rw [isPc]; rfl
      simp only [isPc] at atPc
      simp only [Race.step, isPc, deref, atPc.1.found, Option.map_some]
      exact ⟨_, rfl, orderly.iterate evicting rfl ⟨atPc.1, atPc.2, rfl⟩⟩
  | checkEnd nId range pos session =>
      have evicting : (race.run side).pc.Evicting nId := by rw [isPc]; rfl
      simp only [isPc] at atPc
      rcases atPc with ⟨evicts, isPos, rfl⟩
      have isHeld : nId ∈ race.ids range.vector := (evicts.settled _).mp evicts.found
      have notEnd : pos ≠ (race.ids range.vector).length := by
        simp only [isPos, evicts.current]
        exact (List.idxOf_lt_length_of_mem isHeld).ne
      simp only [Race.step, isPc]
      rw [if_pos ⟨trivial, evicts.current⟩, if_neg notEnd]
      exact ⟨_, rfl, orderly.iterate evicting rfl ⟨evicts, isPos⟩⟩
  | eraseRead nId range pos =>
      have evicting : (race.run side).pc.Evicting nId := by rw [isPc]; rfl
      simp only [isPc] at atPc
      simp only [Race.step, isPc, deref, atPc.1.found, Option.map_some]
      exact ⟨_, rfl, orderly.iterate evicting rfl ⟨atPc.1, atPc.2, rfl⟩⟩
  | erase nId range pos session => exact orderly.step_erase isPc calm
  | remove nId => exact orderly.step_remove isPc
  | pushBack nId => exact orderly.step_pushBack isPc calm
  | setAt nId => exact orderly.step_setAt isPc
  | finished => exact ⟨race, by simp only [Race.step, isPc], orderly⟩

theorem Starts.orderly (starts : race.Starts) : race.Orderly := by
  rcases starts with ⟨server, reached, sameMap, sameIds, distinct, sides⟩
  have consistent := Server.invariant_consistent.of_reachable reached
  have notCore : ∀ side nId, ¬ (race.run side).pc.Core nId := by
    intro side nId
    simp only [(sides side).2.1]
    simp [Pc.Core, Pc.Evicting, Pc.Cleared]
  constructor
  case distinct =>
    intro side
    cases side with
    | first => exact distinct
    | second => exact distinct.symm
  case nodup =>
    simp only [sameIds]
    exact consistent.ids_nodup
  case exclusive => exact fun side nId isCore => absurd isCore (notCore side nId)
  case settled =>
    intro nId _ session
    simp only [sameMap, sameIds]
    exact consistent.map_iff nId session
  case held =>
    intro side nId isAcknowledged
    simp only [(sides side).2.2] at isAcknowledged
    exact absurd isAcknowledged List.not_mem_nil
  case atPc =>
    intro side
    simp only [(sides side).2.1]
    trivial

/-- Once both runs are over, the invariant gives each of their accounts one holder. -/
theorem Orderly.heldByOne (orderly : race.Orderly) {nId : AccountId}
    (both : race.BothLoggedIn nId) : race.HeldByOne nId := by
  have notCore : ∀ side, ¬ (race.run side).pc.Core nId := by
    intro side
    simp only [(both side).1]
    simp [Pc.Core, Pc.Evicting, Pc.Cleared]
  have settled := orderly.settled nId notCore
  rcases orderly.held .first nId (both .first).2 with ⟨owner, isHeld⟩ | ⟨owner, isCore⟩
  · refine ⟨owner, isHeld, (settled _).mp isHeld, ?_⟩
    intro otherHolds
    have isHeld' := (settled _).mpr otherHolds
    simp only [isHeld, Option.some_inj] at isHeld'
    exact orderly.distinct owner isHeld'
  · exact absurd isCore (notCore owner)

end Race

theorem invariant_orderly : (loginRace.restrict Stage.Calm).Invariant fun stage =>
    ∃ race, stage = .running race ∧ race.Orderly where
  initial stage starts := by
    rcases starts with ⟨race, isRunning, starts⟩
    exact ⟨race, isRunning, starts.orderly⟩
  step stage side next orderly moves := by
    rcases orderly with ⟨race, rfl, orderly⟩
    rcases moves with ⟨calm, isNext⟩
    rcases orderly.step calm with ⟨stepped, isStep, orderlyNext⟩
    refine ⟨stepped, ?_, orderlyNext⟩
    rw [isNext, Stage.advance, isStep]

/-- Calm interleavings do not fault, and an account that both runs let in ends up with one of the
two sessions. -/
theorem loginRace_heldByOne {stage : Stage}
    (reached : (loginRace.restrict Stage.Calm).Reachable stage) :
    ∃ race, stage = .running race ∧ ∀ nId, race.BothLoggedIn nId → race.HeldByOne nId := by
  rcases invariant_orderly.of_reachable reached with ⟨race, isRunning, orderly⟩
  exact ⟨race, isRunning, fun nId both => orderly.heldByOne both⟩

namespace Stage

/-- The operations of a schedule, one after the other. -/
def play (stage : Stage) (schedule : List Side) : Stage :=
  schedule.foldl advance stage

/-- Every operation of a schedule meets the condition. -/
def PlaysCalmly (stage : Stage) : List Side → Prop
  | [] => True
  | side :: later => stage.Calm side ∧ (stage.advance side).PlaysCalmly later

theorem reachable_play {stage : Stage} (reached : loginRace.Reachable stage)
    (schedule : List Side) : loginRace.Reachable (stage.play schedule) := by
  induction schedule generalizing stage with
  | nil => exact reached
  | cons side later reachedLater =>
      exact reachedLater (.step reached (rfl : loginRace.step stage side (stage.advance side)))

theorem reachable_playCalmly {stage : Stage} {schedule : List Side}
    (reached : (loginRace.restrict Calm).Reachable stage) (calm : stage.PlaysCalmly schedule) :
    (loginRace.restrict Calm).Reachable (stage.play schedule) := by
  induction schedule generalizing stage with
  | nil => exact reached
  | cons side later reachedLater =>
      exact reachedLater (.step reached
        (⟨calm.1, rfl⟩ : (loginRace.restrict Calm).step stage side (stage.advance side))) calm.2

end Stage

section Schedules

instance {claim : Side → Prop} [DecidablePred claim] : Decidable (∀ side, claim side) :=
  decidable_of_iff (claim .first ∧ claim .second)
    ⟨fun both side => by cases side; exacts [both.1, both.2], fun all => ⟨all _, all _⟩⟩

instance (nId : AccountId) (pc : Pc) : Decidable (pc.Evicting nId) := by
  simp only [Pc.Evicting]
  split <;> infer_instance

instance (nId : AccountId) (pc : Pc) : Decidable (pc.Cleared nId) := by
  simp only [Pc.Cleared]
  split <;> infer_instance

instance (race : Race) (side : Side) : Decidable (race.Calm side) := by
  simp only [Race.Calm, Pc.Core]
  split <;> infer_instance

instance (stage : Stage) (side : Side) : Decidable (stage.Calm side) := by
  cases stage
  · exact inferInstanceAs (Decidable (Race.Calm _ side))
  · exact isTrue trivial

instance decidablePlaysCalmly : ∀ (stage : Stage) (schedule : List Side),
    Decidable (stage.PlaysCalmly schedule)
  | _, [] => isTrue trivial
  | stage, side :: later =>
      have := decidablePlaysCalmly (stage.advance side) later
      inferInstanceAs (Decidable (_ ∧ _))

/-- Two sessions, the first and the second that the server accepted. -/
def twoSessions : Server := ((Server.start.accept 0).2.accept 0).2

def rivals : Race where
  sessionmap := twoSessions.sessionmap
  ids := twoSessions.idsOf
  run side := { session := if side = .first then 0 else 1
                accounts := [7], acknowledged := [], pc := .empty }

theorem rivals_starts : rivals.Starts := by
  refine ⟨twoSessions, ?_, rfl, rfl, by decide, ?_⟩
  · have accepted : Server.system.Reachable (Server.start.accept 0).2 :=
      .step (.initial rfl) (⟨trivial, rfl⟩ : Server.system.step Server.start (.onAddSession 0) _)
    exact .step accepted (⟨trivial, rfl⟩ : Server.system.step _ (.onAddSession 0) twoSessions)
  · intro side
    cases side <;> exact ⟨by decide, rfl, rfl⟩

/-- What holds of the race when a schedule is over. -/
def Stage.Ends (stage : Stage) (claim : Race → Prop) : Prop :=
  match stage with
  | .running race => claim race
  | .faulted => False

instance {claim : Race → Prop} [DecidablePred claim] (stage : Stage) :
    Decidable (stage.Ends claim) := by
  cases stage
  · exact inferInstanceAs (Decidable (claim _))
  · exact isFalse id

instance (race : Race) (nId : AccountId) : Decidable (race.BothLoggedIn nId) :=
  inferInstanceAs (Decidable (∀ _, _ ∧ _))

end Schedules

/-- One login after the other: the second session takes the account over. -/
theorem loginRace_heldByOne_inTurn : ∃ race,
    (loginRace.restrict Stage.Calm).Reachable (.running race) ∧ race.BothLoggedIn 7
      ∧ race.HeldByOne 7 := by
  let schedule := List.replicate 6 Side.first ++ List.replicate 17 Side.second
  have starts : (loginRace.restrict Stage.Calm).Reachable (.running rivals) :=
    .initial ⟨rivals, rfl, rivals_starts⟩
  have calm : (Stage.running rivals).PlaysCalmly schedule := by decide +kernel
  have reached := Stage.reachable_playCalmly starts calm
  have both : ((Stage.running rivals).play schedule).Ends (Race.BothLoggedIn · 7) := by
    decide +kernel
  rcases loginRace_heldByOne reached with ⟨race, isRunning, held⟩
  simp only [isRunning] at both reached
  exact ⟨race, reached, both, held 7 both⟩

/-- Both runs look the account up before either has inserted it, and both keep it. -/
theorem loginRace_heldByBoth : ¬ ∀ race, loginRace.Reachable (.running race) →
    ∀ nId, race.BothLoggedIn nId → race.HeldByOne nId := by
  intro claimed
  let schedule := List.replicate 3 Side.first ++ List.replicate 6 Side.second
    ++ List.replicate 3 Side.first
  have starts : loginRace.Reachable (.running rivals) := .initial ⟨rivals, rfl, rivals_starts⟩
  have reached := Stage.reachable_play starts schedule
  have ends : ((Stage.running rivals).play schedule).Ends fun race =>
      race.BothLoggedIn 7 ∧ ∀ side, 7 ∈ race.ids (race.run side).session := by
    decide +kernel
  cases played : (Stage.running rivals).play schedule with
  | faulted =>
      simp only [played] at ends
      exact ends
  | running race =>
      simp only [played] at ends reached
      rcases claimed race reached 7 ends.1 with ⟨side, _, _, notHeld⟩
      exact notHeld (ends.2 side.other)

section Alone

/-- A run goes on alone from one race to another. -/
inductive Leads (side : Side) : Race → Race → Prop where
  | refl (race : Race) : Leads side race race
  | step {race next last : Race} (moves : race.step side = some next)
      (leads : Leads side next last) : Leads side race last

namespace Leads

variable {race next last : Race} {side : Side} {nId : AccountId}

theorem trans (leads : Leads side race next) (leads' : Leads side next last) :
    Leads side race last := by
  induction leads with
  | refl => exact leads'
  | step moves _ leadsRest => exact .step moves (leadsRest leads')

@[simp] theorem goto_run (race : Race) (side : Side) (pc : Pc) :
    (race.goto side pc).run side = { race.run side with pc := pc } :=
  Function.update_self _ _ _

@[simp] theorem goto_goto (race : Race) (side : Side) (pc pc' : Pc) :
    (race.goto side pc).goto side pc' = race.goto side pc' := by
  simp [Race.goto, Race.set]

@[simp] theorem goto_sessionmap (race : Race) (side : Side) (pc : Pc) :
    (race.goto side pc).sessionmap = race.sessionmap := rfl

@[simp] theorem goto_ids (race : Race) (side : Side) (pc : Pc) :
    (race.goto side pc).ids = race.ids := rfl

theorem insert (isPc : (race.run side).pc = .pushBack nId) :
    ∃ last, Leads side race last ∧ (last.run side).pc = .next
      ∧ last.sessionmap
        = Function.update race.sessionmap nId (some (race.run side).session)
      ∧ last.ids = Function.update race.ids (race.run side).session
        (race.ids (race.run side).session ++ [nId]) := by
  let pushed : Race :=
    { race.goto side (.setAt nId) with
      ids := Function.update race.ids (race.run side).session
        (race.ids (race.run side).session ++ [nId]) }
  have pushes : race.step side = some pushed := by
    simp only [Race.step, isPc, pushed]
  have pushedRun : pushed.run side = { race.run side with pc := .setAt nId } :=
    goto_run race side _
  have sets : pushed.step side = some
      { pushed.set side { pushed.run side with
          acknowledged := (pushed.run side).acknowledged ++ [nId], pc := .next } with
        sessionmap := Function.update race.sessionmap nId (some (race.run side).session) } := by
    simp only [Race.step, pushedRun]
    rfl
  refine ⟨_, .step pushes (.step sets (.refl _)), ?_, rfl, rfl⟩
  exact congrArg Run.pc (Race.set_run pushed side _)

/-- The twelve operations that look an account up and evict it from its holder. -/
theorem evict (isPc : (race.run side).pc = .find nId) {holder : SessionPtr}
    (found : race.sessionmap nId = some holder) (isOther : holder ≠ (race.run side).session)
    (isHeld : nId ∈ race.ids holder) :
    ∃ last, Leads side race last ∧ (last.run side).pc = .pushBack nId
      ∧ (last.run side).session = (race.run side).session
      ∧ last.sessionmap = Function.update race.sessionmap nId none
      ∧ last.ids = Function.update race.ids holder ((race.ids holder).erase nId) := by
  let range : Range := ⟨holder, race.ids holder⟩
  let pos := (race.ids holder).idxOf nId
  have notEnd : pos ≠ (race.ids holder).length := (List.idxOf_lt_length_of_mem isHeld).ne
  let erased : Race :=
    { race.goto side (.remove nId) with
      ids := Function.update race.ids holder ((race.ids holder).eraseIdx pos) }
  have erasedRun : erased.run side = { race.run side with pc := .remove nId } :=
    goto_run race side _
  have finds : race.step side = some (race.goto side (.compare nId)) := by
    simp [Race.step, isPc, found]
  have compares : (race.goto side (.compare nId)).step side
      = some (race.goto side (.duplicate nId)) := by
    simp [Race.step, found, isOther]
  have logs : (race.goto side (.duplicate nId)).step side = some (race.goto side (.send nId)) := by
    simp [Race.step, Race.deref, found]
  have sends : (race.goto side (.send nId)).step side
      = some (race.goto side (.rangeBegin nId)) := by
    simp [Race.step]
  have begins : (race.goto side (.rangeBegin nId)).step side
      = some (race.goto side (.rangeEnd nId range)) := by
    simp [Race.step, Race.deref, found, range]
  have ends : (race.goto side (.rangeEnd nId range)).step side
      = some (race.goto side (.search nId range range)) := by
    simp [Race.step, Race.deref, found, range]
  have searches : (race.goto side (.search nId range range)).step side
      = some (race.goto side (.endRead nId range pos)) := by
    simp [Race.step, range, pos]
  have reads : (race.goto side (.endRead nId range pos)).step side
      = some (race.goto side (.checkEnd nId range pos holder)) := by
    simp [Race.step, Race.deref, found]
  have checks : (race.goto side (.checkEnd nId range pos holder)).step side
      = some (race.goto side (.eraseRead nId range pos)) := by
    simp [Race.step, range, notEnd]
  have readsAgain : (race.goto side (.eraseRead nId range pos)).step side
      = some (race.goto side (.erase nId range pos holder)) := by
    simp [Race.step, Race.deref, found]
  have erases : (race.goto side (.erase nId range pos holder)).step side = some erased := by
    simp [Race.step, range, erased]
  have removes : erased.step side = some
      { erased.goto side (.pushBack nId) with
        sessionmap := Function.update race.sessionmap nId none } := by
    simp only [Race.step, erasedRun]
    rfl
  refine ⟨_, .step finds (.step compares (.step logs (.step sends (.step begins (.step ends
    (.step searches (.step reads (.step checks (.step readsAgain (.step erases (.step removes
    (.refl _)))))))))))), ?_, ?_, rfl, ?_⟩
  · exact congrArg Run.pc (goto_run erased side _)
  · rw [show (erased.goto side (.pushBack nId)).run side = _ from goto_run erased side _, erasedRun]
  · rw [← List.eraseIdx_idxOf_eq_erase]
    rfl

/-- A run that finds its own session inserts the account again. -/
theorem relogin (isPc : (race.run side).pc = .find nId)
    (found : race.sessionmap nId = some (race.run side).session) :
    ∃ last, Leads side race last ∧ (last.run side).pc = .pushBack nId
      ∧ (last.run side).session = (race.run side).session
      ∧ last.sessionmap = race.sessionmap ∧ last.ids = race.ids := by
  have finds : race.step side = some (race.goto side (.compare nId)) := by
    simp [Race.step, isPc, found]
  have compares : (race.goto side (.compare nId)).step side
      = some (race.goto side (.relogin nId)) := by
    simp [Race.step, found]
  have logs : (race.goto side (.relogin nId)).step side
      = some (race.goto side (.pushBack nId)) := by
    simp [Race.step, Race.deref, found]
  refine ⟨_, .step finds (.step compares (.step logs (.refl _))), ?_, ?_, rfl, rfl⟩
  · simp only [goto_run]
  · simp only [goto_run]

end Leads

theorem idsOf_enter (server : Server) (session : SessionPtr) (nId : AccountId)
    (strExpiredTime strToken : Wire.CText) :
    (server.enter session (.granted nId strExpiredTime strToken)).idsOf
      = Function.update server.idsOf session (server.idsOf session ++ [nId]) := by
  funext other
  simp only [Server.enter, Server.idsOf_setAt]
  by_cases same : other = session
  · simp only [same, Server.idsOf_modify_self, Function.update_self]
    rfl
  · simp only [Server.idsOf_modify_of_ne _ _ same, Function.update_of_ne same]

theorem idsOf_evict (server : Server) (session : SessionPtr) (nId : AccountId)
    (reason : Wire.LoginResult) :
    (server.evict nId session reason).idsOf
      = Function.update server.idsOf session ((server.idsOf session).erase nId) := by
  funext other
  simp only [Server.evict, Server.idsOf_remove]
  by_cases same : other = session
  · simp only [same, Server.idsOf_modify_self, Function.update_self]
    exact congrFun (congrArg List.erase
      (congrFun (server.idsOf_sendPacket session _) session)) nId
  · rw [Server.idsOf_modify_of_ne _ _ same, Function.update_of_ne same,
      Server.idsOf_sendPacket]

/-- A run that is left alone does what `checkAnotherLogin` and the insertion do at once. -/
theorem Race.alone {race : Race} {server : Server} {side : Side} {nId : AccountId}
    (sameMap : race.sessionmap = server.sessionmap) (sameIds : race.ids = server.idsOf)
    (settled : Settled race.sessionmap race.ids nId) (isPc : (race.run side).pc = .find nId)
    (strExpiredTime strToken : Wire.CText) :
    let session := (race.run side).session
    let logged := (server.checkAnotherLogin nId session).enter session
      (.granted nId strExpiredTime strToken)
    ∃ last, Leads side race last ∧ (last.run side).pc = .next
      ∧ last.sessionmap = logged.sessionmap ∧ last.ids = logged.idsOf := by
  have evicted : ∃ middle, Leads side race middle ∧ (middle.run side).pc = .pushBack nId
      ∧ (middle.run side).session = (race.run side).session
      ∧ middle.sessionmap = (server.checkAnotherLogin nId (race.run side).session).sessionmap
      ∧ middle.ids = (server.checkAnotherLogin nId (race.run side).session).idsOf := by
    cases found : server.sessionmap nId with
    | none =>
        have finds : race.step side = some (race.goto side (.pushBack nId)) := by
          simp [Race.step, isPc, sameMap, found]
        simp only [Server.checkAnotherLogin, found]
        exact ⟨_, .step finds (.refl _), by rw [Leads.goto_run], by rw [Leads.goto_run],
          sameMap, sameIds⟩
    | some holder =>
        have found' : race.sessionmap nId = some holder := by rw [sameMap, found]
        simp only [Server.checkAnotherLogin, found]
        by_cases isOwn : (race.run side).session = holder
        · rw [if_pos isOwn, ← sameMap, ← sameIds]
          rw [← isOwn] at found'
          exact Leads.relogin isPc found'
        · rw [if_neg isOwn, idsOf_evict, ← sameIds]
          have isHeld := (settled holder).mp found'
          rcases Leads.evict isPc found' (Ne.symm isOwn) isHeld with
            ⟨middle, leads, isPush, sameSession, middleMap, middleIds⟩
          refine ⟨middle, leads, isPush, sameSession, ?_, middleIds⟩
          simp only [middleMap, sameMap]
          rfl
  rcases evicted with ⟨middle, leads, isPush, sameSession, middleMap, middleIds⟩
  rcases Leads.insert isPush with ⟨last, leads', isNext, lastMap, lastIds⟩
  refine ⟨last, leads.trans leads', isNext, ?_, ?_⟩
  · simp only [lastMap, middleMap, sameSession]
    rfl
  · simp only [lastIds, middleIds, sameSession, idsOf_enter]

end Alone

end PoETask.AuthServer
