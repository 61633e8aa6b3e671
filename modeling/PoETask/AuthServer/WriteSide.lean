import Mathlib.Data.List.Perm.Basic
import PoETask.AuthServer.Consistency
import PoETask.Wire.Framing

/-!
# The write side of a session

Any thread may call `SendPacket`, which appends to the write queue of the session and
then posts `DoWrite`. The strand of the session runs posted handlers and write
completions one at a time, so between the queue, the current packet with its offset and
the socket there is at most one handler at work, but sends and the sweep of
`CheckClients` may come in between any two steps.

Packets are objects of a `Storage<Packet>` which all sessions share. A write refers to
the block of its packet until it completes, and what the socket takes are the bytes the
block holds then. The external block of a patch transfer is not modelled.

Two properties are proved of the same step system. Without errors and disconnects the
bytes of the queued packets reach the socket in order, one write at a time, and there is
always a handler to go on. And a session that is disconnected between two packets has
given every packet back.
-/

namespace PoETask.AuthServer

open PoETask.Library PoETask.Wire

abbrev PacketPtr := ℕ

structure Packet where
  buffer : Buffer
  islastpacket : Bool

namespace Packet

def init (packet : Packet) : Packet :=
  { buffer := packet.buffer.emptyUsed, islastpacket := false }

def deinit (packet : Packet) : Packet := { packet with islastpacket := false }

end Packet

/-- An outstanding `async_write_some`: the part of a packet that it was given. -/
structure WriteOperation where
  packet : PacketPtr
  offset : ℕ
  size : ℕ

/-- What is posted to the strand for the write side. -/
inductive Handler where
  | doWrite (bStart : Bool)
  | doDisconnect
  deriving DecidableEq

/-- One session with the packet storage around it. -/
structure WriteSide where
  packets : PacketPtr → Packet
  storage : Storage
  /-- Packets that threads hold for anything but this write side. -/
  held : List PacketPtr
  writepacketlist : List PacketPtr
  writepacket : Option PacketPtr
  writeoffset : ℕ
  writes : List WriteOperation
  /-- How many `SendPacket` calls have appended their packet and not yet posted. -/
  sending : ℕ
  /-- What a completion at work is about to post. -/
  completing : Option Handler
  posted : List Handler
  /-- Whether the session is in its own storage list. -/
  listed : Bool
  /-- The contents of the packets queued so far. -/
  sent : List (List UInt8)
  /-- The bytes the socket took so far. -/
  written : List UInt8
  /-- Packets given to `SendPacket` and not released since. -/
  entrusted : List PacketPtr
  /-- Whether `DoDisconnect` has run and nothing was sent since. -/
  disconnected : Bool

namespace WriteSide

section Handlers

/-- `Release<Packet>`. -/
def release (side : WriteSide) (packet : PacketPtr) : WriteSide :=
  if packet ∈ side.storage.list then
    { side with
      packets := Function.update side.packets packet (side.packets packet).deinit
      storage := side.storage.release packet
      entrusted := side.entrusted.erase packet }
  else
    side

/-- `Allocate<Packet>`. -/
def allocate (side : WriteSide) : WriteSide :=
  let packet := side.storage.allocate.1
  { side with
    packets := Function.update side.packets packet (side.packets packet).init
    storage := side.storage.allocate.2.2
    held := side.held ++ [packet] }

/-- `async_write_some` for the rest of a packet. -/
def startWrite (side : WriteSide) (packet : PacketPtr) : WriteSide :=
  { side with
    writes := side.writes ++
      [{ packet, offset := side.writeoffset
         size := (side.packets packet).buffer.used - side.writeoffset }] }

def doWrite (side : WriteSide) (bStart : Bool) : WriteSide :=
  match side.writepacket, side.writepacketlist with
  | some packet, _ => if bStart then side else side.startWrite packet
  | none, [] => side
  | none, packet :: rest =>
      let popped : WriteSide :=
        { side with writepacketlist := rest, writepacket := some packet, writeoffset := 0 }
      popped.startWrite packet

/-- The completion handler of a write up to its post. -/
def completeWrite (side : WriteSide) (sizewrite : ℕ) : WriteSide :=
  let moved : WriteSide := { side with writeoffset := dword (side.writeoffset + sizewrite) }
  match side.writepacket with
  | none => moved
  | some packet =>
      if moved.writeoffset = (side.packets packet).buffer.used then
        { moved.release packet with
          writepacket := none
          completing :=
            some (if (side.packets packet).islastpacket then .doDisconnect else .doWrite true) }
      else
        { moved with completing := some (.doWrite false) }

/-- Release whatever is in the write queue. -/
def drain (side : WriteSide) : WriteSide :=
  { side.writepacketlist.foldl release side with writepacketlist := [] }

/-- `Session::Deinit`. -/
def deinit (side : WriteSide) : WriteSide := drain { side with writepacket := none }

/-- `Release<Session>`. -/
def releaseSession (side : WriteSide) : WriteSide :=
  if side.listed then { side.deinit with listed := false } else side

def doDisconnect (side : WriteSide) : WriteSide :=
  let drained : WriteSide := { side.drain with writepacket := none, disconnected := true }
  drained.releaseSession

def run (side : WriteSide) : Handler → WriteSide
  | .doWrite bStart => side.doWrite bStart
  | .doDisconnect => side.doDisconnect

/-- `SendPacket` up to its post. -/
def sendPacket (side : WriteSide) (packet : PacketPtr) (composed : Buffer) (rand : UInt8)
    (islastpacket : Bool) : WriteSide :=
  let encrypted := composed.encrypt rand
  { side with
    packets := Function.update side.packets packet { buffer := encrypted, islastpacket }
    writepacketlist := side.writepacketlist ++ [packet]
    sending := side.sending + 1
    sent := side.sent ++ [encrypted.contents]
    entrusted := side.entrusted ++ [packet]
    disconnected := false }

/-- The bytes that an outstanding write has before it. -/
def block (side : WriteSide) (operation : WriteOperation) : List UInt8 :=
  readAt (side.packets operation.packet).buffer.bufferinternal operation.offset operation.size

end Handlers

/-- What may happen next. Lists are entered at any place. -/
inductive Event where
  | allocate
  | release (i : ℕ)
  | sendPacket (i : ℕ) (bOpcode : UInt8) (fields : List Field) (rand : UInt8) (islastpacket : Bool)
  | post
  | runPosted (i : ℕ)
  | writeCompleted (i : ℕ) (sizewrite : ℕ)
  | writeFailed (i : ℕ)
  | completed
  | checkClients

/-- One step, unless there is nothing it could be about. -/
def advance (side : WriteSide) : Event → Option WriteSide
  | .allocate => some side.allocate
  | .release i => do
      let packet ← side.held[i]?
      return { side.release packet with held := side.held.eraseIdx i }
  | .sendPacket i bOpcode fields rand islastpacket => do
      let packet ← side.held[i]?
      let composed ← buildPacket (side.packets packet).buffer bOpcode fields
      let taken : WriteSide := { side with held := side.held.eraseIdx i }
      return taken.sendPacket packet composed rand islastpacket
  | .post => do
      guard (0 < side.sending)
      return { side with sending := side.sending - 1, posted := side.posted ++ [.doWrite true] }
  | .runPosted i => do
      guard (side.completing = none)
      let handler ← side.posted[i]?
      let taken : WriteSide := { side with posted := side.posted.eraseIdx i }
      return taken.run handler
  | .writeCompleted i sizewrite => do
      guard (side.completing = none)
      let operation ← side.writes[i]?
      guard (0 < sizewrite ∧ sizewrite ≤ operation.size)
      let taken : WriteSide := { side with
        writes := side.writes.eraseIdx i
        written := side.written ++ (side.block operation).take sizewrite }
      return taken.completeWrite sizewrite
  | .writeFailed i => do
      guard (side.completing = none)
      let _ ← side.writes[i]?
      return { side with writes := side.writes.eraseIdx i, completing := some .doDisconnect }
  | .completed => do
      let handler ← side.completing
      return { side with completing := none, posted := side.posted ++ [handler] }
  | .checkClients => some side.doDisconnect

/-- A connection was just accepted, while other sessions may hold packets. -/
structure Start (side : WriteSide) : Prop where
  wellFormed : side.storage.WellFormed
  held_nodup : side.held.Nodup
  held_listed : ∀ packet ∈ side.held, packet ∈ side.storage.list
  writepacketlist : side.writepacketlist = []
  writepacket : side.writepacket = none
  writes : side.writes = []
  sending : side.sending = 0
  completing : side.completing = none
  posted : side.posted = []
  listed : side.listed = true
  sent : side.sent = []
  written : side.written = []
  entrusted : side.entrusted = []
  disconnected : side.disconnected = false

def system : StepSystem WriteSide Event where
  initial := Start
  step side event next := side.advance event = some next

/-- The event runs `DoDisconnect`. -/
def Disconnects (side : WriteSide) : Event → Prop
  | .runPosted i => side.posted[i]? = some .doDisconnect
  | .checkClients => True
  | _ => False

/-- No packet is flagged as the last, no write fails and nobody disconnects the session. -/
def Undisturbed (side : WriteSide) (event : Event) : Prop :=
  ¬ side.Disconnects event ∧
    match event with
    | .sendPacket _ _ _ _ islastpacket => islastpacket = false
    | .writeFailed _ => False
    | _ => True

instance (side : WriteSide) : (event : Event) → Decidable (side.Disconnects event)
  | .runPosted i => inferInstanceAs (Decidable (side.posted[i]? = some .doDisconnect))
  | .checkClients => .isTrue trivial
  | .allocate | .release _ | .sendPacket _ _ _ _ _ | .post | .writeCompleted _ _ | .writeFailed _
  | .completed => .isFalse not_false

instance (side : WriteSide) (event : Event) : Decidable (side.Undisturbed event) :=
  @instDecidableAnd _ _ inferInstance <|
    match event with
    | .sendPacket _ _ _ _ islastpacket => inferInstanceAs (Decidable (islastpacket = false))
    | .writeFailed _ => .isFalse not_false
    | .allocate | .release _ | .post | .runPosted _ | .writeCompleted _ _ | .completed
    | .checkClients => .isTrue trivial

/-- The steps as a relation, with what each of them finds. -/
inductive Step (side : WriteSide) : Event → WriteSide → Prop where
  | allocate : Step side .allocate side.allocate
  | release {i : ℕ} {packet : PacketPtr} (isHeld : side.held[i]? = some packet) :
      Step side (.release i) { side.release packet with held := side.held.eraseIdx i }
  | sendPacket {i : ℕ} {packet : PacketPtr} {composed : Buffer} {bOpcode : UInt8}
      {fields : List Field} (rand : UInt8) (islastpacket : Bool)
      (isHeld : side.held[i]? = some packet)
      (built : buildPacket (side.packets packet).buffer bOpcode fields = some composed) :
      Step side (.sendPacket i bOpcode fields rand islastpacket)
        (({ side with held := side.held.eraseIdx i } : WriteSide).sendPacket packet composed rand
          islastpacket)
  | post (isSending : 0 < side.sending) :
      Step side .post
        { side with sending := side.sending - 1, posted := side.posted ++ [.doWrite true] }
  | doWrite {i : ℕ} {bStart : Bool} (idle : side.completing = none)
      (isPosted : side.posted[i]? = some (.doWrite bStart)) :
      Step side (.runPosted i)
        (({ side with posted := side.posted.eraseIdx i } : WriteSide).doWrite bStart)
  | doDisconnect {i : ℕ} (idle : side.completing = none)
      (isPosted : side.posted[i]? = some .doDisconnect) :
      Step side (.runPosted i)
        ({ side with posted := side.posted.eraseIdx i } : WriteSide).doDisconnect
  | writeCompleted {i sizewrite : ℕ} {operation : WriteOperation} (idle : side.completing = none)
      (isAt : side.writes[i]? = some operation) (takes : 0 < sizewrite)
      (fits : sizewrite ≤ operation.size) :
      Step side (.writeCompleted i sizewrite)
        (({ side with
            writes := side.writes.eraseIdx i
            written := side.written ++ (side.block operation).take sizewrite } :
          WriteSide).completeWrite sizewrite)
  | writeFailed {i : ℕ} (idle : side.completing = none) :
      Step side (.writeFailed i)
        { side with writes := side.writes.eraseIdx i, completing := some .doDisconnect }
  | completed {handler : Handler} (isLast : side.completing = some handler) :
      Step side .completed { side with completing := none, posted := side.posted ++ [handler] }
  | checkClients : Step side .checkClients side.doDisconnect

theorem Step.of_advance {side next : WriteSide} {event : Event}
    (moves : side.advance event = some next) : side.Step event next := by
  cases event with
  | allocate =>
      cases moves
      exact .allocate
  | release i =>
      simp only [advance, Option.bind_eq_bind, Option.bind_eq_some_iff] at moves
      rcases moves with ⟨packet, isHeld, moves⟩
      cases moves
      exact .release isHeld
  | sendPacket i bOpcode fields rand islastpacket =>
      simp only [advance, Option.bind_eq_bind, Option.bind_eq_some_iff] at moves
      rcases moves with ⟨packet, isHeld, composed, built, moves⟩
      cases moves
      exact .sendPacket rand islastpacket isHeld built
  | post =>
      simp only [advance, Option.bind_eq_bind, Option.bind_eq_some_iff,
        Option.guard_eq_some'] at moves
      rcases moves with ⟨_, isSending, moves⟩
      cases moves
      exact .post isSending
  | runPosted i =>
      simp only [advance, Option.bind_eq_bind, Option.bind_eq_some_iff,
        Option.guard_eq_some'] at moves
      rcases moves with ⟨_, idle, handler, isPosted, moves⟩
      cases moves
      cases handler with
      | doWrite bStart => exact .doWrite idle isPosted
      | doDisconnect => exact .doDisconnect idle isPosted
  | writeCompleted i sizewrite =>
      simp only [advance, Option.bind_eq_bind, Option.bind_eq_some_iff,
        Option.guard_eq_some'] at moves
      rcases moves with ⟨_, idle, operation, isAt, _, ⟨takes, fits⟩, moves⟩
      cases moves
      exact .writeCompleted idle isAt takes fits
  | writeFailed i =>
      simp only [advance, Option.bind_eq_bind, Option.bind_eq_some_iff,
        Option.guard_eq_some'] at moves
      rcases moves with ⟨_, idle, _, _, moves⟩
      cases moves
      exact .writeFailed idle
  | completed =>
      simp only [advance, Option.bind_eq_bind, Option.bind_eq_some_iff] at moves
      rcases moves with ⟨handler, isLast, moves⟩
      cases moves
      exact .completed isLast
  | checkClients =>
      cases moves
      exact .checkClients

/-- The packet being written, then the queue. -/
def queued (side : WriteSide) : List PacketPtr :=
  side.writepacket.toList ++ side.writepacketlist

def contents (side : WriteSide) (packet : PacketPtr) : List UInt8 :=
  (side.packets packet).buffer.contents

/-- What is still to be written of the current packet. -/
def unwritten (side : WriteSide) : List UInt8 :=
  side.writepacket.elim [] fun packet => (side.contents packet).drop side.writeoffset

/-- What is posted or about to be posted by a completion. -/
def handlers (side : WriteSide) : List Handler := side.completing.toList ++ side.posted

/-- Every packet in use belongs to one thread or to the write side, which has to account for all
packets it was given. -/
structure Accounted (side : WriteSide) : Prop where
  wellFormed : side.storage.WellFormed
  nodup : (side.held ++ side.queued).Nodup
  listed : ∀ packet ∈ side.held ++ side.queued, packet ∈ side.storage.list
  entrusted : side.entrusted.Perm side.queued

section Frames

variable {side : WriteSide} {packet other : PacketPtr}

theorem release_eq (inUse : packet ∈ side.storage.list) :
    side.release packet = { side with
      packets := Function.update side.packets packet (side.packets packet).deinit
      storage := side.storage.release packet
      entrusted := side.entrusted.erase packet } :=
  if_pos inUse

@[simp]
theorem queued_startWrite (side : WriteSide) (packet : PacketPtr) :
    (side.startWrite packet).queued = side.queued := rfl

@[simp]
theorem contents_startWrite (side : WriteSide) (packet other : PacketPtr) :
    (side.startWrite packet).contents other = side.contents other := rfl

theorem doWrite_true_writing (writing : side.writepacket = some packet) :
    side.doWrite true = side := by
  simp only [doWrite, writing, if_true]

theorem doWrite_false_writing (writing : side.writepacket = some packet) :
    side.doWrite false = side.startWrite packet := by
  simp only [doWrite, writing, Bool.false_eq_true, if_false]

theorem doWrite_empty (idle : side.writepacket = none) (empty : side.writepacketlist = [])
    (bStart : Bool) : side.doWrite bStart = side := by
  simp only [doWrite, idle, empty]

theorem doWrite_waiting {rest : List PacketPtr} (idle : side.writepacket = none)
    (waiting : side.writepacketlist = packet :: rest) (bStart : Bool) :
    side.doWrite bStart = startWrite { side with
      writepacketlist := rest, writepacket := some packet, writeoffset := 0 } packet := by
  simp only [doWrite, idle, waiting]

theorem completeWrite_more {sizewrite : ℕ} (writing : side.writepacket = some packet)
    (more : dword (side.writeoffset + sizewrite) ≠ (side.packets packet).buffer.used) :
    side.completeWrite sizewrite = { side with
      writeoffset := dword (side.writeoffset + sizewrite), completing := some (.doWrite false) } := by
  simp only [completeWrite, writing, if_neg more]

theorem completeWrite_whole {sizewrite : ℕ} (writing : side.writepacket = some packet)
    (inUse : packet ∈ side.storage.list)
    (whole : dword (side.writeoffset + sizewrite) = (side.packets packet).buffer.used) :
    side.completeWrite sizewrite = { side with
      packets := Function.update side.packets packet (side.packets packet).deinit
      storage := side.storage.release packet
      entrusted := side.entrusted.erase packet
      writepacket := none
      writeoffset := dword (side.writeoffset + sizewrite)
      completing :=
        some (if (side.packets packet).islastpacket then .doDisconnect else .doWrite true) } := by
  simp only [completeWrite, writing, if_pos whole, release, if_pos inUse]

/-- `DoWrite` takes its packet from the front of the queue, so the order stays. -/
theorem queued_doWrite (side : WriteSide) (bStart : Bool) :
    (side.doWrite bStart).queued = side.queued := by
  simp only [doWrite]
  split
  · cases bStart <;> rfl
  · rfl
  · rename_i packet rest none_eq list_eq
    simp [queued, startWrite, none_eq, list_eq]

theorem doWrite_frame (side : WriteSide) (bStart : Bool) :
    (side.doWrite bStart).storage = side.storage ∧ (side.doWrite bStart).held = side.held ∧
      (side.doWrite bStart).entrusted = side.entrusted ∧
      (side.doWrite bStart).disconnected = side.disconnected := by
  simp only [doWrite]
  split
  · cases bStart <;> exact ⟨rfl, rfl, rfl, rfl⟩
  · exact ⟨rfl, rfl, rfl, rfl⟩
  · exact ⟨rfl, rfl, rfl, rfl⟩

theorem completeWrite_idle {sizewrite : ℕ} (idle : side.writepacket = none) :
    side.completeWrite sizewrite =
      { side with writeoffset := dword (side.writeoffset + sizewrite) } := by
  simp only [completeWrite, idle]

theorem perm_eraseIdx {α : Type} {list : List α} {element : α} {i : ℕ}
    (isAt : list[i]? = some element) : list.Perm (element :: list.eraseIdx i) := by
  obtain ⟨inside, rfl⟩ := List.getElem?_eq_some_iff.mp isAt
  exact (List.getElem_cons_eraseIdx_perm inside).symm

end Frames

namespace Accounted

variable {side next : WriteSide} {packet : PacketPtr}

/-- Packets may change hands between a thread and the write side. -/
theorem of_perm (accounted : side.Accounted) (storage_eq : next.storage = side.storage)
    (perm : (next.held ++ next.queued).Perm (side.held ++ side.queued))
    (entrusted : next.entrusted.Perm next.queued) : next.Accounted where
  wellFormed := storage_eq ▸ accounted.wellFormed
  nodup := perm.nodup_iff.mpr accounted.nodup
  listed packet mem := storage_eq ▸ accounted.listed packet (perm.mem_iff.mp mem)
  entrusted := entrusted

/-- A released packet leaves its holder and the storage list at once. -/
theorem of_release (accounted : side.Accounted) (storage_eq : next.storage = side.storage.release packet)
    (perm : (side.held ++ side.queued).Perm (packet :: (next.held ++ next.queued)))
    (entrusted : next.entrusted.Perm next.queued) : next.Accounted where
  wellFormed := by
    have inUse := accounted.listed packet (perm.mem_iff.mpr List.mem_cons_self)
    exact storage_eq ▸ accounted.wellFormed.release inUse
  nodup := (List.nodup_cons.mp (perm.nodup_iff.mp accounted.nodup)).2
  listed other mem := by
    have fresh := (List.nodup_cons.mp (perm.nodup_iff.mp accounted.nodup)).1
    have inUse := accounted.listed other (perm.mem_iff.mpr (List.mem_cons_of_mem _ mem))
    simp only [storage_eq]
    refine Storage.mem_release_iff.mpr ⟨inUse, ?_⟩
    rintro rfl
    exact fresh mem
  entrusted := entrusted

theorem allocate (accounted : side.Accounted) : side.allocate.Accounted := by
  rcases accounted.wellFormed.allocate with ⟨unused, wellFormed, list_eq⟩
  have perm : (side.allocate.held ++ side.allocate.queued).Perm
      (side.storage.allocate.1 :: (side.held ++ side.queued)) := by
    simp only [WriteSide.allocate, List.append_assoc, List.singleton_append]
    exact List.perm_middle
  refine ⟨wellFormed, ?_, ?_, accounted.entrusted⟩
  · refine perm.nodup_iff.mpr (List.nodup_cons.mpr ⟨?_, accounted.nodup⟩)
    exact fun mem => unused (accounted.listed _ mem)
  · intro packet mem
    change packet ∈ side.storage.allocate.2.2.list
    simp only [list_eq, List.mem_append, List.mem_singleton]
    rcases List.mem_cons.mp (perm.mem_iff.mp mem) with isNew | old
    · exact .inr isNew
    · exact .inl (accounted.listed packet old)

/-- A thread gives back a packet that it holds. -/
theorem releaseHeld {i : ℕ} (accounted : side.Accounted) (isHeld : side.held[i]? = some packet) :
    ({ side.release packet with held := side.held.eraseIdx i } : WriteSide).Accounted := by
  have perm := perm_eraseIdx isHeld
  have held := perm.mem_iff.mpr List.mem_cons_self
  have inUse := accounted.listed packet (List.mem_append_left _ held)
  have notQueued : packet ∉ side.queued := fun queued =>
    List.disjoint_of_nodup_append accounted.nodup held queued
  have notEntrusted : packet ∉ side.entrusted := fun entrusted =>
    notQueued (accounted.entrusted.mem_iff.mp entrusted)
  simp only [release_eq inUse, List.erase_of_not_mem notEntrusted]
  exact accounted.of_release rfl (perm.append_right side.queued) accounted.entrusted

theorem sendPacket {i : ℕ} (accounted : side.Accounted) (isHeld : side.held[i]? = some packet)
    (composed : Buffer) (rand : UInt8) (islastpacket : Bool) :
    (({ side with held := side.held.eraseIdx i } : WriteSide).sendPacket packet composed rand
      islastpacket).Accounted := by
  have queued_eq : (({ side with held := side.held.eraseIdx i } : WriteSide).sendPacket packet
      composed rand islastpacket).queued = side.queued ++ [packet] := by
    simp [WriteSide.sendPacket, queued]
  refine accounted.of_perm rfl ?_ ?_
  · simp only [queued_eq]
    calc side.held.eraseIdx i ++ (side.queued ++ [packet])
        = side.held.eraseIdx i ++ side.queued ++ [packet] := (List.append_assoc _ _ _).symm
      List.Perm _ (packet :: (side.held.eraseIdx i ++ side.queued)) := List.perm_append_singleton _ _
      List.Perm _ (side.held ++ side.queued) := (perm_eraseIdx isHeld).symm.append_right side.queued
  · simp only [queued_eq]
    exact accounted.entrusted.append_right [packet]

theorem doWrite (accounted : side.Accounted) (bStart : Bool) : (side.doWrite bStart).Accounted := by
  rcases side.doWrite_frame bStart with ⟨storage_eq, held_eq, entrusted_eq, -⟩
  refine accounted.of_perm storage_eq ?_ ?_
  · simp only [held_eq, queued_doWrite]
    exact List.Perm.refl _
  · simp only [entrusted_eq, queued_doWrite]
    exact accounted.entrusted

/-- A completion gives back the packet when the last byte is out. -/
theorem completeWrite (accounted : side.Accounted) (sizewrite : ℕ) :
    (side.completeWrite sizewrite).Accounted := by
  cases writing : side.writepacket with
  | none =>
      simp only [completeWrite_idle writing]
      exact accounted.of_perm rfl (List.Perm.refl _) accounted.entrusted
  | some packet =>
      have queued_eq : side.queued = packet :: side.writepacketlist := by
        simp [queued, writing]
      have inUse : packet ∈ side.storage.list :=
        accounted.listed packet (List.mem_append_right _ (by simp [queued_eq]))
      by_cases whole : dword (side.writeoffset + sizewrite) = (side.packets packet).buffer.used
      · have entrusted : (side.entrusted.erase packet).Perm side.writepacketlist := by
          have erased := (queued_eq ▸ accounted.entrusted).erase packet
          simpa using erased
        simp only [completeWrite_whole writing inUse whole]
        refine accounted.of_release rfl ?_ entrusted
        simp only [queued_eq]
        exact List.perm_middle
      · simp only [completeWrite_more writing whole]
        exact accounted.of_perm rfl (List.Perm.refl _) accounted.entrusted

/-- Draining gives back all queued packets, one after the other. -/
theorem drain (accounted : side.Accounted) (idle : side.writepacket = none) :
    side.drain.Accounted ∧ side.drain.writepacket = none := by
  have drains : ∀ (packets : List PacketPtr) (side : WriteSide), side.writepacket = none →
      ({ side with writepacketlist := packets } : WriteSide).Accounted →
        ({ packets.foldl WriteSide.release side with writepacketlist := [] } : WriteSide).Accounted ∧
          (packets.foldl WriteSide.release side).writepacket = none := by
    intro packets
    induction packets with
    | nil => exact fun side idle accounted => ⟨accounted, idle⟩
    | cons packet rest ih =>
        intro side idle accounted
        have inUse : packet ∈ side.storage.list :=
          accounted.listed packet (List.mem_append_right _ (by simp [queued]))
        have entrusted : (side.entrusted.erase packet).Perm rest := by
          have erased := accounted.entrusted.erase packet
          simpa [queued, idle] using erased
        simp only [List.foldl_cons, release_eq inUse]
        refine ih _ idle (accounted.of_release rfl ?_ ?_)
        · simp only [queued, idle, Option.toList_none, List.nil_append]
          exact List.perm_middle
        · simpa only [queued, idle, Option.toList_none, List.nil_append] using entrusted
  exact drains side.writepacketlist side idle accounted

theorem doDisconnect (accounted : side.Accounted) (idle : side.writepacket = none) :
    side.doDisconnect.Accounted := by
  have drained := accounted.drain idle
  have marked : ({ side.drain with writepacket := none, disconnected := true } : WriteSide).Accounted :=
    drained.1.of_perm rfl (by simp [queued, drained.2]) (by
      have entrusted := drained.1.entrusted
      simpa [queued, drained.2] using entrusted)
  simp only [WriteSide.doDisconnect, releaseSession, deinit]
  split
  · have again := (marked.drain rfl).1
    exact again.of_perm rfl (List.Perm.refl _) again.entrusted
  · exact marked

/-- Steps keep account of the packets, except for a disconnect in the middle of one. -/
theorem advance {event : Event} (accounted : side.Accounted)
    (between : side.Disconnects event → side.writepacket = none)
    (moves : side.advance event = some next) : next.Accounted := by
  have same : ∀ other : WriteSide, other.storage = side.storage → other.held = side.held →
      other.queued = side.queued → other.entrusted = side.entrusted → other.Accounted := by
    intro other storage_eq held_eq queued_eq entrusted_eq
    refine accounted.of_perm storage_eq ?_ ?_
    · simp only [held_eq, queued_eq]
      exact List.Perm.refl _
    · simp only [entrusted_eq, queued_eq]
      exact accounted.entrusted
  cases Step.of_advance moves with
  | allocate => exact accounted.allocate
  | release isHeld => exact accounted.releaseHeld isHeld
  | sendPacket rand islastpacket isHeld => exact accounted.sendPacket isHeld _ rand islastpacket
  | post => exact same _ rfl rfl rfl rfl
  | @doWrite i bStart idle isPosted =>
      have taken : ({ side with posted := side.posted.eraseIdx i } : WriteSide).Accounted :=
        same _ rfl rfl rfl rfl
      exact taken.doWrite bStart
  | @doDisconnect i idle isPosted =>
      have taken : ({ side with posted := side.posted.eraseIdx i } : WriteSide).Accounted :=
        same _ rfl rfl rfl rfl
      exact taken.doDisconnect (between isPosted)
  | @writeCompleted i sizewrite operation =>
      have taken : ({ side with
          writes := side.writes.eraseIdx i
          written := side.written ++ (side.block operation).take sizewrite } : WriteSide).Accounted :=
        same _ rfl rfl rfl rfl
      exact taken.completeWrite sizewrite
  | writeFailed => exact same _ rfl rfl rfl rfl
  | completed => exact same _ rfl rfl rfl rfl
  | checkClients => exact accounted.doDisconnect (between trivial)

theorem start (starts : side.Start) : side.Accounted := by
  have queued_eq : side.queued = [] := by
    simp [queued, starts.writepacket, starts.writepacketlist]
  refine ⟨starts.wellFormed, ?_, ?_, ?_⟩
  · simpa only [queued_eq, List.append_nil] using starts.held_nodup
  · simpa only [queued_eq, List.append_nil] using starts.held_listed
  · simp only [queued_eq, starts.entrusted, List.Perm.refl]

end Accounted

/-- A packet on its way out: it fits its block and does not end the session. -/
structure Sendable (packet : Packet) : Prop where
  used_pos : 0 < packet.buffer.used
  used_le : packet.buffer.used ≤ maxBufferSize
  notLast : packet.islastpacket = false

/-- Whoever is at work on the write side, it is one handler, and it knows where to go on. -/
structure Sound (side : WriteSide) : Prop where
  accounted : side.Accounted
  sendable : ∀ packet ∈ side.queued, Sendable (side.packets packet)
  offset_lt : ∀ packet, side.writepacket = some packet →
    side.writeoffset < (side.packets packet).buffer.used
  turns : side.writes.length + side.handlers.count (.doWrite false) =
    side.writepacket.toList.length
  asked : ∀ operation ∈ side.writes, side.writepacket = some operation.packet ∧
    operation.offset = side.writeoffset ∧
    operation.size = (side.packets operation.packet).buffer.used - side.writeoffset
  wakes : side.writepacket = none → side.writepacketlist ≠ [] →
    0 < side.sending ∨ .doWrite true ∈ side.handlers
  onlyWrites : .doDisconnect ∉ side.handlers
  stream : side.written ++ side.unwritten ++ side.writepacketlist.flatMap side.contents =
    side.sent.flatten

namespace Sendable

theorem of_buildPacket {buffer composed : Buffer} {bOpcode : UInt8} {fields : List Field}
    (built : buildPacket buffer bOpcode fields = some composed) (rand : UInt8) :
    Sendable { buffer := composed.encrypt rand, islastpacket := false } := by
  rcases framed_of_buildPacket built with ⟨key, framed, -⟩
  have encrypted := framed.encrypt rand
  refine ⟨?_, encrypted.used_le, rfl⟩
  simp only [encrypted.used_eq]
  omega

theorem length_contents {packet : Packet} (sendable : Sendable packet) :
    packet.buffer.contents.length = packet.buffer.used := by
  have used_le := sendable.used_le
  simp only [Buffer.length_contents, maxBufferSize] at used_le ⊢
  omega

end Sendable

namespace Sound

variable {side next : WriteSide}

/-- Steps elsewhere that leave the blocks of the queued packets alone. -/
theorem of_frame (sound : side.Sound) (accounted : next.Accounted)
    (packets : ∀ packet ∈ side.queued, next.packets packet = side.packets packet)
    (writepacket : next.writepacket = side.writepacket)
    (writepacketlist : next.writepacketlist = side.writepacketlist)
    (writeoffset : next.writeoffset = side.writeoffset) (writes : next.writes = side.writes)
    (wakes : side.writepacket = none → side.writepacketlist ≠ [] →
      0 < side.sending ∨ .doWrite true ∈ side.handlers →
        0 < next.sending ∨ .doWrite true ∈ next.handlers)
    (continues : next.handlers.count (.doWrite false) = side.handlers.count (.doWrite false))
    (onlyWrites : .doDisconnect ∉ next.handlers) (sent : next.sent = side.sent)
    (written : next.written = side.written) : next.Sound := by
  have queued_eq : next.queued = side.queued := by
    simp only [queued, writepacket, writepacketlist]
  have current : ∀ packet, side.writepacket = some packet → packet ∈ side.queued := by
    intro packet writing
    simp [queued, writing]
  have contents : ∀ packet ∈ side.queued, next.contents packet = side.contents packet := by
    intro packet mem
    simp only [WriteSide.contents, packets packet mem]
  refine ⟨accounted, ?_, ?_, ?_, ?_, ?_, onlyWrites, ?_⟩
  · intro packet mem
    simp only [queued_eq] at mem
    simp only [packets packet mem]
    exact sound.sendable packet mem
  · intro packet writing
    simp only [writepacket] at writing
    simp only [packets packet (current packet writing), writeoffset]
    exact sound.offset_lt packet writing
  · simp only [writes, continues, writepacket]
    exact sound.turns
  · intro operation mem
    simp only [writes] at mem
    rcases sound.asked operation mem with ⟨writing, offset_eq, size_eq⟩
    simp only [writepacket, writeoffset, packets _ (current _ writing)]
    exact ⟨writing, offset_eq, size_eq⟩
  · intro idle waiting
    simp only [writepacket, writepacketlist] at idle waiting
    exact wakes idle waiting (sound.wakes idle waiting)
  · have rest_eq : next.writepacketlist.flatMap next.contents =
        side.writepacketlist.flatMap side.contents := by
      simp only [writepacketlist]
      refine List.flatMap_congr fun packet mem => contents packet ?_
      exact List.mem_append_right _ mem
    have unwritten_eq : next.unwritten = side.unwritten := by
      simp only [unwritten, writepacket, writeoffset]
      cases writing : side.writepacket with
      | none => rfl
      | some packet => simp only [Option.elim, contents packet (current packet writing)]
    simp only [written, rest_eq, unwritten_eq, sent]
    exact sound.stream

theorem allocate (sound : side.Sound) : side.allocate.Sound := by
  have unused := sound.accounted.wellFormed.allocate.1
  refine sound.of_frame sound.accounted.allocate ?_ rfl rfl rfl rfl (fun _ _ => id) rfl sound.onlyWrites rfl rfl
  intro packet mem
  have inUse := sound.accounted.listed packet (List.mem_append_right _ mem)
  have different : packet ≠ side.storage.allocate.1 := fun same => unused (same ▸ inUse)
  exact Function.update_of_ne different _ _

theorem releaseHeld {i : ℕ} {packet : PacketPtr} (sound : side.Sound)
    (isHeld : side.held[i]? = some packet) :
    ({ side.release packet with held := side.held.eraseIdx i } : WriteSide).Sound := by
  have held := (perm_eraseIdx isHeld).mem_iff.mpr List.mem_cons_self
  have inUse := sound.accounted.listed packet (List.mem_append_left _ held)
  have accounted := sound.accounted.releaseHeld isHeld
  simp only [release_eq inUse] at accounted ⊢
  refine sound.of_frame accounted ?_ rfl rfl rfl rfl (fun _ _ => id) rfl sound.onlyWrites rfl rfl
  intro other mem
  have different : other ≠ packet := by
    rintro rfl
    exact List.disjoint_of_nodup_append sound.accounted.nodup held mem
  exact Function.update_of_ne different _ _

/-- What is sent goes to the end of the stream. -/
theorem sendPacket {i : ℕ} {packet : PacketPtr} {buffer composed : Buffer} {bOpcode : UInt8}
    {fields : List Field} (sound : side.Sound) (isHeld : side.held[i]? = some packet)
    (built : buildPacket buffer bOpcode fields = some composed) (rand : UInt8) :
    (({ side with held := side.held.eraseIdx i } : WriteSide).sendPacket packet composed rand
      false).Sound := by
  have accounted := sound.accounted.sendPacket isHeld composed rand false
  have held := (perm_eraseIdx isHeld).mem_iff.mpr List.mem_cons_self
  have different : ∀ other ∈ side.queued, other ≠ packet := by
    rintro other mem rfl
    exact List.disjoint_of_nodup_append sound.accounted.nodup held mem
  set next := ({ side with held := side.held.eraseIdx i } : WriteSide).sendPacket packet composed
    rand false with next_eq
  have packets : ∀ other ∈ side.queued, next.packets other = side.packets other := fun other mem =>
    Function.update_of_ne (different other mem) _ _
  have isNew : next.packets packet = { buffer := composed.encrypt rand, islastpacket := false } :=
    Function.update_self _ _ _
  have current : ∀ other, side.writepacket = some other → other ∈ side.queued := by
    intro other writing
    simp [queued, writing]
  refine ⟨accounted, ?_, ?_, sound.turns, ?_, fun _ _ => .inl (Nat.succ_pos _), sound.onlyWrites, ?_⟩
  · intro other mem
    have cases : other ∈ side.queued ∨ other = packet := by
      have queued_eq : next.queued = side.queued ++ [packet] := by
        simp [next_eq, WriteSide.sendPacket, queued]
      simpa [queued_eq] using mem
    rcases cases with old | rfl
    · simp only [packets other old]
      exact sound.sendable other old
    · simp only [isNew]
      exact .of_buildPacket built rand
  · intro other writing
    simp only [packets other (current other writing)]
    exact sound.offset_lt other writing
  · intro operation mem
    rcases sound.asked operation mem with ⟨writing, offset_eq, size_eq⟩
    simp only [packets _ (current _ writing)]
    exact ⟨writing, offset_eq, size_eq⟩
  · have rest_eq : next.writepacketlist.flatMap next.contents =
        side.writepacketlist.flatMap side.contents ++ (composed.encrypt rand).contents := by
      have queue_eq : next.writepacketlist = side.writepacketlist ++ [packet] := rfl
      have kept : side.writepacketlist.flatMap next.contents =
          side.writepacketlist.flatMap side.contents := by
        refine List.flatMap_congr fun other mem => ?_
        simp only [contents, packets other (List.mem_append_right _ mem)]
      simp only [queue_eq, List.flatMap_append, List.flatMap_singleton, kept, contents, isNew]
    have unwritten_eq : next.unwritten = side.unwritten := by
      have writepacket_eq : next.writepacket = side.writepacket := rfl
      have writeoffset_eq : next.writeoffset = side.writeoffset := rfl
      simp only [unwritten, writepacket_eq, writeoffset_eq]
      cases writing : side.writepacket with
      | none => rfl
      | some other => simp only [Option.elim, contents, packets other (current other writing)]
    have sent_eq : next.sent = side.sent ++ [(composed.encrypt rand).contents] := rfl
    have written_eq : next.written = side.written := rfl
    simp only [written_eq, unwritten_eq, rest_eq, sent_eq, List.flatten_append,
      List.flatten_singleton, ← sound.stream, List.append_assoc]

theorem post (sound : side.Sound) :
    ({ side with sending := side.sending - 1, posted := side.posted ++ [.doWrite true] } :
      WriteSide).Sound := by
  have accounted : ({ side with
      sending := side.sending - 1, posted := side.posted ++ [.doWrite true] } :
        WriteSide).Accounted :=
    sound.accounted.of_perm rfl (List.Perm.refl _) sound.accounted.entrusted
  refine sound.of_frame accounted (fun _ _ => rfl) rfl rfl rfl rfl ?_ ?_ ?_ rfl rfl
  · intro _ _ _
    exact .inr (by simp [handlers])
  · simp [handlers]
  · have onlyWrites := sound.onlyWrites
    simp only [handlers, List.mem_append] at onlyWrites ⊢
    simpa using onlyWrites

theorem completed {handler : Handler} (sound : side.Sound)
    (isLast : side.completing = some handler) :
    ({ side with completing := none, posted := side.posted ++ [handler] } : WriteSide).Sound := by
  have accounted : ({ side with completing := none, posted := side.posted ++ [handler] } :
      WriteSide).Accounted :=
    sound.accounted.of_perm rfl (List.Perm.refl _) sound.accounted.entrusted
  have perm : (side.posted ++ [handler]).Perm side.handlers := by
    simp only [handlers, isLast]
    exact List.perm_append_singleton _ _
  refine sound.of_frame accounted (fun _ _ => rfl) rfl rfl rfl rfl ?_ ?_ ?_ rfl rfl
  · exact fun _ _ => Or.imp_right perm.mem_iff.mpr
  · exact perm.count_eq _
  · exact fun mem => sound.onlyWrites (perm.mem_iff.mp mem)

/-- A write of the rest of the current packet may start when nobody else goes on. -/
theorem of_startWrite {packet : PacketPtr} (accounted : (next.startWrite packet).Accounted)
    (sendable : ∀ other ∈ next.queued, Sendable (next.packets other))
    (writing : next.writepacket = some packet)
    (offset_lt : next.writeoffset < (next.packets packet).buffer.used)
    (noWrites : next.writes = [])
    (alone : next.handlers.count (.doWrite false) = 0) (onlyWrites : .doDisconnect ∉ next.handlers)
    (stream : next.written ++ next.unwritten ++ next.writepacketlist.flatMap next.contents =
      next.sent.flatten) : (next.startWrite packet).Sound where
  accounted := accounted
  sendable := sendable
  offset_lt other writing' := by
    obtain rfl := Option.some.inj (writing.symm.trans writing')
    exact offset_lt
  turns := by
    change (next.startWrite packet).writes.length + next.handlers.count (.doWrite false) =
      next.writepacket.toList.length
    simp [WriteSide.startWrite, noWrites, alone, writing]
  asked operation mem := by
    simp only [WriteSide.startWrite, noWrites, List.nil_append, List.mem_singleton] at mem
    subst mem
    exact ⟨writing, rfl, rfl⟩
  wakes idle := absurd (writing.symm.trans idle) (Option.some_ne_none packet)
  onlyWrites := onlyWrites
  stream := stream

/-- A posted `DoWrite` goes on with the current packet, or starts the next one. -/
theorem runDoWrite {i : ℕ} {bStart : Bool} (sound : side.Sound) (idle : side.completing = none)
    (isPosted : side.posted[i]? = some (.doWrite bStart)) :
    (({ side with posted := side.posted.eraseIdx i } : WriteSide).doWrite bStart).Sound := by
  have perm : side.handlers.Perm (.doWrite bStart :: side.posted.eraseIdx i) := by
    simp only [handlers, idle, Option.toList_none, List.nil_append]
    exact perm_eraseIdx isPosted
  have onlyWrites : Handler.doDisconnect ∉ side.posted.eraseIdx i := fun mem =>
    sound.onlyWrites (perm.mem_iff.mpr (List.mem_cons_of_mem _ mem))
  have turns := sound.turns
  simp only [perm.count_eq, List.count_cons] at turns
  set taken : WriteSide := { side with posted := side.posted.eraseIdx i } with taken_eq
  have handlers_eq : taken.handlers = side.posted.eraseIdx i := by
    simp only [handlers, taken_eq, idle, Option.toList_none, List.nil_append]
  have noDisconnect : Handler.doDisconnect ∉ taken.handlers := handlers_eq ▸ onlyWrites
  have accounted : taken.Accounted :=
    sound.accounted.of_perm rfl (List.Perm.refl _) sound.accounted.entrusted
  cases writing : side.writepacket with
  | some packet =>
      have takenWriting : taken.writepacket = some packet := writing
      simp only [writing, Option.toList_some, List.length_singleton] at turns
      cases bStart with
      | true =>
          simp only [doWrite_true_writing takenWriting]
          refine sound.of_frame accounted (fun _ _ => rfl) rfl rfl rfl rfl ?_ ?_ ?_ rfl rfl
          · exact fun isIdle => absurd (writing.symm.trans isIdle) (Option.some_ne_none packet)
          · simp only [handlers_eq, perm.count_eq, List.count_cons]
            rfl
          · exact noDisconnect
      | false =>
          simp only [doWrite_false_writing takenWriting]
          simp only [beq_self_eq_true, if_true] at turns
          have noWrites : side.writes = [] := List.length_eq_zero_iff.mp (by omega)
          have started : (taken.startWrite packet).Accounted :=
            accounted.of_perm rfl (List.Perm.refl _) accounted.entrusted
          have alone : taken.handlers.count (.doWrite false) = 0 := by
            simp only [handlers_eq]
            omega
          exact of_startWrite started sound.sendable writing (sound.offset_lt packet writing)
            noWrites alone noDisconnect sound.stream
  | none =>
      simp only [writing, Option.toList_none, List.length_nil] at turns
      have noWrites : side.writes = [] := List.length_eq_zero_iff.mp (by omega)
      have takenIdle : taken.writepacket = none := writing
      cases waiting : side.writepacketlist with
      | nil =>
          have takenEmpty : taken.writepacketlist = [] := waiting
          simp only [doWrite_empty takenIdle takenEmpty]
          refine sound.of_frame accounted (fun _ _ => rfl) rfl rfl rfl rfl ?_ ?_ ?_ rfl rfl
          · exact fun _ nonempty => absurd waiting nonempty
          · simp only [handlers_eq, perm.count_eq, List.count_cons]
            omega
          · exact noDisconnect
      | cons packet rest =>
          have takenWaiting : taken.writepacketlist = packet :: rest := waiting
          simp only [doWrite_waiting takenIdle takenWaiting]
          have started := accounted.doWrite bStart
          simp only [doWrite_waiting takenIdle takenWaiting] at started
          have queued_eq : side.queued = packet :: rest := by
            simp [queued, writing, waiting]
          have sendable := sound.sendable
          simp only [queued_eq] at sendable
          have alone : taken.handlers.count (.doWrite false) = 0 := by
            simp only [handlers_eq]
            omega
          refine of_startWrite started sendable rfl
            (sendable packet List.mem_cons_self).used_pos noWrites alone noDisconnect ?_
          have stream := sound.stream
          simp only [unwritten, writing, Option.elim, List.append_nil, waiting,
            List.flatMap_cons] at stream
          simp only [List.append_assoc]
          exact stream

/-- A completion records what the socket took and decides who goes on. -/
theorem writeCompleted {i sizewrite : ℕ} {operation : WriteOperation} (sound : side.Sound)
    (idle : side.completing = none) (isAt : side.writes[i]? = some operation)
    (fits : sizewrite ≤ operation.size) :
    (({ side with
        writes := side.writes.eraseIdx i
        written := side.written ++ (side.block operation).take sizewrite } :
      WriteSide).completeWrite sizewrite).Sound := by
  have perm := perm_eraseIdx isAt
  rcases sound.asked operation (perm.mem_iff.mpr List.mem_cons_self) with
    ⟨writing, offset_eq, size_eq⟩
  have turns := sound.turns
  simp only [perm.length_eq, List.length_cons, writing, Option.toList_some,
    List.length_nil] at turns
  have noWrites : side.writes.eraseIdx i = [] := List.length_eq_zero_iff.mp (by omega)
  have alone : side.posted.count (.doWrite false) = 0 := by
    simp only [handlers, idle, Option.toList_none, List.nil_append] at turns
    omega
  have onlyWrites : Handler.doDisconnect ∉ side.posted := fun mem =>
    sound.onlyWrites (List.mem_append_right _ mem)
  set packet := operation.packet with packet_eq
  have isSendable := sound.sendable packet (by simp [queued, writing])
  have offset_lt := sound.offset_lt packet writing
  have used_le := isSendable.used_le
  simp only [maxBufferSize] at used_le
  have offset_next : dword (side.writeoffset + sizewrite) = side.writeoffset + sizewrite :=
    dword_of_lt (by omega)
  have block_eq : side.block operation = (side.contents packet).drop side.writeoffset := by
    simp only [block, readAt, offset_eq, size_eq, contents, Buffer.contents, List.drop_take,
      ← packet_eq]
  set taken : WriteSide := { side with
    writes := side.writes.eraseIdx i
    written := side.written ++ (side.block operation).take sizewrite } with taken_eq
  have accounted : taken.Accounted :=
    sound.accounted.of_perm rfl (List.Perm.refl _) sound.accounted.entrusted
  have done := accounted.completeWrite sizewrite
  have stream := sound.stream
  have split_eq : (side.contents packet).drop side.writeoffset =
      ((side.contents packet).drop side.writeoffset).take sizewrite ++
        (side.contents packet).drop (side.writeoffset + sizewrite) := by
    rw [← List.drop_drop, List.take_append_drop]
  simp only [unwritten, writing, Option.elim] at stream
  rw [split_eq] at stream
  have takenWriting : taken.writepacket = some packet := writing
  by_cases whole : side.writeoffset + sizewrite = (side.packets packet).buffer.used
  · have inUse := sound.accounted.listed packet (List.mem_append_right _ (by simp [queued, writing]))
    have notCurrent : ∀ other ∈ side.writepacketlist, other ≠ packet := by
      rintro other mem rfl
      have nodup := (List.nodup_append.mp sound.accounted.nodup).2.1
      simp only [queued, writing, Option.toList_some, List.singleton_append,
        List.nodup_cons] at nodup
      exact nodup.1 mem
    have nothing : (side.contents packet).drop (side.writeoffset + sizewrite) = [] := by
      simp only [whole, contents, ← isSendable.length_contents, List.drop_length]
    have next_eq := completeWrite_whole takenWriting inUse (offset_next.trans whole)
    have notLast : (taken.packets packet).islastpacket = false := isSendable.notLast
    simp only [next_eq, notLast, Bool.false_eq_true, if_false] at done ⊢
    refine ⟨done, ?_, ?_, ?_, ?_, ?_, ?_, ?_⟩
    · intro other mem
      simp only [Function.update_of_ne (notCurrent other mem)]
      exact sound.sendable other (List.mem_append_right _ mem)
    · exact fun other isNone => absurd isNone.symm (Option.some_ne_none other)
    · simp [handlers, taken_eq, noWrites, alone]
    · intro other mem
      simp [taken_eq, noWrites] at mem
    · intro _ _
      exact .inr (by simp [handlers])
    · simpa [handlers] using onlyWrites
    · have rest_eq : ∀ other ∈ side.writepacketlist,
          (Function.update side.packets packet (side.packets packet).deinit other).buffer.contents =
            side.contents other := by
        intro other mem
        simp only [Function.update_of_ne (notCurrent other mem), contents]
      simp only [nothing, List.append_nil] at stream
      simp only [unwritten, Option.elim, List.append_nil, taken_eq, block_eq]
      rw [← stream]
      exact congrArg _ (List.flatMap_congr rest_eq)
  · have next_eq := completeWrite_more takenWriting (offset_next ▸ whole)
    simp only [next_eq] at done ⊢
    refine ⟨done, sound.sendable, ?_, ?_, ?_, ?_, ?_, ?_⟩
    · intro other isCurrent
      obtain rfl := Option.some.inj (writing.symm.trans isCurrent)
      simp only [offset_next, taken_eq]
      omega
    · simp [handlers, taken_eq, noWrites, alone, writing]
    · intro other mem
      simp [taken_eq, noWrites] at mem
    · exact fun isIdle => absurd (writing.symm.trans isIdle) (Option.some_ne_none packet)
    · simpa [handlers] using onlyWrites
    · simp only [unwritten, taken_eq, writing, Option.elim, offset_next, block_eq]
      simp only [List.append_assoc] at stream ⊢
      exact stream

theorem start (starts : side.Start) : side.Sound where
  accounted := .start starts
  sendable packet mem := by simp [queued, starts.writepacket, starts.writepacketlist] at mem
  offset_lt packet writing := absurd (writing.symm.trans starts.writepacket) (Option.some_ne_none _)
  turns := by simp [handlers, starts.writes, starts.completing, starts.posted, starts.writepacket]
  asked operation mem := by simp [starts.writes] at mem
  wakes _ waiting := absurd starts.writepacketlist waiting
  onlyWrites := by simp [handlers, starts.completing, starts.posted]
  stream := by
    simp [unwritten, starts.written, starts.writepacket, starts.writepacketlist, starts.sent]

theorem advance {event : Event} (sound : side.Sound) (undisturbed : side.Undisturbed event)
    (moves : side.advance event = some next) : next.Sound := by
  rcases undisturbed with ⟨noDisconnect, harmless⟩
  cases Step.of_advance moves with
  | allocate => exact sound.allocate
  | release isHeld => exact sound.releaseHeld isHeld
  | sendPacket rand islastpacket isHeld built =>
      obtain rfl : islastpacket = false := harmless
      exact sound.sendPacket isHeld built rand
  | post => exact sound.post
  | doWrite idle isPosted => exact sound.runDoWrite idle isPosted
  | doDisconnect idle isPosted => exact absurd isPosted noDisconnect
  | writeCompleted idle isAt takes fits => exact sound.writeCompleted idle isAt fits
  | writeFailed => exact harmless.elim
  | completed isLast => exact sound.completed isLast
  | checkClients => exact absurd trivial noDisconnect

/-- Whichever way the turn goes, some handler starts the next write. -/
theorem goesOn (sound : side.Sound) (waiting : side.queued ≠ []) (noWrites : side.writes = []) :
    ∃ bStart, (.doWrite bStart ∈ side.handlers ∨ bStart = true ∧ 0 < side.sending) ∧
      (side.doWrite bStart).writes ≠ [] := by
  have turns := sound.turns
  cases writing : side.writepacket with
  | some packet =>
      simp only [noWrites, writing, List.length_nil, Option.toList_some, List.length_singleton,
        Nat.zero_add] at turns
      refine ⟨false, .inl (List.count_pos_iff.mp (by omega)), ?_⟩
      simp [doWrite_false_writing writing, WriteSide.startWrite]
  | none =>
      cases list_eq : side.writepacketlist with
      | nil => simp [queued, writing, list_eq] at waiting
      | cons packet rest =>
          refine ⟨true, ?_, ?_⟩
          · rcases sound.wakes writing (by simp [list_eq]) with sending | posted
            · exact .inr ⟨rfl, sending⟩
            · exact .inl posted
          · simp [doWrite_waiting writing list_eq, WriteSide.startWrite]

theorem handed {operation : WriteOperation} (sound : side.Sound) (mem : operation ∈ side.writes) :
    side.block operation = side.unwritten ∧ side.block operation ≠ [] := by
  rcases sound.asked operation mem with ⟨writing, offset_eq, size_eq⟩
  have offset_lt := sound.offset_lt _ writing
  have length_eq := (sound.sendable operation.packet (by simp [queued, writing])).length_contents
  have block_eq : side.block operation =
      (side.contents operation.packet).drop side.writeoffset := by
    simp only [block, readAt, offset_eq, size_eq, contents, Buffer.contents, List.drop_take]
  refine ⟨by simp only [block_eq, unwritten, writing, Option.elim], ?_⟩
  intro empty
  have short := congrArg List.length (block_eq.symm.trans empty)
  simp only [contents, List.length_drop, length_eq, List.length_nil] at short
  omega

end Sound

/-- The write side does its work: one write at a time, every byte in its place, and whenever
there is something to write and no write outstanding, some handler that is posted or about to be
posted starts one. -/
structure InOrder (side : WriteSide) : Prop where
  atMostOne : side.writes.length ≤ 1
  stream : side.written ++ side.unwritten ++ side.writepacketlist.flatMap side.contents =
    side.sent.flatten
  handed : ∀ operation ∈ side.writes,
    side.block operation = side.unwritten ∧ side.block operation ≠ []
  goesOn : side.queued ≠ [] → side.writes = [] →
    ∃ bStart, (.doWrite bStart ∈ side.handlers ∨ bStart = true ∧ 0 < side.sending) ∧
      (side.doWrite bStart).writes ≠ []

/-- Undisturbed, the write side is in order after any sends, completions and handlers. -/
theorem writes_in_order {side : WriteSide}
    (reached : (system.restrict Undisturbed).Reachable side) : side.InOrder := by
  have invariant : (system.restrict Undisturbed).Invariant Sound :=
    { initial := fun side starts => .start starts
      step := fun side event next sound moves => sound.advance moves.1 moves.2 }
  have sound := invariant.of_reachable reached
  have turns := sound.turns
  have atMostOne : side.writepacket.toList.length ≤ 1 := by
    cases side.writepacket <;> simp
  exact ⟨by omega, sound.stream, fun operation mem => sound.handed mem,
    fun waiting noWrites => sound.goesOn waiting noWrites⟩

/-- A connection that is the first to use packets. -/
def opened : WriteSide where
  packets _ := { buffer := Buffer.blank, islastpacket := false }
  storage := { list := [], freelist := [], heap := 0 }
  held := []
  writepacketlist := []
  writepacket := none
  writeoffset := 0
  writes := []
  sending := 0
  completing := none
  posted := []
  listed := true
  sent := []
  written := []
  entrusted := []
  disconnected := false

theorem start_opened : Start opened where
  wellFormed := by
    refine ⟨List.nodup_nil, List.nodup_nil, ?_, ?_, ?_⟩ <;> simp [opened]
  held_nodup := List.nodup_nil
  held_listed packet mem := absurd mem List.not_mem_nil
  writepacketlist := rfl
  writepacket := rfl
  writes := rfl
  sending := rfl
  completing := rfl
  posted := rfl
  listed := rfl
  sent := rfl
  written := rfl
  entrusted := rfl
  disconnected := rfl

/-- Two packets, the first of which takes two writes; the second `DoWrite` comes in between. -/
theorem writes_in_order_twoPackets : ∃ side,
    (system.restrict Undisturbed).Reachable side ∧ side.InOrder ∧
      side.written = [4, 0, 0, 0, 0, 200] ∧ side.unwritten = [1, 1, 0, 0, 0, 33, 25] := by
  let events : List Event := [.allocate, .sendPacket 0 4 [] 200 false, .allocate, .post,
    .runPosted 0, .sendPacket 0 1 [.block [7]] 33 false, .writeCompleted 0 2, .post, .completed,
    .runPosted 0, .runPosted 0, .writeCompleted 0 4, .completed, .runPosted 0]
  have ends : (StepSystem.play advance Undisturbed opened events).map (fun side =>
      (side.written, side.unwritten)) =
        some ([4, 0, 0, 0, 0, 200], [1, 1, 0, 0, 0, 33, 25]) := by
    decide +kernel
  rcases Option.map_eq_some_iff.mp ends with ⟨side, plays, records⟩
  have reached : (system.restrict Undisturbed).Reachable side :=
    StepSystem.reachable_play (.initial start_opened)
      (fun _ _ _ isAllowed moves => ⟨isAllowed, moves⟩) plays
  exact ⟨side, reached, writes_in_order reached, Prod.mk.inj records⟩

end WriteSide

end PoETask.AuthServer
