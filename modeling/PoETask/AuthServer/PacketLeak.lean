import PoETask.AuthServer.WriteSide

/-!
# Packets that are never given back

`DoDisconnect` empties the write queue into the storage and forgets the current packet.
When it runs between two packets, every packet the session was given is back in the
storage. When it runs in the middle of one, that packet is left in the storage list: the
completions that are still to come find no current packet, and nobody else knows of it.
-/

namespace PoETask.AuthServer

open PoETask.Library PoETask.Wire

namespace WriteSide

/-- The session is over: nothing was sent since it was disconnected, and no completion is due. -/
structure Finished (side : WriteSide) : Prop where
  disconnected : side.disconnected = true
  noWrites : side.writes = []
  noCompletion : side.completing = none

/-- No packet that was given to the session and not released is in use. -/
def ReturnsPackets (side : WriteSide) : Prop :=
  ∀ packet ∈ side.entrusted, packet ∉ side.storage.list

/-- The session is disconnected only between two packets. -/
def BetweenPackets (side : WriteSide) (event : Event) : Prop :=
  side.Disconnects event → side.writepacket = none

instance (side : WriteSide) (event : Event) : Decidable (side.BetweenPackets event) :=
  inferInstanceAs (Decidable (_ → _))

/-- A packet in use that the session was given. -/
structure Entrusted (side : WriteSide) (packet : PacketPtr) : Prop where
  wellFormed : side.storage.WellFormed
  inUse : packet ∈ side.storage.list
  entrusted : packet ∈ side.entrusted
  notHeld : packet ∉ side.held

/-- Neither a thread nor the write side knows of the packet any more. -/
structure Abandoned (side : WriteSide) (packet : PacketPtr) : Prop extends side.Entrusted packet where
  notQueued : packet ∉ side.queued

section Frames

theorem release_frame (side : WriteSide) (packet : PacketPtr) :
    ∃ blocks storage entrusted,
      side.release packet = { side with packets := blocks, storage, entrusted } := by
  by_cases inUse : packet ∈ side.storage.list
  · exact ⟨_, _, _, release_eq inUse⟩
  · exact ⟨side.packets, side.storage, side.entrusted, if_neg inUse⟩

/-- Releasing packets changes nothing but the storage, the blocks and the account of them. -/
theorem foldl_release_frame (packets : List PacketPtr) (side : WriteSide) :
    ∃ blocks storage entrusted, packets.foldl release side =
      { side with packets := blocks, storage, entrusted } := by
  induction packets generalizing side with
  | nil => exact ⟨side.packets, side.storage, side.entrusted, rfl⟩
  | cons packet rest ih =>
      rcases side.release_frame packet with ⟨_, _, _, first_eq⟩
      rcases ih (side.release packet) with ⟨blocks, storage, entrusted, rest_eq⟩
      simp only [first_eq] at rest_eq
      exact ⟨blocks, storage, entrusted, by simp only [List.foldl_cons, first_eq, rest_eq]⟩

/-- `Deinit` finds nothing to drain after `DoDisconnect` has drained the queue. -/
theorem doDisconnect_eq (side : WriteSide) : side.doDisconnect =
    { side.writepacketlist.foldl release side with
      writepacketlist := [], writepacket := none, listed := false, disconnected := true } := by
  rcases foldl_release_frame side.writepacketlist side with ⟨blocks, storage, entrusted, drain_eq⟩
  simp only [doDisconnect, releaseSession, deinit, drain, drain_eq]
  cases listed_eq : side.listed <;> simp

end Frames

/-- After a disconnect the write side is empty until the next send. -/
def Emptied (side : WriteSide) : Prop := side.disconnected = true → side.queued = []

theorem writepacket_of_queued {side : WriteSide} (empty : side.queued = []) :
    side.writepacket = none := by
  simpa [queued, Option.toList_eq_nil_iff] using (List.append_eq_nil_iff.mp empty).1

theorem disconnected_completeWrite {side : WriteSide} (sizewrite : ℕ) :
    (side.completeWrite sizewrite).disconnected = side.disconnected := by
  simp only [completeWrite]
  split
  · rfl
  · rename_i packet writing
    split
    · rcases release_frame { side with writeoffset := dword (side.writeoffset + sizewrite) } packet
        with ⟨_, _, _, release_eq⟩
      simp only [release_eq]
    · rfl

theorem Emptied.advance {side next : WriteSide} {event : Event} (emptied : side.Emptied)
    (moves : side.advance event = some next) : next.Emptied := by
  cases Step.of_advance moves with
  | allocate => exact emptied
  | @release i packet =>
      rcases side.release_frame packet with ⟨_, _, _, release_eq⟩
      simp only [release_eq]
      exact emptied
  | sendPacket => exact fun isOver => absurd isOver Bool.false_ne_true
  | post => exact emptied
  | doWrite =>
      simp only [Emptied, queued_doWrite, (doWrite_frame _ _).2.2.2]
      exact emptied
  | doDisconnect =>
      simp only [doDisconnect_eq]
      exact fun _ => rfl
  | writeCompleted =>
      intro isOver
      simp only [disconnected_completeWrite] at isOver
      have empty := emptied isOver
      simp only [completeWrite, writepacket_of_queued empty]
      exact (List.append_eq_nil_iff.mp empty).2
  | writeFailed => exact emptied
  | completed => exact emptied
  | checkClients =>
      simp only [doDisconnect_eq]
      exact fun _ => rfl

/-- A session that is only ever disconnected between two packets leaves none of them in use. -/
theorem no_packet_leak {side : WriteSide}
    (reached : (system.restrict BetweenPackets).Reachable side) (finished : side.Finished) :
    side.ReturnsPackets := by
  have invariant : (system.restrict BetweenPackets).Invariant fun side =>
      side.Accounted ∧ side.Emptied :=
    { initial := fun side starts => ⟨.start starts, fun _ => by
        simp [queued, starts.writepacket, starts.writepacketlist]⟩
      step := fun side event next sound moves =>
        ⟨sound.1.advance moves.1 moves.2, sound.2.advance moves.2⟩ }
  rcases invariant.of_reachable reached with ⟨accounted, emptied⟩
  have entrusted := accounted.entrusted
  simp only [emptied finished.disconnected, List.perm_nil] at entrusted
  intro packet mem
  simp only [entrusted] at mem
  exact absurd mem List.not_mem_nil

/-- A packet is sent in two writes, and the client goes away before the second packet is sent. -/
theorem no_packet_leak_closed : ∃ side,
    (system.restrict BetweenPackets).Reachable side ∧ side.Finished ∧ side.ReturnsPackets ∧
      side.written = [4, 0, 0, 0, 0, 200] ∧ side.sent.length = 2 := by
  let events : List Event := [.allocate, .sendPacket 0 4 [] 200 false, .post, .runPosted 0,
    .writeCompleted 0 2, .completed, .runPosted 0, .writeCompleted 0 4, .completed,
    .allocate, .sendPacket 0 4 [] 33 false, .checkClients, .post, .runPosted 0, .runPosted 0]
  have ends : (StepSystem.play advance BetweenPackets opened events).map (fun side =>
      (side.disconnected, side.writes.length, side.completing, side.written, side.sent.length)) =
        some (true, 0, none, [4, 0, 0, 0, 0, 200], 2) := by
    decide +kernel
  rcases Option.map_eq_some_iff.mp ends with ⟨side, plays, records⟩
  simp only [Prod.mk.injEq, List.length_eq_zero_iff] at records
  rcases records with ⟨disconnected, noWrites, noCompletion, written, sent⟩
  have reached : (system.restrict BetweenPackets).Reachable side :=
    StepSystem.reachable_play (.initial start_opened)
      (fun _ _ _ isAllowed moves => ⟨isAllowed, moves⟩) plays
  have finished : side.Finished := ⟨disconnected, noWrites, noCompletion⟩
  exact ⟨side, reached, finished, no_packet_leak reached finished, written, sent⟩

/-- The session is disconnected while its first packet is being written. The write fails and
disconnects the session once more, but the packet stays in use. -/
theorem packet_leaks :
    ¬ ∀ side, system.Reachable side → side.Finished → side.ReturnsPackets := by
  intro noLeak
  let events : List Event := [.allocate, .sendPacket 0 4 [] 200 false, .post, .runPosted 0,
    .checkClients, .writeFailed 0, .completed, .runPosted 0]
  have ends : (StepSystem.play advance (fun _ _ => True) opened events).map (fun side =>
      (side.disconnected, side.writes.length, side.completing,
        decide (0 ∈ side.entrusted ∧ 0 ∈ side.storage.list))) = some (true, 0, none, true) := by
    decide +kernel
  rcases Option.map_eq_some_iff.mp ends with ⟨side, plays, records⟩
  simp only [Prod.mk.injEq, List.length_eq_zero_iff, decide_eq_true_eq] at records
  rcases records with ⟨disconnected, noWrites, noCompletion, entrusted, inUse⟩
  have reached : system.Reachable side :=
    StepSystem.reachable_play (.initial start_opened) (fun _ _ _ _ moves => moves) plays
  exact noLeak side reached ⟨disconnected, noWrites, noCompletion⟩ 0 entrusted inUse

namespace Entrusted

variable {side : WriteSide} {packet other : PacketPtr}

theorem release (entrusted : side.Entrusted packet) (different : other ≠ packet) :
    (side.release other).Entrusted packet := by
  by_cases inUse : other ∈ side.storage.list
  · simp only [release_eq inUse]
    exact ⟨entrusted.wellFormed.release inUse,
      Storage.mem_release_iff.mpr ⟨entrusted.inUse, different.symm⟩,
      (List.mem_erase_of_ne different.symm).mpr entrusted.entrusted, entrusted.notHeld⟩
  · simp only [WriteSide.release, if_neg inUse]
    exact entrusted

theorem foldl_release {packets : List PacketPtr} (entrusted : side.Entrusted packet)
    (others : ∀ other ∈ packets, other ≠ packet) :
    (packets.foldl WriteSide.release side).Entrusted packet := by
  induction packets generalizing side with
  | nil => exact entrusted
  | cons other rest ih =>
      simp only [List.foldl_cons]
      exact ih (entrusted.release (others other List.mem_cons_self))
        (fun later mem => others later (List.mem_cons_of_mem _ mem))

/-- A disconnect gives back what is in the queue and nothing else. -/
theorem doDisconnect (entrusted : side.Entrusted packet) (notWaiting : packet ∉ side.writepacketlist) :
    side.doDisconnect.Abandoned packet := by
  have drained : (side.writepacketlist.foldl WriteSide.release side).Entrusted packet :=
    entrusted.foldl_release fun other mem same => notWaiting (same ▸ mem)
  simp only [doDisconnect_eq]
  exact ⟨⟨drained.wellFormed, drained.inUse, drained.entrusted, drained.notHeld⟩, List.not_mem_nil⟩

end Entrusted

namespace Abandoned

variable {side next : WriteSide} {packet other : PacketPtr}

/-- A step that leaves the storage alone and takes over no packet in use. -/
theorem of_frame (abandoned : side.Abandoned packet) (storage_eq : next.storage = side.storage)
    (entrusted : packet ∈ next.entrusted) (held : ∀ other ∈ next.held, other ∈ side.held)
    (queued : ∀ other ∈ next.queued, other ∈ side.held ++ side.queued) :
    next.Abandoned packet where
  wellFormed := storage_eq ▸ abandoned.wellFormed
  inUse := storage_eq ▸ abandoned.inUse
  entrusted := entrusted
  notHeld mem := abandoned.notHeld (held packet mem)
  notQueued mem := (List.mem_append.mp (queued packet mem)).elim abandoned.notHeld
    abandoned.notQueued

theorem release (abandoned : side.Abandoned packet) (different : other ≠ packet) :
    (side.release other).Abandoned packet := by
  refine ⟨abandoned.toEntrusted.release different, ?_⟩
  rcases side.release_frame other with ⟨_, _, _, release_eq⟩
  simp only [release_eq]
  exact abandoned.notQueued

theorem allocate (abandoned : side.Abandoned packet) : side.allocate.Abandoned packet := by
  rcases abandoned.wellFormed.allocate with ⟨unused, wellFormed, list_eq⟩
  refine ⟨⟨wellFormed, ?_, abandoned.entrusted, ?_⟩, abandoned.notQueued⟩
  · change packet ∈ side.storage.allocate.2.2.list
    simp only [list_eq]
    exact List.mem_append_left _ abandoned.inUse
  · simp only [WriteSide.allocate, List.mem_append, List.mem_singleton, not_or]
    refine ⟨abandoned.notHeld, ?_⟩
    rintro rfl
    exact unused abandoned.inUse

theorem doDisconnect (abandoned : side.Abandoned packet) : side.doDisconnect.Abandoned packet :=
  abandoned.toEntrusted.doDisconnect fun mem =>
    abandoned.notQueued (List.mem_append_right _ mem)

theorem completeWrite (abandoned : side.Abandoned packet) (sizewrite : ℕ) :
    (side.completeWrite sizewrite).Abandoned packet := by
  cases writing : side.writepacket with
  | none =>
      simp only [completeWrite_idle writing]
      exact abandoned.of_frame rfl abandoned.entrusted (fun _ => id)
        (fun _ => List.mem_append_right _)
  | some current =>
      have different : current ≠ packet := by
        rintro rfl
        exact abandoned.notQueued (by simp [queued, writing])
      have released := abandoned.release different
      by_cases whole : dword (side.writeoffset + sizewrite) = (side.packets current).buffer.used
      · by_cases inUse : current ∈ side.storage.list
        · simp only [release_eq inUse] at released
          simp only [completeWrite_whole writing inUse whole]
          refine ⟨⟨released.wellFormed, released.inUse, released.entrusted, released.notHeld⟩, ?_⟩
          exact fun mem => abandoned.notQueued (List.mem_append_right _ mem)
        · simp only [WriteSide.completeWrite, writing, if_pos whole, WriteSide.release, if_neg inUse]
          exact abandoned.of_frame rfl abandoned.entrusted (fun _ => id)
            (fun _ mem => List.mem_append_right _ (List.mem_append_right _ mem))
      · simp only [completeWrite_more writing whole]
        exact abandoned.of_frame rfl abandoned.entrusted (fun _ => id)
          (fun _ => List.mem_append_right _)

/-- Nobody ever gives an abandoned packet back. -/
theorem advance {event : Event} (abandoned : side.Abandoned packet)
    (moves : side.advance event = some next) : next.Abandoned packet := by
  have same : ∀ other : WriteSide, other.storage = side.storage → other.held = side.held →
      other.queued = side.queued → other.entrusted = side.entrusted → other.Abandoned packet := by
    intro other storage_eq held_eq queued_eq entrusted_eq
    refine abandoned.of_frame storage_eq (entrusted_eq ▸ abandoned.entrusted) ?_ ?_
    · exact fun _ mem => held_eq ▸ mem
    · exact fun _ mem => List.mem_append_right _ (queued_eq ▸ mem)
  cases Step.of_advance moves with
  | allocate => exact abandoned.allocate
  | @release i other isHeld =>
      have different : other ≠ packet := by
        rintro rfl
        exact abandoned.notHeld (List.mem_of_getElem? isHeld)
      have released := abandoned.release different
      refine released.of_frame rfl released.entrusted ?_ (fun _ => List.mem_append_right _)
      rcases side.release_frame other with ⟨_, _, _, release_eq⟩
      simp only [release_eq]
      exact fun _ => List.mem_of_mem_eraseIdx
  | sendPacket rand islastpacket isHeld =>
      refine abandoned.of_frame rfl (List.mem_append_left _ abandoned.entrusted)
        (fun _ => List.mem_of_mem_eraseIdx) ?_
      intro other mem
      simp only [queued, sendPacket, List.mem_append, List.mem_singleton] at mem ⊢
      rcases mem with current | waiting | rfl
      · exact .inr (.inl current)
      · exact .inr (.inr waiting)
      · exact .inl (List.mem_of_getElem? isHeld)
  | post => exact same _ rfl rfl rfl rfl
  | doWrite =>
      rcases doWrite_frame _ _ with ⟨storage_eq, held_eq, entrusted_eq, -⟩
      exact same _ storage_eq held_eq (queued_doWrite _ _) entrusted_eq
  | @doDisconnect i =>
      have taken : ({ side with posted := side.posted.eraseIdx i } : WriteSide).Abandoned packet :=
        same _ rfl rfl rfl rfl
      exact taken.doDisconnect
  | @writeCompleted i sizewrite operation =>
      have taken : ({ side with
          writes := side.writes.eraseIdx i
          written := side.written ++ (side.block operation).take sizewrite } :
            WriteSide).Abandoned packet := same _ rfl rfl rfl rfl
      exact taken.completeWrite sizewrite
  | writeFailed => exact same _ rfl rfl rfl rfl
  | completed => exact same _ rfl rfl rfl rfl
  | checkClients => exact abandoned.doDisconnect

end Abandoned

/-- A disconnect in the middle of a packet abandons it. -/
theorem Accounted.abandons {side : WriteSide} {packet : PacketPtr} (accounted : side.Accounted)
    (writing : side.writepacket = some packet) : side.doDisconnect.Abandoned packet := by
  have queued_eq : side.queued = packet :: side.writepacketlist := by simp [queued, writing]
  have isQueued : packet ∈ side.queued := by simp [queued_eq]
  have nodup := (List.nodup_append.mp accounted.nodup).2.1
  simp only [queued_eq, List.nodup_cons] at nodup
  have entrusted : side.Entrusted packet :=
    { wellFormed := accounted.wellFormed
      inUse := accounted.listed packet (List.mem_append_right _ isQueued)
      entrusted := accounted.entrusted.mem_iff.mpr isQueued
      notHeld := fun held => List.disjoint_of_nodup_append accounted.nodup held isQueued }
  exact entrusted.doDisconnect nodup.1

/-- Whatever happens after such a disconnect, the packet stays in use. -/
theorem leaks_of_disconnect {side last : WriteSide} {packet : PacketPtr}
    (accounted : side.Accounted) (writing : side.writepacket = some packet)
    (reached : (StepSystem.mk (· = side.doDisconnect) system.step).Reachable last) :
    ¬ last.ReturnsPackets := by
  have invariant : (StepSystem.mk (· = side.doDisconnect) system.step).Invariant
      (·.Abandoned packet) :=
    { initial := fun first isFirst => isFirst ▸ accounted.abandons writing
      step := fun first event next abandoned moves => abandoned.advance moves }
  have abandoned := invariant.of_reachable reached
  exact fun returns => returns packet abandoned.entrusted abandoned.inUse

end WriteSide

end PoETask.AuthServer
