import PoETask.Wire.Packet

/-!
# Framing

The read side of a server session. `DoReadHeader` collects six bytes, `DoReadBody`
as many as the length field says, and a finished packet is copied into the queue of
received packets. Each posted continuation runs before the next completion of the
same session, so a session is described by the read it is waiting for.

`Receives` is any run of read completions over a byte stream: the socket hands over
the next bytes in portions of its own choice, at least one byte and at most what was
asked for. The round trip says that a stream of encrypted packets comes out of every
such run as the packets that went in.
-/

namespace PoETask.Wire

open PoETask.Library

/-- The asynchronous read that is outstanding on a session. -/
inductive PendingRead where
  | header
  | body
  deriving DecidableEq

/-- The reading part of a session; `pending` is empty once it has posted `DoDisconnect`. -/
structure Reader where
  pending : Option PendingRead
  readoffset : ℕ
  readpacket : Buffer
  readpacketlist : List Buffer

namespace Reader

/-- `DoReadHeader(TRUE)` on a session whose read buffer holds anything. -/
def start (readpacket : Buffer) : Reader :=
  { pending := some .header, readoffset := 0, readpacket, readpacketlist := [] }

/-- The size of the buffer passed to `async_read_some`. -/
def requested (reader : Reader) : ℕ :=
  match reader.pending with
  | some .header => realBufferOffset - reader.readoffset
  | some .body => reader.readpacket.lengthField - reader.readoffset
  | none => 0

/-- Queue a copy of the read buffer in a newly allocated packet and read the next header. -/
def deliver (reader : Reader) (packet readpacket : Buffer) : Option Reader := do
  let copied ← packet.copy readpacket
  return { pending := some .header, readoffset := 0, readpacket
           readpacketlist := reader.readpacketlist ++ [copied] }

def completeHeader (reader : Reader) (packet : Buffer) (received : List UInt8) :
    Option Reader := do
  let readpacket ← reader.readpacket.store reader.readoffset received
  let readoffset := dword (reader.readoffset + received.length)
  if readoffset ≠ realBufferOffset then
    return { reader with pending := some .header, readoffset, readpacket }
  else if readpacket.lengthField ≤ maxBufferSize - realBufferOffset then
    let opened := { readpacket with used := realBufferOffset }
    if readpacket.lengthField = 0 then
      reader.deliver packet opened
    else
      return { reader with pending := some .body, readoffset := 0, readpacket := opened }
  else
    return { reader with pending := none, readoffset, readpacket }

def completeBody (reader : Reader) (packet : Buffer) (received : List UInt8) :
    Option Reader := do
  let readpacket ← reader.readpacket.store (realBufferOffset + reader.readoffset) received
  let readoffset := dword (reader.readoffset + received.length)
  if readoffset ≠ readpacket.lengthField then
    return { reader with pending := some .body, readoffset, readpacket }
  else
    reader.deliver packet
      { readpacket with used := dword (readpacket.used + readpacket.lengthField) }

/-- A successful read completion; `packet` is the object that `Allocate<Packet>` hands out. -/
def complete (reader : Reader) (packet : Buffer) (received : List UInt8) : Option Reader :=
  match reader.pending with
  | some .header => reader.completeHeader packet received
  | some .body => reader.completeBody packet received
  | none => none

end Reader

/-- A run of read completions that takes a prefix of a byte stream. -/
inductive Receives : Reader → List UInt8 → Reader → List UInt8 → Prop where
  | refl (reader : Reader) (stream : List UInt8) : Receives reader stream reader stream
  | completion {reader next final : Reader} {received stream rest : List UInt8} (packet : Buffer)
      (nonempty : received ≠ []) (fits : received.length ≤ reader.requested)
      (completes : reader.complete packet received = some next)
      (continues : Receives next stream final rest) :
      Receives reader (received ++ stream) final rest

/-- The bytes `DoWrite` hands to the socket for a packet given to `SendPacket`. -/
def sendPacket (packet : Buffer) (rand : UInt8) : List UInt8 := (packet.encrypt rand).contents

/-- A packet built from fields, with the key byte drawn when it is sent. -/
structure SentPacket where
  pool : Buffer
  bOpcode : UInt8
  fields : List Field
  packet : Buffer
  built : buildPacket pool bOpcode fields = some packet
  rand : UInt8

/-- What a receiver can see of a packet: opcode, length and payload. -/
def Buffer.view (buffer : Buffer) : UInt8 × ℕ × List UInt8 :=
  (buffer.opcode, buffer.lengthField, buffer.payload)

namespace SentPacket

def ofFields (pool : Buffer) (bOpcode : UInt8) (fields : List Field) (rand : UInt8)
    (fits : 6 + (fields.flatMap Field.bytes).length ≤ 4000) : SentPacket :=
  { pool, bOpcode, fields, rand
    packet := (buildPacket pool bOpcode fields).get
      ((buildPacket_isSome_iff pool bOpcode fields).mpr fits)
    built := (Option.some_get _).symm }

def wire (sent : SentPacket) : List UInt8 := sendPacket sent.packet sent.rand

def cipherText (sent : SentPacket) : List UInt8 :=
  sent.packet.payload.map (Buffer.cipher sent.rand)

theorem framed_encrypt (sent : SentPacket) :
    (sent.packet.encrypt sent.rand).Framed sent.bOpcode sent.rand sent.cipherText := by
  rcases framed_of_buildPacket sent.built with ⟨key, framed, -⟩
  have payload_eq := framed.payload_eq
  simp only [cipherText, payload_eq]
  exact framed.encrypt sent.rand

theorem wire_eq (sent : SentPacket) :
    sent.wire = sent.bOpcode :: (leBytes 4 sent.cipherText.length ++ sent.rand :: sent.cipherText) :=
  sent.framed_encrypt.contents_eq

theorem length_wire (sent : SentPacket) : sent.wire.length = 6 + sent.cipherText.length := by
  simp [wire_eq]
  omega

theorem length_cipherText_le (sent : SentPacket) : sent.cipherText.length ≤ 3994 :=
  sent.framed_encrypt.length_le

theorem view_eq (sent : SentPacket) :
    sent.packet.view = (sent.bOpcode, (sent.fields.flatMap Field.bytes).length,
      sent.fields.flatMap Field.bytes) := by
  rcases framed_of_buildPacket sent.built with ⟨key, framed, -⟩
  simp only [Buffer.view, framed.opcode_eq, framed.lengthField_eq, framed.payload_eq]

/-- A framed buffer with the travelling payload decrypts to what was sent. -/
theorem view_decrypt (sent : SentPacket) {buffer : Buffer}
    (framed : buffer.Framed sent.bOpcode sent.rand sent.cipherText) :
    buffer.decrypt.view = sent.packet.view := by
  rcases framed_of_buildPacket sent.built with ⟨key, original, -⟩
  have decrypted := framed.decrypt
  have body_eq : sent.cipherText.map (Buffer.cipher sent.rand) =
      sent.fields.flatMap Field.bytes := by
    simp only [cipherText, Buffer.map_cipher_map_cipher, original.payload_eq]
  rw [body_eq] at decrypted
  rw [sent.view_eq, Buffer.view, decrypted.opcode_eq, decrypted.lengthField_eq,
    decrypted.payload_eq]

end SentPacket

namespace Reader

/-- The reader waits for the next bytes of a packet of which it holds the first `consumed`. -/
structure Collecting (reader : Reader) (sent : SentPacket) (consumed : ℕ) : Prop where
  unfinished : consumed < sent.wire.length
  holds : reader.readpacket.bufferinternal.take consumed = sent.wire.take consumed
  phase : (reader.pending = some .header ∧ reader.readoffset = consumed ∧ consumed < 6) ∨
    (reader.pending = some .body ∧ 6 + reader.readoffset = consumed ∧ reader.readpacket.used = 6)

def Idle (reader : Reader) : Prop :=
  reader.pending = some .header ∧ reader.readoffset = 0

/-- A length field whose bytes have all been read is the length of the travelling payload. -/
theorem lengthField_of_take {buffer : Buffer} {sent : SentPacket} {consumed : ℕ}
    (header : 6 ≤ consumed)
    (holds : buffer.bufferinternal.take consumed = sent.wire.take consumed) :
    buffer.lengthField = sent.cipherText.length := by
  have small := sent.length_cipherText_le
  have field : readAt buffer.bufferinternal 1 4 = leBytes 4 sent.cipherText.length := by
    have inside : (buffer.bufferinternal.take consumed).drop 1 =
        (buffer.bufferinternal.drop 1).take (consumed - 1) := List.drop_take
    have wireField : ((sent.wire.take consumed).drop 1).take 4 =
        leBytes 4 sent.cipherText.length := by
      rw [List.drop_take, List.take_take, Nat.min_eq_left (by omega), sent.wire_eq]
      exact List.take_left' (by simp)
    rw [← holds, inside, List.take_take, Nat.min_eq_left (by omega)] at wireField
    exact wireField
  rw [Buffer.lengthField, field, leValue_leBytes, Nat.mod_eq_of_lt (by omega)]

namespace Collecting

variable {reader next : Reader} {sent : SentPacket} {consumed : ℕ} {received : List UInt8}

theorem of_idle (idle : reader.Idle) (sent : SentPacket) : reader.Collecting sent 0 where
  unfinished := by
    simp only [sent.length_wire]
    omega
  holds := rfl
  phase := Or.inl ⟨idle.1, idle.2, by omega⟩

theorem requested_pos (collecting : reader.Collecting sent consumed) : 0 < reader.requested := by
  rcases collecting.phase with ⟨pending, offset, inHeader⟩ | ⟨pending, offset, -⟩
  · simp only [requested, pending, offset, realBufferOffset]
    omega
  · have length_eq := lengthField_of_take (by omega) collecting.holds
    have unfinished := collecting.unfinished
    simp only [sent.length_wire] at unfinished
    simp only [requested, pending, length_eq]
    omega

/-- A session never asks for bytes of the packet behind the one it is reading. -/
theorem requested_le (collecting : reader.Collecting sent consumed) :
    consumed + reader.requested ≤ sent.wire.length := by
  have unfinished := collecting.unfinished
  simp only [sent.length_wire] at unfinished ⊢
  rcases collecting.phase with ⟨pending, offset, inHeader⟩ | ⟨pending, offset, -⟩
  · simp only [requested, pending, offset, realBufferOffset]
    omega
  · have length_eq := lengthField_of_take (by omega) collecting.holds
    simp only [requested, pending, length_eq]
    omega

/-- After a store behind the collected bytes the buffer holds the next ones too. -/
theorem holds_store {buffer : Buffer} (collecting : reader.Collecting sent consumed)
    (isNext : received = (sent.wire.drop consumed).take received.length)
    (wrote : reader.readpacket.store consumed received = some buffer) :
    buffer.bufferinternal.take (consumed + received.length) =
      sent.wire.take (consumed + received.length) := by
  rcases Buffer.store_eq_some wrote with ⟨fits, -, -, memory_eq⟩
  rw [memory_eq, take_add_overwrite (by simpa using fits), collecting.holds, List.take_add,
    ← isNext]

end Collecting

/-- Finishing a packet queues exactly that packet and leaves the reader idle. -/
def Finishes (reader next : Reader) (sent : SentPacket) : Prop :=
  next.Idle ∧ ∃ copied : Buffer,
    copied.Framed sent.bOpcode sent.rand sent.cipherText ∧
      next.readpacketlist = reader.readpacketlist ++ [copied]

/-- With `consumed` bytes of a packet read, it is either still being collected or finished. -/
def Proceeds (reader next : Reader) (sent : SentPacket) (consumed : ℕ) : Prop :=
  (next.Collecting sent consumed ∧ next.readpacketlist = reader.readpacketlist) ∨
    (consumed = sent.wire.length ∧ reader.Finishes next sent)

theorem deliver_finishes (reader : Reader) {sent : SentPacket} {readpacket : Buffer}
    (framed : readpacket.Framed sent.bOpcode sent.rand sent.cipherText) (packet : Buffer) :
    ∃ next, reader.deliver packet readpacket = some next ∧ reader.Finishes next sent := by
  rcases framed.copy packet with ⟨copied, copied_eq, copiedFramed, -⟩
  refine ⟨_, by rw [deliver, copied_eq]; rfl, ⟨rfl, rfl⟩, copied, copiedFramed, rfl⟩

/-- A buffer that holds a whole travelling packet is framed once its size is set. -/
theorem framed_of_take {buffer : Buffer} {sent : SentPacket}
    (used_eq : buffer.used = sent.wire.length)
    (holds : buffer.bufferinternal.take sent.wire.length = sent.wire) :
    buffer.Framed sent.bOpcode sent.rand sent.cipherText := by
  refine ⟨by rw [used_eq, sent.length_wire], ?_⟩
  simp only [Buffer.contents, used_eq, holds]
  exact sent.wire_eq

namespace Collecting

variable {reader : Reader} {sent : SentPacket} {consumed : ℕ} {received : List UInt8}

theorem completeHeader (collecting : reader.Collecting sent consumed)
    (offset : reader.readoffset = consumed) (packet : Buffer)
    (isNext : received = (sent.wire.drop consumed).take received.length)
    (fits : consumed + received.length ≤ 6) :
    ∃ next, reader.completeHeader packet received = some next ∧
      reader.Proceeds next sent (consumed + received.length) := by
  have lengthWire := sent.length_wire
  have small := sent.length_cipherText_le
  obtain ⟨buffer, wrote⟩ := Option.isSome_iff_exists.mp
    ((Buffer.store_isSome_iff reader.readpacket consumed received).mpr (by omega))
  have holds := collecting.holds_store isNext wrote
  have offsetNext : dword (consumed + received.length) = consumed + received.length :=
    dword_of_lt (by omega)
  simp only [Reader.completeHeader, offset, wrote, Option.bind_eq_bind, Option.bind_some,
    offsetNext, realBufferOffset]
  by_cases whole : consumed + received.length = 6
  · have length_eq := lengthField_of_take (by omega) holds
    rw [if_neg (not_not.mpr whole), if_pos (by simp only [length_eq, maxBufferSize]; omega)]
    by_cases empty : sent.cipherText.length = 0
    · rw [if_pos (by rw [length_eq, empty])]
      have wholeWire : consumed + received.length = sent.wire.length := by omega
      have framed : ({ buffer with used := 6 } : Buffer).Framed sent.bOpcode sent.rand
          sent.cipherText :=
        framed_of_take (by rw [← wholeWire, whole]) (by
          rw [← wholeWire, holds, wholeWire, List.take_length])
      rcases deliver_finishes reader framed packet with ⟨next, next_eq, finishes⟩
      exact ⟨next, next_eq, Or.inr ⟨wholeWire, finishes⟩⟩
    · rw [if_neg (by rw [length_eq]; exact empty)]
      refine ⟨_, rfl, Or.inl ⟨⟨by omega, ?_, Or.inr ⟨rfl, ?_, rfl⟩⟩, rfl⟩⟩
      · exact holds
      · change 6 + 0 = _
        omega
  · simp only [if_pos whole]
    exact ⟨_, rfl, Or.inl ⟨⟨by omega, holds, Or.inl ⟨rfl, rfl, by omega⟩⟩, rfl⟩⟩

theorem completeBody (collecting : reader.Collecting sent consumed)
    (offset : 6 + reader.readoffset = consumed) (used_eq : reader.readpacket.used = 6)
    (packet : Buffer)
    (isNext : received = (sent.wire.drop consumed).take received.length)
    (fits : consumed + received.length ≤ sent.wire.length) :
    ∃ next, reader.completeBody packet received = some next ∧
      reader.Proceeds next sent (consumed + received.length) := by
  have lengthWire := sent.length_wire
  have small := sent.length_cipherText_le
  obtain ⟨buffer, wrote⟩ := Option.isSome_iff_exists.mp
    ((Buffer.store_isSome_iff reader.readpacket consumed received).mpr (by omega))
  have holds := collecting.holds_store isNext wrote
  have length_eq := lengthField_of_take (by omega) holds
  have bufferUsed : buffer.used = 6 := by rw [(Buffer.store_eq_some wrote).2.1, used_eq]
  have offsetNext : dword (reader.readoffset + received.length) =
      reader.readoffset + received.length := dword_of_lt (by omega)
  simp only [Reader.completeBody, realBufferOffset, offset, wrote, Option.bind_eq_bind,
    Option.bind_some, offsetNext, length_eq, bufferUsed]
  by_cases whole : consumed + received.length = sent.wire.length
  · rw [if_neg (not_not.mpr (by omega))]
    have framed : ({ buffer with used := dword (6 + sent.cipherText.length) } : Buffer).Framed
        sent.bOpcode sent.rand sent.cipherText :=
      framed_of_take (by rw [lengthWire]; exact dword_of_lt (by omega)) (by
        rw [← whole, holds, whole, List.take_length])
    rcases deliver_finishes reader framed packet with ⟨next, next_eq, finishes⟩
    exact ⟨next, next_eq, Or.inr ⟨whole, finishes⟩⟩
  · rw [if_pos (by omega)]
    refine ⟨_, rfl, Or.inl ⟨⟨by omega, holds, Or.inr ⟨rfl, ?_, bufferUsed⟩⟩, rfl⟩⟩
    change 6 + (reader.readoffset + received.length) = _
    omega

/-- A completion with the next bytes of a packet either goes on or finishes the packet. -/
theorem complete (collecting : reader.Collecting sent consumed) (packet : Buffer)
    (fits : received.length ≤ reader.requested)
    (isNext : received = (sent.wire.drop consumed).take received.length) :
    ∃ next, reader.complete packet received = some next ∧
      reader.Proceeds next sent (consumed + received.length) := by
  have inWire := collecting.requested_le
  rcases collecting.phase with ⟨pending, offset, inHeader⟩ | ⟨pending, offset, used_eq⟩
  · simp only [requested, pending, offset, realBufferOffset] at fits
    simp only [Reader.complete, pending]
    exact collecting.completeHeader offset packet isNext (by omega)
  · simp only [Reader.complete, pending]
    exact collecting.completeBody offset used_eq packet isNext (by omega)

end Collecting

/-- Where a reader stands in a stream of travelling packets. -/
def InStep (reader : Reader) : List SentPacket → List UInt8 → Prop
  | [], stream => reader.Idle ∧ stream = []
  | sent :: todo, stream => ∃ consumed, reader.Collecting sent consumed ∧
      stream = sent.wire.drop consumed ++ todo.flatMap SentPacket.wire

theorem InStep.of_idle {reader : Reader} (idle : reader.Idle) (todo : List SentPacket) :
    reader.InStep todo (todo.flatMap SentPacket.wire) := by
  cases todo with
  | nil => exact ⟨idle, rfl⟩
  | cons sent rest => exact ⟨0, Collecting.of_idle idle sent, rfl⟩

/-- The packets in the receive queue, as `ProcThread` decrypts them. -/
def delivered (reader : Reader) : List (UInt8 × ℕ × List UInt8) :=
  reader.readpacketlist.map fun packet => packet.decrypt.view

theorem InStep.complete {reader : Reader} {todo : List SentPacket}
    {received stream : List UInt8} (inStep : reader.InStep todo (received ++ stream))
    (packet : Buffer) (nonempty : received ≠ []) (fits : received.length ≤ reader.requested) :
    ∃ next finished rest, reader.complete packet received = some next ∧
      todo = finished ++ rest ∧ next.InStep rest stream ∧
      next.delivered = reader.delivered ++ finished.map fun sent => sent.packet.view := by
  cases todo with
  | nil => exact absurd (List.append_eq_nil_iff.mp inStep.2).1 nonempty
  | cons sent todo =>
      rcases inStep with ⟨consumed, collecting, stream_eq⟩
      have inWire := collecting.requested_le
      have short : received.length ≤ (sent.wire.drop consumed).length := by
        simp only [List.length_drop]
        omega
      have isNext : received = (sent.wire.drop consumed).take received.length := by
        have prefixes := congrArg (List.take received.length) stream_eq
        rwa [List.take_left, List.take_append_of_le_length short] at prefixes
      have remaining : stream =
          sent.wire.drop (consumed + received.length) ++ todo.flatMap SentPacket.wire := by
        have suffixes := congrArg (List.drop received.length) stream_eq
        rwa [List.drop_left, List.drop_append_of_le_length short, List.drop_drop] at suffixes
      rcases collecting.complete packet fits isNext with
        ⟨next, next_eq, ⟨continues, queue_eq⟩ | ⟨whole, idle, copied, framed, queue_eq⟩⟩
      · refine ⟨next, [], sent :: todo, next_eq, rfl, ⟨_, continues, remaining⟩, ?_⟩
        simp [delivered, queue_eq]
      · refine ⟨next, [sent], todo, next_eq, rfl, ?_, ?_⟩
        · have streamRest : stream = todo.flatMap SentPacket.wire := by
            simp only [remaining, whole, List.drop_length, List.nil_append]
          simp only [streamRest]
          exact InStep.of_idle idle todo
        · simp [delivered, queue_eq, sent.view_decrypt framed]

end Reader

/-- Every run of completions keeps a reader in step with the packets still to come. -/
theorem Receives.inStep {reader final : Reader} {stream rest : List UInt8}
    {todo : List SentPacket} (run : Receives reader stream final rest)
    (inStep : reader.InStep todo stream) :
    ∃ finished remaining, todo = finished ++ remaining ∧ final.InStep remaining rest ∧
      final.delivered = reader.delivered ++ finished.map fun sent => sent.packet.view := by
  induction run generalizing todo with
  | refl reader stream => exact ⟨[], todo, rfl, inStep, by simp⟩
  | completion packet nonempty fits completes _ ih =>
      rcases inStep.complete packet nonempty fits with
        ⟨next, done, later, next_eq, rfl, nextInStep, nextDelivered⟩
      obtain rfl := Option.some.inj (completes.symm.trans next_eq)
      rcases ih nextInStep with ⟨finished, remaining, rfl, finalInStep, finalDelivered⟩
      refine ⟨done ++ finished, remaining, by simp, finalInStep, ?_⟩
      simp only [finalDelivered, nextDelivered]
      simp

/-- A stream can always be read to its end, for one thing byte by byte. -/
theorem Reader.InStep.exists_run {stream : List UInt8} {reader : Reader}
    {todo : List SentPacket} (inStep : reader.InStep todo stream) :
    ∃ final, Receives reader stream final [] := by
  induction stream generalizing reader todo with
  | nil => exact ⟨reader, .refl reader []⟩
  | cons byte rest ih =>
      have asks : 0 < reader.requested := by
        cases todo with
        | nil => exact absurd inStep.2 (List.cons_ne_nil _ _)
        | cons sent todo =>
            rcases inStep with ⟨consumed, collecting, -⟩
            exact collecting.requested_pos
      have taken : reader.InStep todo ([byte] ++ rest) := inStep
      rcases taken.complete reader.readpacket (List.cons_ne_nil _ _) asks with
        ⟨next, finished, later, next_eq, -, nextInStep, -⟩
      rcases ih nextInStep with ⟨final, run⟩
      have first : Receives reader ([byte] ++ rest) final [] :=
        .completion _ (List.cons_ne_nil _ _) asks next_eq run
      exact ⟨final, first⟩

/-- Packets sent one after the other are received unchanged, however the stream is cut into
completions: the session never disconnects, always asks for more bytes and can take whatever
it is given of the rest, and at the end of the stream it holds exactly the packets sent and
waits for the next header. -/
theorem framing_roundtrip (packets : List SentPacket) (readpacket : Buffer) {final : Reader}
    {rest : List UInt8}
    (run : Receives (Reader.start readpacket) (packets.flatMap SentPacket.wire) final rest) :
    final.pending ≠ none ∧ 0 < final.requested ∧
      (∀ packet received later, received ≠ [] → received.length ≤ final.requested →
        rest = received ++ later → (final.complete packet received).isSome) ∧
      final.delivered <+: packets.map (fun sent => sent.packet.view) ∧
      (rest = [] → final.delivered = packets.map (fun sent => sent.packet.view) ∧ final.Idle) := by
  have startIdle : (Reader.start readpacket).Idle := ⟨rfl, rfl⟩
  rcases run.inStep (Reader.InStep.of_idle startIdle packets) with
    ⟨finished, remaining, rfl, inStep, delivered_eq⟩
  have delivered_finished : final.delivered = finished.map fun sent => sent.packet.view := by
    simp only [delivered_eq]
    rfl
  have accepts : ∀ packet received later, received ≠ [] → received.length ≤ final.requested →
      rest = received ++ later → (final.complete packet received).isSome := by
    intro packet received later nonempty fits rest_eq
    subst rest
    rcases inStep.complete packet nonempty fits with ⟨next, -, -, next_eq, -⟩
    simp [next_eq]
  have isPrefix : final.delivered <+: (finished ++ remaining).map fun sent => sent.packet.view := by
    simp only [delivered_finished, List.map_append]
    exact List.prefix_append _ _
  cases remaining with
  | nil =>
      rcases inStep with ⟨idle, -⟩
      refine ⟨by rw [idle.1]; simp, ?_, accepts, isPrefix, fun _ => ⟨?_, idle⟩⟩
      · simp [Reader.requested, idle.1, idle.2, realBufferOffset]
      · simpa using delivered_finished
  | cons sent todo =>
      rcases inStep with ⟨consumed, collecting, rest_eq⟩
      have unfinished := collecting.unfinished
      refine ⟨?_, collecting.requested_pos, accepts, isPrefix, fun rest_nil => ?_⟩
      · rcases collecting.phase with ⟨pending, -⟩ | ⟨pending, -⟩ <;> simp [pending]
      · simp only [rest_nil] at rest_eq
        have wire_nil := (List.append_eq_nil_iff.mp rest_eq.symm).1
        simp only [List.drop_eq_nil_iff] at wire_nil
        omega

/-- A logout followed by a packet with three payload bytes. -/
theorem framing_roundtrip_logout :
    ∃ final, Receives (Reader.start Buffer.blank)
        ([SentPacket.ofFields Buffer.blank 4 [] 200 (by decide),
          SentPacket.ofFields Buffer.blank 1 [.block [7, 8], .block [9]] 33
            (by decide)].flatMap SentPacket.wire) final [] ∧
      final.delivered = [(4, 0, []), (1, 3, [7, 8, 9])] ∧ final.Idle := by
  have startIdle : (Reader.start Buffer.blank).Idle := ⟨rfl, rfl⟩
  rcases (Reader.InStep.of_idle startIdle _).exists_run with ⟨final, run⟩
  have received := framing_roundtrip _ _ run
  refine ⟨final, run, ?_, (received.2.2.2.2 rfl).2⟩
  simp only [(received.2.2.2.2 rfl).1]
  simp only [List.map_cons, List.map_nil, SentPacket.view_eq]
  rfl

end PoETask.Wire
