import PoETask.Launcher.Client
import PoETask.Library.StepSystem

/-!
# What the launcher writes when it receives

The reading side of the launcher is that of the server with two differences: the handlers
call each other directly, and the length check admits payloads of up to 3996 bytes, two
more than fit behind the header. A received packet is decrypted and handled by
`OnRecvPacket`, and `OP_Login_Ack` copies two strings of up to 260 characters for each
account into arrays of 100.

A step of `Receiver` is undefined exactly when it writes outside a destination. The peer
decides on the bytes, the network on how they are cut, and the user may edit the account
table at any time.
-/

namespace PoETask.Launcher

open PoETask.Library PoETask.Wire

/-- The completion of `DoReadHeader` in the launcher. -/
def completeHeader (reader : Reader) (packet : Buffer) (received : List UInt8) :
    Option Reader := do
  let readpacket ← reader.readpacket.store reader.readoffset received
  let readoffset := dword (reader.readoffset + received.length)
  if readoffset ≠ realBufferOffset then
    return { reader with pending := some .header, readoffset, readpacket }
  else if readpacket.lengthField < maxBufferSize - 3 then
    let opened := { readpacket with used := realBufferOffset }
    if readpacket.lengthField = 0 then
      reader.deliver packet opened
    else
      return { reader with pending := some .body, readoffset := 0, readpacket := opened }
  else
    return { reader with pending := none, readoffset, readpacket }

/-- A successful read completion; the body is read as the server reads it. -/
def complete (reader : Reader) (packet : Buffer) (received : List UInt8) : Option Reader :=
  match reader.pending with
  | some .header => completeHeader reader packet received
  | some .body => reader.completeBody packet received
  | none => none

/-- The strings that `OP_Login_Ack` copies, for the accounts in use. -/
def ackTexts : List ℕ → Buffer → List CText
  | [], _ => []
  | _ :: rest, packet =>
      let retCode := packet.read 4
      if UInt32.ofNat retCode.1 = UInt32.ofNat LoginResult.success.code then
        let id := retCode.2.read 4
        let expired := id.2.readText
        let token := expired.2.readText
        expired.1 :: token.1 :: ackTexts rest token.2
      else
        ackTexts rest retCode.2

/-- The session to the server and the launcher that handles its packets. -/
structure Receiver where
  reader : Reader
  client : Client

namespace Receiver

/-- The socket hands over bytes (`packet` is the pool object for a finished packet), `ProcThread`
handles the next packet, or the user changes the account table. -/
inductive Event where
  | received (packet : Buffer) (bytes : List UInt8)
  | process (now : ℕ)
  | edit (table : AccountTable)

def Enabled (receiver : Receiver) : Event → Prop
  | .received _ bytes => bytes ≠ [] ∧ bytes.length ≤ receiver.reader.requested
  | .process _ => receiver.reader.readpacketlist ≠ []
  | .edit table => table.dwAppCount ≤ maxAccountNum

def advance (receiver : Receiver) : Event → Option Receiver
  | .received packet bytes => do
      let reader ← complete receiver.reader packet bytes
      return { receiver with reader }
  | .process now => do
      let received ← receiver.reader.readpacketlist.head?
      let client ← receiver.client.onRecvPacket now received.decrypt
      let reader :=
        { receiver.reader with readpacketlist := receiver.reader.readpacketlist.tail }
      return { reader, client }
  | .edit table => some { receiver with client := { receiver.client with table } }

def system : StepSystem Receiver Event where
  initial receiver := ∃ readpacket, receiver.reader = Reader.start readpacket
  step receiver event next := receiver.Enabled event ∧ receiver.advance event = some next

/-- The bytes end with the packet buffer, whatever length the header announces, and no string for
a successful login is longer than 99 characters. -/
def Fits (receiver : Receiver) : Event → Prop
  | .received _ bytes =>
      receiver.reader.pending = some .body →
        maxBufferSize - realBufferOffset < receiver.reader.readpacket.lengthField →
          receiver.reader.readoffset + bytes.length ≤ maxBufferSize - realBufferOffset
  | .process _ =>
      ∀ received ∈ receiver.reader.readpacketlist.head?, received.decrypt.opcode = opLoginAck →
        ∀ text ∈ ackTexts receiver.client.table.used received.decrypt.readStart,
          text.val.length < maxName
  | .edit _ => True

end Receiver

section Strings

theorem wcscpy_eq_none {size : ℕ} {text : CText} (tooLong : ¬ text.val.length < size) :
    wcscpy size text = none := dif_neg tooLong

/-- The handler is defined exactly when all strings fit their arrays. -/
theorem readLoginAck_isSome_iff (indices : List ℕ) (packet : Buffer) (auth : ℕ → AuthInfo) :
    (Client.readLoginAck indices packet auth).isSome ↔
      ∀ text ∈ ackTexts indices packet, text.val.length < maxName := by
  induction indices generalizing packet auth with
  | nil => simp [Client.readLoginAck, ackTexts]
  | cons i rest ih =>
      simp only [Client.readLoginAck, ackTexts, Client.readAuth]
      split
      · set expired := (packet.read 4).2.read 4 |>.2.readText with expired_eq
        set token := expired.2.readText with token_eq
        by_cases expiredFits : expired.1.val.length < maxName
        · by_cases tokenFits : token.1.val.length < maxName
          · simp [wcscpy_eq_some expiredFits, wcscpy_eq_some tokenFits, ih, expiredFits, tokenFits]
          · simp [wcscpy_eq_some expiredFits, wcscpy_eq_none tokenFits, tokenFits]
        · simp [wcscpy_eq_none expiredFits, expiredFits]
      · simp [ih]

theorem onRecvPacket_isSome_iff (client : Client) (now : ℕ) (received : Buffer) :
    (client.onRecvPacket now received).isSome ↔
      (received.opcode = opLoginAck →
        ∀ text ∈ ackTexts client.table.used received.readStart, text.val.length < maxName) := by
  have opcode_eq : received.readStart.opcode = received.opcode := rfl
  have different : opKeepalive ≠ opLoginAck := by decide
  rw [← readLoginAck_isSome_iff client.table.used received.readStart client.auth]
  simp only [Client.onRecvPacket, opcode_eq]
  split_ifs with isKeepalive isLoginAck isForceLogout isDisconnect
  · simp [isKeepalive, different]
  · cases readLoginAck_eq : Client.readLoginAck client.table.used received.readStart client.auth <;>
      simp [isLoginAck]
  all_goals simp [isLoginAck]

end Strings

section Bytes

/-- What the reader keeps up: bytes of a header never leave it, and of a body at most 3996 are
asked for. -/
def Bounded (reader : Reader) : Prop :=
  match reader.pending with
  | some .header => reader.readoffset < realBufferOffset
  | some .body => reader.readpacket.used = realBufferOffset ∧
      reader.readoffset < reader.readpacket.lengthField ∧
      reader.readpacket.lengthField < maxBufferSize - 3
  | none => True

variable {reader next : Reader} {received : List UInt8}

theorem deliver_eq (reader : Reader) (packet readpacket : Buffer)
    (used_le : readpacket.used ≤ maxBufferSize) :
    ∃ copied, reader.deliver packet readpacket = some
      { pending := some .header, readoffset := 0, readpacket
        readpacketlist := reader.readpacketlist ++ [copied] } := by
  have block_le : (readAt readpacket.bufferinternal 0 readpacket.used).length ≤ maxBufferSize := by
    simp only [readAt, List.drop_zero, List.length_take, Buffer.length_bufferinternal, maxBufferSize]
    omega
  obtain ⟨copied, copied_eq⟩ := Option.isSome_iff_exists.mp ((Buffer.store_isSome_iff
    { packet with used := readpacket.used, readoffset := readpacket.readoffset } 0
      (readAt readpacket.bufferinternal 0 readpacket.used)).mpr (by simpa using block_le))
  exact ⟨copied, by simp only [Reader.deliver, Buffer.copy, if_pos used_le, copied_eq]; rfl⟩

/-- The header always fits, and what follows it is bounded by the length check. -/
theorem completeHeader_bounded (pending : reader.pending = some .header)
    (bounded : Bounded reader) (packet : Buffer) (fits : received.length ≤ reader.requested) :
    ∃ next, completeHeader reader packet received = some next ∧ Bounded next := by
  simp only [Bounded, pending] at bounded
  simp only [Reader.requested, pending] at fits
  simp only [realBufferOffset] at bounded fits
  obtain ⟨buffer, wrote⟩ := Option.isSome_iff_exists.mp
    ((Buffer.store_isSome_iff reader.readpacket reader.readoffset received).mpr (by omega))
  have offsetNext : dword (reader.readoffset + received.length) =
      reader.readoffset + received.length := dword_of_lt (by omega)
  simp only [completeHeader, wrote, Option.bind_eq_bind, Option.bind_some, offsetNext]
  by_cases whole : reader.readoffset + received.length = realBufferOffset
  · simp only [whole, ne_eq, not_true_eq_false, if_false]
    by_cases short : buffer.lengthField < maxBufferSize - 3
    · simp only [if_pos short]
      by_cases empty : buffer.lengthField = 0
      · rcases deliver_eq reader packet { buffer with used := realBufferOffset }
          (show realBufferOffset ≤ maxBufferSize by decide) with ⟨copied, deliver_eq⟩
        simp only [if_pos empty, deliver_eq]
        exact ⟨_, rfl, by simp [Bounded]⟩
      · simp only [if_neg empty]
        exact ⟨_, rfl, rfl, Nat.pos_of_ne_zero empty, short⟩
    · simp only [if_neg short]
      exact ⟨_, rfl, trivial⟩
  · simp only [ne_eq, whole, not_false_eq_true, if_true]
    refine ⟨_, rfl, ?_⟩
    simp only [realBufferOffset] at whole
    simp only [Bounded, realBufferOffset]
    omega

/-- A body that ends with the buffer is read and copied inside it. -/
theorem completeBody_bounded (pending : reader.pending = some .body) (bounded : Bounded reader)
    (packet : Buffer) (fits : received.length ≤ reader.requested)
    (inside : maxBufferSize - realBufferOffset < reader.readpacket.lengthField →
      reader.readoffset + received.length ≤ maxBufferSize - realBufferOffset) :
    ∃ next, reader.completeBody packet received = some next ∧ Bounded next := by
  simp only [Bounded, pending] at bounded
  simp only [Reader.requested, pending] at fits
  simp only [realBufferOffset, maxBufferSize] at bounded fits inside
  rcases bounded with ⟨used_eq, offset_lt, length_lt⟩
  obtain ⟨buffer, wrote⟩ := Option.isSome_iff_exists.mp
    ((Buffer.store_isSome_iff reader.readpacket (6 + reader.readoffset) received).mpr (by omega))
  rcases Buffer.store_eq_some wrote with ⟨-, bufferUsed, -, memory_eq⟩
  have length_eq : buffer.lengthField = reader.readpacket.lengthField := by
    simp only [Buffer.lengthField, memory_eq]
    rw [readAt_overwrite_of_le (by omega) (by simp; omega)]
  have offsetNext : dword (reader.readoffset + received.length) =
      reader.readoffset + received.length := dword_of_lt (by omega)
  simp only [Reader.completeBody, realBufferOffset, wrote, Option.bind_eq_bind, Option.bind_some,
    offsetNext, length_eq, bufferUsed, used_eq]
  by_cases whole : reader.readoffset + received.length = reader.readpacket.lengthField
  · have usedNext : dword (6 + reader.readpacket.lengthField) = 6 + reader.readpacket.lengthField :=
      dword_of_lt (by omega)
    rcases deliver_eq reader packet
      { buffer with used := dword (6 + reader.readpacket.lengthField) }
      (by simp only [usedNext, maxBufferSize]; omega) with ⟨copied, deliver_eq⟩
    simp only [whole, ne_eq, not_true_eq_false, if_false, deliver_eq]
    exact ⟨_, rfl, by simp [Bounded]⟩
  · simp only [ne_eq, whole, not_false_eq_true, if_true]
    refine ⟨_, rfl, ?_⟩
    simp only [Bounded, length_eq, bufferUsed, used_eq, maxBufferSize, realBufferOffset, true_and]
    omega

/-- Bytes beyond the buffer are written outside it. -/
theorem completeBody_eq_none (packet : Buffer)
    (outside : maxBufferSize - realBufferOffset < reader.readoffset + received.length) :
    reader.completeBody packet received = none := by
  have fails := mt (Buffer.store_isSome_iff reader.readpacket (6 + reader.readoffset) received).mp
    (by simp only [maxBufferSize, realBufferOffset] at outside; omega)
  simp only [Option.not_isSome_iff_eq_none] at fails
  simp only [Reader.completeBody, realBufferOffset, fails, Option.bind_eq_bind, Option.bind_none]

end Bytes

namespace Receiver

variable {receiver next : Receiver} {event : Event}

/-- A step is defined exactly when what it writes fits, and leaves the reader bounded. -/
theorem advance_isSome_iff (bounded : Bounded receiver.reader) (enabled : receiver.Enabled event) :
    (receiver.advance event).isSome ↔ receiver.Fits event := by
  cases event with
  | received packet bytes =>
      rcases enabled with ⟨nonempty, fits⟩
      simp only [advance, complete, Fits]
      cases pending : receiver.reader.pending with
      | none =>
          simp only [Reader.requested, pending, Nat.le_zero, List.length_eq_zero_iff] at fits
          exact absurd fits nonempty
      | some read =>
          cases read with
          | header =>
              rcases completeHeader_bounded pending bounded packet fits with ⟨next, next_eq, -⟩
              simp [next_eq]
          | body =>
              simp only [true_implies]
              constructor
              · intro isDefined _
                by_contra outside
                simp [completeBody_eq_none packet (not_le.mp outside)] at isDefined
              · intro inside
                rcases completeBody_bounded pending bounded packet fits inside with
                  ⟨next, next_eq, -⟩
                simp [next_eq]
  | process now =>
      rcases List.exists_cons_of_ne_nil enabled with ⟨received, rest, list_eq⟩
      have handles := onRecvPacket_isSome_iff receiver.client now received.decrypt
      simp only [advance, Fits, list_eq, List.head?_cons, Option.mem_some_iff, forall_eq', ← handles]
      cases handled : receiver.client.onRecvPacket now received.decrypt <;> simp [handled]
  | edit table => simp [advance, Fits]

theorem bounded_advance (bounded : Bounded receiver.reader) (enabled : receiver.Enabled event)
    (moves : receiver.advance event = some next) : Bounded next.reader := by
  have fitting := (advance_isSome_iff bounded enabled).mp (by simp [moves])
  cases event with
  | received packet bytes =>
      rcases enabled with ⟨nonempty, fits⟩
      simp only [advance, Option.bind_eq_bind, Option.bind_eq_some_iff] at moves
      rcases moves with ⟨reader, reader_eq, moves⟩
      cases moves
      cases pending : receiver.reader.pending with
      | none => simp [complete, pending] at reader_eq
      | some read =>
          simp only [complete, pending] at reader_eq
          cases read with
          | header =>
              rcases completeHeader_bounded pending bounded packet fits with ⟨same, same_eq, kept⟩
              cases same_eq.symm.trans reader_eq
              exact kept
          | body =>
              rcases completeBody_bounded pending bounded packet fits (fitting pending) with
                ⟨same, same_eq, kept⟩
              cases same_eq.symm.trans reader_eq
              exact kept
  | process now =>
      simp only [advance, Option.bind_eq_bind, Option.bind_eq_some_iff] at moves
      rcases moves with ⟨_, _, _, _, moves⟩
      cases moves
      exact bounded
  | edit table =>
      cases moves
      exact bounded

/-- Whatever the peer has sent so far and however it was cut into reads, the next step writes only
inside its destinations exactly when it fits. -/
theorem receive_inBounds_iff (reached : system.Reachable receiver)
    (enabled : receiver.Enabled event) : (receiver.advance event).isSome ↔ receiver.Fits event := by
  have invariant : system.Invariant fun receiver => Bounded receiver.reader :=
    { initial := fun receiver starts => by
        rcases starts with ⟨readpacket, starts⟩
        simp [starts, Reader.start, Bounded]
      step := fun receiver event next bounded moves => bounded_advance bounded moves.1 moves.2 }
  exact advance_isSome_iff (invariant.of_reachable reached) enabled

/-- A launcher with one account, just connected. -/
def connected : Receiver where
  reader := Reader.start Buffer.blank
  client :=
    { table := .sample 1 fun _ => 1
      auth := fun _ => .bare 0 0
      runInfo := fun _ => { isRunGame := false, hProcess := none }
      login := false
      lastConnTime := 0
      logUI := []
      terminated := []
      running := true }

/-- The header of a packet with 3996 bytes of payload. -/
def longHeader : List UInt8 := [2, 156, 15, 0, 0, 0]

theorem longHeader_admitted : ∃ receiver, system.Reachable receiver ∧
    receiver.reader.pending = some .body ∧ receiver.reader.readoffset = 0 ∧
      receiver.reader.readpacket.lengthField = 3996 := by
  have enabled : connected.Enabled (.received Buffer.blank longHeader) :=
    ⟨by decide, by decide⟩
  have ends : (connected.advance (.received Buffer.blank longHeader)).map (fun receiver =>
      (receiver.reader.pending, receiver.reader.readoffset,
        receiver.reader.readpacket.lengthField)) = some (some .body, 0, 3996) := by
    decide +kernel
  rcases Option.map_eq_some_iff.mp ends with ⟨receiver, moves, records⟩
  have starts : system.Reachable connected := .initial ⟨Buffer.blank, rfl⟩
  simp only [Prod.mk.injEq] at records
  exact ⟨receiver, starts.step ⟨enabled, moves⟩, records⟩

/-- Of such a packet 3994 bytes still fit. -/
theorem receive_inBounds_iff_long : ∃ receiver, system.Reachable receiver ∧
    receiver.reader.readpacket.lengthField = 3996 ∧
      (receiver.advance (.received Buffer.blank (List.replicate 3994 0))).isSome := by
  rcases longHeader_admitted with ⟨receiver, reached, pending, offset_eq, length_eq⟩
  have enabled : receiver.Enabled (.received Buffer.blank (List.replicate 3994 0)) := by
    refine ⟨List.replicate_succ_ne_nil, ?_⟩
    simp only [Reader.requested, pending, offset_eq, length_eq, List.length_replicate]
    decide
  refine ⟨receiver, reached, length_eq, (receive_inBounds_iff reached enabled).mpr ?_⟩
  intro _ _
  simp only [offset_eq, List.length_replicate]
  exact le_refl 3994

/-- A login answer for one account whose expiry date has 100 characters. -/
def longExpiry : Buffer :=
  { used := 218
    bufferinternal := [2, 212, 0, 0, 0, 0, 1, 0, 0, 0, 7, 0, 0, 0, 100, 0, 0, 0] ++
      wideBytes (List.replicate 100 97) ++ List.replicate 3782 0
    readoffset := 6
    size_eq := by
      simp only [List.length_append, length_wideBytes, List.length_replicate]
      rfl }

/-- All 3996 bytes of such a packet do not fit, and the handler copies an expiry date of 100
characters beyond its array. -/
theorem receive_outOfBounds :
    (∃ receiver event, system.Reachable receiver ∧ receiver.Enabled event ∧
      receiver.advance event = none) ∧
      connected.client.onRecvPacket 0 longExpiry = none := by
  constructor
  · rcases longHeader_admitted with ⟨receiver, reached, pending, offset_eq, length_eq⟩
    refine ⟨receiver, .received Buffer.blank (List.replicate 3996 0), reached, ?_, ?_⟩
    · refine ⟨List.replicate_succ_ne_nil, ?_⟩
      simp only [Reader.requested, pending, offset_eq, length_eq, List.length_replicate]
      exact le_refl 3996
    · have outside : maxBufferSize - realBufferOffset <
          receiver.reader.readoffset + (List.replicate 3996 (0 : UInt8)).length := by
        simp only [offset_eq, List.length_replicate]
        decide
      simp only [advance, complete, pending, completeBody_eq_none Buffer.blank outside,
        Option.bind_eq_bind, Option.bind_none]
  · have undefined : (connected.client.onRecvPacket 0 longExpiry).isNone = true := by
      decide +kernel
    exact Option.isNone_iff_eq_none.mp undefined

end Receiver

end PoETask.Launcher
