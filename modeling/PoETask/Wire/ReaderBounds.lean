import PoETask.Library.StepSystem
import PoETask.Wire.Readers

/-!
# Reader bounds

Every reader compares the end of what it is about to take with the number of bytes in
use, and the end is a DWORD sum. As long as that sum does not wrap around, a packet of
any content read by calls in any order is read inside the bytes in use, and the read
position only moves forward. A size near 2^32 gets past the comparison.

The size comes from the packet in `ReadMultiString`, which takes it as it is, and in
`Read` into another buffer, whose nested packet states its own length. `ReadWideString`
caps it.
-/

namespace PoETask.Wire

open PoETask.Library

/-- A block of bytes that a reader looks at. -/
structure Access where
  start : ℕ
  size : ℕ

/-- All bytes of the block are in use. -/
def Access.Below (access : Access) (used : ℕ) : Prop :=
  ∀ index, access.start ≤ index → index < access.start + access.size → index < used

theorem Access.Below.of_le {access : Access} {used : ℕ} (le : access.start + access.size ≤ used) :
    access.Below used :=
  fun _ _ before => before.trans_le le

theorem Access.Below.le {access : Access} {used : ℕ} (below : access.Below used)
    (nonempty : 0 < access.size) : access.start + access.size ≤ used := by
  have last := below (access.start + access.size - 1) (by omega) (by omega)
  omega

namespace Buffer

/-- The size of a narrow string, which may stand in front of it. -/
def sizeA (buffer : Buffer) (dwSize : ℕ) : ℕ × Buffer :=
  if dwSize = 0 then buffer.read 4 else (dwSize, buffer)

/-- The size of a wide string, which may stand in front of it. -/
def sizeW (buffer : Buffer) (dwSize : ℕ) : ℕ × Buffer :=
  if dwSize = 0 then
    let prefixed := buffer.read 4
    (min maxPath prefixed.1, prefixed.2)
  else
    (dwSize, buffer)

/-- The bytes `CStringA::Append` looks at, which end with the first terminator. -/
def appendSizeA (buffer : Buffer) (dwSize : ℕ) : ℕ :=
  let chars := readAt buffer.bufferinternal buffer.readoffset dwSize
  if 0 ∈ chars then (untilNulA chars).length + 1 else dwSize

/-- The bytes `CStringW::Append` looks at, which end with the first terminator. -/
def appendSizeW (buffer : Buffer) (dwSize : ℕ) : ℕ :=
  let chars := wideChars (readAt buffer.bufferinternal buffer.readoffset (dwSize * 2))
  if 0 ∈ chars then ((untilNul chars).length + 1) * 2 else dwSize * 2

/-- A block behind the read position, when the comparison lets it through. -/
def access (buffer : Buffer) (compared size : ℕ) : List Access :=
  if buffer.used < dword (buffer.readoffset + compared) then [] else [⟨buffer.readoffset, size⟩]

/-- The size in front of a string. -/
def accessSize (buffer : Buffer) (dwSize : ℕ) : List Access :=
  if dwSize = 0 then buffer.access 4 4 else []

end Buffer

namespace ReaderCall

/-- The blocks of the packet that a call looks at. -/
def accesses (buffer : Buffer) : ReaderCall → List Access
  | .read width => buffer.access width width
  | .readBlock dwSize => buffer.access dwSize dwSize
  | .readMultiString dwSize =>
      let sized := buffer.sizeA dwSize
      buffer.accessSize dwSize ++ sized.2.access sized.1 (sized.2.appendSizeA sized.1)
  | .readWideString dwSize =>
      let sized := buffer.sizeW dwSize
      buffer.accessSize dwSize
        ++ sized.2.access (dword (sized.1 * 2)) (sized.2.appendSizeW sized.1)
  | .readStdWideString dwSize =>
      let sized := buffer.sizeW dwSize
      buffer.accessSize dwSize ++ sized.2.access (dword (sized.1 * 2)) (sized.1 * 2)
  | .readBuffer _ =>
      if buffer.used < dword (buffer.readoffset + realBufferOffset) then
        []
      else
        ⟨buffer.readoffset + 1, 4⟩ ::
          if buffer.used < dword (buffer.readoffset + buffer.nestedLength + realBufferOffset) then
            []
          else
            [⟨buffer.readoffset, 1⟩, ⟨buffer.readoffset + realBufferOffset, buffer.nestedLength⟩]

/-- No sum with the read position wraps around. -/
def NoWrap (buffer : Buffer) : ReaderCall → Prop
  | .read width => buffer.readoffset + width < 2 ^ 32
  | .readBlock dwSize => buffer.readoffset + dwSize < 2 ^ 32
  | .readMultiString dwSize =>
      (buffer.sizeA dwSize).2.readoffset + (buffer.sizeA dwSize).1 < 2 ^ 32
  | .readWideString dwSize => buffer.readoffset + dwSize * 2 < 2 ^ 32
  | .readStdWideString dwSize => buffer.readoffset + dwSize * 2 < 2 ^ 32
  | .readBuffer _ => buffer.readoffset + buffer.nestedLength + realBufferOffset < 2 ^ 32

end ReaderCall

/-- The runs of reader calls on a packet after `ReadStart`. -/
def readerSystem (packet : Buffer) : StepSystem Buffer ReaderCall where
  initial buffer := buffer = packet.readStart
  step buffer call next := ∃ value, call.perform buffer = some (value, next)

/-- In every run of allowed calls, the read position stays inside the bytes in use, and every next
call is defined, looks at bytes in use only and does not move the read position back. -/
def StaysInside (packet : Buffer) (allowed : Buffer → ReaderCall → Prop) : Prop :=
  ∀ buffer, ((readerSystem packet).restrict allowed).Reachable buffer →
    buffer.readoffset ≤ packet.used ∧ ∀ call, allowed buffer call →
      (∀ access ∈ call.accesses buffer, access.Below packet.used)
        ∧ ∃ value next, call.perform buffer = some (value, next)
          ∧ buffer.readoffset ≤ next.readoffset ∧ next.readoffset ≤ packet.used

namespace Buffer

/-- What the readers keep up. -/
structure Standing (buffer : Buffer) (used : ℕ) : Prop where
  used_eq : buffer.used = used
  used_le : used ≤ 4000
  offset_le : buffer.readoffset ≤ used

/-- A reader has moved the position forward, inside the bytes in use. -/
structure Advanced (buffer next : Buffer) (used : ℕ) : Prop where
  standing : next.Standing used
  offset_le : buffer.readoffset ≤ next.readoffset

namespace Standing

variable {buffer : Buffer} {used size : ℕ}

theorem stays (standing : buffer.Standing used) : Advanced buffer buffer used :=
  ⟨standing, le_rfl⟩

/-- What the comparison lets through ends inside the bytes in use. -/
theorem advance (standing : buffer.Standing used) (noWrap : buffer.readoffset + size < 2 ^ 32)
    (inside : ¬ buffer.used < dword (buffer.readoffset + size)) :
    buffer.readoffset + size ≤ used
      ∧ Advanced buffer { buffer with readoffset := dword (buffer.readoffset + size) } used := by
  have position : dword (buffer.readoffset + size) = buffer.readoffset + size :=
    dword_of_lt noWrap
  rw [position, standing.used_eq] at inside
  rw [position]
  have ends_le : buffer.readoffset + size ≤ used := by omega
  exact ⟨ends_le, ⟨standing.used_eq, standing.used_le, ends_le⟩, Nat.le_add_right _ _⟩

theorem below_access (standing : buffer.Standing used) {compared : ℕ}
    (noWrap : buffer.readoffset + compared < 2 ^ 32) (size_le : size ≤ compared) :
    ∀ access ∈ buffer.access compared size, access.Below used := by
  intro access access_mem
  simp only [Buffer.access] at access_mem
  split_ifs at access_mem with outside
  · exact absurd access_mem List.not_mem_nil
  · obtain rfl := List.mem_singleton.mp access_mem
    have inside := (standing.advance noWrap outside).1
    exact .of_le (by change buffer.readoffset + size ≤ used; omega)

theorem read (standing : buffer.Standing used) (noWrap : buffer.readoffset + size < 2 ^ 32) :
    Advanced buffer (buffer.read size).2 used := by
  simp only [Buffer.read]
  split_ifs with outside
  · exact standing.stays
  · exact (standing.advance noWrap outside).2

theorem readBlock (standing : buffer.Standing used) (noWrap : buffer.readoffset + size < 2 ^ 32) :
    Advanced buffer (buffer.readBlock size).2 used := by
  simp only [Buffer.readBlock]
  split_ifs with outside
  · exact standing.stays
  · exact (standing.advance noWrap outside).2

/-- A size of at most 4000 bytes cannot wrap around. -/
theorem noWrap (standing : buffer.Standing used) (small : size ≤ 4000) :
    buffer.readoffset + size < 2 ^ 32 := by
  have used_le := standing.used_le
  have offset_le := standing.offset_le
  omega

theorem below_accessSize (standing : buffer.Standing used) (dwSize : ℕ) :
    ∀ access ∈ buffer.accessSize dwSize, access.Below used := by
  intro access access_mem
  simp only [Buffer.accessSize] at access_mem
  split_ifs at access_mem
  · exact standing.below_access (standing.noWrap (by decide)) le_rfl access access_mem
  · exact absurd access_mem List.not_mem_nil

theorem sizeA (standing : buffer.Standing used) (dwSize : ℕ) :
    Advanced buffer (buffer.sizeA dwSize).2 used := by
  simp only [Buffer.sizeA]
  split_ifs
  · exact standing.read (standing.noWrap (by decide))
  · exact standing.stays

/-- A size of a wide string that is found in the packet is capped. -/
theorem sizeW (standing : buffer.Standing used) {dwSize : ℕ}
    (noWrap : buffer.readoffset + dwSize * 2 < 2 ^ 32) :
    Advanced buffer (buffer.sizeW dwSize).2 used
      ∧ (buffer.sizeW dwSize).2.readoffset + (buffer.sizeW dwSize).1 * 2 < 2 ^ 32 := by
  simp only [Buffer.sizeW]
  split_ifs
  · have moved := standing.read (standing.noWrap (by decide : 4 ≤ 4000))
    have capped : min maxPath (buffer.read 4).1 * 2 ≤ 4000 :=
      (Nat.mul_le_mul_right 2 (min_le_left _ _)).trans (by decide)
    exact ⟨moved, moved.standing.noWrap capped⟩
  · exact ⟨standing.stays, noWrap⟩

end Standing

theorem appendSizeA_le (buffer : Buffer) (dwSize : ℕ) : buffer.appendSizeA dwSize ≤ dwSize := by
  simp only [appendSizeA]
  split_ifs with terminated
  · have size_le := List.length_take_le dwSize (buffer.bufferinternal.drop buffer.readoffset)
    exact (untilNulA_length_lt terminated).trans_le size_le
  · exact le_rfl

theorem appendSizeW_le (buffer : Buffer) (dwSize : ℕ) :
    buffer.appendSizeW dwSize ≤ dwSize * 2 := by
  simp only [appendSizeW]
  split_ifs with terminated
  · have size_le := List.length_take_le (dwSize * 2)
      (buffer.bufferinternal.drop buffer.readoffset)
    have chars_le := wideChars_length_le (readAt buffer.bufferinternal buffer.readoffset (dwSize * 2))
    have shorter := untilNul_length_lt terminated
    simp only [readAt] at chars_le shorter ⊢
    omega
  · exact le_rfl

/-- A string reader moves as one that takes its bytes. -/
theorem readMultiString_snd (buffer : Buffer) (dwSize : ℕ) : (buffer.readMultiString dwSize).2 =
    ((buffer.sizeA dwSize).2.readBlock (buffer.sizeA dwSize).1).2 := by
  simp only [readMultiString, sizeA, readBlock]
  split_ifs <;> rfl

theorem readStdWideString_snd (buffer : Buffer) (dwSize : ℕ) :
    (buffer.readStdWideString dwSize).2 =
      ((buffer.sizeW dwSize).2.readBlock (dword ((buffer.sizeW dwSize).1 * 2))).2 := by
  simp only [readStdWideString, sizeW, readBlock]
  split_ifs <;> rfl

theorem Advanced.trans {buffer middle next : Buffer} {used : ℕ}
    (first : Advanced buffer middle used) (second : Advanced middle next used) :
    Advanced buffer next used :=
  ⟨second.standing, first.offset_le.trans second.offset_le⟩

namespace Standing

variable {buffer : Buffer} {used dwSize : ℕ}

theorem readMultiString (standing : buffer.Standing used)
    (noWrap : (buffer.sizeA dwSize).2.readoffset + (buffer.sizeA dwSize).1 < 2 ^ 32) :
    Advanced buffer (buffer.readMultiString dwSize).2 used := by
  have sized := standing.sizeA dwSize
  rw [readMultiString_snd]
  exact sized.trans (sized.standing.readBlock noWrap)

theorem readStdWideString (standing : buffer.Standing used)
    (noWrap : buffer.readoffset + dwSize * 2 < 2 ^ 32) :
    Advanced buffer (buffer.readStdWideString dwSize).2 used := by
  rcases standing.sizeW noWrap with ⟨sized, noWrap⟩
  rw [readStdWideString_snd, dword_of_lt (by omega)]
  exact sized.trans (sized.standing.readBlock noWrap)

/-- A block behind the size of a wide string, of at most the bytes that the string may have. -/
theorem below_accessW (standing : buffer.Standing used) {size : ℕ}
    (noWrap : buffer.readoffset + dwSize * 2 < 2 ^ 32)
    (size_le : size ≤ (buffer.sizeW dwSize).1 * 2) :
    ∀ access ∈ buffer.accessSize dwSize ++
      (buffer.sizeW dwSize).2.access (dword ((buffer.sizeW dwSize).1 * 2)) size,
      access.Below used := by
  rcases standing.sizeW noWrap with ⟨sized, noWrap⟩
  have whole : dword ((buffer.sizeW dwSize).1 * 2) = (buffer.sizeW dwSize).1 * 2 :=
    dword_of_lt (by omega)
  rw [whole]
  exact List.forall_mem_append.mpr ⟨standing.below_accessSize dwSize,
    sized.standing.below_access noWrap size_le⟩

/-- A nested packet that lies inside the bytes in use fits any other buffer. -/
theorem readBuffer (standing : buffer.Standing used) (target : Buffer)
    (noWrap : buffer.readoffset + buffer.nestedLength + realBufferOffset < 2 ^ 32) :
    ∃ read, buffer.readBuffer target = some read ∧ Advanced buffer read.2 used := by
  have used_le := standing.used_le
  have used_eq := standing.used_eq
  simp only [Buffer.readBuffer]
  split_ifs with noHeader outside tooLong
  · exact ⟨_, rfl, standing.stays⟩
  · exact ⟨_, rfl, standing.stays⟩
  all_goals
    rw [Nat.add_assoc] at noWrap outside
    have moved := standing.advance noWrap outside
    have inside := moved.1
    simp only [maxBufferSize, realBufferOffset] at tooLong inside
  · omega
  · have block_le := List.length_take_le buffer.nestedLength
      (buffer.bufferinternal.drop (buffer.readoffset + realBufferOffset))
    obtain ⟨filled, fills⟩ := Option.isSome_iff_exists.mp ((addData_isSome_iff
      (target.emptyUsed.createPackage (buffer.bufferinternal.getD buffer.readoffset 0))
      (readAt buffer.bufferinternal (buffer.readoffset + realBufferOffset) buffer.nestedLength)
      false).mpr (by
        change 6 + (List.take _ (List.drop _ _)).length ≤ 4000
        omega))
    have size : dword (buffer.nestedLength + realBufferOffset) =
        buffer.nestedLength + realBufferOffset := dword_of_lt (by omega)
    refine ⟨(filled, _), by rw [fills]; rfl, ?_⟩
    rw [size]
    exact moved.2

end Standing

end Buffer

namespace ReaderCall

variable {buffer : Buffer} {used : ℕ} {call : ReaderCall}

/-- What one call does when no sum wraps around. -/
theorem perform_advanced (standing : buffer.Standing used) (noWrap : call.NoWrap buffer) :
    ∃ value next, call.perform buffer = some (value, next) ∧ buffer.Advanced next used := by
  cases call with
  | read width => exact ⟨_, _, rfl, standing.read noWrap⟩
  | readBlock dwSize => exact ⟨_, _, rfl, standing.readBlock noWrap⟩
  | readMultiString dwSize => exact ⟨_, _, rfl, standing.readMultiString noWrap⟩
  | readWideString dwSize =>
      refine ⟨_, _, rfl, ?_⟩
      rw [Buffer.readWideString_eq]
      exact standing.readStdWideString noWrap
  | readStdWideString dwSize => exact ⟨_, _, rfl, standing.readStdWideString noWrap⟩
  | readBuffer target =>
      rcases standing.readBuffer target noWrap with ⟨read, read_eq, advanced⟩
      exact ⟨.packet read.1, read.2, by simp only [perform, read_eq, Option.map_some], advanced⟩

/-- Where one call looks when no sum wraps around. -/
theorem accesses_below (standing : buffer.Standing used) (noWrap : call.NoWrap buffer) :
    ∀ access ∈ call.accesses buffer, access.Below used := by
  cases call with
  | read width => exact standing.below_access noWrap le_rfl
  | readBlock dwSize => exact standing.below_access noWrap le_rfl
  | readMultiString dwSize =>
      have sized := standing.sizeA dwSize
      exact List.forall_mem_append.mpr ⟨standing.below_accessSize dwSize,
        sized.standing.below_access noWrap (Buffer.appendSizeA_le _ _)⟩
  | readWideString dwSize => exact standing.below_accessW noWrap (Buffer.appendSizeW_le _ _)
  | readStdWideString dwSize => exact standing.below_accessW noWrap le_rfl
  | readBuffer target =>
      simp only [NoWrap, Nat.add_assoc] at noWrap
      simp only [accesses]
      split_ifs with noHeader outside
      · simp only [List.not_mem_nil, false_implies, implies_true]
      · have header := (standing.advance (standing.noWrap (by decide)) noHeader).1
        simp only [List.mem_singleton, forall_eq]
        simp only [realBufferOffset] at header
        exact .of_le (show buffer.readoffset + 1 + 4 ≤ used by omega)
      · rw [Nat.add_assoc] at outside
        have whole := (standing.advance noWrap outside).1
        simp only [realBufferOffset] at whole
        simp only [List.forall_mem_cons, List.not_mem_nil, false_implies, implies_true, and_true]
        exact ⟨.of_le (show buffer.readoffset + 1 + 4 ≤ used by omega),
          .of_le (show buffer.readoffset + 1 ≤ used by omega),
          .of_le (show buffer.readoffset + 6 + buffer.nestedLength ≤ used by omega)⟩

end ReaderCall

section Received

namespace Reader

/-- Header and body of every packet in the queue fit the block, and so will those of the packet that
is being read. -/
structure Fits (reader : Reader) : Prop where
  body : reader.pending = some .body → reader.readpacket.used = realBufferOffset ∧
    reader.readpacket.lengthField ≤ maxBufferSize - realBufferOffset
  queue : ∀ packet ∈ reader.readpacketlist,
    realBufferOffset ≤ packet.used ∧ packet.used ≤ maxBufferSize

variable {reader next : Reader} {received : List UInt8}

theorem Fits.deliver (fits : reader.Fits) {packet readpacket : Buffer}
    (header : realBufferOffset ≤ readpacket.used) (delivers :
      reader.deliver packet readpacket = some next) : next.Fits := by
  simp only [Reader.deliver, Option.bind_eq_bind, Option.bind_eq_some_iff, pure,
    Option.some.injEq] at delivers
  rcases delivers with ⟨copied, copies, rfl⟩
  simp only [Buffer.copy, Option.ite_none_right_eq_some] at copies
  have used_eq := (Buffer.store_eq_some copies.2).2.1
  refine ⟨fun pending => (by simp at pending), ?_⟩
  simp only [List.forall_mem_append, List.forall_mem_singleton]
  refine ⟨fits.queue, ?_⟩
  rw [used_eq]
  exact ⟨header, copies.1⟩

/-- A store behind the header keeps the length field. -/
theorem lengthField_store {buffer stored : Buffer} {offset : ℕ} {block : List UInt8}
    (behind : realBufferOffset ≤ offset) (wrote : buffer.store offset block = some stored) :
    stored.lengthField = buffer.lengthField := by
  rcases Buffer.store_eq_some wrote with ⟨inside, -, -, memory_eq⟩
  simp only [realBufferOffset] at behind
  rw [Buffer.lengthField, memory_eq, readAt_overwrite_of_le (by omega) (by simp; omega)]
  rfl

theorem Fits.complete (fits : reader.Fits) {packet : Buffer}
    (completes : reader.complete packet received = some next) : next.Fits := by
  simp only [Reader.complete] at completes
  split at completes
  · rename_i pending
    simp only [completeHeader, Option.bind_eq_bind, Option.bind_eq_some_iff] at completes
    rcases completes with ⟨readpacket, -, completes⟩
    split_ifs at completes with partly short empty
    · obtain rfl := Option.some.inj completes
      exact ⟨fun isBody => (by simp at isBody), fits.queue⟩
    · exact fits.deliver le_rfl completes
    · obtain rfl := Option.some.inj completes
      exact ⟨fun _ => ⟨rfl, short⟩, fits.queue⟩
    · obtain rfl := Option.some.inj completes
      exact ⟨fun isBody => (by simp at isBody), fits.queue⟩
  · rename_i pending
    rcases fits.body pending with ⟨used_eq, length_le⟩
    simp only [completeBody, Option.bind_eq_bind, Option.bind_eq_some_iff] at completes
    rcases completes with ⟨readpacket, wrote, completes⟩
    have used_eq := (Buffer.store_eq_some wrote).2.1.trans used_eq
    have length_eq := lengthField_store (Nat.le_add_right _ _) wrote
    split_ifs at completes with partly
    · obtain rfl := Option.some.inj completes
      exact ⟨fun _ => ⟨used_eq, length_eq ▸ length_le⟩, fits.queue⟩
    · refine fits.deliver ?_ completes
      simp only [maxBufferSize, realBufferOffset] at length_le used_eq ⊢
      rw [used_eq, length_eq, dword_of_lt (by omega)]
      exact Nat.le_add_right _ _
  · cases completes

end Reader

theorem Receives.keeps_fits {reader final : Reader} {stream rest : List UInt8}
    (run : Receives reader stream final rest) (fits : reader.Fits) : final.Fits := by
  induction run with
  | refl => exact fits
  | completion _ _ _ completes _ ih => exact ih (fits.complete completes)

/-- Whatever a session receives, the packets in its queue have a header and fit the block. -/
theorem Receives.fits {readpacket packet : Buffer} {final : Reader} {stream rest : List UInt8}
    (run : Receives (.start readpacket) stream final rest) (queued : packet ∈ final.readpacketlist) :
    realBufferOffset ≤ packet.used ∧ packet.used ≤ maxBufferSize :=
  (run.keeps_fits ⟨fun isBody => (by simp [Reader.start] at isBody), by simp [Reader.start]⟩).queue
    packet queued

end Received

section Runs

variable {packet : Buffer}

/-- The read position stays inside the bytes in use. -/
theorem standing_invariant (header : realBufferOffset ≤ packet.used) (fits : packet.used ≤ 4000) :
    ((readerSystem packet).restrict fun buffer call => call.NoWrap buffer).Invariant
      fun buffer => buffer.Standing packet.used where
  initial := by
    rintro buffer rfl
    exact ⟨rfl, fits, header⟩
  step := by
    rintro buffer call next standing ⟨noWrap, value, performs⟩
    rcases ReaderCall.perform_advanced standing noWrap with ⟨_, _, performed, advanced⟩
    rw [performs] at performed
    cases performed
    exact advanced.standing

/-- As long as no sum wraps around, every packet is read inside the bytes in use. -/
theorem staysInside_of_noWrap (header : realBufferOffset ≤ packet.used)
    (fits : packet.used ≤ maxBufferSize) :
    StaysInside packet fun buffer call => call.NoWrap buffer := by
  intro buffer reached
  have standing := (standing_invariant header fits).of_reachable reached
  refine ⟨standing.offset_le, fun call noWrap => ⟨?_, ?_⟩⟩
  · exact ReaderCall.accesses_below standing noWrap
  · rcases ReaderCall.perform_advanced standing noWrap with ⟨value, next, performs, advanced⟩
    exact ⟨value, next, performs, advanced.offset_le, advanced.standing.offset_le⟩

end Runs

/-- A packet of one DWORD, 10 less than 2^32. -/
def wrappingPacket : Buffer where
  used := 10
  bufferinternal := overwrite Buffer.blank.bufferinternal 0
    ([1] ++ leBytes 4 4 ++ [0] ++ leBytes 4 4294967286)
  readoffset := 6
  size_eq := by
    rw [length_overwrite (by simp)]
    exact Buffer.blank.size_eq

theorem staysInside_wrappingPacket :
    StaysInside wrappingPacket fun buffer call => call.NoWrap buffer :=
  staysInside_of_noWrap (by decide) (by decide)

/-- `ReadMultiString` takes the DWORD for a size and moves the read position back to zero. -/
theorem not_staysInside :
    ¬ ∀ packet : Buffer, realBufferOffset ≤ packet.used → packet.used ≤ maxBufferSize →
      StaysInside packet fun _ _ => True := by
  intro claimed
  have inside := claimed wrappingPacket (by decide) (by decide) _ (.initial rfl)
  rcases (inside.2 (.readMultiString 0) trivial).2 with ⟨value, next, performs, forward, -⟩
  have back : (wrappingPacket.readStart.readMultiString 0).2.readoffset = 0 := by decide +kernel
  simp only [ReaderCall.perform, Option.some.injEq, Prod.mk.injEq] at performs
  rw [← performs.2, back] at forward
  exact absurd forward (by decide)

end PoETask.Wire
