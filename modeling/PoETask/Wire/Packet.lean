import PoETask.Wire.Buffer

/-!
# Well-formed packets

`Buffer.Framed` says what a finished packet looks like: opcode, the payload
length in the length field, key byte and payload fill the bytes in use. Each
buffer operation is described once by what it does to a framed buffer, so later
proofs speak of payloads and never of offsets.

Packets are built from fields, the arguments of the `AddData` overloads. Every
call in the program leaves `bDontChangeLength` at its default, so a field always
counts in the length.
-/

namespace PoETask.Wire

open PoETask.Library

namespace Buffer

/-- The bytes in use are a header for the payload followed by the payload. -/
structure Framed (buffer : Buffer) (bOpcode key : UInt8) (body : List UInt8) : Prop where
  used_eq : buffer.used = 6 + body.length
  contents_eq : buffer.contents = bOpcode :: (leBytes 4 body.length ++ key :: body)

theorem length_contents (buffer : Buffer) : buffer.contents.length = min buffer.used 4000 := by
  simp [contents]

/-- Inside the bytes in use, the block is the contents followed by stale bytes. -/
theorem bufferinternal_eq (buffer : Buffer) :
    buffer.bufferinternal = buffer.contents ++ buffer.bufferinternal.drop buffer.used :=
  (List.take_append_drop _ _).symm

namespace Framed

variable {buffer : Buffer} {bOpcode key : UInt8} {body : List UInt8}

theorem length_le (framed : buffer.Framed bOpcode key body) : body.length ≤ 3994 := by
  have lengths := congrArg List.length framed.contents_eq
  have used := framed.used_eq
  simp only [length_contents, List.length_cons, List.length_append, length_leBytes] at lengths
  omega

theorem used_le (framed : buffer.Framed bOpcode key body) : buffer.used ≤ 4000 := by
  have used := framed.used_eq
  have small := framed.length_le
  omega

theorem bufferinternal_eq (framed : buffer.Framed bOpcode key body) :
    buffer.bufferinternal =
      bOpcode :: (leBytes 4 body.length ++ key :: (body ++ buffer.bufferinternal.drop buffer.used)) := by
  conv_lhs => rw [Buffer.bufferinternal_eq, framed.contents_eq]
  simp

theorem opcode_eq (framed : buffer.Framed bOpcode key body) : buffer.opcode = bOpcode := by
  rw [opcode, framed.bufferinternal_eq]
  rfl

theorem lengthField_eq (framed : buffer.Framed bOpcode key body) :
    buffer.lengthField = body.length := by
  have small := framed.length_le
  have block : readAt buffer.bufferinternal 1 (leBytes 4 body.length).length =
      leBytes 4 body.length := by
    have behind : buffer.bufferinternal.drop 1 =
        leBytes 4 body.length ++ key :: (body ++ buffer.bufferinternal.drop buffer.used) := by
      conv_lhs => rw [framed.bufferinternal_eq]
      rfl
    exact readAt_of_drop_eq behind
  simp only [length_leBytes] at block
  rw [lengthField, block, leValue_leBytes, Nat.mod_eq_of_lt (by omega)]

theorem keyByte_eq (framed : buffer.Framed bOpcode key body) : buffer.keyByte = key := by
  rw [keyByte, framed.bufferinternal_eq]
  simp [leBytes]

theorem payload_eq (framed : buffer.Framed bOpcode key body) : buffer.payload = body := by
  simp only [payload, framed.contents_eq]
  simp [leBytes]

/-- A length field that counts the payload makes a buffer framed. -/
theorem of_contents {count : ℕ} (used_eq : buffer.used = 6 + body.length)
    (counts : count = body.length)
    (contents_eq : buffer.contents = bOpcode :: (leBytes 4 count ++ key :: body)) :
    buffer.Framed bOpcode key body :=
  ⟨used_eq, by rw [contents_eq, counts]⟩

end Framed

section Writers

variable {buffer stored : Buffer} {bOpcode key : UInt8} {body data : List UInt8}

theorem store_isSome_iff (buffer : Buffer) (offset : ℕ) (block : List UInt8) :
    (buffer.store offset block).isSome ↔ offset + block.length ≤ 4000 := by
  simp only [store]
  split <;> simp_all [maxBufferSize]

theorem store_eq_some {offset : ℕ} {block : List UInt8}
    (wrote : buffer.store offset block = some stored) :
    offset + block.length ≤ 4000 ∧ stored.used = buffer.used ∧
      stored.readoffset = buffer.readoffset ∧
      stored.bufferinternal = overwrite buffer.bufferinternal offset block := by
  have fits := (store_isSome_iff buffer offset block).mp (by rw [wrote]; rfl)
  rw [store, dif_pos (by simpa [maxBufferSize] using fits)] at wrote
  obtain rfl := Option.some.inj wrote
  exact ⟨fits, rfl, rfl, rfl⟩

theorem overwrite_length_header (count value : ℕ) (bOpcode : UInt8) (rest : List UInt8) :
    overwrite (bOpcode :: (leBytes 4 count ++ rest)) 1 (leBytes 4 value) =
      bOpcode :: (leBytes 4 value ++ rest) := by
  have behind : (leBytes 4 count ++ rest).drop 4 = rest := List.drop_left' (by simp)
  simp [overwrite, behind]

@[simp]
theorem used_setLength (buffer : Buffer) (value : ℕ) :
    (buffer.setLength value).used = buffer.used := rfl

theorem contents_setLength {count : ℕ} {rest : List UInt8} (value : ℕ)
    (used_ge : 5 ≤ buffer.used)
    (contents_eq : buffer.contents = bOpcode :: (leBytes 4 count ++ rest)) :
    (buffer.setLength value).contents = bOpcode :: (leBytes 4 value ++ rest) := by
  rw [← overwrite_length_header count value bOpcode rest, ← contents_eq]
  change (overwrite buffer.bufferinternal 1 (leBytes 4 value)).take buffer.used = _
  rcases Nat.le_total buffer.used 4000 with small | large
  · exact take_overwrite_of_le (by simpa using used_ge) (by simpa using small)
  · have whole : buffer.contents = buffer.bufferinternal :=
      List.take_of_length_le (by simpa using large)
    simp only [whole]
    apply List.take_of_length_le
    rw [length_overwrite (by simp)]
    simpa using large

/-- A fresh package is framed with an empty payload; the key byte is a stale one. -/
theorem createPackage_framed (buffer : Buffer) (bOpcode : UInt8) :
    ∃ key, (buffer.createPackage bOpcode).Framed bOpcode key [] := by
  set opened := ({ buffer.emptyUsed with used := realBufferOffset }).setHeaderByte 0 bOpcode
    with opened_eq
  set tail := (buffer.bufferinternal.drop 1).take 5 with tail_eq
  have contents_eq : opened.contents = bOpcode :: tail := by
    simp [opened_eq, tail_eq, contents, setHeaderByte, overwrite, emptyUsed]
  have tailLength : tail.length = 5 := by simp [tail_eq]
  obtain ⟨key, key_eq⟩ : ∃ key, tail.drop 4 = [key] :=
    List.length_eq_one_iff.mp (by rw [List.length_drop, tailLength])
  have count_eq : leBytes 4 (leValue (tail.take 4)) = tail.take 4 := by
    have same := leBytes_leValue (tail.take 4)
    rwa [List.length_take, tailLength] at same
  refine ⟨key, rfl, ?_⟩
  have header : opened.contents =
      bOpcode :: (leBytes 4 (leValue (tail.take 4)) ++ [key]) := by
    rw [contents_eq, count_eq, ← key_eq, List.take_append_drop]
  exact contents_setLength 0 (show 5 ≤ realBufferOffset by decide) header

theorem addData_isSome_iff (buffer : Buffer) (data : List UInt8) (bDontChangeLength : Bool) :
    (buffer.addData data bDontChangeLength).isSome ↔ buffer.used + data.length ≤ 4000 := by
  rw [← store_isSome_iff buffer buffer.used data]
  cases stored_eq : buffer.store buffer.used data with
  | none => simp [addData, stored_eq]
  | some stored => cases bDontChangeLength <;> simp [addData, stored_eq]

/-- Appending to a framed buffer appends to its payload. -/
theorem Framed.addData (framed : buffer.Framed bOpcode key body)
    (added : buffer.addData data false = some stored) :
    stored.Framed bOpcode key (body ++ data) ∧ stored.readoffset = buffer.readoffset := by
  simp only [Buffer.addData, Option.bind_eq_bind, Option.bind_eq_some_iff, Bool.false_eq_true,
    if_false, pure, Option.some.injEq] at added
  obtain ⟨filled, wrote, rfl⟩ := added
  obtain ⟨fits, used_eq, readoffset_eq, memory_eq⟩ := store_eq_some wrote
  have used := framed.used_eq
  set grown : Buffer := { filled with used := dword (filled.used + data.length) } with grown_eq
  have grownUsed : grown.used = buffer.used + data.length := by
    change dword (filled.used + data.length) = _
    rw [used_eq, dword_of_lt (by omega)]
  have grownContents :
      grown.contents = bOpcode :: (leBytes 4 body.length ++ key :: (body ++ data)) := by
    simp only [contents, grownUsed]
    change filled.bufferinternal.take (buffer.used + data.length) = _
    rw [memory_eq, take_add_overwrite (by simpa using fits)]
    change buffer.contents ++ data = _
    rw [framed.contents_eq]
    simp
  have grownLength : grown.lengthField = body.length := by
    have block : readAt grown.bufferinternal 1 (leBytes 4 body.length).length =
        leBytes 4 body.length := by
      have behind : grown.bufferinternal.drop 1 = leBytes 4 body.length ++
          (key :: (body ++ data) ++ grown.bufferinternal.drop grown.used) := by
        conv_lhs => rw [Buffer.bufferinternal_eq, grownContents]
        simp
      exact readAt_of_drop_eq behind
    have small := framed.length_le
    simp only [length_leBytes] at block
    rw [lengthField, block, leValue_leBytes, Nat.mod_eq_of_lt (by omega)]
  refine ⟨Framed.of_contents ?_ ?_ (contents_setLength _ (by omega) grownContents), ?_⟩
  · simp only [used_setLength, grownUsed, List.length_append]
    omega
  · rw [grownLength, dword_of_lt (by omega), List.length_append]
  · exact readoffset_eq

end Writers

section Transport

variable {buffer source : Buffer} {bOpcode key : UInt8} {body : List UInt8}

theorem cipher_cipher (key byte : UInt8) : cipher key (cipher key byte) = byte := by
  simp only [cipher]
  grind

theorem map_cipher_map_cipher (key : UInt8) (body : List UInt8) :
    (body.map (cipher key)).map (cipher key) = body := by
  simp [List.map_map, Function.comp_def, cipher_cipher]

theorem Framed.applyCipher (framed : buffer.Framed bOpcode key body) :
    buffer.applyCipher.Framed bOpcode key (body.map (cipher key)) := by
  have used := framed.used_eq
  have small := framed.length_le
  refine ⟨by simpa [Buffer.applyCipher] using used, ?_⟩
  have header : buffer.bufferinternal.take 6 = bOpcode :: (leBytes 4 body.length ++ [key]) := by
    rw [framed.bufferinternal_eq]
    simp [leBytes]
  change (overwrite buffer.bufferinternal 6 (buffer.payload.map (cipher buffer.keyByte))).take
    buffer.used = _
  rw [framed.payload_eq, framed.keyByte_eq, used, ← List.length_map (cipher key),
    take_add_overwrite (by simp; omega), header]
  simp

theorem Framed.setKey (framed : buffer.Framed bOpcode key body) (rand : UInt8) :
    (buffer.setHeaderByte 5 rand).Framed bOpcode rand body := by
  have used := framed.used_eq
  have small := framed.used_le
  refine ⟨used, ?_⟩
  change (overwrite buffer.bufferinternal 5 [rand]).take buffer.used = _
  rw [take_overwrite_of_le (by simp; omega) (by simpa using small)]
  change overwrite buffer.contents 5 [rand] = _
  simp only [framed.contents_eq]
  simp [overwrite, leBytes]

theorem Framed.encrypt (framed : buffer.Framed bOpcode key body) (rand : UInt8) :
    (buffer.encrypt rand).Framed bOpcode rand (body.map (cipher rand)) :=
  (framed.setKey rand).applyCipher

theorem Framed.decrypt (framed : buffer.Framed bOpcode key body) :
    buffer.decrypt.Framed bOpcode key (body.map (cipher key)) :=
  framed.applyCipher

/-- Copying a framed buffer into any other buffer keeps packet and read position. -/
theorem Framed.copy (framed : source.Framed bOpcode key body) (buffer : Buffer) :
    ∃ copied, buffer.copy source = some copied ∧ copied.Framed bOpcode key body ∧
      copied.readoffset = source.readoffset := by
  have small := framed.used_le
  have block : readAt source.bufferinternal 0 source.used = source.contents := rfl
  have blockLength : source.contents.length = source.used := by
    simp only [length_contents]
    omega
  obtain ⟨copied, copied_eq⟩ := Option.isSome_iff_exists.mp ((store_isSome_iff
    { buffer with used := source.used, readoffset := source.readoffset } 0 source.contents).mpr
      (by omega))
  obtain ⟨fits, used_eq, readoffset_eq, memory_eq⟩ := store_eq_some copied_eq
  refine ⟨copied, by rw [Buffer.copy, if_pos (by simpa using small), block, copied_eq], ⟨?_, ?_⟩,
    readoffset_eq⟩
  · simp only [used_eq]
    exact framed.used_eq
  · have whole : (overwrite buffer.bufferinternal 0 source.contents).take
        (0 + source.contents.length) = buffer.bufferinternal.take 0 ++ source.contents :=
      take_add_overwrite (by simpa using fits)
    simp only [blockLength, Nat.zero_add] at whole
    simp only [contents, memory_eq, used_eq]
    change (overwrite buffer.bufferinternal 0 source.contents).take source.used = _
    rw [whole, ← framed.contents_eq]
    simp

end Transport

end Buffer

/-- One argument of an `AddData` overload. -/
inductive Field where
  | block (pData : List UInt8)
  | narrow (str : List UInt8) (dwSize : ℕ)
  | wide (str : List WChar) (dwSize : ℕ)

namespace Field

def addTo (buffer : Buffer) : Field → Option Buffer
  | .block pData => buffer.addData pData false
  | .narrow str dwSize => buffer.addDataA str dwSize
  | .wide str dwSize => buffer.addDataW str dwSize

/-- The length prefix of a string whose size the receiver is not told otherwise. -/
def sizePrefix (count dwSize : ℕ) : List UInt8 :=
  if dwSize = 0 then leBytes 4 count else []

def bytes : Field → List UInt8
  | .block pData => pData
  | .narrow str dwSize => sizePrefix str.length dwSize ++ str
  | .wide str dwSize => sizePrefix str.length dwSize ++ wideBytes str

end Field

/-- Build a packet with `CreatePackage` and one `AddData` for each field. -/
def buildPacket (buffer : Buffer) (bOpcode : UInt8) (fields : List Field) : Option Buffer :=
  fields.foldlM Field.addTo (buffer.createPackage bOpcode)

namespace Buffer

variable {buffer built : Buffer} {bOpcode key : UInt8} {body : List UInt8}

theorem Framed.addSized {strLength dwSize : ℕ} {data : List UInt8}
    (framed : buffer.Framed bOpcode key body)
    (added : (buffer.addSize strLength dwSize).bind (fun sized => sized.addData data false) =
      some built) :
    built.Framed bOpcode key (body ++ (Field.sizePrefix strLength dwSize ++ data)) ∧
      built.readoffset = buffer.readoffset := by
  rcases Option.bind_eq_some_iff.mp added with ⟨sized, sized_eq, appended⟩
  simp only [addSize] at sized_eq
  simp only [Field.sizePrefix]
  by_cases unsized : dwSize = 0
  · simp only [if_pos unsized] at sized_eq ⊢
    rcases framed.addData sized_eq with ⟨sizedFramed, sizedOffset⟩
    rcases sizedFramed.addData appended with ⟨builtFramed, builtOffset⟩
    exact ⟨by simpa using builtFramed, builtOffset.trans sizedOffset⟩
  · simp only [if_neg unsized] at sized_eq ⊢
    obtain rfl := Option.some.inj sized_eq
    simpa using framed.addData appended

theorem Framed.addField (framed : buffer.Framed bOpcode key body) (field : Field)
    (added : field.addTo buffer = some built) :
    built.Framed bOpcode key (body ++ field.bytes) ∧ built.readoffset = buffer.readoffset := by
  cases field with
  | block pData => exact framed.addData added
  | narrow str dwSize => exact framed.addSized added
  | wide str dwSize => exact framed.addSized added

theorem Framed.addFields (fields : List Field) (framed : buffer.Framed bOpcode key body)
    (added : fields.foldlM Field.addTo buffer = some built) :
    built.Framed bOpcode key (body ++ fields.flatMap Field.bytes) ∧
      built.readoffset = buffer.readoffset := by
  induction fields generalizing buffer body with
  | nil =>
      obtain rfl : buffer = built := by simpa using added
      simpa using framed
  | cons field rest ih =>
      simp only [List.foldlM_cons, Option.bind_eq_bind, Option.bind_eq_some_iff] at added
      rcases added with ⟨next, next_eq, added⟩
      rcases framed.addField field next_eq with ⟨nextFramed, nextOffset⟩
      rcases ih nextFramed added with ⟨builtFramed, builtOffset⟩
      exact ⟨by simpa using builtFramed, builtOffset.trans nextOffset⟩

end Buffer

/-- A built packet is framed by its opcode and the bytes of its fields. -/
theorem framed_of_buildPacket {buffer built : Buffer} {bOpcode : UInt8} {fields : List Field}
    (build : buildPacket buffer bOpcode fields = some built) :
    ∃ key, built.Framed bOpcode key (fields.flatMap Field.bytes) ∧ built.readoffset = 6 := by
  rcases buffer.createPackage_framed bOpcode with ⟨key, created⟩
  rcases created.addFields fields build with ⟨builtFramed, builtOffset⟩
  exact ⟨key, by simpa using builtFramed, builtOffset⟩

section Definedness

variable {buffer : Buffer} {bOpcode key : UInt8} {body : List UInt8}

theorem Buffer.Framed.addSized_isSome_iff {strLength dwSize : ℕ} {data : List UInt8}
    (framed : buffer.Framed bOpcode key body) :
    ((buffer.addSize strLength dwSize).bind (fun sized => sized.addData data false)).isSome ↔
      6 + body.length + (Field.sizePrefix strLength dwSize ++ data).length ≤ 4000 := by
  have used := framed.used_eq
  simp only [Buffer.addSize, Field.sizePrefix]
  split
  · have sizedSome := buffer.addData_isSome_iff (leBytes 4 strLength) false
    cases sized_eq : buffer.addData (leBytes 4 strLength) false with
    | none =>
        simp only [sized_eq, Option.isSome_none, Bool.false_eq_true, false_iff,
          length_leBytes] at sizedSome
        simp only [Option.bind_none, Option.isSome_none, Bool.false_eq_true, false_iff,
          List.length_append, length_leBytes]
        omega
    | some sized =>
        have sizedUsed := (framed.addData sized_eq).1.used_eq
        simp only [List.length_append, length_leBytes] at sizedUsed
        simp only [Option.bind_some, Buffer.addData_isSome_iff, List.length_append,
          length_leBytes]
        omega
  · simp only [Option.bind_some, Buffer.addData_isSome_iff, List.nil_append, used]

theorem Field.addTo_isSome_iff (field : Field) (framed : buffer.Framed bOpcode key body) :
    (field.addTo buffer).isSome ↔ 6 + body.length + field.bytes.length ≤ 4000 := by
  cases field with
  | block pData => simp only [addTo, Buffer.addData_isSome_iff, framed.used_eq, bytes]
  | narrow str dwSize => exact framed.addSized_isSome_iff
  | wide str dwSize => exact framed.addSized_isSome_iff

theorem Field.foldlM_isSome_iff (fields : List Field) (framed : buffer.Framed bOpcode key body) :
    (fields.foldlM Field.addTo buffer).isSome ↔
      6 + body.length + (fields.flatMap Field.bytes).length ≤ 4000 := by
  induction fields generalizing buffer body with
  | nil =>
      have small := framed.length_le
      simp only [List.foldlM_nil, Option.pure_def, Option.isSome_some, List.flatMap_nil,
        List.length_nil, true_iff]
      omega
  | cons field rest ih =>
      have fieldSome := field.addTo_isSome_iff framed
      simp only [List.foldlM_cons, List.flatMap_cons, List.length_append]
      cases next_eq : field.addTo buffer with
      | none =>
          simp only [next_eq, Option.isSome_none, Bool.false_eq_true, false_iff] at fieldSome
          simp only [Option.bind_eq_bind, Option.bind_none, Option.isSome_none,
            Bool.false_eq_true, false_iff]
          omega
      | some next =>
          have restSome := ih (framed.addField field next_eq).1
          simp only [List.length_append] at restSome
          simp only [Option.bind_eq_bind, Option.bind_some, restSome]
          omega

/-- A packet can be built exactly when header and fields fit the block. -/
theorem buildPacket_isSome_iff (buffer : Buffer) (bOpcode : UInt8) (fields : List Field) :
    (buildPacket buffer bOpcode fields).isSome ↔
      6 + (fields.flatMap Field.bytes).length ≤ 4000 := by
  rcases buffer.createPackage_framed bOpcode with ⟨key, created⟩
  exact Field.foldlM_isSome_iff fields created

end Definedness

end PoETask.Wire
