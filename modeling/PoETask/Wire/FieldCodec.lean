import Mathlib.Data.List.TakeDrop
import PoETask.Wire.Readers

/-!
# Field codec

What `AddData` writes and what the readers take back, for any sequence of fields. Writer
and readers agree on the order of the fields, on a length in front of a string without a
size and on the size of every other. They disagree on content: a `CString` reader stops
at the first terminator, and `ReadWideString` caps a length it finds in the packet at
`MAX_PATH`, which no writer does.

A packet reads back exactly when no field meets such a limit: a reader that gives back
its field stands in front of the next one, and the first that does not gives back
something else.
-/

namespace PoETask.Wire

open PoETask.Library

/-- The reader call for a field. A string that was written with a size of its own is read with
that size; no call asks for the size zero, which means a size in the packet. -/
inductive Field.ReadBy : Field → ReaderCall → Prop where
  | scalar (pData : List UInt8) : ReadBy (.block pData) (.read pData.length)
  | block (pData : List UInt8) : ReadBy (.block pData) (.readBlock pData.length)
  | narrow (str : List UInt8) : ReadBy (.narrow str 0) (.readMultiString 0)
  | narrowSized (str : List UInt8) (dwSize : ℕ) (sized : dwSize ≠ 0) (nonempty : str.length ≠ 0) :
      ReadBy (.narrow str dwSize) (.readMultiString str.length)
  | wide (str : List WChar) : ReadBy (.wide str 0) (.readWideString 0)
  | wideSized (str : List WChar) (dwSize : ℕ) (sized : dwSize ≠ 0) (nonempty : str.length ≠ 0) :
      ReadBy (.wide str dwSize) (.readWideString str.length)
  | stdWide (str : List WChar) : ReadBy (.wide str 0) (.readStdWideString 0)
  | stdWideSized (str : List WChar) (dwSize : ℕ) (sized : dwSize ≠ 0)
      (nonempty : str.length ≠ 0) : ReadBy (.wide str dwSize) (.readStdWideString str.length)

namespace ReadValue

/-- The value is the field as it was written. -/
def Is : ReadValue → Field → Prop
  | .scalar value, .block pData => value = leValue pData
  | .block bytes, .block pData => bytes = pData
  | .narrow chars, .narrow str _ => chars = str
  | .wide chars, .wide str _ => chars = str
  | _, _ => False

end ReadValue

namespace ReaderCall

/-- The field is within the limits of its reader. -/
def Keeps : ReaderCall → Field → Prop
  | .readMultiString _, .narrow str _ => 0 ∉ str
  | .readWideString dwSize, .wide str _ => 0 ∉ str ∧ (dwSize = 0 → str.length ≤ maxPath)
  | .readStdWideString dwSize, .wide str _ => dwSize = 0 → str.length ≤ maxPath
  | _, _ => True

end ReaderCall

namespace Buffer.Unread

variable {buffer : Buffer} {tail : List UInt8} {field : Field} {call : ReaderCall}

theorem untilNul_take_eq_iff {str : List WChar} :
    untilNul (str.take 260) = str ↔ 0 ∉ str ∧ str.length ≤ 260 := by
  constructor
  · intro same
    have short : str.length ≤ 260 := by
      rw [← same]
      exact (untilNul_length_le _).trans (List.length_take_le _ _)
    rw [List.take_of_length_le short] at same
    exact ⟨untilNul_eq_self_iff.mp same, short⟩
  · rintro ⟨noNul, short⟩
    rw [List.take_of_length_le short, untilNul_eq_self noNul]

/-- A reader gives its field back exactly when the field is within its limits, and then the next
field stands behind it. -/
theorem perform (reads : field.ReadBy call) (unread : buffer.Unread (field.bytes ++ tail)) :
    ∃ value next, call.perform buffer = some (value, next)
      ∧ (value.Is field ↔ call.Keeps field) ∧ (call.Keeps field → next.Unread tail) := by
  cases reads with
  | scalar pData =>
      rcases unread.readScalar with ⟨value_eq, behind⟩
      exact ⟨_, _, rfl, iff_of_true value_eq trivial, fun _ => behind⟩
  | block pData =>
      rcases unread.readBlock with ⟨value_eq, behind⟩
      exact ⟨_, _, rfl, iff_of_true value_eq trivial, fun _ => behind⟩
  | narrow str =>
      rcases unread.readMultiString with ⟨value_eq, behind⟩
      refine ⟨_, _, rfl, ?_, fun _ => behind⟩
      simp only [ReadValue.Is, ReaderCall.Keeps, value_eq]
      exact untilNulA_eq_self_iff
  | narrowSized str dwSize sized nonempty =>
      simp only [Field.bytes, Field.sizePrefix, if_neg sized, List.nil_append] at unread
      rcases unread.readMultiString_sized nonempty with ⟨value_eq, behind⟩
      refine ⟨_, _, rfl, ?_, fun _ => behind⟩
      simp only [ReadValue.Is, ReaderCall.Keeps, value_eq]
      exact untilNulA_eq_self_iff
  | wide str =>
      rcases unread.readStdWideString with ⟨value_eq, behind⟩
      refine ⟨_, _, rfl, ?_, fun keeps => ?_⟩
      · simp only [ReadValue.Is, ReaderCall.Keeps, readWideString_eq, value_eq, forall_true_left]
        exact untilNul_take_eq_iff
      · rw [readWideString_eq]
        exact behind (keeps.2 rfl)
  | wideSized str dwSize sized nonempty =>
      simp only [Field.bytes, Field.sizePrefix, if_neg sized, List.nil_append] at unread
      rcases unread.readStdWideString_sized nonempty with ⟨value_eq, behind⟩
      refine ⟨_, _, rfl, ?_, fun _ => ?_⟩
      · simp only [ReadValue.Is, ReaderCall.Keeps, readWideString_eq, value_eq, nonempty,
          false_implies, and_true]
        exact untilNul_eq_self_iff
      · rw [readWideString_eq]
        exact behind
  | stdWide str =>
      rcases unread.readStdWideString with ⟨value_eq, behind⟩
      refine ⟨_, _, rfl, ?_, fun keeps => behind (keeps rfl)⟩
      simp only [ReadValue.Is, ReaderCall.Keeps, value_eq, forall_true_left]
      rw [List.take_eq_self_iff]
  | stdWideSized str dwSize sized nonempty =>
      simp only [Field.bytes, Field.sizePrefix, if_neg sized, List.nil_append] at unread
      rcases unread.readStdWideString_sized nonempty with ⟨value_eq, behind⟩
      exact ⟨_, _, rfl, iff_of_true value_eq fun none => absurd none nonempty, fun _ => behind⟩

/-- Reading on from a field on: all fields come back, with nothing left, exactly when each is within
the limits of its reader. -/
theorem performAll {buffer : Buffer} {fields : List Field} {calls : List ReaderCall}
    (reads : List.Forall₂ Field.ReadBy fields calls)
    (unread : buffer.Unread (fields.flatMap Field.bytes)) :
    (∃ values last, ReaderCall.performAll buffer calls = some (values, last)
        ∧ List.Forall₂ ReadValue.Is values fields ∧ last.readoffset = buffer.used)
      ↔ List.Forall₂ ReaderCall.Keeps calls fields := by
  induction reads generalizing buffer with
  | nil =>
      have atEnd := unread.length_eq
      simp only [List.flatMap_nil, List.length_nil, Nat.add_zero] at atEnd
      exact iff_of_true ⟨[], buffer, rfl, .nil, atEnd⟩ .nil
  | @cons field call fields calls readBy _ ih =>
      rw [List.flatMap_cons] at unread
      rcases unread.perform readBy with ⟨value, next, performs, value_iff, behind⟩
      constructor
      · rintro ⟨values, last, performed, same, atEnd⟩
        simp only [ReaderCall.performAll, performs, Option.bind_eq_bind, Option.bind_some,
          Option.bind_eq_some_iff, pure, Option.some.injEq, Prod.mk.injEq] at performed
        rcases performed with ⟨⟨later, rest⟩, performed, rfl, rfl⟩
        rcases List.forall₂_cons.mp same with ⟨isField, areFields⟩
        have keeps := value_iff.mp isField
        refine .cons keeps ((ih (behind keeps)).mp ⟨later, rest, performed, areFields, ?_⟩)
        rw [atEnd, ReaderCall.perform_used performs]
      · intro keeps
        rcases List.forall₂_cons.mp keeps with ⟨keepsField, keepsRest⟩
        rcases (ih (behind keepsField)).mpr keepsRest with
          ⟨later, last, performed, same, atEnd⟩
        refine ⟨value :: later, last, ?_, .cons (value_iff.mpr keepsField) same, ?_⟩
        · simp [ReaderCall.performAll, performs, performed]
        · rw [atEnd, ReaderCall.perform_used performs]

end Buffer.Unread

/-- Reading the packet from its start gives back every field and uses up the packet. -/
def ReadsBack (packet : Buffer) (fields : List Field) (calls : List ReaderCall) : Prop :=
  ∃ values last, ReaderCall.performAll packet.readStart calls = some (values, last)
    ∧ List.Forall₂ ReadValue.Is values fields ∧ last.readoffset = packet.used

section Roundtrip

variable {pool packet : Buffer} {bOpcode : UInt8} {fields : List Field} {calls : List ReaderCall}

/-- Fields that were appended to a fresh package come back unchanged exactly when each is within
the limits of its reader. -/
theorem readsBack_iff (built : buildPacket pool bOpcode fields = some packet)
    (reads : List.Forall₂ Field.ReadBy fields calls) :
    ReadsBack packet fields calls ↔ List.Forall₂ ReaderCall.Keeps calls fields := by
  rcases framed_of_buildPacket built with ⟨key, framed, -⟩
  exact framed.unread.performAll reads

end Roundtrip

/-- A scalar, a narrow and a wide string, with a reader for each. -/
def loginFields : List Field := [.block [5, 0, 0, 0], .narrow [65, 66] 0, .wide [67, 68] 0]

def loginCalls : List ReaderCall := [.read 4, .readMultiString 0, .readWideString 0]

theorem readsBack_loginFields :
    ∃ packet, buildPacket .blank 3 loginFields = some packet ∧
      (ReadsBack packet loginFields loginCalls
        ↔ List.Forall₂ ReaderCall.Keeps loginCalls loginFields) := by
  rcases Option.isSome_iff_exists.mp ((buildPacket_isSome_iff .blank 3 loginFields).mpr
    (by decide)) with ⟨packet, built⟩
  exact ⟨packet, built, readsBack_iff built
    (.cons (.scalar [5, 0, 0, 0]) (.cons (.narrow [65, 66]) (.cons (.wide [67, 68]) .nil)))⟩

/-- One character more than `MAX_PATH`. -/
def longString : List WChar := List.replicate 261 65

theorem longString_length : longString.length = 261 := List.length_replicate

/-- A wide string of 261 characters fits a packet and comes back with 260. -/
theorem not_readsBack_long :
    ¬ ∀ (pool packet : Buffer) (bOpcode : UInt8) (fields : List Field) (calls : List ReaderCall),
      buildPacket pool bOpcode fields = some packet → List.Forall₂ Field.ReadBy fields calls →
      ReadsBack packet fields calls := by
  intro claimed
  have fits : 6 + ([Field.wide longString 0].flatMap Field.bytes).length ≤ 4000 := by
    simp [Field.bytes, Field.sizePrefix, longString_length]
  rcases Option.isSome_iff_exists.mp ((buildPacket_isSome_iff .blank 3 _).mpr fits) with
    ⟨packet, built⟩
  have reads : List.Forall₂ Field.ReadBy [.wide longString 0]
      [.readWideString 0] := .cons (.wide _) .nil
  rcases framed_of_buildPacket built with ⟨key, framed, -⟩
  have keeps := (framed.unread.performAll reads).mp (claimed _ _ _ _ _ built reads)
  rcases List.forall₂_cons.mp keeps with ⟨⟨-, short⟩, -⟩
  exact absurd (short rfl) (by rw [longString_length]; decide)

end PoETask.Wire
