import Mathlib.Data.List.Basic

/-!
# Texts in the place of a format

A text that is given to a function of the `printf` family as its format is read for
conversions. Without arguments a doubled percent sign prints one, and every other
conversion takes an argument that is not there, which is undefined. Such texts are
`none` here.

The rules say how a text is read that is composed of others: piece by piece, as long
as the next piece does not begin with a percent sign.
-/

namespace PoETask.Library

variable {Symbol : Type*} [DecidableEq Symbol]

/-- What a text prints as a format without arguments, where this is defined. -/
def bareFormat (percent : Symbol) : List Symbol → Option (List Symbol)
  | [] => some []
  | [char] => if char = percent then none else some [char]
  | char :: next :: rest =>
      if char = percent then
        if next = percent then (bareFormat percent rest).map (percent :: ·) else none
      else
        (bareFormat percent (next :: rest)).map (char :: ·)

variable {percent char : Symbol}

/-- A character other than the percent sign prints itself. -/
theorem bareFormat_cons (different : char ≠ percent) (rest : List Symbol) :
    bareFormat percent (char :: rest) = (bareFormat percent rest).map (char :: ·) := by
  cases rest with
  | nil => simp [bareFormat, different]
  | cons next rest => rw [bareFormat, if_neg different]

/-- A text is read up to a piece that begins with another character, and on from there. -/
theorem bareFormat_append_cons (different : char ≠ percent) (front back : List Symbol) :
    bareFormat percent (front ++ char :: back) =
      (bareFormat percent front).bind fun printed =>
        (bareFormat percent back).map fun rest => printed ++ char :: rest := by
  induction front using bareFormat.induct percent with
  | case1 =>
      rw [List.nil_append, bareFormat_cons different]
      rfl
  | case2 =>
      simp [bareFormat, different]
  | case3 other isOther =>
      rw [List.singleton_append, bareFormat_cons isOther, bareFormat_cons different]
      simp [bareFormat, isOther, Option.map_map, Function.comp_def]
  | case4 rest ih =>
      simp only [List.cons_append, bareFormat, if_true, ih]
      cases bareFormat percent rest with
      | none => rfl
      | some printed => simp [Option.map_map, Function.comp_def]
  | case5 next rest isNext => simp [bareFormat, isNext]
  | case6 other next rest isOther ih =>
      rw [List.cons_append, bareFormat_cons isOther, ih, bareFormat_cons isOther]
      cases bareFormat percent (next :: rest) with
      | none => rfl
      | some printed => simp [Option.map_map, Function.comp_def]

/-- A text without percent signs in front of another one prints itself. -/
theorem bareFormat_plain_append {front : List Symbol} (plain : percent ∉ front)
    (back : List Symbol) :
    bareFormat percent (front ++ back) = (bareFormat percent back).map (front ++ ·) := by
  induction front with
  | nil => simp
  | cons char rest ih =>
      rcases List.ne_and_not_mem_of_not_mem_cons plain with ⟨different, plainRest⟩
      rw [List.cons_append, bareFormat_cons different.symm, ih plainRest, Option.map_map]
      rfl

end PoETask.Library
