import Mathlib.Data.List.Basic

/-!
# Tokens of a query text

The lexical part of a query language with quoted literals: words, quoted literals with
doubled delimiters and backslash escapes, comments and single symbols. `step` reads one
character, and `scan` is the list of tokens of what is left from a state on.

Text that is put between the delimiters of a literal stays inside that literal exactly
when it is intact: each delimiter in it is doubled and each backslash escapes a character
of it. Everything behind the closing delimiter is then read as if the literal were not
there.
-/

namespace PoETask.Library.SqlTokens

/-- `'`, the delimiter of a string literal. -/
abbrev quote : UInt8 := 39

abbrev backslash : UInt8 := 92

inductive Token where
  | word (chars : List UInt8)
  | symbol (char : UInt8)
  | quoted (delimiter : UInt8) (body : List UInt8)
  | comment (body : List UInt8)
  | unterminated (chars : List UInt8)
  deriving DecidableEq

/-- Where the scan stands; a state keeps the characters of the token that it is inside of. -/
inductive State where
  | start
  | word (chars : List UInt8)
  | quoted (delimiter : UInt8) (body : List UInt8)
  | escaped (delimiter : UInt8) (body : List UInt8)
  | closing (delimiter : UInt8) (body : List UInt8)
  | lineComment (body : List UInt8)
  | blockComment (body : List UInt8)
  | star (body : List UInt8)
  | dash
  | dashes
  | slash
  deriving DecidableEq

def isSpace (char : UInt8) : Bool := (9 ≤ char && char ≤ 13) || char = 32

def isWordChar (char : UInt8) : Bool :=
  (48 ≤ char && char ≤ 57) || (65 ≤ char && char ≤ 90) || (97 ≤ char && char ≤ 122)
    || char = 95 || char = 36 || 128 ≤ char

/-- The first character of a token. -/
def begin (char : UInt8) : List Token × State :=
  if isSpace char then ([], .start)
  else if isWordChar char then ([], .word [char])
  else if char = 39 ∨ char = 34 ∨ char = 96 then ([], .quoted char [])
  else if char = 35 then ([], .lineComment [])
  else if char = 45 then ([], .dash)
  else if char = 47 then ([], .slash)
  else ([.symbol char], .start)

/-- Finish tokens in front of a character that begins the next one. -/
def emit (tokens : List Token) (char : UInt8) : List Token × State :=
  (tokens ++ (begin char).1, (begin char).2)

/-- Read one character. -/
def step : State → UInt8 → List Token × State
  | .start, char => begin char
  | .word chars, char =>
      if isWordChar char then ([], .word (chars ++ [char])) else emit [.word chars] char
  | .quoted delimiter body, char =>
      if char = delimiter then ([], .closing delimiter body)
      -- a quoted name has no escapes
      else if char = backslash ∧ delimiter ≠ 96 then ([], .escaped delimiter (body ++ [char]))
      else ([], .quoted delimiter (body ++ [char]))
  | .escaped delimiter body, char => ([], .quoted delimiter (body ++ [char]))
  | .closing delimiter body, char =>
      if char = delimiter then ([], .quoted delimiter (body ++ [char, char]))
      else emit [.quoted delimiter body] char
  | .lineComment body, char =>
      if char = 10 then ([.comment body], .start) else ([], .lineComment (body ++ [char]))
  | .blockComment body, char =>
      if char = 42 then ([], .star body) else ([], .blockComment (body ++ [char]))
  | .star body, char =>
      if char = 47 then ([.comment body], .start)
      else if char = 42 then ([], .star (body ++ [char]))
      else ([], .blockComment (body ++ [42, char]))
  | .dash, char => if char = 45 then ([], .dashes) else emit [.symbol 45] char
  -- two dashes begin a comment only in front of a blank
  | .dashes, char =>
      if char = 10 then ([.comment []], .start)
      else if isSpace char then ([], .lineComment [])
      else if char = 45 then ([.symbol 45], .dashes)
      else emit [.symbol 45, .symbol 45] char
  | .slash, char => if char = 42 then ([], .blockComment []) else emit [.symbol 47] char

/-- What the end of the text makes of the token in hand. -/
def finish : State → List Token
  | .start => []
  | .word chars => [.word chars]
  | .quoted delimiter body => [.unterminated (delimiter :: body)]
  | .escaped delimiter body => [.unterminated (delimiter :: body)]
  | .closing delimiter body => [.quoted delimiter body]
  | .lineComment body => [.comment body]
  | .blockComment body => [.unterminated body]
  | .star body => [.unterminated body]
  | .dash => [.symbol 45]
  | .dashes => [.symbol 45, .symbol 45]
  | .slash => [.symbol 47]

/-- The tokens that are left from a state on. -/
def scan (state : State) : List UInt8 → List Token
  | [] => finish state
  | char :: rest => (step state char).1 ++ scan (step state char).2 rest

/-- The tokens of a text. -/
def tokens (text : List UInt8) : List Token := scan .start text

/-- The tokens that a text finishes from a state on, and where it leads. -/
def walk (state : State) : List UInt8 → List Token × State
  | [] => ([], state)
  | char :: rest =>
      let later := walk (step state char).2 rest
      ((step state char).1 ++ later.1, later.2)

/-- Between its delimiters the text is one literal: delimiters are doubled, and a backslash has a
character to escape. -/
def isIntact (delimiter : UInt8) : List UInt8 → Bool
  | [] => true
  | [char] => char ≠ delimiter && char ≠ backslash
  | char :: next :: rest =>
      if char = delimiter then next = delimiter && isIntact delimiter rest
      else if char = backslash then isIntact delimiter rest
      else isIntact delimiter (next :: rest)

section Literals

variable {delimiter char : UInt8} {text tail body : List UInt8}

/-- Text without delimiters and backslashes is intact. -/
theorem isIntact_of_plain (noDelimiter : delimiter ∉ text) (noBackslash : backslash ∉ text) :
    isIntact delimiter text := by
  induction text with
  | nil => rfl
  | cons char rest ih =>
      have notDelimiter : char ≠ delimiter := fun same => noDelimiter (same ▸ List.mem_cons_self)
      have notBackslash : char ≠ backslash := fun same => noBackslash (same ▸ List.mem_cons_self)
      have intact := ih (fun mem => noDelimiter (List.mem_cons_of_mem _ mem))
        fun mem => noBackslash (List.mem_cons_of_mem _ mem)
      cases rest with
      | nil => simp [isIntact, notDelimiter, notBackslash]
      | cons next rest => simpa only [isIntact, if_neg notDelimiter, if_neg notBackslash]

end Literals

-- A doubled delimiter stays in the literal, and a comment needs a blank behind its dashes.
example : tokens [39, 97, 39, 39, 98, 39, 45, 45, 32, 99] =
    [.quoted quote [97, 39, 39, 98], .comment [99]] := by decide

end PoETask.Library.SqlTokens
