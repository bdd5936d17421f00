/-
Strings and keys of TOML. Four quoted forms can be read and written; the writer takes the first
form that shows the text as it is, and escapes only where none does. Scanners return what they
read and the rest of the text.
-/
import PromptTheme.Text.Letters

namespace PromptTheme.Toml

/-- Reads something at the front of a text, and returns it with the rest. -/
abbrev Scan (α : Type) := List Char → Option (α × List Char)

def isSpace (c : Char) : Bool := c = ' ' ∨ c = '\t'

def skipSpace (s : List Char) : List Char := s.dropWhile isSpace

/-- The control characters that no text may hold raw: all but the tab. -/
def isControl (c : Char) : Bool := (c.toNat < 0x20 && c != '\t') || c.toNat == 0x7f

/-- A character of a key without quotes. -/
def isBare (c : Char) : Bool := c.isAlphanum || c = '_' || c = '-'

/-! ## Reading -/

/-- The character that a one-letter escape stands for. -/
def escaped? : Char → Option Char
  | 'b' => some '\x08'
  | 't' => some '\t'
  | 'n' => some '\n'
  | 'f' => some '\x0c'
  | 'r' => some '\r'
  | '"' => some '"'
  | '\\' => some '\\'
  | _ => none

/-- The character with the number that the digits write, unless it is a surrogate or too large. -/
def charOfHex? (digits : List Char) : Option Char :=
  match Text.digitsValue? 16 digits with
  | some n => if h : n.isValidChar then some (Char.ofNatAux n h) else none
  | none => none

/-- Puts a character in front of what was read. -/
def withChar (c : Char) : Option (List Char × List Char) → Option (List Char × List Char) :=
  Option.map fun (cs, rest) => (c :: cs, rest)

/-- The rest of a string in double quotes. -/
def basicBody : Scan (List Char)
  | [] => none
  | '"' :: rest => some ([], rest)
  | '\\' :: 'u' :: a :: b :: c :: d :: rest =>
    match charOfHex? [a, b, c, d] with
    | some x => withChar x (basicBody rest)
    | none => none
  | '\\' :: 'U' :: a :: b :: c :: d :: e :: f :: g :: h :: rest =>
    match charOfHex? [a, b, c, d, e, f, g, h] with
    | some x => withChar x (basicBody rest)
    | none => none
  | '\\' :: e :: rest =>
    match escaped? e with
    | some x => withChar x (basicBody rest)
    | none => none
  | c :: rest => if isControl c ∨ c = '\\' then none else withChar c (basicBody rest)

/-- The rest of a string in single quotes. -/
def literalBody : Scan (List Char)
  | [] => none
  | '\'' :: rest => some ([], rest)
  | c :: rest => if isControl c then none else withChar c (literalBody rest)

/-- What a closing triple of quotes is made of: up to two further quotes before it belong to the
text. -/
def closing (quote : Char) : List Char → List Char × List Char
  | a :: b :: rest =>
    if a = quote ∧ b = quote then ([quote, quote], rest)
    else if a = quote then ([quote], b :: rest)
    else ([], a :: b :: rest)
  | [a] => if a = quote then ([quote], []) else ([], [a])
  | [] => ([], [])

/-- What a multi-line string leaves out after a backslash at the end of a line. -/
inductive Skip where
  | nothing
  /-- Blanks up to the end of the line. -/
  | lineEnd
  /-- Blanks and line breaks. -/
  | blanks
deriving DecidableEq

/-- The rest of a string in three double quotes. -/
def multiBody (skip : Skip) : Scan (List Char)
  | [] => none
  | '\r' :: '\n' :: rest =>
    if skip = .nothing then withChar '\n' (multiBody .nothing rest) else multiBody .blanks rest
  | '\n' :: rest =>
    if skip = .nothing then withChar '\n' (multiBody .nothing rest) else multiBody .blanks rest
  | '"' :: '"' :: '"' :: rest => if skip = .lineEnd then none else some (closing '"' rest)
  | '\\' :: 'u' :: a :: b :: c :: d :: rest =>
    if skip = .lineEnd then none
    else
      match charOfHex? [a, b, c, d] with
      | some x => withChar x (multiBody .nothing rest)
      | none => none
  | '\\' :: 'U' :: a :: b :: c :: d :: e :: f :: g :: h :: rest =>
    if skip = .lineEnd then none
    else
      match charOfHex? [a, b, c, d, e, f, g, h] with
      | some x => withChar x (multiBody .nothing rest)
      | none => none
  | '\\' :: '\r' :: '\n' :: rest =>
    if skip = .lineEnd then none else multiBody .blanks rest
  | '\\' :: e :: rest =>
    if skip = .lineEnd then none
    else
      match escaped? e with
      | some x => withChar x (multiBody .nothing rest)
      | none =>
        if isSpace e then multiBody .lineEnd rest
        else if e = '\n' then multiBody .blanks rest
        else none
  | c :: rest =>
    if isSpace c then
      if skip = .nothing then withChar c (multiBody .nothing rest) else multiBody skip rest
    else if skip = .lineEnd ∨ isControl c ∨ c = '\\' then none
    else withChar c (multiBody .nothing rest)

/-- The rest of a string in three single quotes. -/
def multiLiteralBody : Scan (List Char)
  | [] => none
  | '\'' :: '\'' :: '\'' :: rest => some (closing '\'' rest)
  | '\r' :: '\n' :: rest => withChar '\n' (multiLiteralBody rest)
  | c :: rest =>
    if isControl c ∧ c ≠ '\n' then none else withChar c (multiLiteralBody rest)

/-- The text after a line break right behind the opening quotes of a multi-line string. -/
def skipLineBreak : List Char → List Char
  | '\r' :: '\n' :: rest => rest
  | '\n' :: rest => rest
  | s => s

/-- Reads a string in any of the four forms. -/
def string? : Scan String
  | '"' :: '"' :: '"' :: rest =>
    (multiBody .nothing (skipLineBreak rest)).map fun (cs, rest) => (String.ofList cs, rest)
  | '"' :: rest => (basicBody rest).map fun (cs, rest) => (String.ofList cs, rest)
  | '\'' :: '\'' :: '\'' :: rest =>
    (multiLiteralBody (skipLineBreak rest)).map fun (cs, rest) => (String.ofList cs, rest)
  | '\'' :: rest => (literalBody rest).map fun (cs, rest) => (String.ofList cs, rest)
  | _ => none

/-- Reads one segment of a key: bare, or in quotes on one line. -/
def segment? : Scan String
  | '"' :: rest => (basicBody rest).map fun (cs, rest) => (String.ofList cs, rest)
  | '\'' :: rest => (literalBody rest).map fun (cs, rest) => (String.ofList cs, rest)
  | s =>
    let bare := s.takeWhile isBare
    if bare.isEmpty then none else some (String.ofList bare, s.dropWhile isBare)

/-- Reads a key of at most `limit` segments with points between them. -/
def key? : Nat → Scan (List String)
  | 0, _ => none
  | limit + 1, s =>
    match segment? (skipSpace s) with
    | none => none
    | some (name, rest) =>
      match skipSpace rest with
      | '.' :: rest => (key? limit rest).map fun (names, rest) => (name :: names, rest)
      | rest => some ([name], rest)

/-! ## Writing -/

/-- The longest run of `c` in a text. -/
def longestRun (c : Char) (s : List Char) : Nat :=
  (s.foldl (fun (longest, run) d =>
    if d = c then (max longest (run + 1), run + 1) else (longest, 0)) (0, 0)).1

/-- How a character is written inside double quotes, on a line of its own or over several. -/
def escapeChar (multi : Bool) (c : Char) : List Char :=
  match c with
  | '\x08' => ['\\', 'b']
  | '\t' => ['\\', 't']
  | '\n' => if multi then ['\n'] else ['\\', 'n']
  | '\x0c' => ['\\', 'f']
  | '\r' => ['\\', 'r']
  | '\\' => ['\\', '\\']
  | c =>
    if isControl c then
      ['\\', 'u', '0', '0', (Text.hexDigit (c.toNat / 16)).toUpper,
        (Text.hexDigit (c.toNat % 16)).toUpper]
    else [c]

/-- Escapes a text. A quote is escaped, over several lines only when two raw ones stand before
it. -/
def escape (multi : Bool) (quotes : Nat) : List Char → List Char
  | [] => []
  | '"' :: rest =>
    if multi ∧ quotes < 2 then '"' :: escape multi (quotes + 1) rest
    else '\\' :: '"' :: escape multi 0 rest
  | c :: rest => escapeChar multi c ++ escape multi 0 rest

/-- The text of a string value. -/
def stringText (s : List Char) : List Char :=
  let control := s.any fun c => isControl c && c != '\n'
  let backslash := s.contains '\\'
  let newline := s.contains '\n'
  let start := if newline then ['\n'] else []
  let basic := '"' :: escape false 0 s ++ ['"']
  let multi := ['"', '"', '"'] ++ start ++ escape true 0 s ++ ['"', '"', '"']
  if !control && !backslash && !newline && longestRun '"' s = 0 then basic
  else if !control && !newline && longestRun '\'' s = 0 then '\'' :: s ++ ['\'']
  else if !control && !backslash && longestRun '"' s ≤ 2 then multi
  else if !control && longestRun '\'' s ≤ 2 then
    ['\'', '\'', '\''] ++ start ++ s ++ ['\'', '\'', '\'']
  else if newline then multi
  else basic

/-- The text of a key. -/
def segmentText (s : List Char) : List Char :=
  let control := s.any isControl
  let basic := '"' :: escape false 0 s ++ ['"']
  if !s.isEmpty && s.all isBare then s
  else if !control && !s.contains '\\' && !s.contains '"' then basic
  else if !control && !s.contains '\'' then '\'' :: s ++ ['\'']
  else basic

end PromptTheme.Toml
