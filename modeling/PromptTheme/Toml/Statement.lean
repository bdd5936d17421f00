/-
The statements of a TOML document: headers of tables and of elements of arrays of tables, and
assignments of values to keys. Arrays and inline tables nest at most 79 deep, and a key has at most
79 segments.
-/
import PromptTheme.Toml.Scalar
import PromptTheme.Toml.Tree

namespace PromptTheme.Toml

inductive Statement where
  | table (path : List String)
  | element (path : List String)
  | assign (path : List String) (v : Value)

/-- The deepest nesting of values, and the largest number of segments of a key. -/
def maxNesting : Nat := 79

/-! ## Blanks -/

/-- A character of a comment. -/
def isCommentChar (c : Char) : Bool := !isControl c

/-- The text after the rest of a comment. -/
def skipComment (s : List Char) : List Char := s.dropWhile isCommentChar

/-- Skips blanks, line breaks and comments; `comment` says that a comment has begun. -/
def skipBlank (comment : Bool) : List Char → List Char
  | [] => []
  | '\r' :: '\n' :: rest => skipBlank false rest
  | '\n' :: rest => skipBlank false rest
  | c :: rest =>
    if comment then
      if isCommentChar c then skipBlank true rest else c :: rest
    else if isSpace c then skipBlank false rest
    else if c = '#' then skipBlank true rest
    else c :: rest

/-- Skips the end of a line: blanks, a comment, and a line break or the end of the text. -/
def lineEnd? (s : List Char) : Option (List Char) :=
  let s := match skipSpace s with
    | '#' :: rest => skipComment rest
    | s => s
  match s with
  | [] => some []
  | '\n' :: rest => some rest
  | '\r' :: '\n' :: rest => some rest
  | _ => none

/-! ## Values -/

/-- The items of an array after its bracket, up to and with the closing one. A comma may follow the
last item. -/
def items? (item : Scan Value) : Nat → Scan (List Value)
  | 0, _ => none
  | fuel + 1, s =>
    match skipBlank false s with
    | ']' :: rest => some ([], rest)
    | s =>
      match item s with
      | none => none
      | some (v, rest) =>
        match skipBlank false rest with
        | ',' :: rest => (items? item fuel rest).map fun (vs, rest) => (v :: vs, rest)
        | ']' :: rest => some ([v], rest)
        | _ => none

/-- A dotted key, an equals sign and a value. -/
def pair? (item : Scan Value) : Scan (List String × Value) := fun s =>
  match key? maxNesting s with
  | some (path, '=' :: rest) =>
    (item (skipSpace rest)).map fun (v, rest) => ((path, v), rest)
  | _ => none

/-- The pairs of an inline table that has at least one, up to and with the closing brace. -/
def pairs? (item : Scan Value) : Nat → Scan (List (List String × Value))
  | 0, _ => none
  | fuel + 1, s =>
    match pair? item s with
    | none => none
    | some (p, rest) =>
      match skipSpace rest with
      | ',' :: rest => (pairs? item fuel rest).map fun (ps, rest) => (p :: ps, rest)
      | '\x7d' :: rest => some ([p], rest)
      | _ => none

/-- Reads a value whose arrays and inline tables nest at most `levels` deep. -/
def value? : Nat → Scan Value
  | 0, s =>
    match s with
    | '"' :: _ => (string? s).map fun (t, rest) => (.string t, rest)
    | '\'' :: _ => (string? s).map fun (t, rest) => (.string t, rest)
    | _ => scalar? s
  | levels + 1, s =>
    match s with
    | '"' :: _ => (string? s).map fun (t, rest) => (.string t, rest)
    | '\'' :: _ => (string? s).map fun (t, rest) => (.string t, rest)
    | '[' :: rest =>
      (items? (value? levels) (rest.length + 1) rest).map fun (vs, rest) => (.array vs, rest)
    | '\x7b' :: rest =>
      match skipSpace rest with
      | '\x7d' :: rest => some (.table [], rest)
      | _ =>
        match pairs? (value? levels) (rest.length + 1) rest with
        | some (ps, rest) => (inlineTable? ps).map (·, rest)
        | none => none
    | _ => scalar? s

/-! ## Statements -/

/-- Reads one statement and the end of its line. -/
def statement? : Scan Statement := fun s =>
  match s with
  | '[' :: '[' :: rest =>
    match key? maxNesting rest with
    | some (path, ']' :: ']' :: rest) => (lineEnd? rest).map (.element path, ·)
    | _ => none
  | '[' :: rest =>
    match key? maxNesting rest with
    | some (path, ']' :: rest) => (lineEnd? rest).map (.table path, ·)
    | _ => none
  | s =>
    match pair? (value? maxNesting) s with
    | some ((path, v), rest) => (lineEnd? rest).map (.assign path v, ·)
    | none => none

/-- Reads the statements of a document, skipping empty lines and comments between them. -/
def statements? : Nat → List Char → Option (List Statement)
  | 0, _ => none
  | fuel + 1, s =>
    match skipSpace s with
    | [] => some []
    | '\n' :: rest => statements? fuel rest
    | '\r' :: '\n' :: rest => statements? fuel rest
    | '#' :: rest =>
      match lineEnd? ('#' :: rest) with
      | some rest => statements? fuel rest
      | none => none
    | s =>
      match statement? s with
      | some (st, rest) => (statements? fuel rest).map (st :: ·)
      | none => none

end PromptTheme.Toml
