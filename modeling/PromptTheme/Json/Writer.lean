/-
Writing JSON, on one line or with two spaces of indentation a level. Quotes, backslashes and the
control characters below the space are escaped, and nothing else.
-/
import PromptTheme.Value
import PromptTheme.Text.Letters

namespace PromptTheme.Json

/-- Floats keep at least one place, and have an exponent below `1e-5` and from `1e16` on. -/
def doubleText : DecimalText := ⟨fun e => -5 ≤ e ∧ e ≤ 15, .even⟩

/-- How a character is written inside a string. -/
def escapeChar (c : Char) : List Char :=
  match c with
  | '"' => ['\\', '"']
  | '\\' => ['\\', '\\']
  | '\x08' => ['\\', 'b']
  | '\t' => ['\\', 't']
  | '\n' => ['\\', 'n']
  | '\x0c' => ['\\', 'f']
  | '\r' => ['\\', 'r']
  | c =>
    if c.toNat < 0x20 then
      ['\\', 'u', '0', '0', Text.hexDigit (c.toNat / 16), Text.hexDigit (c.toNat % 16)]
    else [c]

def quoted (s : String) : String :=
  String.ofList ('"' :: s.toList.flatMap escapeChar ++ ['"'])

def numberText : Number → String
  | .whole n => toString n.val
  | .double x => x.text doubleText

mutual

/-- The text of a value on one line, without spaces. -/
def compact : Value → String
  | .null => "null"
  | .bool b => if b then "true" else "false"
  | .number n => numberText n
  | .string s => quoted s
  | .array items => "[" ++ String.intercalate "," (compactItems items) ++ "]"
  | .table es => "\x7b" ++ String.intercalate "," (compactEntries es) ++ "\x7d"

def compactItems : List Value → List String
  | [] => []
  | v :: vs => compact v :: compactItems vs

def compactEntries : List (String × Value) → List String
  | [] => []
  | (k, v) :: es => (quoted k ++ ":" ++ compact v) :: compactEntries es

end

/-- A line break and the indentation of a level. -/
def lineBreak (level : Nat) : String :=
  String.ofList ('\n' :: List.replicate (2 * level) ' ')

/-- Brackets around parts that stand on lines of their own, one level deeper. -/
def block (level : Nat) (left right : String) (parts : List String) : String :=
  if parts.isEmpty then left ++ right
  else
    left ++ lineBreak (level + 1) ++ String.intercalate ("," ++ lineBreak (level + 1)) parts ++
      lineBreak level ++ right

mutual

/-- The text of a value that starts on a line of the given level. -/
def prettyAt (level : Nat) : Value → String
  | .null => "null"
  | .bool b => if b then "true" else "false"
  | .number n => numberText n
  | .string s => quoted s
  | .array items => block level "[" "]" (prettyItems (level + 1) items)
  | .table es => block level "\x7b" "\x7d" (prettyEntries (level + 1) es)

def prettyItems (level : Nat) : List Value → List String
  | [] => []
  | v :: vs => prettyAt level v :: prettyItems level vs

def prettyEntries (level : Nat) : List (String × Value) → List String
  | [] => []
  | (k, v) :: es => (quoted k ++ ": " ++ prettyAt level v) :: prettyEntries level es

end

/-- The text of a value over several lines. -/
def pretty (v : Value) : String := prettyAt 0 v

end PromptTheme.Json
