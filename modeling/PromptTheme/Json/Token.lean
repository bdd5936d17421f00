/-
The tokens of a JSON text. The lexer is a fold of `Lexer.step` over the characters: between tokens
it is idle, and inside a word or a string it collects characters until the token ends.
-/
import PromptTheme.Json.Node
import PromptTheme.Json.Literal

namespace PromptTheme.Json

inductive Token where
  | openArray
  | closeArray
  | openObject
  | closeObject
  | comma
  | colon
  /-- A number, a truth value or null. -/
  | scalar (node : Node)
  | string (s : Option String)

/-- What a string holds between its quotes: a character, or a code unit written as an escape. -/
inductive Piece where
  | char (c : Char)
  | unit (n : Nat)

/-- Joins the pieces: an escaped pair of surrogates is one character, a lone one has no meaning. -/
def Piece.join? : List Piece → Option (List Char)
  | [] => some []
  | .char c :: rest => (join? rest).map (c :: ·)
  | .unit n :: rest =>
    if 0xD800 ≤ n ∧ n ≤ 0xDBFF then
      match rest with
      | .unit m :: rest =>
        if 0xDC00 ≤ m ∧ m ≤ 0xDFFF then
          (join? rest).map (Char.ofNat (0x10000 + (n - 0xD800) * 0x400 + (m - 0xDC00)) :: ·)
        else none
      | _ => none
    else if 0xDC00 ≤ n ∧ n ≤ 0xDFFF then none
    else (join? rest).map (Char.ofNat n :: ·)

/-- Where the lexer stands. Collected characters and pieces are kept last first. -/
inductive Lexer.Mode where
  | idle
  | word (read : List Char)
  | string (read : List Piece)
  | escape (read : List Piece)
  | hex (read : List Piece) (digitsLeft : Nat) (value : Nat)

/-- The tokens read so far, last first, and where the lexer stands. -/
structure Lexer where
  tokens : List Token
  mode : Lexer.Mode

namespace Lexer

def start : Lexer := ⟨[], .idle⟩

def isSpace (c : Char) : Bool := c = ' ' ∨ c = '\t' ∨ c = '\n' ∨ c = '\r'

/-- A character of a number or of a word such as `true`. -/
def isWordChar (c : Char) : Bool :=
  c.isAlphanum || c = '-' || c = '+' || c = '.'

/-- The token of a word. -/
def wordToken? (w : List Char) : Option Token :=
  if w = "null".toList then some (.scalar .null)
  else if w = "true".toList then some (.scalar (.bool true))
  else if w = "false".toList then some (.scalar (.bool false))
  else (Literal.parse? w).map fun l => .scalar (.number l.number?)

/-- Reads a character between two tokens. -/
def idleStep (tokens : List Token) (c : Char) : Option Lexer :=
  if isSpace c then some ⟨tokens, .idle⟩
  else if isWordChar c then some ⟨tokens, .word [c]⟩
  else
    match c with
    | '[' => some ⟨.openArray :: tokens, .idle⟩
    | ']' => some ⟨.closeArray :: tokens, .idle⟩
    | '\x7b' => some ⟨.openObject :: tokens, .idle⟩
    | '\x7d' => some ⟨.closeObject :: tokens, .idle⟩
    | ',' => some ⟨.comma :: tokens, .idle⟩
    | ':' => some ⟨.colon :: tokens, .idle⟩
    | '"' => some ⟨tokens, .string []⟩
    | _ => none

/-- The character that a one-letter escape stands for. -/
def escaped? : Char → Option Char
  | '"' => some '"'
  | '\\' => some '\\'
  | '/' => some '/'
  | 'b' => some '\x08'
  | 'f' => some '\x0c'
  | 'n' => some '\n'
  | 'r' => some '\r'
  | 't' => some '\t'
  | _ => none

/-- Reads one character; none when it cannot stand there. -/
def step (l : Lexer) (c : Char) : Option Lexer :=
  match l.mode with
  | .idle => idleStep l.tokens c
  | .word read =>
    if isWordChar c then some ⟨l.tokens, .word (c :: read)⟩
    else
      match wordToken? read.reverse with
      | some t => idleStep (t :: l.tokens) c
      | none => none
  | .string read =>
    if c = '"' then
      some ⟨.string ((Piece.join? read.reverse).map String.ofList) :: l.tokens, .idle⟩
    else if c = '\\' then some ⟨l.tokens, .escape read⟩
    else if c.toNat < 0x20 then none
    else some ⟨l.tokens, .string (.char c :: read)⟩
  | .escape read =>
    if c = 'u' then some ⟨l.tokens, .hex read 4 0⟩
    else (escaped? c).map fun e => ⟨l.tokens, .string (.char e :: read)⟩
  | .hex read left value =>
    match Text.hexValue? c with
    | some d =>
      if left ≤ 1 then some ⟨l.tokens, .string (.unit (value * 16 + d) :: read)⟩
      else some ⟨l.tokens, .hex read (left - 1) (value * 16 + d)⟩
    | none => none

/-- The tokens at the end of the text. -/
def finish (l : Lexer) : Option (List Token) :=
  match l.mode with
  | .idle => some l.tokens.reverse
  | .word read => (wordToken? read.reverse).map fun t => (t :: l.tokens).reverse
  | _ => none

end Lexer

/-- The tokens of a text. -/
def Token.lex? (s : List Char) : Option (List Token) :=
  match s.foldlM Lexer.step Lexer.start with
  | some l => l.finish
  | none => none

end PromptTheme.Json
