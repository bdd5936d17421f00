/-
Reading JSON. The builder is a fold over the tokens: a stack of open arrays and objects, and what
may come next. `parse?` gives the syntax tree of a text, `value?` its value.
-/
import PromptTheme.Json.Token

namespace PromptTheme.Json

/-- An open array with its items, or an open object with its members and the key whose value is
being read. Items and members are kept last first. -/
inductive Frame where
  | array (items : List Node)
  | object (members : List (Option String × Node)) (key : Option String)

/-- What may come next. -/
inductive Expect where
  | value
  | valueOrClose
  | key
  | keyOrClose
  | colon
  | commaOrClose
  | done (root : Node)

structure Builder where
  stack : List Frame
  expect : Expect

namespace Builder

def start : Builder := ⟨[], .value⟩

/-- Puts a complete value into the innermost open array or object. -/
def complete (stack : List Frame) (node : Node) : Builder :=
  match stack with
  | [] => ⟨[], .done node⟩
  | .array items :: rest => ⟨.array (node :: items) :: rest, .commaOrClose⟩
  | .object members key :: rest => ⟨.object ((key, node) :: members) none :: rest, .commaOrClose⟩

/-- Reads a token where a value may come. -/
def valueStep (stack : List Frame) : Token → Option Builder
  | .scalar node => some (complete stack node)
  | .string s => some (complete stack (.string s))
  | .openArray => some ⟨.array [] :: stack, .valueOrClose⟩
  | .openObject => some ⟨.object [] none :: stack, .keyOrClose⟩
  | _ => none

/-- Closes the innermost array or object. -/
def closeStep : List Frame → Token → Option Builder
  | .array items :: rest, .closeArray => some (complete rest (.array items.reverse))
  | .object members _ :: rest, .closeObject => some (complete rest (.object members.reverse))
  | _, _ => none

def keyStep : List Frame → Token → Option Builder
  | .object members _ :: rest, .string s => some ⟨.object members s :: rest, .colon⟩
  | _, _ => none

/-- Reads one token; none when it cannot stand there. -/
def step (b : Builder) (t : Token) : Option Builder :=
  match b.expect, t with
  | .value, t => valueStep b.stack t
  | .valueOrClose, .closeArray => closeStep b.stack .closeArray
  | .valueOrClose, t => valueStep b.stack t
  | .key, t => keyStep b.stack t
  | .keyOrClose, .closeObject => closeStep b.stack .closeObject
  | .keyOrClose, t => keyStep b.stack t
  | .colon, .colon => some ⟨b.stack, .value⟩
  | .commaOrClose, .comma =>
    match b.stack with
    | .array _ :: _ => some ⟨b.stack, .value⟩
    | .object _ _ :: _ => some ⟨b.stack, .key⟩
    | [] => none
  | .commaOrClose, t => closeStep b.stack t
  | _, _ => none

end Builder

/-- The syntax tree of a text. -/
def parse? (text : String) : Option Node :=
  match Token.lex? text.toList with
  | none => none
  | some tokens =>
    match tokens.foldlM Builder.step Builder.start with
    | some ⟨_, .done root⟩ => some root
    | _ => none

/-- The value of a text. -/
def value? (text : String) : Option Value := (parse? text).bind (Node.value? Node.maxNesting)

end PromptTheme.Json
