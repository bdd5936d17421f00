/-
Terminal escape sequences of a style spec, in two forms: one sequence for each word that means
something, in the order of the words, or one sequence for all of them together.
-/
import PromptTheme.Style.Palette
import PromptTheme.Style.Spec

namespace PromptTheme

namespace Escape

/-- The character that begins an escape sequence. -/
def esc : Char := '\x1b'

/-- The parameters with semicolons between them. -/
def parameterText (ps : List Nat) : List Char :=
  [';'].intercalate (ps.map fun n => (toString n).toList)

/-- The sequence that sets attributes. -/
def sequence (ps : List Nat) : List Char := esc :: '[' :: parameterText ps ++ ['m']

/-- The sequence that clears all attributes. -/
def reset : List Char := [esc, '[', '0', 'm']

end Escape

inductive EscapeMode where
  /-- One sequence for a whole spec. -/
  | joined
  /-- One sequence for each word. -/
  | perToken
deriving DecidableEq

/-! ## One sequence a word -/

/-- The parameters of one token; none when it has a color that nobody knows. -/
def StyleToken.parameters? (p : Palette) : StyleToken → Option (List Nat)
  | .modifier m => some [m.parameter]
  | .background c => (p.resolve? c).map (·.parameters .background)
  | .foreground c => (p.resolve? c).map (·.parameters .foreground)

/-- A sequence for each token that means something. -/
def Palette.encode (p : Palette) (spec : List Char) : List Char :=
  ((StyleToken.ofSpec spec).filterMap (·.parameters? p)).flatMap Escape.sequence

/-! ## One sequence a spec -/

/-- What a spec sets altogether. -/
structure Attributes where
  modifiers : Modifiers := {}
  background : Option Color := none
  foreground : Option Color := none
deriving DecidableEq

namespace Attributes

/-- Takes up one token; of several known colors the last one stays. -/
def take (p : Palette) (a : Attributes) : StyleToken → Attributes
  | .modifier m => { a with modifiers := a.modifiers.add m }
  | .background c =>
    match p.resolve? c with
    | some color => { a with background := some color }
    | none => a
  | .foreground c =>
    match p.resolve? c with
    | some color => { a with foreground := some color }
    | none => a

def ofSpec (p : Palette) (spec : List Char) : Attributes :=
  (StyleToken.ofSpec spec).foldl (take p) {}

/-- The parameters of all that is set: modifiers, ground, text. -/
def parameters (a : Attributes) : List Nat :=
  a.modifiers.toList.map (·.parameter) ++
    (a.background.toList.flatMap (·.parameters .background)) ++
    (a.foreground.toList.flatMap (·.parameters .foreground))

end Attributes

/-- One sequence for all that the spec sets, or nothing. -/
def Palette.encodeJoined (p : Palette) (spec : List Char) : List Char :=
  let ps := (Attributes.ofSpec p spec).parameters
  if ps.isEmpty then [] else Escape.sequence ps

def Palette.encodeWith (p : Palette) (mode : EscapeMode) (spec : List Char) : List Char :=
  match mode with
  | .joined => p.encodeJoined spec
  | .perToken => p.encode spec

end PromptTheme
