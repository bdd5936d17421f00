/-
Colors as a style names them: one of eight names, a bright variant of one, or `#` and six
hexadecimal digits. Names are matched without regard to case. A color is written as parameters of an
escape sequence, for the text or for the ground behind it.
-/
import PromptTheme.Text.Blank
import PromptTheme.Text.Letters

namespace PromptTheme

/-- The eight base colors of a terminal, in the order of their index. -/
inductive NamedColor where
  | black
  | red
  | green
  | yellow
  | blue
  | purple
  | cyan
  | white
deriving DecidableEq

namespace NamedColor

def all : List NamedColor := [black, red, green, yellow, blue, purple, cyan, white]

def index : NamedColor → Nat
  | black => 0
  | red => 1
  | green => 2
  | yellow => 3
  | blue => 4
  | purple => 5
  | cyan => 6
  | white => 7

def name : NamedColor → String
  | black => "black"
  | red => "red"
  | green => "green"
  | yellow => "yellow"
  | blue => "blue"
  | purple => "purple"
  | cyan => "cyan"
  | white => "white"

/-- The color of that name, in any case. -/
def ofName? (s : List Char) : Option NamedColor :=
  all.find? fun c => Text.sameLetters c.name.toList s

end NamedColor

/-- A color by its three components. -/
structure Rgb where
  red : UInt8
  green : UInt8
  blue : UInt8
deriving DecidableEq

namespace Rgb

/-- The component that two hexadecimal digits write. -/
def component? (a b : Char) : Option UInt8 :=
  match Text.hexValue? a, Text.hexValue? b with
  | some x, some y => some (UInt8.ofNat (x * 16 + y))
  | _, _ => none

/-- Reads `#` and exactly six hexadecimal digits. -/
def ofHex? : List Char → Option Rgb
  | ['#', a, b, c, d, e, f] =>
    match component? a b, component? c d, component? e f with
    | some r, some g, some b => some ⟨r, g, b⟩
    | _, _, _ => none
  | _ => none

def componentHex (n : UInt8) : List Char :=
  [Text.hexDigit (n.toNat / 16), Text.hexDigit (n.toNat % 16)]

/-- `#` and six small hexadecimal digits. -/
def toHex (c : Rgb) : List Char :=
  '#' :: componentHex c.red ++ componentHex c.green ++ componentHex c.blue

end Rgb

inductive Color where
  | named (c : NamedColor)
  | bright (c : NamedColor)
  | rgb (c : Rgb)
deriving DecidableEq

/-- What a color applies to: the text, or the ground behind it. -/
inductive Layer where
  | foreground
  | background
deriving DecidableEq

namespace Color

/-- Reads a color, with blanks around it allowed. -/
def parse? (s : List Char) : Option Color :=
  let s := Text.trim s
  match s with
  | '#' :: _ => (Rgb.ofHex? s).map .rgb
  | _ =>
    match Text.afterHeadAnyCase? "bright-".toList s with
    | some base => (NamedColor.ofName? base).map .bright
    | none => (NamedColor.ofName? s).map .named

/-- The parameters that set the color. -/
def parameters (layer : Layer) (c : Color) : List Nat :=
  let offset := match layer with
    | .foreground => 0
    | .background => 10
  match c with
  | .named n => [30 + offset + n.index]
  | .bright n => [90 + offset + n.index]
  | .rgb c => [38 + offset, 2, c.red.toNat, c.green.toNat, c.blue.toNat]

end Color

end PromptTheme
