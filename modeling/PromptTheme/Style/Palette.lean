/-
Palettes: color names that a theme defines. A name stands for a color itself, never for another
name.
-/
import PromptTheme.Keyed
import PromptTheme.Style.Color

namespace PromptTheme

abbrev Palette := Dict String

/-- The color of a token: what it says by itself, else what the palette has under it. -/
def Palette.resolve? (p : Palette) (token : List Char) : Option Color :=
  match Color.parse? token with
  | some c => some c
  | none => (p.find? (String.ofList token)).bind fun value => Color.parse? value.toList

end PromptTheme
