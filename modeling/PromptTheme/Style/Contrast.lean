/-
The contrast of two colors: the ratio of their relative luminances, and whether it is enough for
normal text at the two levels AA and AAA.
-/
import PromptTheme.Number.Decimal
import PromptTheme.Style.Color

namespace PromptTheme

/-- The number of a 64-bit float; zero for what is not finite. -/
def Double.ofFloat (x : Float) : Double := (Double.ofBits? x.toBits).getD Double.zero

namespace Rgb

/-- The linear light of a component. -/
def linear (component : UInt8) : Float :=
  let c := component.toFloat / 255.0
  if c <= 0.04045 then c / 12.92 else Float.pow ((c + 0.055) / 1.055) 2.4

/-- The relative luminance, from 0 for black to 1 for white. -/
def luminance (c : Rgb) : Float :=
  0.2126 * linear c.red + 0.7152 * linear c.green + 0.0722 * linear c.blue

/-- The ratio of two luminances, the lighter one above. -/
def contrast (a b : Rgb) : Float :=
  let (lighter, darker) :=
    if b.luminance <= a.luminance then (a.luminance, b.luminance) else (b.luminance, a.luminance)
  (lighter + 0.05) / (darker + 0.05)

/-- The contrast is enough for normal text. -/
def isReadable (text ground : Rgb) : Bool := 4.5 <= text.contrast ground

/-- The contrast is enough for normal text at the higher level. -/
def isClear (text ground : Rgb) : Bool := 7.0 <= text.contrast ground

end Rgb

end PromptTheme
