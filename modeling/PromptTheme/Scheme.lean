/-
Color schemes: a color for each of eight roles. A scheme is installed by laying its patch over a
configuration, which puts the roles into the default palette.
-/
import PromptTheme.Config.Initial
import PromptTheme.Text.Letters

namespace PromptTheme

structure ColorScheme where
  name : String
  primary : String
  secondary : String
  accent : String
  background : String
  foreground : String
  success : String
  warning : String
  error : String
deriving DecidableEq

namespace ColorScheme

/-- The roles and their colors, in fixed order. -/
def roles (s : ColorScheme) : List (String × String) := [
  ("primary", s.primary),
  ("secondary", s.secondary),
  ("accent", s.accent),
  ("background", s.background),
  ("foreground", s.foreground),
  ("success", s.success),
  ("warning", s.warning),
  ("error", s.error)]

/-- The roles as a palette. -/
def palette (s : ColorScheme) : Dict String := .ofList s.roles

/-- The overlay that installs the scheme as the default palette. -/
def patch (s : ColorScheme) : Config :=
  .ofEntries [("palettes", .table [(Config.defaultPalette, .ofStrings s.roles)])]

def all : List ColorScheme := [
  ⟨"Nord", "#88C0D0", "#81A1C1", "#5E81AC", "#2E3440", "#D8DEE9", "#A3BE8C", "#EBCB8B", "#BF616A"⟩,
  ⟨"Dracula", "#BD93F9", "#6272A4", "#FF79C6", "#282A36", "#F8F8F2", "#50FA7B", "#F1FA8C",
    "#FF5555"⟩,
  ⟨"Gruvbox", "#d79921", "#458588", "#b16286", "#282828", "#ebdbb2", "#98971a", "#fabd2f",
    "#cc241d"⟩,
  ⟨"Catppuccin", "#cba6f7", "#89b4fa", "#f5c2e7", "#1e1e2e", "#cdd6f4", "#a6e3a1", "#f9e2af",
    "#f38ba8"⟩,
  ⟨"TokyoNight", "#7aa2f7", "#7dcfff", "#bb9af7", "#1a1b26", "#c0caf5", "#9ece6a", "#e0af68",
    "#f7768e"⟩,
  ⟨"OneDark", "#61afef", "#c678dd", "#98c379", "#282c34", "#abb2bf", "#98c379", "#e5c07b",
    "#e06c75"⟩,
  ⟨"Monokai", "#fd971f", "#66d9ef", "#ae81ff", "#272822", "#f8f8f2", "#a6e22e", "#f4bf75",
    "#f92672"⟩,
  ⟨"Solarized", "#268bd2", "#2aa198", "#d33682", "#002b36", "#839496", "#859900", "#b58900",
    "#dc322f"⟩]

/-- The scheme of that name, in any case. -/
def find? (name : String) : Option ColorScheme :=
  all.find? fun s => Text.sameLetters s.name.toList name.toList

end ColorScheme

end PromptTheme
