/-
The themes that come with the editor: three written out in full, and one for each color scheme that
paints the initial configuration in the colors of the scheme.
-/
import PromptTheme.Config.Merge
import PromptTheme.Editor.Theme
import PromptTheme.Scheme

namespace PromptTheme

namespace Preset

/-- The first of January 2024, the date of every preset. -/
def date : Instant := ⟨1704067200, 0⟩

def theme (id name description author : String) (tags : List String) (config : Config) : Theme where
  metadata := {
    id := id
    name := name
    author := some author
    description := some description
    tags := tags
    created := date
    updated := date
    isPreset := true }
  config := config

/-! ## Written in full -/

def clean : Theme :=
  theme "preset-clean" "Clean" "Minimalist theme with just the essentials" "Starship Team"
    ["minimal", "clean"] <| .ofEntries [
      ("format", .string "$directory$git_branch$character"),
      ("directory", .table [("truncation_length", .count 3), ("style", .string "bold cyan")]),
      ("git_branch", .ofStrings [("style", "bold purple"), ("symbol", "🌱 ")]),
      ("character", .ofStrings [
        ("success_symbol", "[❯](bold green)"),
        ("error_symbol", "[❯](bold red)")])]

def oneLine : Theme :=
  theme "preset-oneline" "One Line" "Compact single-line prompt" "Starship Team"
    ["minimal", "compact"] <| .ofEntries [
      ("add_newline", .bool false),
      ("format", .string "$username@$hostname $directory $git_branch $character"),
      ("username", .table [("style_user", .string "white bold"), ("show_always", .bool true)]),
      ("hostname", .table [("ssh_only", .bool false), ("style", .string "white dimmed")]),
      ("directory", .ofStrings [("style", "blue")])]

/-- The modules that the preset for development switches on. -/
def developmentModules : List String :=
  ["nodejs", "rust", "python", "golang", "java", "php", "docker_context"]

def development : Theme :=
  theme "preset-dev" "Full Stack" "Shows all language versions" "Dev Community"
    ["developer", "languages"] <| Config.initial.merge <| .ofEntries <|
      developmentModules.map fun name => (name, .table [("disabled", .bool false)])

/-! ## Painted by a color scheme -/

/-- How the preset of a scheme presents itself. -/
structure Painted where
  scheme : String
  id : String
  name : String
  description : String
  author : String
  tags : List String
  /-- The prompt character. -/
  glyph : String

def painted : List Painted := [
  ⟨"Nord", "preset-nord", "Nord", "Nord color scheme based theme", "Arctic Ice Studio",
    ["aesthetic", "dark"], "➜"⟩,
  ⟨"Dracula", "preset-dracula", "Dracula", "Dracula color scheme", "Dracula Theme",
    ["aesthetic", "dark", "vampire"], "⚡"⟩,
  ⟨"Gruvbox", "preset-gruvbox", "Gruvbox", "Retro groove color scheme", "morhetz",
    ["retro", "warm", "dark"], "➜"⟩,
  ⟨"Catppuccin", "preset-catppuccin", "Catppuccin", "Soothing pastel theme", "Catppuccin",
    ["pastel", "aesthetic"], "➜"⟩,
  ⟨"TokyoNight", "preset-tokyonight", "Tokyo Night", "A clean, dark Visual Studio Code theme",
    "enkia", ["night", "dark", "vscode"], "➜"⟩,
  ⟨"OneDark", "preset-onedark", "One Dark", "Atom One Dark theme", "Atom", ["dark", "atom"], "➜"⟩,
  ⟨"Monokai", "preset-monokai", "Monokai", "The classic Monokai theme", "Monokai",
    ["classic", "high-contrast"], "➜"⟩,
  ⟨"Solarized", "preset-solarized", "Solarized Dark", "Precision colors for machines and people",
    "Ethan Schoonover", ["classic", "solarized"], "➜"⟩]

/-- The overlay that paints a configuration. -/
def paint (s : ColorScheme) (glyph : String) : Config := .ofEntries [
  ("directory", .ofStrings [("style", s.primary)]),
  ("git_branch", .ofStrings [("style", s.secondary)]),
  ("character", .ofStrings [
    ("success_symbol", "[" ++ glyph ++ "](" ++ s.success ++ ")"),
    ("error_symbol", "[" ++ glyph ++ "](" ++ s.error ++ ")")]),
  ("nodejs", .ofStrings [("format", "via [⬢ $version](" ++ s.primary ++ ") ")])]

def Painted.theme? (p : Painted) : Option Theme :=
  (ColorScheme.find? p.scheme).map fun s =>
    theme p.id p.name p.description p.author p.tags (Config.initial.merge (paint s p.glyph))

/-! ## Gallery -/

/-- All presets, in the order of the gallery. -/
def all : List Theme := [clean, oneLine, development] ++ painted.filterMap (·.theme?)

def find? (id : String) : Option Theme := all.find? fun t => t.id = id

end Preset

end PromptTheme
