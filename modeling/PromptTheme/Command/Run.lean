/-
What the subcommands do. Each reads the files it needs from a folder and gives a text to print, and
merging may also give a file to write. Nothing is printed by a command that fails.
-/
import PromptTheme.Command.Folder
import PromptTheme.Command.Invocation
import PromptTheme.Config.Json
import PromptTheme.Editor.Preset
import PromptTheme.Prompt.Engine
import PromptTheme.Style.Record
import PromptTheme.Toml.Reader
import PromptTheme.Toml.Writer
import PromptTheme.Validation

namespace PromptTheme.Command

/-! ## Failures -/

inductive CommandError where
  | unreadable (path : String) (e : FileError)
  | badConfig (path : String) (e : ConfigError)
  | badScenario (path : String)
  | unwritable (path : String) (e : FileError)
  /-- The outcome cannot be written as TOML. -/
  | inexpressible (e : ConfigError)
  | unknownPreset (id : String)
  | unknownScheme (name : String)
  | unknownScenario (id : String)
  /-- There is no preset to list. -/
  | noSuchPreset (id : String)
deriving DecidableEq

/-- The wording of a failure, from that of the errors of documents. -/
def CommandError.message (wording : ConfigError → String) : CommandError → String
  | unreadable path e => "failed to read " ++ path ++ ": " ++ e.message
  | badConfig path e => "failed to parse " ++ path ++ ": " ++ wording e
  | badScenario path => "failed to parse " ++ path ++ ": " ++ wording .jsonSyntax
  | unwritable path e => "failed to write " ++ path ++ ": " ++ e.message
  | inexpressible e => wording e
  | unknownPreset id => "unknown preset '" ++ id ++ "' (see `shipwright presets`)"
  | unknownScheme name => "unknown color scheme '" ++ name ++ "'"
  | unknownScenario id => "unknown scenario '" ++ id ++ "' (see `shipwright scenarios`)"
  | noSuchPreset id => "unknown preset '" ++ id ++ "'"

/-- What a command brings about. -/
structure Output where
  text : String
  /-- The command found nothing wrong. -/
  success : Bool := true
  /-- A path and the text to be written there. -/
  file : Option (String × String) := none

/-! ## Reading files -/

def readFile (folder : Folder) (path : String) : Except CommandError String :=
  (folder.read path).mapError (.unreadable path)

/-- What follows the last dot in the last name of a path, if something stands before the dot. -/
def extension? (path : String) : Option String :=
  match ((pathNames path).filter (· ≠ ".")).getLast? with
  | none => none
  | some name =>
    match (name.splitOn ".").reverse with
    | last :: rest => if rest.all String.isEmpty && rest.length ≤ 1 then none else some last
    | [] => none

/-- A configuration is JSON if its file has that extension, and TOML otherwise. -/
def isJson (path : String) : Bool :=
  match extension? path with
  | some e => Text.sameLetters e.toList "json".toList
  | none => false

def readConfig (folder : Folder) (path : String) : Except CommandError Config := do
  let text ← readFile folder path
  (if isJson path then Config.ofJson? text else Config.ofToml? text).mapError (.badConfig path)

/-! ## Output with color -/

/-- Text with attributes, if there are to be any. -/
def paint (color : Bool) (sequences : List (List Nat)) (text : String) : String :=
  if color then
    String.ofList (sequences.flatMap Escape.sequence ++ text.toList ++ Escape.reset)
  else text

def lines (ls : List String) : String := String.join (ls.map (· ++ "\n"))

/-! ## Rendering -/

/-- The configuration to render: a preset goes before a file. -/
def themeConfig (folder : Folder) (args : RenderArgs) : Except CommandError Config :=
  match args.preset, args.theme with
  | some id, _ =>
    match Preset.find? id with
    | some theme => .ok theme.config
    | none => .error (.unknownPreset id)
  | none, some path => readConfig folder path
  | none, none => .ok .initial

/-- Installs the color scheme that is asked for. -/
def withScheme (args : RenderArgs) (c : Config) : Except CommandError Config :=
  match args.scheme with
  | none => .ok c
  | some name =>
    match ColorScheme.find? name with
    | some scheme => .ok (c.merge scheme.patch)
    | none => .error (.unknownScheme name)

def scenarios (folder : Folder) (args : RenderArgs) : Except CommandError (List Scenario) :=
  match args.all, args.scenarioFile with
  | true, _ => .ok Scenario.builtin
  | false, some path => do
    let text ← readFile folder path
    match Scenario.ofJson? text with
    | some s => .ok [s]
    | none => .error (.badScenario path)
  | false, none =>
    match Scenario.find? args.scenario with
    | some s => .ok [s]
    | none => .error (.unknownScenario args.scenario)

def render (folder : Folder) (color : Bool) (args : RenderArgs) : Except CommandError Output := do
  let config ← withScheme args (← themeConfig folder args)
  let engine : Engine := { mode := args.mode }
  let draw (s : Scenario) : String :=
    let text := engine.renderChars config s (args.format.getD (config.format?.getD "")).toList
    String.ofList (if color then text else Terminal.stripEscapes text)
  let scenarios ← scenarios folder args
  return {
    text := lines (scenarios.flatMap fun s =>
      (if args.all then [paint color [[1]] s.name] else []) ++ [draw s]) }

/-! ## Styles -/

/-- The text with its escape characters shown. -/
def showEscapes (cs : List Char) : String :=
  String.join (cs.map fun c => if c = Escape.esc then "\\u\x7b1b\x7d" else c.toString)

def style (color : Bool) (args : StyleArgs) : Output :=
  if args.decode then
    { text := lines [Json.pretty (StyleRecord.decode args.spec.toList).toValue] }
  else
    let mode := if args.perToken then EscapeMode.perToken else .joined
    let escape := Palette.encodeWith .empty mode args.spec.toList
    { text := lines <| showEscapes escape ::
        (if color then
          [String.ofList (escape ++ args.sample.toList ++ Escape.reset)]
        else []) }

/-! ## Merging -/

def merge (folder : Folder) (args : MergeArgs) : Except CommandError Output := do
  let base ← readConfig folder args.base
  let merged ← args.overlays.foldlM (fun c path => return c.merge (← readConfig folder path)) base
  let text ← if args.json then .ok (merged.toJson)
    else merged.toToml?.mapError .inexpressible
  match args.output with
  | none => return { text := text }
  | some path =>
    match folder.refuses path with
    | some e => .error (.unwritable path e)
    | none => return { text := "", file := some (path, text) }

/-! ## Validation -/

def findingLines (label : String) (f : Finding) : List String :=
  (match f.module? with
    | some module => label ++ " [" ++ module ++ "]: " ++ f.message
    | none => label ++ ": " ++ f.message) ::
  (f.fix?.toList.map fun fix => "  fix: " ++ fix)

def reportLines (color : Bool) (r : Report) : List String :=
  r.errors.flatMap (findingLines (paint color [[31], [1]] "error")) ++
  r.warnings.flatMap (findingLines (paint color [[33], [1]] "warning")) ++
  r.suggestions.map (paint color [[36]] "hint" ++ ": " ++ ·) ++
  ["estimated render time: " ++ toString r.milliseconds ++ "ms"] ++
  (if r.isValid then [paint color [[32]] "ok"] else [])

def validate (folder : Folder) (color : Bool) (args : ValidateArgs) :
    Except CommandError Output := do
  let config ← match args.theme with
    | some path => readConfig folder path
    | none => .ok .initial
  let report := config.validate
  return {
    text := lines (if args.json then [Json.pretty report.toValue] else reportLines color report)
    success := report.isValid }

/-! ## Lists -/

def listScenarios : Output where
  text := lines (Scenario.builtin.map fun s =>
    Text.padRight 10 s.id ++ " " ++ Text.padRight 18 s.name ++ " " ++ s.description)

def presets : Option String → Except CommandError Output
  | some id =>
    match Preset.find? id with
    | none => .error (.noSuchPreset id)
    | some theme => (theme.config.toToml?.mapError .inexpressible).map ({ text := · })
  | none => .ok {
      text := lines (Preset.all.map fun t =>
        Text.padRight 18 t.id ++ " " ++ Text.padRight 15 t.name ++ " " ++
          t.metadata.description.getD "") }

/-- A role with its color, or a block in that color. -/
def roleText (color : Bool) (role hex : String) : String :=
  if color then
    " " ++ String.ofList (Palette.encodeJoined .empty ("bg:" ++ hex).toList ++ [' ', ' '] ++
      Escape.reset)
  else " " ++ role ++ "=" ++ hex

def listSchemes (color : Bool) : Output where
  text := lines (ColorScheme.all.map fun s =>
    Text.padRight 12 s.name ++ String.join (s.roles.map fun (role, hex) => roleText color role hex))

/-! ## Tasks -/

/-- Carries out a task. -/
def Invocation.run (folder : Folder) (i : Invocation) : Except CommandError Output :=
  match i.task with
  | .render args => render folder i.color args
  | .style args => .ok (style i.color args)
  | .merge args => merge folder args
  | .validate args => validate folder i.color args
  | .scenarios => .ok listScenarios
  | .presets id => presets id
  | .schemes => .ok (listSchemes i.color)

end PromptTheme.Command
