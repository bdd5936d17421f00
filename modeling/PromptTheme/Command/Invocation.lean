/-
The command line of the program: its seven subcommands, the grammar of each, and what is to be done
when a line is well formed.
-/
import PromptTheme.Command.Grammar
import PromptTheme.Style.Escape

namespace PromptTheme.Command

structure RenderArgs where
  theme : Option String := none
  preset : Option String := none
  scenario : String := "clean"
  scenarioFile : Option String := none
  /-- Rendered in place of the format of the theme. -/
  format : Option String := none
  scheme : Option String := none
  mode : EscapeMode := .joined
  /-- Render every scenario that comes with the program. -/
  all : Bool := false

structure StyleArgs where
  spec : String
  sample : String := "sample"
  perToken : Bool := false
  decode : Bool := false

structure MergeArgs where
  base : String
  overlays : List String
  output : Option String := none
  json : Bool := false

structure ValidateArgs where
  theme : Option String := none
  json : Bool := false

/-- What the program is asked to do. -/
inductive Task where
  | render (args : RenderArgs)
  | style (args : StyleArgs)
  | merge (args : MergeArgs)
  | validate (args : ValidateArgs)
  | scenarios
  | presets (id : Option String)
  | schemes

/-- The files that a task reads. -/
def Task.paths : Task → List String
  | render args => args.theme.toList ++ args.scenarioFile.toList
  | merge args => args.base :: args.overlays
  | validate args => args.theme.toList
  | _ => []

inductive Verb where
  | render
  | style
  | merge
  | validate
  | scenarios
  | presets
  | schemes
deriving DecidableEq

/-! ## Grammars -/

/-- Options that every level has. -/
def commonOptions : List OptionRule := [
  ⟨"color", none, .value (.choice ["auto", "always", "never"])⟩,
  ⟨"verbose", some 'v', .counter⟩,
  ⟨"quiet", some 'q', .counter⟩,
  ⟨"help", some 'h', .help⟩]

def commonConflicts : List (String × String) := [("verbose", "quiet")]

namespace Verb

def all : List Verb := [render, style, merge, validate, scenarios, presets, schemes]

def name : Verb → String
  | render => "render"
  | style => "style"
  | merge => "merge"
  | validate => "validate"
  | scenarios => "scenarios"
  | presets => "presets"
  | schemes => "schemes"

def ofName? (name : String) : Option Verb := all.find? fun v => v.name = name

def grammar : Verb → Grammar
  | render => {
      options := commonOptions ++ [
        ⟨"preset", none, .value .text⟩,
        ⟨"scenario", some 's', .value .text⟩,
        ⟨"scenario-file", none, .value .path⟩,
        ⟨"format", some 'f', .value .text⟩,
        ⟨"scheme", none, .value .text⟩,
        ⟨"escape", none, .value (.choice ["joined", "per-token"])⟩,
        ⟨"all", none, .switch⟩]
      operandKind := .path
      most := some 1
      conflicts := commonConflicts ++ [("all", "scenario-file")]
      withoutOperands := ["preset"] }
  | style => {
      options := commonOptions ++ [
        ⟨"sample", none, .value .text⟩,
        ⟨"per-token", none, .switch⟩,
        ⟨"decode", none, .switch⟩]
      least := 1
      most := some 1
      conflicts := commonConflicts }
  | merge => {
      options := commonOptions ++ [
        ⟨"output", some 'o', .value .path⟩,
        ⟨"json", none, .switch⟩]
      operandKind := .path
      least := 2
      most := none
      conflicts := commonConflicts }
  | validate => {
      options := commonOptions ++ [⟨"json", none, .switch⟩]
      operandKind := .path
      most := some 1
      conflicts := commonConflicts }
  | scenarios => { options := commonOptions, conflicts := commonConflicts }
  | presets => { options := commonOptions, most := some 1, conflicts := commonConflicts }
  | schemes => { options := commonOptions, conflicts := commonConflicts }

/-- The task that the arguments of a subcommand describe. -/
def task (v : Verb) (f : Found) : Task :=
  match v with
  | render => .render {
      theme := f.operands.head?
      preset := f.text? "preset"
      scenario := (f.text? "scenario").getD "clean"
      scenarioFile := f.text? "scenario-file"
      format := f.text? "format"
      scheme := f.text? "scheme"
      mode := if f.text? "escape" = some "per-token" then .perToken else .joined
      all := f.has "all" }
  | style => .style {
      spec := f.operands.headD ""
      sample := (f.text? "sample").getD "sample"
      perToken := f.has "per-token"
      decode := f.has "decode" }
  | merge => .merge {
      base := f.operands.headD ""
      overlays := f.operands.tail
      output := f.text? "output"
      json := f.has "json" }
  | validate => .validate { theme := f.operands.head?, json := f.has "json" }
  | scenarios => .scenarios
  | presets => .presets f.operands.head?
  | schemes => .schemes

end Verb

def helpCommand : String := "help"

/-- The level above the subcommands. -/
def topGrammar : Grammar where
  options := commonOptions ++ [⟨"version", some 'V', .version⟩]
  conflicts := commonConflicts
  commands := Verb.all.map (·.name) ++ [helpCommand]

/-! ## Whole lines -/

structure Invocation where
  task : Task
  /-- Write escape sequences. -/
  color : Bool

/-- The subcommand for help takes the name of one command. -/
def helpOn : List String → UsageError
  | [] => .helpWanted
  | [name] => if topGrammar.commands.contains name then .helpWanted else .unknownCommand
  | _ => .unknownCommand

/-- Reads a command line. A choice of color behind the subcommand goes before one in front of it;
without a choice there is no color. -/
def Invocation.ofWords (words : List String) : Except UsageError Invocation := do
  let (top, next) ← topGrammar.scan words {}
  match next with
  | none =>
    let _ ← topGrammar.finish false top
    .error .missingCommand
  | some (name, rest) =>
    match Verb.ofName? name with
    | none => .error (helpOn rest)
    | some verb =>
      let found ← verb.grammar.read rest
      let top ← topGrammar.finish true top
      return ⟨verb.task found, (found.text? "color").or (top.text? "color") = some "always"⟩

end PromptTheme.Command
