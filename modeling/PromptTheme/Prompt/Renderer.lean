/-
Renderers turn the value of a module into a fragment of format syntax. `Registry` says which
renderer a module has; every other module has the fallback.
-/
import PromptTheme.Config.Basic
import PromptTheme.Prompt.Reference
import PromptTheme.Prompt.Scenario

namespace PromptTheme

/-- What a renderer looks at. The value is never empty. -/
structure ModuleContext where
  name : String
  value : String
  config : Config
  scenario : Scenario

namespace ModuleContext

/-- A string in the module's own table that is not empty. -/
def setting? (ctx : ModuleContext) (key : String) : Option String :=
  (ctx.config.moduleString? ctx.name key).filter fun s => !s.isEmpty

def setting (ctx : ModuleContext) (key default : String) : String :=
  (ctx.setting? key).getD default

end ModuleContext

inductive Renderer where
  | directory
  | gitBranch
  | gitStatus
  | character
  | generic
  /-- Draws by the definition under `custom`. -/
  | custom
  /-- Draws a text with `$name`, `$value` and `$style`. -/
  | template (text : String)
deriving DecidableEq

/-! ## Drawing -/

/-- A styled group with a space behind it. -/
def styledGroup (text style : String) : String := "[" ++ text ++ "](" ++ style ++ ") "

namespace GitStatus

/-- The kinds of changes in the order in which they are shown, with their symbols. -/
def symbols : List (String × String) := [
  ("conflicted", "🏳"),
  ("ahead", "🏎💨"),
  ("behind", "😰"),
  ("diverged", "😵"),
  ("untracked", "🤷"),
  ("stashed", "📦"),
  ("modified", "📝"),
  ("staged", "[++()](green)"),
  ("renamed", "👅"),
  ("deleted", "🗑")]

/-- The symbols that occur in the value; the value itself when there is none. -/
def shown (ctx : ModuleContext) : String :=
  let active := (symbols.map fun (kind, default) => ctx.setting kind default).filter fun symbol =>
    Text.contains symbol.toList ctx.value.toList
  if active.isEmpty then ctx.value else String.intercalate " " active

def render (ctx : ModuleContext) : String :=
  Reference.substitute (ctx.setting "format" "($displayValue) ") [
    ("all_status", shown ctx),
    ("displayValue", shown ctx),
    ("ahead_behind", ""),
    ("style", ctx.setting "style" "white")]

end GitStatus

namespace PromptCharacter

def defaultStyle : String := "bold green"

/-- The style in a symbol: the text between its first `](` and the next `)`. -/
def styleOf? (symbol : List Char) : Option (List Char) :=
  match Text.afterFirst? [']', '('] symbol with
  | some rest => if rest.contains ')' then some (rest.takeWhile (· ≠ ')')) else none
  | none => none

/-- The symbol for the outcome of the last command. -/
def symbol (ctx : ModuleContext) : String :=
  if ctx.scenario.isError then ctx.setting "error_symbol" "[❯](bold red)"
  else ctx.setting "success_symbol" "[❯](bold green)"

def style (ctx : ModuleContext) : String :=
  ((styleOf? (symbol ctx).toList).map String.ofList).getD defaultStyle

def render (ctx : ModuleContext) : String := styledGroup ctx.value (style ctx)

end PromptCharacter

namespace CustomModule

/-- A string of the definition that is not empty. -/
def setting (definition : Keyed Value) (key default : String) : String :=
  (((Keyed.find? key definition).bind Value.asString?).filter fun s => !s.isEmpty).getD default

/-- The definition says `disabled = true`. -/
def isDisabled (definition : Keyed Value) : Bool :=
  ((Keyed.find? "disabled" definition).bind Value.asBool?) = some true

def render (ctx : ModuleContext) : String :=
  match ctx.config.customModule? ctx.name with
  | none => ""
  | some definition =>
    if isDisabled definition then ""
    else
      Reference.substitute (setting definition "format" "[$symbol $output]($style) ") [
        ("symbol", setting definition "symbol" ""),
        ("output", ctx.value),
        ("style", setting definition "style" "white")]

end CustomModule

def Renderer.render (ctx : ModuleContext) : Renderer → String
  | .directory => styledGroup ctx.value (ctx.setting "style" "cyan bold")
  | .gitBranch =>
    styledGroup (ctx.setting "symbol" "🌱 " ++ ctx.value) (ctx.setting "style" "purple bold")
  | .gitStatus => GitStatus.render ctx
  | .character => PromptCharacter.render ctx
  | .generic =>
    Reference.substitute (ctx.setting "format" "via [$symbol$version]($style) ") [
      ("symbol", ctx.setting "symbol" ""),
      ("version", ctx.value),
      ("style", ctx.setting "style" "white")]
  | .custom => CustomModule.render ctx
  | .template text =>
    Reference.substitute text [
      ("name", ctx.name),
      ("value", ctx.value),
      ("style", ctx.setting "style" "none")]

/-! ## Registry -/

structure Registry where
  renderers : Dict Renderer
  fallback : Renderer

namespace Registry

/-- No module has a renderer of its own. -/
def empty : Registry := ⟨.empty, .generic⟩

/-- The modules that are drawn in a way of their own. -/
def builtin : Registry :=
  ⟨.ofList [
    ("directory", .directory),
    ("git_branch", .gitBranch),
    ("git_status", .gitStatus),
    ("character", .character)], .generic⟩

def register (r : Registry) (name : String) (renderer : Renderer) : Registry :=
  { r with renderers := r.renderers.insert name renderer }

def unregister (r : Registry) (name : String) : Registry :=
  { r with renderers := r.renderers.erase name }

def find (r : Registry) (name : String) : Renderer := (r.renderers.find? name).getD r.fallback

def contains (r : Registry) (name : String) : Bool := r.renderers.contains name

/-- The modules with a renderer of their own, in order. -/
def names (r : Registry) : List String := r.renderers.keys

end Registry

end PromptTheme
