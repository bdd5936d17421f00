/-
Advisory checks of a configuration. `Finding` lists what can be found, and `Finding.message` and its
neighbours word it. Errors are what the prompt itself would refuse, warnings are advice.
-/
import PromptTheme.Catalog
import PromptTheme.Config.Basic
import PromptTheme.Style.Contrast

namespace PromptTheme

inductive Finding where
  | formatNotString
  | newlineNotBoolean
  | timeoutNotNumber (key : String)
  | moduleNotTable (name : String)
  | disabledNotBoolean (name : String)
  | unknownKey (key : String)
  | lowContrast (name : String) (color : String)
  | slow (milliseconds : Nat)
  | missingCharacter
  | unnamedTheme
deriving DecidableEq

/-- The area of a finding. -/
inductive IssueKind where
  | config
  | visual
  | performance
  | compatibility
deriving DecidableEq

def IssueKind.name : IssueKind → String
  | config => "config"
  | visual => "visual"
  | performance => "performance"
  | compatibility => "compatibility"

namespace Finding

def isError : Finding → Bool
  | formatNotString => true
  | newlineNotBoolean => true
  | timeoutNotNumber _ => true
  | moduleNotTable _ => true
  | disabledNotBoolean _ => true
  | _ => false

def kind : Finding → IssueKind
  | lowContrast _ _ => .visual
  | slow _ => .performance
  | _ => .config

def message : Finding → String
  | formatNotString => "Format must be a string"
  | newlineNotBoolean => "add_newline must be a boolean"
  | timeoutNotNumber key => key ++ " must be a number"
  | moduleNotTable name => "Module '" ++ name ++ "' must be a table"
  | disabledNotBoolean name => "Module '" ++ name ++ "': 'disabled' must be a boolean"
  | unknownKey key =>
    "Unknown module or setting: '" ++ key ++
      "'. It may be supported by Starship but not yet by this editor."
  | lowContrast name color => "Low contrast color " ++ color ++ " in " ++ name ++ " module"
  | slow ms => "Estimated render time is high (" ++ toString ms ++ "ms)"
  | missingCharacter => "Format string is missing the character module"
  | unnamedTheme => "Theme has no name"

/-- How to put it right. -/
def fix? : Finding → Option String
  | lowContrast _ _ =>
    some "Choose a lighter color for better readability on dark backgrounds"
  | slow _ => some "Disable expensive modules like git_status or kubernetes"
  | missingCharacter => some "Add $character to the end of your format string"
  | unnamedTheme => some "Add a name in the theme settings"
  | _ => none

/-- The module that it is about. -/
def module? : Finding → Option String
  | moduleNotTable name => some name
  | disabledNotBoolean name => some name
  | unknownKey key => some key
  | lowContrast name _ => some name
  | missingCharacter => some "character"
  | _ => none

end Finding

/-- The outcome of the checks. -/
structure Report where
  findings : List Finding
  /-- The configuration mentions symbols, which need a suitable font. -/
  mentionsSymbols : Bool
  milliseconds : Nat
deriving DecidableEq

namespace Report

def errors (r : Report) : List Finding := r.findings.filter (·.isError)

def warnings (r : Report) : List Finding := r.findings.filter (!·.isError)

def suggestions (r : Report) : List String :=
  if r.mentionsSymbols then
    ["Make sure you have a Nerd Font installed to see all symbols correctly"]
  else []

/-- There are no errors; warnings do not count. -/
def isValid (r : Report) : Bool := r.errors.isEmpty

def add (r : Report) (f : Finding) : Report := { r with findings := r.findings ++ [f] }

end Report

/-- A finding as a table. -/
def Finding.toValue (f : Finding) : Value := .table <|
  [("kind", .string f.kind.name),
    ("severity", .string (if f.isError then "error" else "warning")),
    ("message", .string f.message)] ++
  (f.fix?.toList.map fun s => ("fix", .string s)) ++
  (f.module?.toList.map fun s => ("module", .string s))

/-- A report as a table. -/
def Report.toValue (r : Report) : Value := .table [
  ("errors", .array (r.errors.map Finding.toValue)),
  ("warnings", .array (r.warnings.map Finding.toValue)),
  ("suggestions", .array (r.suggestions.map .string)),
  ("estimated_render_ms", .count r.milliseconds)]

/-! ## Types of settings -/

def Value.isString (v : Value) : Bool := v.asString?.isSome

def Value.isBool (v : Value) : Bool := v.asBool?.isSome

def Value.isNumber : Value → Bool
  | .number _ => true
  | _ => false

namespace Config

/-- The settings of the whole prompt with a type of their own. -/
def globalChecks : List (String × (Value → Bool) × Finding) := [
  ("format", Value.isString, .formatNotString),
  ("add_newline", Value.isBool, .newlineNotBoolean),
  ("scan_timeout", Value.isNumber, .timeoutNotNumber "scan_timeout"),
  ("command_timeout", Value.isNumber, .timeoutNotNumber "command_timeout")]

def checkGlobals (c : Config) : List Finding :=
  globalChecks.filterMap fun (key, ok, finding) =>
    match c.find? key with
    | some v => if ok v then none else some finding
    | none => none

/-- What is wrong with one top-level entry. -/
def checkEntry (key : String) (v : Value) : Option Finding :=
  if Catalog.globalKeys.contains key then none
  else if !Catalog.isKnown key then some (.unknownKey key)
  else
    match v with
    | .table es =>
      match Keyed.find? "disabled" es with
      | some d => if d.isBool then none else some (.disabledNotBoolean key)
      | none => none
    | _ => some (.moduleNotTable key)

def checkEntries (c : Config) : List Finding := c.entries.filterMap fun (k, v) => checkEntry k v

/-! ## Contrast -/

/-- The first `#` with six hexadecimal digits behind it in a text. -/
def firstHexColor? : List Char → Option (List Char)
  | [] => none
  | '#' :: rest =>
    let digits := rest.take 6
    if digits.length = 6 ∧ digits.all (fun c => (Text.hexValue? c).isSome) then some ('#' :: digits)
    else firstHexColor? rest
  | _ :: rest => firstHexColor? rest

/-- The modules whose style has to be readable on a dark ground. -/
def contrastModules : List String := ["directory", "git_branch"]

def darkGround : Rgb := ⟨0, 0, 0⟩

/-- A hexadecimal color in the style of a module that is hard to read on a dark ground. -/
def checkContrastOf (c : Config) (name : String) : Option Finding :=
  match (c.moduleString? name "style").bind fun style => firstHexColor? style.toList with
  | none => none
  | some hex =>
    match Rgb.ofHex? hex with
    | none => none
    | some rgb =>
      if rgb.isReadable darkGround then none else some (.lowContrast name (String.ofList hex))

def checkContrast (c : Config) : List Finding := contrastModules.filterMap c.checkContrastOf

/-! ## Render time -/

def baseMilliseconds : Nat := 10

def referenceMilliseconds : Nat := 2

/-- Estimates above this are worth a warning. -/
def slowMilliseconds : Nat := 200

/-- What modules cost that run a command for each prompt. -/
def moduleCosts : List (String × Nat) := [
  ("git_status", 50),
  ("kubernetes", 40),
  ("docker_context", 20),
  ("gcloud", 30),
  ("aws", 30),
  ("nodejs", 10),
  ("python", 10),
  ("rust", 10)]

/-- The module is configured and not switched off. -/
def isActive (c : Config) (name : String) : Bool :=
  match c.find? name with
  | some v => !v.isNull && !c.isDisabled name
  | none => false

/-- A rough estimate of the time that the prompt takes. It is reported in 32 bits, and `estimate_lt` says
when it fits into them. -/
def estimate (c : Config) : Nat :=
  let modules := moduleCosts.foldr
    (fun (name, cost) total => if c.isActive name then cost + total else total) 0
  let references := (c.format?.getD "").toList.count '$'
  baseMilliseconds + modules + references * referenceMilliseconds

theorem activeCosts_le (c : Config) (costs : List (String × Nat)) :
    costs.foldr (fun (name, cost) total => if c.isActive name then cost + total else total) 0 ≤
      costs.foldr (fun e total => e.2 + total) 0 := by
  induction costs with
  | nil => exact Nat.le_refl 0
  | cons e costs ih =>
    obtain ⟨name, cost⟩ := e
    rw [List.foldr_cons, List.foldr_cons]
    dsimp only at ih ⊢
    split <;> omega

/-- Only a format string of two billion characters could make the estimate too large. -/
theorem estimate_lt {c : Config} (h : 2 * (c.format?.getD "").length + 210 < UInt32.size) :
    c.estimate < UInt32.size := by
  have hmodules := c.activeCosts_le moduleCosts
  have hcosts : moduleCosts.foldr (fun e total => e.2 + total) 0 = 200 := rfl
  have hreferences : (c.format?.getD "").toList.count '$' ≤ (c.format?.getD "").length :=
    List.count_le_length
  unfold estimate baseMilliseconds referenceMilliseconds
  dsimp only at hmodules ⊢
  omega

def checkTime (c : Config) : List Finding :=
  if slowMilliseconds < c.estimate then [.slow c.estimate] else []

/-! ## Symbols and the prompt character -/

def symbolWord : List Char := "symbol".toList

mutual

/-- A key or a string inside the value mentions symbols. -/
def mentionsSymbol : Value → Bool
  | .string s => Text.contains symbolWord s.toList
  | .table es => entriesMentionSymbol es
  | .array items => itemsMentionSymbol items
  | _ => false

def entriesMentionSymbol : List (String × Value) → Bool
  | [] => false
  | (k, v) :: es =>
    Text.contains symbolWord k.toList || mentionsSymbol v || entriesMentionSymbol es

def itemsMentionSymbol : List Value → Bool
  | [] => false
  | v :: vs => mentionsSymbol v || itemsMentionSymbol vs

end

/-- A format that is not empty has to mention the prompt character. -/
def checkCharacter (c : Config) : List Finding :=
  match c.format? with
  | none => []
  | some format =>
    if format.isEmpty || Text.contains "$character".toList format.toList then []
    else [.missingCharacter]

/-! ## Report -/

/-- Runs all checks. -/
def validate (c : Config) : Report where
  findings := c.checkGlobals ++ c.checkEntries ++ c.checkContrast ++ c.checkTime ++ c.checkCharacter
  mentionsSymbols := entriesMentionSymbol c.entries
  milliseconds := c.estimate

end Config

end PromptTheme
