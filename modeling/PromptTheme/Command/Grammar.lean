/-
Command lines: a grammar lists the options, the operands and the subcommands that may be given, and
`Grammar.scan` reads words by it. An operand, or an option whose value is a word of its own, is
settled only when the next argument begins, so that of two faults the later one can come first.
-/

namespace PromptTheme.Command

/-- Why a command line is not carried out. -/
inductive UsageError where
  /-- An option is given twice, or together with what it excludes. -/
  | conflict
  /-- A value is missing or none of the choices. -/
  | badValue
  /-- A switch is given a value. -/
  | surplusValue
  | unknownArgument
  | unknownCommand
  | missingArgument
  | missingCommand
  /-- There is nothing on the command line at all. -/
  | nothingGiven
  /-- Not a fault: the help text is asked for. -/
  | helpWanted
  /-- Not a fault: the version is asked for. -/
  | versionWanted
deriving DecidableEq

def UsageError.message : UsageError → String
  | conflict => "these arguments cannot be used together"
  | badValue => "a value is missing or not one of the choices"
  | surplusValue => "this option takes no value"
  | unknownArgument => "unexpected argument"
  | unknownCommand => "unrecognized subcommand"
  | missingArgument => "a required argument is missing"
  | missingCommand => "a subcommand is required"
  | nothingGiven => "a subcommand is required"
  | helpWanted => "help"
  | versionWanted => "version"

/-! ## Grammars -/

/-- What a word may be that is given as a value. -/
inductive ValueKind where
  | text
  /-- Any text but the empty one. -/
  | path
  /-- One of the listed words. -/
  | choice (words : List String)
deriving DecidableEq

def ValueKind.accepts : ValueKind → String → Bool
  | text, _ => true
  | path, word => !word.isEmpty
  | choice words, word => words.contains word

inductive OptionKind where
  /-- Given at most once. -/
  | switch
  /-- Given any number of times. -/
  | counter
  /-- Takes a value. -/
  | value (kind : ValueKind)
  | help
  | version
deriving DecidableEq

structure OptionRule where
  name : String
  letter : Option Char
  kind : OptionKind
deriving DecidableEq

def OptionRule.takesValue (r : OptionRule) : Bool :=
  match r.kind with
  | .value _ => true
  | _ => false

def OptionRule.accepts (r : OptionRule) (value : String) : Bool :=
  match r.kind with
  | .value kind => kind.accepts value
  | _ => true

/-- What one level of a command line may hold. -/
structure Grammar where
  options : List OptionRule
  operandKind : ValueKind := .text
  /-- The least number of operands. -/
  least : Nat := 0
  /-- The largest number of operands, if there is one. -/
  most : Option Nat := some 0
  /-- Pairs of options that exclude each other. -/
  conflicts : List (String × String) := []
  /-- Options that exclude an operand. -/
  withoutOperands : List String := []
  commands : List String := []

/-- What was found on one level. -/
structure Found where
  /-- Options with their values, in the order in which they are given. -/
  options : List (String × String) := []
  operands : List String := []
deriving DecidableEq

namespace Found

def has (f : Found) (name : String) : Bool := f.options.any fun o => o.1 = name

def text? (f : Found) (name : String) : Option String :=
  (f.options.find? fun o => o.1 = name).map (·.2)

def isEmpty (f : Found) : Bool := f.options.isEmpty && f.operands.isEmpty

/-- Takes up an option. Only counters may be repeated. -/
def take (rule : OptionRule) (value : String) (f : Found) : Except UsageError Found :=
  if rule.kind ≠ .counter ∧ f.has rule.name then .error .conflict
  else if rule.accepts value then .ok { f with options := f.options ++ [(rule.name, value)] }
  else .error .badValue

end Found

/-! ## Scanning -/

structure Scan where
  found : Found := {}
  /-- An option that is not settled yet, and its value if that has come. -/
  pending : Option (OptionRule × Option String) := none
  /-- Operands that are not settled yet. -/
  waiting : List String := []
  /-- Whether `--` came, after which all words are operands. -/
  operandsOnly : Bool := false

namespace Scan

/-- Settles the pending option and the operands that wait. -/
def settle (kind : ValueKind) (s : Scan) : Except UsageError Scan :=
  match s.pending with
  | none =>
    if s.waiting.all kind.accepts then
      .ok { s with
        found := { s.found with operands := s.found.operands ++ s.waiting }
        waiting := [] }
    else .error .badValue
  | some (_, none) => .error .badValue
  | some (rule, some value) =>
    (s.found.take rule value).map fun found => { s with found := found, pending := none }

/-- The next word is the value of an option. -/
def wantsValue (s : Scan) : Bool :=
  match s.pending with
  | some (_, none) => true
  | _ => false

/-- Takes up an option with the value that is written in the same word. -/
def attached (kind : ValueKind) (rule : OptionRule) (value : String) (s : Scan) :
    Except UsageError Scan := do
  let s ← s.settle kind
  let found ← s.found.take rule value
  return { s with found := found }

/-- Takes up an option that has no value. -/
def bare (kind : ValueKind) (rule : OptionRule) (s : Scan) : Except UsageError Scan := do
  let s ← s.settle kind
  match rule.kind with
  | .help => .error .helpWanted
  | .version => .error .versionWanted
  | _ =>
    let found ← s.found.take rule ""
    return { s with found := found }

/-- Leaves an option pending whose value is the next word. -/
def await (kind : ValueKind) (rule : OptionRule) (s : Scan) : Except UsageError Scan :=
  (s.settle kind).map fun s => { s with pending := some (rule, none) }

end Scan

namespace Grammar

/-- Reads what follows `--` in a word. -/
def longOption (g : Grammar) (body : List Char) (s : Scan) : Except UsageError Scan :=
  let name := String.ofList (body.takeWhile (· ≠ '='))
  let value := body.dropWhile (· ≠ '=')
  match g.options.find? fun r => r.name = name with
  | none => .error .unknownArgument
  | some rule =>
    match rule.takesValue, value with
    | true, _ :: value => s.attached g.operandKind rule (String.ofList value)
    | true, [] => s.await g.operandKind rule
    | false, _ :: _ => .error .surplusValue
    | false, [] => s.bare g.operandKind rule

/-- Reads letters that follow `-` in a word. Behind a letter that takes a value the rest of the
word is the value. -/
def letters (g : Grammar) : List Char → Scan → Except UsageError Scan
  | [], s => .ok s
  | c :: rest, s =>
    match g.options.find? fun r => r.letter = some c with
    | none => .error .unknownArgument
    | some rule =>
      if rule.takesValue then
        match rest with
        | [] => s.await g.operandKind rule
        | '=' :: value => s.attached g.operandKind rule (String.ofList value)
        | value => s.attached g.operandKind rule (String.ofList value)
      else
        match s.bare g.operandKind rule with
        | .ok s => letters g rest s
        | .error e => .error e

/-- There is room behind so many operands for another one. -/
def hasRoom (g : Grammar) (count : Nat) : Bool :=
  match g.most with
  | none => true
  | some n => count < n

/-- Takes up an operand. Those from the last required one on belong together and are settled
together. -/
def operand (g : Grammar) (word : String) (s : Scan) : Except UsageError Scan :=
  let count := s.found.operands.length + s.waiting.length
  if g.hasRoom count then
    (if s.waiting.isEmpty || count < g.least then s.settle g.operandKind else .ok s).map fun s =>
      { s with waiting := s.waiting ++ [word] }
  else if g.commands.isEmpty || (s.operandsOnly && g.commands.contains word) then
    .error .unknownArgument
  else .error .unknownCommand

/-- Reads one word. -/
def step (g : Grammar) (word : String) (s : Scan) : Except UsageError Scan :=
  if s.operandsOnly then g.operand word s
  else
    match word.toList with
    | ['-', '-'] => .ok { s with operandsOnly := true }
    | '-' :: '-' :: body => g.longOption body s
    | '-' :: c :: rest => g.letters (c :: rest) s
    | _ =>
      match s.pending with
      | some (rule, none) => .ok { s with pending := some (rule, some word) }
      | _ => g.operand word s

/-- Reads words up to a subcommand; returns it with the words behind it. -/
def scan (g : Grammar) :
    List String → Scan → Except UsageError (Scan × Option (String × List String))
  | [], s => .ok (s, none)
  | word :: rest, s =>
    if !s.operandsOnly && !s.wantsValue && g.commands.contains word then
      .ok (s, some (word, rest))
    else
      match g.step word s with
      | .ok s => scan g rest s
      | .error e => .error e

/-- Two things are given that exclude each other. -/
def hasConflict (g : Grammar) (f : Found) : Bool :=
  g.conflicts.any (fun (a, b) => f.has a && f.has b) ||
    (!f.operands.isEmpty && g.withoutOperands.any f.has)

/-- Checks a level at its end. -/
def finish (g : Grammar) (hasCommand : Bool) (s : Scan) : Except UsageError Found := do
  let s ← s.settle g.operandKind
  if !hasCommand && !g.commands.isEmpty then
    .error (if s.found.isEmpty then .nothingGiven else .missingCommand)
  else if g.hasConflict s.found then .error .conflict
  else if s.found.operands.length < g.least then .error .missingArgument
  else .ok s.found

/-- Reads the words of a level without subcommands. -/
def read (g : Grammar) (words : List String) : Except UsageError Found := do
  let (s, _) ← g.scan words {}
  g.finish false s

end Grammar

end PromptTheme.Command
