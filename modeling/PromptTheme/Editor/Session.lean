/-
An editing session: the theme being edited, its history, the saved themes and the selected module.
`perform` carries out one action. An action that fails has no session to return, so it changes
nothing; `after` then stays with the session it had.
-/
import PromptTheme.Editor.History
import PromptTheme.Editor.Preset
import PromptTheme.Prompt.Engine
import PromptTheme.Toml.Reader
import PromptTheme.Toml.Writer
import PromptTheme.Validation

namespace PromptTheme

inductive SessionError where
  | config (e : ConfigError)
  | themeNotFound (id : String)
  | unknownScheme (name : String)
deriving DecidableEq

def SessionError.message : SessionError → String
  | config e => e.message
  | themeNotFound id => "no theme with id '" ++ id ++ "'"
  | unknownScheme name => "unknown color scheme '" ++ name ++ "'"

structure Session where
  current : Theme
  saved : List Theme
  selected : Option String
  history : History Theme
  engine : Engine

namespace Session

/-- A session that edits a theme. -/
def start (t : Theme) (engine : Engine := {}) : Session := ⟨t, [], none, .empty, engine⟩

/-- A session that edits a new theme. -/
def new (freshId : String) (now : Instant) (engine : Engine := {}) : Session :=
  start (.untitled freshId now) engine

def config (s : Session) : Config := s.current.config

/-! ## Edits -/

/-- Replaces the current theme, so that the edit can be undone. -/
def edit (t : Theme) (s : Session) : Session :=
  { s with current := t, history := s.history.record s.current }

/-- Takes up a new configuration. One with the same content is no edit. -/
def commit (c : Config) (now : Instant) (s : Session) : Bool × Session :=
  if c.sameAs s.config then (false, s)
  else (true, s.edit ⟨s.current.metadata.touch now, c⟩)

/-- Lays a patch over the configuration. -/
def updateConfig (patch : Config) (now : Instant) (s : Session) : Bool × Session :=
  s.commit (s.config.merge patch) now

def updateMetadata (patch : MetadataPatch) (now : Instant) (s : Session) : Session :=
  s.edit { s.current with metadata := s.current.metadata.apply patch now }

/-- Lays the configuration that a TOML text writes over the current one. -/
def importToml (text : String) (now : Instant) (s : Session) :
    Except ConfigError (Bool × Session) :=
  match Config.ofToml? text with
  | .error e => .error e
  | .ok imported =>
    let r := s.updateConfig imported now
    .ok (r.1, { r.2 with selected := none })

/-- The configuration as TOML text. -/
def exportToml (s : Session) : Except ConfigError String := s.config.toToml?

/-- Installs a color scheme as the default palette. -/
def applyScheme (name : String) (now : Instant) (s : Session) :
    Except SessionError (Bool × Session) :=
  match ColorScheme.find? name with
  | none => .error (.unknownScheme name)
  | some scheme => .ok (s.updateConfig scheme.patch now)

/-- Starts over with a new theme. -/
def reset (freshId : String) (now : Instant) (s : Session) : Session :=
  { s.edit (.untitled freshId now) with selected := none }

/-! ## Themes -/

/-- Goes on with another theme, which has a history of its own. -/
def load (t : Theme) (s : Session) : Session :=
  { s with current := t, selected := none, history := s.history.clear }

/-- The saved theme with this id, or else the preset. -/
def findTheme? (id : String) (s : Session) : Option Theme :=
  (s.saved.find? fun t => t.id = id).or (Preset.find? id)

def loadId (id : String) (s : Session) : Except SessionError Session :=
  match s.findTheme? id with
  | some t => .ok (s.load t)
  | none => .error (.themeNotFound id)

/-- Puts a theme in the place of the one with its id, or at the end. -/
def putTheme (t : Theme) : List Theme → List Theme
  | [] => [t]
  | u :: rest => if u.id = t.id then t :: rest else u :: putTheme t rest

/-- Saves the current theme. -/
def save (s : Session) : Session := { s with saved := putTheme s.current s.saved }

/-- Removes a saved theme. -/
def delete (id : String) (s : Session) : Except SessionError (Theme × Session) :=
  match s.saved.find? fun t => t.id = id with
  | some t => .ok (t, { s with saved := s.saved.eraseP fun t => t.id = id })
  | none => .error (.themeNotFound id)

def select (module : Option String) (s : Session) : Session := { s with selected := module }

/-! ## History -/

/-- Steps to another theme of the history, if the step is granted. -/
def stepTo (s : Session) : Option (Theme × History Theme) → Bool × Session
  | some (t, h) => (true, { s with current := t, history := h })
  | none => (false, s)

def undo (s : Session) : Bool × Session := s.stepTo (s.history.undo? s.current)

def redo (s : Session) : Bool × Session := s.stepTo (s.history.redo? s.current)

/-! ## Views -/

/-- The prompt of the current theme. -/
def preview (scenario : Scenario) (s : Session) : String := s.engine.renderPrompt s.config scenario

/-- The checks of the configuration; a theme without a name is worth a warning too. -/
def validate (s : Session) : Report :=
  let report := s.config.validate
  if (Text.trim s.current.name.toList).isEmpty then report.add .unnamedTheme else report

end Session

/-! ## Actions -/

/-- What can be done in a session. -/
inductive Action where
  | updateConfig (patch : Config)
  | updateMetadata (patch : MetadataPatch)
  | importToml (text : String)
  | applyScheme (name : String)
  | reset
  | load (theme : Theme)
  | loadId (id : String)
  | save
  | delete (id : String)
  | select (module : Option String)
  | undo
  | redo

/-- What an action answers. -/
inductive Outcome where
  | done
  | changed (b : Bool)
  | removed (theme : Theme)

namespace Session

/-- The outcome that says whether something changed. -/
def answer (r : Bool × Session) : Outcome × Session := (.changed r.1, r.2)

/-- Carries out an action at the time `now`. A theme that has to be made gets the id `freshId`. -/
def perform (now : Instant) (freshId : String) (s : Session) :
    Action → Except SessionError (Outcome × Session)
  | .updateConfig patch => .ok (answer (s.updateConfig patch now))
  | .updateMetadata patch => .ok (.done, s.updateMetadata patch now)
  | .importToml text => ((s.importToml text now).mapError .config).map answer
  | .applyScheme name => (s.applyScheme name now).map answer
  | .reset => .ok (.done, s.reset freshId now)
  | .load t => .ok (.done, s.load t)
  | .loadId id => (s.loadId id).map (.done, ·)
  | .save => .ok (.done, s.save)
  | .delete id => (s.delete id).map fun (t, s) => (.removed t, s)
  | .select m => .ok (.done, s.select m)
  | .undo => .ok (answer s.undo)
  | .redo => .ok (answer s.redo)

/-- The session after an action, which is the same session if the action failed. -/
def after (now : Instant) (freshId : String) (s : Session) (a : Action) : Session :=
  match s.perform now freshId a with
  | .ok (_, s) => s
  | .error _ => s

end Session

end PromptTheme
