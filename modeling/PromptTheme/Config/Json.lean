/-
Configurations as JSON text.
-/
import PromptTheme.Config.Basic
import PromptTheme.Json.Reader
import PromptTheme.Json.Writer

namespace PromptTheme

/-- Reads a configuration from JSON text. -/
def Config.ofJson? (text : String) : Except ConfigError Config :=
  match Json.value? text with
  | some v => ofValue? v
  | none => .error .jsonSyntax

/-- The configuration as JSON text over several lines. -/
def Config.toJson (c : Config) : String := Json.pretty c.toValue

end PromptTheme
