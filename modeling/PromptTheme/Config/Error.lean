/-
What can go wrong when a configuration is read or written, and the wording of it.
-/

namespace PromptTheme

inductive ConfigError where
  /-- The text is no TOML document. -/
  | tomlSyntax
  /-- The tree holds a number that TOML cannot write. -/
  | tomlRange
  /-- The text is no JSON value. -/
  | jsonSyntax
  /-- The root of the document is something else than a table. -/
  | notATable (found : String)
deriving DecidableEq

def ConfigError.message : ConfigError → String
  | .tomlSyntax => "invalid TOML syntax"
  | .tomlRange => "failed to generate TOML"
  | .jsonSyntax => "invalid JSON"
  | .notATable found => "configuration root must be a table, got " ++ found

end PromptTheme
