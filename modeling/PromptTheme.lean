import PromptTheme.Catalog
import PromptTheme.Command.Folder
import PromptTheme.Command.Grammar
import PromptTheme.Command.Invocation
import PromptTheme.Command.Run
import PromptTheme.Config.Basic
import PromptTheme.Config.Error
import PromptTheme.Config.Initial
import PromptTheme.Config.Json
import PromptTheme.Config.Merge
import PromptTheme.Config.Prune
import PromptTheme.Config.Reserved
import PromptTheme.Editor.History
import PromptTheme.Editor.Preset
import PromptTheme.Editor.Session
import PromptTheme.Editor.Theme
import PromptTheme.Json.Literal
import PromptTheme.Json.Node
import PromptTheme.Json.Reader
import PromptTheme.Json.Record
import PromptTheme.Json.Token
import PromptTheme.Json.Writer
import PromptTheme.Keyed
import PromptTheme.Main
import PromptTheme.Number.Decimal
import PromptTheme.Number.Double
import PromptTheme.Prompt.Engine
import PromptTheme.Prompt.Group
import PromptTheme.Prompt.Reference
import PromptTheme.Prompt.Renderer
import PromptTheme.Prompt.Scenario
import PromptTheme.Scheme
import PromptTheme.Style.Color
import PromptTheme.Style.Contrast
import PromptTheme.Style.Escape
import PromptTheme.Style.Palette
import PromptTheme.Style.Record
import PromptTheme.Style.Spec
import PromptTheme.Terminal.Strip
import PromptTheme.Terminal.Width
import PromptTheme.Terminal.WidthTable
import PromptTheme.Text.Blank
import PromptTheme.Text.Letters
import PromptTheme.Time.Calendar
import PromptTheme.Time.Instant
import PromptTheme.Toml.Reader
import PromptTheme.Toml.Scalar
import PromptTheme.Toml.Statement
import PromptTheme.Toml.Text
import PromptTheme.Toml.Tree
import PromptTheme.Toml.Writer
import PromptTheme.Validation
import PromptTheme.Value
import PromptTheme.Proofs.Editor.Reserved
import PromptTheme.Proofs.Editor.Timeline
import PromptTheme.Proofs.Prompt.Expand
import PromptTheme.Proofs.Prompt.Integrity
import PromptTheme.Proofs.Style.Normal
import PromptTheme.Proofs.Config.Pruned
import PromptTheme.Proofs.Editor.Library
import PromptTheme.Proofs.Prompt.Locality
import PromptTheme.Proofs.Editor.Reimport
import PromptTheme.Proofs.Number.Nearest
import PromptTheme.Proofs.Number.Shortest
import PromptTheme.Proofs.Toml.Inline
import PromptTheme.Proofs.Config.Valid
import PromptTheme.Proofs.Editor.Valid
import PromptTheme.Proofs.Prompt.Sweep
import PromptTheme.Proofs.Prompt.Flat
import PromptTheme.Proofs.Prompt.Settling
import PromptTheme.Proofs.Editor.Eviction
import PromptTheme.Proofs.Config.Layers
import PromptTheme.Proofs.Config.Sharing
import PromptTheme.Proofs.Command.Overlays
import PromptTheme.Proofs.Config.Content
import PromptTheme.Proofs.Config.Independent
import PromptTheme.Proofs.Editor.Independent
import PromptTheme.Proofs.Config.Sanitize
import PromptTheme.Proofs.Prompt.Missing
import PromptTheme.Proofs.Config.Contrast
import PromptTheme.Proofs.Config.Nulls
import PromptTheme.Proofs.Prompt.Character
import PromptTheme.Proofs.Text.Bytes
import PromptTheme.Proofs.Style.Hex
import PromptTheme.Proofs.Style.Color
