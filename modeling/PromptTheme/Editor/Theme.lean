/-
Themes: a configuration with the metadata that a gallery shows. Clock readings and fresh ids come
in as arguments.
-/
import PromptTheme.Config.Initial
import PromptTheme.Json.Reader
import PromptTheme.Json.Record
import PromptTheme.Time.Instant

namespace PromptTheme

structure Metadata where
  id : String
  name : String
  author : Option String := none
  description : Option String := none
  tags : List String := []
  created : Instant
  updated : Instant
  isPreset : Bool := false
deriving DecidableEq, Inhabited

/-- The fields of metadata to change; the others are left as they are. -/
structure MetadataPatch where
  name : Option String := none
  author : Option String := none
  description : Option String := none
  tags : Option (List String) := none
deriving DecidableEq, Inhabited

namespace Metadata

/-- The metadata of a new theme. -/
def fresh (id name : String) (now : Instant) : Metadata :=
  { id := id, name := name, created := now, updated := now }

/-- Marks an edit. -/
def touch (now : Instant) (m : Metadata) : Metadata := { m with updated := now }

/-- Sets what the patch has. An edit is marked even if the patch has nothing. -/
def apply (p : MetadataPatch) (now : Instant) (m : Metadata) : Metadata :=
  touch now { m with
    name := p.name.getD m.name
    author := p.author.or m.author
    description := p.description.or m.description
    tags := p.tags.getD m.tags }

end Metadata

structure Theme where
  metadata : Metadata
  config : Config
deriving Inhabited

namespace Theme

def id (t : Theme) : String := t.metadata.id

def name (t : Theme) : String := t.metadata.name

/-- What a new theme is called. -/
def untitledName : String := "Untitled Theme"

/-- A new theme with the initial configuration. -/
def untitled (id : String) (now : Instant) : Theme := ⟨.fresh id untitledName now, .initial⟩

end Theme

/-! ## Reading -/

def Json.Node.instant? (n : Json.Node) : Option Instant := n.string?.bind Instant.ofText?

namespace Metadata

/-- The fields, in the order of their array form. -/
def fields : List String :=
  ["id", "name", "author", "description", "tags", "created", "updated", "isPreset"]

def ofNode? (n : Json.Node) : Option Metadata := do
  let r ← Json.Record.ofNode? fields n
  let id ← r.required? 0 Json.Node.string?
  let name ← r.required? 1 Json.Node.string?
  let author ← r.getD? 2 (Json.Node.nullable? Json.Node.string?) none
  let description ← r.getD? 3 (Json.Node.nullable? Json.Node.string?) none
  let tags ← r.getD? 4 (Json.Node.list? Json.Node.string?) []
  let created ← r.required? 5 Json.Node.instant?
  let updated ← r.required? 6 Json.Node.instant?
  let isPreset ← r.getD? 7 Json.Node.bool? false
  some ⟨id, name, author, description, tags, created, updated, isPreset⟩

/-- Reads metadata from JSON text. -/
def ofJson? (text : String) : Option Metadata := (Json.parse? text).bind ofNode?

end Metadata

/-- Every field may be null or left out, but an array has all of them. -/
def MetadataPatch.ofNode? (n : Json.Node) : Option MetadataPatch := do
  let r ← Json.Record.ofNode? ["name", "author", "description", "tags"] n
  let name ← r.optional? 0 (Json.Node.nullable? Json.Node.string?)
  let author ← r.optional? 1 (Json.Node.nullable? Json.Node.string?)
  let description ← r.optional? 2 (Json.Node.nullable? Json.Node.string?)
  let tags ← r.optional? 3 (Json.Node.nullable? (Json.Node.list? Json.Node.string?))
  some ⟨name, author, description, tags⟩

namespace Theme

/-- The configuration of a theme is one level deep in the theme. -/
def configOfNode? (n : Json.Node) : Option Config :=
  match n.value? (Json.Node.maxNesting - 1) with
  | some (.table es) => some (.ofEntries es)
  | _ => none

def ofNode? (n : Json.Node) : Option Theme := do
  let r ← Json.Record.ofNode? ["metadata", "config"] n
  let metadata ← r.required? 0 Metadata.ofNode?
  let config ← r.required? 1 configOfNode?
  some ⟨metadata, config⟩

/-- Reads a theme from JSON text. -/
def ofJson? (text : String) : Option Theme := (Json.parse? text).bind ofNode?

end Theme

/-! ## Writing -/

namespace Metadata

/-- Metadata as a table; what is not set or empty is left out. -/
def toValue (m : Metadata) : Value := .table <|
  (m.author.toList.map fun s => ("author", .string s)) ++
  [("created", .string m.created.text)] ++
  (m.description.toList.map fun s => ("description", .string s)) ++
  [("id", .string m.id), ("isPreset", .bool m.isPreset), ("name", .string m.name)] ++
  (if m.tags.isEmpty then [] else [("tags", .array (m.tags.map .string))]) ++
  [("updated", .string m.updated.text)]

end Metadata

def Theme.toValue (t : Theme) : Value :=
  .table [("config", t.config.toValue), ("metadata", t.metadata.toValue)]

end PromptTheme
