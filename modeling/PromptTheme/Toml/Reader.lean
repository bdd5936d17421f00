/-
Reading a TOML document: its statements, executed one after the other. A document may begin with a
byte order mark.
-/
import PromptTheme.Config.Basic
import PromptTheme.Toml.Statement

namespace PromptTheme.Toml

/-- The tree built so far, and the path of the table that is open. -/
structure Document where
  root : List (String × Item)
  header : List String

namespace Document

def empty : Document := ⟨[], []⟩

/-- Executes one statement; none when it contradicts what came before. -/
def step? (d : Document) : Statement → Option Document
  | .table path => (Item.openTable? path d.root).map (⟨·, path⟩)
  | .element path => (Item.openElement? path d.root).map (⟨·, path⟩)
  | .assign path v => (Item.assignIn? d.header path v d.root).map (⟨·, d.header⟩)

/-- The entries that a list of statements builds. -/
def run? (statements : List Statement) : Option (List (String × Value)) :=
  (statements.foldlM step? empty).map fun d => Item.entryValues d.root

end Document

/-- The text after a byte order mark. -/
def skipMark : List Char → List Char
  | '\uFEFF' :: rest => rest
  | s => s

/-- The entries of the root table of a document. -/
def parse? (text : String) : Option (List (String × Value)) :=
  let s := skipMark text.toList
  (statements? (s.length + 1) s).bind Document.run?

end Toml

/-- The configuration that a TOML document holds. -/
def Config.ofToml? (text : String) : Except ConfigError Config :=
  match Toml.parse? text with
  | some es => .ok (.ofEntries es)
  | none => .error .tomlSyntax

end PromptTheme
