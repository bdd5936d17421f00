/-
Style records as JSON. A modifier is written as its name; it may also be read from an object whose
one member has that name and holds null.
-/
import PromptTheme.Json.Record
import PromptTheme.Style.Spec

namespace PromptTheme

def Modifier.ofNode? : Json.Node → Option Modifier
  | .string s => s.bind ofName?
  | .object [(key, .null)] => key.bind ofName?
  | _ => none

namespace StyleRecord

/-- Reads a record whose fields may all be left out. -/
def ofNode? (n : Json.Node) : Option StyleRecord := do
  let r ← Json.Record.ofNode? ["modifiers", "background", "foreground"] n
  let modifiers ← r.getD? 0 (Json.Node.list? Modifier.ofNode?) []
  let background ← r.getD? 1 (Json.Node.nullable? Json.Node.string?) none
  let foreground ← r.getD? 2 (Json.Node.nullable? Json.Node.string?) none
  some ⟨modifiers.foldl Modifiers.add {}, background, foreground⟩

/-- The record as a table; colors that are not set are left out. -/
def toValue (r : StyleRecord) : Value := .table <|
  ("modifiers", .array (r.modifiers.toList.map fun m => .string m.name)) ::
    (r.background.toList.map fun c => ("background", .string c)) ++
    (r.foreground.toList.map fun c => ("foreground", .string c))

end StyleRecord

end PromptTheme
