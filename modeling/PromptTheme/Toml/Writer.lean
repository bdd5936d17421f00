/-
Writing a configuration as a TOML document. Nulls are left out. In each table the plain values come
first, then the sub-tables and the arrays of tables, each in key order; a table has a header when it
holds plain values or nothing at all.
-/
import PromptTheme.Config.Prune
import PromptTheme.Toml.Scalar

namespace PromptTheme.Toml

/-- Floats are written without exponent and keep at least one place. -/
def doubleText : DecimalText := ⟨fun _ => true, .up⟩

/-! ## Values on one line -/

def numberText : Number → List Char
  | .whole n => (toString n.val).toList
  | .double x => (x.text doubleText).toList

/-- Puts a separator between texts. -/
def joined (sep : List Char) : List (List Char) → List Char
  | [] => []
  | [t] => t
  | t :: ts => t ++ sep ++ joined sep ts

mutual

/-- The text of a value on one line. -/
def inlineText : Value → List Char
  | .null => []
  | .bool b => if b then "true".toList else "false".toList
  | .number n => numberText n
  | .string s => stringText s.toList
  | .array items => '[' :: joined [',', ' '] (itemTexts items) ++ [']']
  | .table [] => ['\x7b', '\x7d']
  | .table (e :: es) =>
    ['\x7b', ' '] ++ joined [',', ' '] (entryTexts (e :: es)) ++ [' ', '\x7d']

def itemTexts : List Value → List (List Char)
  | [] => []
  | v :: vs => inlineText v :: itemTexts vs

/-- The texts `key = value` of entries. -/
def entryTexts : List (String × Value) → List (List Char)
  | [] => []
  | (k, v) :: es => (segmentText k.toList ++ [' ', '=', ' '] ++ inlineText v) :: entryTexts es

end

/-! ## Sections -/

inductive Header where
  | root
  | table (path : List String)
  | element (path : List String)

/-- A header with the plain values below it. -/
structure Section where
  header : Header
  body : List (String × Value)

def isTable : Value → Bool
  | .table _ => true
  | _ => false

/-- The array is written as an array of tables. -/
def isTableArray (items : List Value) : Bool := !items.isEmpty && items.all isTable

/-- The value is written behind its key. -/
def isPlain : Value → Bool
  | .table _ => false
  | .array items => !isTableArray items
  | _ => true

def plainEntries (es : List (String × Value)) : List (String × Value) :=
  es.filter fun e => isPlain e.2

mutual

/-- The sections of the sub-tables and arrays of tables of the table at `path`. -/
def subSections (path : List String) : List (String × Value) → List Section
  | [] => []
  | (k, .table es) :: rest =>
    (if es.isEmpty || !(plainEntries es).isEmpty then
      [⟨.table (path ++ [k]), plainEntries es⟩] else []) ++
      subSections (path ++ [k]) es ++ subSections path rest
  | (k, .array items) :: rest =>
    (if isTableArray items then elementSections (path ++ [k]) items else []) ++
      subSections path rest
  | (_, _) :: rest => subSections path rest

/-- The sections of the elements of an array of tables. -/
def elementSections (path : List String) : List Value → List Section
  | [] => []
  | .table es :: rest =>
    ⟨.element path, plainEntries es⟩ :: subSections path es ++ elementSections path rest
  | _ :: rest => elementSections path rest

end

/-- The sections of a document. -/
def sections (es : List (String × Value)) : List Section :=
  ⟨.root, plainEntries es⟩ :: subSections [] es

/-! ## Document -/

def pathText (path : List String) : List Char :=
  joined ['.'] (path.map fun k => segmentText k.toList)

def headerText : Header → List Char
  | .root => []
  | .table path => '[' :: pathText path ++ [']', '\n']
  | .element path => '[' :: '[' :: pathText path ++ [']', ']', '\n']

def bodyText (es : List (String × Value)) : List Char :=
  (entryTexts es).flatMap (· ++ ['\n'])

/-- A blank line stands before each header that is not the first thing written. -/
def sectionsText (first : Bool) : List Section → List Char
  | [] => []
  | s :: rest =>
    match s.header with
    | .root => bodyText s.body ++ sectionsText (first && s.body.isEmpty) rest
    | header =>
      (if first then [] else ['\n']) ++ headerText header ++ bodyText s.body ++
        sectionsText false rest

mutual

/-- Every integer in the value is one that TOML knows. -/
def writable : Value → Bool
  | .number (.whole n) => inRange n.val
  | .array items => itemsWritable items
  | .table es => entriesWritable es
  | _ => true

def itemsWritable : List Value → Bool
  | [] => true
  | v :: vs => writable v && itemsWritable vs

def entriesWritable : List (String × Value) → Bool
  | [] => true
  | (_, v) :: es => writable v && entriesWritable es

end

end Toml

/-- The configuration as a TOML document. It fails when an integer is too large. -/
def Config.toToml? (c : Config) : Except ConfigError String :=
  let es := c.prune.entries
  if Toml.entriesWritable es then .ok (String.ofList (Toml.sectionsText true (Toml.sections es)))
  else .error .tomlRange

end PromptTheme
