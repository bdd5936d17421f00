/-
The syntax tree of a JSON text. A text can be well formed and still hold something that has no
value: a number beyond the floats, a lone surrogate. Such leaves are `none`; they only matter where
the leaf is read. `Node.value?` reads a whole tree, with a bound on the nesting.
-/
import PromptTheme.Value

namespace PromptTheme.Json

inductive Node where
  | null
  | bool (b : Bool)
  | number (n : Option Number)
  | string (s : Option String)
  | array (items : List Node)
  | object (members : List (Option String × Node))

namespace Node

instance : Inhabited Node := ⟨.null⟩

/-- The deepest nesting of arrays and objects that is read. -/
def maxNesting : Nat := 127

mutual

/-- The value of a tree whose arrays and objects nest at most `levels` deep. Of equal keys the
last one stays. -/
def value? (levels : Nat) : Node → Option Value
  | .null => some .null
  | .bool b => some (.bool b)
  | .number n => n.map .number
  | .string s => s.map .string
  | .array items =>
    if levels = 0 then none else (items? (levels - 1) items).map .array
  | .object members =>
    if levels = 0 then none else (entries? (levels - 1) [] members).map .table

def items? (levels : Nat) : List Node → Option (List Value)
  | [] => some []
  | n :: ns =>
    match n.value? levels, items? levels ns with
    | some v, some vs => some (v :: vs)
    | _, _ => none

/-- Adds the members to the entries read so far. -/
def entries? (levels : Nat) (sofar : List (String × Value)) :
    List (Option String × Node) → Option (List (String × Value))
  | [] => some sofar
  | (key, n) :: rest =>
    match key, n.value? levels with
    | some k, some v => entries? levels (Keyed.insert k v sofar) rest
    | _, _ => none

end

mutual

/-- The tree of a value. -/
def ofValue : Value → Node
  | .null => .null
  | .bool b => .bool b
  | .number n => .number (some n)
  | .string s => .string (some s)
  | .array items => .array (ofItems items)
  | .table es => .object (ofEntries es)

def ofItems : List Value → List Node
  | [] => []
  | v :: vs => ofValue v :: ofItems vs

def ofEntries : List (String × Value) → List (Option String × Node)
  | [] => []
  | (k, v) :: es => (some k, ofValue v) :: ofEntries es

end

end Node

end PromptTheme.Json
