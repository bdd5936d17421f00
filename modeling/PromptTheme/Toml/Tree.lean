/-
The tree that a TOML document builds up. Each table remembers how it came about, because that
decides what may still be added to it: a header opens a table once, dotted keys extend only tables
that dotted keys made, and an array of tables grows at its end.
-/
import PromptTheme.Value

namespace PromptTheme.Toml

/-- How a table came about. -/
inductive Origin where
  /-- It has a header of its own. -/
  | header
  /-- A longer header passed through it. -/
  | implied
  /-- A dotted key passed through it. -/
  | dotted
deriving DecidableEq

inductive Item where
  | value (v : Value)
  | table (origin : Origin) (entries : List (String × Item))
  /-- An array of tables, first to last; each has a header. -/
  | tables (elements : List (List (String × Item)))

namespace Item

instance : Inhabited Item := ⟨.value .null⟩

/-- Changes the last element of a list; an empty list has none. -/
def updateLast? {α : Type} (f : α → Option α) : List α → Option (List α)
  | [] => none
  | [x] => (f x).map ([·])
  | x :: xs => (updateLast? f xs).map (x :: ·)

/-- Follows a path to a table and changes its entries. Missing tables are made with the given
origin, an array of tables stands for its last element, and `enter` says which tables may be
passed through. `change` learns how the table at the end came about. -/
def at? (made : Origin) (enter : Origin → Bool)
    (change : Origin → List (String × Item) → Option (List (String × Item))) :
    List String → Origin → List (String × Item) → Option (List (String × Item))
  | [], origin, es => change origin es
  | key :: rest, _, es =>
    match Keyed.find? key es with
    | none => (at? made enter change rest made []).map fun t => Keyed.insert key (.table made t) es
    | some (.table origin t) =>
      if enter origin then
        (at? made enter change rest origin t).map fun t => Keyed.insert key (.table origin t) es
      else none
    | some (.tables elements) =>
      (updateLast? (at? made enter change rest .header) elements).map fun elements =>
        Keyed.insert key (.tables elements) es
    | some (.value _) => none

/-- The path without its last key, and that key. -/
def splitLast : List String → List String × String
  | [] => ([], "")
  | [k] => ([], k)
  | k :: ks => (k :: (splitLast ks).1, (splitLast ks).2)

/-- Sets a dotted key in a table. The table at the end of the dots has to be one that dotted keys
made, and the last key has to be new. -/
def assign? (path : List String) (v : Value) (es : List (String × Item)) :
    Option (List (String × Item)) :=
  let (front, key) := splitLast path
  at? .dotted (· ≠ .header)
    (fun origin t =>
      if front.isEmpty ∨ origin = .dotted then
        match Keyed.find? key t with
        | none => some (Keyed.insert key (.value v) t)
        | some _ => none
      else none)
    front .header es

/-- Opens the table at the end of a path. -/
def openTable? (path : List String) (es : List (String × Item)) : Option (List (String × Item)) :=
  let (front, key) := splitLast path
  at? .implied (fun _ => true)
    (fun _ t =>
      match Keyed.find? key t with
      | none => some (Keyed.insert key (.table .header []) t)
      | some (.table .implied inner) => some (Keyed.insert key (.table .header inner) t)
      | some _ => none)
    front .header es

/-- Adds an element to the array of tables at the end of a path. -/
def openElement? (path : List String) (es : List (String × Item)) : Option (List (String × Item)) :=
  let (front, key) := splitLast path
  at? .implied (fun _ => true)
    (fun _ t =>
      match Keyed.find? key t with
      | none => some (Keyed.insert key (.tables [[]]) t)
      | some (.tables elements) => some (Keyed.insert key (.tables (elements ++ [[]])) t)
      | some _ => none)
    front .header es

/-- Sets a dotted key in the table that the last header opened. -/
def assignIn? (header path : List String) (v : Value) (es : List (String × Item)) :
    Option (List (String × Item)) :=
  at? .implied (fun _ => true) (fun _ t => assign? path v t) header .header es

/-! ## Value -/

mutual

def toValue : Item → Value
  | .value v => v
  | .table _ es => .table (entryValues es)
  | .tables elements => .array (elementValues elements)

def entryValues : List (String × Item) → List (String × Value)
  | [] => []
  | (k, item) :: es => (k, item.toValue) :: entryValues es

def elementValues : List (List (String × Item)) → List Value
  | [] => []
  | es :: rest => .table (entryValues es) :: elementValues rest

end

end Item

/-- The value of an inline table with the given dotted keys. -/
def inlineTable? (pairs : List (List String × Value)) : Option Value :=
  (pairs.foldlM (fun es (path, v) => Item.assign? path v es) []).map fun es =>
    .table (Item.entryValues es)

end PromptTheme.Toml
