/-
Reading records with named fields. A record is an object, or an array of its fields in declared
order. Unknown members are skipped unread, a declared field may not occur twice, and an array may
leave out trailing fields only where the field has a default.
-/
import PromptTheme.Json.Node

namespace PromptTheme.Json

/-- The nodes of the declared fields, in declared order. -/
structure Record where
  positional : Bool
  nodes : List (Option Node)

namespace Record

/-- Puts a member in its place; none when its place is taken. -/
def place? (key : String) (node : Node) :
    List String → List (Option Node) → Option (List (Option Node))
  | name :: names, slot :: slots =>
    if key = name then
      if slot.isSome then none else some (some node :: slots)
    else (place? key node names slots).map (slot :: ·)
  | _, slots => some slots

def members? (names : List String) (slots : List (Option Node)) :
    List (Option String × Node) → Option (List (Option Node))
  | [] => some slots
  | (some key, node) :: rest =>
    match place? key node names slots with
    | some slots => members? names slots rest
    | none => none
  | (none, _) :: _ => none

/-- Reads a node as a record with the given fields. -/
def ofNode? (names : List String) : Node → Option Record
  | .object members => (members? names (names.map fun _ => none) members).map (⟨false, ·⟩)
  | .array items =>
    if items.length ≤ names.length then
      some ⟨true, items.map some ++ List.replicate (names.length - items.length) none⟩
    else none
  | _ => none

def node? (r : Record) (i : Nat) : Option Node := (r.nodes[i]?).join

/-- A field that must be there. -/
def required? {α : Type} (r : Record) (i : Nat) (read : Node → Option α) : Option α :=
  (r.node? i).bind read

/-- A field with a default for when it is left out. -/
def getD? {α : Type} (r : Record) (i : Nat) (read : Node → Option α) (default : α) : Option α :=
  match r.node? i with
  | some n => read n
  | none => some default

/-- A field that an object may leave out, but an array may not. -/
def optional? {α : Type} (r : Record) (i : Nat) (read : Node → Option (Option α)) :
    Option (Option α) :=
  match r.node? i with
  | some n => read n
  | none => if r.positional then none else some none

end Record

namespace Node

def string? : Node → Option String
  | .string s => s
  | _ => none

def bool? : Node → Option Bool
  | .bool b => some b
  | _ => none

/-- Null, or what `read` accepts. -/
def nullable? {α : Type} (read : Node → Option α) : Node → Option (Option α)
  | .null => some none
  | n => (read n).map some

def list? {α : Type} (read : Node → Option α) : Node → Option (List α)
  | .array items => items.mapM read
  | _ => none

/-- An object whose values are all strings. Of equal keys the last one stays. -/
def strings? : Node → Option (Dict String)
  | .object members =>
    members.foldlM (fun d (key, node) =>
      match key, node.string? with
      | some k, some v => some (d.insert k v)
      | _, _ => none) Dict.empty
  | _ => none

end Node

end PromptTheme.Json
