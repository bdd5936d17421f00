/-
Configuration trees: a table whose tables are all sorted. Lookups go by key, by path, or by the
settings that a prompt knows (its format, its modules, its palettes); `set` and `unset` change one
top-level key.
-/
import PromptTheme.Value
import PromptTheme.Config.Error

namespace PromptTheme

/-- What a value is called in messages. -/
def Value.kindName : Value → String
  | .null => "null"
  | .bool _ => "a boolean"
  | .number _ => "a number"
  | .string _ => "a string"
  | .array _ => "an array"
  | .table _ => "a table"

structure Config where
  entries : Keyed Value
  ordered : (Value.table entries).Ordered

namespace Config

def empty : Config := ⟨[], by simp [Value.Ordered, Value.OrderedEntries, Keyed.Sorted]⟩

instance : Inhabited Config := ⟨empty⟩

/-- The configuration with the given entries; of equal keys the last one stays. -/
def ofEntries (es : List (String × Value)) : Config :=
  ⟨Value.normalizeEntries [] es,
    by simpa [Value.normalize] using Value.ordered_normalize (.table es)⟩

/-- The configuration that a document holds. -/
def ofValue? : Value → Except ConfigError Config
  | .table es => .ok (ofEntries es)
  | v => .error (.notATable v.kindName)

def toValue (c : Config) : Value := .table c.entries

def isEmpty (c : Config) : Bool := c.entries.isEmpty

/-- Equality of content. -/
def sameAs (a b : Config) : Bool := Value.sameEntries a.entries b.entries

theorem sameAs_refl (c : Config) : c.sameAs c = true := Value.sameEntries_refl c.entries

/-! ## Lookup -/

def find? (c : Config) (key : String) : Option Value := Keyed.find? key c.entries

/-- Follows keys from table to table. -/
def followKeys (v : Value) : List String → Option Value
  | [] => some v
  | key :: rest =>
    match v with
    | .table es => (Keyed.find? key es).bind (followKeys · rest)
    | _ => none

/-- The value at a path of keys; the empty path leads nowhere. -/
def path? (c : Config) : List String → Option Value
  | [] => none
  | key :: rest => (c.find? key).bind (followKeys · rest)

theorem followKeys_append (v : Value) (p q : List String) :
    followKeys v (p ++ q) = (followKeys v p).bind (followKeys · q) := by
  induction p generalizing v with
  | nil => rfl
  | cons key p ih =>
    cases v with
    | table es =>
      show (Keyed.find? key es).bind _ = ((Keyed.find? key es).bind _).bind _
      rw [Option.bind_assoc]
      exact congrArg _ (funext ih)
    | _ => rfl

theorem path?_append {c : Config} {p : List String} (hp : p ≠ []) (q : List String) :
    c.path? (p ++ q) = (c.path? p).bind (followKeys · q) := by
  cases p with
  | nil => exact absurd rfl hp
  | cons key p => exact followKeys_append c.toValue (key :: p) q

theorem ordered_of_followKeys {v w : Value} {path : List String} (hv : v.Ordered)
    (h : followKeys v path = some w) : w.Ordered := by
  induction path generalizing v with
  | nil =>
    cases h
    exact hv
  | cons key rest ih =>
    cases v with
    | table es =>
      obtain ⟨u, hu, hw⟩ := Option.bind_eq_some_iff.1 h
      exact ih (Value.ordered_of_find? hv.2 hu) hw
    | _ => cases h

/-- Every value in a configuration is sorted. -/
theorem ordered_of_path? {c : Config} {path : List String} {v : Value} (h : c.path? path = some v) :
    v.Ordered := by
  cases path with
  | nil => cases h
  | cons key rest =>
    have hfollow : followKeys c.toValue (key :: rest) = some v := h
    exact ordered_of_followKeys c.ordered hfollow

/-- The format string of the prompt. -/
def format? (c : Config) : Option String := (c.find? "format").bind Value.asString?

/-- The table of a module. -/
def module? (c : Config) (name : String) : Option (Keyed Value) :=
  (c.find? name).bind Value.asTable?

/-- A string in the table of a module. -/
def moduleString? (c : Config) (name key : String) : Option String :=
  ((c.module? name).bind (Keyed.find? key)).bind Value.asString?

/-- The table of a module says `disabled = true`. -/
def isDisabled (c : Config) (name : String) : Bool :=
  (((c.module? name).bind (Keyed.find? "disabled")).bind Value.asBool?).getD false

/-- The table under `custom` that defines a module of the user's own. -/
def customModule? (c : Config) (name : String) : Option (Keyed Value) :=
  ((c.module? "custom").bind (Keyed.find? name)).bind Value.asTable?

/-- The palette of a configuration that selects none. -/
def defaultPalette : String := "global"

/-- The name of the selected palette. -/
def paletteName (c : Config) : String :=
  ((c.find? "palette").bind Value.asString?).getD defaultPalette

/-- The selected palette is the one that a string under `palette` names, or else the default one. -/
theorem paletteName_eq_iff {c : Config} {name : String} : c.paletteName = name ↔
    c.find? "palette" = some (.string name) ∨
      (∀ s, c.find? "palette" ≠ some (.string s)) ∧ name = defaultPalette := by
  unfold paletteName
  cases c.find? "palette" with
  | none => simp [eq_comm]
  | some v => cases v <;> simp [Value.asString?, eq_comm]

/-- The names and colors of the selected palette, in key order; what is no string is left out. -/
def paletteEntries (c : Config) : List (String × String) :=
  match (c.path? ["palettes", c.paletteName]).bind Value.asTable? with
  | some es => es.filterMap fun (name, v) => v.asString?.map (name, ·)
  | none => []

/-! ## Change -/

theorem ordered_insert {es : Keyed Value} (h : (Value.table es).Ordered) (key : String) {v : Value}
    (hv : v.Ordered) : (Value.table (Keyed.insert key v es)).Ordered :=
  ⟨h.1.insert key v, Value.orderedEntries_insert h.2 key hv⟩

/-- The configuration with `value` under `key`. -/
def set (c : Config) (key : String) (value : Value) : Config :=
  ⟨Keyed.insert key value.normalize c.entries,
    ordered_insert c.ordered key (Value.ordered_normalize value)⟩

theorem ordered_erase {es : Keyed Value} (h : (Value.table es).Ordered) (key : String) :
    (Value.table (Keyed.erase key es)).Ordered := by
  refine ⟨h.1.erase key, ?_⟩
  have h2 := Value.orderedEntries_iff.1 h.2
  exact Value.orderedEntries_iff.2 fun e he => h2 e (Keyed.mem_erase he)

/-- The configuration without `key`; none when it has no such key. -/
def unset? (c : Config) (key : String) : Option Config :=
  match c.find? key with
  | none => none
  | some _ => some ⟨Keyed.erase key c.entries, ordered_erase c.ordered key⟩

end Config

end PromptTheme
