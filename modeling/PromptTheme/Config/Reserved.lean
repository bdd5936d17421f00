/-
Reserved keys, which no overlay may write. `Value.strip` takes them away at every depth, and
`Value.hasReserved` looks for one. An imported theme is untrusted text, so both look into arrays
too.
-/
import PromptTheme.Config.Basic

namespace PromptTheme

/-- The keys that are ignored wherever they occur in an overlay. -/
def reservedKeys : List String := ["__proto__", "prototype", "constructor"]

def isReserved (key : String) : Bool := reservedKeys.contains key

namespace Value

mutual

/-- The value without its reserved keys, at every depth. -/
def strip : Value → Value
  | .array items => .array (stripItems items)
  | .table es => .table (stripEntries es)
  | v => v

def stripItems : List Value → List Value
  | [] => []
  | v :: vs => v.strip :: stripItems vs

def stripEntries : List (String × Value) → List (String × Value)
  | [] => []
  | (k, v) :: es => if isReserved k then stripEntries es else (k, v.strip) :: stripEntries es

end

mutual

/-- There is a reserved key in the value, at any depth. -/
def hasReserved : Value → Bool
  | .array items => itemsHaveReserved items
  | .table es => entriesHaveReserved es
  | _ => false

def itemsHaveReserved : List Value → Bool
  | [] => false
  | v :: vs => v.hasReserved || itemsHaveReserved vs

def entriesHaveReserved : List (String × Value) → Bool
  | [] => false
  | (k, v) :: es => isReserved k || v.hasReserved || entriesHaveReserved es

end

/-! ## Order -/

/-- Stripping keeps keys or drops them. -/
theorem keys_stripEntries_sublist (es : List (String × Value)) :
    ((stripEntries es).map Prod.fst).Sublist (es.map Prod.fst) := by
  induction es with
  | nil => simp [stripEntries]
  | cons e rest ih =>
    obtain ⟨k, v⟩ := e
    simp only [stripEntries]
    split
    · exact ih.cons _
    · simpa using ih

theorem sorted_iff_keys {es : List (String × Value)} :
    Keyed.Sorted es ↔ (es.map Prod.fst).Pairwise (· < ·) := by
  simp [Keyed.Sorted, List.pairwise_map]

theorem sorted_stripEntries {es : List (String × Value)} (h : Keyed.Sorted es) :
    Keyed.Sorted (stripEntries es) :=
  sorted_iff_keys.2 ((sorted_iff_keys.1 h).sublist (keys_stripEntries_sublist es))

mutual

theorem ordered_strip : ∀ {v : Value}, v.Ordered → v.strip.Ordered
  | .array items, h => by
    simp only [strip, Ordered] at h ⊢
    exact orderedItems_stripItems h
  | .table es, h => by
    simp only [strip, Ordered] at h ⊢
    exact ⟨sorted_stripEntries h.1, orderedEntries_stripEntries h.2⟩
  | .null, _ => by simp [strip, Ordered]
  | .bool _, _ => by simp [strip, Ordered]
  | .number _, _ => by simp [strip, Ordered]
  | .string _, _ => by simp [strip, Ordered]

theorem orderedItems_stripItems : ∀ {vs : List Value}, OrderedItems vs →
    OrderedItems (stripItems vs)
  | [], _ => by simp [stripItems, OrderedItems]
  | _ :: _, h => by
    simp only [stripItems, OrderedItems] at h ⊢
    exact ⟨ordered_strip h.1, orderedItems_stripItems h.2⟩

theorem orderedEntries_stripEntries :
    ∀ {es : List (String × Value)}, OrderedEntries es → OrderedEntries (stripEntries es)
  | [], _ => by simp [stripEntries, OrderedEntries]
  | (k, v) :: es, h => by
    simp only [stripEntries, OrderedEntries] at h ⊢
    split
    · exact orderedEntries_stripEntries h.2
    · exact ⟨ordered_strip h.1, orderedEntries_stripEntries h.2⟩

end

end Value

namespace Config

/-- The configuration without its reserved keys; none when it has none and can stay as it is. -/
def stripped? (c : Config) : Option Config :=
  if Value.entriesHaveReserved c.entries then
    some ⟨Value.stripEntries c.entries,
      ⟨Value.sorted_stripEntries c.ordered.1, Value.orderedEntries_stripEntries c.ordered.2⟩⟩
  else none

/-- The configuration without its reserved keys. -/
def sanitize (c : Config) : Config := c.stripped?.getD c

end Config

end PromptTheme
