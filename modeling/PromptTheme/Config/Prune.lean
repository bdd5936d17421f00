/-
Taking the nulls out of a configuration, from tables and from arrays, at every depth. Tables and
arrays that become empty stay.
-/
import PromptTheme.Config.Reserved

namespace PromptTheme

namespace Value

mutual

/-- The value without the nulls inside it. -/
def prune : Value → Value
  | .array items => .array (pruneItems items)
  | .table es => .table (pruneEntries es)
  | v => v

def pruneItems : List Value → List Value
  | [] => []
  | v :: vs => if v.isNull then pruneItems vs else v.prune :: pruneItems vs

def pruneEntries : List (String × Value) → List (String × Value)
  | [] => []
  | (k, v) :: es => if v.isNull then pruneEntries es else (k, v.prune) :: pruneEntries es

end

/-! ## Order -/

theorem keys_pruneEntries_sublist (es : List (String × Value)) :
    ((pruneEntries es).map Prod.fst).Sublist (es.map Prod.fst) := by
  induction es with
  | nil => simp [pruneEntries]
  | cons e rest ih =>
    obtain ⟨k, v⟩ := e
    simp only [pruneEntries]
    split
    · exact ih.cons _
    · simpa using ih

theorem sorted_pruneEntries {es : List (String × Value)} (h : Keyed.Sorted es) :
    Keyed.Sorted (pruneEntries es) :=
  sorted_iff_keys.2 ((sorted_iff_keys.1 h).sublist (keys_pruneEntries_sublist es))

mutual

theorem ordered_prune : ∀ {v : Value}, v.Ordered → v.prune.Ordered
  | .array items, h => by
    simp only [prune, Ordered] at h ⊢
    exact orderedItems_pruneItems h
  | .table es, h => by
    simp only [prune, Ordered] at h ⊢
    exact ⟨sorted_pruneEntries h.1, orderedEntries_pruneEntries h.2⟩
  | .null, _ => by simp [prune, Ordered]
  | .bool _, _ => by simp [prune, Ordered]
  | .number _, _ => by simp [prune, Ordered]
  | .string _, _ => by simp [prune, Ordered]

theorem orderedItems_pruneItems : ∀ {vs : List Value}, OrderedItems vs →
    OrderedItems (pruneItems vs)
  | [], _ => by simp [pruneItems, OrderedItems]
  | v :: vs, h => by
    simp only [pruneItems, OrderedItems] at h ⊢
    split
    · exact orderedItems_pruneItems h.2
    · exact ⟨ordered_prune h.1, orderedItems_pruneItems h.2⟩

theorem orderedEntries_pruneEntries :
    ∀ {es : List (String × Value)}, OrderedEntries es → OrderedEntries (pruneEntries es)
  | [], _ => by simp [pruneEntries, OrderedEntries]
  | (k, v) :: es, h => by
    simp only [pruneEntries, OrderedEntries] at h ⊢
    split
    · exact orderedEntries_pruneEntries h.2
    · exact ⟨ordered_prune h.1, orderedEntries_pruneEntries h.2⟩

end

end Value

namespace Config

/-- The configuration without nulls. -/
def prune (c : Config) : Config :=
  ⟨Value.pruneEntries c.entries,
    ⟨Value.sorted_pruneEntries c.ordered.1, Value.orderedEntries_pruneEntries c.ordered.2⟩⟩

end Config

end PromptTheme
