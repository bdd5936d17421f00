/-
Laying one configuration over another. Tables that both sides have are merged, every other value of
the overlay replaces what the base has, and reserved keys of the overlay are never written. A merge
that has nothing to do hands back one of its inputs, and `Config.Merged` says which.
-/
import PromptTheme.Config.Reserved

namespace PromptTheme

namespace Value

mutual

/-- What comes under a key that holds `old` when the overlay has the given value there. -/
def laidOver (old : Option Value) : Value → Value
  | .array items => .array (stripItems items)
  | .table new =>
    match old with
    | some (.table es) => .table (mergeEntries es new)
    | _ => .table (stripEntries new)
  | v => v

/-- Lays the entries of an overlay over a table. -/
def mergeEntries (base : List (String × Value)) :
    List (String × Value) → List (String × Value)
  | [] => base
  | (k, v) :: rest =>
    if isReserved k then mergeEntries base rest
    else mergeEntries (Keyed.insert k (v.laidOver (Keyed.find? k base)) base) rest

end

mutual

theorem ordered_laidOver : ∀ {old : Option Value} {v : Value}, (∀ o, old = some o → o.Ordered) →
    v.Ordered → (v.laidOver old).Ordered
  | _, .array items, _, h => by
    simp only [laidOver, Ordered] at h ⊢
    exact orderedItems_stripItems h
  | old, .table new, ho, h => by
    unfold laidOver
    split
    · rename_i es
      exact ordered_mergeEntries (ho _ rfl) h.2
    · exact ⟨sorted_stripEntries h.1, orderedEntries_stripEntries h.2⟩
  | _, .null, _, _ => by simp [laidOver, Ordered]
  | _, .bool _, _, _ => by simp [laidOver, Ordered]
  | _, .number _, _, _ => by simp [laidOver, Ordered]
  | _, .string _, _, _ => by simp [laidOver, Ordered]

theorem ordered_mergeEntries : ∀ {base overlay : List (String × Value)},
    (Value.table base).Ordered → OrderedEntries overlay →
    (Value.table (mergeEntries base overlay)).Ordered
  | _, [], hb, _ => by simpa [mergeEntries] using hb
  | base, (k, v) :: rest, hb, ho => by
    unfold mergeEntries
    split
    · exact ordered_mergeEntries hb ho.2
    · refine ordered_mergeEntries (Config.ordered_insert hb k ?_) ho.2
      exact ordered_laidOver (fun o h => ordered_of_find? hb.2 h) ho.1

end

end Value

namespace Config

/-- Lays `overlay` over `base`, key by key. -/
def mergeTables (base overlay : Config) : Config :=
  ⟨Value.mergeEntries base.entries overlay.entries,
    Value.ordered_mergeEntries base.ordered overlay.ordered.2⟩

/-- The outcome of a merge: one of its inputs, or a new configuration. -/
inductive Merged where
  | base
  | overlay
  | fresh (c : Config)

/-- An empty overlay leaves the base; over an empty base the overlay stays as it is, unless it has
reserved keys. -/
def mergeShared (base overlay : Config) : Merged :=
  if overlay.isEmpty then .base
  else if base.isEmpty then
    match overlay.stripped? with
    | some c => .fresh c
    | none => .overlay
  else .fresh (mergeTables base overlay)

def Merged.content (base overlay : Config) : Merged → Config
  | .base => base
  | .overlay => overlay
  | .fresh c => c

/-- Lays `overlay` over `base`. -/
def merge (base overlay : Config) : Config := (mergeShared base overlay).content base overlay

end Config

end PromptTheme
