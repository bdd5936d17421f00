/-
A configuration without its nulls, laid over the configuration itself. Pruning drops nulls from tables
and from arrays; a merge keeps what a table has and the overlay does not, but takes over arrays as they
are, without their reserved keys. `Config.merge_prune` says that the two cancel out when no array has a
null or a reserved key in it, wherever else the configuration has them.
-/
import PromptTheme.Config.Prune
import PromptTheme.Proofs.Config.Overlay

namespace PromptTheme

namespace Value

/-! ## Values with a property somewhere -/

mutual

/-- The value or one in it, at any depth of tables and arrays, has the property. -/
def any (p : Value → Bool) : Value → Bool
  | .array items => p (.array items) || anyItem p items
  | .table es => p (.table es) || anyEntry p es
  | v => p v

def anyItem (p : Value → Bool) : List Value → Bool
  | [] => false
  | v :: vs => v.any p || anyItem p vs

def anyEntry (p : Value → Bool) : List (String × Value) → Bool
  | [] => false
  | (_, v) :: es => v.any p || anyEntry p es

end

/-- There is a null in the value. -/
def hasNull (v : Value) : Bool := v.any isNull

theorem isNull_of_hasNull {v : Value} (h : v.hasNull = false) : v.isNull = false := by
  cases v with
  | null => exact h
  | _ => rfl

/-! ## Pruning -/

mutual

/-- Without nulls there is nothing to prune. -/
theorem prune_eq_self : ∀ {v : Value}, v.hasNull = false → v.prune = v
  | .array items, h => by
    rw [hasNull, any, Bool.or_eq_false_iff] at h
    rw [prune, pruneItems_eq_self h.2]
  | .table es, h => by
    rw [hasNull, any, Bool.or_eq_false_iff] at h
    rw [prune, pruneEntries_eq_self h.2]
  | .null, _ => rfl
  | .bool _, _ => rfl
  | .number _, _ => rfl
  | .string _, _ => rfl

theorem pruneItems_eq_self : ∀ {vs : List Value}, anyItem isNull vs = false → pruneItems vs = vs
  | [], _ => rfl
  | v :: vs, h => by
    rw [anyItem, Bool.or_eq_false_iff] at h
    rw [pruneItems, isNull_of_hasNull h.1, if_neg Bool.false_ne_true, prune_eq_self h.1, pruneItems_eq_self h.2]

theorem pruneEntries_eq_self : ∀ {es : List (String × Value)}, anyEntry isNull es = false →
    pruneEntries es = es
  | [], _ => rfl
  | (k, v) :: es, h => by
    rw [anyEntry, Bool.or_eq_false_iff] at h
    rw [pruneEntries, isNull_of_hasNull h.1, if_neg Bool.false_ne_true, prune_eq_self h.1, pruneEntries_eq_self h.2]

end

/-! ## Nesting -/

mutual

/-- How deep tables and arrays are nested in the value; the value itself counts. -/
def depth : Value → Nat
  | .array items => itemsDepth items + 1
  | .table es => entriesDepth es + 1
  | _ => 0

def itemsDepth : List Value → Nat
  | [] => 0
  | v :: vs => max v.depth (itemsDepth vs)

def entriesDepth : List (String × Value) → Nat
  | [] => 0
  | (_, v) :: es => max v.depth (entriesDepth es)

end

mutual

/-- Pruning does not nest deeper. -/
theorem depth_prune_le : ∀ v : Value, v.prune.depth ≤ v.depth
  | .array items => by
    rw [prune, depth, depth]
    exact Nat.succ_le_succ (itemsDepth_pruneItems_le items)
  | .table es => by
    rw [prune, depth, depth]
    exact Nat.succ_le_succ (entriesDepth_pruneEntries_le es)
  | .null => Nat.le_refl _
  | .bool _ => Nat.le_refl _
  | .number _ => Nat.le_refl _
  | .string _ => Nat.le_refl _

theorem itemsDepth_pruneItems_le : ∀ vs : List Value, itemsDepth (pruneItems vs) ≤ itemsDepth vs
  | [] => Nat.le_refl _
  | v :: vs => by
    have hv := depth_prune_le v
    have hvs := itemsDepth_pruneItems_le vs
    rw [pruneItems]
    split <;> simp only [itemsDepth] <;> omega

theorem entriesDepth_pruneEntries_le : ∀ es : List (String × Value),
    entriesDepth (pruneEntries es) ≤ entriesDepth es
  | [] => Nat.le_refl _
  | (k, v) :: es => by
    have hv := depth_prune_le v
    have hes := entriesDepth_pruneEntries_le es
    rw [pruneEntries]
    split <;> simp only [entriesDepth] <;> omega

end

mutual

/-- Pruning leaves no null inside. -/
theorem hasNull_prune : ∀ {v : Value}, v.isNull = false → v.prune.hasNull = false
  | .array items, _ => by
    rw [prune, hasNull, any, anyItem_pruneItems items]
    rfl
  | .table es, _ => by
    rw [prune, hasNull, any, anyEntry_pruneEntries es]
    rfl
  | .null, h => by cases h
  | .bool _, _ => rfl
  | .number _, _ => rfl
  | .string _, _ => rfl

theorem anyItem_pruneItems : ∀ vs : List Value, anyItem isNull (pruneItems vs) = false
  | [] => rfl
  | v :: vs => by
    rw [pruneItems]
    split
    next => exact anyItem_pruneItems vs
    next h =>
      have hv := hasNull_prune (Bool.eq_false_iff.2 h)
      rw [hasNull] at hv
      rw [anyItem, hv, anyItem_pruneItems vs]
      rfl

theorem anyEntry_pruneEntries : ∀ es : List (String × Value), anyEntry isNull (pruneEntries es) = false
  | [] => rfl
  | (k, v) :: es => by
    rw [pruneEntries]
    split
    next => exact anyEntry_pruneEntries es
    next h =>
      have hv := hasNull_prune (Bool.eq_false_iff.2 h)
      rw [hasNull] at hv
      rw [anyEntry, hv, anyEntry_pruneEntries es]
      rfl

end

/-! ## Laying back -/

mutual

/-- No array in the value has a null or a reserved key in it, at any depth. -/
def cleanArrays : Value → Bool
  | .array items => !anyItem isNull items && !itemsHaveReserved items
  | .table es => entriesCleanArrays es
  | _ => true

def entriesCleanArrays : List (String × Value) → Bool
  | [] => true
  | (_, v) :: es => v.cleanArrays && entriesCleanArrays es

end

mutual

/-- A pruned value laid over the value itself. -/
theorem laidOver_prune : ∀ {v : Value}, v.Ordered → v.cleanArrays = true →
    v.prune.laidOver (some v) = v
  | .array items, _, h => by
    rw [cleanArrays, Bool.and_eq_true, Bool.not_eq_true', Bool.not_eq_true'] at h
    -- an array is taken over as a whole, so that nothing may be missing from it
    rw [prune, pruneItems_eq_self h.1, laidOver, stripItems_eq_self h.2]
  | .table es, ho, h => by
    rw [cleanArrays] at h
    rw [prune, laidOver]
    congr 1
    -- an entry that is null is not in the overlay, and the merge keeps it
    refine mergeEntries_eq_self ho.1 fun k v hm _ => ?_
    obtain ⟨w, hw, hl⟩ := laidOver_pruneEntries ho.2 h hm
    exact ⟨w, ho.1.find?_of_mem hw, hl⟩
  | .null, _, _ => rfl
  | .bool _, _, _ => rfl
  | .number _, _, _ => rfl
  | .string _, _, _ => rfl

theorem laidOver_pruneEntries : ∀ {es : List (String × Value)}, OrderedEntries es →
    entriesCleanArrays es = true → ∀ {k : String} {v : Value}, (k, v) ∈ pruneEntries es →
    ∃ w, (k, w) ∈ es ∧ v.laidOver (some w) = w
  | [], _, _, _, _, hm => by cases hm
  | (l, u) :: es, ho, h, k, v, hm => by
    rw [entriesCleanArrays, Bool.and_eq_true] at h
    have hrest : (k, v) ∈ pruneEntries es → ∃ w, (k, w) ∈ (l, u) :: es ∧ v.laidOver (some w) = w := by
      intro hm
      obtain ⟨w, hw, hl⟩ := laidOver_pruneEntries ho.2 h.2 hm
      exact ⟨w, List.mem_cons_of_mem _ hw, hl⟩
    rw [pruneEntries] at hm
    split at hm
    · exact hrest hm
    · rcases List.mem_cons.1 hm with he | hm
      · cases he
        exact ⟨u, List.mem_cons_self, laidOver_prune ho.1 h.1⟩
      · exact hrest hm

end

end Value

namespace Config

/-- No array of the configuration has a null or a reserved key in it, at any depth. -/
def ArraysClean (c : Config) : Prop := Value.entriesCleanArrays c.entries = true

instance (c : Config) : Decidable c.ArraysClean :=
  inferInstanceAs (Decidable (Value.entriesCleanArrays c.entries = true))

theorem eq_of_entries {a b : Config} (h : a.entries = b.entries) : a = b := by
  obtain ⟨_, _⟩ := a
  obtain ⟨_, _⟩ := b
  cases h
  rfl

/-- A configuration does not change under itself without its nulls. -/
theorem merge_prune {c : Config} (h : c.ArraysClean) : c.merge c.prune = c := by
  have hlaid := Value.laidOver_prune (v := .table c.entries) c.ordered h
  rw [Value.prune, Value.laidOver, Value.table.injEq] at hlaid
  refine eq_of_entries ?_
  rcases entries_merge c c.prune with he | ⟨hc, he⟩
  · rw [he]
    exact hlaid
  · have hprune : c.prune.entries = [] := by
      show Value.pruneEntries c.entries = []
      rw [hc, Value.pruneEntries]
    rw [he, hprune, hc, Value.stripEntries]

end Config

end PromptTheme
