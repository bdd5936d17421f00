/-
What sanitizing keeps and what it takes away. A position leads into a value by the keys of tables and the
places in arrays. `Config.Sanitized` says which positions are left: all that pass no reserved key, each
with its old value stripped, in arrays of the old length; and `Config.Handle.sanitize_exact` says that
sanitizing leaves just these, that it hands back the configuration itself exactly when there is nothing
to strip, and that it makes no difference to a merge.

The check for reserved keys and the stripping recurse separately. They agree because stripping changes
nothing where the check finds nothing, and leaves nothing for the check to find.
-/
import PromptTheme.Proofs.Config.Sharing

namespace PromptTheme

namespace Value

/-! ## Positions -/

/-- A step into a value: to what a table has under a key, or to a place in an array. -/
inductive Step where
  | key (k : String)
  | index (i : Nat)
deriving DecidableEq

/-- The value that a step leads to. -/
def child? : Value → Step → Option Value
  | .table es, .key k => Keyed.find? k es
  | .array items, .index i => items[i]?
  | _, _ => none

/-- The value at a position. -/
def at? (v : Value) : List Step → Option Value
  | [] => some v
  | step :: rest => (v.child? step).bind (at? · rest)

/-- The step goes by no reserved key. -/
def Step.isFree : Step → Bool
  | .key k => !isReserved k
  | .index _ => true

/-- Neither a table nor an array. -/
def isLeaf : Value → Bool
  | .array _ => false
  | .table _ => false
  | _ => true

/-! ## Stripping -/

theorem stripItems_eq_map (vs : List Value) : stripItems vs = vs.map strip := by
  induction vs with
  | nil => rfl
  | cons v rest ih => rw [stripItems, List.map_cons, ih]

theorem strip_of_isLeaf {v : Value} (h : v.isLeaf = true) : v.strip = v := by
  cases v with
  | array items => cases h
  | table es => cases h
  | _ => rfl

theorem child?_strip (v : Value) (step : Step) :
    v.strip.child? step = if step.isFree then (v.child? step).map strip else none := by
  cases v with
  | table es =>
    cases step with
    | key k =>
      show Keyed.find? k (stripEntries es) = _
      rw [find?_stripEntries]
      cases hk : isReserved k <;> simp [Step.isFree, child?, hk]
    | index i => rfl
  | array items =>
    cases step with
    | key k => simp [strip, child?]
    | index i =>
      show (stripItems items)[i]? = _
      rw [stripItems_eq_map, List.getElem?_map]
      rfl
  | _ => cases step <;> simp [strip, child?]

/-- Stripping leaves what is reached without a reserved key, stripped, and nothing else. -/
theorem at?_strip (v : Value) (path : List Step) :
    v.strip.at? path = if path.all Step.isFree then (v.at? path).map strip else none := by
  induction path generalizing v with
  | nil => rfl
  | cons step rest ih =>
    rw [at?, at?, child?_strip, List.all_cons]
    cases step.isFree with
    | false => rfl
    | true =>
      cases v.child? step with
      | none => simp
      | some w => simp [ih]

/-- A table stays as it is exactly when the check finds nothing in it. -/
theorem stripEntries_eq_self_iff {es : Keyed Value} :
    stripEntries es = es ↔ entriesHaveReserved es = false := by
  constructor
  · intro h
    rw [← h]
    exact entriesHaveReserved_stripEntries es
  · exact stripEntries_eq_self

end Value

namespace Config

/-! ## Sanitized configurations -/

/-- What is left of a configuration when the reserved keys are taken away. -/
structure Sanitized (c d : Config) : Prop where
  clean : d.NoReserved
  /-- What is reached without a reserved key is still there, stripped. -/
  kept : ∀ path v, path.all Value.Step.isFree = true → c.toValue.at? path = some v →
    d.toValue.at? path = some v.strip
  /-- A value that holds no others stays the same. -/
  leaf : ∀ path v, path.all Value.Step.isFree = true → c.toValue.at? path = some v → v.isLeaf = true →
    d.toValue.at? path = some v
  /-- An array keeps its length and its order. -/
  array : ∀ path items, path.all Value.Step.isFree = true → c.toValue.at? path = some (.array items) →
    d.toValue.at? path = some (.array (items.map Value.strip))
  /-- Nothing is added. -/
  origin : ∀ path w, d.toValue.at? path = some w →
    path.all Value.Step.isFree = true ∧ ∃ v, c.toValue.at? path = some v ∧ w = v.strip

theorem toValue_sanitize (c : Config) : c.sanitize.toValue = c.toValue.strip := by
  show Value.table c.sanitize.entries = .table (Value.stripEntries c.entries)
  rw [entries_sanitize]

theorem sanitized_sanitize (c : Config) : Sanitized c c.sanitize := by
  have hkept : ∀ path v, path.all Value.Step.isFree = true → c.toValue.at? path = some v →
      c.sanitize.toValue.at? path = some v.strip := by
    intro path v hpath hv
    rw [toValue_sanitize, Value.at?_strip, if_pos hpath, hv, Option.map_some]
  refine ⟨?_, hkept, ?_, ?_, ?_⟩
  · rw [noReserved_iff, entries_sanitize]
    exact Value.entriesHaveReserved_stripEntries c.entries
  · intro path v hpath hv hleaf
    rw [hkept path v hpath hv, Value.strip_of_isLeaf hleaf]
  · intro path items hpath hitems
    rw [hkept path _ hpath hitems, Value.strip, Value.stripItems_eq_map]
  · intro path w hw
    rw [toValue_sanitize, Value.at?_strip] at hw
    split at hw
    · rename_i hpath
      obtain ⟨v, hv, rfl⟩ := Option.map_eq_some_iff.1 hw
      exact ⟨hpath, v, hv, rfl⟩
    · cases hw

/-- An overlay may be sanitized before it is laid. -/
theorem merge_sanitize (base c : Config) : base.merge c.sanitize = base.merge c := by
  apply eq_of_toValue
  rw [toValue_merge, toValue_merge, toValue_sanitize, Value.laidOver_strip]

namespace Handle

/-! ## Handles -/

/-- Sanitizes a configuration. What is changed is put at the address `free`; otherwise the handle stays. -/
def sanitize (free : Nat) (h : Handle) : Handle :=
  match h.config.stripped? with
  | some c => ⟨free, c⟩
  | none => h

theorem config_sanitize (free : Nat) (h : Handle) : (sanitize free h).config = h.config.sanitize := by
  unfold sanitize Config.sanitize
  cases h.config.stripped? <;> rfl

theorem sanitize_of_noReserved (free : Nat) {h : Handle} (hc : h.config.NoReserved) :
    sanitize free h = h := by
  rw [sanitize, stripped?_eq_none_iff.2 hc]

theorem address_sanitize_of_reserved (free : Nat) {h : Handle} (hc : ¬ h.config.NoReserved) :
    (sanitize free h).address = free := by
  cases hs : h.config.stripped? with
  | none => exact absurd (stripped?_eq_none_iff.1 hs) hc
  | some c => rw [sanitize, hs]

/-- Sanitizing takes away the reserved keys, at any depth, and leaves everything else. It hands back the
configuration itself exactly when there is nothing to strip, which is when the check finds no reserved
key, and else puts the stripped one at the free address. A second time it changes nothing, and laying the
sanitized configuration over another gives what laying the configuration itself gives. -/
theorem sanitize_exact (free : Nat) (h : Handle) (hfree : free ≠ h.address) :
    let sanitized := sanitize free h
    sanitized.config = h.config.sanitize ∧
    Sanitized h.config sanitized.config ∧
    (sanitized.address = h.address ↔ Value.stripEntries h.config.entries = h.config.entries) ∧
    (∀ es, Value.entriesHaveReserved es = false ↔ Value.stripEntries es = es) ∧
    (∀ free', sanitize free' sanitized = sanitized) ∧
    ∀ base : Config, base.merge sanitized.config = base.merge h.config := by
  intro sanitized
  have hconfig : sanitized.config = h.config.sanitize := config_sanitize free h
  have hsanitized : Sanitized h.config sanitized.config := hconfig ▸ sanitized_sanitize h.config
  have haddress : sanitized.address = h.address ↔ h.config.NoReserved := by
    constructor
    · intro ha
      by_cases hc : h.config.NoReserved
      · exact hc
      · exact absurd ((address_sanitize_of_reserved free hc).symm.trans ha) hfree
    · intro hc
      exact congrArg address (sanitize_of_noReserved free hc)
  refine ⟨hconfig, hsanitized, ?_, fun es => Value.stripEntries_eq_self_iff.symm, ?_, ?_⟩
  · rw [haddress, noReserved_iff, Value.stripEntries_eq_self_iff]
  · intro free'
    exact sanitize_of_noReserved free' hsanitized.clean
  · intro base
    rw [hconfig, merge_sanitize]

/-- A reserved key below an array, and one beside it. -/
theorem sanitize_exact_nested :
    let c : Config := .ofEntries [
      ("list", .array [.table [("prototype", .bool true), ("n", .count 1)], .null]), ("constructor", .null)]
    let sanitized := sanitize 1 ⟨0, c⟩
    1 ≠ (⟨0, c⟩ : Handle).address ∧
      c.toValue.at? [.key "list", .index 0, .key "n"] = some (.count 1) ∧
      sanitized.config.toValue.at? [.key "list", .index 0, .key "n"] = some (.count 1) ∧
      sanitized.config.NoReserved ∧ sanitized.address ≠ 0 := by
  intro c sanitized
  have hn : c.toValue.at? [.key "list", .index 0, .key "n"] = some (.count 1) := rfl
  obtain ⟨-, hsanitized, haddress, hcheck, -, -⟩ := sanitize_exact 1 ⟨0, c⟩ (by decide)
  refine ⟨by decide, hn, hsanitized.leaf _ _ rfl hn rfl, hsanitized.clean, ?_⟩
  intro ha
  have hfound : Value.entriesHaveReserved c.entries = false := (hcheck c.entries).2 (haddress.1 ha)
  exact absurd hfound (by decide)

end Handle

end Config

end PromptTheme
