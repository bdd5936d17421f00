/-
What is left of a configuration without its nulls. Nulls go from tables and from arrays, and where one
goes from an array the elements behind it move up. `Value.moved` says where a position leads then, and
`Value.at?_prune_iff` that the positions of a pruned value are just these, of what was no null, with the
old values pruned. `Config.prune_exact` reads this along paths of keys, in arrays and in tables; pruning
twice is pruning once, and it changes nothing exactly when there is no null.
-/
import PromptTheme.Proofs.Config.Pruned
import PromptTheme.Proofs.Config.Sanitize
import Mathlib.Data.List.Basic

namespace PromptTheme

/-! ## Lists without some of their elements -/

/-- What is left at a place is what stays with so many before it that stay. -/
theorem getElem?_filter_iff {α : Type} {p : α → Bool} {l : List α} {j : Nat} {x : α} :
    (l.filter p)[j]? = some x ↔ ∃ i, l[i]? = some x ∧ p x = true ∧ l.countPBefore p i = j := by
  simp only [List.getElem?_eq_some_iff]
  constructor
  · rintro ⟨hj, rfl⟩
    have hlt : j < l.countP p := by rwa [List.countP_eq_length_filter]
    refine ⟨l.findIdxNth p j, ⟨List.findIdxNth_lt_length_iff.2 hlt, ?_⟩,
      (List.mem_filter.1 (List.getElem_mem hj)).2, List.countPBefore_findIdxNth_of_lt_countP hlt⟩
    simp only [List.getElem_filter_eq_getElem_getElem_findIdxs, List.getElem_findIdxs_eq_findIdxNth]
  · rintro ⟨i, ⟨hi, rfl⟩, hx, rfl⟩
    have hlt := List.countPBefore_lt_countP_of_lt_length_of_pos hx
    refine ⟨by rwa [← List.countP_eq_length_filter], ?_⟩
    simp only [List.getElem_filter_eq_getElem_getElem_findIdxs, List.getElem_findIdxs_eq_findIdxNth,
      List.findIdxNth_countPBefore_of_lt_length_of_pos hx]

namespace Value

/-! ## One level -/

/-- The value is not null. -/
def isKept (v : Value) : Bool := !v.isNull

theorem pruneItems_eq (vs : List Value) : pruneItems vs = (vs.filter isKept).map prune := by
  induction vs with
  | nil => rfl
  | cons v rest ih =>
    rw [pruneItems, List.filter_cons, isKept]
    cases v.isNull <;> simp [ih]

theorem pruneEntries_eq (es : List (String × Value)) :
    pruneEntries es = (es.filter fun e => e.2.isKept).map fun e => (e.1, e.2.prune) := by
  induction es with
  | nil => rfl
  | cons e rest ih =>
    obtain ⟨k, v⟩ := e
    rw [pruneEntries, List.filter_cons]
    show (if v.isNull then _ else _) = List.map _ (if (!v.isNull) = true then _ else _)
    cases v.isNull <;> simp [ih]

/-- Under a key of a sorted table there is what was there, pruned, unless that was null. -/
theorem find?_pruneEntries {es : Keyed Value} (h : Keyed.Sorted es) (key : String) :
    Keyed.find? key (pruneEntries es) = ((Keyed.find? key es).filter isKept).map prune := by
  have hselect : pruneEntries es =
      es.filterMap fun e => ((Option.guard isKept e.2).map prune).map (e.1, ·) := by
    rw [pruneEntries_eq, ← List.filterMap_eq_filter, List.map_filterMap]
    refine List.filterMap_congr fun e _ => ?_
    rw [Option.map_guard, Option.map_guard]
    split <;> rfl
  rw [hselect, h.find?_filterMap (fun v => (Option.guard isKept v).map prune), ← Option.bind_guard,
    Option.map_bind]
  rfl

theorem isNull_prune (v : Value) : v.prune.isNull = v.isNull := by
  cases v <;> simp [prune, isNull]

/-! ## Positions -/

/-- Where a step leads when the nulls are gone. -/
def movedStep : Value → Step → Step
  | .array items, .index i => .index (items.countPBefore isKept i)
  | _, step => step

/-- Where a position leads when the nulls are gone. -/
def moved (v : Value) : List Step → List Step
  | [] => []
  | step :: rest => v.movedStep step :: ((v.child? step).elim rest (moved · rest))

theorem ordered_of_mem {vs : List Value} (h : OrderedItems vs) {v : Value} (hm : v ∈ vs) : v.Ordered := by
  induction vs with
  | nil => cases hm
  | cons u rest ih =>
    rcases List.mem_cons.1 hm with rfl | hm
    · exact h.1
    · exact ih h.2 hm

theorem ordered_of_child? {v w : Value} {step : Step} (hv : v.Ordered) (h : v.child? step = some w) :
    w.Ordered := by
  unfold child? at h
  split at h
  · exact ordered_of_find? hv.2 h
  · exact ordered_of_mem hv (List.mem_of_getElem? h)
  · cases h

/-- Only tables and arrays have anything in them. -/
theorem isKept_of_child? {v w : Value} {step : Step} (h : v.child? step = some w) : v.isKept = true := by
  cases v with
  | null => cases h
  | _ => rfl

/-- The children of a pruned value are the old ones that are not null, pruned. -/
theorem child?_prune_iff {v w' : Value} {step' : Step} (hv : v.Ordered) :
    v.prune.child? step' = some w' ↔
      ∃ step w, v.movedStep step = step' ∧ v.child? step = some w ∧ w.isKept = true ∧ w.prune = w' := by
  cases v with
  | table es =>
    have hmoved : ∀ step, movedStep (.table es) step = step := fun _ => rfl
    simp only [hmoved, exists_and_left, exists_eq_left]
    cases step' with
    | key k =>
      show Keyed.find? k (pruneEntries es) = some w' ↔ ∃ w, Keyed.find? k es = some w ∧ _
      rw [find?_pruneEntries hv.1, Option.map_eq_some_iff]
      simp only [Option.filter_eq_some_iff, and_assoc]
    | index i => simp [prune, child?]
  | array items =>
    cases step' with
    | key k =>
      constructor
      · intro h
        cases h
      · rintro ⟨step, w, hstep, hw, -⟩
        cases step with
        | key k => cases hw
        | index i => cases hstep
    | index j =>
      show (pruneItems items)[j]? = some w' ↔ _
      rw [pruneItems_eq, List.getElem?_map, Option.map_eq_some_iff]
      constructor
      · rintro ⟨w, hw, rfl⟩
        obtain ⟨i, hi, hkept, hj⟩ := getElem?_filter_iff.1 hw
        exact ⟨.index i, w, congrArg Step.index hj, hi, hkept, rfl⟩
      · rintro ⟨step, w, hstep, hw, hkept, rfl⟩
        cases step with
        | key k => cases hw
        | index i => exact ⟨w, getElem?_filter_iff.2 ⟨i, hw, hkept, Step.index.inj hstep⟩, rfl⟩
  | _ => simp [prune, child?]

/-- The positions of a pruned value are where the old ones lead, of what is not null. -/
theorem at?_prune_iff {v w' : Value} {path' : List Step} (hv : v.Ordered) (hkept : v.isKept = true) :
    v.prune.at? path' = some w' ↔
      ∃ path w, v.moved path = path' ∧ v.at? path = some w ∧ w.isKept = true ∧ w.prune = w' := by
  induction path' generalizing v with
  | nil =>
    constructor
    · intro h
      exact ⟨[], v, rfl, rfl, hkept, Option.some.inj h⟩
    · rintro ⟨path, w, hpath, hw, -, rfl⟩
      cases path with
      | nil =>
        cases hw
        rfl
      | cons step rest => cases hpath
  | cons step' rest' ih =>
    rw [at?, Option.bind_eq_some_iff]
    constructor
    · rintro ⟨u', hu', hw'⟩
      obtain ⟨step, u, rfl, hu, hukept, rfl⟩ := (child?_prune_iff hv).1 hu'
      obtain ⟨rest, w, rfl, hw, hwkept, rfl⟩ := (ih (ordered_of_child? hv hu) hukept).1 hw'
      refine ⟨step :: rest, w, ?_, ?_, hwkept, rfl⟩
      · rw [moved, hu]
        rfl
      · rw [at?, hu]
        exact hw
    · rintro ⟨path, w, hpath, hw, hwkept, rfl⟩
      cases path with
      | nil => cases hpath
      | cons step rest =>
        rw [at?] at hw
        obtain ⟨u, hu, hw⟩ := Option.bind_eq_some_iff.1 hw
        rw [moved, hu] at hpath
        obtain ⟨rfl, rfl⟩ := List.cons.inj hpath
        have hukept : u.isKept = true := by
          cases rest with
          | nil =>
            cases hw
            exact hwkept
          | cons next more =>
            obtain ⟨x, hx, -⟩ := Option.bind_eq_some_iff.1 hw
            exact isKept_of_child? hx
        exact ⟨u.prune, (child?_prune_iff hv).2 ⟨step, u, rfl, hu, hukept, rfl⟩,
          (ih (ordered_of_child? hv hu) hukept).2 ⟨rest, w, rfl, hw, hwkept, rfl⟩⟩

example : (Value.array [.null, .bool true, .null, .array [.null, .bool false]]).moved [.index 3, .index 1] =
    [.index 1, .index 0] := rfl

/-! ## Paths of keys -/

theorem followKeys_prune {v : Value} (hv : v.Ordered) (hkept : v.isKept = true) (path : List String) :
    Config.followKeys v.prune path = ((Config.followKeys v path).filter isKept).map prune := by
  induction path generalizing v with
  | nil =>
    rw [Config.followKeys, Config.followKeys, Option.filter_some, if_pos hkept]
    rfl
  | cons key rest ih =>
    cases v with
    | table es =>
      show (Keyed.find? key (pruneEntries es)).bind _ = (((Keyed.find? key es).bind _).filter _).map _
      rw [find?_pruneEntries hv.1]
      cases hf : Keyed.find? key es with
      | none => rfl
      | some w =>
        rw [Option.filter_some]
        cases hw : w.isKept with
        | true => exact ih (ordered_of_find? hv.2 hf) hw
        | false =>
          -- a null has no keys, and is itself no longer there
          cases w with
          | null => cases rest <;> rfl
          | _ => cases hw
    | _ => rfl

/-! ## Nulls somewhere -/

mutual

/-- What has the property somewhere has it at a position. -/
theorem exists_at?_of_any {p : Value → Bool} : ∀ {v : Value}, v.Ordered → v.any p = true →
    ∃ path w, v.at? path = some w ∧ p w = true
  | .array items, ho, h => by
    rw [any, Bool.or_eq_true] at h
    rcases h with h | h
    · exact ⟨[], _, rfl, h⟩
    · obtain ⟨i, u, hu, path, w, hw, hp⟩ := exists_item_of_any ho h
      refine ⟨.index i :: path, w, ?_, hp⟩
      show (items[i]?).bind (at? · path) = some w
      rw [hu]
      exact hw
  | .table es, ho, h => by
    rw [any, Bool.or_eq_true] at h
    rcases h with h | h
    · exact ⟨[], _, rfl, h⟩
    · obtain ⟨k, u, hu, path, w, hw, hp⟩ := exists_entry_of_any ho.2 h
      refine ⟨.key k :: path, w, ?_, hp⟩
      show (Keyed.find? k es).bind (at? · path) = some w
      rw [ho.1.find?_of_mem hu]
      exact hw
  | .null, _, h => ⟨[], _, rfl, h⟩
  | .bool _, _, h => ⟨[], _, rfl, h⟩
  | .number _, _, h => ⟨[], _, rfl, h⟩
  | .string _, _, h => ⟨[], _, rfl, h⟩

theorem exists_item_of_any {p : Value → Bool} : ∀ {vs : List Value}, OrderedItems vs → anyItem p vs = true →
    ∃ (i : Nat) (u : Value), vs[i]? = some u ∧ ∃ path w, u.at? path = some w ∧ p w = true
  | [], _, h => by cases h
  | v :: vs, ho, h => by
    rw [anyItem, Bool.or_eq_true] at h
    rcases h with h | h
    · exact ⟨0, v, rfl, exists_at?_of_any ho.1 h⟩
    · obtain ⟨i, u, hu, hpath⟩ := exists_item_of_any ho.2 h
      exact ⟨i + 1, u, hu, hpath⟩

theorem exists_entry_of_any {p : Value → Bool} : ∀ {es : List (String × Value)}, OrderedEntries es →
    anyEntry p es = true → ∃ (k : String) (u : Value), (k, u) ∈ es ∧ ∃ path w, u.at? path = some w ∧ p w = true
  | [], _, h => by cases h
  | (k, v) :: es, ho, h => by
    rw [anyEntry, Bool.or_eq_true] at h
    rcases h with h | h
    · exact ⟨k, v, List.mem_cons_self, exists_at?_of_any ho.1 h⟩
    · obtain ⟨l, u, hu, hpath⟩ := exists_entry_of_any ho.2 h
      exact ⟨l, u, List.mem_cons_of_mem _ hu, hpath⟩

end

end Value

namespace Config

/-! ## Pruned configurations -/

/-- There is no null at any position. -/
def NullFree (c : Config) : Prop := ∀ path, c.toValue.at? path ≠ some .null

/-- What is left of a configuration when its nulls are taken away. -/
structure Pruned (c d : Config) : Prop where
  clean : d.NullFree
  /-- At a path of keys there is what was there, pruned, unless that was null; and else nothing. -/
  path : ∀ p, d.path? p = ((c.path? p).filter Value.isKept).map Value.prune
  /-- Every value but null has moved to its new position, pruned, and there is nothing else. -/
  position : ∀ path' w', d.toValue.at? path' = some w' ↔
    ∃ path w, c.toValue.moved path = path' ∧ c.toValue.at? path = some w ∧ w.isKept = true ∧ w.prune = w'
  /-- An array keeps what is not null, in its order. -/
  array : ∀ path items, c.toValue.at? path = some (.array items) →
    d.toValue.at? (c.toValue.moved path) = some (.array ((items.filter Value.isKept).map Value.prune))
  /-- A table keeps what is not null, and stays when that is nothing. -/
  table : ∀ path es, c.toValue.at? path = some (.table es) →
    d.toValue.at? (c.toValue.moved path) =
      some (.table ((es.filter fun e => e.2.isKept).map fun e => (e.1, e.2.prune)))
  /-- A value that holds no others stays the same. -/
  leaf : ∀ path v, c.toValue.at? path = some v → v.isLeaf = true → v.isKept = true →
    d.toValue.at? (c.toValue.moved path) = some v

theorem path?_prune (c : Config) (p : List String) :
    c.prune.path? p = ((c.path? p).filter Value.isKept).map Value.prune := by
  cases p with
  | nil => rfl
  | cons key rest => exact Value.followKeys_prune (v := c.toValue) c.ordered rfl (key :: rest)

theorem pruned_prune (c : Config) : Pruned c c.prune := by
  have hposition : ∀ path' w', c.prune.toValue.at? path' = some w' ↔
      ∃ path w, c.toValue.moved path = path' ∧ c.toValue.at? path = some w ∧ w.isKept = true ∧ w.prune = w' :=
    fun _ _ => Value.at?_prune_iff c.ordered rfl
  have hkept : ∀ path v, c.toValue.at? path = some v → v.isKept = true →
      c.prune.toValue.at? (c.toValue.moved path) = some v.prune :=
    fun path v hv hk => (hposition _ _).2 ⟨path, v, rfl, hv, hk, rfl⟩
  refine ⟨?_, path?_prune c, hposition, ?_, ?_, ?_⟩
  · intro path hnull
    obtain ⟨-, w, -, -, hw, hprune⟩ := (hposition _ _).1 hnull
    rw [Value.isKept, ← Value.isNull_prune, hprune] at hw
    cases hw
  · intro path items hitems
    rw [hkept path _ hitems rfl, Value.prune, Value.pruneItems_eq]
  · intro path es hes
    rw [hkept path _ hes rfl, Value.prune, Value.pruneEntries_eq]
  · intro path v hv hleaf hk
    rw [hkept path v hv hk]
    cases v with
    | array items => cases hleaf
    | table es => cases hleaf
    | _ => rfl

/-- Without nulls there is nothing to prune. -/
theorem prune_of_nullFree {c : Config} (h : c.NullFree) : c.prune = c := by
  have hnull : c.toValue.hasNull = false := by
    rw [Bool.eq_false_iff]
    intro hany
    obtain ⟨path, w, hw, hnull⟩ := Value.exists_at?_of_any c.ordered hany
    cases w with
    | null => exact h path hw
    | _ => cases hnull
  have hself : c.toValue.prune = c.toValue := Value.prune_eq_self hnull
  exact eq_of_toValue hself

/-- Pruning takes away the nulls, at any depth, and nothing else. A second time it changes nothing, and
the first time it changes nothing exactly when there is no null. -/
theorem prune_exact (c : Config) :
    Pruned c c.prune ∧ c.prune.prune = c.prune ∧ (c.prune = c ↔ c.NullFree) := by
  have hpruned := pruned_prune c
  refine ⟨hpruned, prune_of_nullFree hpruned.clean, ?_, prune_of_nullFree⟩
  intro h
  have hclean := hpruned.clean
  rwa [h] at hclean

end Config

end PromptTheme
