/-
The laws of laying overlays. An overlay over an empty table is the overlay without its reserved keys, so
that every merge, however it comes about, lays the entries of one table over those of another
(`Config.merge_eq_mergeTables`); an overlay laid twice is laid once; a configuration laid over itself
stays the same; and overlays may be laid over each other first, where no value of the one in the middle
comes between two tables (`Config.merge_assoc`).

Each law is proved of values first, by induction on the overlay. Stripping an overlay beforehand makes no
difference, and two sorted tables are compared key by key, where `find?_mergeEntries` says what a merge
has.
-/
import PromptTheme.Proofs.Config.Pruned
import PromptTheme.Proofs.Config.Reserved

namespace PromptTheme

namespace Value

/-- What is there, if anything, is ordered. -/
abbrev OrderedIf (old : Option Value) : Prop := ∀ o, old = some o → o.Ordered

/-! ## Induction -/

mutual

/-- What holds of each value that is no table, and of a table when it holds of its entries, holds of all
values: an array is a value like any other for a merge, which takes it over as a whole. -/
theorem table_induction {P : Value → Prop} (leaf : ∀ v, v.asTable? = none → P v)
    (table : ∀ es : Keyed Value, (∀ k v, (k, v) ∈ es → P v) → P (.table es)) : ∀ v, P v
  | .table es => table es (entries_induction leaf table es)
  | .array items => leaf (.array items) rfl
  | .null => leaf .null rfl
  | .bool b => leaf (.bool b) rfl
  | .number n => leaf (.number n) rfl
  | .string s => leaf (.string s) rfl

theorem entries_induction {P : Value → Prop} (leaf : ∀ v, v.asTable? = none → P v)
    (table : ∀ es : Keyed Value, (∀ k v, (k, v) ∈ es → P v) → P (.table es)) :
    ∀ (es : List (String × Value)) (k : String) (v : Value), (k, v) ∈ es → P v
  | [], _, _, hm => by cases hm
  | (l, u) :: es, k, v, hm => by
    rcases List.mem_cons.1 hm with he | hm
    · cases he
      exact table_induction leaf table u
    · exact entries_induction leaf table es k v hm

end

/-! ## Stripped overlays -/

theorem strip_strip (v : Value) : v.strip.strip = v.strip := strip_eq_self (hasReserved_strip v)

mutual

/-- An overlay may be stripped before it is laid. -/
theorem laidOver_strip : ∀ (v : Value) (old : Option Value), v.strip.laidOver old = v.laidOver old
  | .table new, old => by
    rw [strip, laidOver_table, laidOver_table]
    cases old.bind asTable? with
    | some es => exact congrArg _ (mergeEntries_stripEntries new es)
    | none => exact strip_strip (.table new)
  | .array items, old => strip_strip (.array items)
  | .null, _ => rfl
  | .bool _, _ => rfl
  | .number _, _ => rfl
  | .string _, _ => rfl

theorem mergeEntries_stripEntries : ∀ (overlay base : List (String × Value)),
    mergeEntries base (stripEntries overlay) = mergeEntries base overlay
  | [], _ => rfl
  | (k, v) :: rest, base => by
    rw [stripEntries, mergeEntries]
    by_cases hk : isReserved k = true
    · rw [if_pos hk, if_pos hk, mergeEntries_stripEntries rest base]
    · rw [if_neg hk, if_neg hk, mergeEntries, if_neg hk, laidOver_strip v,
        mergeEntries_stripEntries rest _]

end

/-! ## Tables without a base -/

/-- An overlay over nothing is stripped. -/
theorem mergeEntries_nil {overlay : Keyed Value} (h : (Value.table overlay).Ordered) :
    mergeEntries [] overlay = stripEntries overlay := by
  apply (ordered_mergeEntries Config.empty.ordered h.2).1.ext (sorted_stripEntries h.1)
  intro key
  rw [find?_mergeEntries _ _ h.1, find?_stripEntries]
  show (if isReserved key then none else _) = _
  cases Keyed.find? key overlay with
  | none => rfl
  | some v =>
    show (if isReserved key then none else some (v.laidOver none)) = _
    rw [laidOver_none, Option.map_some]

/-- The entries of a table; what is no table has none. -/
def entriesOf (old : Option Value) : Keyed Value := (old.bind asTable?).getD []

theorem entriesOf_table (es : Keyed Value) : entriesOf (some (.table es)) = es := rfl

theorem ordered_entriesOf {old : Option Value} (h : OrderedIf old) :
    (Value.table (entriesOf old)).Ordered := by
  unfold entriesOf
  cases ht : old.bind asTable? with
  | none => exact Config.empty.ordered
  | some es =>
    obtain ⟨v, hv, hes⟩ := Option.bind_eq_some_iff.1 ht
    rw [Option.getD_some, ← asTable?_eq_some_iff.1 hes]
    exact h v hv

/-- A table is laid over the entries of what is there. -/
theorem laidOver_table_eq {new : Keyed Value} (h : (Value.table new).Ordered) (old : Option Value) :
    (Value.table new).laidOver old = .table (mergeEntries (entriesOf old) new) := by
  rw [laidOver_table]
  unfold entriesOf
  cases old.bind asTable? with
  | none => exact congrArg _ (mergeEntries_nil h).symm
  | some es => rfl

/-! ## An overlay laid twice -/

/-- A value laid over what it has made changes nothing. -/
theorem laidOver_laidOver {v : Value} (hv : v.Ordered) {old : Option Value} (ho : OrderedIf old) :
    v.laidOver (some (v.laidOver old)) = v.laidOver old := by
  induction v using table_induction generalizing old with
  | leaf v h => rw [laidOver_of_not_table h, laidOver_of_not_table h]
  | table new ih =>
    rw [laidOver_table_eq hv old, laidOver_table_eq hv, entriesOf_table]
    have hes := ordered_entriesOf ho
    congr 1
    apply mergeEntries_eq_self (ordered_mergeEntries hes hv.2).1
    intro k v hm hk
    -- under a key that the overlay writes, the base of the second merge has what the first one made
    refine ⟨v.laidOver (Keyed.find? k (entriesOf old)), ?_, ?_⟩
    · rw [find?_mergeEntries _ _ hv.1, hk, if_neg Bool.false_ne_true, hv.1.find?_of_mem hm]
    · exact ih k v hm (ordered_of_find? hv.2 (hv.1.find?_of_mem hm))
        fun o hf => ordered_of_find? hes.2 hf

/-! ## A value laid over itself -/

/-- An array with a reserved key in it. -/
def isTaintedArray : Value → Bool
  | .array items => itemsHaveReserved items
  | _ => false

theorem any_of_mem {p : Value → Bool} {es : Keyed Value} (h : anyEntry p es = false) {k : String}
    {v : Value} (hm : (k, v) ∈ es) : v.any p = false := by
  induction es with
  | nil => cases hm
  | cons e rest ih =>
    obtain ⟨l, u⟩ := e
    rw [anyEntry, Bool.or_eq_false_iff] at h
    rcases List.mem_cons.1 hm with he | hm
    · cases he
      exact h.1
    · exact ih h.2 hm

/-- Only an array can lose something over itself. -/
theorem laidOver_self {v : Value} (hv : v.Ordered) (hc : v.any isTaintedArray = false) :
    v.laidOver (some v) = v := by
  induction v using table_induction with
  | leaf v h =>
    rw [laidOver_of_not_table h]
    cases v with
    | table es => cases h
    | array items =>
      rw [any, Bool.or_eq_false_iff] at hc
      exact strip_eq_self hc.1
    | _ => rfl
  | table es ih =>
    rw [any, Bool.or_eq_false_iff] at hc
    show Value.table (mergeEntries es es) = .table es
    congr 1
    apply mergeEntries_eq_self hv.1
    intro k v hm _
    have hf := hv.1.find?_of_mem hm
    exact ⟨v, hf, ih k v hm (ordered_of_find? hv.2 hf) (any_of_mem hc.2 hm)⟩

/-! ## Three values -/

/-- If `a` and `c` are tables, then what `b` is, if anything, is a table too. -/
def Bridged (a b c : Option Value) : Prop :=
  (a.bind asTable?).isSome → (c.bind asTable?).isSome → b.isSome → (b.bind asTable?).isSome

instance (a b c : Option Value) : Decidable (Bridged a b c) := inferInstanceAs (Decidable (_ → _ → _ → _))

/-- At each path of keys. -/
def BridgedBelow (a b c : Option Value) : Prop :=
  ∀ path, Bridged (a.bind (Config.followKeys · path)) (b.bind (Config.followKeys · path))
    (c.bind (Config.followKeys · path))

theorem bind_followKeys_nil (old : Option Value) : old.bind (Config.followKeys · []) = old := by
  cases old <;> rfl

theorem bind_followKeys_cons (old : Option Value) (key : String) (rest : List String) :
    old.bind (Config.followKeys · (key :: rest)) =
      (Keyed.find? key (entriesOf old)).bind (Config.followKeys · rest) := by
  cases old with
  | none => rfl
  | some v => cases v <;> rfl

theorem bridgedBelow_iff {a b c : Option Value} : BridgedBelow a b c ↔ Bridged a b c ∧
    ∀ key, BridgedBelow (Keyed.find? key (entriesOf a)) (Keyed.find? key (entriesOf b))
      (Keyed.find? key (entriesOf c)) := by
  constructor
  · intro h
    constructor
    · have hnil := h []
      rwa [bind_followKeys_nil, bind_followKeys_nil, bind_followKeys_nil] at hnil
    · intro key rest
      have hcons := h (key :: rest)
      rwa [bind_followKeys_cons, bind_followKeys_cons, bind_followKeys_cons] at hcons
  · rintro ⟨hnil, hcons⟩ path
    cases path with
    | nil => rwa [bind_followKeys_nil, bind_followKeys_nil, bind_followKeys_nil]
    | cons key rest =>
      rw [bind_followKeys_cons, bind_followKeys_cons, bind_followKeys_cons]
      exact hcons key rest

/-- Where neither `a` nor `b` is a table, a table is laid over nothing. -/
theorem laidOver_assoc_of_not_table {a : Option Value} {b : Value} (ha : a.bind asTable? = none)
    (hb : b.asTable? = none) (cs : Keyed Value) :
    (Value.table cs).laidOver (some (b.laidOver a)) = ((Value.table cs).laidOver (some b)).laidOver a := by
  rw [laidOver_of_not_table hb, laidOver_table, laidOver_table, Option.bind_some, Option.bind_some,
    asTable?_strip hb, hb]
  show _ = (Value.table cs).strip.laidOver a
  rw [laidOver_strip, laidOver_table, ha]

/-- Three values may be laid over each other in either order, when at no path of keys the one in the
middle has a value that is no table between two tables. -/
theorem laidOver_assoc {c : Value} (hc : c.Ordered) {a : Option Value} (ha : OrderedIf a) {b : Value}
    (hb : b.Ordered) (h : BridgedBelow a (some b) (some c)) :
    c.laidOver (some (b.laidOver a)) = (c.laidOver (some b)).laidOver a := by
  induction c using table_induction generalizing a b with
  | leaf c hl =>
    rw [laidOver_of_not_table hl, laidOver_of_not_table hl, laidOver_strip, laidOver_of_not_table hl]
  | table cs ih =>
    obtain ⟨hroot, hbelow⟩ := bridgedBelow_iff.1 h
    cases ht : b.asTable? with
    | none =>
      apply laidOver_assoc_of_not_table _ ht
      rw [← Option.not_isSome_iff_eq_none]
      intro hsome
      have hbs := hroot hsome rfl rfl
      rw [Option.bind_some, ht] at hbs
      cases hbs
    | some bs =>
      obtain rfl := asTable?_eq_some_iff.1 ht
      have has := ordered_entriesOf ha
      have hbc := ordered_mergeEntries hb hc.2
      have hab := ordered_mergeEntries has hb.2
      rw [laidOver_table_eq hb, laidOver_table_eq hc, laidOver_table_eq hc, entriesOf_table,
        entriesOf_table, laidOver_table_eq hbc]
      congr 1
      apply (ordered_mergeEntries hab hc.2).1.ext (ordered_mergeEntries has hbc.2).1
      intro key
      rw [find?_mergeEntries _ _ hc.1, find?_mergeEntries _ _ hb.1, find?_mergeEntries _ _ hbc.1,
        find?_mergeEntries _ _ hc.1]
      by_cases hk : isReserved key = true
      · simp only [if_pos hk]
      simp only [if_neg hk]
      have hkey := hbelow key
      rw [entriesOf_table, entriesOf_table] at hkey
      cases hfc : Keyed.find? key cs with
      | none => rfl
      | some v =>
        cases hfb : Keyed.find? key bs with
        | none =>
          -- what `c` has is stripped when it is laid over `b`
          simp only [laidOver_none, laidOver_strip]
        | some u =>
          rw [hfc, hfb] at hkey
          simp only
          congr 1
          apply ih key v (Keyed.mem_of_find? hfc) (ordered_of_find? hc.2 hfc) _
            (ordered_of_find? hb.2 hfb) hkey
          intro o hfa
          exact ordered_of_find? has.2 hfa

/-! ## Checking three values -/

mutual

/-- Whether `a` and the given value are bridged by `b` at each path of keys. -/
def bridges (a b : Option Value) : Value → Bool
  | .table cs => decide (Bridged a b (some (.table cs))) && entriesBridged (entriesOf a) (entriesOf b) cs
  | _ => true

def entriesBridged (as bs : Keyed Value) : List (String × Value) → Bool
  | [] => true
  | (k, v) :: cs => bridges (Keyed.find? k as) (Keyed.find? k bs) v && entriesBridged as bs cs

end

theorem entriesBridged_iff {as bs cs : Keyed Value} : entriesBridged as bs cs = true ↔
    ∀ k v, (k, v) ∈ cs → bridges (Keyed.find? k as) (Keyed.find? k bs) v = true := by
  induction cs with
  | nil => simp [entriesBridged]
  | cons e rest ih =>
    obtain ⟨k, v⟩ := e
    rw [entriesBridged, Bool.and_eq_true, ih]
    simp [or_imp, forall_and]

theorem bridges_of_not_table {c : Value} (hc : c.asTable? = none) (a b : Option Value) :
    bridges a b c = true := by
  cases c with
  | table cs => cases hc
  | _ => rfl

/-- Nothing stands between a value and what is no table. -/
theorem bridgedBelow_of_not_table {c : Option Value} (hc : c.bind asTable? = none) (a b : Option Value) :
    BridgedBelow a b c := by
  rintro path - hpath -
  cases c with
  | none => cases hpath
  | some v =>
    rw [Option.bind_some] at hc hpath
    rw [Config.followKeys_of_not_table hc] at hpath
    split at hpath
    · rw [Option.bind_some, hc] at hpath
      cases hpath
    · cases hpath

theorem bridges_iff {c : Value} (hc : c.Ordered) {a b : Option Value} :
    bridges a b c = true ↔ BridgedBelow a b (some c) := by
  induction c using table_induction generalizing a b with
  | leaf c hl =>
    have hbelow : BridgedBelow a b (some c) := bridgedBelow_of_not_table (c := some c) hl a b
    exact ⟨fun _ => hbelow, fun _ => bridges_of_not_table hl a b⟩
  | table cs ih =>
    rw [bridges, Bool.and_eq_true, decide_eq_true_iff, entriesBridged_iff, bridgedBelow_iff,
      entriesOf_table]
    apply and_congr_right'
    constructor
    · intro h key
      cases hf : Keyed.find? key cs with
      | none => exact bridgedBelow_of_not_table rfl _ _
      | some v =>
        have hm := Keyed.mem_of_find? hf
        exact (ih key v hm (ordered_of_find? hc.2 hf)).1 (h key v hm)
    · intro h k v hm
      have hf := hc.1.find?_of_mem hm
      apply (ih k v hm (ordered_of_find? hc.2 hf)).2
      rw [← hf]
      exact h k

end Value

namespace Config

/-! ## Merging -/

/-- A merge with nothing to do gives what the merge of the tables would give. -/
theorem merge_eq_mergeTables (base overlay : Config) : base.merge overlay = base.mergeTables overlay := by
  apply eq_of_entries
  show _ = Value.mergeEntries base.entries overlay.entries
  rcases entries_merge base overlay with h | ⟨hb, h⟩
  · exact h
  · rw [h, hb, Value.mergeEntries_nil overlay.ordered]

theorem toValue_merge (base overlay : Config) :
    (base.merge overlay).toValue = overlay.toValue.laidOver (some base.toValue) := by
  rw [merge_eq_mergeTables]
  rfl

theorem eq_of_toValue {a b : Config} (h : a.toValue = b.toValue) : a = b :=
  eq_of_entries (Value.table.inj h)

theorem orderedIf_toValue (c : Config) : Value.OrderedIf (some c.toValue) := by
  rintro _ ⟨⟩
  exact c.ordered

theorem merge_merge_self (base overlay : Config) :
    (base.merge overlay).merge overlay = base.merge overlay := by
  apply eq_of_toValue
  rw [toValue_merge, toValue_merge]
  exact Value.laidOver_laidOver overlay.ordered base.orderedIf_toValue

/-- There is no reserved key inside an array of the configuration. -/
def ArraysUnreserved (c : Config) : Prop := c.toValue.any Value.isTaintedArray = false

instance (c : Config) : Decidable c.ArraysUnreserved :=
  inferInstanceAs (Decidable (c.toValue.any Value.isTaintedArray = false))

theorem merge_self {c : Config} (h : c.ArraysUnreserved) : c.merge c = c := by
  apply eq_of_toValue
  rw [toValue_merge]
  exact Value.laidOver_self c.ordered h

/-! ## Overlays in a row -/

/-- Wherever `a` and `c` both have a table, `b` has a table or nothing. -/
def Bridges (a b c : Config) : Prop := ∀ path, Value.Bridged (a.path? path) (b.path? path) (c.path? path)

theorem bridges_iff_below {a b c : Config} :
    Bridges a b c ↔ Value.BridgedBelow (some a.toValue) (some b.toValue) (some c.toValue) := by
  constructor
  · intro h path
    cases path with
    | nil => exact fun _ _ _ => rfl
    | cons key rest => exact h (key :: rest)
  · intro h path
    cases path with
    | nil => rintro ⟨⟩
    | cons key rest => exact h (key :: rest)

instance (a b c : Config) : Decidable (Bridges a b c) :=
  decidable_of_iff _ ((Value.bridges_iff c.ordered).trans bridges_iff_below.symm)

theorem merge_assoc {a b c : Config} (h : Bridges a b c) : (a.merge b).merge c = a.merge (b.merge c) := by
  apply eq_of_toValue
  rw [toValue_merge, toValue_merge, toValue_merge, toValue_merge]
  exact Value.laidOver_assoc c.ordered a.orderedIf_toValue b.ordered (bridges_iff_below.1 h)

/-- A value between two tables: the last table is laid over nothing, or over the first one. -/
example :
    let a : Config := .ofEntries [("m", .table [("x", .null)])]
    let b : Config := .ofEntries [("m", .null)]
    let c : Config := .ofEntries [("m", .table [("y", .null)])]
    ¬ a.Bridges b c ∧ ((a.merge b).merge c).sameAs (a.merge (b.merge c)) = false := by
  decide

/-- A walk in an overlay that ends at a value which is no table finds that value there. -/
theorem followKeys_of_walk : ∀ {path : List String} {es : Keyed Value} {v : Value},
    walkEntries es path = .leaf v → followKeys (.table es) path = some v ∧ v.asTable? = none
  | [], _, _, h => by cases h
  | key :: rest, es, v, h => by
    rw [walkEntries] at h
    rw [followKeys_table]
    split at h
    · cases h
    · cases hf : Keyed.find? key es with
      | none =>
        rw [hf] at h
        cases h
      | some w =>
        rw [hf] at h
        simp only at h
        cases ht : w.asTable? with
        | some inner =>
          rw [ht] at h
          obtain rfl := Value.asTable?_eq_some_iff.1 ht
          exact followKeys_of_walk h
        | none =>
          rw [ht] at h
          cases rest with
          | nil =>
            cases h
            exact ⟨rfl, ht⟩
          | cons => cases h

/-- Overlays that are merged keep tables apart only if one of them does. -/
theorem Bridges.merge {a b c d : Config} (hb : Bridges a b d) (hc : Bridges a c d) :
    Bridges a (b.merge c) d := by
  intro path
  cases path with
  | nil => rintro ⟨⟩
  | cons key rest =>
    intro ha hd hmerged
    have hwalk : (b.merge c).path? (key :: rest) =
        (walkEntries c.entries (key :: rest)).over (b.path? (key :: rest)) := by
      rw [merge_eq_mergeTables]
      exact followKeys_mergeEntries (key :: rest) b.entries c.entries c.ordered
    rw [hwalk] at hmerged ⊢
    cases hw : walkEntries c.entries (key :: rest) with
    | leaf v =>
      -- `c` itself would have no table there
      obtain ⟨hv, ht⟩ := followKeys_of_walk hw
      have hpath : c.path? (key :: rest) = some v := hv
      have hsome := hc (key :: rest) ha hd
      rw [hpath, Option.bind_some, ht] at hsome
      cases hsome rfl
    | blocked =>
      rw [hw] at hmerged
      cases hmerged
    | absent =>
      rw [hw] at hmerged
      exact hb (key :: rest) ha hd hmerged
    | table new =>
      rw [Walk.over]
      split <;> rfl

/-- Overlays that are laid over a configuration one after the other may be merged first. -/
theorem foldl_merge (a : Config) : ∀ {rest : List Config} {b : Config},
    (b :: rest).Pairwise (Bridges a) → rest.foldl Config.merge (a.merge b) = a.merge (rest.foldl Config.merge b)
  | [], _, _ => rfl
  | c :: rest, b, h => by
    obtain ⟨hb, hrest⟩ := List.pairwise_cons.1 h
    obtain ⟨hc, hpairs⟩ := List.pairwise_cons.1 hrest
    rw [List.foldl_cons, List.foldl_cons, merge_assoc (hb c List.mem_cons_self)]
    apply foldl_merge a
    apply List.Pairwise.cons _ hpairs
    intro d hd
    exact (hb d (List.mem_cons_of_mem _ hd)).merge (hc d hd)

end Config

end PromptTheme
