/-
The sections of a written table build up that table. They are taken one sub-table after the other: the
sections of a sub-table build its items inside the table that its header opens (`Toml.Builds`), and
those below a table lay all of its sub-tables where there is room for them (`Toml.Lays`). Each of the two
follows from the other one level below, and `Toml.run?_sections` is what remains at the root.
-/
import PromptTheme.Proofs.Config.Pruned
import PromptTheme.Proofs.Toml.Tree

namespace PromptTheme.Toml

/-! ## Sections below a key -/

/-- The section with a key in front of the path of its header. -/
def Section.under (k : String) (s : Section) : Section :=
  { s with header := match s.header with
    | .root => .root
    | .table path => .table (k :: path)
    | .element path => .element (k :: path) }

theorem statementsOf_under (k : String) (secs : List Section) :
    statementsOf (secs.map (·.under k)) = (statementsOf secs).map (·.under k) := by
  induction secs with
  | nil => rfl
  | cons s secs ih =>
    obtain ⟨header, body⟩ := s
    have hsection : ((⟨header, body⟩ : Section).under k).statements =
        (⟨header, body⟩ : Section).statements.map (·.under k) := by
      cases header <;> simp [Section.under, Section.statements, Statement.under, Function.comp_def]
    rw [statementsOf, statementsOf, List.map_cons, List.flatMap_cons, List.flatMap_cons, List.map_append,
      hsection]
    congr 1

/-- A plain value has no sections. -/
theorem subSections_of_isPlain {path : List String} {k : String} {v : Value} (h : isPlain v = true)
    {rest : List (String × Value)} : subSections path ((k, v) :: rest) = subSections path rest := by
  cases v with
  | table es => cases h
  | array items =>
    rw [isPlain, Bool.not_eq_true'] at h
    rw [subSections, h, if_neg Bool.false_ne_true, List.nil_append]
  | null => simp only [subSections]
  | bool b => simp only [subSections]
  | number n => simp only [subSections]
  | string s => simp only [subSections]

theorem elementSections_of_isTable {path : List String} {v : Value} (h : isTable v = false)
    {rest : List Value} : elementSections path (v :: rest) = elementSections path rest := by
  cases v with
  | table es => cases h
  | _ => simp only [elementSections]

mutual

theorem subSections_cons (k : String) (path : List String) : ∀ es : List (String × Value),
    subSections (k :: path) es = (subSections path es).map (·.under k)
  | [] => by
    rw [subSections, subSections]
    rfl
  | (l, .table es) :: rest => by
    rw [subSections, subSections, subSections_cons k path rest, List.cons_append,
      subSections_cons k (path ++ [l]) es, List.map_append, List.map_append]
    congr 2
    split <;> rfl
  | (l, .array items) :: rest => by
    rw [subSections, subSections, subSections_cons k path rest, List.cons_append,
      elementSections_cons k (path ++ [l]) items, List.map_append]
    congr 1
    split <;> rfl
  | (_, .null) :: rest => by
    rw [subSections_of_isPlain rfl, subSections_of_isPlain rfl, subSections_cons k path rest]
  | (_, .bool _) :: rest => by
    rw [subSections_of_isPlain rfl, subSections_of_isPlain rfl, subSections_cons k path rest]
  | (_, .number _) :: rest => by
    rw [subSections_of_isPlain rfl, subSections_of_isPlain rfl, subSections_cons k path rest]
  | (_, .string _) :: rest => by
    rw [subSections_of_isPlain rfl, subSections_of_isPlain rfl, subSections_cons k path rest]

theorem elementSections_cons (k : String) (path : List String) : ∀ vs : List Value,
    elementSections (k :: path) vs = (elementSections path vs).map (·.under k)
  | [] => by
    rw [elementSections, elementSections]
    rfl
  | .table es :: rest => by
    rw [elementSections, elementSections, subSections_cons k path es, elementSections_cons k path rest,
      List.map_append, List.map_cons]
    rfl
  | .null :: rest => by
    rw [elementSections_of_isTable rfl, elementSections_of_isTable rfl, elementSections_cons k path rest]
  | .bool _ :: rest => by
    rw [elementSections_of_isTable rfl, elementSections_of_isTable rfl, elementSections_cons k path rest]
  | .number _ :: rest => by
    rw [elementSections_of_isTable rfl, elementSections_of_isTable rfl, elementSections_cons k path rest]
  | .string _ :: rest => by
    rw [elementSections_of_isTable rfl, elementSections_of_isTable rfl, elementSections_cons k path rest]
  | .array _ :: rest => by
    rw [elementSections_of_isTable rfl, elementSections_of_isTable rfl, elementSections_cons k path rest]

end

/-- A section whose header has a path of at least one and at most `limit` keys. -/
def Section.Headed (limit : Nat) (s : Section) : Prop :=
  ∃ path, (s.header = .table path ∨ s.header = .element path) ∧ path ≠ [] ∧ path.length ≤ limit

theorem proper_of_headed {limit : Nat} {secs : List Section} (h : ∀ s ∈ secs, s.Headed limit) :
    ∀ st ∈ statementsOf secs, st.Proper := by
  intro st hst
  obtain ⟨s, hs, hst⟩ := List.mem_flatMap.1 hst
  obtain ⟨path, hheader, hne, -⟩ := h s hs
  rw [Section.statements] at hst
  rcases List.mem_append.1 hst with hst | hst
  · rcases hheader with hheader | hheader
    · rw [hheader] at hst
      rw [List.mem_singleton.1 hst]
      exact hne
    · rw [hheader] at hst
      rw [List.mem_singleton.1 hst]
      exact hne
  · obtain ⟨e, -, rfl⟩ := List.mem_map.1 hst
    trivial

/-- A property that passes on to the values in tables and arrays. -/
structure Inherited (Q : Value → Prop) : Prop where
  table : ∀ {es : List (String × Value)}, Q (.table es) → ∀ e ∈ es, Q e.2
  array : ∀ {items : List Value}, Q (.array items) → ∀ v ∈ items, Q v

section Mem

variable {Q : Value → Prop} {limit : Nat}

mutual

/-- The headers below a table have one key more for each level, and the plain values below them are
values in the table. -/
theorem mem_subSections (hQ : Inherited Q) : ∀ {path : List String} {es : List (String × Value)},
    path.length + Value.entriesDepth es ≤ limit → (∀ e ∈ es, Q e.2) →
    ∀ s ∈ subSections path es, s.Headed limit ∧ ∀ e ∈ s.body, Q e.2
  | _, [], _, _ => by
    intro s hs
    rw [subSections] at hs
    cases hs
  | path, (k, .table inner) :: rest, h, hes => by
    rw [Value.entriesDepth, Value.depth] at h
    have hlength : (path ++ [k]).length = path.length + 1 := by simp
    have hinner := hQ.table (hes _ List.mem_cons_self)
    intro s hs
    rw [subSections, List.mem_append, List.mem_append] at hs
    rcases hs with (hs | hs) | hs
    · split at hs
      · rw [List.mem_singleton.1 hs]
        exact ⟨⟨path ++ [k], .inl rfl, by simp, by omega⟩,
          fun e he => hinner e (List.mem_filter.1 he).1⟩
      · cases hs
    · exact mem_subSections hQ (by omega) hinner s hs
    · exact mem_subSections hQ (by omega) (fun e he => hes e (List.mem_cons_of_mem _ he)) s hs
  | path, (k, .array items) :: rest, h, hes => by
    rw [Value.entriesDepth, Value.depth] at h
    have hlength : (path ++ [k]).length = path.length + 1 := by simp
    intro s hs
    rw [subSections, List.mem_append] at hs
    rcases hs with hs | hs
    · split at hs
      · exact mem_elementSections hQ (by simp) (by omega) (hQ.array (hes _ List.mem_cons_self)) s hs
      · cases hs
    · exact mem_subSections hQ (by omega) (fun e he => hes e (List.mem_cons_of_mem _ he)) s hs
  | _, (_, .null) :: _, h, hes => by
    rw [subSections_of_isPlain rfl]
    exact mem_subSections hQ ((Nat.add_le_add_left (Nat.le_max_right ..) _).trans h)
      fun e he => hes e (List.mem_cons_of_mem _ he)
  | _, (_, .bool _) :: _, h, hes => by
    rw [subSections_of_isPlain rfl]
    exact mem_subSections hQ ((Nat.add_le_add_left (Nat.le_max_right ..) _).trans h)
      fun e he => hes e (List.mem_cons_of_mem _ he)
  | _, (_, .number _) :: _, h, hes => by
    rw [subSections_of_isPlain rfl]
    exact mem_subSections hQ ((Nat.add_le_add_left (Nat.le_max_right ..) _).trans h)
      fun e he => hes e (List.mem_cons_of_mem _ he)
  | _, (_, .string _) :: _, h, hes => by
    rw [subSections_of_isPlain rfl]
    exact mem_subSections hQ ((Nat.add_le_add_left (Nat.le_max_right ..) _).trans h)
      fun e he => hes e (List.mem_cons_of_mem _ he)

theorem mem_elementSections (hQ : Inherited Q) : ∀ {path : List String} {vs : List Value}, path ≠ [] →
    path.length + Value.itemsDepth vs ≤ limit → (∀ v ∈ vs, Q v) →
    ∀ s ∈ elementSections path vs, s.Headed limit ∧ ∀ e ∈ s.body, Q e.2
  | _, [], _, _, _ => by
    intro s hs
    rw [elementSections] at hs
    cases hs
  | path, .table es :: rest, hne, h, hvs => by
    rw [Value.itemsDepth, Value.depth] at h
    have hes := hQ.table (hvs _ List.mem_cons_self)
    intro s hs
    rw [elementSections, List.mem_append, List.mem_cons] at hs
    rcases hs with (rfl | hs) | hs
    · exact ⟨⟨path, .inr rfl, hne, by omega⟩, fun e he => hes e (List.mem_filter.1 he).1⟩
    · exact mem_subSections hQ (by omega) hes s hs
    · exact mem_elementSections hQ hne (by omega) (fun v hv => hvs v (List.mem_cons_of_mem _ hv)) s hs
  | _, .null :: _, hne, h, hvs => by
    rw [elementSections_of_isTable rfl]
    exact mem_elementSections hQ hne ((Nat.add_le_add_left (Nat.le_max_right ..) _).trans h)
      fun v hv => hvs v (List.mem_cons_of_mem _ hv)
  | _, .bool _ :: _, hne, h, hvs => by
    rw [elementSections_of_isTable rfl]
    exact mem_elementSections hQ hne ((Nat.add_le_add_left (Nat.le_max_right ..) _).trans h)
      fun v hv => hvs v (List.mem_cons_of_mem _ hv)
  | _, .number _ :: _, hne, h, hvs => by
    rw [elementSections_of_isTable rfl]
    exact mem_elementSections hQ hne ((Nat.add_le_add_left (Nat.le_max_right ..) _).trans h)
      fun v hv => hvs v (List.mem_cons_of_mem _ hv)
  | _, .string _ :: _, hne, h, hvs => by
    rw [elementSections_of_isTable rfl]
    exact mem_elementSections hQ hne ((Nat.add_le_add_left (Nat.le_max_right ..) _).trans h)
      fun v hv => hvs v (List.mem_cons_of_mem _ hv)
  | _, .array _ :: _, hne, h, hvs => by
    rw [elementSections_of_isTable rfl]
    exact mem_elementSections hQ hne ((Nat.add_le_add_left (Nat.le_max_right ..) _).trans h)
      fun v hv => hvs v (List.mem_cons_of_mem _ hv)

end

end Mem

/-- The sections below a table have headers. -/
theorem headed_subSections (es : List (String × Value)) :
    ∀ s ∈ subSections [] es, s.Headed (Value.entriesDepth es) := by
  have hany : Inherited fun _ => True := ⟨fun _ _ _ => trivial, fun _ _ _ => trivial⟩
  exact fun s hs => (mem_subSections hany (by simp) (fun _ _ => trivial) s hs).1

/-! ## Running the sections of a table -/

/-- Puts the item of a value into a table, unless the value is plain. -/
def lay (t : List (String × Item)) (e : String × Value) : List (String × Item) :=
  if isPlain e.2 then t else Keyed.insert e.1 (Item.ofValue e.2) t

/-- Nothing stands where the entries will put tables. -/
def Fresh (es : List (String × Value)) (t : List (String × Item)) : Prop :=
  ∀ e ∈ es, isPlain e.2 = false → Keyed.find? e.1 t = none

theorem Fresh.lay {e : String × Value} {es : List (String × Value)} {t : List (String × Item)}
    (hs : Keyed.Sorted (e :: es)) (h : Fresh (e :: es) t) : Fresh es (lay t e) := by
  intro f hf hplain
  have hnone := h f (List.mem_cons_of_mem e hf) hplain
  have hne : f.1 ≠ e.1 := fun he =>
    String.lt_irrefl f.1 (he.symm ▸ (List.pairwise_cons.1 hs).1 f hf)
  rw [Toml.lay]
  split
  · exact hnone
  · rw [Keyed.find?_insert_of_ne _ _ hne, hnone]

theorem foldl_lay_perm {es : List (String × Value)} {t : List (String × Item)} (hs : Keyed.Sorted es)
    (h : Fresh es t) :
    (es.foldl lay t).Perm (Item.ofEntries (es.filter fun e => !isPlain e.2) ++ t) := by
  induction es generalizing t with
  | nil => exact .refl _
  | cons e es ih =>
    have hrest := ih (List.pairwise_cons.1 hs).2 (h.lay hs)
    rw [List.foldl_cons]
    refine hrest.trans ?_
    cases hplain : isPlain e.2 with
    | true =>
      rw [List.filter_cons_of_neg (by simp [hplain]), Toml.lay, hplain, if_pos rfl]
    | false =>
      have hinsert := Keyed.insert_perm (h e (by simp) hplain) (Item.ofValue e.2)
      rw [List.filter_cons_of_pos (by simp [hplain]), Toml.lay, hplain, if_neg Bool.false_ne_true]
      exact (hinsert.append_left _).trans List.perm_middle

theorem sorted_foldl_lay {es : List (String × Value)} {t : List (String × Item)} (h : Keyed.Sorted t) :
    Keyed.Sorted (es.foldl lay t) := by
  induction es generalizing t with
  | nil => exact h
  | cons e es ih =>
    refine ih ?_
    rw [Toml.lay]
    split
    · exact h
    · exact h.insert _ _

/-- The plain values first and then the others: together these are the items of the table. -/
theorem foldl_lay_plainEntries {es : List (String × Value)} (hs : Keyed.Sorted es) :
    Fresh es (valueItems (plainEntries es)) ∧
      es.foldl lay (valueItems (plainEntries es)) = Item.ofEntries es := by
  have hplain : valueItems (plainEntries es) = Item.ofEntries (plainEntries es) := by
    rw [Item.ofEntries_eq_map, valueItems]
    refine List.map_congr_left fun e he => ?_
    rw [Item.ofValue_of_isPlain (List.mem_filter.1 he).2]
  have hfresh : Fresh es (valueItems (plainEntries es)) := by
    intro e he hnot
    refine Keyed.find?_eq_none fun f hf hkey => ?_
    obtain ⟨g, hg, rfl⟩ := List.mem_map.1 hf
    obtain ⟨hg, hgplain⟩ := List.mem_filter.1 hg
    have hfe : Keyed.find? e.1 es = some e.2 := hs.find?_of_mem he
    have hfg : Keyed.find? g.1 es = some g.2 := hs.find?_of_mem hg
    rw [show g.1 = e.1 from hkey, hfe, Option.some.injEq] at hfg
    rw [← hfg, hnot] at hgplain
    cases hgplain
  refine ⟨hfresh, ?_⟩
  have hsorted : Keyed.Sorted (valueItems (plainEntries es)) :=
    (sorted_map Item.value).2 (hs.sublist List.filter_sublist)
  have hsorted' : Keyed.Sorted (Item.ofEntries es) := by
    rw [Item.ofEntries_eq_map]
    exact (sorted_map Item.ofValue).2 hs
  -- both sides are sorted, so that it is enough that they hold the same items
  refine (sorted_foldl_lay hsorted).eq_of_perm hsorted' ((foldl_lay_perm hs hfresh).trans ?_)
  rw [hplain, Item.ofEntries_eq_map, Item.ofEntries_eq_map, Item.ofEntries_eq_map, ← List.map_append]
  refine List.Perm.map _ ?_
  exact List.perm_append_comm.trans (List.filter_append_perm _ es)

/-- From the empty document the sections of the table build up its items. -/
def Builds (es : List (String × Value)) : Prop :=
  ∃ header, steps? (statementsOf (sections es)) .empty = some ⟨Item.ofEntries es, header⟩

/-- The sections of the sub-tables lay those into any table in which there is room for them. -/
def Lays (es : List (String × Value)) : Prop :=
  ∀ t header, Fresh es t → ∃ header',
    steps? (statementsOf (subSections [] es)) ⟨t, header⟩ = some ⟨es.foldl lay t, header'⟩

theorem Lays.builds {es : List (String × Value)} (hs : Keyed.Sorted es) (h : Lays es) : Builds es := by
  obtain ⟨hfresh, hitems⟩ := foldl_lay_plainEntries hs
  obtain ⟨header, hrun⟩ := h _ [] hfresh
  have hroot : statementsOf (sections es) =
      (plainEntries es).map (fun e => .assign [e.1] e.2) ++ statementsOf (subSections [] es) := rfl
  have hbody := steps?_body (hs.sublist (List.filter_sublist (p := fun e => isPlain e.2)))
  refine ⟨header, ?_⟩
  rw [hroot, steps?_append]
  show (steps? ((plainEntries es).map _) _).bind _ = _
  rw [plainEntries, hbody]
  exact hrun.trans (by rw [hitems])

/-- All that a header with the path `k` leads to happens inside the table that it opens. -/
theorem Builds.inside {es : List (String × Value)} (h : Builds es) (k : String) (slot : Slot)
    (around : List (String × Item)) : ∃ header,
    steps? ((statementsOf (sections es)).map (·.under k)) (Document.empty.inside k slot around) =
      some ⟨Keyed.insert k (slot.item (Item.ofEntries es)) around, header⟩ := by
  obtain ⟨header, hrun⟩ := h
  have hproper : ∀ st ∈ statementsOf (sections es), st.Proper := by
    intro st hst
    rcases List.mem_append.1 hst with hst | hst
    · obtain ⟨e, -, rfl⟩ := List.mem_map.1 hst
      trivial
    · exact proper_of_headed (headed_subSections es) st hst
  refine ⟨k :: header, ?_⟩
  rw [steps?_under hproper, hrun]
  rfl

/-- The statements of a table under a key, apart from its own header. -/
theorem statementsOf_inside (k : String) (es : List (String × Value)) :
    (statementsOf (sections es)).map (·.under k) =
      (plainEntries es).map (fun e => .assign [e.1] e.2) ++ statementsOf (subSections [k] es) := by
  have hroot : statementsOf (sections es) =
      (plainEntries es).map (fun e => .assign [e.1] e.2) ++ statementsOf (subSections [] es) := rfl
  rw [hroot, List.map_append, List.map_map, subSections_cons, statementsOf_under]
  rfl

/-- A table that holds tables only has a section below it. -/
theorem subSections_ne_nil : ∀ (path : List String) {es : List (String × Value)}, es ≠ [] →
    plainEntries es = [] → subSections path es ≠ []
  | _, [], hne, _ => absurd rfl hne
  | path, (k, .table inner) :: rest, _, _ => by
    rw [subSections]
    split
    next => simp
    next h =>
      simp only [Bool.or_eq_true, Bool.not_eq_true', not_or, Bool.not_eq_false, List.isEmpty_iff] at h
      have := subSections_ne_nil (path ++ [k]) h.1 h.2
      simp [this]
  | path, (k, .array items) :: rest, _, hplain => by
    rw [plainEntries, List.filter_eq_nil_iff] at hplain
    have htables : isTableArray items = true := by simpa [isPlain] using hplain (k, .array items) (by simp)
    rw [subSections, htables, if_pos rfl]
    cases items with
    | nil => cases htables
    | cons v vs =>
      cases v with
      | table es => simp [elementSections]
      | _ => cases htables
  | _, (k, .null) :: rest, _, hplain => absurd hplain (by simp [plainEntries, isPlain])
  | _, (k, .bool _) :: rest, _, hplain => absurd hplain (by simp [plainEntries, isPlain])
  | _, (k, .number _) :: rest, _, hplain => absurd hplain (by simp [plainEntries, isPlain])
  | _, (k, .string _) :: rest, _, hplain => absurd hplain (by simp [plainEntries, isPlain])

/-- A longer header makes the tables on its way that are not there yet. -/
theorem steps?_implied {limit : Nat} {s : Section} (hs : s.Headed limit) (secs : List Section) {k : String}
    {t : List (String × Item)} (hnew : Keyed.find? k t = none) (header : List String) :
    steps? ((statementsOf (s :: secs)).map (·.under k)) ⟨t, header⟩ =
      steps? ((statementsOf (s :: secs)).map (·.under k))
        (Document.empty.inside k (.table .implied) t) := by
  obtain ⟨shead, body⟩ := s
  obtain ⟨path, hheader, hne, -⟩ := hs
  obtain ⟨l, path, rfl⟩ := List.exists_cons_of_ne_nil hne
  have hwithin := fun change => Item.within?_of_find? change (Item.splitLast (l :: path)).1 hnew
  dsimp only at hheader
  rcases hheader with rfl | rfl
  · have hstep : (⟨t, header⟩ : Document).step? (.table (k :: l :: path)) =
        (Document.empty.inside k (.table .implied) t).step? (.table (k :: l :: path)) := by
      show (Item.within? _ (k :: _) _).map _ = (Item.within? _ (k :: _) _).map _
      rw [hwithin]
      rfl
    show steps? (.table (k :: l :: path) :: _) _ = steps? (.table (k :: l :: path) :: _) _
    rw [steps?_cons, steps?_cons, hstep]
  · have hstep : (⟨t, header⟩ : Document).step? (.element (k :: l :: path)) =
        (Document.empty.inside k (.table .implied) t).step? (.element (k :: l :: path)) := by
      show (Item.within? _ (k :: _) _).map _ = (Item.within? _ (k :: _) _).map _
      rw [hwithin]
      rfl
    show steps? (.element (k :: l :: path) :: _) _ = steps? (.element (k :: l :: path) :: _) _
    rw [steps?_cons, steps?_cons, hstep]

/-- The section of a sub-table and those below it. -/
theorem steps?_table {es : List (String × Value)} (h : Builds es) {k : String} {t : List (String × Item)}
    (hnew : Keyed.find? k t = none) (header : List String) : ∃ header',
    steps? (statementsOf ((if es.isEmpty || !(plainEntries es).isEmpty then
      [⟨.table [k], plainEntries es⟩] else []) ++ subSections [k] es)) ⟨t, header⟩ =
      some ⟨Keyed.insert k (Item.ofValue (.table es)) t, header'⟩ := by
  rw [Item.ofValue]
  split
  next =>
    -- the header opens an empty table, and all that follows happens inside it
    obtain ⟨header', hrun⟩ := h.inside k (.table .header) t
    have hopen : (⟨t, header⟩ : Document).step? (.table [k]) =
        some (Document.empty.inside k (.table .header) t) := by
      rw [Document.step?, openTable?_singleton hnew]
      rfl
    have hsts : statementsOf ([⟨.table [k], plainEntries es⟩] ++ subSections [k] es) =
        .table [k] :: (statementsOf (sections es)).map (·.under k) := by
      rw [statementsOf_inside]
      rfl
    refine ⟨header', ?_⟩
    rw [hsts, steps?_cons, hopen]
    exact hrun
  next hcond =>
    -- without a header of its own the table is made by the first header below it
    simp only [Bool.or_eq_true, Bool.not_eq_true', not_or, Bool.not_eq_false, List.isEmpty_iff] at hcond
    obtain ⟨header', hrun⟩ := h.inside k (.table .implied) t
    have hsub : (statementsOf (sections es)).map (·.under k) = statementsOf (subSections [k] es) := by
      rw [statementsOf_inside, hcond.2]
      rfl
    obtain ⟨s, secs, hsecs⟩ := List.exists_cons_of_ne_nil (subSections_ne_nil [] hcond.1 hcond.2)
    have hhead := headed_subSections es s (hsecs ▸ List.mem_cons_self)
    refine ⟨header', ?_⟩
    rw [List.nil_append, subSections_cons, statementsOf_under, hsecs, steps?_implied hhead secs hnew]
    rw [hsub, subSections_cons, statementsOf_under, hsecs] at hrun
    exact hrun

/-- The section of an element of an array of tables and those below it. -/
theorem steps?_element {es : List (String × Value)} (h : Builds es) (k : String)
    (before : List (List (String × Item))) (t : List (String × Item)) (header : List String) : ∃ header',
    steps? (statementsOf (⟨.element [k], plainEntries es⟩ :: subSections [k] es))
      ⟨Keyed.insert k (.tables before) t, header⟩ =
      some ⟨Keyed.insert k (.tables (before ++ [Item.ofEntries es])) t, header'⟩ := by
  obtain ⟨header', hrun⟩ := h.inside k (.last before) t
  have hopen : (⟨Keyed.insert k (.tables before) t, header⟩ : Document).step? (.element [k]) =
      some (Document.empty.inside k (.last before) t) := by
    rw [Document.step?, openElement?_insert_tables]
    rfl
  have hsts : statementsOf (⟨.element [k], plainEntries es⟩ :: subSections [k] es) =
      .element [k] :: (statementsOf (sections es)).map (·.under k) := by
    rw [statementsOf_inside]
    rfl
  refine ⟨header', ?_⟩
  rw [hsts, steps?_cons, hopen]
  exact hrun

/-- The first element makes the array of tables. -/
theorem steps?_firstElement {items : List Value} (htables : isTableArray items = true) {k : String}
    {t : List (String × Item)} (hnew : Keyed.find? k t = none) (header : List String) :
    steps? (statementsOf (elementSections [k] items)) ⟨t, header⟩ =
      steps? (statementsOf (elementSections [k] items)) ⟨Keyed.insert k (.tables []) t, header⟩ := by
  have hstep : (⟨t, header⟩ : Document).step? (.element [k]) =
      (⟨Keyed.insert k (.tables []) t, header⟩ : Document).step? (.element [k]) := by
    rw [Document.step?, Document.step?, openElement?_singleton hnew, openElement?_insert_tables]
    rfl
  cases items with
  | nil => cases htables
  | cons v vs =>
    cases v with
    | table es =>
      have hfirst : ∃ sts, statementsOf (elementSections [k] (.table es :: vs)) = .element [k] :: sts := by
        rw [elementSections]
        exact ⟨_, rfl⟩
      obtain ⟨sts, hsts⟩ := hfirst
      rw [hsts, steps?_cons, steps?_cons, hstep]
    | _ => cases htables

/-- A plain value stands in the table already. -/
theorem Lays.cons_plain {k : String} {v : Value} {rest : List (String × Value)} (hplain : isPlain v = true)
    (hs : Keyed.Sorted ((k, v) :: rest)) (h : Lays rest) : Lays ((k, v) :: rest) := by
  intro t header hfresh
  have hlay : lay t (k, v) = t := by rw [Toml.lay, hplain, if_pos rfl]
  obtain ⟨header', hrun⟩ := h _ header (hfresh.lay hs)
  refine ⟨header', ?_⟩
  rw [subSections_of_isPlain hplain, List.foldl_cons, hlay]
  rw [hlay] at hrun
  exact hrun

mutual

/-- The sections below a sorted table lay its sub-tables and arrays of tables. -/
theorem lays : ∀ {es : List (String × Value)}, Keyed.Sorted es → Value.OrderedEntries es → Lays es
  | [], _, _ => by
    intro t header _
    refine ⟨header, ?_⟩
    rw [subSections]
    rfl
  | (k, .table inner) :: rest, hs, ho => by
    intro t header hfresh
    have hnew : Keyed.find? k t = none := hfresh _ List.mem_cons_self rfl
    have hinner := (lays ho.1.1 ho.1.2).builds ho.1.1
    obtain ⟨header', hrun⟩ := steps?_table hinner hnew header
    obtain ⟨header'', hrest⟩ := lays (List.pairwise_cons.1 hs).2 ho.2 _ header' (hfresh.lay hs)
    refine ⟨header'', ?_⟩
    rw [subSections, List.nil_append, statementsOf_append, steps?_append, hrun]
    exact hrest
  | (k, .array items) :: rest, hs, ho => by
    have hrest := lays (List.pairwise_cons.1 hs).2 ho.2
    cases htables : isTableArray items with
    | false => exact hrest.cons_plain (by rw [isPlain, htables]; rfl) hs
    | true =>
      have hplain : isPlain (.array items) = false := by rw [isPlain, htables]; rfl
      intro t header hfresh
      have hnew : Keyed.find? k t = none := hfresh _ List.mem_cons_self hplain
      have hall : items.all isTable = true := by
        rw [isTableArray, Bool.and_eq_true] at htables
        exact htables.2
      have hitem : Item.ofValue (.array items) = .tables (Item.ofElements items) := by
        rw [Item.ofValue, htables, if_pos rfl]
      have hlay : lay t (k, .array items) = Keyed.insert k (.tables (Item.ofElements items)) t := by
        rw [Toml.lay, hplain, if_neg Bool.false_ne_true, hitem]
      obtain ⟨header', hrun⟩ := laysElements ho.1 hall k [] t header
      obtain ⟨header'', hrun'⟩ := hrest _ header' (hfresh.lay hs)
      refine ⟨header'', ?_⟩
      rw [subSections, htables, if_pos rfl, List.nil_append, statementsOf_append, steps?_append,
        steps?_firstElement htables hnew, hrun, List.foldl_cons, hlay]
      rw [hlay] at hrun'
      exact hrun'
  | (_, .null) :: _, hs, ho => (lays (List.pairwise_cons.1 hs).2 ho.2).cons_plain rfl hs
  | (_, .bool _) :: _, hs, ho => (lays (List.pairwise_cons.1 hs).2 ho.2).cons_plain rfl hs
  | (_, .number _) :: _, hs, ho => (lays (List.pairwise_cons.1 hs).2 ho.2).cons_plain rfl hs
  | (_, .string _) :: _, hs, ho => (lays (List.pairwise_cons.1 hs).2 ho.2).cons_plain rfl hs

/-- The sections of the elements add those to the array of tables, one after the other. -/
theorem laysElements : ∀ {vs : List Value}, Value.OrderedItems vs → vs.all isTable = true →
    ∀ (k : String) (before : List (List (String × Item))) (t : List (String × Item)) (header : List String),
    ∃ header', steps? (statementsOf (elementSections [k] vs)) ⟨Keyed.insert k (.tables before) t, header⟩ =
      some ⟨Keyed.insert k (.tables (before ++ Item.ofElements vs)) t, header'⟩
  | [], _, _, k, before, t, header => by
    refine ⟨header, ?_⟩
    rw [elementSections, Item.ofElements, List.append_nil]
    rfl
  | .table es :: rest, ho, hall, k, before, t, header => by
    rw [List.all_cons, Bool.and_eq_true] at hall
    have hinner := (lays ho.1.1 ho.1.2).builds ho.1.1
    obtain ⟨header', hrun⟩ := steps?_element hinner k before t header
    obtain ⟨header'', hrest⟩ := laysElements ho.2 hall.2 k (before ++ [Item.ofEntries es]) t header'
    refine ⟨header'', ?_⟩
    rw [elementSections, statementsOf_append, steps?_append, hrun, Item.ofElements]
    rw [List.append_assoc] at hrest
    exact hrest
  | .null :: _, _, hall, _, _, _, _ => by cases hall
  | .bool _ :: _, _, hall, _, _, _, _ => by cases hall
  | .number _ :: _, _, hall, _, _, _, _ => by cases hall
  | .string _ :: _, _, hall, _, _, _, _ => by cases hall
  | .array _ :: _, _, hall, _, _, _, _ => by cases hall

end

/-- The statements of a written table build it up. -/
theorem run?_sections {es : List (String × Value)} (h : (Value.table es).Ordered) :
    Document.run? (statementsOf (sections es)) = some es := by
  obtain ⟨header, hrun⟩ := (lays h.1 h.2).builds h.1
  show (steps? (statementsOf (sections es)) .empty).map _ = _
  rw [hrun, Option.map_some, Item.entryValues_ofEntries]

end PromptTheme.Toml
