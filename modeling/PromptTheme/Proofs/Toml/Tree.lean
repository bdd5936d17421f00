/-
Trees that documents build up, and one law of them: what a statement below a key does is what it does
without that key, inside the table or the last element that the key leads to (`Toml.step?_under`). So
the statements of a table can be followed on their own, from the empty document. `Toml.Item.ofValue` is the
item that a value comes back as.
-/
import PromptTheme.Toml.Reader
import PromptTheme.Toml.Writer
import Mathlib.Tactic

namespace PromptTheme.Toml

/-! ## Items -/

namespace Item

mutual

/-- The item that a value is read back as. A table without a header of its own is implied by those
of its sub-tables. -/
def ofValue : Value → Item
  | .table es =>
    .table (if es.isEmpty || !(plainEntries es).isEmpty then .header else .implied) (ofEntries es)
  | .array items => if isTableArray items then .tables (ofElements items) else .value (.array items)
  | v => .value v

def ofEntries : List (String × Value) → List (String × Item)
  | [] => []
  | (k, v) :: es => (k, ofValue v) :: ofEntries es

def ofElements : List Value → List (List (String × Item))
  | [] => []
  | .table es :: vs => ofEntries es :: ofElements vs
  | _ :: vs => ofElements vs

end

mutual

theorem toValue_ofValue : ∀ v : Value, (ofValue v).toValue = v
  | .table es => by rw [ofValue, toValue, entryValues_ofEntries es]
  | .array items => by
    rw [ofValue]
    split
    next h =>
      rw [isTableArray, Bool.and_eq_true] at h
      rw [toValue, elementValues_ofElements items h.2]
    next => rfl
  | .null => rfl
  | .bool _ => rfl
  | .number _ => rfl
  | .string _ => rfl

theorem entryValues_ofEntries : ∀ es : List (String × Value), entryValues (ofEntries es) = es
  | [] => rfl
  | (k, v) :: es => by rw [ofEntries, entryValues, toValue_ofValue v, entryValues_ofEntries es]

theorem elementValues_ofElements : ∀ vs : List Value, vs.all isTable = true →
    elementValues (ofElements vs) = vs
  | [], _ => rfl
  | .table es :: vs, h => by
    rw [List.all_cons, Bool.and_eq_true] at h
    rw [ofElements, elementValues, entryValues_ofEntries es, elementValues_ofElements vs h.2]
  | .null :: _, h => by cases h
  | .bool _ :: _, h => by cases h
  | .number _ :: _, h => by cases h
  | .string _ :: _, h => by cases h
  | .array _ :: _, h => by cases h

end

theorem ofEntries_eq_map (es : List (String × Value)) : ofEntries es = es.map fun e => (e.1, ofValue e.2) := by
  induction es with
  | nil => rfl
  | cons e es ih => rw [ofEntries, ih, List.map_cons]

/-- A plain value is one item. -/
theorem ofValue_of_isPlain {v : Value} (h : isPlain v = true) : ofValue v = .value v := by
  cases v with
  | table es => cases h
  | array items =>
    rw [isPlain, Bool.not_eq_true'] at h
    rw [ofValue, h, if_neg Bool.false_ne_true]
  | null => rfl
  | bool b => rfl
  | number n => rfl
  | string s => rfl

end Item

/-! ## Plain values -/

/-- Plain values as the items of a table. -/
def valueItems (es : List (String × Value)) : List (String × Item) := es.map fun e => (e.1, .value e.2)

theorem entryValues_valueItems (es : List (String × Value)) : Item.entryValues (valueItems es) = es := by
  induction es with
  | nil => rfl
  | cons e es ih =>
    show (e.1, e.2) :: Item.entryValues (valueItems es) = e :: es
    rw [ih]

theorem sorted_map {α β : Type} {es : Keyed α} (f : α → β) :
    Keyed.Sorted (es.map fun e => (e.1, f e.2)) ↔ Keyed.Sorted es := List.pairwise_map

/-- Setting one key without points, in a table that does not have it. -/
theorem assign?_singleton {k : String} {t : List (String × Item)} (h : Keyed.find? k t = none) (v : Value) :
    Item.assign? [k] v t = some (Keyed.insert k (.value v) t) := by
  simp [Item.assign?, Item.splitLast, Item.at?, h]

theorem openTable?_singleton {k : String} {t : List (String × Item)} (h : Keyed.find? k t = none) :
    Item.openTable? [k] t = some (Keyed.insert k (.table .header []) t) := by
  simp [Item.openTable?, Item.splitLast, Item.at?, h]

theorem openElement?_singleton {k : String} {t : List (String × Item)} (h : Keyed.find? k t = none) :
    Item.openElement? [k] t = some (Keyed.insert k (.tables [[]]) t) := by
  simp [Item.openElement?, Item.splitLast, Item.at?, h]

theorem openElement?_insert_tables (k : String) (elements : List (List (String × Item)))
    (t : List (String × Item)) : Item.openElement? [k] (Keyed.insert k (.tables elements) t) =
      some (Keyed.insert k (.tables (elements ++ [[]])) t) := by
  simp [Item.openElement?, Item.splitLast, Item.at?, Keyed.find?_insert_self, Keyed.insert_insert]

/-- Setting the keys of a sorted table in their order. -/
theorem foldlM_assign : ∀ (rest done : List (String × Value)), Keyed.Sorted (done ++ rest) →
    rest.foldlM (fun t e => Item.assign? [e.1] e.2 t) (valueItems done) = some (valueItems (done ++ rest))
  | [], done, _ => by
    rw [List.append_nil]
    rfl
  | (k, v) :: rest, done, h => by
    -- the keys set so far are all smaller, so that the next one is put behind them
    have hlt : ∀ e ∈ valueItems done, e.1 < k := by
      intro e he
      obtain ⟨e, hm, rfl⟩ := List.mem_map.1 he
      exact (List.pairwise_append.1 h).2.2 e hm (k, v) List.mem_cons_self
    have hnew : Keyed.find? k (valueItems done) = none :=
      Keyed.find?_eq_none fun e he hk => String.lt_irrefl k (hk ▸ hlt e he)
    have hnext : Keyed.insert k (.value v) (valueItems done) = valueItems (done ++ [(k, v)]) := by
      rw [Keyed.insert_of_lt hlt, valueItems, valueItems, List.map_append]
      rfl
    have happend : done ++ (k, v) :: rest = (done ++ [(k, v)]) ++ rest := by simp
    rw [List.foldlM_cons, assign?_singleton hnew, hnext, happend]
    exact foldlM_assign rest _ (happend ▸ h)

/-- An inline table with sorted keys is the table of its pairs. -/
theorem inlineTable?_of_sorted {es : List (String × Value)} (h : Keyed.Sorted es) :
    inlineTable? (es.map fun e => ([e.1], e.2)) = some (.table es) := by
  have hfold := foldlM_assign es [] h
  rw [inlineTable?, List.foldlM_map]
  show ((es.foldlM (fun t e => Item.assign? [e.1] e.2 t) (valueItems [])).map _) = _
  rw [hfold, Option.map_some, List.nil_append, entryValues_valueItems]

/-! ## Statements -/

/-- The statements of a section. -/
def Section.statements (s : Section) : List Statement :=
  (match s.header with
    | .root => []
    | .table path => [.table path]
    | .element path => [.element path]) ++
  s.body.map fun e => .assign [e.1] e.2

/-- The statements of sections, one section after the other. -/
def statementsOf (secs : List Section) : List Statement := secs.flatMap Section.statements

theorem statementsOf_append (secs tecs : List Section) :
    statementsOf (secs ++ tecs) = statementsOf secs ++ statementsOf tecs := List.flatMap_append

/-- Statement after statement. -/
def steps? (sts : List Statement) (d : Document) : Option Document := sts.foldlM Document.step? d

theorem steps?_cons (st : Statement) (sts : List Statement) (d : Document) :
    steps? (st :: sts) d = (d.step? st).bind (steps? sts) := List.foldlM_cons

theorem steps?_append (sts tts : List Statement) (d : Document) :
    steps? (sts ++ tts) d = (steps? sts d).bind (steps? tts) := List.foldlM_append

/-- The plain values at the root. -/
theorem steps?_body {es : List (String × Value)} (h : Keyed.Sorted es) :
    steps? (es.map fun e => .assign [e.1] e.2) .empty = some ⟨valueItems es, []⟩ := by
  have hfold := foldlM_assign es [] h
  have hrun : ∀ (fs : List (String × Value)) (t : List (String × Item)),
      steps? (fs.map fun e => .assign [e.1] e.2) ⟨t, []⟩ =
        (fs.foldlM (fun t e => Item.assign? [e.1] e.2 t) t).map (⟨·, []⟩) := by
    intro fs
    induction fs with
    | nil => intro t; rfl
    | cons e fs ih =>
      intro t
      have hstep : (⟨t, []⟩ : Document).step? (.assign [e.1] e.2) =
          (Item.assign? [e.1] e.2 t).map (⟨·, []⟩) := rfl
      rw [List.map_cons, steps?_cons, List.foldlM_cons, hstep]
      cases Item.assign? [e.1] e.2 t with
      | none => rfl
      | some t => exact ih t
  have hempty : Document.empty = ⟨valueItems [], []⟩ := rfl
  rw [hempty, hrun, hfold]
  rfl

/-! ## Places below a key -/

/-- What stands under a key: a table, or an array of tables of which the last one is meant. -/
inductive Slot where
  | table (origin : Origin)
  | last (before : List (List (String × Item)))

/-- The item with a table in the slot. -/
def Slot.item : Slot → List (String × Item) → Item
  | .table origin, t => .table origin t
  | .last before, t => .tables (before ++ [t])

namespace Item

theorem updateLast?_append {α : Type} (f : α → Option α) (before : List α) (x : α) :
    updateLast? f (before ++ [x]) = (f x).map fun y => before ++ [y] := by
  induction before with
  | nil => rfl
  | cons b before ih =>
    have hcons : updateLast? f (b :: (before ++ [x])) = (updateLast? f (before ++ [x])).map (b :: ·) := by
      cases before with
      | nil => rfl
      | cons c before => rfl
    rw [List.cons_append, hcons, ih, Option.map_map]
    rfl

/-- Changes the table at the end of a path; missing tables on the way are implied. -/
def within? (change : List (String × Item) → Option (List (String × Item))) (path : List String)
    (t : List (String × Item)) : Option (List (String × Item)) :=
  at? .implied (fun _ => true) (fun _ => change) path .header t

theorem at?_eq_within? (change : List (String × Item) → Option (List (String × Item)))
    (path : List String) (origin : Origin) (t : List (String × Item)) :
    at? .implied (fun _ => true) (fun _ => change) path origin t = within? change path t := by
  cases path with
  | nil => rfl
  | cons k path => rfl

/-- Below a key the path goes on in the table under the key. -/
theorem within?_cons (change : List (String × Item) → Option (List (String × Item))) (k : String)
    (path : List String) (slot : Slot) (t around : List (String × Item)) :
    within? change (k :: path) (Keyed.insert k (slot.item t) around) =
      (within? change path t).map fun t => Keyed.insert k (slot.item t) around := by
  -- what is written back below the key replaces what was found there
  have hinsert : ∀ u : List (String × Item), Keyed.insert k (slot.item u)
      (Keyed.insert k (slot.item t) around) = Keyed.insert k (slot.item u) around := fun u =>
    Keyed.insert_insert k _ _ around
  rw [within?, at?, Keyed.find?_insert_self]
  cases slot with
  | table origin =>
    simp only [Slot.item, if_true, at?_eq_within?] at hinsert ⊢
    simp only [hinsert]
  | last before =>
    simp only [Slot.item, updateLast?_append, Option.map_map, at?_eq_within?] at hinsert ⊢
    simp only [Function.comp_def, hinsert]

/-- A key that is not there yet is as good as an empty implied table. -/
theorem within?_of_find? (change : List (String × Item) → Option (List (String × Item))) {k : String}
    (path : List String) {t : List (String × Item)} (h : Keyed.find? k t = none) :
    within? change (k :: path) t =
      within? change (k :: path) (Keyed.insert k ((Slot.table .implied).item []) t) := by
  rw [within?_cons, within?, at?, h]
  simp only [at?_eq_within?, Slot.item]

end Item

/-- The statement with a key in front of the path of its header. -/
def Statement.under (k : String) : Statement → Statement
  | .table path => .table (k :: path)
  | .element path => .element (k :: path)
  | .assign path v => .assign path v

/-- The path of a header has at least one key. -/
def Statement.Proper : Statement → Prop
  | .table path => path ≠ []
  | .element path => path ≠ []
  | .assign _ _ => True

/-- The document around a slot that another document fills. -/
def Document.inside (k : String) (slot : Slot) (around : List (String × Item)) (d : Document) : Document :=
  ⟨Keyed.insert k (slot.item d.root) around, k :: d.header⟩

theorem step?_under {st : Statement} (h : st.Proper) (k : String) (slot : Slot)
    (around : List (String × Item)) (d : Document) :
    (d.inside k slot around).step? (st.under k) = (d.step? st).map (·.inside k slot around) := by
  cases st with
  | table path =>
    cases path with
    | nil => exact absurd rfl h
    | cons l path =>
      -- the last key is split off the same path, with or without a key in front
      show (Item.within? _ (k :: _) _).map _ = ((Item.within? _ _ _).map _).map _
      rw [Document.inside, Item.within?_cons, Option.map_map, Option.map_map]
      rfl
  | element path =>
    cases path with
    | nil => exact absurd rfl h
    | cons l path =>
      show (Item.within? _ (k :: _) _).map _ = ((Item.within? _ _ _).map _).map _
      rw [Document.inside, Item.within?_cons, Option.map_map, Option.map_map]
      rfl
  | assign path v =>
    show (Item.within? _ (k :: _) _).map _ = ((Item.within? _ _ _).map _).map _
    rw [Document.inside, Item.within?_cons, Option.map_map, Option.map_map]
    rfl

/-- Statements below a key are statements inside the table under that key. -/
theorem steps?_under {sts : List Statement} (h : ∀ st ∈ sts, st.Proper) (k : String) (slot : Slot)
    (around : List (String × Item)) (d : Document) :
    steps? (sts.map (·.under k)) (d.inside k slot around) = (steps? sts d).map (·.inside k slot around) := by
  induction sts generalizing d with
  | nil => rfl
  | cons st sts ih =>
    rw [List.map_cons, steps?_cons, steps?_cons, step?_under (h st (by simp))]
    cases d.step? st with
    | none => rfl
    | some d => exact ih (fun tt ht => h tt (by simp [ht])) d

end PromptTheme.Toml
