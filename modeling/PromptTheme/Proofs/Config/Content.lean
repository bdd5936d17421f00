/-
What equality of content compares. A zero has a sign, which counts for nothing; everything else does.
`Config.sameAs_iff` says that two configurations have the same content exactly when they are equal once
every zero in them is positive, and `Config.content_merge` that a merge of contents is the content of the
merge. So equality of content is an equivalence, and no merge can tell equal contents apart.
-/
import PromptTheme.Proofs.Config.Layers

namespace PromptTheme

/-- The number without the sign of a zero. -/
def Double.content (x : Double) : Double := if x.rank = 0 then .zero else x

theorem Double.sameAs_iff {x y : Double} : x.sameAs y = true ↔ x.content = y.content := by
  obtain ⟨a, m, hm⟩ := x
  obtain ⟨b, n, hn⟩ := y
  simp only [sameAs, content, Bool.and_eq_true, Bool.or_eq_true, beq_iff_eq]
  by_cases hm0 : m = 0 <;> by_cases hn0 : n = 0
  · simp [hm0, hn0]
  · simp [hm0, hn0, Ne.symm hn0, zero]
  · simp [hm0, hn0, zero]
  · simp [hm0, hn0, and_comm]

/-- The number without the sign of a zero. -/
def Number.content : Number → Number
  | .whole n => .whole n
  | .double x => .double x.content

theorem Number.sameAs_iff {a b : Number} : a.sameAs b = true ↔ a.content = b.content := by
  cases a <;> cases b <;> simp [sameAs, content, Double.sameAs_iff]

namespace Value

mutual

/-- The value with every zero in it positive. -/
def content : Value → Value
  | .number n => .number n.content
  | .array items => .array (contentItems items)
  | .table es => .table (contentEntries es)
  | v => v

def contentItems : List Value → List Value
  | [] => []
  | v :: vs => v.content :: contentItems vs

def contentEntries : List (String × Value) → List (String × Value)
  | [] => []
  | (k, v) :: es => (k, v.content) :: contentEntries es

end

/-! ## Equality -/

mutual

theorem sameAs_iff : ∀ {v w : Value}, v.sameAs w = true ↔ v.content = w.content
  | .array items, w => by
    cases w with
    | array items' => rw [sameAs, content, content, Value.array.injEq, sameItems_iff]
    | _ => simp [sameAs, content]
  | .table es, w => by
    cases w with
    | table es' => rw [sameAs, content, content, Value.table.injEq, sameEntries_iff]
    | _ => simp [sameAs, content]
  | .number n, w => by cases w <;> simp [sameAs, content, Number.sameAs_iff]
  | .null, w => by cases w <;> simp [sameAs, content]
  | .bool _, w => by cases w <;> simp [sameAs, content]
  | .string _, w => by cases w <;> simp [sameAs, content]

theorem sameItems_iff : ∀ {vs ws : List Value}, sameItems vs ws = true ↔ contentItems vs = contentItems ws
  | [], ws => by cases ws <;> simp [sameItems, contentItems]
  | v :: vs, ws => by
    cases ws with
    | nil => simp [sameItems, contentItems]
    | cons w ws =>
      rw [sameItems, Bool.and_eq_true, sameAs_iff, sameItems_iff, contentItems, contentItems,
        List.cons.injEq]

theorem sameEntries_iff : ∀ {es fs : List (String × Value)},
    sameEntries es fs = true ↔ contentEntries es = contentEntries fs
  | [], fs => by cases fs <;> simp [sameEntries, contentEntries]
  | (k, v) :: es, fs => by
    cases fs with
    | nil => simp [sameEntries, contentEntries]
    | cons e fs =>
      obtain ⟨l, w⟩ := e
      rw [sameEntries, Bool.and_eq_true, Bool.and_eq_true, beq_iff_eq, sameAs_iff, sameEntries_iff,
        contentEntries, contentEntries, List.cons.injEq, Prod.mk.injEq]

end

/-! ## Lookup and order -/

theorem find?_contentEntries (key : String) (es : Keyed Value) :
    Keyed.find? key (contentEntries es) = (Keyed.find? key es).map content := by
  induction es with
  | nil => rfl
  | cons e rest ih =>
    obtain ⟨k, v⟩ := e
    rw [contentEntries, Keyed.find?_cons, Keyed.find?_cons, ih]
    split <;> rfl

theorem contentEntries_insert (key : String) (v : Value) (es : Keyed Value) :
    contentEntries (Keyed.insert key v es) = Keyed.insert key v.content (contentEntries es) := by
  induction es with
  | nil => rfl
  | cons e rest ih =>
    obtain ⟨k, w⟩ := e
    rw [Keyed.insert, contentEntries, Keyed.insert]
    by_cases hk : key = k
    · rw [if_pos hk, if_pos hk, contentEntries]
    · rw [if_neg hk, if_neg hk]
      by_cases hl : key < k
      · rw [if_pos hl, if_pos hl, contentEntries, contentEntries]
      · rw [if_neg hl, if_neg hl, contentEntries, ih]

theorem keys_contentEntries (es : List (String × Value)) :
    (contentEntries es).map Prod.fst = es.map Prod.fst := by
  induction es with
  | nil => rfl
  | cons e rest ih =>
    obtain ⟨k, v⟩ := e
    rw [contentEntries, List.map_cons, List.map_cons, ih]

theorem sorted_contentEntries {es : Keyed Value} (h : Keyed.Sorted es) :
    Keyed.Sorted (contentEntries es) := by
  rwa [sorted_iff_keys, keys_contentEntries, ← sorted_iff_keys]

mutual

theorem ordered_content : ∀ {v : Value}, v.Ordered → v.content.Ordered
  | .array items, h => @orderedItems_contentItems items h
  | .table es, h => ⟨sorted_contentEntries h.1, @orderedEntries_contentEntries es h.2⟩
  | .null, _ => trivial
  | .bool _, _ => trivial
  | .number _, _ => trivial
  | .string _, _ => trivial

theorem orderedItems_contentItems : ∀ {vs : List Value}, OrderedItems vs → OrderedItems (contentItems vs)
  | [], _ => trivial
  | _ :: _, h => ⟨ordered_content h.1, orderedItems_contentItems h.2⟩

theorem orderedEntries_contentEntries : ∀ {es : List (String × Value)},
    OrderedEntries es → OrderedEntries (contentEntries es)
  | [], _ => trivial
  | (_, _) :: _, h => ⟨ordered_content h.1, orderedEntries_contentEntries h.2⟩

end

/-! ## Merging -/

mutual

theorem content_strip : ∀ v : Value, v.strip.content = v.content.strip
  | .array items => by rw [strip, content, content, strip, contentItems_stripItems items]
  | .table es => by rw [strip, content, content, strip, contentEntries_stripEntries es]
  | .null => rfl
  | .bool _ => rfl
  | .number _ => rfl
  | .string _ => rfl

theorem contentItems_stripItems : ∀ vs : List Value,
    contentItems (stripItems vs) = stripItems (contentItems vs)
  | [] => rfl
  | v :: vs => by
    rw [stripItems, contentItems, contentItems, stripItems, content_strip v, contentItems_stripItems vs]

theorem contentEntries_stripEntries : ∀ es : List (String × Value),
    contentEntries (stripEntries es) = stripEntries (contentEntries es)
  | [] => rfl
  | (k, v) :: es => by
    rw [stripEntries, contentEntries, stripEntries]
    split
    · exact contentEntries_stripEntries es
    · rw [contentEntries, content_strip v, contentEntries_stripEntries es]

end

theorem asTable?_content (v : Value) : v.content.asTable? = v.asTable?.map contentEntries := by
  cases v <;> rfl

mutual

/-- What a value leaves over another one depends on the contents of both. -/
theorem content_laidOver : ∀ (v : Value) (old : Option Value),
    (v.laidOver old).content = v.content.laidOver (old.map content)
  | .table new, old => by
    have hold : (old.map content).bind asTable? = (old.bind asTable?).map contentEntries := by
      cases old with
      | none => rfl
      | some o => exact asTable?_content o
    rw [content, laidOver_table, laidOver_table, hold]
    cases old.bind asTable? with
    | some es => exact congrArg Value.table (contentEntries_mergeEntries es new)
    | none => exact content_strip (.table new)
  | .array items, _ => content_strip (.array items)
  | .null, _ => rfl
  | .bool _, _ => rfl
  | .number _, _ => rfl
  | .string _, _ => rfl

theorem contentEntries_mergeEntries : ∀ base overlay : List (String × Value),
    contentEntries (mergeEntries base overlay) = mergeEntries (contentEntries base) (contentEntries overlay)
  | _, [] => by rw [contentEntries, mergeEntries, mergeEntries]
  | base, (k, v) :: rest => by
    rw [mergeEntries, contentEntries, mergeEntries]
    split
    · exact contentEntries_mergeEntries base rest
    · rw [contentEntries_mergeEntries _ rest, contentEntries_insert, content_laidOver v,
        find?_contentEntries]

end

end Value

namespace Config

/-- The configuration with every zero in it positive. -/
def content (c : Config) : Config := ⟨Value.contentEntries c.entries, Value.ordered_content c.ordered⟩

/-- Two configurations have the same content when they differ in the signs of zeros at most. -/
theorem sameAs_iff {a b : Config} : a.sameAs b = true ↔ a.content = b.content := by
  rw [sameAs, Value.sameEntries_iff]
  exact ⟨fun h => eq_of_entries h, congrArg Config.entries⟩

theorem content_merge (base overlay : Config) :
    (base.merge overlay).content = base.content.merge overlay.content := by
  apply eq_of_entries
  rw [merge_eq_mergeTables, merge_eq_mergeTables]
  exact Value.contentEntries_mergeEntries base.entries overlay.entries

end Config

end PromptTheme
