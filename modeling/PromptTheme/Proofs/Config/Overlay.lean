/-
What a merge has at every path of keys. A path is walked in the overlay, by keys that are not
reserved, for as long as it meets tables. `Config.path?_merge` says what the merged configuration has
at the path from where this walk ends and from what the base has there.

The proof looks up one key in merged entries, and then follows the path by induction: a table that
both sides have is merged again, and a table of the overlay alone is stripped.
-/
import PromptTheme.Proofs.Config.Strip

namespace PromptTheme

namespace Value

/-! ## One key -/

theorem laidOver_of_not_table {v : Value} (h : v.asTable? = none) (old : Option Value) :
    v.laidOver old = v.strip := by
  cases v <;> simp_all [asTable?, laidOver, strip]

theorem laidOver_table (old : Option Value) (new : Keyed Value) :
    (Value.table new).laidOver old =
      match old.bind asTable? with
      | some es => .table (mergeEntries es new)
      | none => .table (stripEntries new) := by
  unfold laidOver
  split
  · rfl
  · rename_i h
    have hn : old.bind asTable? = none := by
      cases ho : old.bind asTable? with
      | none => rfl
      | some es =>
        obtain ⟨v, rfl, hv⟩ := Option.bind_eq_some_iff.1 ho
        exact absurd (asTable?_eq_some_iff.1 hv ▸ rfl) (h es)
    rw [hn]

theorem laidOver_none (v : Value) : v.laidOver none = v.strip := by
  cases v <;> simp [laidOver, strip]

/-- A key that the overlay may write and does write has its value laid over the old one; any other
key has what the base has. -/
theorem find?_mergeEntries : ∀ {overlay : Keyed Value} (base : Keyed Value) (key : String),
    Keyed.Sorted overlay →
    Keyed.find? key (mergeEntries base overlay) =
      if isReserved key then Keyed.find? key base
      else match Keyed.find? key overlay with
        | none => Keyed.find? key base
        | some v => some (v.laidOver (Keyed.find? key base))
  | [], base, key, _ => by simp [mergeEntries]
  | (k, v) :: rest, base, key, h => by
    have hrest : Keyed.Sorted rest := (List.pairwise_cons.1 h).2
    rw [mergeEntries, Keyed.find?_cons]
    by_cases hk : key = k
    · subst hk
      by_cases hr : isReserved key
      · simp only [hr, if_true]
        rw [find?_mergeEntries base key hrest, if_pos hr]
      · simp only [hr, if_true]
        -- the rest of a sorted overlay does not write the key again
        rw [if_neg (by simp), find?_mergeEntries _ key hrest, if_neg hr, h.find?_tail]
        simp
    · rw [if_neg hk]
      split
      · exact find?_mergeEntries base key hrest
      · rw [find?_mergeEntries _ key hrest, Keyed.find?_insert_of_ne _ _ hk]

/-- An overlay that has no effect on any key it may write has none at all. -/
theorem mergeEntries_eq_self {base : Keyed Value} (hb : Keyed.Sorted base) {overlay : Keyed Value}
    (h : ∀ k v, (k, v) ∈ overlay → isReserved k = false →
      ∃ w, Keyed.find? k base = some w ∧ v.laidOver (some w) = w) :
    mergeEntries base overlay = base := by
  induction overlay with
  | nil => rw [mergeEntries]
  | cons e rest ih =>
    obtain ⟨k, v⟩ := e
    have hrest := ih fun l u hu => h l u (List.mem_cons_of_mem _ hu)
    rw [mergeEntries]
    split
    · exact hrest
    · rename_i hk
      obtain ⟨w, hw, hl⟩ := h k v List.mem_cons_self (Bool.eq_false_iff.2 hk)
      rw [hw, hl, hb.insert_eq_self hw, hrest]

end Value

namespace Config

/-- The entries of a merge, however it comes about. -/
theorem entries_merge (base overlay : Config) :
    (base.merge overlay).entries = Value.mergeEntries base.entries overlay.entries ∨
      base.entries = [] ∧ (base.merge overlay).entries = Value.stripEntries overlay.entries := by
  unfold merge mergeShared
  split
  · rename_i h
    left
    simp only [isEmpty, List.isEmpty_iff] at h
    simp [Merged.content, h, Value.mergeEntries]
  · split
    · rename_i hb
      right
      simp only [isEmpty, List.isEmpty_iff] at hb
      refine ⟨hb, ?_⟩
      rw [← entries_sanitize]
      unfold sanitize
      split <;> rename_i hs <;> simp [Merged.content, hs]
    · exact .inl rfl

/-- What a merge has under a key, however it comes about. -/
theorem find?_merge (base overlay : Config) (key : String) :
    (base.merge overlay).find? key =
      if isReserved key then base.find? key
      else match overlay.find? key with
        | none => base.find? key
        | some v => some (v.laidOver (base.find? key)) := by
  unfold find?
  rcases entries_merge base overlay with h | ⟨hb, h⟩
  · rw [h, Value.find?_mergeEntries _ _ overlay.ordered.1]
  · rw [h, Value.find?_stripEntries, hb, Keyed.find?_nil]
    cases Keyed.find? key overlay.entries with
    | none => simp
    | some v => simp [Value.laidOver_none]

/-! ## Walks -/

/-- Where a path of keys leads in an overlay. -/
inductive Walk where
  /-- To a value that is no table, at the end of the path. -/
  | leaf (v : Value)
  /-- To a value that is no table, before the end of the path. -/
  | blocked
  /-- To a key that the overlay does not have or that is reserved. -/
  | absent
  /-- To a table, at the end of the path. -/
  | table (es : Keyed Value)

/-- Walks a path by keys that are not reserved, for as long as it meets tables. -/
def walkEntries (es : Keyed Value) : List String → Walk
  | [] => .table es
  | key :: rest =>
    if isReserved key then .absent
    else match Keyed.find? key es with
      | none => .absent
      | some v =>
        match v.asTable? with
        | some inner => walkEntries inner rest
        | none => if rest.isEmpty then .leaf v else .blocked

def walk (overlay : Config) (path : List String) : Walk := walkEntries overlay.entries path

/-- What a merge has at the end of a walk in the overlay, when the base has `old` at that path. -/
def Walk.over (old : Option Value) : Walk → Option Value
  | .leaf v => some v.strip
  | .blocked => none
  | .absent => old
  | .table new =>
    match old.bind Value.asTable? with
    | some es => some (.table (Value.mergeEntries es new))
    | none => some (.table (Value.stripEntries new))

/-! ## Paths -/

theorem followKeys_table (es : Keyed Value) (key : String) (rest : List String) :
    followKeys (.table es) (key :: rest) = (Keyed.find? key es).bind (followKeys · rest) := rfl

theorem followKeys_of_not_table {v : Value} (h : v.asTable? = none) (path : List String) :
    followKeys v path = if path.isEmpty then some v else none := by
  cases path with
  | nil => rfl
  | cons key rest => cases v <;> first | rfl | cases h

/-- A table that comes from the overlay alone. -/
theorem followKeys_stripEntries : ∀ (path : List String) (es : Keyed Value),
    followKeys (.table (Value.stripEntries es)) path = (walkEntries es path).over none
  | [], es => rfl
  | key :: rest, es => by
    rw [followKeys_table, Value.find?_stripEntries, walkEntries]
    split
    · rfl
    · cases hf : Keyed.find? key es with
      | none => rfl
      | some v =>
        simp only [Option.map_some, Option.bind_some]
        cases hv : v.asTable? with
        | some inner =>
          rw [Value.asTable?_eq_some_iff.1 hv]
          exact followKeys_stripEntries rest inner
        | none =>
          rw [followKeys_of_not_table (Value.asTable?_strip hv)]
          cases rest <;> rfl

/-- Where the base has no table, nothing of it is left below a table of the overlay. -/
theorem over_followKeys_of_not_table {v : Value} (h : v.asTable? = none) (path : List String)
    (new : Keyed Value) :
    (walkEntries new path).over (followKeys v path) = (walkEntries new path).over none := by
  rw [followKeys_of_not_table h]
  cases path with
  | nil => simp [walkEntries, Walk.over, h]
  | cons key rest => rfl

/-- A table that both sides have. -/
theorem followKeys_mergeEntries : ∀ (path : List String) (base overlay : Keyed Value),
    (Value.table overlay).Ordered →
    followKeys (.table (Value.mergeEntries base overlay)) path =
      (walkEntries overlay path).over (followKeys (.table base) path)
  | [], base, overlay, _ => rfl
  | key :: rest, base, overlay, h => by
    rw [followKeys_table, followKeys_table, Value.find?_mergeEntries base key h.1, walkEntries]
    split
    · rfl
    · cases hf : Keyed.find? key overlay with
      | none => rfl
      | some v =>
        have hv := Value.ordered_of_find? h.2 hf
        simp only [Option.bind_some]
        cases ht : v.asTable? with
        | none =>
          rw [Value.laidOver_of_not_table ht, followKeys_of_not_table (Value.asTable?_strip ht)]
          cases rest <;> rfl
        | some inner =>
          rw [Value.asTable?_eq_some_iff.1 ht] at hv ⊢
          rw [Value.laidOver_table]
          cases hb : Keyed.find? key base with
          | none => exact followKeys_stripEntries rest inner
          | some u =>
            cases hu : u.asTable? with
            | some es =>
              simp only [Option.bind_some, hu]
              rw [followKeys_mergeEntries rest es inner hv, Value.asTable?_eq_some_iff.1 hu]
            | none =>
              simp only [Option.bind_some, hu]
              rw [over_followKeys_of_not_table hu]
              exact followKeys_stripEntries rest inner

/-- What the merge of two configurations has at a path of keys: a value that the overlay writes there,
without its reserved keys; nothing below such a value; a table of the overlay merged into a table of
the base, and stripped where the base has no table; and what the base has there wherever the overlay
says nothing or only something reserved. -/
theorem path?_merge (base overlay : Config) (key : String) (rest : List String) :
    (base.merge overlay).path? (key :: rest) =
      (overlay.walk (key :: rest)).over (base.path? (key :: rest)) := by
  show followKeys (.table (base.merge overlay).entries) (key :: rest) =
    (walkEntries overlay.entries (key :: rest)).over (followKeys (.table base.entries) (key :: rest))
  rcases entries_merge base overlay with h | ⟨hb, h⟩
  · rw [h, followKeys_mergeEntries _ _ _ overlay.ordered]
  · rw [h, followKeys_stripEntries, hb]
    rfl

end Config

end PromptTheme
