/-
Values without reserved keys. `Value.HasKey` says that a key occurs in a value, in a table at any depth
below tables and arrays, and `Config.NoReserved` that none of the reserved keys does. A configuration
without reserved keys stays so under every overlay, whatever keys the overlay has.

The proofs go by the check `Value.hasReserved`, which recurses as stripping and merging do, and
`Value.hasReserved_iff` says that the check finds exactly the reserved keys that occur.
-/
import PromptTheme.Proofs.Config.Overlay

namespace PromptTheme

namespace Value

/-- The key occurs in the value, at any depth of tables and arrays. -/
inductive HasKey (key : String) : Value → Prop where
  | here {es : Keyed Value} {v : Value} : (key, v) ∈ es → HasKey key (.table es)
  | entry {es : Keyed Value} {k : String} {v : Value} :
      (k, v) ∈ es → HasKey key v → HasKey key (.table es)
  | item {vs : List Value} {v : Value} : v ∈ vs → HasKey key v → HasKey key (.array vs)

/-! ## The check -/

theorem isReserved_iff {key : String} : isReserved key = true ↔ key ∈ reservedKeys :=
  List.contains_iff_mem

theorem itemsHaveReserved_iff {vs : List Value} :
    itemsHaveReserved vs = true ↔ ∃ v ∈ vs, v.hasReserved = true := by
  induction vs with
  | nil => simp [itemsHaveReserved]
  | cons v rest ih => simp [itemsHaveReserved, ih]

theorem entriesHaveReserved_iff {es : Keyed Value} :
    entriesHaveReserved es = true ↔ ∃ e ∈ es, isReserved e.1 = true ∨ e.2.hasReserved = true := by
  induction es with
  | nil => simp [entriesHaveReserved]
  | cons e rest ih => obtain ⟨k, v⟩ := e; simp [entriesHaveReserved, ih]

theorem hasReserved_of_hasKey {key : String} (hk : key ∈ reservedKeys) {v : Value}
    (h : v.HasKey key) : v.hasReserved = true := by
  induction h with
  | here hm => exact entriesHaveReserved_iff.2 ⟨_, hm, .inl (isReserved_iff.2 hk)⟩
  | entry hm _ ih => exact entriesHaveReserved_iff.2 ⟨_, hm, .inr ih⟩
  | item hm _ ih => exact itemsHaveReserved_iff.2 ⟨_, hm, ih⟩

mutual

theorem hasKey_of_hasReserved : ∀ {v : Value}, v.hasReserved = true →
    ∃ key ∈ reservedKeys, v.HasKey key
  | .array items, h => by
    obtain ⟨v, hm, key, hk, hv⟩ := hasKey_of_itemsHaveReserved h
    exact ⟨key, hk, .item hm hv⟩
  | .table es, h => by
    obtain ⟨e, hm, key, hk, rfl | hv⟩ := hasKey_of_entriesHaveReserved h
    · exact ⟨e.1, hk, .here hm⟩
    · exact ⟨key, hk, .entry hm hv⟩
  | .null, h => by simp [hasReserved] at h
  | .bool _, h => by simp [hasReserved] at h
  | .number _, h => by simp [hasReserved] at h
  | .string _, h => by simp [hasReserved] at h

theorem hasKey_of_itemsHaveReserved : ∀ {vs : List Value}, itemsHaveReserved vs = true →
    ∃ v ∈ vs, ∃ key ∈ reservedKeys, v.HasKey key
  | [], h => by simp [itemsHaveReserved] at h
  | v :: vs, h => by
    simp only [itemsHaveReserved, Bool.or_eq_true] at h
    rcases h with h | h
    · exact ⟨v, List.mem_cons_self, hasKey_of_hasReserved h⟩
    · obtain ⟨w, hm, hw⟩ := hasKey_of_itemsHaveReserved h
      exact ⟨w, List.mem_cons_of_mem _ hm, hw⟩

theorem hasKey_of_entriesHaveReserved : ∀ {es : List (String × Value)},
    entriesHaveReserved es = true →
    ∃ e ∈ es, ∃ key ∈ reservedKeys, e.1 = key ∨ e.2.HasKey key
  | [], h => by simp [entriesHaveReserved] at h
  | (k, v) :: es, h => by
    simp only [entriesHaveReserved, Bool.or_eq_true] at h
    rcases h with (h | h) | h
    · exact ⟨_, List.mem_cons_self, k, isReserved_iff.1 h, .inl rfl⟩
    · obtain ⟨key, hk, hv⟩ := hasKey_of_hasReserved h
      exact ⟨_, List.mem_cons_self, key, hk, .inr hv⟩
    · obtain ⟨e, hm, he⟩ := hasKey_of_entriesHaveReserved h
      exact ⟨e, List.mem_cons_of_mem _ hm, he⟩

end

/-- The check finds a reserved key wherever one occurs, and nothing else. -/
theorem hasReserved_iff {v : Value} :
    v.hasReserved = true ↔ ∃ key ∈ reservedKeys, v.HasKey key :=
  ⟨hasKey_of_hasReserved, fun ⟨_, hk, h⟩ => hasReserved_of_hasKey hk h⟩

/-! ## Stripping and merging -/

mutual

theorem hasReserved_strip : ∀ v : Value, v.strip.hasReserved = false
  | .array items => itemsHaveReserved_stripItems items
  | .table es => entriesHaveReserved_stripEntries es
  | .null => rfl
  | .bool _ => rfl
  | .number _ => rfl
  | .string _ => rfl

theorem itemsHaveReserved_stripItems : ∀ vs : List Value, itemsHaveReserved (stripItems vs) = false
  | [] => rfl
  | v :: vs => by
    simp only [stripItems, itemsHaveReserved, Bool.or_eq_false_iff]
    exact ⟨hasReserved_strip v, itemsHaveReserved_stripItems vs⟩

theorem entriesHaveReserved_stripEntries : ∀ es : List (String × Value),
    entriesHaveReserved (stripEntries es) = false
  | [] => rfl
  | (k, v) :: es => by
    rw [stripEntries]
    split
    · exact entriesHaveReserved_stripEntries es
    · rename_i hk
      simp only [entriesHaveReserved, Bool.or_eq_false_iff]
      exact ⟨⟨by simpa using hk, hasReserved_strip v⟩, entriesHaveReserved_stripEntries es⟩

end

theorem entriesHaveReserved_insert {key : String} {v : Value} {es : Keyed Value}
    (hk : isReserved key = false) (hv : v.hasReserved = false) (h : entriesHaveReserved es = false) :
    entriesHaveReserved (Keyed.insert key v es) = false := by
  rw [← Bool.not_eq_true, entriesHaveReserved_iff] at h ⊢
  rintro ⟨e, he, hr⟩
  rcases Keyed.mem_insert he with rfl | he
  · rw [hk, hv] at hr
    simp at hr
  · exact h ⟨e, he, hr⟩

theorem hasReserved_of_find? {key : String} {v : Value} {es : Keyed Value}
    (h : entriesHaveReserved es = false) (hf : Keyed.find? key es = some v) :
    v.hasReserved = false := by
  rw [← Bool.not_eq_true, entriesHaveReserved_iff] at h
  rw [← Bool.not_eq_true]
  exact fun hv => h ⟨_, Keyed.mem_of_find? hf, .inr hv⟩

mutual

theorem hasReserved_laidOver : ∀ {old : Option Value} {v : Value},
    (∀ o, old = some o → o.hasReserved = false) → (v.laidOver old).hasReserved = false
  | _, .array items, _ => itemsHaveReserved_stripItems items
  | old, .table new, h => by
    unfold laidOver
    split
    · rename_i es
      exact entriesHaveReserved_mergeEntries (h _ rfl)
    · exact entriesHaveReserved_stripEntries new
  | _, .null, _ => rfl
  | _, .bool _, _ => rfl
  | _, .number _, _ => rfl
  | _, .string _, _ => rfl

/-- An overlay writes no reserved key into a table, however deep. -/
theorem entriesHaveReserved_mergeEntries : ∀ {base overlay : List (String × Value)},
    entriesHaveReserved base = false → entriesHaveReserved (mergeEntries base overlay) = false
  | _, [], h => by simpa [mergeEntries] using h
  | base, (k, v) :: rest, h => by
    rw [mergeEntries]
    split
    · exact entriesHaveReserved_mergeEntries h
    · rename_i hk
      -- the table that the rest is merged into has the key by now
      refine entriesHaveReserved_mergeEntries (entriesHaveReserved_insert (by simpa using hk) ?_ h)
      exact hasReserved_laidOver fun o ho => hasReserved_of_find? h ho

end

/-! ## Tables as they are written down -/

mutual

theorem hasReserved_normalize : ∀ {v : Value}, v.hasReserved = false → v.normalize.hasReserved = false
  | .array _, h => itemsHaveReserved_normalizeItems h
  | .table _, h => entriesHaveReserved_normalizeEntries rfl h
  | .null, _ => rfl
  | .bool _, _ => rfl
  | .number _, _ => rfl
  | .string _, _ => rfl

theorem itemsHaveReserved_normalizeItems : ∀ {vs : List Value}, itemsHaveReserved vs = false →
    itemsHaveReserved (normalizeItems vs) = false
  | [], _ => rfl
  | v :: vs, h => by
    simp only [normalizeItems, itemsHaveReserved, Bool.or_eq_false_iff] at h ⊢
    exact ⟨hasReserved_normalize h.1, itemsHaveReserved_normalizeItems h.2⟩

theorem entriesHaveReserved_normalizeEntries : ∀ {sorted es : List (String × Value)},
    entriesHaveReserved sorted = false → entriesHaveReserved es = false →
    entriesHaveReserved (normalizeEntries sorted es) = false
  | _, [], hs, _ => by simpa [normalizeEntries] using hs
  | sorted, (k, v) :: es, hs, h => by
    simp only [entriesHaveReserved, Bool.or_eq_false_iff] at h
    obtain ⟨⟨hk, hv⟩, he⟩ := h
    rw [normalizeEntries]
    exact entriesHaveReserved_normalizeEntries
      (entriesHaveReserved_insert hk (hasReserved_normalize hv) hs) he

end

end Value

namespace Config

/-- None of the reserved keys occurs in the configuration, at any depth of tables and arrays. -/
def NoReserved (c : Config) : Prop := ∀ key ∈ reservedKeys, ¬ c.toValue.HasKey key

theorem noReserved_iff {c : Config} : c.NoReserved ↔ Value.entriesHaveReserved c.entries = false := by
  show _ ↔ c.toValue.hasReserved = false
  rw [← Bool.not_eq_true, Value.hasReserved_iff]
  constructor
  · rintro h ⟨key, hk, hv⟩
    exact h key hk hv
  · intro h key hk hv
    exact h ⟨key, hk, hv⟩

instance (c : Config) : Decidable c.NoReserved := decidable_of_iff _ noReserved_iff.symm

/-- A merge has no reserved key that its base does not have. -/
theorem NoReserved.merge {base : Config} (h : base.NoReserved) (overlay : Config) :
    (base.merge overlay).NoReserved := by
  rw [noReserved_iff] at h ⊢
  rcases entries_merge base overlay with he | ⟨-, he⟩
  · rw [he]
    exact Value.entriesHaveReserved_mergeEntries h
  · rw [he]
    exact Value.entriesHaveReserved_stripEntries _

theorem noReserved_ofEntries {es : List (String × Value)} (h : Value.entriesHaveReserved es = false) :
    (ofEntries es).NoReserved :=
  noReserved_iff.2 (Value.entriesHaveReserved_normalizeEntries rfl h)

end Config

end PromptTheme
