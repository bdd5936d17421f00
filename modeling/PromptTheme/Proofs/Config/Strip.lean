/-
What stripping leaves in a table. A key that is not reserved keeps its value, stripped, and a
reserved key has nothing. A table that holds no reserved key at any depth is left as it is, so a
sanitized configuration has the stripped entries whether or not it is the old one.
-/
import PromptTheme.Config.Merge

namespace PromptTheme

namespace Value

/-! ## Lookup -/

theorem find?_stripEntries (es : Keyed Value) (key : String) :
    Keyed.find? key (stripEntries es) =
      if isReserved key then none else (Keyed.find? key es).map strip := by
  induction es with
  | nil => simp [stripEntries]
  | cons e rest ih =>
    obtain ⟨k, v⟩ := e
    rw [Keyed.find?_cons]
    by_cases hk : key = k
    · subst hk
      by_cases hr : isReserved key
      · simp only [stripEntries, hr, if_true] at ih ⊢
        exact ih
      · simp [stripEntries, hr, Keyed.find?_cons]
    · rw [if_neg hk, ← ih]
      by_cases hr : isReserved k
      · simp [stripEntries, hr]
      · simp [stripEntries, hr, Keyed.find?_cons, hk]

theorem asTable?_eq_some_iff {v : Value} {es : Keyed Value} : v.asTable? = some es ↔ v = .table es := by
  cases v <;> simp [asTable?]

theorem asTable?_strip {v : Value} (h : v.asTable? = none) : v.strip.asTable? = none := by
  cases v <;> simp_all [asTable?, strip]

/-! ## Values without reserved keys -/

mutual

theorem strip_eq_self : ∀ {v : Value}, v.hasReserved = false → v.strip = v
  | .array items, h => by
    simp only [hasReserved] at h
    simp only [strip, stripItems_eq_self h]
  | .table es, h => by
    simp only [hasReserved] at h
    simp only [strip, stripEntries_eq_self h]
  | .null, _ => by simp [strip]
  | .bool _, _ => by simp [strip]
  | .number _, _ => by simp [strip]
  | .string _, _ => by simp [strip]

theorem stripItems_eq_self : ∀ {vs : List Value}, itemsHaveReserved vs = false → stripItems vs = vs
  | [], _ => rfl
  | v :: vs, h => by
    simp only [itemsHaveReserved, Bool.or_eq_false_iff] at h
    simp only [stripItems, strip_eq_self h.1, stripItems_eq_self h.2]

/-- A table with nothing reserved in it is left as it is. -/
theorem stripEntries_eq_self : ∀ {es : List (String × Value)}, entriesHaveReserved es = false →
    stripEntries es = es
  | [], _ => rfl
  | (k, v) :: es, h => by
    simp only [entriesHaveReserved, Bool.or_eq_false_iff] at h
    obtain ⟨⟨hk, hv⟩, he⟩ := h
    simp only [stripEntries, hk, strip_eq_self hv, stripEntries_eq_self he]
    simp

end

end Value

namespace Config

theorem entries_sanitize (c : Config) : c.sanitize.entries = Value.stripEntries c.entries := by
  unfold sanitize stripped?
  split
  · rfl
  · rename_i h
    simp only [Bool.not_eq_true] at h
    exact (Value.stripEntries_eq_self h).symm

end Config

end PromptTheme
