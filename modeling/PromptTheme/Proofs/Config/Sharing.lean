/-
Which configurations are shared by a merge. A configuration is held at an address, and two handles are
the same if they have the same address. `Config.Handle.merge_shares` says that a merge gives what the
merge of the tables gives, and tells exactly when it hands back the base, when it hands back the overlay
and when it puts a new configuration at an address of its own.
-/
import PromptTheme.Proofs.Config.Layers

namespace PromptTheme.Config

/-! ## Outcomes -/

/-- A configuration can stay as it is when no reserved key occurs in it. -/
theorem stripped?_eq_none_iff {c : Config} : c.stripped? = none ↔ c.NoReserved := by
  rw [noReserved_iff]
  unfold stripped?
  split
  · rename_i h
    simp [h]
  · rename_i h
    simp [h]

/-- The three outcomes of a merge, with what leads to each. -/
theorem mergeShared_cases (base overlay : Config) :
    (overlay.isEmpty = true ∧ mergeShared base overlay = .base) ∨
    (overlay.isEmpty = false ∧ (base.isEmpty = true ∧ overlay.NoReserved) ∧
      mergeShared base overlay = .overlay) ∨
    (overlay.isEmpty = false ∧ ¬ (base.isEmpty = true ∧ overlay.NoReserved) ∧
      ∃ c, mergeShared base overlay = .fresh c) := by
  unfold mergeShared
  by_cases ho : overlay.isEmpty = true
  · exact .inl ⟨ho, if_pos ho⟩
  rw [if_neg ho]
  rw [Bool.not_eq_true] at ho
  by_cases hb : base.isEmpty = true
  · rw [if_pos hb]
    cases hs : overlay.stripped? with
    | none => exact .inr (.inl ⟨ho, ⟨hb, stripped?_eq_none_iff.1 hs⟩, rfl⟩)
    | some c =>
      refine .inr (.inr ⟨ho, ?_, c, rfl⟩)
      rintro ⟨-, hclean⟩
      rw [stripped?_eq_none_iff.2 hclean] at hs
      cases hs
  · rw [if_neg hb]
    exact .inr (.inr ⟨ho, fun h => hb h.1, _, rfl⟩)

/-! ## Handles -/

/-- A configuration and where it is held. -/
structure Handle where
  address : Nat
  config : Config

namespace Handle

/-- The handle of an outcome, when a new configuration is put at the address `free`. -/
def ofMerged (free : Nat) (base overlay : Handle) : Merged → Handle
  | .base => base
  | .overlay => overlay
  | .fresh c => ⟨free, c⟩

/-- Lays one configuration over another, and shares what it can. -/
def merge (free : Nat) (base overlay : Handle) : Handle :=
  ofMerged free base overlay (mergeShared base.config overlay.config)

theorem config_merge (free : Nat) (base overlay : Handle) :
    (merge free base overlay).config = base.config.merge overlay.config := by
  unfold merge Config.merge
  cases mergeShared base.config overlay.config <;> rfl

/-- What a merge gives is what the merge of the tables gives. It is the base itself exactly when the
overlay is empty; otherwise it is the overlay itself exactly when the base is empty and no reserved key
occurs in the overlay; and in every other case it is held at the free address, which neither has. So it
is never the base when its content is another. -/
theorem merge_shares (free : Nat) (base overlay : Handle)
    (hsame : base.address = overlay.address → base.config = overlay.config)
    (hbase : free ≠ base.address) (hoverlay : free ≠ overlay.address) :
    let merged := merge free base overlay
    base.config.merge overlay.config = base.config.mergeTables overlay.config ∧
    merged.config = base.config.merge overlay.config ∧
    (merged.address = base.address ↔ overlay.config.isEmpty = true) ∧
    (overlay.config.isEmpty = false →
      (merged.address = overlay.address ↔ base.config.isEmpty = true ∧ overlay.config.NoReserved)) ∧
    (overlay.config.isEmpty = false → ¬ (base.config.isEmpty = true ∧ overlay.config.NoReserved) →
      merged.address = free) ∧
    (merged.config ≠ base.config → merged.address ≠ base.address) := by
  intro merged
  refine ⟨merge_eq_mergeTables _ _, config_merge free base overlay, ?_⟩
  rcases mergeShared_cases base.config overlay.config with ⟨ho, hm⟩ | ⟨ho, hb, hm⟩ | ⟨ho, hb, c, hm⟩
  · have hmerged : merged = base := congrArg (ofMerged free base overlay) hm
    rw [hmerged, ho]
    refine ⟨⟨fun _ => rfl, fun _ => rfl⟩, ?_, ?_, fun hne => absurd rfl hne⟩ <;> rintro ⟨⟩
  · have hmerged : merged = overlay := congrArg (ofMerged free base overlay) hm
    -- one address for both would make the overlay as empty as the base
    have hother : overlay.address ≠ base.address := by
      intro haddress
      rw [← hsame haddress.symm, hb.1] at ho
      cases ho
    rw [hmerged, ho]
    refine ⟨⟨fun h => absurd h hother, ?_⟩, fun _ => ⟨fun _ => hb, fun _ => rfl⟩, ?_, fun _ => hother⟩
    · rintro ⟨⟩
    · exact fun _ hn => absurd hb hn
  · have hmerged : merged = ⟨free, c⟩ := congrArg (ofMerged free base overlay) hm
    rw [hmerged, ho]
    refine ⟨⟨fun h => absurd h hbase, ?_⟩, fun _ => ⟨fun h => absurd h hoverlay, fun h => absurd h hb⟩,
      fun _ _ => rfl, fun _ => hbase⟩
    rintro ⟨⟩

/-- Over an empty base, an overlay with a reserved key in an array is copied. -/
theorem merge_shares_copied :
    let base : Handle := ⟨0, .empty⟩
    let overlay : Handle := ⟨1, .ofEntries [("list", .array [.table [("prototype", .null)]])]⟩
    let merged := merge 2 base overlay
    (base.address = overlay.address → base.config = overlay.config) ∧ 2 ≠ base.address ∧
      2 ≠ overlay.address ∧ overlay.config.isEmpty = false ∧
      ¬ (base.config.isEmpty = true ∧ overlay.config.NoReserved) ∧
      merged.config = base.config.mergeTables overlay.config ∧ merged.address = 2 := by
  intro base overlay merged
  have hne : base.address ≠ overlay.address := by decide
  have hempty : overlay.config.isEmpty = false := by decide
  have htainted : ¬ (base.config.isEmpty = true ∧ overlay.config.NoReserved) := by decide
  obtain ⟨ht, hc, -, -, hfree, -⟩ :=
    merge_shares 2 base overlay (fun h => absurd h hne) (by decide) (by decide)
  exact ⟨fun h => absurd h hne, by decide, by decide, hempty, htainted, hc.trans ht, hfree hempty htainted⟩

end Handle

end PromptTheme.Config
