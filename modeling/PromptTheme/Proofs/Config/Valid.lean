/-
Configurations in which the checks find no error. `Config.isValid_iff_sound` says what that is for each
entry: a setting of the whole prompt has its type, and a module of the catalog is a table that is
switched off, if at all, by a boolean. `Config.isValid_merge` says that an overlay without errors leaves
a configuration without errors.

An overlay without errors cannot put a table in the place of a setting or a setting in the place of a
module, and below a module it can replace `disabled` by another boolean only.
-/
import PromptTheme.Proofs.Config.Overlay
import PromptTheme.Validation

namespace PromptTheme

namespace Config

/-- The key of a module of the catalog. -/
def IsModule (key : String) : Prop := key ∉ Catalog.globalKeys ∧ Catalog.isKnown key = true

/-- There is no error in a value under a top-level key. -/
structure Sound (key : String) (v : Value) : Prop where
  setting : ∀ check ∈ globalChecks, check.1 = key → check.2.1 v = true
  module : IsModule key →
    ∃ es, v = .table es ∧ ∀ d, Keyed.find? "disabled" es = some d → d.isBool = true

/-! ## The checks -/

theorem checkGlobals_eq_nil_iff {c : Config} : c.checkGlobals = [] ↔
    ∀ check ∈ globalChecks, ∀ v, c.find? check.1 = some v → check.2.1 v = true := by
  rw [checkGlobals, List.filterMap_eq_nil_iff]
  constructor
  · intro h check hm v hv
    have hc := h check hm
    dsimp only at hc
    rw [hv] at hc
    simpa using hc
  · intro h check hm
    dsimp only
    split
    · rename_i v hv
      rw [if_pos (h check hm v hv)]
    · rfl

theorem isError_of_mem_checkGlobals {c : Config} {f : Finding} (h : f ∈ c.checkGlobals) :
    f.isError = true := by
  obtain ⟨check, hm, hf⟩ := List.mem_filterMap.1 h
  have hall : ∀ check ∈ globalChecks, check.2.2.isError = true := by decide
  dsimp only at hf
  split at hf
  · split at hf
    · cases hf
    · cases hf
      exact hall check hm
  · cases hf

/-- An entry is in error only under the key of a module. -/
theorem checkEntry_isError_iff {key : String} {v : Value} :
    (∀ f, checkEntry key v = some f → f.isError = false) ↔
      (IsModule key →
        ∃ es, v = .table es ∧ ∀ d, Keyed.find? "disabled" es = some d → d.isBool = true) := by
  unfold checkEntry IsModule
  by_cases hg : key ∈ Catalog.globalKeys
  · rw [if_pos (List.contains_iff_mem.2 hg)]
    simp [hg]
  rw [if_neg (by rwa [List.contains_iff_mem])]
  by_cases hk : Catalog.isKnown key = true
  · rw [if_neg (by simp [hk])]
    cases v with
    | table es =>
      cases hd : Keyed.find? "disabled" es with
      | none => simp [hd]
      | some d => cases hb : d.isBool <;> simp [hd, hb, hg, hk, Finding.isError]
    | _ => simp [hg, hk, Finding.isError]
  · rw [if_pos (by simpa using hk)]
    simp [hk, Finding.isError]

/-- What the contrast check finds is a color of the module. -/
theorem eq_lowContrast {c : Config} {name : String} {f : Finding} (h : c.checkContrastOf name = some f) :
    ∃ color, f = .lowContrast name color := by
  unfold checkContrastOf at h
  split at h
  · cases h
  · rename_i hex _
    split at h
    · cases h
    · split at h
      · cases h
      · cases h
        exact ⟨String.ofList hex, rfl⟩

theorem isError_of_mem_checkContrast {c : Config} {f : Finding} (h : f ∈ c.checkContrast) :
    f.isError = false := by
  obtain ⟨name, -, hf⟩ := List.mem_filterMap.1 h
  obtain ⟨color, rfl⟩ := eq_lowContrast hf
  rfl

theorem isError_of_mem_checkTime {c : Config} {f : Finding} (h : f ∈ c.checkTime) :
    f.isError = false := by
  unfold checkTime at h
  split at h
  · rw [List.mem_singleton] at h
    subst h
    rfl
  · cases h

theorem isError_of_mem_checkCharacter {c : Config} {f : Finding} (h : f ∈ c.checkCharacter) :
    f.isError = false := by
  unfold checkCharacter at h
  split at h
  · cases h
  · split at h
    · cases h
    · rw [List.mem_singleton] at h
      subst h
      rfl

/-- Errors come from the checks of types only. -/
theorem isValid_iff {c : Config} : c.validate.isValid = true ↔
    c.checkGlobals = [] ∧ ∀ f ∈ c.checkEntries, f.isError = false := by
  rw [Report.isValid, Report.errors, List.isEmpty_iff, List.filter_eq_nil_iff, validate]
  simp only [List.mem_append]
  constructor
  · intro h
    refine ⟨List.eq_nil_iff_forall_not_mem.2 fun f hf => ?_, fun f hf => ?_⟩
    · exact h f (.inl (.inl (.inl (.inl hf)))) (isError_of_mem_checkGlobals hf)
    · simpa using h f (.inl (.inl (.inl (.inr hf))))
  · rintro ⟨hg, he⟩ f ((((hf | hf) | hf) | hf) | hf)
    · rw [hg] at hf
      cases hf
    · simp [he f hf]
    · simp [isError_of_mem_checkContrast hf]
    · simp [isError_of_mem_checkTime hf]
    · simp [isError_of_mem_checkCharacter hf]

/-- The checks find no error exactly when there is none in any entry. -/
theorem isValid_iff_sound {c : Config} :
    c.validate.isValid = true ↔ ∀ key v, c.find? key = some v → Sound key v := by
  rw [isValid_iff, checkGlobals_eq_nil_iff]
  constructor
  · rintro ⟨hg, he⟩ key v hv
    refine ⟨?_, checkEntry_isError_iff.1 fun f hf => he f ?_⟩
    · rintro check hm rfl
      exact hg check hm v hv
    · exact List.mem_filterMap.2 ⟨(key, v), Keyed.mem_of_find? hv, hf⟩
  · intro h
    refine ⟨fun check hm v hv => (h check.1 v hv).setting check hm rfl, fun f hf => ?_⟩
    obtain ⟨⟨key, v⟩, hm, hf⟩ := List.mem_filterMap.1 hf
    exact checkEntry_isError_iff.2 (h key v (c.ordered.1.find?_of_mem hm)).module f hf

/-! ## Overlays -/

/-- What has the type of a setting is taken over as it is. -/
theorem laidOver_of_check {check : String × (Value → Bool) × Finding} (h : check ∈ globalChecks) {v : Value}
    (hv : check.2.1 v = true) (old : Option Value) : v.laidOver old = v := by
  simp only [globalChecks, List.mem_cons, List.not_mem_nil, or_false] at h
  rcases h with rfl | rfl | rfl | rfl <;>
    cases v <;> simp_all [Value.isString, Value.asString?, Value.isBool, Value.asBool?, Value.isNumber,
      Value.laidOver]

theorem laidOver_of_isBool {v : Value} (hv : v.isBool = true) (old : Option Value) : v.laidOver old = v := by
  cases v <;> simp_all [Value.isBool, Value.asBool?, Value.laidOver]

/-- A sound value that is laid over a sound value, or over nothing, is sound. -/
theorem Sound.laidOver {key : String} {old : Option Value} {v : Value}
    (hold : ∀ o, old = some o → Sound key o) (hv : Sound key v) (ho : v.Ordered) :
    Sound key (v.laidOver old) := by
  refine ⟨fun check hm hkey => ?_, fun hmodule => ?_⟩
  · have hok := hv.setting check hm hkey
    rw [laidOver_of_check hm hok]
    exact hok
  · obtain ⟨new, rfl, hnew⟩ := hv.module hmodule
    have hreserved : isReserved "disabled" = false := by decide
    rw [Value.laidOver_table]
    split
    · rename_i es hes
      -- the old value is a table, with a boolean under `disabled` if anything
      obtain ⟨o, rfl, ht⟩ := Option.bind_eq_some_iff.1 hes
      obtain ⟨es', rfl, hes'⟩ := (hold o rfl).module hmodule
      cases ht
      refine ⟨_, rfl, fun d hd => ?_⟩
      rw [Value.find?_mergeEntries es "disabled" ho.1, hreserved, if_neg (by decide)] at hd
      split at hd
      · exact hes' d hd
      · rename_i w hw
        cases hd
        rw [laidOver_of_isBool (hnew w hw)]
        exact hnew w hw
    · refine ⟨_, rfl, fun d hd => ?_⟩
      rw [Value.find?_stripEntries, hreserved, if_neg (by decide)] at hd
      obtain ⟨w, hw, rfl⟩ := Option.map_eq_some_iff.1 hd
      rw [← Value.laidOver_none, laidOver_of_isBool (hnew w hw)]
      exact hnew w hw

/-- A merge has no errors when neither of its sides has any. -/
theorem isValid_merge {base overlay : Config} (hb : base.validate.isValid = true)
    (ho : overlay.validate.isValid = true) : (base.merge overlay).validate.isValid = true := by
  rw [isValid_iff_sound] at hb ho ⊢
  intro key w hw
  rw [find?_merge] at hw
  split at hw
  · exact hb key w hw
  · split at hw
    · exact hb key w hw
    · rename_i v hv
      cases hw
      exact .laidOver (hb key) (ho key v hv) (Value.ordered_of_find? overlay.ordered.2 hv)

end Config

end PromptTheme
