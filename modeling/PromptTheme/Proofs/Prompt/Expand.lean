/-
What a format expands to holds no ESC when nothing that goes into it does: the format, the strings of the
configuration and the values of the scenario. The fragments are followed through each renderer, except
that a template draws a text of its own.
-/
import PromptTheme.Prompt.Engine
import PromptTheme.Proofs.Style.Sequence
import Mathlib.Tactic

namespace PromptTheme

open Escape (esc)

/-! ## Strings without ESC -/

/-- A string without ESC. -/
def EscFree (s : String) : Prop := esc ∉ s.toList

instance (s : String) : Decidable (EscFree s) := inferInstanceAs (Decidable (esc ∉ s.toList))

theorem EscFree.append {s t : String} (hs : EscFree s) (ht : EscFree t) : EscFree (s ++ t) := by
  rw [EscFree, String.toList_append, List.mem_append, not_or]
  exact ⟨hs, ht⟩

theorem escFree_ofList {s : List Char} (h : esc ∉ s) : EscFree (String.ofList s) := by
  rw [EscFree, String.toList_ofList]
  exact h

theorem EscFree.intercalate {sep : String} (hs : EscFree sep) {ts : List String} (h : ∀ t ∈ ts, EscFree t) :
    EscFree (sep.intercalate ts) := by
  rw [EscFree, String.toList_intercalate]
  intro hm
  rcases Escape.mem_intercalate hm with hm | ⟨n, hn, hm⟩
  · exact hs hm
  · obtain ⟨t, ht, rfl⟩ := List.mem_map.1 hn
    exact h t ht hm

mutual

/-- The strings in a value, at every depth. -/
def Value.strings : Value → List String
  | .string s => [s]
  | .array items => itemStrings items
  | .table es => entryStrings es
  | _ => []

def Value.itemStrings : List Value → List String
  | [] => []
  | v :: vs => v.strings ++ itemStrings vs

def Value.entryStrings : List (String × Value) → List String
  | [] => []
  | (_, v) :: es => v.strings ++ entryStrings es

end

/-- The strings of a configuration. -/
def Config.strings (c : Config) : List String := Value.entryStrings c.entries

/-- The values that the modules of a scenario show. -/
def Scenario.strings (s : Scenario) : List String := s.values.entries.map Prod.snd

theorem Value.strings_of_find? {es : Keyed Value} {key : String} {v : Value}
    (h : Keyed.find? key es = some v) : v.strings ⊆ entryStrings es := by
  induction es with
  | nil => cases h
  | cons e es ih =>
    obtain ⟨k, w⟩ := e
    rw [Keyed.find?_cons] at h
    rw [entryStrings]
    split at h
    · cases h
      exact List.subset_append_left _ _
    · exact List.Subset.trans (ih h) (List.subset_append_right _ _)

theorem Value.strings_of_asTable? {v : Value} {es : Keyed Value} (h : v.asTable? = some es) :
    entryStrings es ⊆ v.strings := by
  cases v with
  | table es' => cases h; rw [strings]; exact List.Subset.refl _
  | _ => cases h

theorem Value.mem_strings_of_asString? {v : Value} {s : String} (h : v.asString? = some s) :
    s ∈ v.strings := by
  cases v with
  | string s' => cases h; rw [strings]; exact List.mem_singleton.2 rfl
  | _ => cases h

namespace Config

theorem strings_of_module? {c : Config} {name : String} {es : Keyed Value} (h : c.module? name = some es) :
    Value.entryStrings es ⊆ c.strings := by
  obtain ⟨v, hv, ht⟩ := Option.bind_eq_some_iff.1 h
  exact List.Subset.trans (Value.strings_of_asTable? ht) (Value.strings_of_find? hv)

theorem mem_strings_of_moduleString? {c : Config} {name key s : String}
    (h : c.moduleString? name key = some s) : s ∈ c.strings := by
  obtain ⟨v, hv, hs⟩ := Option.bind_eq_some_iff.1 h
  obtain ⟨es, hm, hf⟩ := Option.bind_eq_some_iff.1 hv
  exact strings_of_module? hm (Value.strings_of_find? hf (Value.mem_strings_of_asString? hs))

theorem strings_of_customModule? {c : Config} {name : String} {es : Keyed Value}
    (h : c.customModule? name = some es) : Value.entryStrings es ⊆ c.strings := by
  obtain ⟨v, hv, ht⟩ := Option.bind_eq_some_iff.1 h
  obtain ⟨ds, hm, hf⟩ := Option.bind_eq_some_iff.1 hv
  have hes := List.Subset.trans (Value.strings_of_asTable? ht) (Value.strings_of_find? hf)
  exact List.Subset.trans hes (strings_of_module? hm)

end Config

/-! ## References -/

namespace Reference

theorem esc_not_mem_flush {replace : List Char → List Char} (hr : ∀ n, esc ∉ n → esc ∉ replace n)
    {name : List Char} (hn : esc ∉ name) : esc ∉ flush replace name := by
  unfold flush
  split
  · decide
  · exact hr _ (by rwa [List.mem_reverse])

theorem esc_not_mem_sweepFrom {replace : List Char → List Char} (hr : ∀ n, esc ∉ n → esc ∉ replace n)
    {s : List Char} (hs : esc ∉ s) : ∀ {name : Option (List Char)}, (∀ n ∈ name, esc ∉ n) →
      esc ∉ sweepFrom replace name s := by
  induction s with
  | nil =>
    intro name hn
    cases name with
    | none => simp [sweepFrom]
    | some n => exact esc_not_mem_flush hr (hn n rfl)
  | cons c s ih =>
    rw [List.mem_cons, not_or] at hs
    -- behind a name the text goes on as if there had been none
    have go : esc ∉ (if c = '$' then sweepFrom replace (some []) s else c :: sweepFrom replace none s) := by
      split
      · exact ih hs.2 (by rintro n ⟨⟩; simp)
      · rw [List.mem_cons, not_or]
        exact ⟨hs.1, ih hs.2 (by rintro n ⟨⟩)⟩
    intro name hn
    cases name with
    | none => exact go
    | some n =>
      unfold sweepFrom
      dsimp only
      split
      · refine ih hs.2 ?_
        rintro m ⟨⟩
        rw [List.mem_cons, not_or]
        exact ⟨hs.1, hn n rfl⟩
      · rw [List.mem_append, not_or]
        exact ⟨esc_not_mem_flush hr (hn n rfl), go⟩

theorem escFree_substitute {template : String} (ht : EscFree template) {vars : List (String × String)}
    (hv : ∀ v ∈ vars, EscFree v.2) : EscFree (substitute template vars) := by
  refine escFree_ofList (esc_not_mem_sweepFrom ?_ ht (by rintro n ⟨⟩))
  intro n hn
  cases h : lookup? n vars with
  | none =>
    rw [Option.getD_none, List.mem_cons, not_or]
    exact ⟨by decide, hn⟩
  | some value =>
    obtain ⟨v, hf, rfl⟩ := Option.map_eq_some_iff.1 h
    exact hv v (List.mem_of_find?_eq_some hf)

end Reference

/-! ## Fragments -/

/-- Nothing that a renderer looks at has an ESC in it. -/
structure ModuleContext.Clean (ctx : ModuleContext) : Prop where
  value : EscFree ctx.value
  strings : ∀ t ∈ ctx.config.strings, EscFree t

variable {ctx : ModuleContext}

theorem ModuleContext.Clean.setting (h : ctx.Clean) (key : String) {default : String}
    (hd : EscFree default) : EscFree (ctx.setting key default) := by
  rw [ModuleContext.setting]
  cases hs : ctx.setting? key with
  | none => exact hd
  | some s => exact h.strings s (Config.mem_strings_of_moduleString? (Option.filter_eq_some_iff.1 hs).1)

theorem escFree_styledGroup {text style : String} (ht : EscFree text) (hs : EscFree style) :
    EscFree (styledGroup text style) :=
  ((((by decide : EscFree "[").append ht).append (by decide)).append hs).append (by decide)

theorem GitStatus.escFree_shown (h : ctx.Clean) : EscFree (shown ctx) := by
  unfold shown
  dsimp only
  split
  · exact h.value
  · refine EscFree.intercalate (by decide) ?_
    intro t ht
    obtain ⟨⟨kind, symbol⟩, hm, rfl⟩ := List.mem_map.1 (List.mem_filter.1 ht).1
    exact h.setting kind ((by decide : ∀ e ∈ symbols, EscFree e.2) _ hm)

theorem GitStatus.escFree_render (h : ctx.Clean) : EscFree (render ctx) := by
  refine Reference.escFree_substitute (h.setting "format" (by decide)) ?_
  simp only [List.forall_mem_cons]
  exact ⟨escFree_shown h, escFree_shown h, by decide, h.setting "style" (by decide), by simp⟩

theorem Text.esc_not_mem_afterFirst? {pattern s after : List Char} (hs : esc ∉ s)
    (h : afterFirst? pattern s = some after) : esc ∉ after := by
  induction s with
  | nil =>
    unfold afterFirst? at h
    split at h
    · cases h; simp
    · cases h
  | cons c s ih =>
    unfold afterFirst? at h
    split at h
    · rename_i r hr
      cases h
      rw [afterHead?_eq_some_iff] at hr
      rw [hr, List.mem_append, not_or] at hs
      exact hs.2
    · rw [List.mem_cons, not_or] at hs
      exact ih hs.2 h

theorem PromptCharacter.escFree_style (h : ctx.Clean) : EscFree (style ctx) := by
  have hs : EscFree (symbol ctx) := by
    unfold symbol
    split
    · exact h.setting "error_symbol" (by decide)
    · exact h.setting "success_symbol" (by decide)
  unfold style
  cases hst : styleOf? (symbol ctx).toList with
  | none => exact (by decide : EscFree defaultStyle)
  | some st =>
    unfold styleOf? at hst
    split at hst
    · rename_i rest hrest
      split at hst
      · cases hst
        refine escFree_ofList fun hm => ?_
        exact Text.esc_not_mem_afterFirst? hs hrest ((List.takeWhile_sublist _).subset hm)
      · cases hst
    · cases hst

theorem CustomModule.escFree_setting {definition : Keyed Value}
    (h : ∀ t ∈ Value.entryStrings definition, EscFree t) (key : String) {default : String}
    (hd : EscFree default) : EscFree (setting definition key default) := by
  unfold setting
  cases hs : ((Keyed.find? key definition).bind Value.asString?).filter fun s => !s.isEmpty with
  | none => exact hd
  | some s =>
    obtain ⟨v, hv, ha⟩ := Option.bind_eq_some_iff.1 (Option.filter_eq_some_iff.1 hs).1
    exact h s (Value.strings_of_find? hv (Value.mem_strings_of_asString? ha))

theorem CustomModule.escFree_render (h : ctx.Clean) : EscFree (render ctx) := by
  unfold render
  split
  · decide
  · rename_i definition hd
    have hs : ∀ t ∈ Value.entryStrings definition, EscFree t :=
      fun t ht => h.strings t (Config.strings_of_customModule? hd ht)
    split
    · decide
    · refine Reference.escFree_substitute (escFree_setting hs "format" (by decide)) ?_
      simp only [List.forall_mem_cons]
      exact ⟨escFree_setting hs "symbol" (by decide), h.value, escFree_setting hs "style" (by decide),
        by simp⟩

/-- Every renderer but a template draws without ESC. -/
theorem Renderer.escFree_render (h : ctx.Clean) {r : Renderer} (hr : ∀ text, r ≠ .template text) :
    EscFree (r.render ctx) := by
  cases r with
  | directory => exact escFree_styledGroup h.value (h.setting "style" (by decide))
  | gitBranch =>
    have ht : EscFree (ctx.setting "symbol" "🌱 " ++ ctx.value) :=
      (h.setting "symbol" (by decide)).append h.value
    exact escFree_styledGroup ht (h.setting "style" (by decide))
  | gitStatus => exact GitStatus.escFree_render h
  | character => exact escFree_styledGroup h.value (PromptCharacter.escFree_style h)
  | generic =>
    refine Reference.escFree_substitute (h.setting "format" (by decide)) ?_
    simp only [List.forall_mem_cons]
    exact ⟨h.setting "symbol" (by decide), h.value, h.setting "style" (by decide), by simp⟩
  | custom => exact CustomModule.escFree_render h
  | template text => exact absurd rfl (hr text)

theorem Registry.builtin_find_ne (name text : String) : builtin.find name ≠ .template text := by
  rw [Registry.find]
  cases h : builtin.renderers.find? name with
  | none => exact nofun
  | some r =>
    have hm := Keyed.mem_ofList (Keyed.mem_of_find? h)
    simp only [List.mem_cons, Prod.mk.injEq, List.not_mem_nil, or_false] at hm
    rcases hm with ⟨-, rfl⟩ | ⟨-, rfl⟩ | ⟨-, rfl⟩ | ⟨-, rfl⟩ <;> exact nofun

/-! ## Expansion -/

namespace Engine

theorem esc_not_mem_expand (mode : EscapeMode) {c : Config} {s : Scenario} {format : List Char}
    (hf : esc ∉ format) (hc : ∀ t ∈ c.strings, EscFree t) (hs : ∀ t ∈ s.strings, EscFree t) :
    esc ∉ Engine.expand { mode := mode } c s format := by
  refine Reference.esc_not_mem_sweepFrom ?_ hf (by rintro n ⟨⟩)
  intro n _
  show EscFree (Engine.resolve _ c s _)
  unfold resolve
  split
  · decide
  · rename_i value hv
    split
    · decide
    · have hclean : ModuleContext.Clean ⟨String.ofList n, value, c, s⟩ := by
        refine ⟨hs value ?_, hc⟩
        exact List.mem_map.2 ⟨_, Keyed.mem_of_find? (Option.filter_eq_some_iff.1 hv).1, rfl⟩
      dsimp only
      split
      · exact Renderer.escFree_render hclean (by simp)
      · exact Renderer.escFree_render hclean (Registry.builtin_find_ne _)

end Engine

end PromptTheme
