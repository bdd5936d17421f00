/-
Sessions in which the checks find no error. `Session.isValid_of_reaches` says that a configuration
without errors stays so under every overlay without errors, and that therefore no run from a new theme
gets to an error as long as what is handed in has none of its own: the overlays, the texts that are
imported, and the themes that are loaded. What comes with the editor has none, so that starting over,
the presets and the color schemes need no condition.
-/
import PromptTheme.Proofs.Config.Valid
import PromptTheme.Proofs.Editor.Held

namespace PromptTheme

/-! ## What comes with the editor -/

theorem Config.isValid_initial : Config.initial.validate.isValid = true :=
  isValid_iff.2 (by decide +kernel)

theorem Preset.isValid_all : ∀ t ∈ all, t.config.validate.isValid = true := by
  have hall : ∀ t ∈ all,
      t.config.checkGlobals = [] ∧ ∀ f ∈ t.config.checkEntries, f.isError = false := by
    decide +kernel
  exact fun t ht => Config.isValid_iff.2 (hall t ht)

theorem ColorScheme.isValid_patch : ∀ scheme ∈ all, scheme.patch.validate.isValid = true := by
  have hall : ∀ scheme ∈ all,
      scheme.patch.checkGlobals = [] ∧ ∀ f ∈ scheme.patch.checkEntries, f.isError = false := by
    decide +kernel
  exact fun scheme hs => Config.isValid_iff.2 (hall scheme hs)

/-- What is handed in for the action has no errors of its own. -/
def Action.BringsNoErrors : Action → Prop
  | .updateConfig patch => patch.validate.isValid = true
  | .importToml text => ∀ c, Config.ofToml? text = .ok c → c.validate.isValid = true
  | .load t => t.config.validate.isValid = true
  | _ => True

namespace Session

theorem isValid_validate {s : Session} (h : s.config.validate.isValid = true) :
    s.validate.isValid = true := by
  unfold Session.validate
  dsimp only
  split
  · -- that a theme has no name is a warning
    rw [Report.isValid, Report.errors, List.isEmpty_iff] at h ⊢
    rw [Report.add, List.filter_append, h]
    rfl
  · exact h

theorem keeps_isValid {a : Action} (ha : a.BringsNoErrors) :
    a.Keeps fun c => c.validate.isValid = true := by
  cases a with
  | updateConfig patch => exact fun c hc => Config.isValid_merge hc ha
  | importToml text => exact fun imported hread c hc => Config.isValid_merge hc (ha imported hread)
  | applyScheme name =>
    intro scheme hfind c hc
    exact Config.isValid_merge hc (ColorScheme.isValid_patch scheme (List.mem_of_find?_eq_some hfind))
  | reset => exact Config.isValid_initial
  | load t => exact ha
  | loadId id => exact fun t ht => Preset.isValid_all t (List.mem_of_find?_eq_some ht)
  | _ => trivial

/-- A merge has no errors when neither of its sides has any. So in a run from a new theme, in which no
overlay, no imported text and no loaded theme has errors of its own, the checks of a session never find
one, and nor do those of any configuration that it holds, saved, past or to be redone. -/
theorem isValid_of_reaches :
    (∀ base overlay : Config, base.validate.isValid = true → overlay.validate.isValid = true →
      (base.merge overlay).validate.isValid = true) ∧
    ∀ (freshId : String) (now : Instant) (engine : Engine) (s : Session),
      Reaches Action.BringsNoErrors (new freshId now engine) s →
      s.validate.isValid = true ∧ s.Holds fun c => c.validate.isValid = true := by
  refine ⟨fun base overlay hb ho => Config.isValid_merge hb ho, ?_⟩
  intro freshId now engine s h
  have hs : s.Holds fun c => c.validate.isValid = true :=
    Holds.reaches (fun _ ha => keeps_isValid ha) (.start Config.isValid_initial engine) rfl h
  exact ⟨isValid_validate hs.current, hs⟩

/-- A setting that is replaced, a module that keeps `disabled` under an overlay of its table, a key that
nobody knows, and reserved keys at two levels. -/
theorem isValid_of_reaches_overlaid :
    let overlay : Config := .ofEntries [
      ("__proto__", .null),
      ("add_newline", .bool false),
      ("git_branch", .table [("constructor", .count 1), ("disabled", .bool true)]),
      ("unknown", .null)]
    let text := "scan_timeout = 30\n[git_branch]\nstyle = \"bold\""
    let patched := (new "t" Preset.date).after Preset.date "" (.updateConfig overlay)
    let imported := patched.after Preset.date "" (.importToml text)
    let painted := (imported.after Preset.date "" .undo).after Preset.date "" (.applyScheme "nord")
    let s := painted.after Preset.date "" .undo
    Config.initial.validate.isValid = true ∧ overlay.validate.isValid = true ∧
      (Config.initial.merge overlay).validate.isValid = true ∧
      Reaches Action.BringsNoErrors (new "t" Preset.date) s ∧ s.validate.isValid = true := by
  intro overlay text patched imported painted s
  have ho : overlay.validate.isValid = true := by decide +kernel
  have htext : Action.BringsNoErrors (.importToml text) := by
    intro c hread
    have hc : ((Config.ofToml? text).toOption.map fun c => c.validate.isValid) = some true := by
      decide +kernel
    rw [hread] at hc
    exact Option.some.inj hc
  have himported : Reaches Action.BringsNoErrors (new "t" Preset.date) imported :=
    .act _ _ (.act _ _ .refl ho) htext
  have h : Reaches Action.BringsNoErrors (new "t" Preset.date) s :=
    .act _ _ (.act _ _ (.act _ _ himported trivial) trivial) trivial
  obtain ⟨hmerge, hrun⟩ := isValid_of_reaches
  exact ⟨Config.isValid_initial, ho, hmerge _ _ Config.isValid_initial ho, h, (hrun _ _ _ s h).1⟩

end Session

end PromptTheme
