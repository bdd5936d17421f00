/-
Edits that may be made in either order. An update, an import and a color scheme each lay an overlay over
the configuration of the session. `Session.overlays_commute` says that compatible overlays leave the same
configuration in either order, and that two such edits leave a session with the same configuration,
whatever they are and whenever they are made.

An edit that changes no content is refused, and then the session keeps the signs of its zeros; so the
configurations are compared by content.
-/
import PromptTheme.Proofs.Config.Independent
import PromptTheme.Proofs.Editor.Unchanged
import PromptTheme.Proofs.Toml.RoundTrip

namespace PromptTheme

/-- What an action lays over the configuration: a patch, the configuration in a text, or a color scheme.
Other actions lay nothing, and neither does one that fails. -/
def Action.overlay? : Action → Option Config
  | .updateConfig patch => some patch
  | .importToml text => (Config.ofToml? text).toOption
  | .applyScheme name => (ColorScheme.find? name).map ColorScheme.patch
  | _ => none

namespace Session

/-- An action that lays an overlay does to the configuration what an update does. -/
theorem config_after {a : Action} {overlay : Config} (h : a.overlay? = some overlay) (s : Session)
    (now : Instant) (freshId : String) :
    (s.after now freshId a).config = (s.updateConfig overlay now).2.config := by
  cases a with
  | updateConfig patch =>
    cases h
    rfl
  | importToml text =>
    cases hread : Config.ofToml? text with
    | error e =>
      rw [Action.overlay?, hread] at h
      cases h
    | ok imported =>
      rw [Action.overlay?, hread] at h
      cases h
      simp only [after, perform, importToml, hread]
      rfl
  | applyScheme name =>
    obtain ⟨scheme, hfind, rfl⟩ := Option.map_eq_some_iff.1 h
    simp only [after, perform, applyScheme, hfind]
    rfl
  | _ => cases h

theorem content_updateConfig (s : Session) (overlay : Config) (now : Instant) :
    (s.updateConfig overlay now).2.config.content = s.config.content.merge overlay.content := by
  rw [← Config.content_merge]
  rcases updateConfig_cases s overlay now with ⟨hsame, hs⟩ | hc
  · rw [hs, Config.sameAs_iff.1 hsame]
  · rw [hc]

theorem content_after {a : Action} {overlay : Config} (h : a.overlay? = some overlay) (s : Session)
    (now : Instant) (freshId : String) :
    (s.after now freshId a).config.content = s.config.content.merge overlay.content := by
  rw [config_after h, content_updateConfig]

/-- Overlays that are compatible, with the same values where both are set, leave the same configuration
in either order. If the values are the same in content, then so is what the overlays leave; and two
updates, imports or color schemes with such overlays, at whatever times, leave a session with a
configuration of the same content in either order. -/
theorem overlays_commute :
    (∀ base a b : Config, Config.Compatible (· = ·) a b →
      (base.merge a).merge b = (base.merge b).merge a) ∧
    (∀ base a b : Config, Config.SetAlike a b →
      ((base.merge a).merge b).sameAs ((base.merge b).merge a) = true) ∧
    (∀ (s : Session) (a b : Action) (first second : Config), a.overlay? = some first →
      b.overlay? = some second → Config.SetAlike first second →
      ∀ (now later now' later' : Instant) (freshId laterId freshId' laterId' : String),
        ((s.after now freshId a).after later laterId b).config.sameAs
          ((s.after now' freshId' b).after later' laterId' a).config = true) := by
  refine ⟨fun base a b h => Config.merge_comm h base, fun base a b h => Config.sameAs_merge_comm h base, ?_⟩
  intro s a b first second ha hb h now later now' later' freshId laterId freshId' laterId'
  rw [Config.sameAs_iff, content_after hb, content_after ha, content_after ha, content_after hb]
  exact Config.merge_comm h.content s.config.content

/-- An import with one color of a scheme and a color of its own, and the scheme. -/
theorem overlays_commute_scheme :
    let text := "[palettes.global]\nown = \"#000000\"\nprimary = \"#88C0D0\"\n"
    let imported : Config := .ofEntries [("palettes", .table [
      ("global", .table [("own", .string "#000000"), ("primary", .string "#88C0D0")])])]
    let nord : ColorScheme :=
      ⟨"Nord", "#88C0D0", "#81A1C1", "#5E81AC", "#2E3440", "#D8DEE9", "#A3BE8C", "#EBCB8B", "#BF616A"⟩
    let s := start (.untitled "t" Preset.date)
    (Action.importToml text).overlay? = some imported ∧
      (Action.applyScheme "nord").overlay? = some nord.patch ∧ Config.SetAlike imported nord.patch ∧
      ((s.after Preset.date "" (.importToml text)).after Preset.date "" (.applyScheme "nord")).config.sameAs
        ((s.after Preset.date "" (.applyScheme "nord")).after Preset.date "" (.importToml text)).config =
        true := by
  intro text imported nord s
  have htext : imported.toToml? = .ok text := by with_unfolding_all rfl
  have hread : Config.ofToml? text = .ok imported.prune := Config.ofToml?_of_toToml? (by decide) htext
  have himported : (Action.importToml text).overlay? = some imported := by
    rw [Action.overlay?, hread]
    rfl
  have hfind : ColorScheme.find? "nord" = some nord := by with_unfolding_all rfl
  have hscheme : (Action.applyScheme "nord").overlay? = some nord.patch := by
    rw [Action.overlay?, hfind]
    rfl
  have hset : Config.SetAlike imported nord.patch := by decide
  have hsession := overlays_commute.2.2 s (.importToml text) (.applyScheme "nord") imported nord.patch himported
    hscheme hset Preset.date Preset.date Preset.date Preset.date "" "" "" ""
  exact ⟨himported, hscheme, hset, hsession⟩

end Session

end PromptTheme
