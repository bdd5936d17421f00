/-
Overlays that a session has already. An overlay that leaves the configuration as it is is no edit, and
one that was laid before is such an overlay: `Session.updateConfig_again` says that laying it a second
time changes neither the configuration nor anything else of the session, and that a configuration is such
an overlay of its own when no array of it has a reserved key in it.
-/
import PromptTheme.Editor.Session
import PromptTheme.Proofs.Config.Layers

namespace PromptTheme.Session

/-- An overlay that leaves the configuration as it is is no edit. -/
theorem updateConfig_of_merge_eq {s : Session} {overlay : Config} (h : s.config.merge overlay = s.config)
    (now : Instant) : s.updateConfig overlay now = (false, s) := by
  rw [updateConfig, commit, h, if_pos s.config.sameAs_refl]

/-- An update is refused and changes nothing, or the session has the merged configuration behind it. -/
theorem updateConfig_cases (s : Session) (overlay : Config) (now : Instant) :
    ((s.config.merge overlay).sameAs s.config = true ∧ s.updateConfig overlay now = (false, s)) ∨
    (s.updateConfig overlay now).2.config = s.config.merge overlay := by
  unfold updateConfig commit
  split
  · rename_i hsame
    exact .inl ⟨hsame, rfl⟩
  · exact .inr rfl

/-- Behind an update, the same update changes nothing at any time. -/
theorem updateConfig_updateConfig (s : Session) (overlay : Config) (now later : Instant) :
    (s.updateConfig overlay now).2.updateConfig overlay later = (false, (s.updateConfig overlay now).2) := by
  rcases updateConfig_cases s overlay now with ⟨hsame, hs⟩ | hc
  · -- the configuration may differ from the merged one in the sign of a zero
    rw [hs, updateConfig, commit, if_pos hsame]
  · apply updateConfig_of_merge_eq
    rw [hc, Config.merge_merge_self]

/-- An overlay that is laid twice is laid once; so an update that follows the same update, at whatever
time, answers that nothing changed, and the session stays as it is; and a configuration laid over itself
stays as it is when there is no reserved key inside an array of it. -/
theorem updateConfig_again :
    (∀ base overlay : Config, (base.merge overlay).merge overlay = base.merge overlay) ∧
    (∀ (s : Session) (patch : Config) (now later : Instant) (freshId laterId : String),
      let s' := s.after now freshId (.updateConfig patch)
      s'.perform later laterId (.updateConfig patch) = .ok (.changed false, s')) ∧
    (∀ c : Config, c.ArraysUnreserved → c.merge c = c) := by
  refine ⟨Config.merge_merge_self, ?_, fun c => Config.merge_self⟩
  intro s patch now later freshId laterId s'
  have hs : s' = (s.updateConfig patch now).2 := rfl
  rw [hs, perform, updateConfig_updateConfig]
  rfl

/-- Reserved keys in tables, above arrays and below one another, do not count. -/
theorem updateConfig_again_tables :
    let c : Config := .ofEntries [
      ("constructor", .table [("list", .array [.table [("n", .count 1)], .null])]),
      ("custom", .table [("__proto__", .table [("prototype", .bool true)])])]
    c.ArraysUnreserved ∧ ¬ c.NoReserved ∧ c.merge c = c := by
  intro c
  have hc : c.ArraysUnreserved := by decide
  exact ⟨hc, by decide, updateConfig_again.2.2 c hc⟩

end PromptTheme.Session
