/-
Reserved keys do not enter a session. `Session.noReserved_of_reaches` says that in every session that a
run reaches no configuration has a reserved key: not the one that is edited, not those of the saved
themes, and none in the past or the future. The overlays of the run and the texts it imports may have
reserved keys wherever they like; only the themes that are handed in whole have none.

An overlay brings in no reserved key, so that such a session is a case of `Session.Holds`.
-/
import PromptTheme.Proofs.Config.Reserved
import PromptTheme.Proofs.Editor.Held

namespace PromptTheme

theorem Config.noReserved_initial : Config.initial.NoReserved :=
  Config.noReserved_ofEntries (by decide)

/-! ## Presets -/

namespace Preset

theorem noReserved_painted {p : Painted} {t : Theme} (h : p.theme? = some t) : t.config.NoReserved := by
  obtain ⟨s, -, rfl⟩ := Option.map_eq_some_iff.1 h
  exact Config.noReserved_initial.merge _

theorem noReserved_all : ∀ t ∈ all, t.config.NoReserved := by
  intro t ht
  simp only [all, List.mem_append, List.mem_cons, List.not_mem_nil, or_false, List.mem_filterMap] at ht
  rcases ht with (rfl | rfl | rfl) | ⟨p, -, hp⟩
  · exact Config.noReserved_ofEntries (by decide)
  · exact Config.noReserved_ofEntries (by decide)
  · exact Config.noReserved_initial.merge _
  · exact noReserved_painted hp

end Preset

/-- A theme that is handed in whole has no reserved key. -/
def Action.LoadsNoReserved : Action → Prop
  | .load t => t.config.NoReserved
  | _ => True

namespace Session

/-- No configuration that the session holds has a reserved key. -/
structure NoReserved (s : Session) : Prop where
  current : s.config.NoReserved
  saved : ∀ t ∈ s.saved, t.config.NoReserved
  past : ∀ t ∈ s.history.past, t.config.NoReserved
  future : ∀ t ∈ s.history.future, t.config.NoReserved

theorem noReserved_iff_holds {s : Session} : s.NoReserved ↔ s.Holds Config.NoReserved := by
  constructor
  · rintro ⟨h1, h2, h3, h4⟩
    exact ⟨h1, h2, h3, h4⟩
  · rintro ⟨h1, h2, h3, h4⟩
    exact ⟨h1, h2, h3, h4⟩

theorem NoReserved.start {t : Theme} (h : t.config.NoReserved) (engine : Engine) :
    (start t engine).NoReserved :=
  noReserved_iff_holds.2 (.start h engine)

/-! ## One action -/

/-- No overlay brings in a reserved key, so only the themes that are handed in whole count. -/
theorem keeps_noReserved {a : Action} (ha : a.LoadsNoReserved) : a.Keeps Config.NoReserved := by
  cases a with
  | updateConfig patch => exact fun c hc => hc.merge patch
  | importToml text => exact fun imported _ c hc => hc.merge imported
  | applyScheme name => exact fun scheme _ c hc => hc.merge scheme.patch
  | reset => exact Config.noReserved_initial
  | load t => exact ha
  | loadId id => exact fun t ht => Preset.noReserved_all t (List.mem_of_find?_eq_some ht)
  | _ => trivial

theorem noReserved_after {s : Session} (hs : s.NoReserved) (hl : s.history.limit = 50) {a : Action}
    (ha : a.LoadsNoReserved) (now : Instant) (freshId : String) : (s.after now freshId a).NoReserved :=
  noReserved_iff_holds.2 ((noReserved_iff_holds.1 hs).after hl (keeps_noReserved ha) now freshId)

/-! ## Every session of a run -/

/-- The sessions that a run may start from: a new theme, or a theme without reserved keys. -/
inductive Opened : Session → Prop where
  | new (freshId : String) (now : Instant) (engine : Engine) : Opened (.new freshId now engine)
  | start {t : Theme} (engine : Engine) : t.config.NoReserved → Opened (.start t engine)

theorem Opened.noReserved {s : Session} (h : Opened s) : s.NoReserved ∧ s.history.limit = 50 := by
  cases h with
  | new freshId now engine => exact ⟨.start Config.noReserved_initial engine, rfl⟩
  | start engine ht => exact ⟨.start ht engine, rfl⟩

/-- No configuration of a session has a reserved key, at any depth of tables and arrays, after any run
of actions with any overlays and any imported texts, as long as the themes that the run loads have
none. -/
theorem noReserved_of_reaches {s₀ s : Session} (h₀ : Opened s₀)
    (h : Reaches Action.LoadsNoReserved s₀ s) : s.NoReserved := by
  have hkeep : s.NoReserved ∧ s.history.limit = 50 := by
    refine h.keeps (P := fun s => s.NoReserved ∧ s.history.limit = 50) ?_ ?_ h₀.noReserved
    · rintro t now freshId a ha ⟨hn, hl⟩
      exact ⟨noReserved_after hn hl ha now freshId, (limit_after t now freshId a).trans hl⟩
    · rintro t engine ⟨hn, hl⟩
      exact ⟨⟨hn.current, hn.saved, hn.past, hn.future⟩, hl⟩
  exact hkeep.1

/-- Reserved keys in an array of tables, below a key that is there already, and in a text. -/
theorem noReserved_of_reaches_tainted :
    let overlay : Config := .ofEntries [
      ("aliases", .array [.table [("constructor", .null), ("name", .string "x")]]),
      ("directory", .table [("__proto__", .table [("style", .string "red")])])]
    let loaded := (start Preset.clean).after Preset.date "" (.load Preset.oneLine)
    let patched := loaded.after Preset.date "" (.updateConfig overlay)
    let imported := patched.after Preset.date "" (.importToml "[[custom.list]]\nprototype = 1")
    let s := (imported.after Preset.date "" .save).after Preset.date "" .undo
    ¬ overlay.NoReserved ∧ Opened (start Preset.clean) ∧
      Reaches Action.LoadsNoReserved (start Preset.clean) s ∧ s.NoReserved := by
  intro overlay loaded patched imported s
  have h₀ : Opened (start Preset.clean) := .start {} (Preset.noReserved_all _ (by simp [Preset.all]))
  have hload : Action.LoadsNoReserved (.load Preset.oneLine) :=
    Preset.noReserved_all _ (by simp [Preset.all])
  have hloaded : Reaches Action.LoadsNoReserved (start Preset.clean) loaded := .act _ _ .refl hload
  have himported : Reaches Action.LoadsNoReserved (start Preset.clean) imported :=
    .act _ _ (.act _ _ hloaded trivial) trivial
  have h : Reaches Action.LoadsNoReserved (start Preset.clean) s :=
    .act _ _ (.act _ _ himported trivial) trivial
  exact ⟨by decide, h₀, h, noReserved_of_reaches h₀ h⟩

end Session

end PromptTheme
