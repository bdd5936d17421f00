/-
Importing what a session itself has exported. `Session.perform_import_of_export` says that this is no
edit when no array of the configuration has a null or a reserved key in it: whatever text the export
gives, as long as it reads as the configuration without its nulls, the import answers that nothing
changed, and of the session only the selection is cleared.
-/
import PromptTheme.Proofs.Editor.Unchanged
import PromptTheme.Proofs.Toml.RoundTrip

namespace PromptTheme

namespace Session

/-- A session that imports its own export answers that nothing changed, and only the selection is
cleared; and a configuration with clean arrays is the same as its merge with what is exported of it. -/
theorem perform_import_of_export (s : Session) (h : s.config.ArraysClean) :
    (∀ text, s.exportToml = .ok text → Config.ofToml? text = .ok s.config.prune →
      ∀ now freshId, s.perform now freshId (.importToml text) =
        .ok (.changed false, { s with selected := none })) ∧
    s.config.merge s.config.prune = s.config := by
  have hmerge := Config.merge_prune h
  refine ⟨?_, hmerge⟩
  intro text _ hread now freshId
  simp only [perform, importToml, hread, updateConfig_of_merge_eq hmerge]
  rfl

/-- Nulls and reserved keys in tables, and an array of tables. -/
theorem perform_import_of_export_nulls :
    let c : Config := .ofEntries [
      ("constructor", .table [("a", .null), ("b", .bool true)]),
      ("format", .null),
      ("list", .array [.table [("n", .count 1)], .table []])]
    let s := (start ⟨.fresh "t" "T" Preset.date, c⟩).select (some "list")
    let text := "[constructor]\nb = true\n\n[[list]]\nn = 1\n\n[[list]]\n"
    c.ArraysClean ∧ s.exportToml = .ok text ∧ Config.ofToml? text = .ok c.prune ∧
      s.perform Preset.date "" (.importToml text) = .ok (.changed false, { s with selected := none }) := by
  intro c s text
  have hclean : c.ArraysClean := by decide
  have htext : c.toToml? = .ok text := by with_unfolding_all rfl
  have hexport : s.exportToml = .ok text := htext
  have hdepth : c.depth ≤ Toml.maxNesting := by decide
  have hread : Config.ofToml? text = .ok c.prune := Config.ofToml?_of_toToml? hdepth htext
  exact ⟨hclean, hexport, hread, (perform_import_of_export s hclean).1 text hexport hread Preset.date ""⟩

end Session

end PromptTheme
