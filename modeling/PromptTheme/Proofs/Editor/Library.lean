/-
The saved themes as a store that has the id as its key. `Session.library_of_reaches` says that after
any run from a session without saved themes no two of them share an id, and spells out what saving,
loading and deleting do with the store: a saved theme goes before the preset of its id, which is found
again as soon as the saved one is deleted, and no other action touches the store.

The run is needed for one thing only, that the ids are distinct. Saving and deleting keep this, since
saving replaces a theme by one of the same id, and all else follows for any session with distinct ids.
-/
import PromptTheme.Proofs.Editor.Footprint
import Mathlib.Data.List.Nodup

namespace PromptTheme

theorem Preset.nodup_ids : (all.map Theme.id).Nodup := by decide +kernel

namespace Session

variable {s : Session} {t : Theme} {id : String} {themes saved : List Theme}

/-! ## Themes under their ids -/

/-- A theme is put in the place of the one with its id, or at the end when there is none. -/
def Stored (t : Theme) (themes saved : List Theme) : Prop :=
  (∃ before old after, themes = before ++ old :: after ∧ old.id = t.id ∧
    saved = before ++ t :: after) ∨
  (∀ u ∈ themes, u.id ≠ t.id) ∧ saved = themes ++ [t]

/-- A theme is taken out, and the others stay in their order. -/
def Removed (t : Theme) (themes saved : List Theme) : Prop :=
  ∃ before after, themes = before ++ t :: after ∧ saved = before ++ after

theorem stored_putTheme (t : Theme) (themes : List Theme) : Stored t themes (putTheme t themes) := by
  induction themes with
  | nil => exact .inr ⟨by simp, rfl⟩
  | cons u rest ih =>
    rw [putTheme]
    split
    · rename_i hid
      exact .inl ⟨[], u, rest, rfl, hid, rfl⟩
    · rename_i hid
      rcases ih with ⟨before, old, after, hrest, hold, hput⟩ | ⟨hnone, hput⟩
      · exact .inl ⟨u :: before, old, after, by rw [hrest]; rfl, hold, by rw [hput]; rfl⟩
      · refine .inr ⟨?_, by rw [hput]; rfl⟩
        intro v hv
        rcases List.mem_cons.1 hv with rfl | hv
        · exact hid
        · exact hnone v hv

/-- The theme in the store by now has a place of its own there. -/
theorem Stored.mem (h : Stored t themes saved) : t ∈ saved := by
  rcases h with ⟨before, old, after, -, -, rfl⟩ | ⟨-, rfl⟩ <;> simp

theorem Stored.nodup (h : Stored t themes saved) (hn : (themes.map Theme.id).Nodup) :
    (saved.map Theme.id).Nodup := by
  rcases h with ⟨before, old, after, rfl, hold, rfl⟩ | ⟨hnone, rfl⟩
  · -- the ids are the same as before, one by one
    simpa only [List.map_append, List.map_cons, hold] using hn
  · rw [List.map_append, List.map_singleton, ← List.concat_eq_append, List.nodup_concat]
    refine ⟨?_, hn⟩
    intro hm
    obtain ⟨u, hu, he⟩ := List.mem_map.1 hm
    exact hnone u hu he

theorem Removed.nodup (h : Removed t themes saved) (hn : (themes.map Theme.id).Nodup) :
    (saved.map Theme.id).Nodup := by
  obtain ⟨before, after, rfl, rfl⟩ := h
  have hsub : (before ++ after).Sublist (before ++ t :: after) :=
    (List.Sublist.refl before).append (List.sublist_cons_self t after)
  exact hn.sublist (hsub.map Theme.id)

/-- A theme that was taken out left no other of its id behind. -/
theorem Removed.id_ne (h : Removed t themes saved) (hn : (themes.map Theme.id).Nodup) :
    ∀ u ∈ saved, u.id ≠ t.id := by
  obtain ⟨before, after, rfl, rfl⟩ := h
  intro u hu he
  rw [List.map_append, List.map_cons, List.nodup_middle, List.nodup_cons, ← List.map_append] at hn
  exact hn.1 (List.mem_map.2 ⟨u, hu, he⟩)

/-! ## Lookup -/

/-- Among themes with distinct ids each is found under its own. -/
theorem find?_of_mem (hn : (themes.map Theme.id).Nodup) (ht : t ∈ themes) :
    themes.find? (fun u => u.id = t.id) = some t := by
  rcases hf : themes.find? (fun u => u.id = t.id) with _ | u
  · rw [List.find?_eq_none] at hf
    simpa using hf t ht
  · have hu := List.mem_of_find?_eq_some hf
    have hid : u.id = t.id := by simpa using List.find?_some hf
    rw [hf, List.inj_on_of_nodup_map hn hu ht hid]

theorem find?_of_id_ne (h : ∀ u ∈ themes, u.id ≠ id) :
    themes.find? (fun u => u.id = id) = none := by
  rw [List.find?_eq_none]
  intro u hu
  simpa using h u hu

theorem findTheme?_saved (hn : (s.saved.map Theme.id).Nodup) (ht : t ∈ s.saved) :
    s.findTheme? t.id = some t := by
  rw [findTheme?, find?_of_mem hn ht, Option.some_or]

theorem findTheme?_preset (hnone : ∀ u ∈ s.saved, u.id ≠ t.id) (ht : t ∈ Preset.all) :
    s.findTheme? t.id = some t := by
  rw [findTheme?, find?_of_id_ne hnone, Option.none_or, Preset.find?, find?_of_mem Preset.nodup_ids ht]

theorem findTheme?_unknown (hnone : ∀ u ∈ s.saved ++ Preset.all, u.id ≠ id) :
    s.findTheme? id = none := by
  rw [findTheme?, find?_of_id_ne fun u hu => hnone u (List.mem_append_left _ hu), Option.none_or,
    Preset.find?, find?_of_id_ne fun u hu => hnone u (List.mem_append_right _ hu)]

/-! ## One action -/

/-- Loading by the id is granted, and makes the theme the current one. -/
def Loads (now : Instant) (freshId : String) (s : Session) (id : String) (t : Theme) : Prop :=
  ∃ s', s.perform now freshId (.loadId id) = .ok (.done, s') ∧ s'.current = t

theorem loads_of_findTheme? {now : Instant} {freshId : String} (h : s.findTheme? id = some t) :
    Loads now freshId s id t := by
  refine ⟨s.load t, ?_, rfl⟩
  simp only [perform, loadId, h]
  rfl

theorem removed_eraseP (hn : (themes.map Theme.id).Nodup) (ht : t ∈ themes) :
    Removed t themes (themes.eraseP fun u => u.id = t.id) := by
  obtain ⟨a, before, after, hbefore, ha, hsplit, herase⟩ :=
    List.exists_of_eraseP ht (p := fun u => u.id = t.id) (by simp)
  have hat : a = t := by
    refine List.inj_on_of_nodup_map hn ?_ ht (by simpa using ha)
    rw [hsplit]
    simp
  subst hat
  exact ⟨before, after, hsplit, herase⟩

/-- Only saving and deleting change the store. -/
theorem saved_perform {now : Instant} {freshId : String} {a : Action} {o : Outcome} {s' : Session}
    (h : s.perform now freshId a = .ok (o, s')) (hsave : a ≠ .save) (hdelete : ∀ id, a ≠ .delete id) :
    s'.saved = s.saved := by
  -- an edit and a step in the history change the current theme and the history only
  have hedit : ∀ overlay, (s.updateConfig overlay now).2.saved = s.saved := by
    intro overlay
    unfold updateConfig commit
    split <;> rfl
  have hstep : ∀ r, (s.stepTo r).2.saved = s.saved := by
    rintro (_ | ⟨t, g⟩) <;> rfl
  cases a with
  | updateConfig patch => cases h; exact hedit patch
  | updateMetadata patch => cases h; rfl
  | importToml text =>
    simp only [perform, importToml] at h
    split at h
    · cases h
    · cases h; exact hedit _
  | applyScheme name =>
    simp only [perform, applyScheme] at h
    split at h
    · cases h
    · cases h; exact hedit _
  | reset => cases h; rfl
  | load t => cases h; rfl
  | loadId id =>
    simp only [perform, loadId] at h
    split at h
    · cases h; rfl
    · cases h
  | save => exact absurd rfl hsave
  | delete id => exact absurd rfl (hdelete id)
  | select m => cases h; rfl
  | undo => cases h; exact hstep _
  | redo => cases h; exact hstep _

theorem perform_save (now : Instant) (freshId : String) (s : Session) :
    s.perform now freshId .save = .ok (.done, { s with saved := putTheme s.current s.saved }) := rfl

theorem perform_delete {now : Instant} {freshId : String} (hn : (s.saved.map Theme.id).Nodup)
    (ht : t ∈ s.saved) :
    s.perform now freshId (.delete t.id) =
      .ok (.removed t, { s with saved := s.saved.eraseP fun u => u.id = t.id }) := by
  simp only [perform, delete, find?_of_mem hn ht]
  rfl

theorem perform_delete_unknown {now : Instant} {freshId : String} (h : ∀ u ∈ s.saved, u.id ≠ id) :
    s.perform now freshId (.delete id) = .error (.themeNotFound id) := by
  simp only [perform, delete, find?_of_id_ne h]
  rfl

/-- No action gives two saved themes the same id. -/
theorem nodup_after (hn : (s.saved.map Theme.id).Nodup) (now : Instant) (freshId : String)
    (a : Action) : ((s.after now freshId a).saved.map Theme.id).Nodup := by
  unfold after
  split
  · rename_i o s' h
    by_cases hsave : a = .save
    · subst hsave
      cases h
      exact (stored_putTheme s.current s.saved).nodup hn
    by_cases hdelete : ∃ id, a = .delete id
    · obtain ⟨id, rfl⟩ := hdelete
      by_cases hid : ∃ t ∈ s.saved, t.id = id
      · obtain ⟨t, ht, rfl⟩ := hid
        rw [perform_delete hn ht] at h
        cases h
        exact (removed_eraseP hn ht).nodup hn
      · rw [perform_delete_unknown fun u hu he => hid ⟨u, hu, he⟩] at h
        cases h
    rw [saved_perform h hsave fun id he => hdelete ⟨id, he⟩]
    exact hn
  · exact hn

/-! ## Every session of a run -/

/-- The saved themes are a store with the id as its key, above the store of the presets. -/
structure Library (now : Instant) (freshId : String) (s : Session) : Prop where
  /-- No two saved themes have the same id. -/
  nodup : (s.saved.map Theme.id).Nodup
  /-- The current theme is stored, nothing else changes, and loading its id brings it back. -/
  save : ∃ saved, s.perform now freshId .save = .ok (.done, { s with saved := saved }) ∧
    Stored s.current s.saved saved ∧
    Loads now freshId { s with saved := saved } s.current.id s.current
  /-- A saved theme is found under its id, whether or not a preset has that id too. -/
  load_saved : ∀ t ∈ s.saved, Loads now freshId s t.id t
  /-- A preset is found under its id as long as no saved theme has that id. -/
  load_preset : ∀ t ∈ Preset.all, (∀ u ∈ s.saved, u.id ≠ t.id) → Loads now freshId s t.id t
  load_unknown : ∀ id, (∀ u ∈ s.saved ++ Preset.all, u.id ≠ id) →
    s.perform now freshId (.loadId id) = .error (.themeNotFound id)
  /-- A saved theme is taken out and handed over, nothing else changes, and the preset of its id, if
  there is one, is found from then on. -/
  delete_saved : ∀ t ∈ s.saved, ∃ saved,
    s.perform now freshId (.delete t.id) = .ok (.removed t, { s with saved := saved }) ∧
    Removed t s.saved saved ∧
    ∀ p ∈ Preset.all, p.id = t.id → Loads now freshId { s with saved := saved } t.id p
  delete_unknown : ∀ id, (∀ u ∈ s.saved, u.id ≠ id) →
    s.perform now freshId (.delete id) = .error (.themeNotFound id)
  /-- No other action adds, removes or changes a saved theme. -/
  others : ∀ a o s', s.perform now freshId a = .ok (o, s') → a ≠ .save → (∀ id, a ≠ .delete id) →
    s'.saved = s.saved
  /-- An action that fails, such as a load or a delete, leaves everything as it was. -/
  failed : ∀ a e, s.perform now freshId a = .error e → s.after now freshId a = s

theorem library_of_nodup (hn : (s.saved.map Theme.id).Nodup) (now : Instant) (freshId : String) :
    Library now freshId s where
  nodup := hn
  save := by
    have hstored := stored_putTheme s.current s.saved
    refine ⟨_, perform_save now freshId s, hstored, loads_of_findTheme? ?_⟩
    exact findTheme?_saved (hstored.nodup hn) hstored.mem
  load_saved t ht := loads_of_findTheme? (findTheme?_saved hn ht)
  load_preset t ht hnone := loads_of_findTheme? (findTheme?_preset hnone ht)
  load_unknown id hnone := by
    simp only [perform, loadId, findTheme?_unknown hnone]
    rfl
  delete_saved t ht := by
    have hremoved := removed_eraseP hn ht
    refine ⟨_, perform_delete hn ht, hremoved, ?_⟩
    intro p hp he
    rw [← he]
    refine loads_of_findTheme? (findTheme?_preset ?_ hp)
    rw [he]
    exact hremoved.id_ne hn
  delete_unknown id hnone := perform_delete_unknown hnone
  others a o s' h hsave hdelete := saved_perform h hsave hdelete
  failed a e h := by rw [after, h]

/-- After every run of actions from a session that has no saved themes, the saved themes are a store
with the id as its key. -/
theorem library_of_reaches {s₀ s : Session} (h₀ : s₀.saved = []) (h : Reaches (fun _ => True) s₀ s)
    (now : Instant) (freshId : String) : Library now freshId s := by
  have hn : (s.saved.map Theme.id).Nodup := by
    refine h.keeps (P := fun s => (s.saved.map Theme.id).Nodup) ?_ ?_ (by simp [h₀])
    · intro s now freshId a _ hs
      exact nodup_after hs now freshId a
    · intro s engine hs
      exact hs
  exact library_of_nodup hn now freshId

/-- An edited preset is saved under the id of the preset, next to a theme of another id, and an undo
in between does not reach the store. -/
theorem library_of_reaches_shadowed :
    let patch : Config := .ofEntries [("format", .string "$character")]
    let loaded := (start Preset.clean).after Preset.date "" (.loadId "preset-nord")
    let edited := loaded.after Preset.date "" (.updateConfig patch)
    let saved := (edited.after Preset.date "" .save).after Preset.date "" .undo
    let s := (saved.after Preset.date "" (.loadId "preset-clean")).after Preset.date "" .save
    (start Preset.clean).saved = [] ∧ Reaches (fun _ => True) (start Preset.clean) s ∧
      Library Preset.date "" s := by
  intro patch loaded edited saved s
  have hsaved : Reaches (fun _ => True) (start Preset.clean) saved :=
    .act _ _ (.act _ _ (.act _ _ (.act _ _ .refl trivial) trivial) trivial) trivial
  have h : Reaches (fun _ => True) (start Preset.clean) s :=
    .act _ _ (.act _ _ hsaved trivial) trivial
  exact ⟨rfl, h, library_of_reaches rfl h Preset.date ""⟩

end Session

end PromptTheme
