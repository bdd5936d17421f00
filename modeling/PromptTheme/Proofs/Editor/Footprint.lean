/-
What every action leaves behind. `Session.Footprint` spells out the session after an action, piece by
piece: the current theme, the past and the future, the saved themes and the selection. The headline
`Session.perform_footprint` says that in every session that a run reaches each action has its
footprint, that an action which fails leaves the session as it was, and that an edit which was recorded
can be undone and redone exactly.

A run can change how many states the history keeps by no action, so it is fifty throughout; all else
holds of one action by itself.
-/
import PromptTheme.Editor.Session
import Mathlib.Data.List.DropRight

namespace PromptTheme

namespace Session

/-! ## Runs -/

/-- The sessions that allowed actions lead to from `s`, each at a time and with a fresh id of its own,
also when the engine is replaced in between. -/
inductive Reaches (allowed : Action → Prop) (s : Session) : Session → Prop where
  | refl : Reaches allowed s s
  | act {t : Session} {a : Action} (now : Instant) (freshId : String) :
      Reaches allowed s t → allowed a → Reaches allowed s (t.after now freshId a)
  | equip {t : Session} (engine : Engine) :
      Reaches allowed s t → Reaches allowed s { t with engine := engine }

/-- What every allowed action keeps, a run keeps. -/
theorem Reaches.keeps {allowed : Action → Prop} {P : Session → Prop}
    (hact : ∀ t now freshId a, allowed a → P t → P (t.after now freshId a))
    (hequip : ∀ t engine, P t → P { t with engine := engine }) {s t : Session}
    (h : Reaches allowed s t) (hs : P s) : P t := by
  induction h with
  | refl => exact hs
  | act now freshId _ ha ih => exact hact _ now freshId _ ha ih
  | equip engine _ ih => exact hequip _ engine ih

/-! ## Footprints -/

/-- The theme of `s` is the last of at most fifty past states of `s'`, and nothing is left to redo. -/
structure Recorded (s s' : Session) : Prop where
  history : s'.history =
    { s.history with past := (s.history.past ++ [s.current]).rtake 50, future := [] }
  saved : s'.saved = s.saved
  engine : s'.engine = s.engine

/-- An overlay is laid over the configuration. The answer says whether this changes the content; if it
does, the edit is recorded and of the theme only the configuration and the time of the last update
change, and if not, nothing changes but the selection. -/
structure Laid (now : Instant) (overlay : Config) (s : Session) (changed : Bool) (s' : Session) : Prop where
  changed_iff : changed = true ↔ (s.config.merge overlay).sameAs s.config = false
  recorded : changed = true → Recorded s s'
  current : changed = true →
    s'.current = ⟨{ s.current.metadata with updated := now }, s.config.merge overlay⟩
  unchanged : changed = false → s' = { s with selected := s'.selected }

/-- The outcome of each action and the session behind it. -/
def Footprint (now : Instant) (freshId : String) (s : Session) :
    Action → Except SessionError (Outcome × Session) → Prop
  | .updateConfig patch, r =>
    ∃ changed s', r = .ok (.changed changed, s') ∧ Laid now patch s changed s' ∧
      s'.selected = s.selected
  | .importToml text, r =>
    match Config.ofToml? text with
    | .ok imported =>
      ∃ changed s', r = .ok (.changed changed, s') ∧ Laid now imported s changed s' ∧
        s'.selected = none
    | .error e => r = .error (.config e)
  | .applyScheme name, r =>
    match ColorScheme.find? name with
    | some scheme =>
      ∃ changed s', r = .ok (.changed changed, s') ∧ Laid now scheme.patch s changed s' ∧
        s'.selected = s.selected
    | none => r = .error (.unknownScheme name)
  | .updateMetadata patch, r =>
    ∃ s', r = .ok (.done, s') ∧ Recorded s s' ∧
      s'.current = ⟨s.current.metadata.apply patch now, s.config⟩ ∧ s'.selected = s.selected
  | .reset, r =>
    ∃ s', r = .ok (.done, s') ∧ Recorded s s' ∧ s'.current = .untitled freshId now ∧
      s'.selected = none
  | .load t, r =>
    r = .ok (.done, { s with
      current := t, selected := none, history := { s.history with past := [], future := [] } })
  | .loadId id, r =>
    match (s.saved.find? fun t => t.id = id).or (Preset.find? id) with
    | some t =>
      r = .ok (.done, { s with
        current := t, selected := none, history := { s.history with past := [], future := [] } })
    | none => r = .error (.themeNotFound id)
  | .save, r =>
    match s.saved.findIdx? (fun t => t.id = s.current.id) with
    | some i => r = .ok (.done, { s with saved := s.saved.set i s.current })
    | none => r = .ok (.done, { s with saved := s.saved ++ [s.current] })
  | .delete id, r =>
    match s.saved.findIdx? (fun t => t.id = id) with
    | some i =>
      ∃ t, s.saved[i]? = some t ∧ r = .ok (.removed t, { s with saved := s.saved.eraseIdx i })
    | none => r = .error (.themeNotFound id)
  | .select m, r => r = .ok (.done, { s with selected := m })
  | .undo, r =>
    (s.history.past = [] ∧ r = .ok (.changed false, s)) ∨
    ∃ older previous, s.history.past = older ++ [previous] ∧
      r = .ok (.changed true, { s with
        current := previous
        history := { s.history with past := older, future := s.current :: s.history.future } })
  | .redo, r =>
    (s.history.future = [] ∧ r = .ok (.changed false, s)) ∨
    ∃ next later, s.history.future = next :: later ∧
      r = .ok (.changed true, { s with
        current := next
        history := { s.history with past := s.history.past ++ [s.current], future := later } })

/-! ## Steps of the history -/

theorem record_eq (snapshot : Theme) {h : History Theme} {n : Nat} (hn : h.limit = n) :
    h.record snapshot = { h with past := (h.past ++ [snapshot]).rtake n, future := [] } := by
  subst hn; rfl

/-- An edit is recorded when the history keeps fifty states. -/
theorem recorded_edit {s : Session} (h : s.history.limit = 50) (t : Theme) : Recorded s (s.edit t) :=
  ⟨record_eq s.current h, rfl, rfl⟩

/-- An undo with a past that is not empty. -/
theorem undo_of_past {s : Session} {older : List Theme} {previous : Theme}
    (h : s.history.past = older ++ [previous]) :
    s.undo = (true, { s with
      current := previous
      history := { s.history with past := older, future := s.current :: s.history.future } }) := by
  simp [undo, History.undo?, h, stepTo]

/-- A redo with a future that is not empty. -/
theorem redo_of_future {s : Session} {next : Theme} {later : List Theme}
    (h : s.history.future = next :: later) :
    s.redo = (true, { s with
      current := next
      history := { s.history with past := s.history.past ++ [s.current], future := later } }) := by
  simp [redo, History.redo?, h, stepTo]

/-! ## One action -/

theorem laid_commit {s : Session} (h : s.history.limit = 50) (overlay : Config) (now : Instant) :
    Laid now overlay s (s.updateConfig overlay now).1 (s.updateConfig overlay now).2 := by
  unfold updateConfig commit
  split
  · rename_i hc
    exact ⟨by simp [hc], by simp, by simp, fun _ => rfl⟩
  · rename_i hc
    exact ⟨by simp [hc], fun _ => recorded_edit h _, fun _ => rfl, by simp⟩

/-- The selection is no part of what an overlay changes. -/
theorem Laid.select {now : Instant} {overlay : Config} {s s' : Session} {changed : Bool}
    (h : Laid now overlay s changed s') (selected : Option String) :
    Laid now overlay s changed { s' with selected := selected } := by
  refine ⟨h.changed_iff, fun hc => ?_, h.current, fun hc => ?_⟩
  · obtain ⟨h1, h2, h3⟩ := h.recorded hc
    exact ⟨h1, h2, h3⟩
  · rw [h.unchanged hc]

theorem selected_updateConfig (s : Session) (overlay : Config) (now : Instant) :
    (s.updateConfig overlay now).2.selected = s.selected := by
  unfold updateConfig commit
  split <;> rfl

/-- Saving replaces the first theme with the id of the current one, or appends. -/
theorem putTheme_eq (t : Theme) : ∀ l : List Theme, putTheme t l =
    match l.findIdx? (fun u => u.id = t.id) with
    | some i => l.set i t
    | none => l ++ [t]
  | [] => rfl
  | u :: rest => by
    rw [putTheme, putTheme_eq t rest, List.findIdx?_cons]
    by_cases h : u.id = t.id
    · simp [h]
    · simp only [h, if_false, decide_false, Bool.false_eq_true]
      cases List.findIdx? (fun u => decide (u.id = t.id)) rest <;> rfl

theorem footprint_save (s : Session) (now : Instant) (freshId : String) :
    Footprint now freshId s .save (s.perform now freshId .save) := by
  simp only [Footprint, perform, save, putTheme_eq]
  split <;> rfl

theorem footprint_delete (s : Session) (now : Instant) (freshId id : String) :
    Footprint now freshId s (.delete id) (s.perform now freshId (.delete id)) := by
  simp only [Footprint, perform, delete]
  rw [List.find?_eq_bind_findIdx?_getElem?, List.eraseP_eq_eraseIdx]
  cases hi : s.saved.findIdx? (fun t => t.id = id) with
  | none => rfl
  | some i =>
    obtain ⟨hlt, -, -⟩ := List.findIdx?_eq_some_iff_getElem.1 hi
    simp only [Option.bind_some, List.getElem?_eq_getElem hlt]
    exact ⟨_, rfl, rfl⟩

theorem footprint_undo (s : Session) (now : Instant) (freshId : String) :
    Footprint now freshId s .undo (s.perform now freshId .undo) := by
  rcases List.eq_nil_or_concat s.history.past with hp | ⟨older, previous, hp⟩
  · refine .inl ⟨hp, ?_⟩
    simp [perform, undo, History.undo?, hp, stepTo, answer]
  · rw [List.concat_eq_append] at hp
    refine .inr ⟨older, previous, hp, ?_⟩
    rw [perform, undo_of_past hp]
    rfl

theorem footprint_redo (s : Session) (now : Instant) (freshId : String) :
    Footprint now freshId s .redo (s.perform now freshId .redo) := by
  cases hf : s.history.future with
  | nil =>
    refine .inl ⟨hf, ?_⟩
    simp [perform, redo, History.redo?, hf, stepTo, answer]
  | cons next later =>
    refine .inr ⟨next, later, hf, ?_⟩
    rw [perform, redo_of_future hf]
    rfl

theorem footprint_importToml {s : Session} (h : s.history.limit = 50) (now : Instant)
    (freshId text : String) :
    Footprint now freshId s (.importToml text) (s.perform now freshId (.importToml text)) := by
  simp only [Footprint, perform, importToml]
  cases Config.ofToml? text with
  | error e => rfl
  | ok imported => exact ⟨_, _, rfl, (laid_commit h imported now).select none, rfl⟩

theorem footprint_applyScheme {s : Session} (h : s.history.limit = 50) (now : Instant)
    (freshId name : String) :
    Footprint now freshId s (.applyScheme name) (s.perform now freshId (.applyScheme name)) := by
  simp only [Footprint, perform, applyScheme]
  cases ColorScheme.find? name with
  | none => rfl
  | some scheme => exact ⟨_, _, rfl, laid_commit h scheme.patch now, selected_updateConfig _ _ _⟩

/-- Every action has its footprint in a session whose history keeps fifty states. -/
theorem footprint_of_limit {s : Session} (h : s.history.limit = 50) (now : Instant) (freshId : String)
    (a : Action) : Footprint now freshId s a (s.perform now freshId a) := by
  cases a with
  | updateConfig patch => exact ⟨_, _, rfl, laid_commit h patch now, selected_updateConfig _ _ _⟩
  | updateMetadata patch => exact ⟨_, rfl, recorded_edit h _, rfl, rfl⟩
  | importToml text => exact footprint_importToml h now freshId text
  | applyScheme name => exact footprint_applyScheme h now freshId name
  | reset =>
    obtain ⟨h1, h2, h3⟩ := recorded_edit h (.untitled freshId now)
    exact ⟨_, rfl, ⟨h1, h2, h3⟩, rfl, rfl⟩
  | load t => rfl
  | loadId id =>
    simp only [Footprint, perform, loadId, findTheme?]
    cases (s.saved.find? fun t => t.id = id).or (Preset.find? id) <;> rfl
  | save => exact footprint_save s now freshId
  | delete id => exact footprint_delete s now freshId id
  | select m => rfl
  | undo => exact footprint_undo s now freshId
  | redo => exact footprint_redo s now freshId

/-! ## Every session of a run -/

theorem limit_updateConfig (s : Session) (overlay : Config) (now : Instant) :
    (s.updateConfig overlay now).2.history.limit = s.history.limit := by
  unfold updateConfig commit
  split <;> rfl

theorem limit_stepTo {s : Session} {r : Option (Theme × History Theme)}
    (h : ∀ t g, r = some (t, g) → g.limit = s.history.limit) :
    (s.stepTo r).2.history.limit = s.history.limit := by
  rcases r with _ | ⟨t, g⟩
  · rfl
  · exact h t g rfl

/-- No action changes how many states the history keeps. -/
theorem limit_after (s : Session) (now : Instant) (freshId : String) (a : Action) :
    (s.after now freshId a).history.limit = s.history.limit := by
  cases a with
  | updateConfig patch => exact limit_updateConfig s patch now
  | updateMetadata patch => rfl
  | importToml text =>
    simp only [after, perform, importToml]
    cases Config.ofToml? text with
    | error e => rfl
    | ok imported => exact limit_updateConfig s imported now
  | applyScheme name =>
    simp only [after, perform, applyScheme]
    cases ColorScheme.find? name with
    | none => rfl
    | some scheme => exact limit_updateConfig s scheme.patch now
  | reset => rfl
  | load t => rfl
  | loadId id =>
    simp only [after, perform, loadId]
    cases s.findTheme? id <;> rfl
  | save => rfl
  | delete id =>
    simp only [after, perform, delete]
    cases s.saved.find? fun t => t.id = id <;> rfl
  | select m => rfl
  | undo =>
    refine limit_stepTo fun t g h => ?_
    obtain ⟨_, _, he⟩ := Option.map_eq_some_iff.1 h
    cases he
    rfl
  | redo =>
    refine limit_stepTo fun t g h => ?_
    unfold History.redo? at h
    split at h
    · cases h
    · cases h; rfl

theorem limit_reaches {t : Theme} {engine : Engine} {s : Session}
    (h : Reaches (fun _ => True) (start t engine) s) : s.history.limit = 50 :=
  h.keeps (P := fun s => s.history.limit = 50)
    (fun s now freshId a _ hs => (limit_after s now freshId a).trans hs) (fun _ _ hs => hs) rfl

/-- The theme before a recorded edit comes back with an undo, and the session after it with a redo. -/
theorem undo_recorded {s s' : Session} (h : Recorded s s') :
    ∃ undone, s'.undo = (true, undone) ∧ undone.current = s.current ∧ undone.redo = (true, s') := by
  have hp : s'.history.past = s.history.past.rtake 49 ++ [s.current] := by
    rw [h.history]; exact List.rtake_concat_succ _ _ _
  have hf : s'.history.future = [] := by rw [h.history]
  refine ⟨_, undo_of_past hp, rfl, ?_⟩
  rw [redo_of_future rfl]
  obtain ⟨current, saved, selected, ⟨past, future, limit, pos⟩, engine⟩ := s'
  cases hp
  cases hf
  rfl

/-- In every session that a run from a theme reaches, every action has its footprint; an action that
fails leaves the session as it was; and after an action that recorded the theme before it, an undo is
granted and brings that theme back, and a redo then brings back the session behind the action. -/
theorem perform_footprint {t : Theme} {engine : Engine} {s : Session}
    (h : Reaches (fun _ => True) (start t engine) s) (now : Instant) (freshId : String) (a : Action) :
    Footprint now freshId s a (s.perform now freshId a) ∧
    (∀ e, s.perform now freshId a = .error e → s.after now freshId a = s) ∧
    (∀ o s', s.perform now freshId a = .ok (o, s') → Recorded s s' →
      ∃ undone, s'.undo = (true, undone) ∧ undone.current = s.current ∧ undone.redo = (true, s')) := by
  refine ⟨footprint_of_limit (limit_reaches h) now freshId a, fun e he => ?_, fun o s' _ hr => ?_⟩
  · rw [after, he]
  · exact undo_recorded hr

/-- Starting over in a session with a state to undo to and one to redo. The undo brings that session's
theme back and the redo the new one, and the deletion of a theme that is not there changes nothing. -/
theorem perform_footprint_reset :
    let renamed := (start Preset.clean).after Preset.date "" (.updateMetadata { name := some "Mine" })
    let edited := renamed.after Preset.date ""
      (.updateConfig (.ofEntries [("format", .string "$character")]))
    let undone := edited.after Preset.date "" .undo
    let s := undone.after Preset.date "" (.select (some "character"))
    Reaches (fun _ => True) (start Preset.clean) s ∧
      s.history.past = [Preset.clean] ∧ s.history.future = [edited.current] ∧
      Footprint Preset.date "fresh" s .reset (s.perform Preset.date "fresh" .reset) ∧
      (∃ s' back, s.perform Preset.date "fresh" .reset = .ok (.done, s') ∧ Recorded s s' ∧
        s'.undo = (true, back) ∧ back.current = s.current ∧ back.redo = (true, s')) ∧
      s.perform Preset.date "fresh" (.delete "nobody") = .error (.themeNotFound "nobody") ∧
      s.after Preset.date "fresh" (.delete "nobody") = s := by
  intro renamed edited undone s
  have h : Reaches (fun _ => True) (start Preset.clean) s :=
    .act _ _ (.act _ _ (.act _ _ (.act _ _ .refl trivial) trivial) trivial) trivial
  have hmissing : s.perform Preset.date "fresh" (.delete "nobody") = .error (.themeNotFound "nobody") := by
    with_unfolding_all rfl
  have hreset := perform_footprint h Preset.date "fresh" .reset
  have hdelete := perform_footprint h Preset.date "fresh" (.delete "nobody")
  obtain ⟨s', hs', hrecorded, -, -⟩ := hreset.1
  obtain ⟨back, hundo, hcurrent, hredo⟩ := hreset.2.2 .done s' hs' hrecorded
  exact ⟨h, by with_unfolding_all rfl, by with_unfolding_all rfl, hreset.1,
    ⟨s', back, hs', hrecorded, hundo, hcurrent, hredo⟩, hmissing, hdelete.2.1 _ hmissing⟩

end Session

end PromptTheme
