/-
What all configurations of a session have in common. A session holds the configuration that is edited,
those of the saved themes, and those of the past and the future. `Session.Holds.reaches` says that a
property which all of them have is kept along a run, as long as every action of the run brings in nothing
that breaks it: no overlay that takes it away from a configuration, and no theme without it.

What one action does is read off its footprint.
-/
import PromptTheme.Proofs.Editor.Footprint

namespace PromptTheme

/-- What the action brings into a session has the property, or keeps it when it is an overlay. -/
def Action.Keeps (P : Config → Prop) : Action → Prop
  | .updateConfig patch => ∀ c, P c → P (c.merge patch)
  | .importToml text =>
    ∀ imported, Config.ofToml? text = .ok imported → ∀ c, P c → P (c.merge imported)
  | .applyScheme name =>
    ∀ scheme, ColorScheme.find? name = some scheme → ∀ c, P c → P (c.merge scheme.patch)
  | .reset => P .initial
  | .load t => P t.config
  | .loadId id => ∀ t, Preset.find? id = some t → P t.config
  | _ => True

namespace Session

variable {P : Config → Prop} {s s' : Session}

/-- Every configuration that the session holds has the property. -/
structure Holds (P : Config → Prop) (s : Session) : Prop where
  current : P s.config
  saved : ∀ t ∈ s.saved, P t.config
  past : ∀ t ∈ s.history.past, P t.config
  future : ∀ t ∈ s.history.future, P t.config

theorem Holds.start {t : Theme} (h : P t.config) (engine : Engine) : (start t engine).Holds P :=
  ⟨h, by simp [Session.start], by simp [Session.start, History.empty, History.withLimit],
    by simp [Session.start, History.empty, History.withLimit]⟩

/-! ## One action -/

/-- The theme that is recorded was held before, so only the theme behind the edit has to be checked. -/
theorem Holds.recorded (hs : s.Holds P) (h : Recorded s s') (hc : P s'.config) : s'.Holds P := by
  refine ⟨hc, by rw [h.saved]; exact hs.saved, ?_, by rw [h.history]; simp⟩
  intro t ht
  rw [h.history] at ht
  have ht : t ∈ s.history.past ++ [s.current] := List.mem_of_mem_drop ht
  rcases List.mem_append.1 ht with ht | ht
  · exact hs.past t ht
  · rw [List.mem_singleton] at ht
    exact ht ▸ hs.current

theorem Holds.laid {now : Instant} {overlay : Config} {changed : Bool} (hs : s.Holds P)
    (h : Laid now overlay s changed s') (ho : ∀ c, P c → P (c.merge overlay)) : s'.Holds P := by
  cases changed with
  | true =>
    refine hs.recorded (h.recorded rfl) ?_
    rw [config, h.current rfl]
    exact ho _ hs.current
  | false =>
    rw [h.unchanged rfl]
    exact ⟨hs.current, hs.saved, hs.past, hs.future⟩

/-- A theme that is loaded comes with an empty history. -/
theorem Holds.loaded (hs : s.Holds P) {t : Theme} (ht : P t.config) :
    { s with current := t, selected := none,
             history := { s.history with past := [], future := [] } }.Holds P :=
  ⟨ht, hs.saved, by simp, by simp⟩

theorem Holds.withSaved (hs : s.Holds P) {saved : List Theme}
    (h : ∀ t ∈ saved, t ∈ s.saved ∨ t = s.current) : { s with saved := saved }.Holds P := by
  refine ⟨hs.current, fun t ht => ?_, hs.past, hs.future⟩
  rcases h t ht with ht | rfl
  · exact hs.saved t ht
  · exact hs.current

theorem Holds.undone (hs : s.Holds P) {older : List Theme} {previous : Theme}
    (hp : s.history.past = older ++ [previous]) :
    { s with
      current := previous
      history := { s.history with past := older, future := s.current :: s.history.future } }.Holds P := by
  have hpast : ∀ t ∈ older ++ [previous], P t.config := hp ▸ hs.past
  refine ⟨hpast previous (by simp), hs.saved, fun t ht => hpast t (by simp [ht]), fun t ht => ?_⟩
  rcases List.mem_cons.1 ht with rfl | ht
  · exact hs.current
  · exact hs.future t ht

theorem Holds.redone (hs : s.Holds P) {next : Theme} {later : List Theme}
    (hf : s.history.future = next :: later) :
    { s with
      current := next
      history := { s.history with past := s.history.past ++ [s.current], future := later } }.Holds P := by
  have hfuture : ∀ t ∈ next :: later, P t.config := hf ▸ hs.future
  refine ⟨hfuture next (by simp), hs.saved, fun t ht => ?_, fun t ht => hfuture t (by simp [ht])⟩
  rcases List.mem_append.1 ht with ht | ht
  · exact hs.past t ht
  · rw [List.mem_singleton] at ht
    exact ht ▸ hs.current

theorem Holds.findTheme (hs : s.Holds P) {id : String} {t : Theme}
    (hid : ∀ t, Preset.find? id = some t → P t.config)
    (h : (s.saved.find? fun t => t.id = id).or (Preset.find? id) = some t) : P t.config := by
  rcases Option.or_eq_some_iff.1 h with h | ⟨-, h⟩
  · exact hs.saved t (List.mem_of_find?_eq_some h)
  · exact hid t h

theorem Holds.after (hs : s.Holds P) (hl : s.history.limit = 50) {a : Action} (ha : a.Keeps P)
    (now : Instant) (freshId : String) : (s.after now freshId a).Holds P := by
  have h := footprint_of_limit hl now freshId a
  unfold Session.after
  -- a theme that is new to the session is a merge, the initial one, a preset or the one handed in
  cases a with
  | updateConfig patch =>
    obtain ⟨changed, s', hr, hlaid, -⟩ := h
    rw [hr]
    exact hs.laid hlaid ha
  | updateMetadata patch =>
    obtain ⟨s', hr, hrec, hcur, -⟩ := h
    rw [hr]
    refine hs.recorded hrec ?_
    rw [config, hcur]
    exact hs.current
  | importToml text =>
    simp only [Footprint] at h
    split at h
    · rename_i imported hread
      obtain ⟨changed, s', hr, hlaid, -⟩ := h
      rw [hr]
      exact hs.laid hlaid (ha imported hread)
    · rw [h]
      exact hs
  | applyScheme name =>
    simp only [Footprint] at h
    split at h
    · rename_i scheme hfind
      obtain ⟨changed, s', hr, hlaid, -⟩ := h
      rw [hr]
      exact hs.laid hlaid (ha scheme hfind)
    · rw [h]
      exact hs
  | reset =>
    obtain ⟨s', hr, hrec, hcur, -⟩ := h
    rw [hr]
    refine hs.recorded hrec ?_
    rw [config, hcur]
    exact ha
  | load t => exact hs.loaded ha
  | loadId id =>
    simp only [Footprint] at h
    split at h
    · rename_i t ht
      rw [h]
      exact hs.loaded (hs.findTheme ha ht)
    · rw [h]
      exact hs
  | save =>
    simp only [Footprint] at h
    split at h
    · rw [h]
      exact hs.withSaved fun t ht => List.mem_or_eq_of_mem_set ht
    · rw [h]
      exact hs.withSaved fun t ht => by simpa using ht
  | delete id =>
    simp only [Footprint] at h
    split at h
    · obtain ⟨t, -, hr⟩ := h
      rw [hr]
      exact hs.withSaved fun t ht => .inl (List.mem_of_mem_eraseIdx ht)
    · rw [h]
      exact hs
  | select m => exact ⟨hs.current, hs.saved, hs.past, hs.future⟩
  | undo =>
    rcases h with ⟨-, hr⟩ | ⟨older, previous, hp, hr⟩
    · rw [hr]
      exact hs
    · rw [hr]
      exact hs.undone hp
  | redo =>
    rcases h with ⟨-, hr⟩ | ⟨next, later, hf, hr⟩
    · rw [hr]
      exact hs
    · rw [hr]
      exact hs.redone hf

/-! ## Every session of a run -/

/-- A run keeps what each of its actions keeps. -/
theorem Holds.reaches {allowed : Action → Prop} (hallowed : ∀ a, allowed a → a.Keeps P)
    (hs : s.Holds P) (hl : s.history.limit = 50) (h : Reaches allowed s s') : s'.Holds P := by
  have hkeep : s'.Holds P ∧ s'.history.limit = 50 := by
    refine h.keeps (P := fun s => s.Holds P ∧ s.history.limit = 50) ?_ ?_ ⟨hs, hl⟩
    · rintro t now freshId a ha ⟨hh, hl⟩
      exact ⟨hh.after hl (hallowed a ha) now freshId, (limit_after t now freshId a).trans hl⟩
    · rintro t engine ⟨hh, hl⟩
      exact ⟨⟨hh.current, hh.saved, hh.past, hh.future⟩, hl⟩
  exact hkeep.1

end Session

end PromptTheme
