/-
A history that drops its oldest states, next to one that never drops any. `History.run_evicting` says
that the same moves find both with the same answers, the same current state and the same future, up to
the first undo that only the one without a limit grants. Until then the bounded past is the most recent
part of the whole past, and what is missing from it lies further back than the limit reaches from where
the past once ended.

The relation between the two names the states that are forgotten: undo and redo leave them alone, and
only an edit adds to them, of a past that fills the limit then.

A run without a limit is that of a history whose limit the run cannot reach (`run_eq_of_room`).
-/
import PromptTheme.Proofs.Editor.Timeline

namespace PromptTheme

universe u

variable {α : Type u}

namespace History

/-- Records the state before an edit and drops no other. -/
def recordAll (snapshot : α) (h : History α) : History α :=
  { h with past := h.past ++ [snapshot], future := [] }

/-- As long as there is room, nothing is dropped anyway. -/
theorem record_eq_recordAll (snapshot : α) {h : History α} (hroom : h.past.length < h.limit) :
    h.record snapshot = h.recordAll snapshot := by
  unfold record recordAll
  simp only [List.length_append, List.length_cons, List.length_nil]
  rw [Nat.sub_eq_zero_of_le (by omega), List.drop_zero]

namespace Editing

/-- Carries out a move as `step` does, but without a limit. -/
def stepAll : Move α → Editing α → Bool × Editing α
  | .edit next, s => (true, ⟨next, s.history.recordAll s.current⟩)
  | .undo, s => step .undo s
  | .redo, s => step .redo s
  | .clear, s => step .clear s

/-! ## One move -/

/-- Both are at the same state with the same to redo, and the past of `s` is that of `t` without the
states that are forgotten. -/
structure Forgets (forgotten : List α) (s t : Editing α) : Prop where
  current : s.current = t.current
  future : s.history.future = t.history.future
  past : t.history.past = forgotten ++ s.history.past

/-- An edit forgets nothing, or else the past fills the limit behind it. -/
theorem Forgets.edit {forgotten : List α} {s t : Editing α} (h : Forgets forgotten s t) (next : α) :
    ∃ dropped, Forgets (forgotten ++ dropped) (step (.edit next) s).2 (stepAll (.edit next) t).2 ∧
      (dropped = [] ∨ (step (.edit next) s).2.history.past.length = s.history.limit) := by
  refine ⟨(s.history.past ++ [s.current]).take (s.history.past.length + 1 - s.history.limit), ?_, ?_⟩
  · constructor
    · rfl
    · rfl
    · show t.history.past ++ [t.current] = _ ++ (s.history.past ++ [s.current]).drop _
      rw [h.past, ← h.current, List.append_assoc, List.append_assoc]
      simp only [List.length_append, List.length_cons, List.length_nil, Nat.zero_add]
      rw [List.take_append_drop]
  · show _ ∨ (s.history.record s.current).past.length = s.history.limit
    rw [length_past_record]
    by_cases hroom : s.history.past.length < s.history.limit
    · left
      rw [Nat.sub_eq_zero_of_le (by omega), List.take_zero]
    · right
      omega

/-- An undo leaves alone what is forgotten, unless the bounded past is used up and the whole past is
not. -/
theorem Forgets.undo {forgotten : List α} {s t : Editing α} (h : Forgets forgotten s t)
    (hboth : (step .undo t).1 = true → (step .undo s).1 = true) :
    (step .undo s).1 = (step .undo t).1 ∧ Forgets forgotten (step .undo s).2 (step .undo t).2 := by
  obtain ⟨current, past, future, limit, hl⟩ := s
  obtain ⟨current', past', future', limit', hl'⟩ := t
  obtain ⟨rfl, rfl, rfl⟩ := h
  rcases List.eq_nil_or_concat past with rfl | ⟨past, previous, rfl⟩
  · rcases List.eq_nil_or_concat forgotten with rfl | ⟨forgotten, previous, rfl⟩
    · exact ⟨rfl, rfl, rfl, rfl⟩
    · rw [List.concat_eq_append, List.append_nil, step_undo_concat] at hboth
      exact absurd (hboth rfl) Bool.false_ne_true
  · rw [List.concat_eq_append, ← List.append_assoc, step_undo_concat, step_undo_concat]
    exact ⟨rfl, rfl, rfl, rfl⟩

theorem Forgets.redo {forgotten : List α} {s t : Editing α} (h : Forgets forgotten s t) :
    (step .redo s).1 = (step .redo t).1 ∧ Forgets forgotten (step .redo s).2 (step .redo t).2 := by
  obtain ⟨current, past, future, limit, hl⟩ := s
  obtain ⟨current', past', future', limit', hl'⟩ := t
  obtain ⟨rfl, rfl, rfl⟩ := h
  cases future with
  | nil => exact ⟨rfl, rfl, rfl, rfl⟩
  | cons next future => exact ⟨rfl, rfl, rfl, List.append_assoc ..⟩

/-- A move answers the same with and without the limit, unless it is an undo that is granted without
the limit only. -/
theorem Forgets.step {forgotten : List α} {s t : Editing α} (h : Forgets forgotten s t) (m : Move α)
    (hboth : m = .undo → (Editing.step .undo t).1 = true → (Editing.step .undo s).1 = true) :
    (Editing.step m s).1 = (stepAll m t).1 ∧
      ∃ forgotten', Forgets forgotten' (Editing.step m s).2 (stepAll m t).2 ∧
        (forgotten' = forgotten ∨ forgotten' = [] ∨
          (Editing.step m s).2.history.past.length = s.history.limit) := by
  cases m with
  | edit next =>
    obtain ⟨dropped, hd, hfull⟩ := h.edit next
    refine ⟨rfl, _, hd, ?_⟩
    rcases hfull with rfl | hfull
    · exact .inl (List.append_nil _)
    · exact .inr (.inr hfull)
  | undo =>
    obtain ⟨ha, hu⟩ := h.undo (hboth rfl)
    exact ⟨ha, _, hu, .inl rfl⟩
  | redo =>
    obtain ⟨ha, hr⟩ := h.redo
    exact ⟨ha, _, hr, .inl rfl⟩
  | clear => exact ⟨rfl, [], ⟨h.current, rfl, rfl⟩, .inr (.inl rfl)⟩

/-! ## Runs -/

/-- An undo behind the moves is refused under the limit, and granted without it. -/
def Parts (limit : Nat) (current : α) (moves : List (Move α)) : Prop :=
  (step .undo (run step moves (start limit current)).2).1 = false ∧
    (stepAll .undo (run stepAll moves (start limit current)).2).1 = true

instance (limit : Nat) (current : α) (moves : List (Move α)) : Decidable (Parts limit current moves) :=
  inferInstanceAs (Decidable (_ ∧ _))

/-- One move needs room for at most one more state. -/
theorem room_step (m : Move α) {s : Editing α} {n : Nat}
    (hroom : s.history.past.length + s.history.future.length + (n + 1) ≤ s.history.limit) :
    (step m s).2.history.past.length + (step m s).2.history.future.length + n ≤
      (step m s).2.history.limit := by
  obtain ⟨current, past, future, limit, hl⟩ := s
  simp only at hroom
  cases m with
  | edit next =>
    show (record _ _).past.length + (record _ _).future.length + n ≤ limit
    rw [length_past_record, future_record, List.length_nil]
    simp only
    omega
  | undo =>
    rcases List.eq_nil_or_concat past with rfl | ⟨past, previous, rfl⟩
    · show 0 + future.length + n ≤ limit
      rw [List.length_nil] at hroom
      omega
    · rw [List.concat_eq_append, List.length_append, List.length_singleton] at hroom
      rw [List.concat_eq_append, step_undo_concat]
      simp only [List.length_cons]
      omega
  | redo =>
    cases future with
    | nil =>
      show past.length + 0 + n ≤ limit
      omega
    | cons next future =>
      show (past ++ [current]).length + future.length + n ≤ limit
      rw [List.length_cons] at hroom
      rw [List.length_append, List.length_singleton]
      omega
  | clear =>
    show 0 + 0 + n ≤ limit
    omega

/-- A run that is no longer than the room left under the limit does not notice the limit. -/
theorem run_eq_of_room : ∀ (moves : List (Move α)) {s : Editing α},
    s.history.past.length + s.history.future.length + moves.length ≤ s.history.limit →
    run step moves s = run stepAll moves s
  | [], _, _ => rfl
  | m :: ms, s, hroom => by
    rw [List.length_cons] at hroom
    have hstep : step m s = stepAll m s := by
      cases m with
      | edit next =>
        show (true, _) = (true, _)
        rw [record_eq_recordAll]
        omega
      | _ => rfl
    have hrest := run_eq_of_room ms (room_step m hroom)
    rw [run, run, hrest, hstep]

/-- What a run from the start has forgotten, as long as no undo parts it from the one without a limit:
nothing, or states that were as many as the limit and more away from the end of the past. -/
theorem forgets_run (limit : Nat) (current : α) (moves : List (Move α))
    (hboth : ∀ before, before ++ [.undo] <+: moves → ¬ Parts limit current before) :
    (run step moves (start limit current)).1 = (run stepAll moves (start limit current)).1 ∧
      ∃ forgotten, Forgets forgotten (run step moves (start limit current)).2
          (run stepAll moves (start limit current)).2 ∧
        (forgotten = [] ∨ ∃ earlier, earlier <+: moves ∧
          (run stepAll earlier (start limit current)).2.history.past.length =
            forgotten.length + max limit 1) := by
  induction moves using List.reverseRecOn with
  | nil => exact ⟨rfl, [], ⟨rfl, rfl, rfl⟩, .inl rfl⟩
  | append_singleton moves m ih =>
    obtain ⟨ha, forgotten, hf, hfar⟩ :=
      ih fun before hb => hboth before (hb.trans (List.prefix_append _ _))
    have hlimit := (within_run moves (within_start limit current)).limit_eq
    have hm : m = .undo →
        (step .undo (run stepAll moves (start limit current)).2).1 = true →
        (step .undo (run step moves (start limit current)).2).1 = true := by
      rintro rfl hgranted
      by_contra hrefused
      exact hboth moves (List.prefix_refl _) ⟨Bool.eq_false_iff.2 hrefused, hgranted⟩
    obtain ⟨ha', forgotten', hf', hcase⟩ := hf.step m hm
    rw [run_append, run_append]
    simp only [run]
    refine ⟨by rw [ha, ha'], forgotten', hf', ?_⟩
    rcases hcase with rfl | rfl | hfull
    · rcases hfar with rfl | ⟨earlier, he, hlength⟩
      · exact .inl rfl
      · exact .inr ⟨earlier, he.trans (List.prefix_append _ _), hlength⟩
    · exact .inl rfl
    · right
      refine ⟨moves ++ [m], List.prefix_refl _, ?_⟩
      rw [run_append]
      simp only [run]
      rw [hf'.past, List.length_append, hfull, hlimit]

end Editing

/-- Moves from any start, under any limit and without one, of which no undo is refused under the limit
and granted without it: both give the same answers and come to the same current state and the same
future, and the past under the limit is the most recent part of the whole past. If anything is missing
from it, the whole past was once longer by the limit than what is missing. -/
theorem run_evicting (limit : Nat) (current : α) (moves : List (Move α))
    (hboth : ∀ before, before ++ [.undo] <+: moves → ¬ Editing.Parts limit current before) :
    let bounded := run Editing.step moves (Editing.start limit current)
    let whole := run Editing.stepAll moves (Editing.start limit current)
    bounded.1 = whole.1 ∧ bounded.2.current = whole.2.current ∧
    bounded.2.history.future = whole.2.history.future ∧
    bounded.2.history.past <:+ whole.2.history.past ∧
    (bounded.2.history.past = whole.2.history.past ∨
      ∃ earlier, earlier <+: moves ∧
        (run Editing.stepAll earlier (Editing.start limit current)).2.history.past.length =
          whole.2.history.past.length - bounded.2.history.past.length + max limit 1) := by
  intro bounded whole
  obtain ⟨ha, forgotten, hf, hfar⟩ := Editing.forgets_run limit current moves hboth
  refine ⟨ha, hf.current, hf.future, ⟨forgotten, hf.past.symm⟩, ?_⟩
  rcases hfar with rfl | ⟨earlier, he, hlength⟩
  · exact .inl hf.past.symm
  · right
    refine ⟨earlier, he, ?_⟩
    have hpast : whole.2.history.past.length = forgotten.length + bounded.2.history.past.length := by
      rw [hf.past, List.length_append]
    rw [hlength, hpast, Nat.add_sub_cancel]

/-- Three edits under a limit of two, and two undos: the first state is forgotten, the second undo comes
to the oldest state that is left, and a third one would part the runs. -/
theorem run_evicting_three :
    let moves : List (Move Nat) := [.edit 1, .edit 2, .edit 3, .undo, .undo]
    let bounded := run Editing.step moves (Editing.start 2 0)
    let whole := run Editing.stepAll moves (Editing.start 2 0)
    (∀ before, before ++ [.undo] <+: moves → ¬ Editing.Parts 2 0 before) ∧ Editing.Parts 2 0 moves ∧
      bounded.1 = whole.1 ∧ bounded.2.current = whole.2.current ∧
      bounded.2.history.future = whole.2.history.future ∧
      bounded.2.history.past <:+ whole.2.history.past ∧
      bounded.2.history.past = [] ∧ whole.2.history.past = [0] := by
  intro moves bounded whole
  have hboth : ∀ before, before ++ [.undo] <+: moves → ¬ Editing.Parts 2 0 before := by
    intro before hb
    have hlength : before.length + 1 ≤ 5 := by
      rw [← List.length_concat (a := .undo), List.concat_eq_append]
      exact hb.length_le
    have htake : before = moves.take before.length :=
      List.prefix_iff_eq_take.1 ((List.prefix_append _ _).trans hb)
    rw [htake]
    have hall : ∀ n < 5, ¬ Editing.Parts 2 0 (moves.take n) := by decide
    exact hall _ (by omega)
  obtain ⟨ha, hc, hf, hp, -⟩ := run_evicting 2 0 moves hboth
  exact ⟨hboth, by decide, ha, hc, hf, hp, rfl, rfl⟩

end History

end PromptTheme
