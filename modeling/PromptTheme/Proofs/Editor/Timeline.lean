/-
A history with the state that is being edited is a timeline with a cursor: the past, the current state
and the future in one list, of which the cursor marks the current one. `History.run_timeline` says that
after any run of edits, undos, redos and clears, from any start and with any limit, both give the same
answers and stand at the same place, that past and future together stay within the limit, and that
granted undos are taken back by as many redos.

One move of the history is one move of the timeline as long as the past is within the limit, and the
limit on past and future together is what keeps it there, since a redo lets the past grow unchecked.
-/
import PromptTheme.Editor.History
import Mathlib.Tactic

namespace PromptTheme

universe u

variable {α : Type u}

namespace History

/-! ## Moves -/

/-- What is done with a history. -/
inductive Move (α : Type u) where
  /-- The current state is recorded, and another takes its place. -/
  | edit (next : α)
  | undo
  | redo
  | clear

/-- Carries out moves one after the other, and collects the answers. -/
def run {σ : Type u} (step : Move α → σ → Bool × σ) : List (Move α) → σ → List Bool × σ
  | [], s => ([], s)
  | m :: ms, s => ((step m s).1 :: (run step ms (step m s).2).1, (run step ms (step m s).2).2)

theorem run_append {σ : Type u} (step : Move α → σ → Bool × σ) :
    ∀ (ms ns : List (Move α)) (s : σ), run step (ms ++ ns) s =
      ((run step ms s).1 ++ (run step ns (run step ms s).2).1, (run step ns (run step ms s).2).2)
  | [], ns, s => rfl
  | m :: ms, ns, s => by
    rw [List.cons_append, run, run_append step ms ns]
    rfl

/-- A current state and its history. -/
structure Editing (α : Type u) where
  current : α
  history : History α

namespace Editing

/-- Nothing is recorded yet. -/
def start (limit : Nat) (current : α) : Editing α := ⟨current, withLimit limit⟩

def stepTo (s : Editing α) : Option (α × History α) → Bool × Editing α
  | some (current, history) => (true, ⟨current, history⟩)
  | none => (false, s)

/-- Carries out a move, and answers whether it was granted. -/
def step : Move α → Editing α → Bool × Editing α
  | .edit next, s => (true, ⟨next, s.history.record s.current⟩)
  | .undo, s => s.stepTo (s.history.undo? s.current)
  | .redo, s => s.stepTo (s.history.redo? s.current)
  | .clear, s => (true, ⟨s.current, s.history.clear⟩)

end Editing

end History

/-! ## Timelines -/

/-- States from the oldest to the last that can be redone. The cursor is the index of the current one. -/
structure Timeline (α : Type u) where
  states : List α
  cursor : Nat

namespace Timeline

open History (Move)

def start (current : α) : Timeline α := ⟨[current], 0⟩

/-- Carries out a move, and answers whether it was granted. An edit drops what follows the cursor, adds
the new state and drops states from the front until at most `limit` precede it. -/
def step (limit : Nat) : Move α → Timeline α → Bool × Timeline α
  | .edit next, t =>
    let dropped := t.cursor + 1 - limit
    (true, ⟨(t.states.take (t.cursor + 1) ++ [next]).drop dropped, t.cursor + 1 - dropped⟩)
  | .undo, t => if t.cursor = 0 then (false, t) else (true, { t with cursor := t.cursor - 1 })
  | .redo, t =>
    if t.cursor + 1 < t.states.length then (true, { t with cursor := t.cursor + 1 }) else (false, t)
  | .clear, t => (true, ⟨t.states[t.cursor]?.toList, 0⟩)

end Timeline

namespace History.Editing

/-- The timeline of a history. -/
def timeline (s : Editing α) : Timeline α :=
  ⟨s.history.past ++ s.current :: s.history.future, s.history.past.length⟩

/-! ## One move -/

/-- The history keeps `limit` states, and has no more than that in past and future together. -/
structure Within (limit : Nat) (s : Editing α) : Prop where
  limit_eq : s.history.limit = limit
  bound : s.history.past.length + s.history.future.length ≤ limit

theorem within_start (limit : Nat) (current : α) : Within (max limit 1) (start limit current) :=
  ⟨rfl, Nat.zero_le _⟩

/-- A step back, written out for a past that is not empty. -/
theorem step_undo_concat (current previous : α) (past future : List α) (limit : Nat) (h : 0 < limit) :
    step .undo ⟨current, ⟨past ++ [previous], future, limit, h⟩⟩ =
      (true, ⟨previous, ⟨past, current :: future, limit, h⟩⟩) := by
  simp [step, stepTo, undo?]

/-- A move keeps past and future within the limit: an edit empties the future, and undo and redo only
shift a state from one to the other. -/
theorem within_step {limit : Nat} {s : Editing α} (h : Within limit s) (m : Move α) :
    Within limit (step m s).2 := by
  obtain ⟨current, past, future, l, hl⟩ := s
  obtain ⟨rfl, hb⟩ := h
  cases m with
  | edit next =>
    refine ⟨rfl, ?_⟩
    show (record _ _).past.length + (record _ _).future.length ≤ l
    rw [length_past_record, future_record]
    simp only [List.length_nil]
    omega
  | undo =>
    rcases List.eq_nil_or_concat past with rfl | ⟨past, previous, rfl⟩
    · exact ⟨rfl, hb⟩
    · rw [List.concat_eq_append] at hb ⊢
      rw [step_undo_concat]
      refine ⟨rfl, ?_⟩
      simp only [List.length_append, List.length_cons, List.length_nil] at hb ⊢
      omega
  | redo =>
    cases future with
    | nil => exact ⟨rfl, hb⟩
    | cons next future =>
      refine ⟨rfl, ?_⟩
      simp only [step, stepTo, redo?, List.length_append, List.length_cons, List.length_nil] at hb ⊢
      omega
  | clear => exact ⟨rfl, Nat.zero_le _⟩

/-- A move of the history is the move of its timeline. -/
theorem timeline_step {limit : Nat} {s : Editing α} (h : Within limit s) (m : Move α) :
    ((step m s).1, (step m s).2.timeline) = s.timeline.step limit m := by
  obtain ⟨current, past, future, l, hl⟩ := s
  obtain ⟨rfl, -⟩ := h
  cases m with
  | edit next =>
    have hk : (past ++ current :: future).take (past.length + 1) = past ++ [current] := by
      rw [List.take_append, List.take_of_length_le (by omega)]
      simp
    -- the new state comes last, so that evicting from the front may be done before it or after it
    have hd : (past ++ [current] ++ [next]).drop (past.length + 1 - l) =
        (past ++ [current]).drop (past.length + 1 - l) ++ [next] :=
      List.drop_append_of_le_length (by simp)
    simp only [step, record, timeline, Timeline.step, hk, List.length_append, List.length_cons,
      List.length_nil, Nat.zero_add, List.length_drop]
    rw [hd]
  | undo =>
    rcases List.eq_nil_or_concat past with rfl | ⟨past, previous, rfl⟩
    · rfl
    · rw [List.concat_eq_append, step_undo_concat]
      simp [timeline, Timeline.step]
  | redo =>
    cases future with
    | nil => simp [step, stepTo, redo?, timeline, Timeline.step]
    | cons next future => simp [step, stepTo, redo?, timeline, Timeline.step]
  | clear => simp [step, clear, timeline, Timeline.step]

/-- A redo takes back an undo that was granted. -/
theorem redo_of_undo {s t : Editing α} (h : step .undo s = (true, t)) : step .redo t = (true, s) := by
  obtain ⟨current, past, future, l, hl⟩ := s
  rcases List.eq_nil_or_concat past with rfl | ⟨past, previous, rfl⟩
  · simp [step, stepTo, undo?] at h
  · rw [List.concat_eq_append, step_undo_concat] at h
    cases h
    simp [step, stepTo, redo?]

/-! ## Runs -/

theorem within_run {limit : Nat} : ∀ (ms : List (Move α)) {s : Editing α}, Within limit s →
    Within limit (run step ms s).2
  | [], _, h => h
  | m :: ms, _, h => within_run ms (within_step h m)

theorem timeline_run {limit : Nat} : ∀ (ms : List (Move α)) {s : Editing α}, Within limit s →
    ((run step ms s).1, (run step ms s).2.timeline) = run (Timeline.step limit) ms s.timeline
  | [], _, _ => rfl
  | m :: ms, s, h => by
    have hm := timeline_step h m
    have hr := timeline_run ms (within_step h m)
    simp only [run]
    rw [← hm, ← hr]

/-- As many redos take back undos that were all granted. -/
theorem redos_of_undos : ∀ (k : Nat) {s t : Editing α},
    run step (List.replicate k .undo) s = (List.replicate k true, t) →
    run step (List.replicate k .redo) t = (List.replicate k true, s)
  | 0, _, _, h => by cases h; rfl
  | k + 1, s, t, h => by
    simp only [List.replicate_succ, run, Prod.mk.injEq, List.cons.injEq] at h
    obtain ⟨⟨h1, h2⟩, h3⟩ := h
    have hk := redos_of_undos k (Prod.ext h2 h3)
    have h1 := redo_of_undo (Prod.ext h1 rfl)
    rw [List.replicate_succ', run_append, hk, List.replicate_succ']
    simp only [run, h1]

end History.Editing

namespace History

/-- After any run of moves from any start, with a limit of zero counting as one: the answers are those
of the timeline, the past, the current state and the future are its states, and its cursor is at the
current one; past and future together are within the limit; and any number of undos that are all granted
is taken back by as many redos, all of them granted. -/
theorem run_timeline (limit : Nat) (start : α) (moves : List (Move α)) :
    let reached := run Editing.step moves (Editing.start limit start)
    (reached.1, reached.2.timeline) = run (Timeline.step (max limit 1)) moves (Timeline.start start) ∧
    reached.2.history.past.length + reached.2.history.future.length ≤ max limit 1 ∧
    ∀ k undone, run Editing.step (List.replicate k .undo) reached.2 = (List.replicate k true, undone) →
      run Editing.step (List.replicate k .redo) undone = (List.replicate k true, reached.2) := by
  intro reached
  have h := Editing.within_start limit start
  exact ⟨Editing.timeline_run moves h, (Editing.within_run moves h).bound,
    fun k _ hu => Editing.redos_of_undos k hu⟩

end History

end PromptTheme
