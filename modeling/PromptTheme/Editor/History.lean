/-
A bounded history of edits. Earlier states stand oldest first, undone states stand with the next one
to redo first, and the current state belongs to the caller, who hands it in and gets it back.
-/

namespace PromptTheme

universe u

structure History (α : Type u) where
  past : List α
  future : List α
  /-- The most states that recording keeps. -/
  limit : Nat
  limit_pos : 0 < limit

namespace History

variable {α : Type u}

/-- The states that a history keeps when nothing else is asked for. -/
def defaultLimit : Nat := 50

/-- An empty history; a limit of zero counts as one. -/
def withLimit (limit : Nat) : History α := ⟨[], [], max limit 1, by omega⟩

def empty : History α := withLimit defaultLimit

instance : Inhabited (History α) := ⟨empty⟩

/-- Records the state before an edit. The oldest states are dropped beyond the limit, and what was
undone can no longer be redone. -/
def record (snapshot : α) (h : History α) : History α :=
  let past := h.past ++ [snapshot]
  { h with past := past.drop (past.length - h.limit), future := [] }

/-- Steps back from the current state, or refuses. -/
def undo? (current : α) (h : History α) : Option (α × History α) :=
  h.past.getLast?.map fun previous =>
    (previous, { h with past := h.past.dropLast, future := current :: h.future })

/-- Steps forward from the current state, or refuses. -/
def redo? (current : α) (h : History α) : Option (α × History α) :=
  match h.future with
  | [] => none
  | next :: rest => some (next, { h with past := h.past ++ [current], future := rest })

/-- Forgets all states but the current one. -/
def clear (h : History α) : History α := { h with past := [], future := [] }

def canUndo (h : History α) : Bool := !h.past.isEmpty

def canRedo (h : History α) : Bool := !h.future.isEmpty

/-! ## Small facts -/

theorem future_record (s : α) (h : History α) : (h.record s).future = [] := rfl

theorem length_past_record (s : α) (h : History α) :
    (h.record s).past.length = min (h.past.length + 1) h.limit := by
  simp [record]
  omega

end History

end PromptTheme
