/-
Styled groups `[text](style)` in a text. The text may not hold `]` and the style may not hold `)`,
so of nested groups one pass draws the innermost level only. A text is read as pieces, and a pass draws
the groups among them; passes are repeated until nothing changes, but at most five times.
-/
import PromptTheme.Style.Escape

namespace PromptTheme.Group

/-- A character outside of groups, or a group. -/
inductive Piece where
  | char (c : Char)
  | group (text style : List Char)
deriving DecidableEq

/-- Reads the rest of a group behind its opening bracket: text, style and what follows. -/
def rest? (s : List Char) : Option (List Char × List Char × List Char) :=
  let text := s.takeWhile (· ≠ ']')
  match s.dropWhile (· ≠ ']') with
  | ']' :: '(' :: s =>
    let style := s.takeWhile (· ≠ ')')
    match s.dropWhile (· ≠ ')') with
    | ')' :: after => if text.isEmpty || style.isEmpty then none else some (text, style, after)
    | _ => none
  | _ => none

theorem length_dropWhile_le {α : Type} (p : α → Bool) (s : List α) :
    (s.dropWhile p).length ≤ s.length := (List.dropWhile_sublist p).length_le

theorem rest?_length {s text style after : List Char} (h : rest? s = some (text, style, after)) :
    after.length < s.length := by
  unfold rest? at h
  have h1 := length_dropWhile_le (· ≠ ']') s
  split at h
  · rename_i t ht
    have h2 := length_dropWhile_le (· ≠ ')') t
    rw [ht] at h1
    split at h
    · rename_i after' ha
      rw [ha] at h2
      dsimp only at h
      split at h
      · cases h
      · cases h
        simp only [List.length_cons] at h1 h2
        omega
    · cases h
  · cases h

/-- The pieces of a text. A group begins at the first bracket from which one can be read. -/
def pieces (s : List Char) : List Piece :=
  match s with
  | [] => []
  | c :: tail =>
    if c = '[' then
      match _h : rest? tail with
      | some (text, style, after) => .group text style :: pieces after
      | none => .char c :: pieces tail
    else .char c :: pieces tail
termination_by s.length
decreasing_by
  · have := rest?_length _h
    simp only [List.length_cons]; omega
  · simp
  · simp

/-- What a piece is drawn as. -/
def Piece.draw (encode : List Char → List Char) : Piece → List Char
  | .char c => [c]
  | .group text style => encode style ++ text ++ Escape.reset

/-- Draws the groups of a text, one pass. -/
def pass (encode : List Char → List Char) (s : List Char) : List Char :=
  (pieces s).flatMap (Piece.draw encode)

/-- The largest number of passes. -/
def maxPasses : Nat := 5

/-- Repeats the pass until nothing changes, at most `n` times. -/
def passes (encode : List Char → List Char) : Nat → List Char → List Char
  | 0, s => s
  | n + 1, s => if pass encode s = s then s else passes encode n (pass encode s)

end PromptTheme.Group
