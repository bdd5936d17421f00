/-
How a text falls into pieces. `rest?` is characterised by the text that it reads, `pieces` and `pass` get
one equation for a character and one for a group, and `reading` is the induction that follows them. The
passes are the iterates of one pass.
-/
import PromptTheme.Prompt.Group
import Mathlib.Tactic

namespace PromptTheme.Group

variable {encode : List Char → List Char}

/-! ## Reading a group -/

theorem takeWhile_stop {a : List Char} {c : Char} (ha : c ∉ a) (b : List Char) :
    (a ++ c :: b).takeWhile (· ≠ c) = a := by
  rw [List.takeWhile_append_of_pos]
  · simp
  · intro d hd
    rw [decide_eq_true_eq]
    rintro rfl
    exact ha hd

theorem dropWhile_stop {a : List Char} {c : Char} (ha : c ∉ a) (b : List Char) :
    (a ++ c :: b).dropWhile (· ≠ c) = c :: b := by
  rw [List.dropWhile_append_of_pos]
  · simp
  · intro d hd
    rw [decide_eq_true_eq]
    rintro rfl
    exact ha hd

/-- A text is cut in one way only at the first occurrence of a character. -/
theorem stop_inj {a b x y : List Char} {c : Char} (ha : c ∉ a) (hb : c ∉ b) (h : a ++ c :: x = b ++ c :: y) :
    a = b ∧ x = y := by
  have h1 := congrArg (List.takeWhile (· ≠ c)) h
  rw [takeWhile_stop ha, takeWhile_stop hb] at h1
  subst h1
  exact ⟨rfl, (List.cons.inj (List.append_cancel_left h)).2⟩

theorem not_mem_takeWhile (c : Char) (s : List Char) : c ∉ s.takeWhile (· ≠ c) := by
  induction s with
  | nil => simp
  | cons d s ih =>
    rw [List.takeWhile_cons]
    split
    · rename_i hd
      rw [decide_eq_true_eq] at hd
      rw [List.mem_cons, not_or]
      exact ⟨Ne.symm hd, ih⟩
    · simp

/-- The text behind an opening bracket that begins a group. -/
structure Opens (s text style after : List Char) : Prop where
  eq : s = text ++ ']' :: '(' :: (style ++ ')' :: after)
  text_free : ']' ∉ text
  style_free : ')' ∉ style
  text_ne : text ≠ []
  style_ne : style ≠ []

theorem rest?_eq_some_iff {s text style after : List Char} :
    rest? s = some (text, style, after) ↔ Opens s text style after := by
  constructor
  · intro h
    unfold rest? at h
    have h1 := List.takeWhile_append_dropWhile (p := (· ≠ ']')) (l := s)
    split at h
    · rename_i t ht
      have h2 := List.takeWhile_append_dropWhile (p := (· ≠ ')')) (l := t)
      split at h
      · rename_i r hr
        rw [hr] at h2
        rw [ht, ← h2] at h1
        dsimp only at h
        split at h
        · cases h
        · rename_i hne
          cases h
          rw [Bool.or_eq_true, List.isEmpty_iff, List.isEmpty_iff, not_or] at hne
          exact ⟨h1.symm, not_mem_takeWhile _ _, not_mem_takeWhile _ _, hne.1, hne.2⟩
      · cases h
    · cases h
  · rintro ⟨rfl, h1, h2, h3, h4⟩
    unfold rest?
    rw [takeWhile_stop h1, dropWhile_stop h1]
    simp only [takeWhile_stop h2, dropWhile_stop h2]
    simp [h3, h4]

theorem Opens.cons {s text style after : List Char} (h : Opens s text style after) {c : Char} (hc : c ≠ ']') :
    Opens (c :: s) (c :: text) style after := by
  obtain ⟨rfl, h1, h2, h3, h4⟩ := h
  refine ⟨rfl, ?_, h2, by simp, h4⟩
  rw [List.mem_cons, not_or]
  exact ⟨Ne.symm hc, h1⟩

/-- No group begins behind a character either, when none begins before it. -/
theorem rest?_of_cons {c : Char} (hc : c ≠ ']') {s : List Char} (h : rest? (c :: s) = none) :
    rest? s = none := by
  cases hs : rest? s with
  | none => rfl
  | some g =>
    obtain ⟨text, style, after⟩ := g
    rw [rest?_eq_some_iff.2 ((rest?_eq_some_iff.1 hs).cons hc)] at h
    cases h

/-! ## Equations -/

theorem pieces_nil : pieces [] = [] := by rw [pieces]

/-- A character that begins no group is a piece by itself. -/
theorem pieces_char {c : Char} {s : List Char} (h : c ≠ '[' ∨ rest? s = none) :
    pieces (c :: s) = .char c :: pieces s := by
  rw [pieces]
  split
  · rename_i hc
    have hs := h.resolve_left (not_not_intro hc)
    split
    · rename_i hg
      rw [hs] at hg
      cases hg
    · rfl
  · rfl

theorem pieces_group {s text style after : List Char} (h : Opens s text style after) :
    pieces ('[' :: s) = .group text style :: pieces after := by
  rw [pieces, if_pos rfl]
  split
  · rename_i hg
    rw [rest?_eq_some_iff.2 h] at hg
    cases hg
    rfl
  · rename_i hg
    rw [rest?_eq_some_iff.2 h] at hg
    cases hg

theorem pass_nil : pass encode [] = [] := by rw [pass, pieces_nil]; rfl

theorem pass_char {c : Char} {s : List Char} (h : c ≠ '[' ∨ rest? s = none) :
    pass encode (c :: s) = c :: pass encode s := by
  rw [pass, pieces_char h]
  rfl

theorem pass_group {s text style after : List Char} (h : Opens s text style after) :
    pass encode ('[' :: s) = encode style ++ (text ++ (Escape.reset ++ pass encode after)) := by
  rw [pass, pieces_group h, List.flatMap_cons, Piece.draw, List.append_assoc, List.append_assoc]
  rfl

/-- Induction along the pieces of a text. -/
@[elab_as_elim]
theorem reading {motive : List Char → Prop} (nil : motive [])
    (char : ∀ c s, (c ≠ '[' ∨ rest? s = none) → motive s → motive (c :: s))
    (group : ∀ s text style after, Opens s text style after → motive after → motive ('[' :: s))
    (s : List Char) : motive s := by
  fun_induction pieces s with
  | case1 => exact nil
  | case2 tail text style after hg ih => exact group _ _ _ _ (rest?_eq_some_iff.1 hg) ih
  | case3 tail hg ih => exact char _ _ (.inr hg) ih
  | case4 c tail hc ih => exact char _ _ (.inl hc) ih

/-! ## Texts that are read character by character -/

/-- No group begins in a first part without a closing bracket when none begins before it. -/
theorem pieces_append {a b : List Char} (ha : ']' ∉ a) (h : rest? (a ++ b) = none) :
    pieces (a ++ b) = a.map .char ++ pieces b := by
  induction a with
  | nil => rfl
  | cons c a ih =>
    rw [List.mem_cons, not_or] at ha
    have h' : rest? (a ++ b) = none := rest?_of_cons (Ne.symm ha.1) h
    rw [List.cons_append, pieces_char (.inr h'), ih ha.2 h']
    rfl

theorem pieces_append_of_open_free {a : List Char} (ha : '[' ∉ a) (b : List Char) :
    pieces (a ++ b) = a.map .char ++ pieces b := by
  induction a with
  | nil => rfl
  | cons c a ih =>
    rw [List.mem_cons, not_or] at ha
    rw [List.cons_append, pieces_char (.inl (Ne.symm ha.1)), ih ha.2]
    rfl

theorem pass_of_pieces {s a b : List Char} (h : pieces s = a.map .char ++ pieces b) :
    pass encode s = a ++ pass encode b := by
  rw [pass, h, List.flatMap_append, List.flatMap_map]
  simp [pass, Piece.draw]

theorem pass_append_of_open_free {a : List Char} (ha : '[' ∉ a) (b : List Char) :
    pass encode (a ++ b) = a ++ pass encode b :=
  pass_of_pieces (pieces_append_of_open_free ha b)

/-! ## The text that was read -/

/-- The characters of a piece. -/
def Piece.source : Piece → List Char
  | .char c => [c]
  | .group text style => '[' :: (text ++ ']' :: '(' :: (style ++ [')']))

/-- The pieces are the text, cut up. -/
theorem source_pieces (s : List Char) : (pieces s).flatMap Piece.source = s := by
  induction s using reading with
  | nil => rw [pieces_nil]; rfl
  | char c s h ih =>
    rw [pieces_char h, List.flatMap_cons, ih]
    rfl
  | group s text style after h ih =>
    rw [pieces_group h, List.flatMap_cons, ih, h.eq]
    simp [Piece.source]

theorem mem_of_mem_source {s : List Char} {p : Piece} (hp : p ∈ pieces s) {c : Char} (hc : c ∈ p.source) :
    c ∈ s := by
  rw [← source_pieces s]
  exact List.mem_flatMap.2 ⟨p, hp, hc⟩

theorem opens_of_mem_pieces {s text style : List Char} (h : .group text style ∈ pieces s) :
    ∃ front after, Opens front text style after := by
  induction s using reading with
  | nil => rw [pieces_nil] at h; cases h
  | char c s hc ih =>
    rw [pieces_char hc, List.mem_cons] at h
    exact ih (h.resolve_left (by simp))
  | group s t st after ho ih =>
    rw [pieces_group ho, List.mem_cons] at h
    rcases h with h | h
    · cases h
      exact ⟨_, _, ho⟩
    · exact ih h

/-- The styles of the groups among pieces. -/
def styles (ps : List Piece) : List (List Char) :=
  ps.filterMap fun
    | .char _ => none
    | .group _ style => some style

theorem mem_styles {ps : List Piece} {style : List Char} (h : style ∈ styles ps) :
    ∃ text, .group text style ∈ ps := by
  obtain ⟨p, hp, hst⟩ := List.mem_filterMap.1 h
  cases p with
  | char c => cases hst
  | group text st => cases hst; exact ⟨text, hp⟩

theorem styles_chars_append (a : List Char) (ps : List Piece) :
    styles (a.map .char ++ ps) = styles ps := by
  induction a with
  | nil => rfl
  | cons c a ih => exact ih

/-- A text without groups is its own pass. -/
theorem pass_eq_self {s : List Char} (h : styles (pieces s) = []) : pass encode s = s := by
  induction s using reading with
  | nil => exact pass_nil
  | char c s hc ih =>
    rw [pieces_char hc] at h
    rw [pass_char hc, ih h]
  | group s text style after ho _ =>
    rw [pieces_group ho] at h
    cases h

theorem pass_eq_self_of_open_free {s : List Char} (h : '[' ∉ s) : pass encode s = s := by
  rw [← List.append_nil s, pass_append_of_open_free h, pass_nil]

theorem pass_eq_self_of_close_free {s : List Char} (h : ']' ∉ s) : pass encode s = s := by
  rw [← List.append_nil s, pass_of_pieces, pass_nil]
  refine pieces_append h ?_
  rw [List.append_nil, Option.eq_none_iff_forall_ne_some]
  rintro ⟨text, style, after⟩ hg
  rw [(rest?_eq_some_iff.1 hg).eq] at h
  simp at h

/-- What a pass does to the number of times a character occurs: the brackets and the style of each group
go, and an encoded style and a reset come. -/
theorem count_pass_add (encode : List Char → List Char) (c : Char) (s : List Char) :
    (pass encode s).count c +
        ((styles (pieces s)).map fun style => ['[', ']', '(', ')'].count c + style.count c).sum =
      s.count c +
        ((styles (pieces s)).map fun style => (encode style).count c + Escape.reset.count c).sum := by
  induction s using reading with
  | nil => rw [pass_nil, pieces_nil]; rfl
  | char d s h ih =>
    have hcons : ∀ t : List Char, (d :: t).count c = t.count c + if d == c then 1 else 0 :=
      fun _ => List.count_cons
    rw [pass_char h, pieces_char h, hcons, hcons]
    show _ + ((styles (pieces s)).map _).sum = _ + ((styles (pieces s)).map _).sum
    omega
  | group s text style after h ih =>
    have hsource : ('[' :: s).count c =
        ['[', ']', '(', ')'].count c + text.count c + style.count c + after.count c := by
      rw [h.eq]
      simp only [List.count_cons, List.count_append, List.count_nil]
      omega
    rw [pass_group h, pieces_group h, hsource]
    show _ + (_ + style.count c + ((styles (pieces after)).map _).sum) =
      _ + ((encode style).count c + _ + ((styles (pieces after)).map _).sum)
    simp only [List.count_append]
    omega

/-! ## Passes -/

/-- Repeating the pass until nothing changes is repeating it to the end. -/
theorem passes_eq_iterate (n : Nat) (s : List Char) : passes encode n s = (pass encode)^[n] s := by
  induction n generalizing s with
  | zero => rfl
  | succ n ih =>
    rw [passes, Function.iterate_succ_apply]
    split
    · rename_i h
      rw [h]
      exact (Function.iterate_fixed h n).symm
    · exact ih _

theorem passes_succ (n : Nat) (s : List Char) :
    passes encode (n + 1) s = pass encode (passes encode n s) := by
  rw [passes_eq_iterate, passes_eq_iterate, Function.iterate_succ_apply']

end PromptTheme.Group
