/-
What the passes do to the escape sequences of earlier passes. A pass reads the bracket behind an ESC like
any other, so a group may begin there, and then the sequence is cut apart; and an ESC in a style is drawn
nowhere. `Harmless` says that neither happens in any pass. It is what the sequences need to stay intact,
and it is enough: then nothing of a sequence is left when a rendered text is stripped.
-/
import PromptTheme.Proofs.Prompt.Expand
import PromptTheme.Proofs.Prompt.Pieces
import PromptTheme.Proofs.Terminal.Strip
import Mathlib.Tactic

namespace PromptTheme

open Escape (esc Intact Woven Encoded)

namespace Group

variable {encode : List Char → List Char}

/-! ## Harm -/

/-- A group begins at the bracket right behind an ESC. -/
def CutsEscape (ps : List Piece) : Prop :=
  ∃ before text style after, ps = before ++ .char esc :: .group text style :: after

/-- A group has an ESC in its style. -/
def SwallowsEscape (ps : List Piece) : Prop := ∃ style ∈ styles ps, esc ∈ style

/-- No pass over a text does anything to an escape sequence of an earlier one. -/
def Harmless (encode : List Char → List Char) (s : List Char) : Prop :=
  ∀ k < maxPasses,
    ¬CutsEscape (pieces (passes encode k s)) ∧ ¬SwallowsEscape (pieces (passes encode k s))

/-- A pass loses no ESC: there are as many as before, and those that it draws for its groups. -/
def KeepsEscapes (encode : List Char → List Char) (s : List Char) : Prop :=
  (pass encode s).count esc =
    s.count esc + ((styles (pieces s)).map fun style => (encode style).count esc + 1).sum

theorem CutsEscape.append {ps : List Piece} (h : CutsEscape ps) (front : List Piece) :
    CutsEscape (front ++ ps) := by
  obtain ⟨before, text, style, after, rfl⟩ := h
  exact ⟨front ++ before, text, style, after, by simp⟩

theorem CutsEscape.cons {ps : List Piece} (h : CutsEscape ps) (p : Piece) : CutsEscape (p :: ps) :=
  h.append [p]

theorem rest?_behind_esc {s : List Char} (h : ¬CutsEscape (pieces (esc :: '[' :: s))) : rest? s = none := by
  cases hr : rest? s with
  | none => rfl
  | some g =>
    obtain ⟨text, style, after⟩ := g
    refine absurd ?_ h
    rw [pieces_char (.inl (by decide)), pieces_group (rest?_eq_some_iff.1 hr)]
    exact ⟨[], _, _, _, rfl⟩

/-! ## A pass over a woven text -/

/-- Where no group begins behind an ESC, the sequence there is read character by character. -/
theorem pieces_sequence {numbers : List (List Char)} (hn : ∀ n ∈ numbers, Escape.IsNumber n) {s : List Char}
    (h : ¬CutsEscape (pieces (esc :: (Escape.body numbers ++ s)))) :
    pieces (esc :: (Escape.body numbers ++ s)) =
      (esc :: Escape.body numbers).map .char ++ pieces s := by
  rw [Escape.body, List.cons_append] at h ⊢
  rw [pieces_char (.inl (by decide)), pieces_char (.inr (rest?_behind_esc h)),
    pieces_append_of_open_free (Escape.open_not_mem_behind_bracket hn)]
  rfl

theorem Opens.woven {s text style after : List Char} (h : Opens s text style after) (hs : Woven s) :
    Woven text ∧ Woven after := by
  obtain ⟨h1, h2⟩ := hs.split (c := ']') (by decide) h.eq
  have h3 := Woven.of_cons (by decide) h2
  exact ⟨h1, (h3.split (c := ')') (by decide) rfl).2⟩

/-- A pass that cuts no sequence apart keeps a text woven. -/
theorem woven_pass (hE : ∀ style, Encoded (encode style)) {s : List Char} (hs : Woven s)
    (h : ¬CutsEscape (pieces s)) : Woven (pass encode s) := by
  -- a group is longer than one step of `Woven`
  induction hl : s.length using Nat.strong_induction_on generalizing s with
  | _ l ih =>
    cases hs with
    | nil => rw [pass_nil]; exact .nil
    | @char c s hc hw =>
      by_cases hp : c ≠ '[' ∨ rest? s = none
      · rw [pieces_char hp] at h
        rw [pass_char hp]
        exact .char hc (ih s.length (by simp [← hl]) hw (fun hcut => h (hcut.cons _)) rfl)
      · rw [not_or, not_not, ← ne_eq, Option.ne_none_iff_exists'] at hp
        obtain ⟨rfl, ⟨text, style, after⟩, hg⟩ := hp
        have hlen := rest?_length hg
        have ho := rest?_eq_some_iff.1 hg
        obtain ⟨ht, ha⟩ := ho.woven hw
        rw [pieces_group ho] at h
        rw [pass_group ho]
        refine (hE style).woven.append (ht.append (Encoded.reset.woven.append ?_))
        have hlt : after.length < l := by simp only [List.length_cons] at hl; omega
        exact ih after.length hlt ha (fun hcut => h (hcut.cons _)) rfl
    | @sequence numbers s hne hn hw =>
      have hp := pieces_sequence (fun n hm => (hn n hm).1) h
      rw [hp] at h
      rw [pass_of_pieces hp]
      refine .sequence hne hn (ih s.length ?_ hw (fun hcut => h (hcut.append _)) rfl)
      simp only [List.length_cons, List.length_append] at hl
      omega

/-- A pass that cuts a sequence apart leaves an ESC that begins none. -/
theorem not_intact_pass (hE : ∀ style, Encoded (encode style)) {s : List Char} (hs : Intact s)
    (h : CutsEscape (pieces s)) : ¬Intact (pass encode s) := by
  obtain ⟨before, text, style, after, hp⟩ := h
  have hg : .group text style ∈ pieces s := by rw [hp]; simp
  obtain ⟨_, _, ho⟩ := opens_of_mem_pieces hg
  -- the text of the group begins with a digit of the sequence
  obtain ⟨d, rest, hd, rfl⟩ : ∃ d rest, d.isDigit = true ∧ text = d :: rest := by
    have hsource := source_pieces s
    rw [hp, List.flatMap_append, List.flatMap_cons, List.flatMap_cons] at hsource
    obtain ⟨numbers, tail, hne, hn, ht⟩ := hs _ _ hsource.symm
    obtain ⟨d, digits, hd, hb⟩ := Escape.body_eq_cons hne hn
    rw [hb] at ht
    cases text with
    | nil => exact absurd rfl ho.text_ne
    | cons c text =>
      have h1 := (List.cons.inj ht).2
      have h2 := (List.cons.inj h1).1
      exact ⟨c, text, h2 ▸ hd, rfl⟩
  intro hi
  obtain ⟨numbers, tail, -, -, ht⟩ := hi (before.flatMap (Piece.draw encode))
    (encode style ++ (d :: rest) ++ Escape.reset ++ after.flatMap (Piece.draw encode)) (by
      rw [pass, hp, List.flatMap_append, List.flatMap_cons, List.flatMap_cons]
      rfl)
  rw [Escape.body] at ht
  rcases (hE style).eq_nil_or with h | ⟨more, h⟩
  · rw [h] at ht
    have hbr := (List.cons.inj ht).1
    subst hbr
    revert hd
    decide
  · rw [h] at ht
    exact absurd (List.cons.inj ht).1 (by decide)

/-! ## Lost escapes -/

theorem count_pass (encode : List Char → List Char) (s : List Char) :
    (pass encode s).count esc + ((styles (pieces s)).map (List.count esc)).sum =
      s.count esc + ((styles (pieces s)).map fun style => (encode style).count esc + 1).sum := by
  have hbrackets : ['[', ']', '(', ')'].count esc = 0 := by decide
  have hreset : Escape.reset.count esc = 1 := by decide
  have h := count_pass_add encode esc s
  simp only [hbrackets, hreset, Nat.zero_add] at h
  exact h

theorem keepsEscapes_iff (s : List Char) : KeepsEscapes encode s ↔ ¬SwallowsEscape (pieces s) := by
  have h := count_pass encode s
  have hz : ((styles (pieces s)).map (List.count esc)).sum = 0 ↔ ¬SwallowsEscape (pieces s) := by
    rw [List.sum_eq_zero_iff]
    simp [SwallowsEscape, List.count_eq_zero]
  rw [← hz, KeepsEscapes]
  omega

/-! ## The passes over a text without ESC -/

theorem Harmless.woven (hE : ∀ style, Encoded (encode style)) {s : List Char} (hs : esc ∉ s)
    (h : Harmless encode s) : ∀ k ≤ maxPasses, Woven (passes encode k s) := by
  intro k
  induction k with
  | zero => intro _; exact Escape.woven_of_not_mem hs
  | succ k ih =>
    intro hk
    rw [passes_succ]
    exact woven_pass hE (ih (by omega)) (h k hk).1

theorem harmless_iff (hE : ∀ style, Encoded (encode style)) {s : List Char} (hs : esc ∉ s) :
    (∀ k ≤ maxPasses, Intact (passes encode k s)) ∧
        (∀ k < maxPasses, KeepsEscapes encode (passes encode k s)) ↔
      Harmless encode s := by
  constructor
  · rintro ⟨hi, hk⟩ k hlt
    refine ⟨fun hcut => ?_, (keepsEscapes_iff _).1 (hk k hlt)⟩
    have := hi (k + 1) hlt
    rw [passes_succ] at this
    exact not_intact_pass hE (hi k (Nat.le_of_lt hlt)) hcut this
  · intro h
    exact ⟨fun k hk => (h.woven hE hs k hk).intact, fun k hk => (keepsEscapes_iff _).2 (h k hk).2⟩

/-! ## Styles that draw something -/

theorem mem_of_mem_pass (hE : ∀ style, Encoded (encode style)) {c : Char} (hc : Escape.Outside c)
    {s : List Char} (h : c ∈ pass encode s) : c ∈ s := by
  induction s using reading with
  | nil => rw [pass_nil] at h; exact h
  | char d s hp ih =>
    rw [pass_char hp, List.mem_cons] at h
    rw [List.mem_cons]
    exact h.imp_right ih
  | group s text style after ho ih =>
    rw [pass_group ho] at h
    simp only [List.mem_append] at h
    rw [ho.eq]
    rcases h with h | h | h | h
    · exact absurd h ((hE style).not_mem hc)
    · simp [h]
    · exact absurd h (Encoded.reset.not_mem hc)
    · simp [ih h]

theorem mem_of_mem_passes (hE : ∀ style, Encoded (encode style)) {c : Char} (hc : Escape.Outside c)
    {s : List Char} {k : Nat} (h : c ∈ passes encode k s) : c ∈ s := by
  induction k with
  | zero => exact h
  | succ k ih =>
    rw [passes_succ] at h
    exact ih (mem_of_mem_pass hE hc h)

/-- Where all styles draw something, a pass begins with a character other than ESC only when the text
begins with it. -/
theorem eq_cons_of_pass (hE : ∀ style, Encoded (encode style)) {s x : List Char} {c : Char}
    (hne : ∀ style ∈ styles (pieces s), encode style ≠ []) (hc : c ≠ esc) (h : pass encode s = c :: x) :
    ∃ t, s = c :: t ∧ pass encode t = x := by
  induction s using reading with
  | nil => rw [pass_nil] at h; cases h
  | char d s hd _ =>
    rw [pass_char hd] at h
    obtain ⟨rfl, rfl⟩ := List.cons.inj h
    exact ⟨s, rfl, rfl⟩
  | group s text style after ho _ =>
    rw [pieces_group ho] at hne
    obtain ⟨more, hm⟩ := ((hE style).eq_nil_or).resolve_left (hne style List.mem_cons_self)
    rw [pass_group ho, hm] at h
    exact absurd (List.cons.inj h).1.symm hc

/-- A pass whose styles all draw something begins no group that the text does not begin. -/
theorem rest?_pass (hE : ∀ style, Encoded (encode style)) {s : List Char}
    (hne : ∀ style ∈ styles (pieces s), encode style ≠ []) (h : rest? s = none) :
    rest? (pass encode s) = none := by
  rw [Option.eq_none_iff_forall_ne_some]
  rintro ⟨text, style, after⟩ hg
  obtain ⟨heq, htext, hstyle, hte, hse⟩ := rest?_eq_some_iff.1 hg
  obtain ⟨a, b, rfl, ha⟩ := List.eq_append_cons_of_mem
    (mem_of_mem_pass hE (c := ']') (by decide) (by rw [heq]; simp))
  -- up to its first closing bracket the text is read character by character
  have hp := pieces_append ha h
  rw [pass_of_pieces hp, pass_char (.inl (by decide))] at heq
  rw [hp, styles_chars_append, pieces_char (.inl (by decide))] at hne
  obtain ⟨rfl, hparen⟩ := stop_inj ha htext heq
  obtain ⟨b, rfl, hb⟩ := eq_cons_of_pass hE hne (by decide) hparen
  obtain ⟨st, r, rfl, hst⟩ := List.eq_append_cons_of_mem
    (mem_of_mem_pass hE (c := ')') (by decide) (by rw [hb]; simp))
  have hse' : st ≠ [] := by
    rintro rfl
    rw [List.nil_append, pass_char (.inl (by decide))] at hb
    exact hse (stop_inj (a := []) (by simp) hstyle hb).1.symm
  rw [rest?_eq_some_iff.2 ⟨rfl, ha, hst, hte, hse'⟩] at h
  cases h

/-- When all styles of the first pass draw something, a group of the second pass begins behind an ESC. -/
theorem styles_pass_eq_nil (hE : ∀ style, Encoded (encode style)) {s : List Char}
    (hne : ∀ style ∈ styles (pieces s), encode style ≠ []) (h : ¬CutsEscape (pieces (pass encode s))) :
    styles (pieces (pass encode s)) = [] := by
  induction s using reading with
  | nil => rw [pass_nil, pieces_nil]; rfl
  | char c s hc ih =>
    rw [pieces_char hc] at hne
    have hc' : c ≠ '[' ∨ rest? (pass encode s) = none := hc.imp_right (rest?_pass hE hne)
    rw [pass_char hc, pieces_char hc'] at h ⊢
    exact ih hne fun hcut => h (hcut.cons _)
  | group s text style after ho ih =>
    rw [pieces_group ho] at hne
    obtain ⟨more, hm⟩ := ((hE style).eq_nil_or).resolve_left (hne style List.mem_cons_self)
    have hfree : ']' ∉ more ++ text ++ Escape.reset := by
      have h1 := (hE style).not_mem (c := ']') (by decide)
      rw [hm] at h1
      simp only [List.mem_append, not_or]
      refine ⟨⟨fun hmem => h1 ?_, ho.text_free⟩, by decide⟩
      simp [hmem]
    have hpass : pass encode ('[' :: s) =
        esc :: '[' :: (more ++ text ++ Escape.reset ++ pass encode after) := by
      rw [pass_group ho, hm]
      simp
    rw [hpass] at h ⊢
    have hnone := rest?_behind_esc h
    -- up to the end of the group there is no closing bracket, so that no group begins in it either
    rw [pieces_char (.inl (by decide)), pieces_char (.inr hnone), pieces_append hfree hnone] at h ⊢
    have := ih (fun st hst => hne st (List.mem_cons_of_mem _ hst))
      (fun hcut => h (((hcut.append _).cons _).cons _))
    rw [← this]
    exact styles_chars_append _ _

theorem passes_zero (s : List Char) : passes encode 0 s = s := rfl

theorem passes_one (s : List Char) : passes encode 1 s = pass encode s := passes_succ 0 s

/-- When the second pass finds no group, no later pass changes anything. -/
theorem passes_of_styles_eq_nil {s : List Char} (h : styles (pieces (passes encode 1 s)) = []) (k : Nat) :
    passes encode (k + 1) s = passes encode 1 s := by
  induction k with
  | zero => rfl
  | succ k ih => rw [passes_succ, ih, pass_eq_self h]

theorem harmless_iff_of_styles (hE : ∀ style, Encoded (encode style)) {s : List Char} (hs : esc ∉ s)
    (hne : ∀ style ∈ styles (pieces s), encode style ≠ []) :
    Harmless encode s ↔ styles (pieces (passes encode 1 s)) = [] := by
  constructor
  · intro h
    have hcut := (h 1 (by decide)).1
    rw [passes_one] at hcut ⊢
    exact styles_pass_eq_nil hE hne hcut
  · intro h k _
    cases k with
    | zero =>
      constructor
      · rintro ⟨before, text, style, after, hp⟩
        have hmem : .char esc ∈ pieces s := by rw [← passes_zero s, hp]; simp
        exact hs (mem_of_mem_source hmem (by simp [Piece.source]))
      · rintro ⟨style, hst, hmem⟩
        obtain ⟨text, hg⟩ := mem_styles hst
        exact hs (mem_of_mem_source hg (by simp [Piece.source, hmem]))
    | succ k =>
      rw [passes_of_styles_eq_nil h k]
      constructor
      · rintro ⟨before, text, style, after, hp⟩
        rw [hp] at h
        simp [styles] at h
      · rintro ⟨style, hst, -⟩
        rw [h] at hst
        cases hst

end Group

/-! ## Rendered texts -/

theorem woven_breakLines {s : List Char} (h : Woven s) : Woven (breakLines s) := by
  induction hl : s.length using Nat.strong_induction_on generalizing s with
  | _ l ih =>
    cases h with
    | nil => exact .nil
    | @char c s hc hw =>
      simp only [List.length_cons] at hl
      by_cases hb : ∃ rest, c = '\\' ∧ s = 'n' :: rest
      · obtain ⟨rest, rfl, rfl⟩ := hb
        simp only [List.length_cons] at hl
        exact .char (by decide) (ih rest.length (by omega) (Woven.of_cons (by decide) hw) rfl)
      · rw [breakLines_cons fun rest hc hs => hb ⟨rest, hc, hs⟩]
        exact .char hc (ih s.length (by omega) hw rfl)
    | @sequence numbers s hne hn hw =>
      have hfree : '\\' ∉ esc :: Escape.body numbers := by
        rw [List.mem_cons, not_or]
        exact ⟨by decide, Escape.Outside.not_mem_body (by decide) fun n hm => (hn n hm).1⟩
      rw [← List.cons_append, breakLines_append_of_not_mem hfree]
      refine .sequence hne hn (ih s.length ?_ hw rfl)
      simp only [List.length_cons, List.length_append] at hl
      omega

namespace Engine

/-- Where nothing that goes into a rendered text has an ESC, every sequence stays intact in every pass,
and no pass loses one, exactly when the passes are harmless. Then each ESC of the rendered text begins a
sequence, and nothing of a sequence is left when the text is stripped. When all styles of the first pass
draw something, that is so exactly when the second pass finds no group. -/
theorem render_intact_iff (mode : EscapeMode) (c : Config) (s : Scenario) (format : String)
    (hf : EscFree format) (hc : ∀ t ∈ c.strings, EscFree t) (hs : ∀ t ∈ s.strings, EscFree t) :
    let engine : Engine := { mode := mode }
    let encode := c.activePalette.encodeWith mode
    let text := engine.expand c s format.toList
    let out := engine.render c s format
    let plain := engine.renderPlain c s format
    ((∀ k ≤ Group.maxPasses, Intact (Group.passes encode k text)) ∧
        (∀ k < Group.maxPasses, Group.KeepsEscapes encode (Group.passes encode k text)) ↔
      Group.Harmless encode text) ∧
    (Group.Harmless encode text →
      Intact out.toList ∧ EscFree plain ∧ plain.toList.Sublist (Escape.visible out.toList)) ∧
    ((∀ style ∈ Group.styles (Group.pieces text), encode style ≠ []) →
      (Group.Harmless encode text ↔ Group.styles (Group.pieces (Group.passes encode 1 text)) = [])) := by
  intro engine encode text out plain
  have hE : ∀ style, Encoded (encode style) := c.activePalette.encoded_encodeWith mode
  have ht : esc ∉ text := esc_not_mem_expand mode hf hc hs
  refine ⟨Group.harmless_iff hE ht, fun h => ?_, Group.harmless_iff_of_styles hE ht⟩
  have hw : Woven (engine.renderChars c s format.toList) :=
    woven_breakLines (h.woven hE ht _ (Nat.le_refl _))
  obtain ⟨hfree, hsub⟩ := Terminal.stripEscapes_woven hw
  have hout : out.toList = engine.renderChars c s format.toList := String.toList_ofList
  have hplain : plain.toList = Terminal.stripEscapes (engine.renderChars c s format.toList) :=
    String.toList_ofList
  rw [EscFree, hplain, hout]
  exact ⟨hw.intact, hfree, hsub⟩

/-- The second pass reads the bracket of the first sequence as the beginning of a group. -/
theorem render_intact_iff_cut :
    let text := Engine.expand {} .empty {} "[a](red)](blue)".toList
    let encode := Config.empty.activePalette.encodeWith .joined
    EscFree "[a](red)](blue)" ∧ (∀ t ∈ Config.empty.strings, EscFree t) ∧
      (∀ t ∈ ({} : Scenario).strings, EscFree t) ∧
      (∀ style ∈ Group.styles (Group.pieces text), encode style ≠ []) ∧
      ¬Group.Harmless encode text ∧
      ¬((∀ k ≤ Group.maxPasses, Intact (Group.passes encode k text)) ∧
        ∀ k < Group.maxPasses, Group.KeepsEscapes encode (Group.passes encode k text)) ∧
      Engine.render {} .empty {} "[a](red)](blue)" = "\x1b\x1b[34m31ma\x1b[0m\x1b[0m" := by
  intro text encode
  have hf : EscFree "[a](red)](blue)" := by decide
  have hc : ∀ t ∈ Config.empty.strings, EscFree t := by decide
  have hs : ∀ t ∈ ({} : Scenario).strings, EscFree t := by decide
  have hd : ∀ style ∈ Group.styles (Group.pieces text), encode style ≠ [] := by decide +kernel
  obtain ⟨hiff, -, hstyles⟩ := render_intact_iff .joined .empty {} "[a](red)](blue)" hf hc hs
  have hgroup : Group.styles (Group.pieces (Group.passes encode 1 text)) ≠ [] := by decide +kernel
  have hharm : ¬Group.Harmless encode text := fun h => hgroup ((hstyles hd).1 h)
  exact ⟨hf, hc, hs, hd, hharm, fun h => hharm (hiff.1 h), by decide +kernel⟩

end Engine

end PromptTheme
