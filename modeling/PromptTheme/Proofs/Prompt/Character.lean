/-
How the prompt character is drawn. Its style stands in a symbol, which may be any text; it is taken out
there and written into a group around the value, and the passes read that group with rules of their own.
`PromptCharacter.styleOf?_eq_some_iff` says what is taken out, and `Engine.render_character_iff` that the
two readings fit for every symbol but one kind: where the first `](` is closed at once the style is empty,
what is written is no group for a pass, and its brackets are shown.
-/
import PromptTheme.Proofs.Prompt.Flat
import PromptTheme.Proofs.Prompt.Sweep

namespace PromptTheme

open Escape (esc Encoded)

namespace PromptCharacter

/-! ## The style of a symbol -/

/-- The style stands between the first `](` of the symbol and the next `)`. -/
def Marks (symbol style : List Char) : Prop :=
  ∃ before after, symbol = before ++ ']' :: '(' :: (style ++ ')' :: after) ∧ ')' ∉ style ∧
    ∀ before' after', symbol = before' ++ ']' :: '(' :: after' → before.length ≤ before'.length

/-- The style of a symbol: the one that it marks, or the default when it marks none. -/
def HasStyle (symbol style : List Char) : Prop :=
  Marks symbol style ∨ (∀ marked, ¬ Marks symbol marked) ∧ style = defaultStyle.toList

theorem styleOf?_eq_some_iff {symbol style : List Char} : styleOf? symbol = some style ↔ Marks symbol style := by
  have hfirst : ∀ rest, Text.afterFirst? [']', '('] symbol = some rest ↔
      ∃ before, symbol = before ++ ']' :: '(' :: rest ∧
        ∀ before' after', symbol = before' ++ ']' :: '(' :: after' → before.length ≤ before'.length :=
    fun _ => Text.afterFirst?_eq_some_iff
  unfold styleOf?
  constructor
  · intro h
    split at h
    · rename_i rest hrest
      split at h
      · rename_i hclose
        cases h
        obtain ⟨before, hsymbol, hbefore⟩ := (hfirst rest).1 hrest
        obtain ⟨style, after, rfl, hstyle⟩ := List.eq_append_cons_of_mem (List.contains_iff_mem.1 hclose)
        rw [Group.takeWhile_stop hstyle]
        exact ⟨before, after, hsymbol, hstyle, hbefore⟩
      · cases h
    · cases h
  · rintro ⟨before, after, hsymbol, hstyle, hbefore⟩
    rw [(hfirst _).2 ⟨before, hsymbol, hbefore⟩]
    dsimp only
    rw [if_pos (by simp), Group.takeWhile_stop hstyle]

/-- A style has nothing in it that would close its group. -/
theorem paren_not_mem_style (ctx : ModuleContext) : ')' ∉ (style ctx).toList := by
  rw [style]
  cases hstyle : styleOf? (symbol ctx).toList with
  | none => decide
  | some marked =>
    obtain ⟨-, -, -, hfree, -⟩ := styleOf?_eq_some_iff.1 hstyle
    simpa using hfree

theorem hasStyle_iff {ctx : ModuleContext} {t : List Char} :
    HasStyle (symbol ctx).toList t ↔ t = (style ctx).toList := by
  unfold HasStyle style
  simp only [← styleOf?_eq_some_iff]
  cases styleOf? (symbol ctx).toList with
  | none => simp
  | some marked => simp [eq_comm]

end PromptCharacter

namespace Group

/-! ## One group and a space -/

variable {encode : List Char → List Char} {text style : List Char}

theorem passes_styled (hE : ∀ style, Encoded (encode style)) (htext : text ≠ []) (hclose : ']' ∉ text)
    (hstyle : style ≠ []) (hparen : ')' ∉ style) :
    passes encode maxPasses ('[' :: (text ++ ']' :: '(' :: (style ++ [')', ' ']))) =
      encode style ++ (text ++ (Escape.reset ++ [' '])) := by
  have hflat : ∀ g ∈ [(⟨[], text, style⟩ : Segment)], g.Flat := by
    intro g hg
    rw [List.mem_singleton.1 hg]
    exact ⟨by simp, by simp, htext, hclose, hstyle, hparen⟩
  have hpasses := passes_flat hE hflat (by decide : '[' ∉ [' ']) (by decide) 4
  simpa [maxPasses, Segment.source, Segment.drawn] using hpasses

/-- Without a style it is no group for a pass. -/
theorem passes_styleless (hopen : '[' ∉ text) (hclose : ']' ∉ text) :
    passes encode maxPasses ('[' :: (text ++ [']', '(', ')', ' '])) =
      '[' :: (text ++ [']', '(', ')', ' ']) := by
  have hrest : rest? (text ++ [']', '(', ')', ' ']) = none := by
    rw [Option.eq_none_iff_forall_ne_some]
    rintro ⟨t, style, after⟩ hg
    obtain ⟨heq, ht, hs, -, hne⟩ := rest?_eq_some_iff.1 hg
    have hbehind := (List.cons.inj (stop_inj hclose ht heq).2).2
    exact hne (stop_inj (by simp) hs hbehind).1.symm
  have hpass : pass encode ('[' :: (text ++ [']', '(', ')', ' '])) = '[' :: (text ++ [']', '(', ')', ' ']) := by
    rw [pass_char (.inr hrest), pass_eq_self_of_open_free (by simp [hopen])]
  rw [maxPasses, passes, if_pos hpass]

end Group

namespace Engine

section

variable {e : Engine} {c : Config} {s : Scenario} {format : String} {text style : List Char}

/-! ## A format that expands to one group -/

theorem render_of_passes
    (h : Group.passes (c.activePalette.encodeWith e.mode) Group.maxPasses (e.expand c s format.toList) = text)
    (hslash : '\\' ∉ text) : e.render c s format = String.ofList text ∧
      e.renderPlain c s format = String.ofList (Terminal.stripEscapes text) := by
  have hchars : e.renderChars c s format.toList = text := by
    rw [renderChars, h, breakLines_of_not_mem hslash]
  rw [render, renderPlain, hchars]
  exact ⟨rfl, rfl⟩

theorem render_styled
    (h : e.expand c s format.toList = '[' :: (text ++ ']' :: '(' :: (style ++ [')', ' '])))
    (htext : text ≠ []) (hclose : ']' ∉ text) (hslash : '\\' ∉ text)
    (hplain : ∀ d ∈ text, Terminal.isIntroducer d = false) (hstyle : style ≠ []) (hparen : ')' ∉ style) :
    e.render c s format =
        String.ofList (c.activePalette.encodeWith e.mode style ++ (text ++ (Escape.reset ++ [' ']))) ∧
      e.renderPlain c s format = String.ofList (text ++ [' ']) := by
  have hE : ∀ style, Encoded (c.activePalette.encodeWith e.mode style) :=
    c.activePalette.encoded_encodeWith e.mode
  have hstrip : Terminal.stripEscapes
      (c.activePalette.encodeWith e.mode style ++ (text ++ (Escape.reset ++ [' ']))) = text ++ [' '] := by
    rw [Terminal.stripEscapes_encoded (hE style), Terminal.stripEscapes_append hplain,
      Terminal.stripEscapes_encoded Encoded.reset,
      Terminal.stripEscapes_eq_self (List.forall_mem_singleton.2 (by decide))]
  rw [← hstrip]
  apply render_of_passes
  · rw [h]
    exact Group.passes_styled hE htext hclose hstyle hparen
  · simp only [List.mem_append, not_or]
    exact ⟨(hE style).not_mem (by decide), hslash, by decide, by decide⟩

theorem render_styleless
    (h : e.expand c s format.toList = '[' :: (text ++ [']', '(', ')', ' ']))
    (hopen : '[' ∉ text) (hclose : ']' ∉ text) (hslash : '\\' ∉ text)
    (hplain : ∀ d ∈ text, Terminal.isIntroducer d = false) :
    e.render c s format = String.ofList ('[' :: (text ++ [']', '(', ')', ' '])) ∧
      e.renderPlain c s format = String.ofList ('[' :: (text ++ [']', '(', ')', ' '])) := by
  have hintro : ∀ d ∈ '[' :: (text ++ [']', '(', ')', ' ']), Terminal.isIntroducer d = false := by
    rw [List.forall_mem_cons, List.forall_mem_append]
    exact ⟨by decide, hplain, by simp [Terminal.isIntroducer]⟩
  nth_rewrite 2 [← Terminal.stripEscapes_eq_self hintro]
  apply render_of_passes
  · rw [h]
    exact Group.passes_styleless hopen hclose
  · simp [hslash]

/-! ## The fragment of the prompt character -/

theorem expand_character {v : String} (he : e.registry.find "character" = .character)
    (hv : s.values.find? "character" = some v) (hne : v ≠ "") (hon : c.isDisabled "character" = false)
    (hown : c.customModule? "character" = none) :
    e.expand c s "$character".toList = '[' :: (v.toList ++ ']' :: '(' ::
      ((PromptCharacter.style ⟨"character", v, c, s⟩).toList ++ [')', ' '])) := by
  have hvalue : s.value? "character" = some v := by
    rw [Scenario.value?, hv, Option.filter_some, if_pos (by simpa using hne)]
  have hresolve : e.resolve c s "character" = PromptCharacter.render ⟨"character", v, c, s⟩ := by
    rw [resolve, hvalue]
    dsimp only
    rw [hon, hown, if_neg Bool.false_ne_true, Option.isSome_none, if_neg Bool.false_ne_true, he]
    rfl
  have hformat : "$character".toList = '$' :: "character".toList := by decide
  have hname : ∀ d ∈ "character".toList, Reference.isNameChar d = true := List.all_eq_true.1 (by decide)
  rw [expand, hformat, Reference.sweep_reference (by decide) hname, String.ofList_toList, hresolve,
    PromptCharacter.render, styledGroup]
  simp [String.toList_append]

end

/-- A prompt character that shows something, is not switched off and is not defined by the user, is drawn
in the style of the symbol for the outcome of the last command: the style is what stands between the first
`](` of the symbol and the next `)`, or the default style. Stripped, it is its value and a space. This is
so exactly when that style is not empty; otherwise the brackets of the group are shown. -/
theorem render_character_iff (c : Config) (s : Scenario) (v : String) (mode : EscapeMode)
    (hv : s.values.find? "character" = some v) (hne : v ≠ "")
    (hfree : ∀ d ∈ ['[', ']', '\\', esc, '\u009b'], d ∉ v.toList)
    (hon : c.isDisabled "character" = false) (hown : c.customModule? "character" = none) :
    let engine : Engine := { mode := mode }
    let ctx : ModuleContext := ⟨"character", v, c, s⟩
    let style := (PromptCharacter.style ctx).toList
    let drawn := c.activePalette.encodeWith mode style ++ (v.toList ++ (Escape.reset ++ [' ']))
    let bare := "[" ++ v ++ "]() "
    (∀ t, PromptCharacter.HasStyle (PromptCharacter.symbol ctx).toList t ↔ t = style) ∧
    (engine.render c s "$character" = String.ofList drawn ∧
      engine.renderPlain c s "$character" = v ++ " " ↔ style ≠ []) ∧
    (style = [] → engine.render c s "$character" = bare ∧ engine.renderPlain c s "$character" = bare) := by
  intro engine ctx style drawn bare
  obtain ⟨hopen, hclose, hslash, hesc, hcsi⟩ :
      '[' ∉ v.toList ∧ ']' ∉ v.toList ∧ '\\' ∉ v.toList ∧ esc ∉ v.toList ∧ '\u009b' ∉ v.toList := by
    simpa using hfree
  have hplain : ∀ d ∈ v.toList, Terminal.isIntroducer d = false := Terminal.isIntroducer_eq_false hesc hcsi
  have hbuiltin : Registry.builtin.find "character" = .character := by decide
  have htext : engine.expand c s "$character".toList = '[' :: (v.toList ++ ']' :: '(' :: (style ++ [')', ' '])) :=
    expand_character hbuiltin hv hne hon hown
  have hstyled : style ≠ [] → engine.render c s "$character" = String.ofList drawn ∧
      engine.renderPlain c s "$character" = v ++ " " := by
    intro hstyle
    have hshown : v ++ " " = String.ofList (v.toList ++ [' ']) := by simp
    rw [hshown]
    exact render_styled htext (by simpa using hne) hclose hslash hplain hstyle
      (PromptCharacter.paren_not_mem_style ctx)
  have hbare : style = [] → engine.render c s "$character" = bare ∧
      engine.renderPlain c s "$character" = bare := by
    intro hstyle
    have hshown : bare = String.ofList ('[' :: (v.toList ++ [']', '(', ')', ' '])) := by
      simp [bare, String.append_assoc]
    rw [hstyle] at htext
    rw [hshown]
    exact render_styleless htext hopen hclose hslash hplain
  refine ⟨fun t => PromptCharacter.hasStyle_iff, ⟨?_, hstyled⟩, hbare⟩
  rintro ⟨-, hshown⟩ hstyle
  have hlength := congrArg String.length ((hbare hstyle).2.symm.trans hshown)
  have hends : "[".length = 1 ∧ "]() ".length = 4 ∧ " ".length = 1 := by decide
  simp only [bare, String.length_append] at hlength
  omega

/-- A symbol with a second group behind the first, and one whose first group has an empty style. -/
theorem render_character_iff_symbols :
    let c : Config := .ofEntries [("character", .table [
      ("error_symbol", .string "[✖]()[x](red)"), ("success_symbol", .string "é[x](bold #ff8800)[y](red)")])]
    let s : Scenario := { values := .ofList [("character", "❯ (1)")] }
    let failed : Scenario := { s with error := true }
    (render {} c s "$character" = "\x1b[1;38;2;255;136;0m❯ (1)\x1b[0m " ∧
      renderPlain {} c s "$character" = "❯ (1) ") ∧
    render {} c failed "$character" = "[❯ (1)]() " ∧ renderPlain {} c failed "$character" = "[❯ (1)]() " := by
  intro c s failed
  have hv : s.values.find? "character" = some "❯ (1)" := by decide
  have hfree : ∀ d ∈ ['[', ']', '\\', esc, '\u009b'], d ∉ "❯ (1)".toList := by simp [esc]
  have hon : c.isDisabled "character" = false := rfl
  have hown : c.customModule? "character" = none := rfl
  obtain ⟨-, hdrawn, -⟩ := render_character_iff c s "❯ (1)" .joined hv (by decide) hfree hon hown
  obtain ⟨-, -, hbare⟩ := render_character_iff c failed "❯ (1)" .joined hv (by decide) hfree hon hown
  have hstyle : (PromptCharacter.style ⟨"character", "❯ (1)", c, s⟩).toList ≠ [] := by decide +kernel
  have hempty : (PromptCharacter.style ⟨"character", "❯ (1)", c, failed⟩).toList = [] := by decide +kernel
  have hchars : c.activePalette.encodeWith .joined (PromptCharacter.style ⟨"character", "❯ (1)", c, s⟩).toList ++
      ("❯ (1)".toList ++ (Escape.reset ++ [' '])) = "\x1b[1;38;2;255;136;0m❯ (1)\x1b[0m ".toList := by
    decide +kernel
  have hshown := hdrawn.2 hstyle
  rw [hchars, String.ofList_toList] at hshown
  exact ⟨hshown, hbare hempty⟩

end Engine

end PromptTheme
