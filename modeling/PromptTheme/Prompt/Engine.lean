/-
Rendering a format string: references are replaced by the fragments of their modules, the styled
groups of the whole are drawn, and the two characters `\n` become a line break.
-/
import PromptTheme.Prompt.Group
import PromptTheme.Prompt.Renderer
import PromptTheme.Terminal.Width

namespace PromptTheme

/-! ## Line breaks -/

/-- Replaces each backslash followed by `n` by a line break. -/
def breakLines : List Char → List Char
  | '\\' :: 'n' :: rest => '\n' :: breakLines rest
  | c :: rest => c :: breakLines rest
  | [] => []

/-- The two characters that become a line break. -/
def breakMark : List Char := ['\\', 'n']

theorem breakLines_cons {c : Char} {s : List Char} (h : ∀ rest, c = '\\' → s ≠ 'n' :: rest) :
    breakLines (c :: s) = c :: breakLines s := by
  rw [breakLines]
  exact fun rest hc hs => h rest hc hs

/-- A front stays as it is when no mark is in it and none begins at its end. -/
theorem breakLines_append {a b : List Char} (ha : ¬ breakMark <:+: a)
    (hb : a.getLast? = some '\\' → b.head? ≠ some 'n') : breakLines (a ++ b) = a ++ breakLines b := by
  induction a with
  | nil => rfl
  | cons c a ih =>
    have hmark : ∀ rest, c = '\\' → a ++ b ≠ 'n' :: rest := by
      rintro rest rfl hs
      cases a with
      | nil =>
        obtain rfl : b = 'n' :: rest := hs
        exact hb rfl rfl
      | cons d a =>
        obtain ⟨rfl, -⟩ := List.cons.inj hs
        exact ha ⟨[], a, rfl⟩
    have hfree : ¬ breakMark <:+: a := fun h => ha (h.trans (List.suffix_cons c a).isInfix)
    have hend : a.getLast? = some '\\' → b.head? ≠ some 'n' := by
      intro h
      apply hb
      rw [List.getLast?_cons, h]
      rfl
    rw [List.cons_append, breakLines_cons hmark, ih hfree hend, List.cons_append]

theorem breakLines_append_of_not_mem {a : List Char} (ha : '\\' ∉ a) (b : List Char) :
    breakLines (a ++ b) = a ++ breakLines b :=
  breakLines_append (fun h => ha (h.subset List.mem_cons_self))
    fun h => absurd (List.mem_of_getLast? h) ha

theorem breakLines_of_not_mem {s : List Char} (h : '\\' ∉ s) : breakLines s = s := by
  have := breakLines_append_of_not_mem h []
  rwa [breakLines, List.append_nil] at this

/-- Parts without a mark stay as they are, and each mark between them becomes a line break. -/
theorem breakLines_intercalate : ∀ {parts : List (List Char)}, (∀ p ∈ parts, ¬ breakMark <:+: p) →
    breakLines (breakMark.intercalate parts) = ['\n'].intercalate parts
  | [], _ => rfl
  | [p], h => by
    have hp := breakLines_append (b := []) (h p (by simp)) (by simp)
    rw [List.append_nil, breakLines, List.append_nil] at hp
    rw [List.intercalate_singleton, List.intercalate_singleton, hp]
  | p :: q :: parts, h => by
    have hrest := breakLines_intercalate fun r hr => h r (List.mem_cons_of_mem p hr)
    rw [List.intercalate_cons_cons, List.intercalate_cons_cons, List.append_assoc, List.append_assoc,
      breakLines_append (h p (by simp)) (by simp [breakMark]), ← hrest]
    rfl

/-- The first part stands in front of all that is joined. -/
theorem exists_intercalate_eq (sep : List Char) (parts : List (List Char)) :
    ∃ tail, ∀ p, sep.intercalate (p :: parts) = p ++ tail := by
  cases parts with
  | nil => exact ⟨[], fun p => by rw [List.intercalate_singleton, List.append_nil]⟩
  | cons q parts =>
    refine ⟨sep ++ sep.intercalate (q :: parts), fun p => ?_⟩
    rw [List.intercalate_cons_cons, List.append_assoc]

/-- Every text is parts without a mark, with marks between them. -/
theorem exists_parts (s : List Char) : ∃ p parts, breakMark.intercalate (p :: parts) = s ∧
    ∀ q ∈ p :: parts, ¬ breakMark <:+: q := by
  induction s using breakLines.induct with
  | case1 rest ih =>
    obtain ⟨p, parts, rfl, hfree⟩ := ih
    refine ⟨[], p :: parts, ?_, ?_⟩
    · rw [List.intercalate_cons_cons]
      rfl
    · rw [List.forall_mem_cons]
      exact ⟨by decide, hfree⟩
  | case2 c rest hnot ih =>
    obtain ⟨p, parts, hrest, hfree⟩ := ih
    rw [List.forall_mem_cons] at hfree
    obtain ⟨tail, htail⟩ := exists_intercalate_eq breakMark parts
    rw [htail] at hrest
    refine ⟨c :: p, parts, by rw [htail, List.cons_append, hrest], ?_⟩
    rw [List.forall_mem_cons]
    refine ⟨fun hmark => ?_, hfree.2⟩
    rcases List.infix_cons_iff.1 hmark with ⟨more, hfront⟩ | hmark
    · -- a mark at the front would have been taken as such
      obtain ⟨rfl, hp⟩ := List.cons.inj hfront
      refine hnot (more ++ tail) rfl ?_
      rw [← hrest, ← hp]
      rfl
    · exact hfree.1 hmark
  | case3 => exact ⟨[], [], rfl, by decide⟩

/-- Breaking the lines of a text replaces every mark by a line break, and nothing else. -/
theorem breakLines_iff {s t : List Char} : breakLines s = t ↔ ∃ parts : List (List Char),
    (∀ p ∈ parts, ¬ breakMark <:+: p) ∧ breakMark.intercalate parts = s ∧ ['\n'].intercalate parts = t := by
  constructor
  · rintro rfl
    obtain ⟨p, parts, rfl, hfree⟩ := exists_parts s
    exact ⟨p :: parts, hfree, rfl, (breakLines_intercalate hfree).symm⟩
  · rintro ⟨parts, hfree, rfl, rfl⟩
    exact breakLines_intercalate hfree

/-! ## The palette -/

/-- The colors of the selected palette. -/
def Config.activePalette (c : Config) : Palette := .ofList c.paletteEntries

/-- Under a name there is the string that stands under it in the table of the selected palette. -/
theorem Config.find?_activePalette {c : Config} {name value : String} :
    c.activePalette.find? name = some value ↔
      c.path? ["palettes", c.paletteName, name] = some (.string value) := by
  have hpath : c.path? ["palettes", c.paletteName, name] =
      (c.path? ["palettes", c.paletteName]).bind (followKeys · [name]) :=
    path?_append (p := ["palettes", c.paletteName]) (by simp) [name]
  show Keyed.find? name (Keyed.ofList c.paletteEntries) = some value ↔ _
  rw [hpath, paletteEntries]
  cases hv : c.path? ["palettes", c.paletteName] with
  | none => simp [Keyed.ofList]
  | some v =>
    cases v with
    | table es =>
      have hsorted : Keyed.Sorted es := (ordered_of_path? hv).1
      have hselected := hsorted.find?_filterMap Value.asString? name
      show Keyed.find? name (Keyed.ofList (es.filterMap fun e => e.2.asString?.map (e.1, ·))) = some value ↔
        (Keyed.find? name es).bind some = _
      rw [(hsorted.filterMap Value.asString?).ofList_eq, hselected]
      cases Keyed.find? name es with
      | none => simp
      | some u => rw [Option.bind_some, Option.bind_some, Value.asString?_eq_some_iff, Option.some.injEq]
    | _ => simp [Value.asTable?, followKeys, Keyed.ofList]

structure Engine where
  registry : Registry := .builtin
  mode : EscapeMode := .joined

namespace Engine

/-- The fragment of a module: nothing when it has no value or is switched off. A definition of the
user's own goes before the renderer of that name. -/
def resolve (e : Engine) (c : Config) (s : Scenario) (name : String) : String :=
  match s.value? name with
  | none => ""
  | some value =>
    if c.isDisabled name then ""
    else
      let ctx : ModuleContext := ⟨name, value, c, s⟩
      if (c.customModule? name).isSome then Renderer.custom.render ctx
      else (e.registry.find name).render ctx

/-- The text with the fragments of all modules that it refers to. -/
def expand (e : Engine) (c : Config) (s : Scenario) (format : List Char) : List Char :=
  Reference.sweep (fun name => (e.resolve c s (String.ofList name)).toList) format

/-- Renders a format string as text for a terminal. -/
def renderChars (e : Engine) (c : Config) (s : Scenario) (format : List Char) : List Char :=
  breakLines <|
    Group.passes (c.activePalette.encodeWith e.mode) Group.maxPasses (e.expand c s format)

def render (e : Engine) (c : Config) (s : Scenario) (format : String) : String :=
  String.ofList (e.renderChars c s format.toList)

/-- Renders the format of the configuration itself. -/
def renderPrompt (e : Engine) (c : Config) (s : Scenario) : String :=
  e.render c s (c.format?.getD "")

/-- Renders without escape sequences. -/
def renderPlain (e : Engine) (c : Config) (s : Scenario) (format : String) : String :=
  String.ofList (Terminal.stripEscapes (e.renderChars c s format.toList))

/-- The terminal columns of the rendered format. -/
def width (e : Engine) (c : Config) (s : Scenario) (format : String) : Nat :=
  Terminal.displayWidth (e.renderChars c s format.toList)

end Engine

end PromptTheme
